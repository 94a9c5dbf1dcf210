import Stencil.Json.Reader
import Mathlib.Data.List.TakeWhile

/-!
# Integers as JSON

A text of digits is read as a number whatever it means. If it has more digits than the limit allows
then the reading fails, and it does so for another reason than that the text is malformed.
-/

namespace Stencil.Json

/-- A digit is no other character. -/
theorem ne_of_isDigit {c d : Char} (hc : c.isDigit) (hd : d.isDigit = false) : c ≠ d := by
  rintro rfl
  rw [hc] at hd
  contradiction

variable {c : Char} {r : Text}

/-- In front of a digit there are no blanks. -/
theorem skipSpace_of_isDigit (hc : c.isDigit) : skipSpace (c :: r) = c :: r := by
  have hspace : isSpace c = false := by
    simp [isSpace, ne_of_isDigit hc (d := ' ') (by decide),
      ne_of_isDigit hc (d := '\t') (by decide), ne_of_isDigit hc (d := '\n') (by decide),
      ne_of_isDigit hc (d := '\r') (by decide)]
  simp [skipSpace, hspace]

/-- No word begins with a digit. -/
theorem word?_of_isDigit (hc : c.isDigit) : word? (c :: r) words = none := by
  have hletter : ∀ d ∈ ['n', 't', 'f', 'N', 'I', '-'], d ≠ c := by
    intro d hd
    have hnone : ['n', 't', 'f', 'N', 'I', '-'].all fun d => !d.isDigit := by decide
    have hdigit := List.all_eq_true.mp hnone d hd
    exact (ne_of_isDigit hc (by simpa using hdigit)).symm
  simp only [List.mem_cons, List.not_mem_nil, or_false, forall_eq_or_imp, forall_eq] at hletter
  simp [word?, words, hletter]

/-- What may follow a number: nothing that would make it longer. -/
def EndsNumber (rest : Text) : Prop :=
  ∀ d t, rest = d :: t → d.isDigit = false ∧ d ≠ '.' ∧ d ≠ 'e' ∧ d ≠ 'E'

/-- Nothing may follow a number. -/
theorem endsNumber_nil : EndsNumber [] := nofun

variable {rest : Text}

/-- What ends a number is no fraction. -/
theorem EndsNumber.fractionPart_eq (h : EndsNumber rest) : fractionPart rest = ([], rest) := by
  unfold fractionPart
  split
  · next t => exact absurd rfl (h '.' t rfl).2.1
  · rfl

/-- What ends a number is no exponent. -/
theorem EndsNumber.exponentPart_eq (h : EndsNumber rest) : exponentPart rest = (none, rest) := by
  unfold exponentPart
  split
  · next d t =>
    obtain ⟨-, -, hsmall, hcapital⟩ := h d t rfl
    simp [hsmall, hcapital]
  · rfl

/-- The digits in front of what ends a number end there. -/
theorem EndsNumber.takeWhile_dropWhile_append {digits : Text} (h : EndsNumber rest)
    (hdigits : ∀ d ∈ digits, d.isDigit) :
    (digits ++ rest).takeWhile Char.isDigit = digits ∧
      (digits ++ rest).dropWhile Char.isDigit = rest := by
  rw [List.takeWhile_append_of_pos hdigits, List.dropWhile_append_of_pos hdigits]
  cases rest with
  | nil => exact ⟨List.append_nil digits, rfl⟩
  | cons d t =>
    have hd := (h d t rfl).1
    rw [List.takeWhile_cons_of_neg (by simp [hd]), List.dropWhile_cons_of_neg (by simp [hd]),
      List.append_nil]
    exact ⟨rfl, rfl⟩

/-- Digits of which the first is no zero are the whole part of a number. -/
theorem wholePart?_of_digits (hdigits : ∀ d ∈ c :: r, d.isDigit) (hzero : c ≠ '0')
    (hrest : EndsNumber rest) : wholePart? (c :: r ++ rest) = some (c :: r, rest) := by
  have hc : c.isDigit := hdigits c List.mem_cons_self
  have hr : ∀ d ∈ r, d.isDigit := fun d hd => hdigits d (List.mem_cons_of_mem c hd)
  obtain ⟨htake, hdrop⟩ := hrest.takeWhile_dropWhile_append hr
  rw [List.cons_append]
  unfold wholePart?
  split
  · next heq => exact absurd (List.cons.inj heq).1 hzero
  · next heq =>
    obtain ⟨rfl, rfl⟩ := List.cons.inj heq
    rw [if_pos hc, htake, hdrop]
  · contradiction

/-- The value of digits without a fraction and an exponent is an integer, unless the rules refuse
it. -/
theorem numberValue_of_digits (rules : Rules) (negative : Bool) (digits : Text) :
    numberValue rules negative digits [] none =
      if rules.refuses negative true digits then .error (.tooManyDigits digits.length)
      else .ok (.int (if negative then -(digitsValue digits : Int) else digitsValue digits)) := by
  simp [numberValue]

/-- A number without a fraction and an exponent is read up to what follows its digits. -/
theorem readNumber_of_wholePart? (rules : Rules) {s digits : Text}
    (hwhole : wholePart? (unsigned s) = some (digits, rest)) (hrest : EndsNumber rest) :
    ∃ h, readNumber rules s = (numberValue rules (s.head? == some '-') digits [] none).map
      fun value => ⟨value, rest, h⟩ := by
  have hshorter : rest.length < s.length :=
    Nat.lt_of_lt_of_le (length_wholePart? hwhole) (length_unsigned_le s)
  refine ⟨hshorter, ?_⟩
  unfold readNumber
  split
  · next hnone =>
    rw [hwhole] at hnone
    contradiction
  · next whole after hsome =>
    rw [hwhole] at hsome
    obtain ⟨rfl, rfl⟩ := Prod.mk.inj (Option.some.inj hsome)
    simp only [hrest.fractionPart_eq, hrest.exponentPart_eq]
    cases numberValue rules (s.head? == some '-') digits [] none <;> rfl

/-- Without a sign in front a text is a number without a sign. -/
theorem unsigned_of_isDigit (hc : c.isDigit) : unsigned (c :: r) = c :: r := by
  unfold unsigned
  split
  · next heq => exact absurd (List.cons.inj heq).1 (ne_of_isDigit hc (by decide))
  · rfl

/-- A text that begins with a digit is read as a number. -/
theorem readValue_of_isDigit {rules : Rules} (hc : c.isDigit) :
    readValue rules (c :: r) = readNumber rules (c :: r) := by
  have hother {d : Char} (hd : d.isDigit = false) (rest : Text) : c :: r ≠ d :: rest := fun heq =>
    ne_of_isDigit hc hd (List.cons.inj heq).1
  have hplain : readValue rules (c :: r) = readPlain rules (c :: r) := by
    rw [readValue]
    all_goals exact hother (by decide)
  rw [hplain]
  unfold readPlain
  split
  · next hword =>
    rw [word?_of_isDigit hc] at hword
    contradiction
  · rfl

/-- A whole text is what its reader reads behind the blanks, if nothing follows. -/
theorem readBy_of_skipSpace_eq {rules : Rules} {s t : Text} (hmark : ∀ rest, s ≠ '\ufeff' :: rest)
    (ht : skipSpace s = t) :
    readBy rules s =
      match readValue rules t with
      | .error failure => .error failure
      | .ok value =>
        match skipSpace value.rest with
        | [] => .ok value.value
        | place => .error (.malformed .extraData place) := by
  subst ht
  unfold readBy
  split
  · exact absurd rfl (hmark _)
  · cases readValue rules (skipSpace s) with
    | error failure => rfl
    | ok value => rfl

/-- **Integers are read as they are spelled.** A text of digits that does not begin with a zero is
read as the integer that it spells, unless it has too many digits. -/
theorem read_of_digits (hdigits : ∀ d ∈ c :: r, d.isDigit) (hzero : c ≠ '0') :
    read (c :: r) =
      if digitLimit < (c :: r).length then .error (.tooManyDigits (c :: r).length)
      else .ok (.int (digitsValue (c :: r))) := by
  have hc : c.isDigit := hdigits c List.mem_cons_self
  have hmark : ∀ rest, c :: r ≠ '\ufeff' :: rest := fun rest heq =>
    ne_of_isDigit hc (by decide) (List.cons.inj heq).1
  have hnegative : ((c :: r).head? == some '-') = false := by
    simpa using ne_of_isDigit hc (by decide : Char.isDigit '-' = false)
  have hwhole := wholePart?_of_digits hdigits hzero endsNumber_nil
  rw [List.append_nil, ← unsigned_of_isDigit hc] at hwhole
  obtain ⟨_, hread⟩ := readNumber_of_wholePart? .free hwhole endsNumber_nil
  rw [unsigned_of_isDigit hc, hnegative, numberValue_of_digits] at hread
  rw [read, readBy_of_skipSpace_eq hmark (skipSpace_of_isDigit hc), readValue_of_isDigit hc, hread]
  by_cases hlong : digitLimit < (c :: r).length
  · have hrefused : Rules.free.refuses false true (c :: r) = true := by
      simpa [Rules.refuses, Rules.free] using hlong
    rw [if_pos hlong, if_pos hrefused]
    rfl
  · have hallowed : ¬ Rules.free.refuses false true (c :: r) = true := by
      simpa [Rules.refuses, Rules.free] using hlong
    rw [if_neg hlong, if_neg hallowed]
    rfl

end Stencil.Json
