import Stencil.Proofs.Json.Integers
import Stencil.Proofs.Json.Strings
import Stencil.Proofs.Mapping

/-!
# What is written is read back

A value written as JSON is read back as the same value, whatever follows that cannot belong to a
number. Lists and mappings are read item by item: behind an item stand the blanks of the layout,
and then a comma or the closing bracket. The keys keep their order. The value must fit the rules of
the reader.
-/

namespace Stencil.Json

/-- A text that is read as a value, whatever follows it. -/
def ReadsBack (rules : Rules) (written : Text) (v : Value) : Prop :=
  ∀ rest, EndsNumber rest → ReadsAs (readValue rules (written ++ rest)) v rest

/-! ### Integers -/

/-- The digits of a number begin with a zero only if it is zero. -/
theorem exists_cons_toDigits {n : Nat} (h : n ≠ 0) :
    ∃ c r, Nat.toDigits 10 n = c :: r ∧ c ≠ '0' := by
  induction n using Nat.strongRecOn with
  | ind n ih =>
    by_cases hsmall : n < 10
    · have hdigit : ∀ d < 10, d ≠ 0 → Nat.digitChar d ≠ '0' := by decide
      exact ⟨_, [], Nat.toDigits_of_lt_base hsmall, hdigit n hsmall h⟩
    · obtain ⟨c, r, hdigits, hc⟩ := ih (n / 10) (by omega) (by omega)
      rw [Nat.toDigits_of_base_le (by decide) (by omega), hdigits]
      exact ⟨c, r ++ _, rfl, hc⟩

/-- The digits of a number are digits. -/
theorem isDigit_toDigits (n : Nat) : ∀ d ∈ Nat.toDigits 10 n, d.isDigit := fun _ hd =>
  Nat.isDigit_of_mem_toDigits (by decide) (by decide) hd

variable {rules : Rules} {rest : Text}

/-- The digits of a number are the whole part of a number. -/
theorem wholePart?_toDigits (n : Nat) (hrest : EndsNumber rest) :
    wholePart? (Nat.toDigits 10 n ++ rest) = some (Nat.toDigits 10 n, rest) := by
  by_cases hzero : n = 0
  · rw [hzero, Nat.toDigits_zero]
    rfl
  · obtain ⟨c, r, hdigits, hc⟩ := exists_cons_toDigits hzero
    have hall := isDigit_toDigits n
    rw [hdigits] at hall ⊢
    exact wholePart?_of_digits hall hc hrest

/-- The digits of a number spell it. -/
@[simp] theorem digitsValue_toDigits (n : Nat) : digitsValue (Nat.toDigits 10 n) = n := by
  have hvalue := Nat.ofDigitChars_ten_toDigits (n := n)
  rw [Nat.ofDigitChars_eq_foldl] at hvalue
  rw [digitsValue]
  simpa only [Nat.mul_comm 10] using hvalue

/-- No word begins with a sign and a digit. -/
theorem word?_of_sign {c : Char} {r : Text} (hc : c.isDigit) :
    word? ('-' :: c :: r) words = none := by
  have hletter : 'I' ≠ c := (ne_of_isDigit hc (by decide)).symm
  simp [word?, words, hletter]

/-- A sign and a digit are read as a number. -/
theorem readValue_of_sign {c : Char} {r : Text} (hc : c.isDigit) :
    readValue rules ('-' :: c :: r) = readNumber rules ('-' :: c :: r) := by
  have hplain : readValue rules ('-' :: c :: r) = readPlain rules ('-' :: c :: r) := by
    rw [readValue] <;> simp
  rw [hplain]
  unfold readPlain
  split
  · next hword =>
    rw [word?_of_sign hc] at hword
    contradiction
  · rfl

/-- Digits that the rules allow are read as an integer, with a sign or without. -/
theorem readsAs_readNumber {s digits : Text} {negative : Bool}
    (hwhole : wholePart? (unsigned s) = some (digits, rest)) (hrest : EndsNumber rest)
    (hsign : (s.head? == some '-') = negative)
    (hrules : rules.refuses negative true digits = false) :
    ReadsAs (readNumber rules s)
      (.int (if negative then -(digitsValue digits : Int) else digitsValue digits)) rest := by
  obtain ⟨_, hread⟩ := readNumber_of_wholePart? rules hwhole hrest
  rw [hsign, numberValue_of_digits, hrules] at hread
  exact ⟨_, hread⟩

/-- An integer is read back unless the rules refuse its digits. -/
theorem readsBack_integer {n : Int} {text : Text} (h : integerText? n = some text)
    (hrules : rules.refuses (n < 0) true (Nat.toDigits 10 n.natAbs) = false) :
    ReadsBack rules text (.int n) := by
  intro rest hrest
  have hwhole := wholePart?_toDigits n.natAbs hrest
  have hvalue := digitsValue_toDigits n.natAbs
  have hdigits := isDigit_toDigits n.natAbs
  have hcons := List.exists_cons_of_ne_nil (Nat.toDigits_ne_nil (n := n.natAbs) (b := 10))
  simp only [integerText?, Option.ite_none_left_eq_some, Option.some.injEq] at h
  obtain ⟨-, rfl⟩ := h
  obtain ⟨c, r, hcons⟩ := hcons
  rw [hcons] at hrules hwhole hvalue hdigits ⊢
  have hc : c.isDigit := hdigits c List.mem_cons_self
  by_cases hnegative : n < 0
  · have hn : n = -(digitsValue (c :: r) : Int) := by omega
    have hunsigned : unsigned ('-' :: (c :: r ++ rest)) = c :: r ++ rest := rfl
    rw [decide_eq_true hnegative] at hrules
    rw [← hunsigned] at hwhole
    rw [if_pos hnegative, List.cons_append, List.cons_append, readValue_of_sign hc, hn]
    exact readsAs_readNumber hwhole hrest rfl hrules
  · have hn : n = (digitsValue (c :: r) : Int) := by omega
    have hsign : ((c :: r ++ rest).head? == some '-') = false := by
      simpa using ne_of_isDigit hc (by decide : Char.isDigit '-' = false)
    rw [decide_eq_false hnegative] at hrules
    rw [List.cons_append, ← unsigned_of_isDigit hc] at hwhole
    rw [if_neg hnegative, List.cons_append, readValue_of_isDigit hc, hn]
    exact readsAs_readNumber hwhole hrest hsign hrules

/-! ### Blanks and ends -/

/-- Something other than a blank is not skipped. -/
theorem skipSpace_cons {c : Char} (h : isSpace c = false) (s : Text) :
    skipSpace (c :: s) = c :: s := by
  simp [skipSpace, h]

/-- What may follow a number, by its first character. -/
theorem endsNumber_cons {d : Char} {t : Text} :
    EndsNumber (d :: t) ↔ d.isDigit = false ∧ d ≠ '.' ∧ d ≠ 'e' ∧ d ≠ 'E' := by
  constructor
  · exact fun h => h d t rfl
  · rintro h _ _ ⟨⟩
    exact h

/-- What stands between a bracket and an item is skipped. -/
@[simp] theorem skipSpace_edge (style : Style) (level : Nat) (s : Text) :
    skipSpace (style.edge level ++ s) = skipSpace s := by
  cases hindent : style.indent with
  | none => simp [Style.edge, hindent]
  | some width =>
    have hblank : ∀ c ∈ '\n' :: List.replicate (width * level) ' ', isSpace c := by
      intro c hc
      rcases List.mem_cons.mp hc with rfl | hc
      · decide
      · rw [List.eq_of_mem_replicate hc]
        decide
    simp only [Style.edge, hindent]
    exact List.dropWhile_append_of_pos hblank

/-- Between two items stands a comma with blanks behind it. -/
theorem exists_between (style : Style) (level : Nat) :
    ∃ gap, style.between level = ',' :: gap ∧ ∀ s, skipSpace (gap ++ s) = skipSpace s := by
  cases hindent : style.indent with
  | none => exact ⟨[' '], by simp [Style.between, hindent], fun _ => rfl⟩
  | some width =>
    exact ⟨style.edge level, by simp [Style.between, hindent], skipSpace_edge style level⟩

/-- In front of a closing bracket a number ends. -/
theorem endsNumber_edge (style : Style) (level : Nat) {s : Text} (h : EndsNumber s) :
    EndsNumber (style.edge level ++ s) := by
  cases hindent : style.indent with
  | none => simpa [Style.edge, hindent] using h
  | some width =>
    simp only [Style.edge, hindent, List.cons_append]
    exact endsNumber_cons.mpr (by decide)

/-- What can be read as a value begins neither with a blank nor with a closing bracket, nor with a
byte order mark. -/
theorem exists_cons_of_readsAs {s : Text} {v : Value} (h : ReadsAs (readValue rules s) v rest) :
    ∃ c t, s = c :: t ∧ isSpace c = false ∧ c ≠ ']' ∧ c ≠ '\ufeff' := by
  obtain ⟨hshorter, h⟩ := h
  cases s with
  | nil => exact absurd hshorter (Nat.not_lt_zero _)
  | cons c t =>
    refine ⟨c, t, rfl, ?_⟩
    by_cases hc : c ∈ [' ', '\t', '\n', '\r', ']', '\ufeff']
    · have hword : word? (c :: t) words = none := by
        simp only [List.mem_cons, List.not_mem_nil, or_false] at hc
        rcases hc with rfl | rfl | rfl | rfl | rfl | rfl <;> rfl
      have hwhole : wholePart? (unsigned (c :: t)) = none := by
        simp only [List.mem_cons, List.not_mem_nil, or_false] at hc
        rcases hc with rfl | rfl | rfl | rfl | rfl | rfl <;> rfl
      have hplain : readValue rules (c :: t) = readPlain rules (c :: t) := by
        rw [readValue] <;> rintro _ ⟨⟩ <;> simp at hc
      rw [hplain, readPlain, hword] at h
      dsimp only at h
      unfold readNumber at h
      split at h
      · contradiction
      · next hsome =>
        rw [hwhole] at hsome
        contradiction
    · simpa [isSpace, and_assoc] using hc

/-- In front of what is read back nothing is skipped. -/
theorem ReadsBack.skipSpace_append {written : Text} {v : Value} (h : ReadsBack rules written v)
    (t : Text) : skipSpace (written ++ t) = written ++ t := by
  obtain ⟨c, r, hcons, hspace, -⟩ := exists_cons_of_readsAs (h [] endsNumber_nil)
  rw [List.append_nil] at hcons
  rw [hcons, List.cons_append, skipSpace_cons hspace]

/-- What is read back is no closing bracket. -/
theorem ReadsBack.ne_closing {written : Text} {v : Value} (h : ReadsBack rules written v)
    (s t : Text) : written ++ s ≠ ']' :: t := by
  obtain ⟨c, r, hcons, -, hc, -⟩ := exists_cons_of_readsAs (h [] endsNumber_nil)
  rw [List.append_nil] at hcons
  rw [hcons, List.cons_append]
  exact fun heq => hc (List.cons.inj heq).1

/-! ### Words and strings -/

/-- A word is read back as its value. -/
theorem readsBack_word {c : Char} {word : Text} {v : Value}
    (hc : c ≠ '"' ∧ c ≠ '[' ∧ c ≠ '\x7b')
    (hword : ∀ rest, word? (c :: word ++ rest) words = some (v, (c :: word).length)) :
    ReadsBack rules (c :: word) v := by
  obtain ⟨hquote, hbracket, hbrace⟩ := hc
  intro rest _
  have hplain : readValue rules (c :: word ++ rest) = readPlain rules (c :: word ++ rest) := by
    rw [List.cons_append, readValue] <;> simpa using by assumption
  rw [hplain, readPlain, hword rest]
  refine ⟨?_, ?_⟩
  · simp only [List.length_append, List.length_cons]
    omega
  · simp

/-- A string in quotes is read as its text. -/
theorem readsAs_readValue_text {s t : Text}
    (h : ReadsAs (readString rules ('"' :: t) t) s rest) :
    ReadsAs (readValue rules ('"' :: t)) (.text s) rest := by
  rw [readValue]
  exact readsAs_bind h fun _ => ⟨_, rfl⟩

/-- A written string is a quote with what is read as a string behind it. -/
theorem string_append (ascii : Bool) (s rest : Text) :
    string ascii s ++ rest = '"' :: (s.flatMap (stringChar ascii) ++ '"' :: rest) := by
  simp [string]

/-- A string is read back. -/
theorem readsBack_text (ascii : Bool) (s : Text) : ReadsBack rules (string ascii s) (.text s) := by
  intro rest _
  rw [string_append]
  exact readsAs_readValue_text (readsAs_readString rules _ ascii s rest)

/-! ### Lists -/

section

variable {s after afterItem : Text} {item : Value} {items : List Value} {inside : Rules}

/-- The last item of a list. -/
theorem readsAs_readItems_last (hitem : ReadsAs (readValue rules s) item afterItem)
    (hend : skipSpace afterItem = ']' :: rest) : ReadsAs (readItems rules s) [item] rest := by
  rw [readItems]
  refine readsAs_bind hitem fun _ => ?_
  dsimp only
  split
  · next heq =>
    obtain ⟨-, rfl⟩ := List.cons.inj (hend.symm.trans heq)
    exact ⟨_, rfl⟩
  · next heq => exact absurd (hend.symm.trans heq) (by simp)
  · next hother _ => exact absurd hend (hother rest)

/-- An item of a list with others behind it. -/
theorem readsAs_readItems_more (hitem : ReadsAs (readValue rules s) item afterItem)
    (hcomma : skipSpace afterItem = ',' :: after)
    (hmore : ReadsAs (readItems rules (skipSpace after)) items rest) :
    ReadsAs (readItems rules s) (item :: items) rest := by
  rw [readItems]
  refine readsAs_bind hitem fun _ => ?_
  dsimp only
  split
  · next heq => exact absurd (hcomma.symm.trans heq) (by simp)
  · next heq =>
    obtain ⟨-, rfl⟩ := List.cons.inj (hcomma.symm.trans heq)
    exact readsAs_bind hmore fun _ => ⟨_, rfl⟩
  · next _ hother => exact absurd hcomma (hother after)

/-- An empty list. -/
theorem readsAs_readValue_emptyList (hend : skipSpace s = ']' :: rest) :
    ReadsAs (readValue rules ('[' :: s)) (.list []) rest := by
  rw [readValue]
  split
  · next heq =>
    obtain ⟨-, rfl⟩ := List.cons.inj (hend.symm.trans heq)
    exact ⟨_, rfl⟩
  · next hother => exact absurd hend (hother rest)

/-- A list with items, where there may be another list. -/
theorem readsAs_readValue_list (hinside : rules.deeper? = some inside)
    (hitems : ReadsAs (readItems inside (skipSpace s)) items rest)
    (hstart : ∀ t, skipSpace s ≠ ']' :: t) :
    ReadsAs (readValue rules ('[' :: s)) (.list items) rest := by
  rw [readValue]
  split
  · next heq => exact absurd heq (hstart _)
  · rw [Rules.inside, hinside]
    exact readsAs_bind hitems fun _ => ⟨_, rfl⟩

/-! ### Mappings -/

variable {key afterName afterColon : Text} {entries : List (Text × Value)}

/-- The last entry of a mapping. -/
theorem readsAs_readEntries_last (hname : ReadsAs (readString rules ('"' :: s) s) key afterName)
    (hcolon : skipSpace afterName = ':' :: afterColon)
    (hitem : ReadsAs (readValue rules (skipSpace afterColon)) item afterItem)
    (hend : skipSpace afterItem = '\x7d' :: rest) :
    ReadsAs (readEntries rules ('"' :: s)) [(key, item)] rest := by
  rw [readEntries]
  refine readsAs_bind hname fun _ => ?_
  dsimp only
  split
  · next heq =>
    obtain ⟨-, rfl⟩ := List.cons.inj (hcolon.symm.trans heq)
    refine readsAs_bind hitem fun _ => ?_
    dsimp only
    split
    · next heq =>
      obtain ⟨-, rfl⟩ := List.cons.inj (hend.symm.trans heq)
      exact ⟨_, rfl⟩
    · next heq => exact absurd (hend.symm.trans heq) (by simp)
    · next hother _ => exact absurd hend (hother rest)
  · next hother => exact absurd hcolon (hother afterColon)

/-- An entry of a mapping with others behind it. -/
theorem readsAs_readEntries_more (hname : ReadsAs (readString rules ('"' :: s) s) key afterName)
    (hcolon : skipSpace afterName = ':' :: afterColon)
    (hitem : ReadsAs (readValue rules (skipSpace afterColon)) item afterItem)
    (hcomma : skipSpace afterItem = ',' :: after)
    (hmore : ReadsAs (readEntries rules (skipSpace after)) entries rest) :
    ReadsAs (readEntries rules ('"' :: s)) ((key, item) :: entries) rest := by
  rw [readEntries]
  refine readsAs_bind hname fun _ => ?_
  dsimp only
  split
  · next heq =>
    obtain ⟨-, rfl⟩ := List.cons.inj (hcolon.symm.trans heq)
    refine readsAs_bind hitem fun _ => ?_
    dsimp only
    split
    · next heq => exact absurd (hcomma.symm.trans heq) (by simp)
    · next heq =>
      obtain ⟨-, rfl⟩ := List.cons.inj (hcomma.symm.trans heq)
      exact readsAs_bind hmore fun _ => ⟨_, rfl⟩
    · next _ hother => exact absurd hcomma (hother after)
  · next hother => exact absurd hcolon (hother afterColon)

/-- An empty mapping. -/
theorem readsAs_readValue_emptyMapping (hend : skipSpace s = '\x7d' :: rest) :
    ReadsAs (readValue rules ('\x7b' :: s)) (.mapping []) rest := by
  rw [readValue]
  split
  · next heq =>
    obtain ⟨-, rfl⟩ := List.cons.inj (hend.symm.trans heq)
    exact ⟨_, rfl⟩
  · next hother => exact absurd hend (hother rest)

/-- A mapping with entries, where there may be another mapping. -/
theorem readsAs_readValue_mapping (hinside : rules.deeper? = some inside)
    (hentries : ReadsAs (readEntries inside (skipSpace s)) entries rest)
    (hstart : ∀ t, skipSpace s ≠ '\x7d' :: t) :
    ReadsAs (readValue rules ('\x7b' :: s)) (.mapping (Mapping.ofEntries entries)) rest := by
  rw [readValue]
  split
  · next heq => exact absurd heq (hstart _)
  · rw [Rules.inside, hinside]
    exact readsAs_bind hentries fun _ => ⟨_, rfl⟩

end

/-! ### What is written for lists and mappings -/

section

variable {style : Style} {level outer : Nat}

/-- The items of a list are read back with what is written behind each of them. -/
theorem readsAs_readItems {item : Value} {items : List Value} {first more : Text}
    (hitems : ∀ v ∈ item :: items, ∀ text, write? style level v = some text →
      ReadsBack rules text v)
    (hfirst : write? style level item = some first)
    (hmore : writeItems? style level items = some more) (rest : Text) :
    ReadsAs (readItems rules (first ++ (more ++ (style.edge outer ++ ']' :: rest))))
      (item :: items) rest := by
  have hitem := hitems item List.mem_cons_self first hfirst
  induction items generalizing item first more with
  | nil =>
    obtain rfl : [] = more := by simpa [writeItems?] using hmore
    have hends := endsNumber_edge style outer (s := ']' :: rest) (endsNumber_cons.mpr (by decide))
    exact readsAs_readItems_last (hitem _ hends) (skipSpace_edge style outer _)
  | cons next items ih =>
    simp only [writeItems?, Option.bind_eq_bind, Option.bind_eq_some_iff] at hmore
    obtain ⟨second, hsecond, others, hothers, hmore⟩ := hmore
    obtain rfl := Option.some.inj hmore
    obtain ⟨gap, hgap, hskip⟩ := exists_between style level
    have hnext := hitems next (by simp) second hsecond
    have hread := ih (fun v hv => hitems v (List.mem_cons_of_mem _ hv)) hsecond hothers hnext
    rw [← hnext.skipSpace_append, ← hskip] at hread
    have hwritten : style.between level ++ second ++ others ++ (style.edge outer ++ ']' :: rest) =
        ',' :: (gap ++ (second ++ (others ++ (style.edge outer ++ ']' :: rest)))) := by
      simp [hgap]
    rw [hwritten]
    exact readsAs_readItems_more (hitem _ (endsNumber_cons.mpr (by decide)))
      (skipSpace_cons (by decide) _) hread

/-- The entries of a mapping are read back with what is written behind each of them. -/
theorem readsAs_readEntries {key : Text} {value : Value} {entries : List (Text × Value)}
    {first more : Text}
    (hentries : ∀ e ∈ (key, value) :: entries, ∀ text, write? style level e.2 = some text →
      ReadsBack rules text e.2)
    (hfirst : write? style level value = some first)
    (hmore : writeEntries? style level entries = some more) (rest : Text) :
    ReadsAs (readEntries rules (string style.ascii key ++
        (':' :: ' ' :: (first ++ (more ++ (style.edge outer ++ '\x7d' :: rest))))))
      ((key, value) :: entries) rest := by
  induction entries generalizing key value first more with
  | nil =>
    have hvalue := hentries (key, value) List.mem_cons_self first hfirst
    obtain rfl : [] = more := by simpa [writeEntries?] using hmore
    have hends := endsNumber_edge style outer (s := '\x7d' :: rest)
      (endsNumber_cons.mpr (by decide))
    have hread := hvalue _ hends
    rw [← hvalue.skipSpace_append] at hread
    rw [string_append]
    exact readsAs_readEntries_last (readsAs_readString rules _ style.ascii key _)
      (skipSpace_cons (by decide) _) hread (skipSpace_edge style outer _)
  | cons next entries ih =>
    obtain ⟨name, second⟩ := next
    have hvalue := hentries (key, value) List.mem_cons_self first hfirst
    simp only [writeEntries?, Option.bind_eq_bind, Option.bind_eq_some_iff] at hmore
    obtain ⟨written, hsecond, others, hothers, hmore⟩ := hmore
    obtain rfl := Option.some.inj hmore
    obtain ⟨gap, hgap, hskip⟩ := exists_between style level
    have hmore := ih (fun e he => hentries e (List.mem_cons_of_mem _ he)) hsecond hothers
    generalize htail : string style.ascii name ++ (':' :: ' ' :: (written ++ (others ++
      (style.edge outer ++ '\x7d' :: rest)))) = tail at hmore
    have hwritten : style.between level ++ string style.ascii name ++ [':', ' '] ++ written ++
        others ++ (style.edge outer ++ '\x7d' :: rest) = ',' :: (gap ++ tail) := by
      simp [hgap, ← htail]
    have htailStart : skipSpace tail = tail := by
      rw [← htail, string_append]
      exact skipSpace_cons (by decide) _
    rw [← htailStart, ← hskip] at hmore
    have hread := hvalue (',' :: (gap ++ tail)) (endsNumber_cons.mpr (by decide))
    rw [← hvalue.skipSpace_append] at hread
    rw [hwritten, string_append]
    exact readsAs_readEntries_more (readsAs_readString rules _ style.ascii key _)
      (skipSpace_cons (by decide) _) hread (skipSpace_cons (by decide) _) hmore

/-- A written list is read back where there may be another list. -/
theorem readsBack_list {inside : Rules} {item : Value} {items : List Value} {first more : Text}
    (hinside : rules.deeper? = some inside)
    (hitems : ∀ v ∈ item :: items, ∀ text, write? style (level + 1) v = some text →
      ReadsBack inside text v)
    (hfirst : write? style (level + 1) item = some first)
    (hmore : writeItems? style (level + 1) items = some more) :
    ReadsBack rules (['['] ++ style.edge (level + 1) ++ first ++ more ++ style.edge level ++ [']'])
      (.list (item :: items)) := by
  intro rest _
  have hitem := hitems item List.mem_cons_self first hfirst
  have hread : ReadsAs (readItems inside (first ++ (more ++ (style.edge level ++ ']' :: rest))))
      (item :: items) rest := readsAs_readItems hitems hfirst hmore rest
  have hskip : skipSpace (style.edge (level + 1) ++ (first ++ (more ++ (style.edge level ++
      ']' :: rest)))) = first ++ (more ++ (style.edge level ++ ']' :: rest)) := by
    simp [hitem.skipSpace_append]
  have hwritten : ['['] ++ style.edge (level + 1) ++ first ++ more ++ style.edge level ++ [']'] ++
      rest = '[' :: (style.edge (level + 1) ++ (first ++ (more ++ (style.edge level ++
        ']' :: rest)))) := by
    simp
  rw [← hskip] at hread
  rw [hwritten]
  refine readsAs_readValue_list hinside hread fun t => ?_
  rw [hskip]
  exact hitem.ne_closing _ t

/-- A written mapping is read back where there may be another mapping, if its keys differ. -/
theorem readsBack_mapping {inside : Rules} {key : Text} {value : Value}
    {entries : List (Text × Value)} {first more : Text} (hinside : rules.deeper? = some inside)
    (hkeys : (Mapping.keys ((key, value) :: entries)).Nodup)
    (hentries : ∀ e ∈ (key, value) :: entries, ∀ text,
      write? style (level + 1) e.2 = some text → ReadsBack inside text e.2)
    (hfirst : write? style (level + 1) value = some first)
    (hmore : writeEntries? style (level + 1) entries = some more) :
    ReadsBack rules (['\x7b'] ++ style.edge (level + 1) ++ string style.ascii key ++ [':', ' '] ++
      first ++ more ++ style.edge level ++ ['\x7d']) (.mapping ((key, value) :: entries)) := by
  intro rest _
  generalize htail : string style.ascii key ++ (':' :: ' ' :: (first ++ (more ++
    (style.edge level ++ '\x7d' :: rest)))) = tail
  have hread : ReadsAs (readEntries inside tail) ((key, value) :: entries) rest := by
    rw [← htail]
    exact readsAs_readEntries hentries hfirst hmore rest
  obtain ⟨quoted, hquoted⟩ : ∃ t, tail = '"' :: t := ⟨_, by rw [← htail, string_append]⟩
  have hskip : skipSpace (style.edge (level + 1) ++ tail) = tail := by
    rw [skipSpace_edge, hquoted, skipSpace_cons (by decide)]
  have hwritten : ['\x7b'] ++ style.edge (level + 1) ++ string style.ascii key ++ [':', ' '] ++
      first ++ more ++ style.edge level ++ ['\x7d'] ++ rest =
        '\x7b' :: (style.edge (level + 1) ++ tail) := by
    simp [← htail]
  rw [← hskip] at hread
  rw [hwritten, ← Mapping.ofEntries_of_nodup hkeys]
  refine readsAs_readValue_mapping hinside hread fun t => ?_
  rw [hskip, hquoted]
  simp

end

/-! ### Values -/

/-- Values that rules allow to be read back: no floating-point numbers, no integers and no nesting
that the rules refuse, and no mapping with a key twice. -/
inductive Fits : Rules → Value → Prop
  | null (rules : Rules) : Fits rules .null
  | bool (rules : Rules) (b : Bool) : Fits rules (.bool b)
  | int {rules : Rules} {n : Int}
      (hdigits : rules.refuses (n < 0) true (Nat.toDigits 10 n.natAbs) = false) :
      Fits rules (.int n)
  | text (rules : Rules) (s : Text) : Fits rules (.text s)
  | emptyList (rules : Rules) : Fits rules (.list [])
  | list {rules inside : Rules} {items : List Value} (hinside : rules.deeper? = some inside)
      (hitems : ∀ v ∈ items, Fits inside v) : Fits rules (.list items)
  | emptyMapping (rules : Rules) : Fits rules (.mapping [])
  | mapping {rules inside : Rules} {entries : List (Text × Value)}
      (hinside : rules.deeper? = some inside) (hkeys : (Mapping.keys entries).Nodup)
      (hvalues : ∀ e ∈ entries, Fits inside e.2) : Fits rules (.mapping entries)

/-- **What is written is read back,** by rules that the value fits, in every layout, at every level
and whatever follows that cannot belong to a number. -/
theorem Fits.readsBack {v : Value} (h : Fits rules v) {style : Style} {level : Nat} {text : Text}
    (hwrite : write? style level v = some text) : ReadsBack rules text v := by
  induction h generalizing level text with
  | null rules =>
    obtain rfl := Option.some.inj hwrite
    exact readsBack_word (by decide) fun _ => rfl
  | bool rules b =>
    cases b <;> obtain rfl := Option.some.inj hwrite <;>
      exact readsBack_word (by decide) fun _ => rfl
  | int hdigits =>
    rw [write?] at hwrite
    exact readsBack_integer hwrite hdigits
  | text rules s =>
    rw [write?] at hwrite
    obtain rfl := Option.some.inj hwrite
    exact readsBack_text style.ascii s
  | emptyList rules =>
    rw [write?] at hwrite
    obtain rfl := Option.some.inj hwrite
    intro rest _
    exact readsAs_readValue_emptyList (skipSpace_cons (by decide) rest)
  | @list rules inside items hinside hitems ih =>
    cases items with
    | nil =>
      rw [write?] at hwrite
      obtain rfl := Option.some.inj hwrite
      intro rest _
      exact readsAs_readValue_emptyList (skipSpace_cons (by decide) rest)
    | cons item items =>
      simp only [write?, Option.bind_eq_bind, Option.bind_eq_some_iff] at hwrite
      obtain ⟨first, hfirst, more, hmore, hwrite⟩ := hwrite
      obtain rfl := Option.some.inj hwrite
      exact readsBack_list hinside (fun v hv _ => ih v hv) hfirst hmore
  | emptyMapping rules =>
    rw [write?] at hwrite
    obtain rfl := Option.some.inj hwrite
    intro rest _
    exact readsAs_readValue_emptyMapping (skipSpace_cons (by decide) rest)
  | @mapping rules inside entries hinside hkeys hvalues ih =>
    cases entries with
    | nil =>
      rw [write?] at hwrite
      obtain rfl := Option.some.inj hwrite
      intro rest _
      exact readsAs_readValue_emptyMapping (skipSpace_cons (by decide) rest)
    | cons entry entries =>
      obtain ⟨key, value⟩ := entry
      simp only [write?, Option.bind_eq_bind, Option.bind_eq_some_iff] at hwrite
      obtain ⟨first, hfirst, more, hmore, hwrite⟩ := hwrite
      obtain rfl := Option.some.inj hwrite
      exact readsBack_mapping hinside hkeys (fun e he _ => ih e he) hfirst hmore

/-- A whole text that is read back may have blanks behind it. -/
theorem ReadsBack.readBy_append {written : Text} {v : Value} (h : ReadsBack rules written v)
    {blanks : Text} (hblanks : ∀ c ∈ blanks, isSpace c) :
    readBy rules (written ++ blanks) = .ok v := by
  have hends : EndsNumber blanks := by
    cases blanks with
    | nil => exact endsNumber_nil
    | cons c t =>
      have hc := hblanks c List.mem_cons_self
      simp only [isSpace, Bool.or_eq_true, beq_iff_eq] at hc
      rcases hc with ((rfl | rfl) | rfl) | rfl <;> exact endsNumber_cons.mpr (by decide)
  obtain ⟨c, r, hcons, -, -, hmark⟩ := exists_cons_of_readsAs (h blanks hends)
  have hnone : ∀ t, written ++ blanks ≠ '\ufeff' :: t := by
    rw [hcons]
    exact fun t heq => hmark (List.cons.inj heq).1
  obtain ⟨_, hread⟩ := h blanks hends
  have hrest : skipSpace blanks = [] := List.dropWhile_eq_nil_iff.mpr hblanks
  rw [readBy_of_skipSpace_eq hnone (h.skipSpace_append blanks), hread]
  simp only [hrest]

end Stencil.Json
