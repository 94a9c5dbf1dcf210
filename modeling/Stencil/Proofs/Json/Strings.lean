import Mathlib.Data.Bool.AllAny
import Stencil.Json.Reader

/-!
# Strings as JSON

What is written for a character of a string is read back as this character, whatever follows: a
character that stands for itself, a short escape, the escape of a code, or the two escapes of a
pair. So a string is read back from what is written for it.
-/

namespace Stencil.Json

/-- What a reader reads from the front of a text: a value, and what follows it. -/
def ReadsAs {α : Type} {s : Text} (result : Except Failure (Read α s)) (value : α) (rest : Text) :
    Prop := ∃ h, result = .ok ⟨value, rest, h⟩

/-- A reader that goes on with what another one read. -/
theorem readsAs_bind {α β : Type} {s t : Text} {result : Except Failure (Read α t)}
    {next : Read α t → Except Failure (Read β s)} {a : α} {b : β} {between rest : Text}
    (h : ReadsAs result a between) (hnext : ∀ h, ReadsAs (next ⟨a, between, h⟩) b rest) :
    ReadsAs (result >>= next) b rest := by
  obtain ⟨hshorter, rfl⟩ := h
  exact hnext hshorter

/-! ### Codes -/

/-- The last digit in base sixteen, and the digits before it. -/
theorem hex_succ {width : Nat} (hwidth : 0 < width) (n : Nat) :
    Text.hex (width + 1) n = Text.hex width (n / 16) ++ [Nat.digitChar (n % 16)] := by
  by_cases hsmall : n < 16
  · have hquotient : n / 16 = 0 := by omega
    obtain ⟨w, rfl⟩ := Nat.exists_eq_add_one.mpr hwidth
    rw [hquotient, Nat.mod_eq_of_lt hsmall, Text.hex, Text.hex, Nat.toDigits_of_lt_base hsmall,
      Nat.toDigits_zero]
    simp [List.leftpad, List.replicate_succ']
  · have hdigits := Nat.toDigits_of_base_le (by decide : 1 < 16) (Nat.le_of_not_lt hsmall)
    rw [Text.hex, Text.hex, hdigits]
    simp [List.leftpad]

/-- Four digits in base sixteen, one for each place. -/
theorem hex_four {n : Nat} (h : n < 0x10000) :
    Text.hex 4 n = [Nat.digitChar (n / 16 / 16 / 16), Nat.digitChar (n / 16 / 16 % 16),
      Nat.digitChar (n / 16 % 16), Nat.digitChar (n % 16)] := by
  have hfirst : n / 16 / 16 / 16 < 16 := by omega
  rw [hex_succ (by decide), hex_succ (by decide), hex_succ (by decide), Text.hex,
    Nat.toDigits_of_lt_base hfirst]
  rfl

/-- A digit is read back as its value. -/
theorem hexDigit?_digitChar : ∀ d < 16, hexDigit? (Nat.digitChar d) = some d := by decide

/-- Four digits in base sixteen are read back as the number that they spell. -/
theorem hexUnit?_digitChar {n : Nat} (h : n < 0x10000) :
    hexUnit? (Nat.digitChar (n / 16 / 16 / 16)) (Nat.digitChar (n / 16 / 16 % 16))
      (Nat.digitChar (n / 16 % 16)) (Nat.digitChar (n % 16)) = some n := by
  have hvalue : ((n / 16 / 16 / 16 * 16 + n / 16 / 16 % 16) * 16 + n / 16 % 16) * 16 + n % 16 =
      n := by omega
  rw [hexUnit?, hexDigit?_digitChar _ (by omega), hexDigit?_digitChar _ (by omega),
    hexDigit?_digitChar _ (by omega), hexDigit?_digitChar _ (by omega)]
  simp only [Option.bind_eq_bind, Option.bind_some, hvalue]

/-- No character has the code of half of a pair. -/
theorem not_isHalf (c : Char) : isHighUnit c.toNat = false ∧ isLowUnit c.toNat = false := by
  have hvalid : c.toNat < 0xd800 ∨ 0xdfff < c.toNat ∧ c.toNat < 0x110000 := c.valid
  simp only [isHighUnit, isLowUnit, Bool.and_eq_false_iff, decide_eq_false_iff_not]
  omega

variable {a b c d : Char} {n : Nat}

/-- The code of a single unit. -/
theorem readsAs_readCode (rules : Rules) (h : hexUnit? a b c d = some n)
    (hhigh : isHighUnit n = false) (hlow : isLowUnit n = false) (after : Char) (rest : Text) :
    ReadsAs (readCode rules (a :: b :: c :: d :: after :: rest)) (Char.ofNat n)
      (after :: rest) := by
  have hread : readCode rules (a :: b :: c :: d :: after :: rest) =
      .ok ⟨unitChar n, after :: rest, by simp⟩ := by
    simp only [readCode, h, hhigh, hlow]
    rfl
  have hchar : unitChar n = Char.ofNat n := by
    rw [unitChar, hhigh, hlow]
    rfl
  rw [hread, ← hchar]
  exact ⟨_, rfl⟩

/-- The codes of a pair of units. -/
theorem readsAs_readCode_pair (rules : Rules) {e f g h : Char} {low : Nat}
    (hhigh : hexUnit? a b c d = some n) (hlow : hexUnit? e f g h = some low)
    (hfirst : isHighUnit n) (hsecond : isLowUnit low) (after : Char) (rest : Text) :
    ReadsAs (readCode rules (a :: b :: c :: d :: '\\' :: 'u' :: e :: f :: g :: h :: after :: rest))
      (pairChar n low) (after :: rest) := by
  have hread : readLowUnit ('\\' :: 'u' :: e :: f :: g :: h :: after :: rest) =
      .ok (some ⟨low, after :: rest, by simp⟩) := by
    simp only [readLowUnit, hlow, hsecond, if_true]
  simp only [readCode, hhigh, hfirst, if_true, hread]
  exact ⟨_, rfl⟩

/-! ### Characters -/

variable {rules : Rules} {opening t s rest : Text}

/-- A string that begins with the escape of a code. -/
theorem readsAs_readString_code {r : Text} (hcode : ReadsAs (readCode rules r) c t)
    (h : ReadsAs (readString rules opening t) s rest) :
    ReadsAs (readString rules opening ('\\' :: 'u' :: r)) (c :: s) rest := by
  rw [readString]
  exact readsAs_bind hcode fun _ => readsAs_bind h fun _ => ⟨_, rfl⟩

/-- A string that begins with a short escape. -/
theorem readsAs_readString_short (hc : c ≠ 'u') (hd : shortEscape? c = some d)
    (h : ReadsAs (readString rules opening t) s rest) :
    ReadsAs (readString rules opening ('\\' :: c :: t)) (d :: s) rest := by
  rw [readString, hd]
  · exact readsAs_bind h fun _ => ⟨_, rfl⟩
  · exact hc

/-- A string that begins with a character that stands for itself. -/
theorem readsAs_readString_plain (hquote : c ≠ '"') (hslash : c ≠ '\\') (hc : 32 ≤ c.toNat)
    (h : ReadsAs (readString rules opening t) s rest) :
    ReadsAs (readString rules opening (c :: t)) (c :: s) rest := by
  rw [readString, if_neg (by omega)]
  · exact readsAs_bind h fun _ => ⟨_, rfl⟩
  all_goals simp [hquote, hslash]

/-- Where a string is read something stands. -/
theorem ne_nil_of_readsAs_readString (h : ReadsAs (readString rules opening t) s rest) :
    t ≠ [] := by
  rintro rfl
  obtain ⟨_, h⟩ := h
  rw [readString] at h
  contradiction

/-- The escape of a code is read back as the character. -/
theorem readsAs_readString_escapedCode (c : Char)
    (h : ReadsAs (readString rules opening t) s rest) :
    ReadsAs (readString rules opening (escapedCode c ++ t)) (c :: s) rest := by
  have hvalid : c.toNat < 0xd800 ∨ 0xdfff < c.toNat ∧ c.toNat < 0x110000 := c.valid
  obtain ⟨after, t, rfl⟩ := List.exists_cons_of_ne_nil (ne_nil_of_readsAs_readString h)
  by_cases hunit : c.toNat < 0x10000
  · obtain ⟨hhigh, hlow⟩ := not_isHalf c
    have hcode := readsAs_readCode rules (hexUnit?_digitChar hunit) hhigh hlow after t
    rw [Char.ofNat_toNat] at hcode
    rw [escapedCode, if_pos hunit, escapedUnit, hex_four hunit]
    exact readsAs_readString_code hcode h
  · rw [escapedCode, if_neg hunit]
    generalize hhigh : 0xd800 + (c.toNat - 0x10000) / 0x400 = high
    generalize hlow : 0xdc00 + (c.toNat - 0x10000) % 0x400 = low
    have hfirst : isHighUnit high := by
      simp only [isHighUnit, Bool.and_eq_true, decide_eq_true_eq]
      omega
    have hsecond : isLowUnit low := by
      simp only [isLowUnit, Bool.and_eq_true, decide_eq_true_eq]
      omega
    have hchar : pairChar high low = c := by
      have hcode : 0x10000 + (high - 0xd800) * 0x400 + (low - 0xdc00) = c.toNat := by omega
      rw [pairChar, hcode, Char.ofNat_toNat]
    have hbounds : high < 0x10000 ∧ low < 0x10000 := by omega
    have hcode := readsAs_readCode_pair rules (hexUnit?_digitChar hbounds.1)
      (hexUnit?_digitChar hbounds.2) hfirst hsecond after t
    rw [hchar] at hcode
    rw [escapedUnit, escapedUnit, hex_four hbounds.1, hex_four hbounds.2]
    exact readsAs_readString_code hcode h

/-- What is written for a character: a short escape, the escape of its code, or itself. -/
theorem stringChar_cases (ascii : Bool) (c : Char) :
    (∃ d, d ≠ 'u' ∧ (32 ≤ d.toNat ∧ d.toNat < 127) ∧ shortEscape? d = some c ∧ stringChar ascii c = ['\\', d]) ∨
      stringChar ascii c = escapedCode c ∨
      (c ≠ '"' ∧ c ≠ '\\' ∧ 32 ≤ c.toNat ∧ (ascii → c.toNat < 127) ∧
        stringChar ascii c = [c]) := by
  by_cases hshort : c ∈ ['"', '\\', '\n', '\r', '\t', '\x0c', '\x08']
  · left
    simp only [List.mem_cons, List.not_mem_nil, or_false] at hshort
    rcases hshort with rfl | rfl | rfl | rfl | rfl | rfl | rfl <;>
      exact ⟨_, by decide, by decide, rfl, rfl⟩
  · right
    simp only [List.mem_cons, List.not_mem_nil, or_false, not_or] at hshort
    obtain ⟨hquote, hslash, hn, hr, ht, hf, hb⟩ := hshort
    have hwritten : stringChar ascii c =
        if c.toNat < 32 || (ascii && 127 ≤ c.toNat) then escapedCode c else [c] := by
      simp [stringChar, hquote, hslash, hn, hr, ht, hf, hb]
    rw [hwritten]
    split
    · exact Or.inl rfl
    · next hplain =>
      simp only [Bool.or_eq_true, Bool.and_eq_true, decide_eq_true_eq, not_or, not_and,
        Nat.not_le] at hplain
      exact Or.inr ⟨hquote, hslash, by omega, hplain.2, rfl⟩

/-- What is written for a character is read back as the character. -/
theorem readsAs_readString_stringChar (ascii : Bool) (c : Char)
    (h : ReadsAs (readString rules opening t) s rest) :
    ReadsAs (readString rules opening (stringChar ascii c ++ t)) (c :: s) rest := by
  rcases stringChar_cases ascii c with ⟨d, hd, -, hshort, hwritten⟩ | hwritten |
    ⟨hquote, hslash, hc, -, hwritten⟩ <;> rw [hwritten]
  · exact readsAs_readString_short hd hshort h
  · exact readsAs_readString_escapedCode c h
  · exact readsAs_readString_plain hquote hslash hc h

/-- **Strings are read back as they were written,** whatever follows the closing quote. -/
theorem readsAs_readString (rules : Rules) (opening : Text) (ascii : Bool) (s rest : Text) :
    ReadsAs (readString rules opening (s.flatMap (stringChar ascii) ++ '"' :: rest)) s rest := by
  induction s with
  | nil =>
    have hend : readString rules opening ('"' :: rest) = .ok ⟨[], rest, by simp⟩ := by
      rw [readString]
    exact ⟨_, hend⟩
  | cons c s ih =>
    rw [List.flatMap_cons, List.append_assoc]
    exact readsAs_readString_stringChar ascii c ih

/-! ### Characters that are written -/

/-- A text of ASCII characters. -/
def IsAscii (s : Text) : Prop := ∀ c ∈ s, c.toNat < 128

instance (s : Text) : Decidable (IsAscii s) :=
  decidable_of_iff (s.all fun c => c.toNat < 128) (by simp [IsAscii])

/-- A text without controls other than line feeds, of ASCII characters if that is asked for. -/
def IsLegible (ascii : Bool) (s : Text) : Prop :=
  ∀ c ∈ s, c = '\n' ∨ 32 ≤ c.toNat ∧ (ascii → c.toNat < 127)

instance (ascii : Bool) (s : Text) : Decidable (IsLegible ascii s) :=
  decidable_of_iff (s.all fun c => c = '\n' ∨ 32 ≤ c.toNat ∧ (ascii → c.toNat < 127))
    List.all_iff_forall_prop

/-- Two texts are legible together if both are. -/
@[simp] theorem isLegible_append_iff {ascii : Bool} {s t : Text} :
    IsLegible ascii (s ++ t) ↔ IsLegible ascii s ∧ IsLegible ascii t :=
  List.forall_mem_append

/-- What is legible in ASCII is so without that being asked for. -/
theorem IsLegible.of_ascii {s : Text} (h : IsLegible true s) (ascii : Bool) : IsLegible ascii s :=
  fun c hc => (h c hc).imp_right fun hplain => ⟨hplain.1, fun _ => hplain.2 rfl⟩

/-- What is legible in ASCII is ASCII. -/
theorem IsLegible.isAscii {s : Text} (h : IsLegible true s) : IsAscii s := by
  intro c hc
  rcases h c hc with rfl | ⟨-, hsmall⟩
  · decide
  · exact Nat.lt_succ_of_lt (hsmall rfl)

/-- No carriage return is legible. -/
theorem IsLegible.not_mem_return {ascii : Bool} {s : Text} (h : IsLegible ascii s) : '\r' ∉ s := by
  intro hreturn
  rcases h _ hreturn with hfeed | ⟨hlarge, -⟩
  · exact absurd hfeed (by decide)
  · exact absurd hlarge (by decide)

/-- The escape of a unit is legible in ASCII. -/
theorem isLegible_escapedUnit {n : Nat} (h : n < 0x10000) : IsLegible true (escapedUnit n) := by
  have hdigit : ∀ d < 16, 32 ≤ (Nat.digitChar d).toNat ∧ (Nat.digitChar d).toNat < 127 := by
    decide
  have hlegible (d : Nat) (hd : d < 16) : IsLegible true [Nat.digitChar d] :=
    List.forall_mem_singleton.mpr (Or.inr ⟨(hdigit d hd).1, fun _ => (hdigit d hd).2⟩)
  rw [escapedUnit, hex_four h, isLegible_append_iff]
  refine ⟨by decide, ?_⟩
  intro c hc
  simp only [List.mem_cons, List.not_mem_nil, or_false] at hc
  rcases hc with rfl | rfl | rfl | rfl <;>
    exact hlegible _ (by omega) _ List.mem_cons_self

/-- The escape of a code is legible in ASCII. -/
theorem isLegible_escapedCode (c : Char) : IsLegible true (escapedCode c) := by
  have hvalid : c.toNat < 0xd800 ∨ 0xdfff < c.toNat ∧ c.toNat < 0x110000 := c.valid
  unfold escapedCode
  split
  · next hunit => exact isLegible_escapedUnit hunit
  · exact isLegible_append_iff.mpr
      ⟨isLegible_escapedUnit (by omega), isLegible_escapedUnit (by omega)⟩

/-- What is written for a character is legible. -/
theorem isLegible_stringChar (ascii : Bool) (c : Char) : IsLegible ascii (stringChar ascii c) := by
  rcases stringChar_cases ascii c with ⟨d, -, hd, -, hwritten⟩ | hwritten |
    ⟨-, -, hc, hascii, hwritten⟩ <;> rw [hwritten]
  · exact List.forall_mem_cons.mpr ⟨Or.inr ⟨by decide, fun _ => by decide⟩,
      List.forall_mem_singleton.mpr (Or.inr ⟨hd.1, fun _ => hd.2⟩)⟩
  · exact (isLegible_escapedCode c).of_ascii ascii
  · exact List.forall_mem_singleton.mpr (Or.inr ⟨hc, hascii⟩)

/-- A written string is legible. -/
theorem isLegible_string (ascii : Bool) (s : Text) : IsLegible ascii (string ascii s) := by
  have hquote : IsLegible ascii ['"'] := (by decide : IsLegible true ['"']).of_ascii ascii
  rw [string, isLegible_append_iff, isLegible_append_iff]
  refine ⟨⟨hquote, fun d hd => ?_⟩, hquote⟩
  obtain ⟨c, -, hc⟩ := List.mem_flatMap.mp hd
  exact isLegible_stringChar ascii c d hc

end Stencil.Json
