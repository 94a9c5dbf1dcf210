import Stencil.Json.Printer

/-!
# Reading JSON

A text as a value. The reader stops at the first fault and says what was expected there. Besides
the words of JSON it knows `NaN`, `Infinity` and `-Infinity`. Every reader returns what follows the
part that it read, and what follows is shorter; this is why reading ends. Rules say how much a text
may ask for: a free text may nest as deeply as it likes, a record that was saved may not.

Two things are left out. The depth that a machine allows for calls inside of calls is no limit for a
free text. And a text has no halves of pairs in it: where a free text escapes one that stands alone,
the character U+FFFD is read for it, so that two such halves are not told apart.
-/

namespace Stencil.Json

/-- What can be wrong at a place of a text. -/
inductive Problem
  | valueExpected
  | nameExpected
  | colonExpected
  | commaExpected
  /-- A string without its closing quote; the place is the opening one. -/
  | unterminated
  | controlCharacter
  | badEscape
  | badCodeEscape
  /-- An escape for half of a pair without the other half. -/
  | loneHalf
  /-- A list or mapping inside more others than the rules allow. -/
  | tooDeep
  /-- Something follows the value. -/
  | extraData
  | byteOrderMark
deriving DecidableEq, Repr

/-- A problem in words. -/
def Problem.message : Problem → Text
  | valueExpected => "Expecting value".toList
  | nameExpected => "Expecting property name enclosed in double quotes".toList
  | colonExpected => "Expecting ':' delimiter".toList
  | commaExpected => "Expecting ',' delimiter".toList
  | unterminated => "Unterminated string starting at".toList
  | controlCharacter => "Invalid control character at".toList
  | badEscape => "Invalid \\escape".toList
  | badCodeEscape => "Invalid \\uXXXX escape".toList
  | loneHalf => "Lone half of a surrogate pair".toList
  | tooDeep => "Too many nested values".toList
  | extraData => "Extra data".toList
  | byteOrderMark => "Unexpected UTF-8 BOM (decode using utf-8-sig)".toList

/-- Why a text cannot be read. -/
inductive Failure
  /-- A problem at a place, which is given by the text from there on. -/
  | malformed (problem : Problem) (place : Text)
  /-- An integer with more digits than the limit. -/
  | tooManyDigits (count : Nat)
deriving DecidableEq, Repr

/-- How much a text may ask for. -/
structure Rules where
  /-- How many lists and mappings with something in them may stand inside each other. -/
  depth : Option Nat
  /-- Whether the limit for the digits of integers is one for the part before the point of every
  number, the sign included. -/
  countsSign : Bool
  /-- Whether an escape may stand for half of a pair. -/
  loneHalves : Bool

namespace Rules

/-- The rules for values that users write. -/
def free : Rules := ⟨none, false, true⟩

/-- The rules for records that were saved. -/
def record : Rules := ⟨some 200, true, false⟩

/-- The rules inside a list or mapping, unless there must be none. -/
def deeper? (r : Rules) : Option Rules :=
  match r.depth with
  | none => some r
  | some 0 => none
  | some (depth + 1) => some { r with depth := some depth }

end Rules

/-- What was read from the front of `s`, and the shorter text after it. -/
structure Read (α : Type) (s : Text) where
  value : α
  rest : Text
  shorter : rest.length < s.length

/-- What was read from the front of a text was read from the front of a longer one. -/
def Read.widen {α β : Type} {s t : Text} (f : α → β) (r : Read α s)
    (h : s.length ≤ t.length := by simp) : Read β t :=
  ⟨f r.value, r.rest, Nat.lt_of_lt_of_le r.shorter h⟩

/-- The blanks of JSON. -/
def isSpace (c : Char) : Bool := c == ' ' || c == '\t' || c == '\n' || c == '\r'

/-- The text after its leading blanks. -/
def skipSpace (s : Text) : Text := s.dropWhile isSpace

/-- Skipping blanks makes no text longer. -/
theorem length_skipSpace_le (s : Text) : (skipSpace s).length ≤ s.length :=
  (List.dropWhile_sublist _).length_le

/-! ### Strings -/

/-- The value of a digit in base sixteen. -/
def hexDigit? (c : Char) : Option Nat :=
  if c.isDigit then some (c.toNat - '0'.toNat)
  else if 'a' ≤ c ∧ c ≤ 'f' then some (c.toNat - 'a'.toNat + 10)
  else if 'A' ≤ c ∧ c ≤ 'F' then some (c.toNat - 'A'.toNat + 10)
  else none

/-- Four digits in base sixteen. -/
def hexUnit? (a b c d : Char) : Option Nat := do
  let a ← hexDigit? a
  let b ← hexDigit? b
  let c ← hexDigit? c
  let d ← hexDigit? d
  some (((a * 16 + b) * 16 + c) * 16 + d)

/-- The character for a letter after a backslash. -/
def shortEscape? : Char → Option Char
  | '"' => some '"'
  | '\\' => some '\\'
  | '/' => some '/'
  | 'b' => some '\x08'
  | 'f' => some '\x0c'
  | 'n' => some '\n'
  | 'r' => some '\r'
  | 't' => some '\t'
  | _ => none

/-- Whether a unit is the first half of a pair. -/
def isHighUnit (n : Nat) : Bool := 0xd800 ≤ n && n ≤ 0xdbff

/-- Whether a unit is the second half of a pair. -/
def isLowUnit (n : Nat) : Bool := 0xdc00 ≤ n && n ≤ 0xdfff

/-- The character of a unit; a half that stands alone is replaced. -/
def unitChar (n : Nat) : Char := if isHighUnit n || isLowUnit n then '\ufffd' else Char.ofNat n

/-- The character of a pair of units. -/
def pairChar (high low : Nat) : Char :=
  Char.ofNat (0x10000 + (high - 0xd800) * 0x400 + (low - 0xdc00))

/-- The second half of a pair, in an escape of its own with something behind it; nothing if no such
escape stands there or if it is no second half. -/
def readLowUnit (s : Text) : Except Failure (Option (Read Nat s)) :=
  match s with
  | '\\' :: 'u' :: a :: b :: c :: d :: after :: rest =>
    match hexUnit? a b c d with
    | none => .error (.malformed .badCodeEscape ('u' :: a :: b :: c :: d :: after :: rest))
    | some low =>
      .ok (if isLowUnit low then some ⟨low, after :: rest, by simp⟩ else none)
  | _ => .ok none

/-- A code after `\u`: four digits with something behind them, and four more in a second escape if
the first four are the first half of a pair. -/
def readCode (rules : Rules) (s : Text) : Except Failure (Read Char s) :=
  match s with
  | a :: b :: c :: d :: after :: rest =>
    match hexUnit? a b c d with
    | none => .error (.malformed .badCodeEscape ('u' :: a :: b :: c :: d :: after :: rest))
    | some high => do
      let low ← if isHighUnit high then readLowUnit (after :: rest) else .ok none
      match low with
      | some low => .ok (low.widen (pairChar high) (by simp))
      | none =>
        if (isHighUnit high || isLowUnit high) && !rules.loneHalves then
          .error (.malformed .loneHalf ('u' :: a :: b :: c :: d :: after :: rest))
        else .ok ⟨unitChar high, after :: rest, by simp⟩
  | short => .error (.malformed .badCodeEscape ('u' :: short))

/-- The characters of a string after its opening quote, up to the closing one; `opening` is the
text from the opening quote on. -/
def readString (rules : Rules) (opening : Text) (s : Text) : Except Failure (Read Text s) :=
  match s with
  | [] => .error (.malformed .unterminated opening)
  | '"' :: rest => .ok ⟨[], rest, by simp⟩
  | ['\\'] => .error (.malformed .unterminated opening)
  | '\\' :: 'u' :: rest => do
    let code ← readCode rules rest
    have := code.shorter
    let more ← readString rules opening code.rest
    .ok (more.widen (code.value :: ·) (by simp; omega))
  | '\\' :: c :: rest =>
    match shortEscape? c with
    | none => .error (.malformed .badEscape ('\\' :: c :: rest))
    | some value => do
      let more ← readString rules opening rest
      .ok (more.widen (value :: ·) (by simp; omega))
  | c :: rest =>
    if c.toNat < 32 then .error (.malformed .controlCharacter (c :: rest))
    else do
      let more ← readString rules opening rest
      .ok (more.widen (c :: ·))
termination_by s.length
decreasing_by all_goals simp; try omega

/-! ### Numbers -/

/-- The number that digits spell. -/
def digitsValue (digits : Text) : Nat :=
  digits.foldl (fun n c => n * 10 + (c.toNat - '0'.toNat)) 0

/-- The digits behind a point, and what follows; nothing if no digit stands there. -/
def fractionPart (s : Text) : Text × Text :=
  match s with
  | '.' :: rest =>
    if (rest.takeWhile Char.isDigit).isEmpty then ([], s)
    else (rest.takeWhile Char.isDigit, rest.dropWhile Char.isDigit)
  | _ => ([], s)

/-- The sign and the digits of an exponent, and what follows; nothing if no digit stands there. -/
def exponentPart (s : Text) : Option Int × Text :=
  match s with
  | e :: rest =>
    if e == 'e' || e == 'E' then
      let (negative, unsigned) :=
        match rest with
        | '-' :: r => (true, r)
        | '+' :: r => (false, r)
        | r => (false, r)
      if (unsigned.takeWhile Char.isDigit).isEmpty then (none, s)
      else
        let n : Int := digitsValue (unsigned.takeWhile Char.isDigit)
        (some (if negative then -n else n), unsigned.dropWhile Char.isDigit)
    else (none, s)
  | [] => (none, s)

/-- What follows a fraction is no longer than the text. -/
theorem length_fractionPart_le (s : Text) : (fractionPart s).2.length ≤ s.length := by
  have drop (r : Text) : (r.dropWhile Char.isDigit).length ≤ r.length :=
    (List.dropWhile_sublist _).length_le
  unfold fractionPart
  split
  · next rest =>
    split
    · simp
    · have := drop rest
      simp
      omega
  · simp

/-- What follows an exponent is no longer than the text. -/
theorem length_exponentPart_le (s : Text) : (exponentPart s).2.length ≤ s.length := by
  have drop (r : Text) : (r.dropWhile Char.isDigit).length ≤ r.length :=
    (List.dropWhile_sublist _).length_le
  unfold exponentPart
  split
  · next e rest =>
    split
    · split
      next negative unsigned heq =>
      have : unsigned.length ≤ rest.length := by
        split at heq <;> simp only [Prod.mk.injEq] at heq <;> obtain ⟨_, rfl⟩ := heq <;> simp
      have := drop unsigned
      split
      · simp
      · simp
        omega
    · simp
  · simp

/-- The floating-point number nearest to `digits * 10 ^ exponent`. What is far beyond the largest
one is infinite, and what is far below the smallest one is zero. -/
def floatOf (negative : Bool) (digits : Nat) (exponent : Int) : Float :=
  let order := (Nat.toDigits 10 digits).length + exponent
  let size :=
    if digits == 0 || order < -400 then 0.0
    else if 400 < order then 1.0 / 0.0
    else Float.ofScientific digits (exponent < 0) exponent.natAbs
  if negative then -size else size

/-- Whether the digits of a number before its point are too many. -/
def Rules.refuses (rules : Rules) (negative isInteger : Bool) (whole : Text) : Bool :=
  if rules.countsSign then digitLimit < whole.length + (if negative then 1 else 0)
  else isInteger && digitLimit < whole.length

/-- The value of a number with its parts: an integer unless it has a fraction or an exponent. -/
def numberValue (rules : Rules) (negative : Bool) (whole fraction : Text)
    (exponent : Option Int) : Except Failure Value :=
  let isInteger := fraction.isEmpty && exponent.isNone
  if rules.refuses negative isInteger whole then .error (.tooManyDigits whole.length)
  else if isInteger then
    let n : Int := digitsValue whole
    .ok (.int (if negative then -n else n))
  else
    .ok (.float (floatOf negative (digitsValue (whole ++ fraction))
      (exponent.getD 0 - fraction.length)))

/-- The digits of a number after its sign: a zero, or digits of which the first is no zero. -/
def wholePart? (s : Text) : Option (Text × Text) :=
  match s with
  | '0' :: rest => some (['0'], rest)
  | c :: rest =>
    if c.isDigit then some (c :: rest.takeWhile Char.isDigit, rest.dropWhile Char.isDigit)
    else none
  | [] => none

/-- What follows the digits of a number is shorter than the text. -/
theorem length_wholePart? {s whole rest : Text} (h : wholePart? s = some (whole, rest)) :
    rest.length < s.length := by
  unfold wholePart? at h
  split at h
  · simp only [Option.some.injEq, Prod.mk.injEq] at h
    simp [← h.2]
  · next c r _ =>
    split at h
    · simp only [Option.some.injEq, Prod.mk.injEq] at h
      have := (List.dropWhile_sublist (l := r) Char.isDigit).length_le
      simp only [← h.2, List.length_cons]
      omega
    · simp at h
  · simp at h

/-- The text of a number after its sign. -/
def unsigned (s : Text) : Text :=
  match s with
  | '-' :: rest => rest
  | _ => s

/-- A sign makes no text shorter. -/
theorem length_unsigned_le (s : Text) : (unsigned s).length ≤ s.length := by
  unfold unsigned
  split <;> simp

/-- A number. -/
def readNumber (rules : Rules) (s : Text) : Except Failure (Read Value s) :=
  match h : wholePart? (unsigned s) with
  | none => .error (.malformed .valueExpected s)
  | some (whole, afterWhole) => do
    let value ← numberValue rules (s.head? == some '-') whole (fractionPart afterWhole).1
      (exponentPart (fractionPart afterWhole).2).1
    .ok ⟨value, (exponentPart (fractionPart afterWhole).2).2, by
      have h₁ := length_wholePart? h
      have h₂ := length_fractionPart_le afterWhole
      have h₃ := length_exponentPart_le (fractionPart afterWhole).2
      have h₄ := length_unsigned_le s
      omega⟩

/-! ### Values -/

/-- The rules inside the list or mapping at the front of a text. -/
def Rules.inside (rules : Rules) (s : Text) : Except Failure Rules :=
  match rules.deeper? with
  | some inside => .ok inside
  | none => .error (.malformed .tooDeep s)

/-- The words that stand for values. -/
def words : List (Text × Value) :=
  [("null".toList, .null), ("true".toList, .bool true), ("false".toList, .bool false),
   ("NaN".toList, .float (0.0 / 0.0)), ("Infinity".toList, .float (1.0 / 0.0)),
   ("-Infinity".toList, .float (-1.0 / 0.0))]

/-- The value of the word at the front of a text, and what follows. -/
def word? (s : Text) : List (Text × Value) → Option (Value × Nat)
  | [] => none
  | (word, value) :: rest => if word.isPrefixOf s then some (value, word.length) else word? s rest

/-- A word or a number. -/
def readPlain (rules : Rules) (s : Text) : Except Failure (Read Value s) :=
  match word? s words with
  | some (value, size) =>
    if h : 0 < size ∧ 0 < s.length then .ok ⟨value, s.drop size, by simp; omega⟩
    else .error (.malformed .valueExpected s)
  | none => readNumber rules s

mutual

/-- A value. -/
def readValue (rules : Rules) (s : Text) : Except Failure (Read Value s) :=
  match s with
  | '"' :: rest => do
    let string ← readString rules s rest
    .ok (string.widen .text)
  | '[' :: rest =>
    have := length_skipSpace_le rest
    match hs : skipSpace rest with
    | ']' :: after =>
      have : (skipSpace rest).length = after.length + 1 := by simp [hs]
      .ok ⟨.list [], after, by simp; omega⟩
    | _ => do
      let inside ← rules.inside s
      let items ← readItems inside (skipSpace rest)
      .ok (items.widen .list (by simp; omega))
  | '\x7b' :: rest =>
    have := length_skipSpace_le rest
    match hs : skipSpace rest with
    | '\x7d' :: after =>
      have : (skipSpace rest).length = after.length + 1 := by simp [hs]
      .ok ⟨.mapping [], after, by simp; omega⟩
    | _ => do
      let inside ← rules.inside s
      let entries ← readEntries inside (skipSpace rest)
      .ok (entries.widen (fun entries => .mapping (Mapping.ofEntries entries)) (by simp; omega))
  | other => readPlain rules other
termination_by (s.length, 0)
decreasing_by all_goals apply Prod.Lex.left; simp; omega

/-- The items of a list up to the closing bracket, at least one. -/
def readItems (rules : Rules) (s : Text) : Except Failure (Read (List Value) s) := do
  let item ← readValue rules s
  have := item.shorter
  have := length_skipSpace_le item.rest
  match hs : skipSpace item.rest with
  | ']' :: after =>
    have : (skipSpace item.rest).length = after.length + 1 := by simp [hs]
    .ok ⟨[item.value], after, by omega⟩
  | ',' :: after => do
    have : (skipSpace item.rest).length = after.length + 1 := by simp [hs]
    have := length_skipSpace_le after
    let items ← readItems rules (skipSpace after)
    .ok (items.widen (item.value :: ·) (by omega))
  | place => .error (.malformed .commaExpected place)
termination_by (s.length, 1)
decreasing_by
  · apply Prod.Lex.right; omega
  · apply Prod.Lex.left; omega

/-- The entries of a mapping up to the closing brace, at least one. -/
def readEntries (rules : Rules) (s : Text) : Except Failure (Read (List (Text × Value)) s) :=
  match s with
  | '"' :: rest => do
    let name ← readString rules s rest
    have := name.shorter
    have := length_skipSpace_le name.rest
    match hc : skipSpace name.rest with
    | ':' :: afterColon => do
      have : (skipSpace name.rest).length = afterColon.length + 1 := by simp [hc]
      have := length_skipSpace_le afterColon
      let item ← readValue rules (skipSpace afterColon)
      have := item.shorter
      have := length_skipSpace_le item.rest
      match hs : skipSpace item.rest with
      | '\x7d' :: after =>
        have : (skipSpace item.rest).length = after.length + 1 := by simp [hs]
        .ok ⟨[(name.value, item.value)], after, by simp; omega⟩
      | ',' :: after => do
        have : (skipSpace item.rest).length = after.length + 1 := by simp [hs]
        have := length_skipSpace_le after
        let entries ← readEntries rules (skipSpace after)
        .ok (entries.widen ((name.value, item.value) :: ·) (by simp; omega))
      | place => .error (.malformed .commaExpected place)
    | place => .error (.malformed .colonExpected place)
  | place => .error (.malformed .nameExpected place)
termination_by (s.length, 1)
decreasing_by all_goals apply Prod.Lex.left; simp; omega

end

/-- A whole text as a value, blanks around it. -/
def readBy (rules : Rules) (s : Text) : Except Failure Value :=
  match s with
  | '\ufeff' :: _ => .error (.malformed .byteOrderMark s)
  | _ =>
    match readValue rules (skipSpace s) with
    | .error failure => .error failure
    | .ok value =>
      match skipSpace value.rest with
      | [] => .ok value.value
      | place => .error (.malformed .extraData place)

/-- A whole text that a user writes as a value. -/
def read (s : Text) : Except Failure Value := readBy .free s

/-- A problem with its line, its column and its offset in the whole text. -/
def place (whole rest : Text) : Text :=
  let before := whole.take (whole.length - rest.length)
  let line := before.count '\n' + 1
  let column := (before.reverse.takeWhile (· != '\n')).length + 1
  ": line ".toList ++ Nat.toDigits 10 line ++ " column ".toList ++ Nat.toDigits 10 column
    ++ " (char ".toList ++ Nat.toDigits 10 before.length ++ [')']

/-- Why a text cannot be read, in words. -/
def Failure.message (whole : Text) : Failure → Text
  | malformed problem rest => problem.message ++ place whole rest
  | tooManyDigits count =>
    "Exceeds the limit (4300 digits) for integer string conversion: value has ".toList
      ++ Nat.toDigits 10 count
      ++ " digits; use sys.set_int_max_str_digits() to increase the limit".toList

end Stencil.Json
