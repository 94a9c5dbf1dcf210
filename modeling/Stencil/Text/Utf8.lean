import Stencil.Text.Quoted

/-!
# UTF-8

Reading bytes as text. A sequence of bytes that is no UTF-8 has a first flaw: where it starts, how
many bytes it covers, and what is wrong there.
-/

namespace Stencil.Utf8

/-- What can be wrong with a sequence of bytes. -/
inductive Defect
  /-- No character starts with this byte. -/
  | invalidStart
  /-- A byte that must continue a character does not. -/
  | invalidContinuation
  /-- The bytes end inside a character. -/
  | unexpectedEnd
deriving DecidableEq, Repr

/-- The first place where bytes are no UTF-8. -/
structure Flaw where
  defect : Defect
  /-- Index of the first byte at fault. -/
  start : Nat
  /-- How many bytes are at fault. -/
  size : Nat
  /-- The first byte at fault. -/
  byte : UInt8
deriving DecidableEq, Repr

/-- What is wrong, in words. -/
def Defect.message : Defect → Text
  | .invalidStart => "invalid start byte".toList
  | .invalidContinuation => "invalid continuation byte".toList
  | .unexpectedEnd => "unexpected end of data".toList

/-- The flaw as a message: one byte is named by its value, several by their range. -/
def Flaw.message (flaw : Flaw) : Text :=
  let place :=
    if flaw.size == 1 then
      "byte 0x".toList ++ Text.hex 2 flaw.byte.toNat ++ " in position ".toList
        ++ Nat.toDigits 10 flaw.start
    else
      "bytes in position ".toList ++ Nat.toDigits 10 flaw.start ++ ['-']
        ++ Nat.toDigits 10 (flaw.start + flaw.size - 1)
  "'utf-8' codec can't decode ".toList ++ place ++ ": ".toList ++ flaw.defect.message

/-- Bytes 80 to BF continue a character. -/
def isTail (b : UInt8) : Bool := 0x80 ≤ b && b ≤ 0xbf

/-- The least and the greatest second byte after the first byte `b` of a character: some first
bytes leave out forms that are too long, surrogates, or code points beyond the last one. -/
def secondRange (b : UInt8) : UInt8 × UInt8 :=
  if b == 0xe0 then (0xa0, 0xbf)
  else if b == 0xed then (0x80, 0x9f)
  else if b == 0xf0 then (0x90, 0xbf)
  else if b == 0xf4 then (0x80, 0x8f)
  else (0x80, 0xbf)

/-- How many bytes follow the first byte `b` of a character of several bytes. -/
def tailCount? (b : UInt8) : Option Nat :=
  if 0xc2 ≤ b && b ≤ 0xdf then some 1
  else if 0xe0 ≤ b && b ≤ 0xef then some 2
  else if 0xf0 ≤ b && b ≤ 0xf4 then some 3
  else none

/-- How many bytes of a character that starts with `b` and has `n` more bytes can be read. -/
def readable (b : UInt8) (n : Nat) (rest : List UInt8) : Nat :=
  match rest.take n with
  | [] => 1
  | second :: tails =>
    if (secondRange b).1 ≤ second && second ≤ (secondRange b).2 then
      2 + (tails.takeWhile isTail).length
    else 1

/-- The number that the low bits of a character's bytes spell. -/
def codePoint (b : UInt8) (tails : List UInt8) : Nat :=
  let lead :=
    match tails.length with
    | 1 => b.toNat - 0xc0
    | 2 => b.toNat - 0xe0
    | _ => b.toNat - 0xf0
  tails.foldl (fun n t => n * 64 + (t.toNat - 0x80)) lead

/-- Reads bytes as text; `start` is the index of the first one. -/
def decodeFrom (start : Nat) : List UInt8 → Except Flaw Text
  | [] => .ok []
  | b :: rest =>
    if b < 0x80 then do
      let text ← decodeFrom (start + 1) rest
      return Char.ofNat b.toNat :: text
    else
      match tailCount? b with
      | none => .error ⟨.invalidStart, start, 1, b⟩
      | some n =>
        let size := readable b n rest
        if size == n + 1 then do
          let text ← decodeFrom (start + n + 1) (rest.drop n)
          return Char.ofNat (codePoint b (rest.take n)) :: text
        else if size == rest.length + 1 then .error ⟨.unexpectedEnd, start, size, b⟩
        else .error ⟨.invalidContinuation, start, size, b⟩
termination_by bytes => bytes.length

/-- Reads bytes as text. -/
def decode (bytes : List UInt8) : Except Flaw Text := decodeFrom 0 bytes

end Stencil.Utf8
