import Stencil.Text.Basic

/-!
# Patterns of names

A pattern describes names of files: a star stands for any characters, a question mark for one, and
brackets for one of a set. The set may hold ranges; one from a higher to a lower character does not
count. If an exclamation mark comes first in what is left, the set holds all other characters. A
bracket that is not closed stands for itself.
-/

namespace Stencil.Text

/-- One of the characters that a pattern admits at a place, or any run of characters. -/
inductive PatternPiece
  | run
  | one
  | char (c : Char)
  /-- A character in one of the ranges, or, if `inside` is false, in none of them. -/
  | among (inside : Bool) (ranges : List (Char × Char))
deriving DecidableEq, Repr

/-- A part of the inside of brackets. -/
inductive SetPart
  | char (c : Char)
  /-- The characters from one to another. -/
  | range (low high : Char)
deriving DecidableEq, Repr

/-- The parts of the inside of brackets. A hyphen makes a range of the characters beside it. -/
def setParts : Text → List SetPart
  | low :: '-' :: high :: rest => .range low high :: setParts rest
  | c :: rest => .char c :: setParts rest
  | [] => []

/-- The parts of the inside of brackets, of which an exclamation mark at the front is one. -/
def markedParts : Text → List SetPart
  | '!' :: rest => .char '!' :: setParts rest
  | inside => setParts inside

/-- Whether a part holds any character. -/
def SetPart.isInhabited : SetPart → Bool
  | char _ => true
  | range low high => low.toNat ≤ high.toNat

/-- The first and the last character of a part. -/
def SetPart.bounds : SetPart → Char × Char
  | char c => (c, c)
  | range low high => (low, high)

/-- The piece for the inside of brackets. An exclamation mark in front also counts if a range begins
with it; then the hyphen and the last character of the range are in the set. -/
def setPiece (inside : Text) : PatternPiece :=
  match (markedParts inside).filter SetPart.isInhabited with
  | .char '!' :: rest => .among false (rest.map SetPart.bounds)
  | .range '!' high :: rest => .among false (('-', '-') :: (high, high) :: rest.map SetPart.bounds)
  | parts => .among true (parts.map SetPart.bounds)

/-- The inside of brackets, and what follows them. A closing bracket that comes first belongs to the
inside. -/
def readSet? (s : Text) : Option (Text × Text) :=
  match s with
  | [] => none
  | c :: r =>
    match r.dropWhile (· != ']') with
    | [] => none
    | _ :: after => some (c :: r.takeWhile (· != ']'), after)

/-- The piece for the inside of brackets at the front of a text, and what follows them. A closing
bracket that comes first after an exclamation mark belongs to the inside, too. -/
def readBrackets? (s : Text) : Option (PatternPiece × Text) :=
  match s with
  | '!' :: r => (readSet? r).map fun (inside, after) => (setPiece ('!' :: inside), after)
  | _ => (readSet? s).map fun (inside, after) => (setPiece inside, after)

/-- What follows the inside of brackets is shorter. -/
theorem length_readSet? {s inside after : Text} (h : readSet? s = some (inside, after)) :
    after.length < s.length := by
  unfold readSet? at h
  split at h
  · simp at h
  · next c r =>
    split at h
    · simp at h
    · next d after' hdrop =>
      simp only [Option.some.injEq, Prod.mk.injEq] at h
      have := (List.dropWhile_sublist (fun x => x != ']') (l := r)).length_le
      simp_all
      omega

/-- What follows brackets is shorter. -/
theorem length_readBrackets? {s after : Text} {piece : PatternPiece}
    (h : readBrackets? s = some (piece, after)) : after.length < s.length := by
  unfold readBrackets? at h
  split at h <;> simp only [Option.map_eq_some_iff, Prod.exists, Prod.mk.injEq] at h
  · obtain ⟨inside, after', h, -, rfl⟩ := h
    have := length_readSet? h
    simp
    omega
  · obtain ⟨inside, after', h, -, rfl⟩ := h
    exact length_readSet? h

/-- The pieces of a pattern. -/
def patternPieces (s : Text) : List PatternPiece :=
  match s with
  | [] => []
  | '*' :: r => .run :: patternPieces r
  | '?' :: r => .one :: patternPieces r
  | '[' :: r =>
    match h : readBrackets? r with
    | some (piece, after) =>
      have := length_readBrackets? h
      piece :: patternPieces after
    | none => .char '[' :: patternPieces r
  | c :: r => .char c :: patternPieces r
termination_by s.length
decreasing_by all_goals simp; try omega

/-- Whether a piece admits a character. -/
def PatternPiece.admits : PatternPiece → Char → Bool
  | run, _ | one, _ => true
  | char c, d => c == d
  | among inside ranges, d =>
    inside == ranges.any fun (low, high) => low.toNat ≤ d.toNat && d.toNat ≤ high.toNat

/-- For every end of a list, whether it has a true item. -/
def anyAfter : List Bool → List Bool
  | [] => []
  | b :: rest =>
    let more := anyAfter rest
    (b || more.headD false) :: more

/-- For every end of a name, from the whole name to the empty one, whether pieces describe it. -/
def describedEnds (s : Text) : List PatternPiece → List Bool
  | [] => s.map (fun _ => false) ++ [true]
  | .run :: rest => anyAfter (describedEnds s rest)
  | piece :: rest =>
    List.zipWith (fun c later => piece.admits c && later) s (describedEnds s rest).tail ++ [false]

/-- Whether pieces describe a name as a whole. -/
def describes (pieces : List PatternPiece) (s : Text) : Bool :=
  (describedEnds s pieces).headD false

/-- Whether a text has characters with a meaning of their own in patterns. -/
def isPattern (s : Text) : Bool := s.any fun c => c == '*' || c == '?' || c == '['

end Stencil.Text
