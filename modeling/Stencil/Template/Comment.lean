import Stencil.Text.Basic

/-!
# Comments

A comment runs from its opening mark to the first closing mark after it, over several lines if need
be. An opening mark without a closing one is text.
-/

namespace Stencil.Template

/-- What a comment begins with. -/
def commentOpen : Text := ['\x7b', '\x7b', '!', '-', '-']

/-- What a comment ends with. -/
def commentClose : Text := ['-', '-', '\x7d', '\x7d']

/-- The inside of a comment at the front of a text, and what follows it. -/
def readComment? (s : Text) : Option (Text × Text) := do
  let inside ← commentOpen.isPrefixOf? s
  Text.cut? commentClose inside

/-- What follows a comment is shorter. -/
theorem length_readComment? {s inside rest : Text} (h : readComment? s = some (inside, rest)) :
    rest.length < s.length := by
  have cut {needle s before after : Text} (h : Text.cut? needle s = some (before, after)) :
      after.length ≤ s.length := by
    induction s generalizing before with
    | nil =>
      unfold Text.cut? at h
      split at h <;> simp_all
    | cons c r ih =>
      unfold Text.cut? at h
      split at h
      · next hafter =>
        have := Text.length_of_isPrefixOf? hafter
        simp_all
        omega
      · simp only [Option.map_eq_some_iff, Prod.exists, Prod.mk.injEq] at h
        obtain ⟨before', after', h, -, rfl⟩ := h
        have := ih h
        simp
        omega
  simp only [readComment?, Option.bind_eq_bind, Option.bind_eq_some_iff] at h
  obtain ⟨whole, hopen, hcut⟩ := h
  have := Text.length_of_isPrefixOf? hopen
  have := cut hcut
  simp only [commentOpen, List.length_cons] at *
  omega

/-- The text without its comments. With `keepLines` the line breaks inside them stay, so that all
else keeps its line. -/
def stripComments (keepLines : Bool) (s : Text) : Text :=
  match s with
  | [] => []
  | c :: r =>
    match h : readComment? (c :: r) with
    | some (inside, rest) =>
      have := length_readComment? h
      (if keepLines then inside.filter (· == '\n') else []) ++ stripComments keepLines rest
    | none => c :: stripComments keepLines r
termination_by s.length
decreasing_by all_goals simp_all

/-- A comment at the front of a text leaves nothing, or its line breaks. -/
theorem stripComments_comment {c : Char} {r inside rest : Text}
    (h : readComment? (c :: r) = some (inside, rest)) (keepLines : Bool) :
    stripComments keepLines (c :: r) =
      (if keepLines then inside.filter (· == '\n') else []) ++ stripComments keepLines rest := by
  rw [stripComments]
  split
  · next hsome =>
    rw [h] at hsome
    obtain ⟨rfl, rfl⟩ := Prod.mk.inj (Option.some.inj hsome)
    rfl
  · next hnone => simp [h] at hnone

/-- A character at which no comment begins stays. -/
theorem stripComments_plain {c : Char} {r : Text} (h : readComment? (c :: r) = none)
    (keepLines : Bool) : stripComments keepLines (c :: r) = c :: stripComments keepLines r := by
  rw [stripComments]
  split
  · next hsome => simp [h] at hsome
  · rfl

end Stencil.Template
