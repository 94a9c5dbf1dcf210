import Stencil.Template.Comment
import Stencil.Proofs.Template.Grammar

/-!
# Well-formed trees

Conditions on the texts and the arguments of a tree that hold at every depth. What is asked of a
text and of a path is left open; two texts are never neighbours, for a template could not tell them
apart.
-/

namespace Stencil.Template

/-- Whether a node is text. -/
def Node.isText : Node → Bool
  | .text _ => true
  | _ => false

/-- Whether the first node is text. -/
def beginsWithText : List Node → Bool
  | [] => false
  | node :: _ => node.isText

mutual

/-- Everywhere in a node the texts satisfy `text` and the paths `path`, partials have names of
partials, and no two texts are neighbours. -/
def Node.WellFormed (text path : Text → Prop) : Node → Prop
  | .text s => text s
  | .escaped p => path p
  | .raw p => path p
  | .partialRef name => IsPartialName name
  | .conditional p thenBody elseBody =>
    path p ∧ WellFormedAll text path thenBody ∧ WellFormedAll text path elseBody
  | .negated p body => path p ∧ WellFormedAll text path body
  | .each p body => path p ∧ WellFormedAll text path body
  | .within p body => path p ∧ WellFormedAll text path body

/-- Everywhere in a list of nodes the same holds. -/
def WellFormedAll (text path : Text → Prop) : List Node → Prop
  | [] => True
  | node :: rest =>
    node.WellFormed text path ∧ ¬(node.isText ∧ beginsWithText rest) ∧ WellFormedAll text path rest

end

section Weaker

variable {text text' path path' : Text → Prop}

mutual

/-- A node stays well-formed if less is asked of its texts and paths. -/
theorem Node.WellFormed.mono {node : Node} (h : node.WellFormed text path)
    (htext : ∀ s, text s → text' s) (hpath : ∀ p, path p → path' p) :
    node.WellFormed text' path' := by
  cases node with
  | text s => exact htext s h
  | escaped p => exact hpath p h
  | raw p => exact hpath p h
  | partialRef name => exact h
  | conditional p thenBody elseBody =>
    exact ⟨hpath p h.1, h.2.1.mono htext hpath, h.2.2.mono htext hpath⟩
  | negated p body => exact ⟨hpath p h.1, h.2.mono htext hpath⟩
  | each p body => exact ⟨hpath p h.1, h.2.mono htext hpath⟩
  | within p body => exact ⟨hpath p h.1, h.2.mono htext hpath⟩

/-- Nodes stay well-formed if less is asked of their texts and paths. -/
theorem WellFormedAll.mono {nodes : List Node} (h : WellFormedAll text path nodes)
    (htext : ∀ s, text s → text' s) (hpath : ∀ p, path p → path' p) :
    WellFormedAll text' path' nodes := by
  cases nodes with
  | nil => trivial
  | cons node rest => exact ⟨h.1.mono htext hpath, h.2.1, h.2.2.mono htext hpath⟩

end

end Weaker

/-- A text that is seen as text wherever it stands: not empty, without two opening braces in a row,
and not ending in one. -/
def IsSafeText (s : Text) : Prop := s ≠ [] ∧ ¬ openBraces <:+: s ∧ ¬ ['\x7b'] <:+ s

/-- The word of the tag between two bodies. -/
def elseWord : Text := ['e', 'l', 's', 'e']

/-- A path other than the word of the tag between two bodies. -/
def IsOwnPath (path : Text) : Prop := IsPath path ∧ path ≠ elseWord

/-- No mark of two braces begins in a safe text, whatever follows it. -/
theorem IsSafeText.avoids {s : Text} (h : IsSafeText s) : Text.Avoids openBraces s :=
  Text.avoids_pair_iff.mpr h.2

end Stencil.Template
