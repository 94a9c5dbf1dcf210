import Stencil.Template.Block
import Stencil.Template.Comment

/-!
# Reading templates

A template is read from left to right. A block is read whole, and its body is read as a template of
its own. Nothing is refused: an opening tag without its closing tag stays as text and is reported,
and braces that begin no tag stay as text.

Templates nest as deep as they like. A machine on which calls inside of calls go only so deep gives
up on some that are read here; this limit is left out, here and wherever else trees are followed:
where templates are rendered, where values are read, written and assigned.
-/

namespace Stencil.Template

/-- What stands at the front of a text. -/
inductive Directive
  | block (b : Block)
  /-- An opening tag without its closing tag, and what follows it. -/
  | unmatched (kind : BlockKind) (opener rest : Text)
  /-- A tag without a body, and what follows it. -/
  | inline (node : Node) (rest : Text)
  /-- No tag. -/
  | plain

/-- The kind of the opening tag at the front of a text, and what follows the tag. -/
def readAnyOpener? (s : Text) : Option (BlockKind × Text) :=
  BlockKind.all.findSome? fun kind => (readOpener? kind s).map fun (_, rest) => (kind, rest)

/-- What stands at the front of a text. -/
def Directive.read (s : Text) : Directive :=
  match readAnyBlock? s with
  | some b => .block b
  | none =>
    match readAnyOpener? s with
    | some (kind, rest) => .unmatched kind (s.take (s.length - rest.length)) rest
    | none =>
      match readInline? s with
      | some (node, rest) => .inline node rest
      | none => .plain

/-- A block and what follows it are as long as the text. -/
theorem Directive.length_read_block {s : Text} {b : Block} (h : read s = .block b) :
    b.source.length + b.rest.length = s.length := by
  unfold read at h
  split at h
  · next hb =>
    cases h
    exact length_readAnyBlock? hb
  · repeat' split at h
    all_goals simp at h

/-- What follows an unmatched opening tag is shorter. -/
theorem Directive.length_read_unmatched {s opener rest : Text} {kind : BlockKind}
    (h : read s = .unmatched kind opener rest) : rest.length < s.length := by
  unfold read at h
  split at h
  · simp at h
  · split at h
    · next hopener =>
      obtain ⟨kind, -, hkind⟩ := List.exists_of_findSome?_eq_some hopener
      simp only [Option.map_eq_some_iff, Prod.exists, Prod.mk.injEq] at hkind
      obtain ⟨path, rest', hkind, -, rfl⟩ := hkind
      cases h
      exact length_readOpener? hkind
    · split at h <;> simp at h

/-- What follows a tag without a body is shorter. -/
theorem Directive.length_read_inline {s rest : Text} {node : Node}
    (h : read s = .inline node rest) : rest.length < s.length := by
  unfold read at h
  split at h
  · simp at h
  · split at h
    · simp at h
    · split at h
      · next hinline =>
        cases h
        exact length_readInline? hinline
      · simp at h

/-- Reads a text without comments as a template. -/
def parseBare (s : Text) : Parsed :=
  match s with
  | [] => .empty
  | c :: r =>
    match h : Directive.read (c :: r) with
    | .plain => (parseBare r).addText [c]
    | .inline node rest =>
      have := Directive.length_read_inline h
      (parseBare rest).addNode node
    | .unmatched kind opener rest =>
      have := Directive.length_read_unmatched h
      ((parseBare rest).addText opener).report [.unmatchedBlock kind opener]
    | .block b =>
      have := Directive.length_read_block h
      have := b.length_body_lt
      match b.kind with
      | .conditional =>
        match he : splitElse? elseTag b.body with
        | some (before, after) =>
          have := length_splitElse? he
          let thenBody := parseBare before
          let elseBody := parseBare after
          ((parseBare b.rest).addNode (.conditional b.path thenBody.nodes elseBody.nodes)).report
            (thenBody.diagnostics ++ elseBody.diagnostics)
        | none =>
          let body := parseBare b.body
          ((parseBare b.rest).addNode (.conditional b.path body.nodes [])).report body.diagnostics
      | .negated =>
        let body := parseBare b.body
        ((parseBare b.rest).addNode (.negated b.path body.nodes)).report body.diagnostics
      | .each =>
        let body := parseBare b.body
        ((parseBare b.rest).addNode (.each b.path body.nodes)).report body.diagnostics
      | .within =>
        let body := parseBare b.body
        ((parseBare b.rest).addNode (.within b.path body.nodes)).report body.diagnostics
termination_by s.length
decreasing_by
  all_goals
    have : (c :: r).length = r.length + 1 := rfl
    omega

/-- Reads a text as a template. -/
def parse (s : Text) : Parsed := parseBare (stripComments false s)

end Stencil.Template
