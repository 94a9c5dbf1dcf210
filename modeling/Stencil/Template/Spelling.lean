import Stencil.Template.Tag

/-!
# Spelling templates

How trees are written down. Blanks inside tags are free, and a conditional without nodes in its
second body may be written with or without the tag between the bodies, so a tree has many spellings.
One of them is the plain spelling, with a single blank around each argument.
-/

namespace Stencil.Template

/-- Whether a text has no characters but blanks. -/
def Blanks (s : Text) : Prop := ∀ c ∈ s, Text.isBlank c

/-- A tag: an argument with blanks around it between `opening` and `closing`. -/
inductive SpellsTag (opening argument closing : Text) : Text → Prop
  | intro {before after : Text} (hbefore : Blanks before) (hafter : Blanks after) :
    SpellsTag opening argument closing (opening ++ before ++ argument ++ after ++ closing)

/-- The opening tag of a block: at least one blank stands before the path. -/
inductive SpellsOpener (kind : BlockKind) (path : Text) : Text → Prop
  | intro {blank : Char} {tag : Text} (hblank : Text.isBlank blank)
    (htag : SpellsTag [] path closeBraces tag) :
    SpellsOpener kind path (kind.openMark ++ blank :: tag)

mutual

/-- The spellings of a node. -/
inductive Spells : Node → Text → Prop
  | text (s : Text) : Spells (.text s) s
  | escaped {path s : Text} (h : SpellsTag openBraces path closeBraces s) : Spells (.escaped path) s
  | raw {path s : Text} (h : SpellsTag ('\x7b' :: openBraces) path ('\x7d' :: closeBraces) s) :
    Spells (.raw path) s
  | partialRef {name s : Text} (h : SpellsTag (openBraces ++ ['>']) name closeBraces s) :
    Spells (.partialRef name) s
  | conditional {path opener s t : Text} {thenBody elseBody : List Node}
    (hopener : SpellsOpener .conditional path opener) (hthen : SpellsAll thenBody s)
    (helse : SpellsAll elseBody t) :
    Spells (.conditional path thenBody elseBody)
      (opener ++ s ++ elseTag ++ t ++ BlockKind.conditional.closeTag)
  | conditionalThen {path opener s : Text} {thenBody : List Node}
    (hopener : SpellsOpener .conditional path opener) (hthen : SpellsAll thenBody s) :
    Spells (.conditional path thenBody []) (opener ++ s ++ BlockKind.conditional.closeTag)
  | negated {path opener s : Text} {body : List Node}
    (hopener : SpellsOpener .negated path opener) (hbody : SpellsAll body s) :
    Spells (.negated path body) (opener ++ s ++ BlockKind.negated.closeTag)
  | each {path opener s : Text} {body : List Node}
    (hopener : SpellsOpener .each path opener) (hbody : SpellsAll body s) :
    Spells (.each path body) (opener ++ s ++ BlockKind.each.closeTag)
  | within {path opener s : Text} {body : List Node}
    (hopener : SpellsOpener .within path opener) (hbody : SpellsAll body s) :
    Spells (.within path body) (opener ++ s ++ BlockKind.within.closeTag)

/-- The spellings of nodes, one after the other. -/
inductive SpellsAll : List Node → Text → Prop
  | nil : SpellsAll [] []
  | cons {node : Node} {rest : List Node} {s t : Text} (hnode : Spells node s)
    (hrest : SpellsAll rest t) : SpellsAll (node :: rest) (s ++ t)

end

/-- A spelling of a node is one of the node alone. -/
theorem spellsAll_singleton {node : Node} {s : Text} (h : Spells node s) : SpellsAll [node] s := by
  have hall : SpellsAll [node] (s ++ []) := .cons h .nil
  rwa [List.append_nil] at hall

/-- The plain spelling of an opening tag. -/
def BlockKind.plainOpener (kind : BlockKind) (path : Text) : Text :=
  kind.openMark ++ [' '] ++ path ++ [' '] ++ closeBraces

mutual

/-- The plain spelling of a node. -/
def Node.plain : Node → Text
  | .text s => s
  | .escaped path => openBraces ++ [' '] ++ path ++ [' '] ++ closeBraces
  | .raw path => ('\x7b' :: openBraces) ++ [' '] ++ path ++ [' '] ++ ('\x7d' :: closeBraces)
  | .partialRef name => (openBraces ++ ['>']) ++ [' '] ++ name ++ [' '] ++ closeBraces
  | .conditional path thenBody [] =>
    BlockKind.conditional.plainOpener path ++ plainAll thenBody ++ BlockKind.conditional.closeTag
  | .conditional path thenBody (node :: rest) =>
    BlockKind.conditional.plainOpener path ++ plainAll thenBody ++ elseTag
      ++ (node.plain ++ plainAll rest) ++ BlockKind.conditional.closeTag
  | .negated path body =>
    BlockKind.negated.plainOpener path ++ plainAll body ++ BlockKind.negated.closeTag
  | .each path body =>
    BlockKind.each.plainOpener path ++ plainAll body ++ BlockKind.each.closeTag
  | .within path body =>
    BlockKind.within.plainOpener path ++ plainAll body ++ BlockKind.within.closeTag

/-- The plain spelling of nodes, one after the other. -/
def plainAll : List Node → Text
  | [] => []
  | node :: rest => node.plain ++ plainAll rest

end

/-- No character is a text of blanks. -/
@[simp] theorem blanks_nil : Blanks [] := by simp [Blanks]

/-- A single blank is a text of blanks. -/
@[simp] theorem blanks_space : Blanks [' '] := by
  intro c hc
  rw [List.mem_singleton.mp hc]
  decide

/-- The plain spelling of an opening tag is one of its spellings. -/
theorem spellsOpener_plainOpener (kind : BlockKind) (path : Text) :
    SpellsOpener kind path (kind.plainOpener path) := by
  have htag : SpellsTag [] path closeBraces (path ++ [' '] ++ closeBraces) :=
    .intro blanks_nil blanks_space
  have hblank : Text.isBlank ' ' := by decide
  have h : SpellsOpener kind path _ := .intro hblank htag
  simpa [BlockKind.plainOpener] using h

mutual

/-- The plain spelling of a node is one of its spellings. -/
theorem spells_plain : (node : Node) → Spells node node.plain
  | .text s => .text s
  | .escaped _ => .escaped (.intro blanks_space blanks_space)
  | .raw _ => .raw (.intro blanks_space blanks_space)
  | .partialRef _ => .partialRef (.intro blanks_space blanks_space)
  | .conditional path thenBody [] =>
    .conditionalThen (spellsOpener_plainOpener _ path) (spellsAll_plainAll thenBody)
  | .conditional path thenBody (node :: rest) =>
    .conditional (spellsOpener_plainOpener _ path) (spellsAll_plainAll thenBody)
      (.cons (spells_plain node) (spellsAll_plainAll rest))
  | .negated path body => .negated (spellsOpener_plainOpener _ path) (spellsAll_plainAll body)
  | .each path body => .each (spellsOpener_plainOpener _ path) (spellsAll_plainAll body)
  | .within path body => .within (spellsOpener_plainOpener _ path) (spellsAll_plainAll body)

/-- The plain spelling of nodes is one of their spellings. -/
theorem spellsAll_plainAll : (nodes : List Node) → SpellsAll nodes (plainAll nodes)
  | [] => .nil
  | node :: rest => .cons (spells_plain node) (spellsAll_plainAll rest)

end

end Stencil.Template
