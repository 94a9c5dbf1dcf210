import Stencil.Proofs.Engine.Sources

/-!
# The limit for partials

The partials of an engine may include each other in any way. A new engine renders every template all
the same: it goes along chains of names no longer than its limit, and reports each chain at which it
stopped. Where it stopped nowhere, a greater limit makes no difference.
-/

namespace Stencil.Engine

open Template (IsIncludeChain parse)

variable {settings : Settings} {base : Context} {tree : FileTree} {store? : Option Partials}
  {engine : Engine}

/-- **The limit for partials.** Let a new engine render a template to some depth. It fails only at
an integer that is too long, or at the source of a partial that cannot be read and ends a chain of
names within the depth. If it gives a text, each report of a partial beyond the limit names a chain
that is one longer than the depth; there is no such report if no chain is as long; and if there is
none, all greater depths give the same text and the same reports. -/
theorem renderNew_partialDepth (hbuild : build settings base tree store? = .ok engine)
    (template : Text) (ctx : Context) (depth : Nat) :
    let sources := engine.partials.source tree
    let nodes := (parse template).nodes
    let outcome (depth : Nat) :=
      renderNew { settings with maxPartialDepth := depth } base tree store? template ctx
    (∀ fault, outcome depth = .error fault → fault = .integerTooLong ∨
      ∃ names name, names.length < depth ∧ IsIncludeChain sources nodes (names ++ [name]) ∧
        sources name = .error fault) ∧
    ∀ rendered, outcome depth = .ok rendered →
      (∀ d ∈ rendered.diagnostics, d.IsDepth → ∃ names, names.length = depth + 1 ∧
        d.detail = List.intercalate " > ".toList names ∧ IsIncludeChain sources nodes names) ∧
      ((∀ names, IsIncludeChain sources nodes names → names.length ≤ depth) →
        rendered.WithinDepth) ∧
      (rendered.WithinDepth → ∀ deeper, depth ≤ deeper → outcome deeper = .ok rendered) := by
  intro sources nodes outcome
  obtain ⟨-, -, hsize, -⟩ := build_eq_ok.mp hbuild
  have houtcome (depth : Nat) : outcome depth =
      Template.outcome sources depth template (Mapping.merge base ctx) :=
    renderNew_eq hbuild { settings with maxPartialDepth := depth } rfl rfl hsize base template ctx
  rw [houtcome depth]
  refine ⟨Template.failsBySources_outcome depth template _, fun rendered hrendered => ?_⟩
  have hchains (d : Template.Diagnostic) (hd : d ∈ rendered.diagnostics) (hdepth : d.IsDepth) :
      ∃ names, names.length = depth + 1 ∧
        d.detail = List.intercalate " > ".toList names ∧ IsIncludeChain sources nodes names :=
    Template.reportsChains_outcome depth template _ rendered hrendered d hd hdepth
  refine ⟨hchains, ?_, ?_⟩
  · intro hshort d hd hdepth
    obtain ⟨names, hlength, -, hnames⟩ := hchains d hd hdepth
    have hbound := hshort names hnames
    omega
  · intro hwithin deeper hdeeper
    rw [houtcome deeper]
    exact Template.agreesWithinDepth_outcome hdeeper template _ rendered hrendered hwithin

/-- A partial that includes itself is written as often as the depth says, and then reported with one
name more. Another one is written the same to every depth. -/
theorem renderNew_partialDepth_of_loop :
    let settings : Settings := {}
    let loop : Text := "\x7b\x7b> p\x7d\x7d".toList
    let other : Text := "\x7b\x7b> q\x7d\x7d".toList
    let looping := (Partials.inMemory.register ['p'] ('x' :: loop)).2
    let store := (looping.register ['q'] ['y']).2
    let tree : FileTree := ⟨[], []⟩
    let outcome (depth : Nat) (template : Text) :=
      renderNew { settings with maxPartialDepth := depth } [] tree (some store) template []
    let report := Template.Diagnostic.partialDepth [['p'], ['p']] ['p']
    ∃ engine, build settings [] tree (some store) = .ok engine ∧
      outcome 2 loop =
        .ok ⟨"xx<!-- Partial \"p\" exceeds nesting limit -->".toList, [report]⟩ ∧
      report.IsDepth ∧ (∃ names, names.length = 3 ∧
        report.detail = List.intercalate " > ".toList names ∧
        IsIncludeChain (engine.partials.source tree) (parse loop).nodes names) ∧
      ∀ depth, 1 ≤ depth → outcome depth other = .ok ⟨['y'], []⟩ := by
  intro settings loop other looping store tree outcome report
  have hbuild : build settings [] tree (some store) = .ok ⟨settings, [], store, .empty 256⟩ := rfl
  have hloop : outcome 2 loop =
      .ok ⟨"xx<!-- Partial \"p\" exceeds nesting limit -->".toList, [report]⟩ :=
    Action.eq_ok_of_toOption (by decide +kernel)
  have hother : outcome 1 other = .ok ⟨['y'], []⟩ := Action.eq_ok_of_toOption (by decide +kernel)
  have hdepth : report.IsDepth := rfl
  obtain ⟨-, hlimit⟩ := renderNew_partialDepth hbuild loop [] 2
  obtain ⟨-, hwithin⟩ := renderNew_partialDepth hbuild other [] 1
  refine ⟨_, hbuild, hloop, hdepth, ?_, ?_⟩
  · exact (hlimit _ hloop).1 report (List.mem_singleton_self report) hdepth
  · exact (hwithin _ hother).2.2 (List.forall_mem_nil _)

end Stencil.Engine
