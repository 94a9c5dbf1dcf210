import Stencil.Scaffold.Providers
import Stencil.Template.Render
import Stencil.Proofs.Value.Resolve

/-!
# Providers in templates

The context of feature flags lists the providers that wrap the application, and a template opens a
provider in a block on its flag. The list asks whether a flag is present and the block whether it is
truthy. These differ for what is not a number only, so apart from such flags a provider is listed
exactly if its block is rendered.
-/

namespace Stencil

namespace Value

/-- A number that is none. -/
def IsNotNumber (value : Value) : Prop := ∃ x, value = .float x ∧ x.isNaN

/-- What is not a number is equal to no number. -/
theorem beq_eq_false_of_isNaN {x : Float} (h : x.isNaN) (y : Float) : (x == y) = false := by
  have hunpack : x.toModel.unpack = .notANumber := by
    change x.toModel.unpack.isNaN = true at h
    cases hx : x.toModel.unpack with
    | notANumber => rfl
    | _ => rw [hx] at h; cases h
  change (x.toModel.unpack.compare y.toModel.unpack == some Ordering.eq) = false
  rw [hunpack]
  rfl

/-- What is not a number differs from zero, so it counts as present. -/
theorem IsNotNumber.isPresent {value : Value} (h : value.IsNotNumber) : value.isPresent := by
  obtain ⟨x, rfl, hx⟩ := h
  simp [Value.isPresent, bne, beq_eq_false_of_isNaN hx]

/-- Conditions hold for the values that are present, apart from those that are not a number. -/
theorem isTruthy_iff (value : Value) :
    value.isTruthy ↔ value.isPresent ∧ ¬ value.IsNotNumber := by
  cases value with
  | float x => simp [isTruthy, isPresent, IsNotNumber, and_comm]
  | _ => simp [isTruthy, IsNotNumber]

/-- The values that are present are those for which conditions hold and those that are not a
number. -/
theorem isPresent_iff (value : Value) :
    value.isPresent ↔ value.isTruthy ∨ value.IsNotNumber := by
  rw [isTruthy_iff]
  constructor
  · intro hpresent
    by_cases hnumber : value.IsNotNumber
    · exact .inr hnumber
    · exact .inl ⟨hpresent, hnumber⟩
  · rintro (⟨hpresent, -⟩ | hnumber)
    · exact hpresent
    · exact hnumber.isPresent

end Value

namespace Template

/-- A conditional on a path takes its first body: it renders as this body does, whatever the bodies
are and however partials are rendered. -/
def TakesFirst (ctx : Context) (path : Text) : Prop :=
  ∀ (σ : Type) (embed : Text → Context → Action σ Rendered) (thenBody elseBody : List Node),
    renderNode embed (.conditional path thenBody elseBody) ctx = renderNodes embed thenBody ctx

/-- The first body is taken exactly if the value of the path is truthy. -/
theorem takesFirst_iff (ctx : Context) (path : Text) :
    TakesFirst ctx path ↔ (ctx.resolve path).isTruthy := by
  constructor
  · intro h
    by_contra hfalse
    -- A body with a text and an empty one do not render the same.
    have heq := h Unit (fun _ _ => pure .empty) [.text ['a']] []
    rw [renderNode, if_neg hfalse] at heq
    have htext := congrFun heq ()
    cases htext
  · intro htruthy σ embed thenBody elseBody
    rw [renderNode, if_pos htruthy]

end Template

namespace Providers

open Context (featuresWord)
open Template (TakesFirst)

/-- The path of a flag in templates. -/
def flagPath (flag : Text) : Text := featuresWord ++ '.' :: flag

/-- The word for whether there are providers. -/
def hasProvidersWord : Text := "hasProviders".toList

/-- The value of a flag. -/
def flagValue (features : Context) (flag : Text) : Value := (features.get? flag).getD .null

/-- A context lists the name of a provider. -/
def Lists (ctx : Context) (name : Text) : Prop :=
  ∃ names, ctx.get? "providerOrder".toList = some (.list names) ∧ .text name ∈ names

variable (features : Context)

/-- A mapping gives its entries as flags. -/
theorem flagsOf_mapping : flagsOf (.mapping features) = .ok features := by
  cases features <;> rfl

/-! ### The order of providers -/

/-- The order holds the names of the providers whose flags are present. -/
theorem mem_order_iff {name : Text} :
    name ∈ order features ↔
      ∃ provider ∈ all, (flagValue features provider.1).isPresent ∧ provider.2 = name := by
  have hany (flag : Text) :
      (features.get? flag).any Value.isPresent = (flagValue features flag).isPresent := by
    cases hget : features.get? flag <;> simp [flagValue, hget, Value.isPresent]
  simp only [order, List.mem_filterMap, Option.ite_none_right_eq_some, Option.some.injEq, hany]

/-- A provider is in the order exactly if its flag is present. -/
theorem name_mem_order_iff {provider : Text × Text} (h : provider ∈ all) :
    provider.2 ∈ order features ↔ (flagValue features provider.1).isPresent := by
  -- No name belongs to two providers.
  have hdistinct : ∀ p ∈ all, ∀ p' ∈ all, p.2 = p'.2 → p = p' := by decide
  rw [mem_order_iff]
  constructor
  · rintro ⟨other, hother, hpresent, hname⟩
    rwa [hdistinct other hother provider h hname] at hpresent
  · exact fun hpresent => ⟨provider, h, hpresent, rfl⟩

/-- The order is not empty exactly if some flag is present. -/
theorem order_ne_nil_iff :
    order features ≠ [] ↔ ∃ provider ∈ all, (flagValue features provider.1).isPresent := by
  constructor
  · intro hne
    obtain ⟨name, hname⟩ := List.exists_mem_of_ne_nil _ hne
    obtain ⟨provider, hprovider, hpresent, -⟩ := (mem_order_iff features).mp hname
    exact ⟨provider, hprovider, hpresent⟩
  · rintro ⟨provider, hprovider, hpresent⟩
    exact List.ne_nil_of_mem ((name_mem_order_iff features hprovider).mpr hpresent)

/-! ### The context of features -/

/-- The context lists the names in the order. -/
theorem lists_context (name : Text) : Lists (context features []) name ↔ name ∈ order features := by
  have hget : (context features []).get? "providerOrder".toList =
      some (.list ((order features).map .text)) := rfl
  rw [Lists, hget]
  constructor
  · rintro ⟨names, hnames, hname⟩
    obtain rfl := Value.list.inj (Option.some.inj hnames)
    obtain ⟨other, hother, heq⟩ := List.mem_map.mp hname
    rwa [Value.text.inj heq] at hother
  · exact fun hname => ⟨_, rfl, List.mem_map_of_mem hname⟩

/-- The block on a flag takes its first body exactly if the flag is truthy. -/
theorem takesFirst_flagPath (flag : Text) :
    TakesFirst (context features []) (flagPath flag) ↔ (flagValue features flag).isTruthy := by
  have hget : (context features []).get? featuresWord = some (.mapping features) := rfl
  rw [Template.takesFirst_iff, flagPath, Context.resolve_features, Assignment.inner_of_get? hget,
    flagValue]

/-- The block on whether there are providers takes its first body exactly if the order is not
empty. -/
theorem takesFirst_hasProviders :
    TakesFirst (context features []) hasProvidersWord ↔ order features ≠ [] := by
  have hresolve : (context features []).resolve hasProvidersWord =
      .bool !(order features).isEmpty := rfl
  rw [Template.takesFirst_iff, hresolve]
  simp [Value.isTruthy, Value.isPresent]

/-- **Listed providers and rendered ones.** A provider is listed in the context of features exactly
if the block on its flag takes its first body or the flag is not a number, and not both. The block
on whether there are providers takes its first body exactly if one of these holds for some
provider. -/
theorem lists_iff_takesFirst :
    flagsOf (.mapping features) = .ok features ∧
    (∀ provider ∈ all,
      (Lists (context features []) provider.2 ↔
        TakesFirst (context features []) (flagPath provider.1) ∨
          (flagValue features provider.1).IsNotNumber) ∧
      ((flagValue features provider.1).IsNotNumber →
        ¬ TakesFirst (context features []) (flagPath provider.1))) ∧
    (TakesFirst (context features []) hasProvidersWord ↔
      ∃ provider ∈ all, TakesFirst (context features []) (flagPath provider.1) ∨
        (flagValue features provider.1).IsNotNumber) := by
  refine ⟨flagsOf_mapping features, fun provider hprovider => ⟨?_, ?_⟩, ?_⟩
  · rw [lists_context, name_mem_order_iff features hprovider, takesFirst_flagPath,
      Value.isPresent_iff]
  · rw [takesFirst_flagPath, Value.isTruthy_iff]
    exact fun hnumber htruthy => htruthy.2 hnumber
  · simp only [takesFirst_hasProviders, order_ne_nil_iff, takesFirst_flagPath, Value.isPresent_iff]

/-- A flag that is set: its provider is listed, and its block and the one on whether there are
providers take their first bodies. -/
theorem lists_and_takesFirst_of_set :
    let features : Context := [("i18n".toList, .float (0.0 / 0.0)), ("redux".toList, .text ['x'])]
    Lists (context features []) "redux".toList ∧
      TakesFirst (context features []) (flagPath "redux".toList) ∧
      TakesFirst (context features []) hasProvidersWord := by
  intro features
  obtain ⟨-, hproviders, hhas⟩ := lists_iff_takesFirst features
  have hmem : ("redux".toList, "redux".toList) ∈ all := by decide
  have htakes := (takesFirst_flagPath features "redux".toList).mpr (by decide +kernel)
  exact ⟨(hproviders _ hmem).1.mpr (.inl htakes), htakes, hhas.mpr ⟨_, hmem, .inl htakes⟩⟩

/-- A flag that is not a number: its provider is listed and there are providers, but no block takes
its first body. -/
theorem exists_lists_not_takesFirst :
    let features : Context := [("i18n".toList, .float (0.0 / 0.0))]
    Lists (context features []) "i18n".toList ∧
      ¬ TakesFirst (context features []) (flagPath "i18n".toList) ∧
      TakesFirst (context features []) hasProvidersWord ∧
      ∀ provider ∈ all, ¬ TakesFirst (context features []) (flagPath provider.1) := by
  intro features
  have hblocks : ∀ provider ∈ all, ¬ TakesFirst (context features []) (flagPath provider.1) := by
    intro provider hprovider
    rw [takesFirst_flagPath]
    revert provider
    decide +kernel
  have hmem : ("i18n".toList, "i18n".toList) ∈ all := by decide
  have hlisted := (name_mem_order_iff features hmem).mpr (by decide +kernel)
  refine ⟨(lists_context features _).mpr hlisted, hblocks _ hmem, ?_, hblocks⟩
  exact (takesFirst_hasProviders features).mpr (List.ne_nil_of_mem hlisted)

end Providers

end Stencil
