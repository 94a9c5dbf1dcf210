import Stencil.Proofs.Value.Resolve

/-!
# Assignments as writes to a tree

A context is a tree whose branches have keys. An assignment writes a value at the end of its keys
and leaves every other branch alone, whatever stood on the way before. So it is found there, a
second time it changes nothing, and assignments to different branches can change places, but for the
order in which new keys come.
-/

namespace Stencil

/-- The value to which keys lead through nested mappings. There is none if a key is missing, or if
something else than a mapping stands on the way. -/
def Value.at? : Value → List Text → Option Value
  | value, [] => some value
  | .mapping entries, key :: rest => (Mapping.get? entries key).bind fun value => value.at? rest
  | _, _ :: _ => none

/-- Two values that are the same but for the order of keys in mappings. -/
inductive Value.SameButOrder : Value → Value → Prop
  | refl (value : Value) : SameButOrder value value
  | mapping {m other : Mapping Value} (hkeys : m.keys.Perm other.keys)
      (hvalues : ∀ key v w, m.get? key = some v → other.get? key = some w → SameButOrder v w) :
      SameButOrder (.mapping m) (.mapping other)

namespace Assignment

open Value (SameButOrder)

variable {ctx : Mapping Value} {value : Value} {key : Text} {keys others : List Text}

/-! ### Writing below a key -/

/-- What comes to a key when a value is written at further keys behind it. -/
def placed (entries : Mapping Value) (value : Value) : List Text → Value
  | [] => value
  | next :: rest => .mapping (write entries value (next :: rest))

/-- Writing at keys writes the first one. -/
theorem write_cons (ctx : Mapping Value) (value : Value) (key : Text) (rest : List Text) :
    write ctx value (key :: rest) = ctx.set key (placed (inner ctx key) value rest) := by
  cases rest <;> rfl

/-- Writing another key leaves the mapping at a key. -/
@[simp] theorem inner_set_of_ne {other : Text} (h : key ≠ other) (ctx : Mapping Value)
    (value : Value) :
    inner (ctx.set other value) key = inner ctx key := by
  simp [inner, h]

/-- Keys lead to the same value from a mapping and from what stands in its place for writing. -/
theorem at?_inner (ctx : Mapping Value) (key next : Text) (rest : List Text) :
    (Value.mapping (inner ctx key)).at? (next :: rest) =
      (Value.mapping ctx).at? (key :: next :: rest) := by
  rw [inner, Value.at?, Value.at?]
  cases hget : ctx.get? key with
  | none => rfl
  | some value => cases value <;> rfl

/-- Keys that part somewhere on their ways: neither of them goes on from the end of the other. -/
inductive Apart : List Text → List Text → Prop
  | here {key other : Text} (h : key ≠ other) (rest more : List Text) :
      Apart (key :: rest) (other :: more)
  | later {key next name : Text} {rest more : List Text} (h : Apart (next :: rest) (name :: more)) :
      Apart (key :: next :: rest) (key :: name :: more)

/-- Keys of which none goes on from the other part somewhere. -/
theorem apart_of_incomparable (h : ¬ keys <+: others) (hback : ¬ others <+: keys) :
    Apart keys others := by
  induction keys generalizing others with
  | nil => exact absurd List.nil_prefix h
  | cons key rest ih =>
    cases others with
    | nil => exact absurd List.nil_prefix hback
    | cons other more =>
      by_cases hsame : key = other
      · subst hsame
        have hrest : Apart rest more :=
          ih (fun hprefix => h (List.cons_prefix_cons.mpr ⟨rfl, hprefix⟩))
            fun hprefix => hback (List.cons_prefix_cons.mpr ⟨rfl, hprefix⟩)
        cases hrest with
        | here hne => exact .later (.here hne _ _)
        | later hlater => exact .later (.later hlater)
      · exact .here hsame rest more

/-! ### The laws of writing -/

/-- What is written is found. -/
theorem at?_write (ctx : Mapping Value) (value : Value) (h : keys ≠ []) :
    (Value.mapping (write ctx value keys)).at? keys = some value := by
  induction keys generalizing ctx with
  | nil => contradiction
  | cons key rest ih =>
    rw [write_cons, Value.at?, Mapping.get?_set_self, Option.bind_some]
    cases rest with
    | nil => rfl
    | cons next rest => exact ih (inner ctx key) (List.cons_ne_nil _ _)

/-- Other branches are left alone. -/
theorem at?_write_of_apart (ctx : Mapping Value) (value : Value) (h : Apart keys others) :
    (Value.mapping (write ctx value keys)).at? others = (Value.mapping ctx).at? others := by
  induction h generalizing ctx with
  | here hne rest more =>
    rw [write_cons, Value.at?, Value.at?, Mapping.get?_set_of_ne ctx _ (Ne.symm hne)]
  | @later key next name rest more _ ih =>
    rw [write, Value.at?, Mapping.get?_set_self, Option.bind_some, ih (inner ctx key), at?_inner]

/-- What is there already is written without a change. -/
@[simp] theorem write_write (ctx : Mapping Value) (value : Value) (keys : List Text) :
    write (write ctx value keys) value keys = write ctx value keys := by
  induction keys generalizing ctx with
  | nil => rfl
  | cons key rest ih =>
    rw [write_cons ctx, write_cons, Mapping.set_set]
    cases rest with
    | nil => rfl
    | cons next rest =>
      have hinner : inner (ctx.set key (placed (inner ctx key) value (next :: rest))) key =
          write (inner ctx key) value (next :: rest) := inner_of_get? (Mapping.get?_set_self ..)
      rw [hinner, placed, placed, ih]

/-! ### Two places -/

/-- Two keys are written in either order, but for the order of the keys. -/
theorem sameButOrder_set_set (ctx : Mapping Value) {other : Text} (hne : key ≠ other)
    (first second : Value) :
    SameButOrder (.mapping ((ctx.set key first).set other second))
      (.mapping ((ctx.set other second).set key first)) := by
  refine .mapping ?_ fun name v w hv hw => ?_
  · have hne' : other ≠ key := Ne.symm hne
    by_cases hkey : key ∈ ctx.keys
    · by_cases hother : other ∈ ctx.keys <;>
        simp [Mapping.keys_set, hkey, hother]
    · by_cases hother : other ∈ ctx.keys
      · simp [Mapping.keys_set, hkey, hother]
      · simpa [Mapping.keys_set, hkey, hother, hne, hne'] using
          (List.Perm.swap other key []).append_left ctx.keys
  · have hsame : ((ctx.set key first).set other second).get? name =
        ((ctx.set other second).set key first).get? name := by
      by_cases hkey : name = key
      · simp [hkey, hne]
      · by_cases hother : name = other <;> simp [hkey, hother, Ne.symm hne]
    rw [hsame, hw] at hv
    obtain rfl := Option.some.inj hv
    exact .refl _

/-- Values that are the same but for the order of keys stay so at a key. -/
theorem sameButOrder_set {first second : Value} (h : SameButOrder first second)
    (ctx : Mapping Value) (key : Text) :
    SameButOrder (.mapping (ctx.set key first)) (.mapping (ctx.set key second)) := by
  refine .mapping ?_ fun name v w hv hw => ?_
  · rw [Mapping.keys_set, Mapping.keys_set]
  · by_cases hname : name = key
    · subst hname
      rw [Mapping.get?_set_self] at hv hw
      obtain rfl := Option.some.inj hv
      obtain rfl := Option.some.inj hw
      exact h
    · rw [Mapping.get?_set_of_ne _ _ hname] at hv hw
      rw [hv] at hw
      obtain rfl := Option.some.inj hw
      exact .refl _

/-- Values are written in two branches in either order, but for the order of keys. -/
theorem sameButOrder_write_write (ctx : Mapping Value) (value second : Value)
    (h : Apart keys others) :
    SameButOrder (.mapping (write (write ctx value keys) second others))
      (.mapping (write (write ctx second others) value keys)) := by
  induction h generalizing ctx with
  | here hne rest more =>
    rw [write_cons ctx, write_cons, inner_set_of_ne (Ne.symm hne), write_cons ctx, write_cons,
      inner_set_of_ne hne]
    exact sameButOrder_set_set ctx hne _ _
  | @later key next name rest more _ ih =>
    rw [write, write, inner_of_get? (Mapping.get?_set_self ..), Mapping.set_set, write, write,
      inner_of_get? (Mapping.get?_set_self ..), Mapping.set_set]
    exact sameButOrder_set (ih (inner ctx key)) ctx key

/-! ### Assignments -/

/-- What stands before the first equals sign has none. -/
theorem exists_of_sides? {assignment left right : Text}
    (h : sides? assignment = some (left, right)) :
    assignment = left ++ '=' :: right ∧ '=' ∉ left := by
  have hwhole : assignment = left ++ ['='] ++ right := Text.eq_of_cut? h
  have hmem : '=' ∈ assignment := by simp [hwhole]
  obtain ⟨before, after, rfl, hbefore⟩ := List.eq_append_cons_of_mem hmem
  rw [sides?, Text.cut?_append hbefore] at h
  obtain ⟨rfl, rfl⟩ := Prod.mk.inj (Option.some.inj h)
  exact ⟨rfl, hbefore⟩

/-- **An assignment is a write to a tree.** Let an assignment be carried out. Its keys come from
what stands before its first equals sign, and its value from what stands behind. Afterwards the keys
lead to the value, and keys that go another way lead where they led before. A second time the
assignment changes nothing. Together with an assignment whose keys go another way it leaves the same
context in either order, but for the order of keys. -/
theorem apply_writes_tree {assignment : Text} {ctx after : Context}
    (h : apply assignment ctx = (.ok (), after)) :
    ∃ left right value, assignment = left ++ '=' :: right ∧ '=' ∉ left ∧ keysOf left ≠ [] ∧
      readValue right = .ok value ∧
      (Value.mapping after).at? (keysOf left) = some value ∧
      (∀ keys, ¬ keysOf left <+: keys → ¬ keys <+: keysOf left →
        (Value.mapping after).at? keys = (Value.mapping ctx).at? keys) ∧
      apply assignment after = (.ok (), after) ∧
      ∀ left' right' between, '=' ∉ left' → ¬ keysOf left <+: keysOf left' →
        ¬ keysOf left' <+: keysOf left →
        apply (left' ++ '=' :: right') ctx = (.ok (), between) →
        ∃ first second, apply (left' ++ '=' :: right') after = (.ok (), first) ∧
          apply assignment between = (.ok (), second) ∧
          SameButOrder (.mapping first) (.mapping second) := by
  obtain ⟨left, right, value, hsides, hkeys, hread, rfl⟩ := exists_write_of_apply h
  obtain ⟨rfl, hleft⟩ := exists_of_sides? hsides
  have happly (ctx : Context) : apply (left ++ '=' :: right) ctx =
      (.ok (), write ctx value (keysOf left)) := apply_append hleft hkeys hread ctx
  refine ⟨left, right, value, rfl, hleft, hkeys, hread, at?_write ctx value hkeys,
    fun keys hthere hback => at?_write_of_apart ctx value (apart_of_incomparable hthere hback),
    ?_, ?_⟩
  · simp [happly]
  · intro left' right' between hleft' hthere hback hother
    obtain ⟨left'', right'', value', hsides', hkeys', hread', rfl⟩ := exists_write_of_apply hother
    rw [sides?, Text.cut?_append hleft'] at hsides'
    obtain ⟨rfl, rfl⟩ := Prod.mk.inj (Option.some.inj hsides')
    exact ⟨_, _, apply_append hleft' hkeys' hread' _, happly _,
      sameButOrder_write_write ctx value value' (apart_of_incomparable hthere hback)⟩

/-- A number is assigned behind a text and with points to spare. A second number goes beside it;
which key comes first depends on the order. -/
theorem apply_writes_tree_through_text :
    let ctx : Context := [(['a'], .text ['x'])]
    let assignment : Text := " a..b.=1".toList
    ∃ after between first second, apply assignment ctx = (.ok (), after) ∧
      apply "a.c=1".toList ctx = (.ok (), between) ∧
      (Value.mapping after).at? [['a'], ['b']] = some (.int 1) ∧
      apply assignment after = (.ok (), after) ∧
      apply "a.c=1".toList after = (.ok (), first) ∧ apply assignment between = (.ok (), second) ∧
      first = [(['a'], .mapping [(['b'], .int 1), (['c'], .int 1)])] ∧
      second = [(['a'], .mapping [(['c'], .int 1), (['b'], .int 1)])] ∧
      SameButOrder (.mapping first) (.mapping second) := by
  intro ctx assignment
  have hkeys : keysOf " a..b.".toList = [['a'], ['b']] := by decide +kernel
  have hkeys' : keysOf "a.c".toList = [['a'], ['c']] := by decide +kernel
  have hsome : keysOf " a..b.".toList ≠ [] := hkeys ▸ List.cons_ne_nil _ _
  have hsome' : keysOf "a.c".toList ≠ [] := hkeys' ▸ List.cons_ne_nil _ _
  have hfree : '=' ∉ " a..b.".toList := by decide
  have hfree' : '=' ∉ "a.c".toList := by decide
  have happly := apply_append hfree hsome Context.readValue_one
  have happly' := apply_append hfree' hsome' Context.readValue_one
  obtain ⟨left, right, value, hwhole, hleft, -, hread, hfound, -, hagain, hcomm⟩ :=
    apply_writes_tree (happly ctx)
  have hsides : (left, right) = (" a..b.".toList, ['1']) := by
    have hcut := Text.cut?_append hleft right
    rw [← hwhole, Text.cut?_append hfree] at hcut
    exact (Option.some.inj hcut).symm
  obtain ⟨rfl, rfl⟩ := Prod.mk.inj hsides
  obtain rfl := Except.ok.inj (hread.symm.trans Context.readValue_one)
  obtain ⟨first, second, hfirst, hsecond, hsame⟩ := hcomm "a.c".toList ['1'] _ hfree'
    (by rw [hkeys, hkeys']; decide) (by rw [hkeys, hkeys']; decide) (happly' ctx)
  rw [hkeys] at hfound
  have hfirst' := (Prod.mk.inj (hfirst.symm.trans (happly' _))).2
  have hsecond' := (Prod.mk.inj (hsecond.symm.trans (happly _))).2
  rw [hkeys, hkeys'] at hfirst' hsecond'
  exact ⟨_, _, first, second, happly ctx, happly' ctx, hfound, hagain, hfirst, hsecond, hfirst',
    hsecond', hsame⟩

end Assignment

end Stencil
