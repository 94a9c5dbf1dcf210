import Stencil.Value.Assignment
import Stencil.Proofs.Json.Integers
import Stencil.Proofs.Mapping
import Stencil.Proofs.Simulation

/-!
# Assignments

An assignment that is carried out writes a value at the end of its keys. An assignment without an
equals sign or without a key fails before anything is done. One whose value cannot be read fails
when the way to its place is made already, and what was made on the way stays. So a failure leaves
the context as it was exactly if mappings stand on the whole way before.
-/

namespace Stencil.Assignment

/-- Mappings stand at all keys on the way to the last one. -/
def HasWay (ctx : Mapping Value) : List Text → Prop
  | [] => True
  | [_] => True
  | key :: next :: rest =>
    ∃ entries, ctx.get? key = some (.mapping entries) ∧ HasWay entries (next :: rest)

/-- The mapping at a key is the one that the key holds. -/
theorem inner_of_get? {ctx : Mapping Value} {key : Text} {entries : Mapping Value}
    (h : ctx.get? key = some (.mapping entries)) : inner ctx key = entries := by
  rw [inner, h]

/-- Making the way changes nothing exactly if it is there. -/
theorem makeWay_eq_self_iff (ctx : Mapping Value) (keys : List Text) :
    makeWay ctx keys = ctx ↔ HasWay ctx keys := by
  fun_induction makeWay ctx keys with
  | case1 => simp [HasWay]
  | case2 => simp [HasWay]
  | case3 ctx key next rest ih =>
    rw [Mapping.set_eq_self_iff, HasWay]
    constructor
    · intro hget
      have hway := ih.mp (inner_of_get? hget).symm
      rw [inner_of_get? hget] at hway
      exact ⟨_, hget, hway⟩
    · rintro ⟨entries, hget, hway⟩
      rw [inner_of_get? hget] at ih ⊢
      rw [ih.mpr hway, hget]

/-! ### Carrying out an assignment -/

/-- Without an equals sign nothing is done. -/
theorem apply_of_sides?_eq_none {assignment : Text} (h : sides? assignment = none)
    (ctx : Context) : apply assignment ctx = (.error (.missingEquals assignment), ctx) := by
  rw [apply, h]
  rfl

/-- Without a key nothing is done. -/
theorem apply_of_keysOf_eq_nil {assignment left right : Text}
    (hsides : sides? assignment = some (left, right)) (hkeys : keysOf left = []) (ctx : Context) :
    apply assignment ctx = (.error (.emptyKey assignment), ctx) := by
  rw [apply, hsides]
  simp only [hkeys]
  rfl

/-- The way is made first; then the value is written, unless it cannot be read. -/
theorem apply_of_keysOf_ne_nil {assignment left right : Text}
    (hsides : sides? assignment = some (left, right)) (hkeys : keysOf left ≠ []) (ctx : Context) :
    apply assignment ctx =
      match readValue right with
      | .ok value => (.ok (), write (makeWay ctx (keysOf left)) value (keysOf left))
      | .error fault => (.error fault, makeWay ctx (keysOf left)) := by
  obtain ⟨key, rest, hcons⟩ := List.exists_cons_of_ne_nil hkeys
  rw [apply, hsides]
  simp only [hcons]
  cases readValue right <;> rfl

/-- Writing makes the way that is not there. -/
@[simp] theorem write_makeWay (ctx : Mapping Value) (value : Value) (keys : List Text) :
    write (makeWay ctx keys) value keys = write ctx value keys := by
  fun_induction makeWay ctx keys with
  | case1 => rfl
  | case2 => rfl
  | case3 ctx key next rest ih =>
    simp [write, inner_of_get? (Mapping.get?_set_self ..), ih]

/-- An assignment that is carried out writes the value of its right side at the keys of its left
side, and nothing else. -/
theorem exists_write_of_apply {assignment : Text} {ctx after : Context}
    (h : apply assignment ctx = (.ok (), after)) :
    ∃ left right value, sides? assignment = some (left, right) ∧ keysOf left ≠ [] ∧
      readValue right = .ok value ∧ after = write ctx value (keysOf left) := by
  cases hsides : sides? assignment with
  | none =>
    rw [apply_of_sides?_eq_none hsides] at h
    cases h
  | some sides =>
    obtain ⟨left, right⟩ := sides
    by_cases hkeys : keysOf left = []
    · rw [apply_of_keysOf_eq_nil hsides hkeys] at h
      cases h
    · rw [apply_of_keysOf_ne_nil hsides hkeys] at h
      split at h
      · next value hread =>
        rw [write_makeWay] at h
        exact ⟨left, right, value, rfl, hkeys, hread, (Prod.mk.inj h).2.symm⟩
      · cases h

/-! ### Failures -/

/-- What a failed assignment leaves: the context as it was, or the context with the way made. -/
theorem snd_of_apply_error {assignment : Text} {ctx after : Context} {fault : Fault}
    (h : apply assignment ctx = (.error fault, after)) :
    after = match sides? assignment with
      | none => ctx
      | some (left, _) => makeWay ctx (keysOf left) := by
  cases hsides : sides? assignment with
  | none =>
    rw [apply_of_sides?_eq_none hsides] at h
    exact (Prod.mk.inj h).2.symm
  | some sides =>
    obtain ⟨left, right⟩ := sides
    by_cases hkeys : keysOf left = []
    · rw [apply_of_keysOf_eq_nil hsides hkeys] at h
      simp only [hkeys]
      exact (Prod.mk.inj h).2.symm
    · rw [apply_of_keysOf_ne_nil hsides hkeys] at h
      split at h
      · cases h
      · exact (Prod.mk.inj h).2.symm

/-- **When a failed assignment changes nothing.** The context is as it was exactly if there was no
equals sign, or mappings stood at all keys on the way to the last one before. -/
theorem eq_of_apply_error_iff {assignment : Text} {ctx after : Context} {fault : Fault}
    (h : apply assignment ctx = (.error fault, after)) :
    after = ctx ↔
      ∀ left right, sides? assignment = some (left, right) → HasWay ctx (keysOf left) := by
  rw [snd_of_apply_error h]
  cases hsides : sides? assignment with
  | none => simp
  | some sides =>
    obtain ⟨left, right⟩ := sides
    rw [makeWay_eq_self_iff]
    constructor
    · intro hway left' right' heq
      obtain ⟨rfl, -⟩ := Prod.mk.inj (Option.some.inj heq)
      exact hway
    · exact fun hway => hway left right rfl

/-- An assignment of an integer with too many digits to a key in a mapping. -/
def tooLong : Text := "a.b=9".toList ++ List.replicate digitLimit '9'

/-- The two sides of this assignment. -/
theorem sides?_tooLong :
    sides? tooLong = some (['a', '.', 'b'], '9' :: List.replicate digitLimit '9') := rfl

/-- Its keys. -/
theorem keysOf_tooLong : keysOf ['a', '.', 'b'] = [['a'], ['b']] := by decide +kernel

/-- The integer is refused when the way was made. -/
theorem apply_tooLong (ctx : Context) :
    ∃ fault, apply tooLong ctx = (.error fault, makeWay ctx [['a'], ['b']]) := by
  have hdigits : ∀ d ∈ '9' :: List.replicate digitLimit '9', d.isDigit := by
    intro d hd
    rw [← List.replicate_succ] at hd
    rw [List.eq_of_mem_replicate hd]
    decide
  have hread := Json.read_of_digits hdigits (by decide)
  rw [if_pos (by simp)] at hread
  have hkeys : keysOf ['a', '.', 'b'] ≠ [] := by simp [keysOf_tooLong]
  rw [apply_of_keysOf_ne_nil sides?_tooLong hkeys, readValue, hread, keysOf_tooLong]
  exact ⟨_, rfl⟩

/-- Where the way is there, the refused integer changes nothing. -/
theorem eq_of_apply_error_of_way :
    let ctx : Context := [(['a'], .mapping [(['b'], .null)])]
    ∃ fault after, apply tooLong ctx = (.error fault, after) ∧ after = ctx := by
  intro ctx
  obtain ⟨fault, happly⟩ := apply_tooLong ctx
  refine ⟨fault, _, happly, (eq_of_apply_error_iff happly).mpr fun left right hsides => ?_⟩
  rw [sides?_tooLong] at hsides
  obtain ⟨rfl, -⟩ := Prod.mk.inj (Option.some.inj hsides)
  rw [keysOf_tooLong]
  exact ⟨[(['b'], .null)], rfl, trivial⟩

/-- In a context without the way the refused integer leaves a mapping. -/
theorem apply_error_leaves_mapping :
    ∃ fault after, apply tooLong [] = (.error fault, after) ∧
      after = [(['a'], .mapping [])] ∧ after ≠ [] := by
  obtain ⟨fault, happly⟩ := apply_tooLong []
  exact ⟨fault, _, happly, rfl, List.cons_ne_nil _ _⟩

end Stencil.Assignment
