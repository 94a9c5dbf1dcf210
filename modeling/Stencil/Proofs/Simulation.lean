import Stencil.Fault

/-!
# Operations that agree

Two operations on different states agree under a relation between the states if they have the same
result, be it a value or a fault, from related states, and lead to related states again. What is
built from agreeing operations agrees, so a large operation is compared piece by piece. An operation
made of others succeeds only if all of them do.
-/

namespace Stencil.Action

variable {σ τ α β : Type}

/-- An operation with a second one behind it, which sees the value and the state of the first. -/
theorem bind_run (a : Action σ α) (f : α → Action σ β) (s : σ) :
    (a >>= f) s =
      match a s with
      | (.ok x, after) => f x after
      | (.error fault, after) => (.error fault, after) := by
  change ExceptT.bindCont f (a s).1 (a s).2 = _
  rcases a s with ⟨_ | _, _⟩ <;> rfl

/-- A result that may be a fault comes with the state as it was. -/
@[simp] theorem lift_run (result : Except Fault α) (s : σ) :
    (liftM result : Action σ α) s = (result, s) := by
  cases result <;> rfl

/-- A result that may be a fault, with an operation behind it. -/
theorem lift_bind_run (result : Except Fault α) (f : α → Action σ β) (s : σ) :
    (liftM result >>= f) s =
      match result with
      | .ok x => f x s
      | .error fault => (.error fault, s) := by
  cases result <;> rfl

/-! ### Operations that succeed -/

/-- An operation with a second one behind it succeeds only if both do. -/
theorem bind_eq_ok {a : Action σ α} {f : α → Action σ β} {s after : σ} {y : β}
    (h : (a >>= f) s = (.ok y, after)) :
    ∃ x between, a s = (.ok x, between) ∧ f x between = (.ok y, after) := by
  rw [bind_run] at h
  split at h
  · next x between ha => exact ⟨x, between, ha, h⟩
  · exact absurd (congrArg Prod.fst h) nofun

/-- An operation that succeeds has a value and a state behind it. -/
theorem exists_of_isOk {a : Action σ α} {s : σ} (h : (a s).1.isOk) :
    ∃ x after, a s = (.ok x, after) := by
  cases hrun : a s with
  | mk result after =>
    rw [hrun] at h
    cases result with
    | error fault => exact nomatch h
    | ok x => exact ⟨x, after, rfl⟩

/-- A result that gives a value is this value. -/
theorem eq_ok_of_toOption {result : Except Fault α} {x : α} (h : result.toOption = some x) :
    result = .ok x := by
  cases result with
  | error fault => exact nomatch h
  | ok y => exact congrArg Except.ok (Option.some.inj h)

/-- Operations one after the other, each of which gives back a known value if it succeeds. -/
theorem eq_map_of_mapM {f : α → Action σ β} {g : α → β}
    (hf : ∀ a s y after, f a s = (.ok y, after) → y = g a) {l : List α} {s after : σ} {ys : List β}
    (h : l.mapM f s = (.ok ys, after)) : ys = l.map g := by
  induction l generalizing s after ys with
  | nil =>
    rw [List.mapM_nil] at h
    exact (Except.ok.inj (Prod.mk.inj h).1).symm
  | cons a l ih =>
    rw [List.mapM_cons] at h
    obtain ⟨y, between, hfirst, h⟩ := bind_eq_ok h
    obtain ⟨more, last, hmore, h⟩ := bind_eq_ok h
    obtain rfl := Except.ok.inj (Prod.mk.inj h).1
    rw [hf a s y between hfirst, ih hmore, List.map_cons]

/-- Operations one after the other, each of which gives back a known value and changes nothing. -/
theorem mapM_run {f : α → Action σ β} {g : α → β} {l : List α} {s : σ}
    (hf : ∀ a ∈ l, f a s = (.ok (g a), s)) : l.mapM f s = (.ok (l.map g), s) := by
  induction l with
  | nil => rw [List.mapM_nil]; rfl
  | cons a l ih =>
    rw [List.mapM_cons, bind_run, hf a List.mem_cons_self]
    dsimp only
    rw [bind_run, ih fun b hb => hf b (List.mem_cons_of_mem _ hb)]
    rfl

/-- What holds at first, and for one item more after each operation, holds for all of them. -/
theorem of_mapM {f : α → Action σ β} {inv : List α → σ → Prop} {l : List α}
    (hstep : ∀ done a rest s y after, l = done ++ a :: rest → inv done s →
      f a s = (.ok y, after) → inv (done ++ [a]) after)
    {s after : σ} {ys : List β} (hfirst : inv [] s) (h : l.mapM f s = (.ok ys, after)) :
    inv l after := by
  have hall (done rest : List α) (hl : l = done ++ rest) (s : σ) (ys : List β) (hdone : inv done s)
      (hrest : rest.mapM f s = (.ok ys, after)) : inv l after := by
    induction rest generalizing done s ys with
    | nil =>
      obtain rfl := (Prod.mk.inj hrest).2
      rwa [hl, List.append_nil]
    | cons a rest ih =>
      rw [List.mapM_cons] at hrest
      obtain ⟨y, between, hone, hrest⟩ := bind_eq_ok hrest
      obtain ⟨more, last, hmore, hrest⟩ := bind_eq_ok hrest
      obtain rfl := (Prod.mk.inj hrest).2
      exact ih (done ++ [a]) (by rw [hl, List.append_cons]) between more
        (hstep done a rest s y between hl hdone hone) hmore
  exact hall [] l rfl s ys hfirst h

/-- An operation on a part of the state succeeds only on that part. -/
theorem zoom_eq_ok {get : σ → τ} {set : τ → σ → σ} {a : Action τ α} {s after : σ} {x : α}
    (h : zoom get set a s = (.ok x, after)) :
    ∃ part, a (get s) = (.ok x, part) ∧ after = set part s := by
  obtain ⟨hresult, hafter⟩ := Prod.mk.inj h
  exact ⟨(a (get s)).2, Prod.ext hresult rfl, hafter.symm⟩

/-- A change of the state succeeds only with the changed state behind it. -/
theorem changing_eq_ok {f : σ → Except Fault σ} {s after : σ}
    (h : changing f s = (.ok (), after)) : f s = .ok after := by
  unfold changing at h
  split at h
  · next changed hchanged => rw [hchanged, (Prod.mk.inj h).2]
  · exact nomatch (Prod.mk.inj h).1

/-! ### Operations that agree -/

/-- Operations that have the same result from related states and keep the states related. -/
def Agrees (rel : σ → τ → Prop) (a : Action σ α) (b : Action τ α) : Prop :=
  ∀ s t, rel s t → (a s).1 = (b t).1 ∧ rel (a s).2 (b t).2

variable {rel : σ → τ → Prop}

/-- Giving back a value agrees with giving back the same value. -/
theorem agrees_pure (x : α) : Agrees rel (pure x) (pure x) := fun _ _ h => ⟨rfl, h⟩

/-- Failing agrees with failing for the same reason. -/
theorem agrees_throw (fault : Fault) :
    Agrees rel (throw fault : Action σ α) (throw fault) := fun _ _ h => ⟨rfl, h⟩

/-- Agreeing operations one after the other agree. -/
theorem Agrees.bind {a : Action σ α} {b : Action τ α} {f : α → Action σ β} {g : α → Action τ β}
    (hfirst : Agrees rel a b) (hnext : ∀ x, Agrees rel (f x) (g x)) :
    Agrees rel (a >>= f) (b >>= g) := by
  intro s t h
  obtain ⟨hresult, hafter⟩ := hfirst s t h
  rw [bind_run, bind_run]
  cases ha : a s with
  | mk result after =>
    cases hb : b t with
    | mk result' after' =>
      rw [ha, hb] at hresult hafter
      simp only at hresult hafter
      subst hresult
      cases result with
      | ok x => exact hnext x after after' hafter
      | error fault => exact ⟨rfl, hafter⟩

/-! ### Operations that leave something alone -/

variable {view : σ → τ}

/-- An operation that leaves what is seen of the state as it is, also if it fails. -/
def Keeps (view : σ → τ) (a : Action σ α) : Prop := ∀ s, view (a s).2 = view s

/-- An operation that leaves what is seen of the state agrees with itself as long as that is seen. -/
theorem keeps_iff_agrees {a : Action σ α} :
    Keeps view a ↔ ∀ seen, Agrees (fun s t => s = t ∧ view s = seen) a a := by
  constructor
  · rintro h _ s _ ⟨rfl, rfl⟩
    exact ⟨rfl, rfl, h s⟩
  · exact fun h s => (h (view s) s s ⟨rfl, rfl⟩).2.2

/-- Giving back a value changes nothing. -/
theorem keeps_pure (x : α) : Keeps view (pure x) := fun _ => rfl

/-- Failing changes nothing. -/
theorem keeps_throw (fault : Fault) : Keeps view (throw fault : Action σ α) := fun _ => rfl

/-- A result that may be a fault changes nothing. -/
theorem keeps_lift (result : Except Fault α) : Keeps view (liftM result : Action σ α) := by
  intro s
  cases result <;> rfl

/-- Operations one after the other leave what both of them leave. -/
theorem Keeps.bind {a : Action σ α} {f : α → Action σ β} (ha : Keeps view a)
    (hf : ∀ x, Keeps view (f x)) : Keeps view (a >>= f) := by
  intro s
  have hfirst := ha s
  rw [bind_run]
  split
  · next x between hrun =>
    rw [hrun] at hfirst
    exact (hf x between).trans hfirst
  · next hrun =>
    rw [hrun] at hfirst
    exact hfirst

/-- An operation that looks at the state first leaves what it leaves for that state. -/
theorem keeps_get_bind {f : σ → Action σ β} (h : ∀ s, view (f s s).2 = view s) :
    Keeps view (get >>= f) := h

/-- An operation on a part of the state leaves what it leaves of the part. -/
theorem Keeps.zoom {ρ : Type} {get : σ → ρ} {set : ρ → σ → σ} {a : Action ρ α} {seen : ρ → τ}
    (h : Keeps seen a) (hget : ∀ s, seen (get s) = view s)
    (hset : ∀ part s, view (set part s) = seen part) : Keeps view (Action.zoom get set a) :=
  fun s => (hset _ s).trans ((h (get s)).trans (hget s))

end Stencil.Action
