import Stencil.Proofs.Json.RoundTrip

/-!
# Values that JSON keeps

Values without floating-point numbers, without integers that are too long and without repeated keys
can be written in every layout. What is written for them is legible, and free rules read the same
value back from it.
-/

namespace Stencil.Json

/-- Values that JSON keeps: there are no floating-point numbers in them, no integer has too many
digits, and no mapping repeats a key. -/
inductive IsPlain : Value → Prop
  | null : IsPlain .null
  | bool (b : Bool) : IsPlain (.bool b)
  | int {n : Int} (hdigits : (Nat.toDigits 10 n.natAbs).length ≤ digitLimit) : IsPlain (.int n)
  | text (s : Text) : IsPlain (.text s)
  | list {items : List Value} (hitems : ∀ v ∈ items, IsPlain v) : IsPlain (.list items)
  | mapping {entries : List (Text × Value)} (hkeys : (Mapping.keys entries).Nodup)
      (hvalues : ∀ e ∈ entries, IsPlain e.2) : IsPlain (.mapping entries)

/-- Free rules allow all values that JSON keeps. -/
theorem IsPlain.fits_free {v : Value} (h : IsPlain v) : Fits .free v := by
  induction h with
  | null => exact .null _
  | bool b => exact .bool _ b
  | int hdigits =>
    refine .int ?_
    simpa [Rules.refuses, Rules.free] using hdigits
  | text s => exact .text _ s
  | list _ ih => exact .list rfl ih
  | mapping hkeys _ ih => exact .mapping rfl hkeys ih

/-! ### There is a text -/

variable {style : Style} {level : Nat}

/-- Items that can be written can be written one behind the other. -/
theorem exists_writeItems? {items : List Value}
    (h : ∀ v ∈ items, ∃ text, write? style level v = some text) :
    ∃ more, writeItems? style level items = some more := by
  induction items with
  | nil => exact ⟨_, rfl⟩
  | cons item items ih =>
    obtain ⟨first, hfirst⟩ := h item List.mem_cons_self
    obtain ⟨more, hmore⟩ := ih fun v hv => h v (List.mem_cons_of_mem _ hv)
    rw [writeItems?, hfirst, hmore]
    exact ⟨_, rfl⟩

/-- Entries whose values can be written can be written one behind the other. -/
theorem exists_writeEntries? {entries : List (Text × Value)}
    (h : ∀ e ∈ entries, ∃ text, write? style level e.2 = some text) :
    ∃ more, writeEntries? style level entries = some more := by
  induction entries with
  | nil => exact ⟨_, rfl⟩
  | cons entry entries ih =>
    obtain ⟨first, hfirst⟩ := h entry List.mem_cons_self
    obtain ⟨more, hmore⟩ := ih fun e he => h e (List.mem_cons_of_mem _ he)
    rw [writeEntries?, hfirst, hmore]
    exact ⟨_, rfl⟩

/-- Every value that JSON keeps can be written. -/
theorem IsPlain.exists_write? {v : Value} (h : IsPlain v) (style : Style) (level : Nat) :
    ∃ text, write? style level v = some text := by
  induction h generalizing level with
  | null => exact ⟨_, rfl⟩
  | bool b => cases b <;> exact ⟨_, rfl⟩
  | int hdigits =>
    rw [write?, integerText?, if_neg (Nat.not_lt.mpr hdigits)]
    exact ⟨_, rfl⟩
  | text s =>
    rw [write?]
    exact ⟨_, rfl⟩
  | @list items _ ih =>
    cases items with
    | nil => exact ⟨_, rfl⟩
    | cons item items =>
      obtain ⟨first, hfirst⟩ := ih item List.mem_cons_self (level + 1)
      obtain ⟨more, hmore⟩ := exists_writeItems? fun v hv =>
        ih v (List.mem_cons_of_mem _ hv) (level + 1)
      rw [write?, hfirst, hmore]
      exact ⟨_, rfl⟩
  | @mapping entries _ _ ih =>
    cases entries with
    | nil => exact ⟨_, rfl⟩
    | cons entry entries =>
      obtain ⟨first, hfirst⟩ := ih entry List.mem_cons_self (level + 1)
      obtain ⟨more, hmore⟩ := exists_writeEntries? fun e he =>
        ih e (List.mem_cons_of_mem _ he) (level + 1)
      rw [write?, hfirst, hmore]
      exact ⟨_, rfl⟩

/-! ### The text is legible -/

/-- The blanks of the layout are legible. -/
theorem isLegible_edge (style : Style) (level : Nat) : IsLegible style.ascii (style.edge level) := by
  refine IsLegible.of_ascii ?_ _
  unfold Style.edge
  split
  · decide
  · intro c hc
    rcases List.mem_cons.mp hc with rfl | hc
    · decide
    · rw [List.eq_of_mem_replicate hc]
      decide

/-- What stands between two items is legible. -/
theorem isLegible_between (style : Style) (level : Nat) :
    IsLegible style.ascii (style.between level) := by
  unfold Style.between
  split
  · exact (by decide : IsLegible true [',', ' ']).of_ascii _
  · exact List.forall_mem_cons.mpr
      ⟨Or.inr ⟨by decide, fun _ => by decide⟩, isLegible_edge style level⟩

/-- The text of an integer is legible in ASCII. -/
theorem isLegible_integerText {n : Int} {text : Text} (h : integerText? n = some text) :
    IsLegible true text := by
  have hdigits : IsLegible true (Nat.toDigits 10 n.natAbs) := by
    intro c hc
    have hc := isDigit_toDigits n.natAbs c hc
    simp only [Char.isDigit, Bool.and_eq_true, decide_eq_true_eq] at hc
    have hge : '0'.toNat ≤ c.toNat := hc.1
    have hle : c.toNat ≤ '9'.toNat := hc.2
    exact Or.inr ⟨Nat.le_trans (by decide) hge, fun _ => Nat.lt_of_le_of_lt hle (by decide)⟩
  simp only [integerText?, Option.ite_none_left_eq_some, Option.some.injEq] at h
  obtain ⟨-, rfl⟩ := h
  split
  · exact List.forall_mem_cons.mpr ⟨by decide, hdigits⟩
  · exact hdigits

/-- Items whose texts are legible are legible one behind the other. -/
theorem isLegible_writeItems? {items : List Value} {more : Text}
    (h : ∀ v ∈ items, ∀ text, write? style level v = some text → IsLegible style.ascii text)
    (hmore : writeItems? style level items = some more) : IsLegible style.ascii more := by
  induction items generalizing more with
  | nil =>
    obtain rfl := Option.some.inj hmore
    exact List.forall_mem_nil _
  | cons item items ih =>
    simp only [writeItems?, Option.bind_eq_bind, Option.bind_eq_some_iff] at hmore
    obtain ⟨first, hfirst, others, hothers, hmore⟩ := hmore
    obtain rfl := Option.some.inj hmore
    simp only [isLegible_append_iff]
    exact ⟨⟨isLegible_between style level, h item List.mem_cons_self first hfirst⟩,
      ih (fun v hv => h v (List.mem_cons_of_mem _ hv)) hothers⟩

/-- Entries whose values have legible texts are legible one behind the other. -/
theorem isLegible_writeEntries? {entries : List (Text × Value)} {more : Text}
    (h : ∀ e ∈ entries, ∀ text, write? style level e.2 = some text →
      IsLegible style.ascii text)
    (hmore : writeEntries? style level entries = some more) : IsLegible style.ascii more := by
  induction entries generalizing more with
  | nil =>
    obtain rfl := Option.some.inj hmore
    exact List.forall_mem_nil _
  | cons entry entries ih =>
    simp only [writeEntries?, Option.bind_eq_bind, Option.bind_eq_some_iff] at hmore
    obtain ⟨first, hfirst, others, hothers, hmore⟩ := hmore
    obtain rfl := Option.some.inj hmore
    have hcolon := (by decide : IsLegible true [':', ' ']).of_ascii style.ascii
    simp only [isLegible_append_iff]
    exact ⟨⟨⟨⟨isLegible_between style level, isLegible_string style.ascii entry.1⟩, hcolon⟩,
      h entry List.mem_cons_self first hfirst⟩,
      ih (fun e he => h e (List.mem_cons_of_mem _ he)) hothers⟩

/-- What is written for a value that JSON keeps is legible, in ASCII if the style asks for it. -/
theorem IsPlain.isLegible_write? {v : Value} (h : IsPlain v) {text : Text}
    (hwrite : write? style level v = some text) : IsLegible style.ascii text := by
  induction h generalizing level text with
  | null =>
    obtain rfl := Option.some.inj hwrite
    exact IsLegible.of_ascii (by decide) _
  | bool b =>
    cases b <;> obtain rfl := Option.some.inj hwrite <;> exact IsLegible.of_ascii (by decide) _
  | int _ =>
    rw [write?] at hwrite
    exact (isLegible_integerText hwrite).of_ascii _
  | text s =>
    rw [write?] at hwrite
    obtain rfl := Option.some.inj hwrite
    exact isLegible_string style.ascii s
  | @list items _ ih =>
    have hopening := (by decide : IsLegible true ['[']).of_ascii style.ascii
    have hclosing := (by decide : IsLegible true [']']).of_ascii style.ascii
    cases items with
    | nil =>
      rw [write?] at hwrite
      obtain rfl := Option.some.inj hwrite
      exact isLegible_append_iff.mpr ⟨hopening, hclosing⟩
    | cons item items =>
      simp only [write?, Option.bind_eq_bind, Option.bind_eq_some_iff] at hwrite
      obtain ⟨first, hfirst, more, hmore, hwrite⟩ := hwrite
      obtain rfl := Option.some.inj hwrite
      have hothers := isLegible_writeItems? (fun v hv _ => ih v (List.mem_cons_of_mem _ hv)) hmore
      simp only [isLegible_append_iff]
      exact ⟨⟨⟨⟨⟨hopening, isLegible_edge style _⟩, ih item List.mem_cons_self hfirst⟩, hothers⟩,
        isLegible_edge style level⟩, hclosing⟩
  | @mapping entries _ _ ih =>
    have hopening := (by decide : IsLegible true ['\x7b']).of_ascii style.ascii
    have hcolon := (by decide : IsLegible true [':', ' ']).of_ascii style.ascii
    have hclosing := (by decide : IsLegible true ['\x7d']).of_ascii style.ascii
    cases entries with
    | nil =>
      rw [write?] at hwrite
      obtain rfl := Option.some.inj hwrite
      exact isLegible_append_iff.mpr ⟨hopening, hclosing⟩
    | cons entry entries =>
      simp only [write?, Option.bind_eq_bind, Option.bind_eq_some_iff] at hwrite
      obtain ⟨first, hfirst, more, hmore, hwrite⟩ := hwrite
      obtain rfl := Option.some.inj hwrite
      have hothers := isLegible_writeEntries?
        (fun e he _ => ih e (List.mem_cons_of_mem _ he)) hmore
      simp only [isLegible_append_iff]
      exact ⟨⟨⟨⟨⟨⟨⟨hopening, isLegible_edge style _⟩, isLegible_string style.ascii entry.1⟩, hcolon⟩,
        ih entry List.mem_cons_self hfirst⟩, hothers⟩, isLegible_edge style level⟩, hclosing⟩

/-- What is written in ASCII for a value that JSON keeps is ASCII. -/
theorem IsPlain.isAscii_write? {v : Value} (h : IsPlain v) (hstyle : style.ascii = true)
    {text : Text} (hwrite : write? style level v = some text) : IsAscii text := by
  have hlegible := h.isLegible_write? hwrite
  rw [hstyle] at hlegible
  exact hlegible.isAscii

/-- What is written for a value that JSON keeps is read as this value, with blanks behind it. -/
theorem IsPlain.read_append {v : Value} (h : IsPlain v) {text : Text}
    (hwrite : write? style level v = some text) (blanks : Text)
    (hblanks : ∀ c ∈ blanks, isSpace c) : read (text ++ blanks) = .ok v :=
  (h.fits_free.readsBack hwrite).readBy_append hblanks

end Stencil.Json
