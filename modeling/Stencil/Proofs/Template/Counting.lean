import Stencil.Proofs.Template.BlockTags
import Mathlib.Order.Bounds.Image

/-!
# Closing tags by counting

The scan for a closing tag goes from tag to tag and keeps a depth. What it finds can be said without
the scan: it is the first place of a closing tag up to which, from where the scan began, one closing
tag more has begun than marks of opening tags. For tags do not overlap, so none is hidden where the
scan steps over another one, and the depth changes by one level at a time.
-/

namespace Stencil.Template

/-! ### Counting marks -/

/-- Whether a mark begins at an offset of a text. -/
def beginsAt (mark s : Text) (offset : Nat) : Bool := mark.isPrefixOf (s.drop offset)

/-- At how many offsets of a text a mark begins, from `first` on and before `last`. -/
def countBegins (mark s : Text) (first last : Nat) : Nat :=
  (List.range' first (last - first)).countP (beginsAt mark s)

/-- From `first` on, `levels` levels are closed at an offset: a closing tag begins there, and up to
it `levels` closing tags more have begun than marks of opening tags before it. -/
structure EvensOut (kind : BlockKind) (levels : Nat) (s : Text) (first offset : Nat) : Prop where
  first_le : first ≤ offset
  closing : beginsAt kind.closeTag s offset
  count : countBegins kind.closeTag s first (offset + 1) =
    countBegins kind.openMark s first offset + levels

/-- The first offset of a set, if there is any. -/
def IsFirst (offsets : Set Nat) : Option Nat → Prop
  | none => offsets = ∅
  | some offset => IsLeast offsets offset

/-- Where a scan begins: a negative start counts from the end of the text, but not beyond its
beginning. -/
def startOffset (s : Text) (start : Int) : Nat :=
  if start < 0 then (s.length + start).toNat else start.toNat

/-- The first offset of a set stays the first one if all are moved. -/
theorem IsFirst.map_add {offsets : Set Nat} {found : Option Nat} (h : IsFirst offsets found)
    (k : Nat) : IsFirst ((k + ·) '' offsets) (found.map (k + ·)) := by
  cases found with
  | none => rw [show offsets = ∅ from h, Set.image_empty]; rfl
  | some offset => exact Monotone.map_isLeast (fun _ _ hle => Nat.add_le_add_left hle k) h

/-- There is a single first offset of a set, and there is one exactly if the set is not empty. -/
theorem isFirst_iff {offsets : Set Nat} {found : Option Nat} (h : IsFirst offsets found) :
    (∀ offset, found = some offset ↔ IsLeast offsets offset) ∧
      (found = none ↔ ∀ offset, offset ∉ offsets) := by
  cases found with
  | none =>
    rw [show offsets = ∅ from h]
    exact ⟨fun offset => ⟨nofun, fun hleast => absurd hleast.1 (Set.notMem_empty _)⟩,
      fun _ offset => Set.notMem_empty offset, fun _ => rfl⟩
  | some least =>
    refine ⟨fun offset => ?_, nofun, fun hnone => absurd h.1 (hnone least)⟩
    rw [Option.some.injEq]
    exact ⟨fun heq => heq ▸ h, fun hleast => h.unique hleast⟩

/-- Counting from an offset on is counting in the text behind it. -/
theorem countBegins_drop (mark s : Text) (first n : Nat) :
    countBegins mark s first (first + n) = countBegins mark (s.drop first) 0 n := by
  rw [countBegins, countBegins, Nat.add_sub_cancel_left, Nat.sub_zero, List.range'_eq_map_range,
    List.range'_eq_map_range, List.countP_map, List.countP_map]
  refine List.countP_congr fun i _ => ?_
  simp [beginsAt]

/-- Levels that are closed from an offset on are closed in the text behind it. -/
theorem evensOut_drop {kind : BlockKind} {levels : Nat} {s : Text} {first r : Nat} :
    EvensOut kind levels s first (first + r) ↔ EvensOut kind levels (s.drop first) 0 r := by
  have hclosing : beginsAt kind.closeTag (s.drop first) r =
      beginsAt kind.closeTag s (first + r) := by rw [beginsAt, beginsAt, List.drop_drop]
  constructor
  · rintro ⟨-, htag, hcount⟩
    rw [Nat.add_assoc, countBegins_drop, countBegins_drop] at hcount
    exact ⟨Nat.zero_le r, hclosing ▸ htag, hcount⟩
  · rintro ⟨-, htag, hcount⟩
    rw [← countBegins_drop, ← countBegins_drop, ← Nat.add_assoc] at hcount
    exact ⟨Nat.le_add_right first r, hclosing ▸ htag, hcount⟩

/-- The marks at the front of a text and behind its first character. -/
theorem countBegins_cons (mark : Text) (c : Char) (s : Text) (n : Nat) :
    countBegins mark (c :: s) 0 (n + 1) =
      (mark.isPrefixOf (c :: s)).toNat + countBegins mark s 0 n := by
  have hlater := countBegins_drop mark (c :: s) 1 n
  rw [countBegins, Nat.add_sub_cancel_left] at hlater
  rw [countBegins, Nat.sub_zero, List.range'_succ, List.countP_cons, hlater, Nat.add_comm]
  cases hfront : mark.isPrefixOf (c :: s) <;> simp [beginsAt, hfront]

/-- In a text that avoids a mark it is not counted. -/
theorem countBegins_append_of_avoids {mark s : Text} (hs : Text.Avoids mark s) (t : Text)
    (n : Nat) : countBegins mark (s ++ t) 0 (s.length + n) = countBegins mark t 0 n := by
  induction s with
  | nil => rw [List.nil_append, List.length_nil, Nat.zero_add]
  | cons c s ih =>
    have hfront : mark.isPrefixOf (c :: (s ++ t)) = false := by
      rw [← Bool.not_eq_true, List.isPrefixOf_iff_prefix]
      exact hs.1 t
    rw [List.cons_append, List.length_cons, Nat.add_right_comm, countBegins_cons, hfront, ih hs.2,
      Bool.toNat_false, Nat.zero_add]

/-! ### Stepping over a tag -/

section Step

variable {kind : BlockKind} {levels inner : Nat} {c : Char} {tail t : Text}

/-- In a text in which no two braces open no closing tag begins. -/
theorem not_beginsAt_of_avoids {s : Text} (hs : Text.Avoids openBraces s) {offset : Nat}
    (hoffset : offset < s.length) : ¬ beginsAt kind.closeTag (s ++ t) offset := by
  induction s generalizing offset with
  | nil => exact absurd hoffset (Nat.not_lt_zero offset)
  | cons d s ih =>
    cases offset with
    | zero =>
      intro hbegin
      rw [beginsAt, List.drop_zero, List.isPrefixOf_iff_prefix, closeTag_eq] at hbegin
      exact hs.1 t ((List.prefix_append ..).trans hbegin)
    | succ offset => exact ih hs.2 (Nat.lt_of_succ_lt_succ hoffset)

/-- What is counted up to a place behind a piece in which tags begin at its front at most. -/
theorem evensOut_append_iff (htail : Text.Avoids openBraces tail)
    (hlevels : (kind.openMark.isPrefixOf (c :: (tail ++ t))).toNat + levels =
      (kind.closeTag.isPrefixOf (c :: (tail ++ t))).toNat + inner) (r : Nat) :
    EvensOut kind levels (c :: (tail ++ t)) 0 (tail.length + 1 + r) ↔
      EvensOut kind inner t 0 r := by
  have hopen : Text.Avoids kind.openMark tail := htail.of_prefix ⟨'#' :: kind.word, rfl⟩
  have hclose : Text.Avoids kind.closeTag tail :=
    htail.of_prefix (closeTag_eq kind ▸ List.prefix_append ..)
  have hopens : countBegins kind.openMark (c :: (tail ++ t)) 0 (tail.length + 1 + r) =
      (kind.openMark.isPrefixOf (c :: (tail ++ t))).toNat + countBegins kind.openMark t 0 r := by
    rw [Nat.add_right_comm, countBegins_cons, countBegins_append_of_avoids hopen]
  have hcloses : countBegins kind.closeTag (c :: (tail ++ t)) 0 (tail.length + 1 + r + 1) =
      (kind.closeTag.isPrefixOf (c :: (tail ++ t))).toNat +
        countBegins kind.closeTag t 0 (r + 1) := by
    rw [countBegins_cons, Nat.add_assoc, Nat.add_comm 1, countBegins_append_of_avoids hclose]
  have htag : beginsAt kind.closeTag (c :: (tail ++ t)) (tail.length + 1 + r) =
      beginsAt kind.closeTag t r := by
    rw [beginsAt, beginsAt, Nat.add_right_comm, List.drop_succ_cons, ← List.drop_drop,
      List.drop_left]
  constructor
  · rintro ⟨-, hclosing, hcount⟩
    refine ⟨Nat.zero_le r, htag ▸ hclosing, ?_⟩
    omega
  · rintro ⟨-, hclosing, hcount⟩
    refine ⟨Nat.zero_le _, htag ▸ hclosing, ?_⟩
    omega

/-- At the front of a text a single level can be closed. -/
theorem evensOut_zero_iff {s : Text} :
    EvensOut kind levels (c :: s) 0 0 ↔ kind.closeTag.isPrefixOf (c :: s) ∧ levels = 1 := by
  have hcloses : countBegins kind.closeTag (c :: s) 0 (0 + 1) =
      (kind.closeTag.isPrefixOf (c :: s)).toNat := countBegins_cons ..
  have hopens : countBegins kind.openMark (c :: s) 0 0 = 0 := rfl
  constructor
  · rintro ⟨-, hclosing, hcount⟩
    have hfront : kind.closeTag.isPrefixOf (c :: s) := hclosing
    rw [hcloses, hopens, hfront, Bool.toNat_true] at hcount
    exact ⟨hfront, by omega⟩
  · rintro ⟨hfront, rfl⟩
    refine ⟨le_rfl, hfront, ?_⟩
    rw [hcloses, hopens, hfront]
    rfl

/-- Levels that are not closed at the front of a piece are closed behind it. -/
theorem setOf_evensOut_append (htail : Text.Avoids openBraces tail)
    (hlevels : (kind.openMark.isPrefixOf (c :: (tail ++ t))).toNat + levels =
      (kind.closeTag.isPrefixOf (c :: (tail ++ t))).toNat + inner)
    (hfront : ¬ (kind.closeTag.isPrefixOf (c :: (tail ++ t)) ∧ levels = 1)) :
    {r | EvensOut kind levels (c :: (tail ++ t)) 0 r} =
      (tail.length + 1 + ·) '' {r | EvensOut kind inner t 0 r} := by
  ext offset
  constructor
  · intro h
    have hbehind : tail.length + 1 ≤ offset := by
      by_contra hshort
      cases offset with
      | zero => exact hfront (evensOut_zero_iff.mp h)
      | succ offset => exact not_beginsAt_of_avoids htail (by omega) h.closing
    obtain ⟨r, rfl⟩ := Nat.exists_eq_add_of_le hbehind
    exact ⟨r, (evensOut_append_iff htail hlevels r).mp h, rfl⟩
  · rintro ⟨r, h, rfl⟩
    exact (evensOut_append_iff htail hlevels r).mpr h

/-- The first place at which levels are closed is found by looking for it behind a piece, if they
are not closed at its front. -/
theorem isFirst_append {piece : Text} {found : Option (Text × Text)} (hpiece : piece = c :: tail)
    (htail : Text.Avoids openBraces tail)
    (hlevels : (kind.openMark.isPrefixOf (piece ++ t)).toNat + levels =
      (kind.closeTag.isPrefixOf (piece ++ t)).toNat + inner)
    (hfront : ¬ (kind.closeTag.isPrefixOf (piece ++ t) ∧ levels = 1))
    (h : IsFirst {r | EvensOut kind inner t 0 r} (found.map (·.1.length))) :
    IsFirst {r | EvensOut kind levels (piece ++ t) 0 r}
      ((found.map (prepend piece)).map (·.1.length)) := by
  have hlength : (found.map (prepend piece)).map (·.1.length) =
      (found.map (·.1.length)).map (tail.length + 1 + ·) := by
    simp [Function.comp_def, prepend, hpiece, Nat.add_right_comm]
  rw [hlength]
  subst hpiece
  rw [List.cons_append] at hlevels hfront ⊢
  rw [setOf_evensOut_append htail hlevels hfront]
  exact h.map_add _

end Step

/-! ### The scan -/

/-- The scan that begins `depth` levels down stops at the first closing tag at which one level more
is closed, and it stops nowhere if there is none. -/
theorem isFirst_splitClose? (kind : BlockKind) (depth : Nat) (s : Text) :
    IsFirst {r | EvensOut kind (depth + 1) s 0 r}
      ((splitClose? kind.openMark kind.closeTag depth s).map (·.1.length)) := by
  fun_induction splitClose? kind.openMark kind.closeTag depth s with
  | case1 depth =>
    refine Set.eq_empty_of_forall_notMem fun offset h => ?_
    have hclosing := h.closing
    rw [beginsAt, List.drop_nil, List.isPrefixOf_iff_prefix, List.prefix_nil] at hclosing
    exact kind.closeTag_ne_nil hclosing
  | case2 c r hc => exact ⟨evensOut_zero_iff.mpr ⟨hc, rfl⟩, fun offset _ => Nat.zero_le offset⟩
  | case3 c r hc outer ih =>
    obtain ⟨tail, htag, htail⟩ := exists_tail_closeTag kind
    have hopen := not_openMark_prefix_closeTag kind kind (r.drop (kind.closeTag.length - 1))
    have hwhole := cons_eq_append_drop kind.closeTag_ne_nil hc
    rw [← List.isPrefixOf_iff_prefix, Bool.not_eq_true] at hopen
    rw [hwhole] at hc ⊢
    refine isFirst_append htag htail ?_ (by omega) ih
    rw [hopen, hc, Bool.toNat_false, Bool.toNat_true]
    omega
  | case4 depth c r hc ho ih =>
    obtain ⟨tail, htag, htail⟩ := exists_tail_openMark kind
    have hwhole := cons_eq_append_drop kind.openMark_ne_nil ho
    rw [hwhole] at hc ho ⊢
    refine isFirst_append htag htail ?_ (fun h => hc h.1) ih
    rw [Bool.not_eq_true] at hc
    rw [ho, hc, Bool.toNat_false, Bool.toNat_true]
    omega
  | case5 depth c r hc ho ih =>
    have hpiece : [c] = c :: [] := rfl
    refine isFirst_append hpiece trivial ?_ (fun h => hc h.1) ih
    rw [Bool.not_eq_true] at hc ho
    rw [List.singleton_append, ho, hc]

/-- **The closing tag is found by counting.** Where the closing tag stands for a block that was
opened before an offset is the first place, from there on, at which a closing tag of the kind begins
such that up to it one closing tag more has begun than marks of opening tags; none is found exactly
if there is no such place. -/
theorem closeOffset?_by_counting (source : Text) (start : Int) (kind : BlockKind) :
    let first := startOffset source start
    ∃ found, closeOffset? source start kind.openMark kind.closeTag = .ok found ∧
      (∀ offset, found = some offset ↔
        IsLeast {offset | EvensOut kind 1 source first offset} offset) ∧
      (found = none ↔ ∀ offset, ¬ EvensOut kind 1 source first offset) := by
  intro first
  have hset : {offset | EvensOut kind 1 source first offset} =
      (first + ·) '' {r | EvensOut kind 1 (source.drop first) 0 r} := by
    ext offset
    constructor
    · intro h
      obtain ⟨r, rfl⟩ := Nat.exists_eq_add_of_le h.first_le
      exact ⟨r, evensOut_drop.mp h, rfl⟩
    · rintro ⟨r, h, rfl⟩
      exact evensOut_drop.mpr h
  have hscan := (isFirst_splitClose? kind 0 (source.drop first)).map_add first
  rw [← hset] at hscan
  have hrun : closeOffset? source start kind.openMark kind.closeTag =
      .ok (((splitClose? kind.openMark kind.closeTag 0 (source.drop first)).map (·.1.length)).map
        (first + ·)) := by
    simp [closeOffset?, first, startOffset, Function.comp_def]
  exact ⟨_, hrun, isFirst_iff hscan⟩

end Stencil.Template
