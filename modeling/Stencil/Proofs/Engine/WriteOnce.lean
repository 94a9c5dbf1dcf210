import Stencil.Proofs.Engine.Sources
import Stencil.Proofs.Mapping
import Stencil.Proofs.Text.Order
import Mathlib

/-!
# Names are written once

A store of partials is asked for sources and handed sources in any order, while the files change in
any way. A name gets a source once: by the first loading that finds one, or by the first source that
is handed in. From then on the name keeps it. Names do not get lost and do not disturb each other.
-/

namespace Stencil.Partials

/-- What a store is asked for. -/
inductive Request
  | load (name : Text)
  | register (name source : Text)
  | names
  | knows (name : Text)
  | count

/-- What a store answers. -/
inductive Answer
  /-- The source of a partial, if there is one. -/
  | source (source : Option Text)
  /-- The file of a partial could not be read. -/
  | fault (fault : Fault)
  /-- Whether a source that was handed in was taken. -/
  | taken (taken : Bool)
  | names (names : List Text)
  | known (known : Bool)
  | count (count : Nat)

/-- The name that a request is about; the requests for all names are about none. -/
def Request.name? : Request → Option Text
  | load name => some name
  | register name _ => some name
  | knows name => some name
  | names => none
  | count => none

/-- The answer to a request while the files are as they are, and the store after it. A file that
cannot be read leaves the store as it was. -/
def answer (p : Partials) (tree : FileTree) : Request → Answer × Partials
  | .load name =>
    match p.load tree name with
    | .ok (source, after) => (.source source, after)
    | .error fault => (.fault fault, p)
  | .register name source => (.taken (p.register name source).1, (p.register name source).2)
  | .names => (.names p.names, p)
  | .knows name => (.known (p.knows name), p)
  | .count => (.count p.names.length, p)

/-- The store after requests, one after the other, each with the files as they are at its time. -/
def after (p : Partials) : List (FileTree × Request) → Partials
  | [] => p
  | (tree, request) :: rest => after (p.answer tree request).2 rest

/-- The requests with their answers. -/
def history (p : Partials) : List (FileTree × Request) → List (Request × Answer)
  | [] => []
  | (tree, request) :: rest =>
    (request, (p.answer tree request).1) :: history (p.answer tree request).2 rest

/-- A request and its answer that settle the source of a name: a source that was found, or that was
handed in and taken. -/
inductive Settles (name source : Text) : Request × Answer → Prop
  | loaded : Settles name source (.load name, .source (some source))
  | registered : Settles name source (.register name source, .taken true)

/-- The source of a name was settled in the past. -/
def Settled (name source : Text) (past : List (Request × Answer)) : Prop :=
  ∃ exchange ∈ past, Settles name source exchange

/-- The part of a past that is about a name. -/
def about (name : Text) (past : List (Request × Answer)) : List (Request × Answer) :=
  past.filter fun exchange => exchange.1.name? = some name

/-- A new store, for a directory or for what it is handed only. -/
def create (tree : FileTree) (directory? : Option Path) (extension : Text) :
    Except Fault Partials :=
  match directory? with
  | some directory => ofDirectory tree directory extension
  | none => .ok ⟨none, extension, [], []⟩

/-- A new store has no sources. -/
theorem sources_create {tree : FileTree} {directory? : Option Path} {extension : Text}
    {p : Partials} (h : create tree directory? extension = .ok p) : p.sources = [] := by
  cases directory? with
  | none => rw [← Except.ok.inj h]
  | some directory =>
    change (discover tree directory extension >>= _) = _ at h
    cases hfound : discover tree directory extension with
    | error fault =>
      rw [hfound] at h
      contradiction
    | ok paths =>
      rw [hfound] at h
      rw [← Except.ok.inj h]

/-! ### What a request does -/

/-- A source is taken exactly if the name has none. -/
theorem register_cases (p : Partials) (name source : Text) :
    (∃ kept, p.sources.get? name = some kept ∧ p.register name source = (false, p)) ∨
      p.sources.get? name = none ∧ p.register name source =
        (true, { p with sources := p.sources.set name source }) := by
  unfold register Mapping.has
  cases p.sources.get? name with
  | none => exact Or.inr ⟨rfl, rfl⟩
  | some kept => exact Or.inl ⟨kept, rfl, rfl⟩

/-- What a request does to a store: it changes nothing and settles only what was kept already, or it
settles the source of a name that had none and keeps it. -/
theorem answer_cases (p : Partials) (tree : FileTree) (request : Request) :
    ((p.answer tree request).2 = p ∧
      ∀ name source, Settles name source (request, (p.answer tree request).1) →
        p.sources.get? name = some source) ∨
    ∃ name source paths, request.name? = some name ∧ p.sources.get? name = none ∧
      Settles name source (request, (p.answer tree request).1) ∧
      (paths = p.paths ∨ ∃ path, paths = p.paths.set name path) ∧
      (p.answer tree request).2 =
        { p with paths := paths, sources := p.sources.set name source } := by
  cases request with
  | load name =>
    simp only [answer]
    cases hload : p.load tree name with
    | error fault => exact Or.inl ⟨rfl, fun _ _ h => nomatch h⟩
    | ok loaded =>
      obtain ⟨found, after⟩ := loaded
      rcases load_cases hload with ⟨hfound, rfl⟩ | ⟨hnone, source, path, -, rfl, rfl⟩
      · refine Or.inl ⟨rfl, fun other source h => ?_⟩
        cases h
        exact hfound.symm
      · refine Or.inr ⟨name, source, _, rfl, hnone, .loaded, ?_, rfl⟩
        split
        · exact Or.inl rfl
        · exact Or.inr ⟨path, rfl⟩
  | register name source =>
    simp only [answer]
    rcases register_cases p name source with ⟨kept, -, h⟩ | ⟨hnone, h⟩
    · rw [h]
      exact Or.inl ⟨rfl, fun _ _ h => nomatch h⟩
    · rw [h]
      exact Or.inr ⟨name, source, p.paths, rfl, hnone, .registered, Or.inl rfl, rfl⟩
  | names => exact Or.inl ⟨rfl, fun _ _ h => nomatch h⟩
  | knows name => exact Or.inl ⟨rfl, fun _ _ h => nomatch h⟩
  | count => exact Or.inl ⟨rfl, fun _ _ h => nomatch h⟩

/-- An exchange settles one source at most, of the name that the request is about. -/
theorem Settles.unique {name other source kept : Text} {exchange : Request × Answer}
    (h : Settles name source exchange) (hother : Settles other kept exchange) :
    other = name ∧ kept = source := by
  cases h <;> cases hother <;> exact ⟨rfl, rfl⟩

/-- After a request a name has the source that it had before or that the request settled. -/
theorem get?_sources_answer (p : Partials) (tree : FileTree) (request : Request)
    (name source : Text) :
    (p.answer tree request).2.sources.get? name = some source ↔
      p.sources.get? name = some source ∨
        Settles name source (request, (p.answer tree request).1) := by
  rcases answer_cases p tree request with ⟨hsame, hkept⟩ |
    ⟨settled, kept, paths, -, hnone, hsettles, -, hafter⟩
  · rw [hsame]
    constructor
    · exact Or.inl
    · rintro (h | h)
      · exact h
      · exact hkept name source h
  · rw [hafter]
    by_cases hname : name = settled
    · subst hname
      rw [Mapping.get?_set_self, hnone, Option.some.injEq]
      constructor
      · rintro rfl
        exact Or.inr hsettles
      · rintro (h | h)
        · contradiction
        · exact (h.unique hsettles).2
    · rw [Mapping.get?_set_of_ne _ _ hname]
      constructor
      · exact Or.inl
      · rintro (h | h)
        · exact h
        · exact absurd (hsettles.unique h).1 hname

/-- A name is known if there is a path or a source for it. -/
theorem mem_names_iff {p : Partials} {name : Text} :
    name ∈ p.names ↔ name ∈ p.paths.keys ∨ name ∈ p.sources.keys := by
  rw [names, List.mem_eraseDups, List.mem_mergeSort, List.mem_append]

/-- After a request the names are known that were known before or whose source it settled. -/
theorem mem_names_answer (p : Partials) (tree : FileTree) (request : Request) (name : Text) :
    name ∈ (p.answer tree request).2.names ↔
      name ∈ p.names ∨ ∃ source, Settles name source (request, (p.answer tree request).1) := by
  rcases answer_cases p tree request with ⟨hsame, hkept⟩ |
    ⟨settled, kept, paths, -, -, hsettles, hpaths, hafter⟩
  · rw [hsame]
    constructor
    · exact Or.inl
    · rintro (h | ⟨source, h⟩)
      · exact h
      · exact mem_names_iff.mpr (Or.inr (Mapping.mem_keys_iff.mpr ⟨source, hkept name source h⟩))
  · have hsettled : (∃ source, Settles name source (request, (p.answer tree request).1)) ↔
        name = settled :=
      ⟨fun ⟨_, h⟩ => (hsettles.unique h).1, fun h => ⟨kept, h ▸ hsettles⟩⟩
    have hkeys : name ∈ paths.keys ∨ name = settled ↔ name ∈ p.paths.keys ∨ name = settled := by
      rcases hpaths with rfl | ⟨path, rfl⟩
      · rfl
      · rw [Mapping.mem_keys_set]
        tauto
    rw [hafter, mem_names_iff, mem_names_iff, Mapping.mem_keys_set, hsettled]
    tauto

/-! ### Runs of requests -/

/-- After a run a name has the source that it had before or that the run settled. -/
theorem get?_sources_after (p : Partials) (run : List (FileTree × Request)) (name source : Text) :
    (p.after run).sources.get? name = some source ↔
      p.sources.get? name = some source ∨ Settled name source (p.history run) := by
  induction run generalizing p with
  | nil => simp [after, history, Settled]
  | cons moment rest ih =>
    obtain ⟨tree, request⟩ := moment
    rw [after, history, ih, get?_sources_answer, or_assoc]
    simp [Settled]

/-- After a run the names are known that were known before or whose source it settled. -/
theorem mem_names_after (p : Partials) (run : List (FileTree × Request)) (name : Text) :
    name ∈ (p.after run).names ↔
      name ∈ p.names ∨ ∃ source, Settled name source (p.history run) := by
  induction run generalizing p with
  | nil => simp [after, history, Settled]
  | cons moment rest ih =>
    obtain ⟨tree, request⟩ := moment
    rw [after, history, ih, mem_names_answer, or_assoc, ← exists_or]
    simp [Settled]

/-! ### Names do not disturb each other -/

/-- Two stores that look for a name in the same place, have the same source for it, and know it both
or neither. -/
structure AgreeOn (name : Text) (p q : Partials) : Prop where
  path : p.pathOf? name = q.pathOf? name
  source : p.sources.get? name = q.sources.get? name
  known : name ∈ p.names ↔ name ∈ q.names

/-- Stores that agree on a name agree on it the other way round. -/
theorem AgreeOn.symm {name : Text} {p q : Partials} (h : AgreeOn name p q) : AgreeOn name q p :=
  ⟨h.path.symm, h.source.symm, h.known.symm⟩

/-- Agreement on a name is passed on. -/
theorem AgreeOn.trans {name : Text} {p q r : Partials} (hpq : AgreeOn name p q)
    (hqr : AgreeOn name q r) : AgreeOn name p r :=
  ⟨hpq.path.trans hqr.path, hpq.source.trans hqr.source, hpq.known.trans hqr.known⟩

/-- No request changes a path under which partials are looked for. -/
@[simp] theorem pathOf?_answer (p : Partials) (tree : FileTree) (request : Request) :
    (p.answer tree request).2.pathOf? = p.pathOf? := by
  cases request with
  | load name =>
    simp only [answer]
    cases hload : p.load tree name with
    | error fault => rfl
    | ok loaded => exact pathOf?_load hload
  | register name source =>
    rcases register_cases p name source with ⟨kept, -, h⟩ | ⟨-, h⟩
    · rw [answer, h]
    · rw [answer, h]
      rfl
  | names => rfl
  | knows name => rfl
  | count => rfl

/-- A request settles the source of the name that it is about. -/
theorem Settles.name?_eq {name source : Text} {exchange : Request × Answer}
    (h : Settles name source exchange) : exchange.1.name? = some name := by
  cases h <;> rfl

/-- A request that is not about a name changes nothing for it. -/
theorem agreeOn_answer (p : Partials) (tree : FileTree) {request : Request} {name : Text}
    (h : request.name? ≠ some name) : AgreeOn name (p.answer tree request).2 p where
  path := congrFun (pathOf?_answer p tree request) name
  source := by
    ext source
    rw [get?_sources_answer, or_iff_left fun hsettles => h hsettles.name?_eq]
  known := by
    rw [mem_names_answer, or_iff_left fun ⟨_, hsettles⟩ => h hsettles.name?_eq]

/-- What loading answers is decided by the source that the store gives. -/
theorem answer_load (p : Partials) (tree : FileTree) (name : Text) :
    (p.answer tree (.load name)).1 =
      match p.source tree name with
      | .ok source => .source source
      | .error fault => .fault fault := by
  simp only [answer, source]
  cases p.load tree name <;> rfl

/-- A request about a name on which stores agree has the same answer from both, and they agree on
the name again. -/
theorem AgreeOn.answer {name : Text} {p q : Partials} (h : AgreeOn name p q) (tree : FileTree)
    {request : Request} (hname : request.name? = some name) :
    (p.answer tree request).1 = (q.answer tree request).1 ∧
      AgreeOn name (p.answer tree request).2 (q.answer tree request).2 := by
  have hanswer : (p.answer tree request).1 = (q.answer tree request).1 := by
    cases request with
    | load other =>
      obtain rfl := Option.some.inj hname
      rw [answer_load, answer_load, source_eq, source_eq, h.source, h.path]
    | register other source =>
      obtain rfl := Option.some.inj hname
      rcases register_cases p other source with ⟨kept, hp, hpr⟩ | ⟨hp, hpr⟩ <;>
        rcases register_cases q other source with ⟨kept', hq, hqr⟩ | ⟨hq, hqr⟩
      · simp only [Partials.answer, hpr, hqr]
      · simp [h.source, hq] at hp
      · simp [h.source, hq] at hp
      · simp only [Partials.answer, hpr, hqr]
    | knows other =>
      obtain rfl := Option.some.inj hname
      have hknows : p.knows other = q.knows other := by
        rw [Bool.eq_iff_iff, knows, knows, List.contains_iff_mem, List.contains_iff_mem, h.known]
      exact congrArg Answer.known hknows
    | names => contradiction
    | count => contradiction
  refine ⟨hanswer, ?_, ?_, ?_⟩
  · simp [h.path]
  · ext source
    rw [get?_sources_answer, get?_sources_answer, h.source, hanswer]
  · rw [mem_names_answer, mem_names_answer, h.known, hanswer]

/-- Stores that agree on a name answer the requests about it in the same way. -/
theorem AgreeOn.about_history {name : Text} {p q : Partials} (h : AgreeOn name p q)
    (run : List (FileTree × Request)) :
    about name (p.history run) = about name (q.history run) := by
  induction run generalizing p q with
  | nil => rfl
  | cons moment rest ih =>
    obtain ⟨tree, request⟩ := moment
    by_cases hname : request.name? = some name
    · obtain ⟨hanswer, hafter⟩ := h.answer tree hname
      have hrest := ih hafter
      simp only [about, history, hanswer] at hrest ⊢
      rw [List.filter_cons_of_pos (by simpa using hname),
        List.filter_cons_of_pos (by simpa using hname), hrest]
    · have hafter := ((agreeOn_answer p tree hname).trans h).trans
        (agreeOn_answer q tree hname).symm
      have hrest := ih hafter
      simp only [about, history] at hrest ⊢
      rw [List.filter_cons_of_neg (by simpa using hname),
        List.filter_cons_of_neg (by simpa using hname), hrest]

/-- **Names are written once.** Let a new store be asked in any order, while its files change in any
way. A name whose source was settled keeps it: loading gives it and nothing that is handed in
replaces it. A source that is handed in is taken exactly if none was settled for the name. The names
that are known are strictly ascending, and they are those that were found at the start or whose
source was settled. And a request that is not about a name does not show in what is answered about
this name later. -/
theorem write_once {tree : FileTree} {directory? : Option Path} {extension : Text} {p : Partials}
    (hnew : create tree directory? extension = .ok p) (run : List (FileTree × Request)) :
    (∀ name source, Settled name source (p.history run) → ∀ now,
      (p.after run).answer now (.load name) = (.source (some source), p.after run) ∧
      ∀ other, (p.after run).answer now (.register name other) = (.taken false, p.after run)) ∧
    (∀ name source now, ((p.after run).answer now (.register name source)).1 = .taken true ↔
      ¬ ∃ kept, Settled name kept (p.history run)) ∧
    ((p.after run).names.Pairwise (fun a b => Text.le a b ∧ a ≠ b) ∧
      ∀ name, name ∈ (p.after run).names ↔
        name ∈ p.paths.keys ∨ ∃ source, Settled name source (p.history run)) ∧
    (∀ name request now later, request.name? ≠ some name →
      about name ((p.after run).history ((now, request) :: later)) =
        about name ((p.after run).history later)) := by
  have hsources (name source : Text) :
      (p.after run).sources.get? name = some source ↔ Settled name source (p.history run) := by
    rw [get?_sources_after, sources_create hnew]
    simp [Mapping.get?]
  refine ⟨fun name source hsettled now => ?_, fun name source now => ?_, ⟨?_, fun name => ?_⟩,
    fun name request now later hname => ?_⟩
  · have hkept := (hsources name source).mpr hsettled
    refine ⟨by simp [answer, load, hkept], fun other => ?_⟩
    simp [answer, register, Mapping.has, hkept]
  · rcases register_cases (p.after run) name source with ⟨kept, hkept, h⟩ | ⟨hnone, h⟩
    · have hsettled := (hsources name kept).mp hkept
      simp only [answer, h, Answer.taken.injEq, Bool.false_eq_true, false_iff, not_not]
      exact ⟨kept, hsettled⟩
    · simp only [answer, h, true_iff]
      rintro ⟨kept, hsettled⟩
      rw [(hsources name kept).mpr hsettled] at hnone
      contradiction
  · exact Text.pairwise_sorted_eraseDups _
  · rw [mem_names_after, mem_names_iff, sources_create hnew]
    simp [Mapping.keys]
  · have hrest := (agreeOn_answer (p.after run) now hname).about_history later
    rw [← hrest, about, history, List.filter_cons_of_neg (by simpa using hname)]
    rfl

/-- A file was found at the start, its source was loaded, the file was deleted, and another source
was handed in for its name. The name still has the source of the file. -/
theorem write_once_of_deleted_file :
    let directory : Path := ⟨.here, [['d']]⟩
    let gone : FileTree := ⟨[([['d']], .directory)], []⟩
    let present := gone.put [['d'], ['a', '.', 'x']] (.file (.text ['A']))
    let store : Partials :=
      ⟨some directory, ['.', 'x'], [(['a'], directory.child ['a', '.', 'x'])], []⟩
    let run : List (FileTree × Request) :=
      [(present, .load ['a']), (gone, .register ['a'] ['B'])]
    create present (some directory) ['.', 'x'] = .ok store ∧
      Settled ['a'] ['A'] (store.history run) ∧
      (store.after run).answer gone (.load ['a']) = (.source (some ['A']), store.after run) := by
  intro directory gone present store run
  have hnew : create present (some directory) ['.', 'x'] = .ok store := by cbv
  have hloaded : (store.answer present (.load ['a'])).1 = .source (some ['A']) := by cbv
  have hsettled : Settled ['a'] ['A'] (store.history run) := by
    refine ⟨_, List.mem_cons_self, ?_⟩
    rw [hloaded]
    exact .loaded
  exact ⟨hnew, hsettled, ((write_once hnew run).1 ['a'] ['A'] hsettled gone).1⟩

end Stencil.Partials
