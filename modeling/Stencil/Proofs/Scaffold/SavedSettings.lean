import Stencil.Proofs.FileTree.Places
import Stencil.Proofs.Json.Plain
import Stencil.Proofs.Path
import Stencil.Proofs.Simulation
import Stencil.Scaffold.Settings

/-!
# Settings that are saved

Settings are saved as JSON, in a file that is read back with its line breaks unified. All settings
that can be read from a value come back from such a file, unless one of their numbers has too many
digits to be written: texts are quoted so that no carriage return stands in the file, paths are read
from their texts, and every other field is written in a form that its reader takes.
-/

namespace Stencil

namespace Schema

variable {α β : Type} {record : Mapping Value} {key : String} {usual a : α}
  {read : Value → Checked α}

/-- A field that stands once in a record is read from what stands there. -/
theorem field_eq_valid {value : Value} (hkeys : (Mapping.keys record).Nodup)
    (h : (key.toList, value) ∈ record) (hread : read value = .valid a) :
    field record [key] usual read = .valid a := by
  have hget := Mapping.get?_of_mem hkeys h
  simp [field, hget, hread, Checked.under]

/-- What holds of the usual value of a field and of all values that its reader gives holds of the
field. -/
theorem of_field {p : α → Prop} (husual : p usual) (hread : ∀ value, read value = .valid a → p a)
    (h : field record [key] usual read = .valid a) : p a := by
  unfold field at h
  split at h
  · next name value _ =>
    cases hvalue : read value with
    | valid b =>
      rw [hvalue] at h
      exact hread value (hvalue.trans h)
    | refused issues =>
      rw [hvalue] at h
      contradiction
  · exact Checked.valid.inj h ▸ husual

/-- A function and its argument are valid together if both are. -/
theorem Checked.seq_eq_valid_iff {f : Checked (α → β)} {x : Checked α} {b : β} :
    f <*> x = .valid b ↔ ∃ g, f = .valid g ∧ ∃ a, x = .valid a ∧ g a = b := by
  constructor
  · intro h
    cases f with
    | valid g =>
      cases x with
      | valid a => exact ⟨g, rfl, a, rfl, Checked.valid.inj h⟩
      | refused issues => exact nomatch h
    | refused issues => cases x <;> exact nomatch h
  · rintro ⟨g, rfl, a, rfl, rfl⟩
    rfl

/-- A function is applied to what is valid. -/
theorem Checked.map_eq_valid_iff {g : α → β} {x : Checked α} {b : β} :
    g <$> x = .valid b ↔ ∃ a, x = .valid a ∧ g a = b := by
  constructor
  · intro h
    cases x with
    | valid a => exact ⟨a, rfl, Checked.valid.inj h⟩
    | refused issues => exact nomatch h
  · rintro ⟨a, rfl, rfl⟩
    rfl

/-- A text is read from itself. -/
@[simp] theorem readText_text (s : Text) : readText (.text s) = .valid s := rfl

/-- A truth value is read from itself. -/
@[simp] theorem readBool_bool (b : Bool) : readBool (.bool b) = .valid b := rfl

/-- A path is read from its text. -/
theorem readPath_text {p : Path} (h : p.IsNormal) : readPath (.text p.text) = .valid p := by
  rw [readPath, Path.ofText_text h]

/-- Paths that are read are as paths are. -/
theorem isNormal_of_readPath {p : Path} {value : Value} (h : readPath value = .valid p) :
    p.IsNormal := by
  cases value <;> try contradiction
  obtain rfl := Checked.valid.inj h
  exact Path.isNormal_ofText _

/-- A number of at least one is read from itself. -/
theorem readPositive_int {n : Nat} (h : 1 ≤ n) : readPositive (.int n) = .valid n := by
  have hpositive : (1 : Int) ≤ n := by omega
  simp [readPositive, readInt, hpositive]

/-- Numbers that are read are at least one. -/
theorem one_le_of_readPositive {n : Nat} {value : Value} (h : readPositive value = .valid n) :
    1 ≤ n := by
  unfold readPositive at h
  split at h
  · next m _ =>
    split at h
    · obtain rfl := Checked.valid.inj h
      omega
    · contradiction
  · contradiction

/-- An extension is read from itself. -/
theorem readExtension_text {s : Text} (h : isExtension s) :
    readExtension (.text s) = .valid s := if_pos h

/-- Extensions that are read are extensions. -/
theorem isExtension_of_readExtension {s : Text} {value : Value}
    (h : readExtension value = .valid s) : isExtension s := by
  unfold readExtension at h
  split at h
  · split at h
    · next hextension =>
      obtain rfl := Checked.valid.inj h
      exact hextension
    · contradiction
  · contradiction

end Schema

open Schema

/-! ### Settings that can be read -/

namespace Engine.Settings

/-- Settings of an engine as they can be read: the path is one, the extension begins with a point
and has only word characters and points behind it, and the limits are not zero. -/
structure IsValid (s : Engine.Settings) : Prop where
  templatesDir : s.templatesDir.IsNormal
  extension : isExtension s.extension
  maxPartialDepth : 1 ≤ s.maxPartialDepth
  compileCacheSize : 1 ≤ s.compileCacheSize

/-- The limits have no more digits than can be written. -/
structure IsShort (s : Engine.Settings) : Prop where
  maxPartialDepth : (Nat.toDigits 10 s.maxPartialDepth).length ≤ digitLimit
  compileCacheSize : (Nat.toDigits 10 s.compileCacheSize).length ≤ digitLimit

variable {s : Engine.Settings}

/-- The usual settings of an engine are valid. -/
theorem isValid_usual : ({} : Engine.Settings).IsValid where
  templatesDir := by decide +kernel
  extension := by decide +kernel
  maxPartialDepth := by decide
  compileCacheSize := by decide

/-- Settings of an engine that are read are valid. -/
theorem isValid_of_ofValue {value : Value} (h : ofValue value = .valid s) : s.IsValid := by
  unfold ofValue readRecord at h
  split at h
  · next record =>
    simp only [ofRecord, Checked.seq_eq_valid_iff, Checked.map_eq_valid_iff] at h
    obtain ⟨_, ⟨_, ⟨_, ⟨_, ⟨_, ⟨dir, hdir, rfl⟩, _, -, rfl⟩, extension, hextension, rfl⟩,
      depth, hdepth, rfl⟩, size, hsize, rfl⟩, _, -, rfl⟩ := h
    exact {
      templatesDir := of_field isValid_usual.templatesDir (fun _ => isNormal_of_readPath) hdir
      extension := of_field (p := fun s => isExtension s) isValid_usual.extension
        (fun _ => isExtension_of_readExtension) hextension
      maxPartialDepth :=
        of_field isValid_usual.maxPartialDepth (fun _ => one_le_of_readPositive) hdepth
      compileCacheSize :=
        of_field isValid_usual.compileCacheSize (fun _ => one_le_of_readPositive) hsize }
  · contradiction

/-- The settings of an engine as a value name every field once. -/
theorem nodup_keys_value (s : Engine.Settings) : (Mapping.keys s.value).Nodup := by
  have hnames : (["templates_dir", "partials_subdir", "extension", "max_partial_depth",
      "compile_cache_size", "verbose"].map String.toList).Nodup := by decide +kernel
  exact hnames

/-- Short settings of an engine are a value that JSON keeps. -/
theorem IsShort.isPlain (h : s.IsShort) : Json.IsPlain (.mapping s.value) := by
  refine .mapping (nodup_keys_value s) ?_
  simp only [value, List.forall_mem_cons]
  exact ⟨.text _, .text _, .text _, .int h.maxPartialDepth, .int h.compileCacheSize, .bool _,
    List.forall_mem_nil _⟩

/-- The rules for records allow the value of short settings of an engine inside another mapping. -/
theorem IsShort.fits {rules : Json.Rules} {inside : Json.Rules} (h : s.IsShort)
    (hinside : rules.deeper? = some inside) (hsign : inside.countsSign) :
    Json.Fits rules (.mapping s.value) := by
  have hdigits {n : Nat} (hn : (Nat.toDigits 10 n).length ≤ digitLimit) :
      inside.refuses ((n : Int) < 0) true (Nat.toDigits 10 (n : Int).natAbs) = false := by
    have hpositive : ¬ (n : Int) < 0 := by omega
    simpa [Json.Rules.refuses, hsign, hpositive] using hn
  refine .mapping hinside (nodup_keys_value s) ?_
  simp only [value, List.forall_mem_cons]
  exact ⟨.text _ _, .text _ _, .text _ _, .int (hdigits h.maxPartialDepth),
    .int (hdigits h.compileCacheSize), .bool _ _, List.forall_mem_nil _⟩

/-- Valid settings of an engine are read from their value. -/
theorem IsValid.ofValue_value (h : s.IsValid) : ofValue (.mapping s.value) = .valid s := by
  have hkeys := nodup_keys_value s
  have hdir : field s.value ["templates_dir"] bundledTemplates readPath = .valid s.templatesDir :=
    field_eq_valid hkeys (by simp [value]) (readPath_text h.templatesDir)
  have hsubdir : field s.value ["partials_subdir"] "partials".toList readText =
      .valid s.partialsSubdir := field_eq_valid hkeys (by simp [value]) (readText_text _)
  have hextension : field s.value ["extension"] ".hbs".toList readExtension =
      .valid s.extension :=
    field_eq_valid hkeys (by simp [value]) (readExtension_text h.extension)
  have hdepth : field s.value ["max_partial_depth"] 32 readPositive = .valid s.maxPartialDepth :=
    field_eq_valid hkeys (by simp [value]) (readPositive_int h.maxPartialDepth)
  have hsize : field s.value ["compile_cache_size"] 256 readPositive =
      .valid s.compileCacheSize :=
    field_eq_valid hkeys (by simp [value]) (readPositive_int h.compileCacheSize)
  have hverbose : field s.value ["verbose"] false readBool = .valid s.verbose :=
    field_eq_valid hkeys (by simp [value]) (readBool_bool _)
  rw [ofValue, readRecord, ofRecord, hdir, hsubdir, hextension, hdepth, hsize, hverbose]
  rfl

end Engine.Settings

/-- A package manager is read from its name. -/
@[simp] theorem readChoice_name (manager : PackageManager) :
    readChoice PackageManager.choices (.text manager.name) = .valid manager := by
  have hlookup : PackageManager.choices.lookup manager.name = some manager := by
    cases manager <;> decide +kernel
  rw [readChoice, hlookup]

namespace Settings

/-- Settings as they can be read: the paths are paths, and the settings of the engine are valid. -/
structure IsValid (s : Settings) : Prop where
  outputDir : s.outputDir.IsNormal
  testTemplatesDir : s.testTemplatesDir.IsNormal
  engine : s.engine.IsValid

variable {s : Settings}

/-- The usual settings are valid. -/
theorem isValid_usual : ({} : Settings).IsValid where
  outputDir := by decide
  testTemplatesDir := by decide +kernel
  engine := Engine.Settings.isValid_usual

/-- Settings that are read are valid. -/
theorem isValid_of_ofValue {value : Value} (h : ofValue value = .valid s) : s.IsValid := by
  unfold ofValue readRecord at h
  split at h
  · next record =>
    simp only [ofRecord, Checked.seq_eq_valid_iff, Checked.map_eq_valid_iff] at h
    obtain ⟨_, ⟨_, ⟨_, ⟨_, ⟨_, ⟨_, ⟨_, ⟨_, -, rfl⟩, _, -, rfl⟩, _, -, rfl⟩, _, -, rfl⟩, output,
      houtput, rfl⟩, _, -, rfl⟩, tests, htests, rfl⟩, engine, hengine, rfl⟩ := h
    exact {
      outputDir := of_field isValid_usual.outputDir (fun _ => isNormal_of_readPath) houtput
      testTemplatesDir :=
        of_field isValid_usual.testTemplatesDir (fun _ => isNormal_of_readPath) htests
      engine := of_field isValid_usual.engine (fun _ => Engine.Settings.isValid_of_ofValue) hengine }
  · contradiction

/-- The settings as a value name every field once. -/
theorem nodup_keys_value (s : Settings) : (Mapping.keys s.value).Nodup := by
  have hnames : (["project_name", "author", "description", "license", "output_dir",
      "package_manager", "test_templates_dir", "engine"].map String.toList).Nodup := by
    decide +kernel
  exact hnames

/-- Settings whose engine has short settings are a value that JSON keeps. -/
theorem isPlain_value (h : s.engine.IsShort) : Json.IsPlain (.mapping s.value) := by
  refine .mapping (nodup_keys_value s) ?_
  simp only [value, List.forall_mem_cons]
  exact ⟨.text _, .text _, .text _, .text _, .text _, .text _, .text _, h.isPlain,
    List.forall_mem_nil _⟩

/-- The rules for records allow the value of settings whose engine has short settings. -/
theorem fits_record (h : s.engine.IsShort) : Json.Fits .record (.mapping s.value) := by
  refine .mapping rfl (nodup_keys_value s) ?_
  simp only [value, List.forall_mem_cons]
  exact ⟨.text _ _, .text _ _, .text _ _, .text _ _, .text _ _, .text _ _, .text _ _,
    h.fits rfl rfl, List.forall_mem_nil _⟩

/-- Valid settings are read from their value. -/
theorem IsValid.ofValue_value (h : s.IsValid) : ofValue (.mapping s.value) = .valid s := by
  have hkeys := nodup_keys_value s
  have hname : field s.value ["project_name"] "my-app".toList readText = .valid s.projectName :=
    field_eq_valid hkeys (by simp [value]) (readText_text _)
  have hauthor : field s.value ["author"] [] readText = .valid s.author :=
    field_eq_valid hkeys (by simp [value]) (readText_text _)
  have hdescription : field s.value ["description"] [] readText = .valid s.description :=
    field_eq_valid hkeys (by simp [value]) (readText_text _)
  have hlicense : field s.value ["license"] "MIT".toList readText = .valid s.license :=
    field_eq_valid hkeys (by simp [value]) (readText_text _)
  have houtput : field s.value ["output_dir"] .here readPath = .valid s.outputDir :=
    field_eq_valid hkeys (by simp [value]) (readPath_text h.outputDir)
  have hmanager : field s.value ["package_manager"] .npm (readChoice PackageManager.choices) =
      .valid s.packageManager := field_eq_valid hkeys (by simp [value]) (readChoice_name _)
  have htests : field s.value ["test_templates_dir"] Engine.bundledTestTemplates readPath =
      .valid s.testTemplatesDir :=
    field_eq_valid hkeys (by simp [value]) (readPath_text h.testTemplatesDir)
  have hengine : field s.value ["engine"] {} Engine.Settings.ofValue = .valid s.engine :=
    field_eq_valid hkeys (by simp [value]) h.engine.ofValue_value
  rw [ofValue, readRecord, ofRecord, hname, hauthor, hdescription, hlicense, houtput, hmanager,
    htests, hengine]
  rfl

/-! ### Saving and loading -/

/-- Short settings are saved in a text without carriage returns that is read as their value. -/
theorem exists_saved (h : s.engine.IsShort) :
    ∃ text, s.saved = .ok text ∧ '\r' ∉ text ∧
      Json.readBy .record text = .ok (.mapping s.value) := by
  have hplain := isPlain_value h
  obtain ⟨text, hwrite⟩ := hplain.exists_write? .record 0
  have hblanks : ∀ c ∈ ([] : Text), Json.isSpace c := List.forall_mem_nil _
  have hread := ((fits_record h).readsBack hwrite).readBy_append hblanks
  rw [List.append_nil] at hread
  refine ⟨text, ?_, (hplain.isLegible_write? hwrite).not_mem_return, hread⟩
  unfold saved
  rw [hwrite]

/-- Saving settings is writing the text that they are saved in. -/
theorem save_eq_writeFile {text : Text} (h : s.saved = .ok text) (path : Path) :
    s.save path = FileTree.writeFile path text := by
  rw [save, FileTree.writeFile, h]
  rfl

/-- **Settings that are saved are loaded again.** Valid settings whose numbers have not too many
digits have a text that is read as them, and to save them is to write this text to a file. If that
could be done, the same settings are loaded from the file. -/
theorem load_of_save (hvalid : s.IsValid) (hshort : s.engine.IsShort) :
    ∃ text, s.saved = .ok text ∧ ofSaved text = .valid s ∧
      ∀ path tree, s.save path tree = FileTree.writeFile path text tree ∧
        ∀ after, s.save path tree = (.ok (), after) → load after path = .ok s := by
  obtain ⟨text, hsaved, hreturn, hread⟩ := exists_saved hshort
  have hsettings : ofSaved text = .valid s := by
    rw [ofSaved, hread]
    exact hvalid.ofValue_value
  refine ⟨text, hsaved, hsettings, fun path tree => ⟨?_, fun after hsave => ?_⟩⟩
  · rw [save_eq_writeFile hsaved]
  · rw [save_eq_writeFile hsaved] at hsave
    obtain ⟨_, above, -, hwrite⟩ := Action.bind_eq_ok hsave
    have hfile := FileTree.readText_of_writeText (Action.changing_eq_ok hwrite)
    rw [FileTree.unifyBreaks_eq_self hreturn] at hfile
    simp only [load, hfile, bind, Except.bind, hsettings]
    rfl

/-- Settings with quotes, controls, line breaks of all kinds and characters beyond ASCII, with
unusual paths and a large number, are saved in a new directory and loaded again. -/
theorem load_of_save_of_escapes :
    let s : Settings :=
      { projectName := "\"\\/\t\x01\x7f".toList
        author := "é\r\nü\r😀\n".toList
        outputDir := ⟨.doubleRoot, ["..".toList, "a b".toList]⟩
        packageManager := .bun
        testTemplatesDir := ⟨.root, []⟩
        engine :=
          { templatesDir := .here
            partialsSubdir := "\r".toList
            extension := ".é.x".toList
            maxPartialDepth := 1000000000000000000000000000000
            compileCacheSize := 1
            verbose := true } }
    let path : Path := ⟨.here, ["new".toList, "settings.json".toList]⟩
    s.IsValid ∧ s.engine.IsShort ∧
      ∃ after, s.save path ⟨[], []⟩ = (.ok (), after) ∧ load after path = .ok s := by
  intro s path
  have hvalid : s.IsValid := ⟨by decide, by decide, by decide, by decide +kernel, by decide, by decide⟩
  have hshort : s.engine.IsShort := ⟨by decide +kernel, by decide +kernel⟩
  obtain ⟨text, -, -, hload⟩ := load_of_save hvalid hshort
  obtain ⟨_, after, hsave⟩ : ∃ done after, s.save path ⟨[], []⟩ = (.ok done, after) :=
    Action.exists_of_isOk (by decide +kernel)
  exact ⟨hvalid, hshort, after, hsave, (hload path ⟨[], []⟩).2 after hsave⟩

end Settings

end Stencil
