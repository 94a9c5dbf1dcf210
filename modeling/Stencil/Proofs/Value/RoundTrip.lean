import Stencil.Proofs.Scaffold.PackageText
import Stencil.Proofs.Value.Resolve
import Stencil.Value.Text

/-!
# Values written and read back

The text of a mapping is JSON in ASCII on one line. An assignment of this text stores the mapping
again, with the order of its keys at every level. The same holds for the description of a package,
which is written with one line per entry.
-/

namespace Stencil.Value

variable {m : Mapping Value}

/-- The text of a mapping is ASCII and stands for the mapping. -/
theorem exists_text?_mapping (h : Json.IsPlain (.mapping m)) :
    ∃ text, text? (.mapping m) = some text ∧ Json.IsAscii text ∧
      Assignment.readValue text = .ok (.mapping m) := by
  obtain ⟨text, hwrite⟩ := h.exists_write? .line 0
  have hread := h.read_append hwrite [] (List.forall_mem_nil _)
  rw [List.append_nil] at hread
  refine ⟨text, ?_, h.isAscii_write? rfl hwrite, ?_⟩
  · rw [text?, hwrite]
  · rw [Assignment.readValue, hread]

/-- **Values that JSON keeps are read back from their texts.** The text of a mapping is ASCII, it
stands for the mapping with all keys in order, and an assignment of it stores the mapping. For all
features and every description of a project the text of the package description, which is the one
that is planned, is read as that package description. -/
theorem written_and_read_back :
    (∀ m : Mapping Value, Json.IsPlain (.mapping m) →
      ∃ text, text? (.mapping m) = some text ∧ Json.IsAscii text ∧
        Assignment.readValue text = .ok (.mapping m) ∧
        ∀ left ctx, '=' ∉ left → Assignment.keysOf left ≠ [] →
          let after := Assignment.write ctx (.mapping m) (Assignment.keysOf left)
          Assignment.apply (left ++ '=' :: text) ctx = (.ok (), after) ∧
            Context.walk after (Assignment.keysOf left) = .mapping m) ∧
    ∀ (f : Features) (d : Metadata), ∃ text, Project.packageText f d = .ok text ∧
      Json.read text = .ok (.mapping (PackageJson.build f d)) ∧
      ∀ studio files after, studio.project.features = f → studio.project.metadata = d →
        Studio.plan studio = (.ok files, after) →
          files.get? "package.json".toList = some text := by
  constructor
  · intro m hplain
    obtain ⟨text, htext, hascii, hread⟩ := exists_text?_mapping hplain
    refine ⟨text, htext, hascii, hread, fun left ctx hleft hkeys => ?_⟩
    exact ⟨Assignment.apply_append hleft hkeys hread ctx, Assignment.walk_write ctx _ hkeys⟩
  · intro f d
    obtain ⟨text, htext, hread⟩ := Project.exists_packageText f d
    refine ⟨text, htext, hread, ?_⟩
    rintro studio files after rfl rfl hplan
    obtain ⟨planned, hplanned, hpackage⟩ := Studio.exists_get?_plan hplan
    rw [htext] at hpackage
    rw [hplanned, Except.ok.inj hpackage]

/-- A project without templates and without features. -/
def bareStudio : Studio :=
  ⟨⟨{}, {}, ⟨{}, [], ⟨none, [], [], []⟩, .empty 256⟩, none⟩, ⟨[], []⟩, []⟩

/-- This project is planned. -/
theorem exists_plan_bareStudio : ∃ files after, bareStudio.plan = (.ok files, after) :=
  Studio.exists_plan (by decide +kernel) (by decide +kernel)

/-- A mapping with escapes of all kinds, with a negative integer and with nothing inside lists and
mappings is stored again from its text, and the description of a planned package is read back. -/
theorem written_and_read_back_of_escapes :
    let m : Mapping Value :=
      [("\"\\/\n\x7fé😀".toList, .list [.int (-12), .null, .text [], .list []]),
       ("a".toList, .mapping [("b".toList, .bool true), ("a".toList, .mapping [])])]
    (∃ text, text? (.mapping m) = some text ∧
      Assignment.apply ("a.b=".toList ++ text) [] =
        (.ok (), [("a".toList, .mapping [("b".toList, .mapping m)])])) ∧
    ∃ files after text, bareStudio.plan = (.ok files, after) ∧
      files.get? "package.json".toList = some text ∧
      Json.read text = .ok (.mapping (PackageJson.build {} {})) := by
  intro m
  have hplain : Json.IsPlain (.mapping m) := by
    refine .mapping (by decide +kernel) (List.forall_mem_cons.mpr ⟨.list ?_,
      List.forall_mem_singleton.mpr (.mapping (by decide +kernel) ?_)⟩)
    · simp only [List.forall_mem_cons]
      exact ⟨.int (by decide), .null, .text _, .list (List.forall_mem_nil _),
        List.forall_mem_nil _⟩
    · simp only [List.forall_mem_cons]
      exact ⟨.bool _, .mapping List.nodup_nil (List.forall_mem_nil _), List.forall_mem_nil _⟩
  constructor
  · obtain ⟨text, htext, -, -, hstored⟩ := written_and_read_back.1 m hplain
    have hkeys : Assignment.keysOf "a.b".toList = ["a".toList, "b".toList] := by decide +kernel
    have hsome : Assignment.keysOf "a.b".toList ≠ [] := by
      rw [hkeys]
      exact List.cons_ne_nil _ _
    have happly := (hstored "a.b".toList [] (by decide) hsome).1
    rw [hkeys] at happly
    exact ⟨text, htext, happly⟩
  · obtain ⟨files, after, hplan⟩ := exists_plan_bareStudio
    obtain ⟨text, -, hread, hplanned⟩ := written_and_read_back.2 {} {}
    exact ⟨files, after, text, hplan, hplanned bareStudio files after rfl rfl hplan, hread⟩

end Stencil.Value
