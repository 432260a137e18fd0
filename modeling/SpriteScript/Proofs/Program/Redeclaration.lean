import SpriteScript.Proofs.Checking.Redeclaration
import SpriteScript.Proofs.Program.Phases

-- Who declares a name again is told so.
namespace SpriteScript.Program

variable {config : Config} {assets : AssetReader} {inputs : List (String × String)} {p : Program}

def checkedFiles (p : Program) : List SourceFile := p.files.toList.filter (!·.excluded)

-- What is declared in the scope of a program: classes, each of which may have several files, then
-- types, and then variables and constants.
def unitNames (p : Program) : List String :=
  (p.checkedFiles.map (·.className)).dedup ++
    (p.checkedFiles.flatMap (·.tree.typeNames) ++ p.checkedFiles.flatMap (·.tree.valueNames))

-- Some report says what the problem says.
def Says (p : Program) (problem : Problem) : Prop :=
  ∃ d ∈ p.diagnostics, d.severity = problem.severity ∧ d.message = problem.message

theorem says_of_checked (h : compile config assets inputs false = .ok p)
    {x : FileId × Text.ByteRange × Problem}
    (hx : x ∈ (Check.checkProgram p.config.package (Parsed.mk p.files {}).sources).problems) :
    p.Says x.2.2 := by
  obtain ⟨r, hdiagnostics, hr⟩ := exists_reported h
  have hreported : x.2.2.diagnostic x.1 x.2.1 ∈ p.reported assets .types := List.mem_map_of_mem hx
  obtain ⟨d, hd, hidentity⟩ := Report.exists_mem_addAll Report.faithful_empty
    (List.mem_append_right
      (p.files.toList.flatMap fun f => faultReports f.file f.text ++ packageReports p.config f.file f.text)
      (List.mem_append_left (p.reported assets .resources) (List.mem_append_left (p.reported assets .assets)
        (List.mem_append_left (p.reported assets .assetRoot) hreported))))
  refine ⟨d, ?_, congrArg (·.2.1) hidentity, congrArg (·.2.2.2) hidentity⟩
  rw [hdiagnostics, Report.mem_byFile, hr]
  exact hd

-- What a program is checked against in the end.
theorem hosts_of_compile (h : compile config assets inputs false = .ok p) :
    ∃ w, Check.Hosts w p.config.package (Parsed.mk p.files {}).sources := by
  obtain ⟨hconfig, hfiles⟩ := files_of_compile h
  rw [hconfig, hfiles]
  exact ⟨_, (Parsed.fits_parseFiles config inputs).hosts rfl⟩

-- What is not told: that a class has several files, and that a field is called what a method is called.
theorem redeclarations_reported (h : compile config assets inputs false = .ok p) :
    (∀ name, 2 ≤ p.unitNames.count name → p.Says (.redeclared name)) ∧
    ∀ f ∈ p.checkedFiles, ∀ name,
      (2 ≤ f.tree.fieldNames.count name → p.Says (.duplicateField name)) ∧
      (2 ≤ f.tree.methodNames.count name → p.Says (.duplicateMethod name)) := by
  obtain ⟨w, hosts⟩ := hosts_of_compile h
  have hnot (source : Check.Source) (hsource : source ∈ (Parsed.mk p.files {}).sources) :
      source.file.isBundled = false :=
    (hosts.fits source hsource).notBundled
  obtain ⟨declared, hdeclared⟩ : ∃ declared, declared =
    ((Check.declareSources p.config.package (Parsed.mk p.files {}).sources).run Check.prelude).2 := ⟨_, rfl⟩
  have hsays (problem : Problem) (hreports : declared.Reports problem) : p.Says problem := by
    rw [hdeclared] at hreports
    obtain ⟨x, hx, rfl⟩ := Check.reported_checkProgram hosts hreports
    exact says_of_checked h hx
  have hsound : Check.prelude.Sound := fun _ h => nomatch h
  obtain ⟨unit, hunit, hclasses⟩ := Check.warned_declareSources hnot hsound
  rw [← hdeclared] at hunit hclasses
  refine ⟨fun name hname => hsays _ (hunit.reported name ?_), fun f hf name => ?_⟩
  · simpa [unitNames, checkedFiles, Parsed.sources, List.flatMap_map, Function.comp_def] using hname
  · obtain ⟨owner, hfields, hmethods⟩ := hclasses _ (List.mem_map_of_mem hf)
    exact ⟨fun hname => hsays _ (hfields.reported name hname),
      fun hname => hsays _ (hmethods.reported name hname)⟩

end SpriteScript.Program
