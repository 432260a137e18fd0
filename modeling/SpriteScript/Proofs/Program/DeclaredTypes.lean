import SpriteScript.Proofs.Identifiers.Aliases
import SpriteScript.Proofs.Program.Files

-- It is known of every declared type of a checked program what it stands for. Types that are
-- declared with each other in a circle are reported. Aliases stand for the types that they name,
-- but for later aliases.
namespace SpriteScript

open Relation

namespace Check

variable {package : String} {sources : List Source}

-- What is left when the types were resolved.
def checkRest (package : String) (sources : List Source) : CheckM Unit := do
  resolveOthers (rulesFor (sources.map (·.tree)))
  checkSources (rulesFor (sources.map (·.tree))) package sources

theorem checkWhole_eq (package : String) (sources : List Source) : checkWhole package sources = (do
    declareSources package sources
    resolveTypes
    checkRest package sources) := by
  simp only [checkWhole, checkRest, resolveDeclarations_eq, bind_assoc]

instance : Runs (Unreported Problem.IsRecursion) (checkRest package sources) := by
  unfold checkRest
  infer_instance

theorem visits_checkRest {ground : Ground} {file : FileId} (package : String) (sources : List Source) :
    Visits ground file
    (sources.flatMap fun source => partsIn source.file (source.tree.items.flatMap Tree.bodyStepParts))
    (checkRest package sources) :=
  .after inferInstance fun _ => visits_checkSources sources

theorem reportsRecursion_checkWhole {ground : Ground} {start s : State} (hopens : OpensTypes [] start)
    (hsources : ∀ source ∈ sources, source.file.isBundled = false)
    (hstart : Ahead ground start.context.file (sources.map fun source => (source.file, source.tree)) start)
    (hs : ((checkWhole package sources).run start).2 = s) : s.ReportsRecursion ↔
      ∃ d, TransGen (BuildsOn (sources.flatMap fun source => partsIn source.file source.tree.openTypes)
        s.info) d d := by
  obtain ⟨declared, hdeclared⟩ :
      ∃ declared, declared = ((declareSources package sources).run start).2 := ⟨_, rfl⟩
  have hsteps : Ahead ground start.context.file (_ ++ []) start := Ahead.steps (by rwa [List.append_nil])
  rw [List.append_nil] at hsteps
  have hopened : OpensTypes _ declared := hdeclared ▸ opensTypes_declareSources hsteps hopens
  have hahead : Ahead ground start.context.file _ declared :=
    hdeclared ▸ visits_declareSources sources _ start hsteps
  have hbundled : ∀ p ∈ sources.flatMap fun source => partsIn source.file source.tree.openTypes,
      p.1.isBundled = false := by
    intro p hp
    obtain ⟨source, hsource, hp⟩ := List.mem_flatMap.mp hp
    obtain ⟨t, -, rfl⟩ := List.mem_map.mp hp
    exact hsources source hsource
  refine hopened.reportsRecursion_iff hbundled hahead (fun _ => visits_checkRest package sources) ?_
  rw [← hs, checkWhole_eq, hdeclared]
  rfl

-- A check reports recursion just where the declarations of types lead back to themselves.
theorem recursion_checkProgram (package : String) {texts : FileId → Option String}
    (hfiles : (sources.map Source.file).Nodup)
    (htexts : ∀ source ∈ sources, ∃ text, texts source.file = some text ∧
      source.tree = (Syntax.parse text).tree)
    (hsources : ∀ source ∈ sources, source.file.isBundled = false) :
    (∃ x ∈ (checkProgram package sources).problems, ∃ name, x.2.2 = .recursiveType name) ↔
      ∃ d, TransGen (BuildsOn (sources.flatMap fun source => partsIn source.file source.tree.openTypes)
        (checkProgram package sources).info) d d := by
  obtain ⟨s, hs, hchecked⟩ := exists_checked package sources
  have hreports :=
    reportsRecursion_checkWhole opensTypes_prelude hsources (ahead_prelude hfiles htexts hsources) hs
  rw [hchecked]
  refine Iff.trans ?_ hreports
  simp only [State.ReportsRecursion, State.Reports, List.mem_filter, List.mem_reverse, Bool.not_eq_true']
  constructor
  · rintro ⟨x, ⟨hx, hfile⟩, name, hname⟩
    exact ⟨name, x, hx, hfile, hname⟩
  · rintro ⟨name, x, hx, hfile, hname⟩
    exact ⟨x, ⟨hx, hfile⟩, name, hname⟩

section Aliases

-- What is left when aliases and functions have their types.
def checkValues (package : String) (sources : List Source) : CheckM Unit := do
  resolveSpecs (rulesFor (sources.map (·.tree)))
  checkSources (rulesFor (sources.map (·.tree))) package sources

theorem checkRest_eq (package : String) (sources : List Source) : checkRest package sources = (do
    resolveAliases
    resolveFuncs
    checkValues package sources) := by
  simp only [checkRest, checkValues, resolveOthers_eq, resolveSignatures, bind_assoc]

instance : Runs (Naming fun _ => True) (checkValues package sources) := by
  unfold checkValues
  infer_instance

theorem visits_checkValues {ground : Ground} {file : FileId} (package : String)
    (sources : List Source) : Visits ground file
    (sources.flatMap fun source => partsIn source.file (source.tree.items.flatMap Tree.bodyStepParts))
    (checkValues package sources) :=
  .after inferInstance fun _ => visits_checkSources sources

theorem aliasSettled_checkWhole {ground : Ground} {start s : State} (hopens : OpensAliases [] start)
    (hsources : ∀ source ∈ sources, source.file.isBundled = false)
    (hstart : Ahead ground start.context.file (sources.map fun source => (source.file, source.tree)) start)
    (hs : ((checkWhole package sources).run start).2 = s) {p : Part} {later : List Part}
    (hsuffix : p :: later <:+ sources.flatMap fun source => partsIn source.file source.tree.aliases) :
    ∃ a, AliasSettled s.model s.info p (p :: later) a := by
  obtain ⟨declared, hdeclared⟩ :
      ∃ declared, declared = ((declareSources package sources).run start).2 := ⟨_, rfl⟩
  have hsteps : Ahead ground start.context.file (_ ++ []) start := Ahead.steps (by rwa [List.append_nil])
  rw [List.append_nil] at hsteps
  have hopened : OpensAliases _ declared := hdeclared ▸ opensAliases_declareSources hsources hsteps hopens
  have hahead : Ahead ground start.context.file _ declared :=
    hdeclared ▸ visits_declareSources sources _ start hsteps
  refine hopened.settled hahead (fun _ => visits_checkValues package sources) ?_ hsuffix
  rw [← hs, checkWhole_eq, checkRest_eq, hdeclared]
  rfl

theorem aliasSettled_checkProgram (package : String) {texts : FileId → Option String}
    (hfiles : (sources.map Source.file).Nodup)
    (htexts : ∀ source ∈ sources, ∃ text, texts source.file = some text ∧
      source.tree = (Syntax.parse text).tree)
    (hsources : ∀ source ∈ sources, source.file.isBundled = false) {p : Part} {later : List Part}
    (hsuffix : p :: later <:+ sources.flatMap fun source => partsIn source.file source.tree.aliases) :
    ∃ a, AliasSettled (checkProgram package sources).model (checkProgram package sources).info p
    (p :: later) a := by
  obtain ⟨s, hs, hchecked⟩ := exists_checked package sources
  rw [hchecked]
  exact aliasSettled_checkWhole opensAliases_prelude hsources (ahead_prelude hfiles htexts hsources)
    hs hsuffix

end Aliases

end Check

namespace Program

-- How the declared types of a program come out.
structure TypesSettled (q : Parsed) (result : Check.Result) : Prop where
  known : ∀ id : NamedId, id.index < result.model.named.size →
    (result.model.namedType id).underlying ≠ .pending
  flat : ∀ (id : NamedId) (ty : Ty), (result.model.namedType id).underlying = .type ty → ty.named? = none
  underlying : ∀ ty, result.model.underlying ty = result.model.standsFor ty
  bound : ∀ fuel ty, Model.underlying.go result.model (fuel + 2) ty = result.model.underlying ty
  idempotent : ∀ ty, result.model.underlying (result.model.underlying ty) = result.model.underlying ty
  recursion : (∃ x ∈ result.problems, ∃ name, x.2.2 = .recursiveType name) ↔
    ∃ d, TransGen (Check.BuildsOn (q.sources.flatMap fun source =>
      Check.partsIn source.file source.tree.openTypes) result.info) d d

theorem types_settled (config : Config) (inputs : List (String × String)) :
    TypesSettled (parseFiles config inputs)
    (Check.checkProgram config.package (parseFiles config inputs).sources) := by
  obtain ⟨q, hq⟩ : ∃ q, parseFiles config inputs = q := ⟨_, rfl⟩
  obtain ⟨result, hresult⟩ : ∃ result, Check.checkProgram config.package q.sources = result := ⟨_, rfl⟩
  have hfits := hq ▸ Parsed.fits_parseFiles config inputs
  have hsettled := Check.settled_checkProgram config.package q.sources
  have hrecursion := Check.recursion_checkProgram config.package hfits.nodup_sources
    (hfits.text_of_mem_sources [] True) hfits.isBundled_of_mem_sources
  rw [hq, hresult] at *
  refine ⟨fun id hid hpending => hsettled.known id ⟨hid, ?_⟩, hsettled.flat,
    Model.underlying_of_flat hsettled.flat, fun fuel ty => ?_, fun ty => ?_, hrecursion⟩
  · rw [NamedType.isPending, hpending]
  · rw [Model.go_of_flat hsettled.flat, Model.underlying_of_flat hsettled.flat]
  · rw [Model.underlying_of_flat hsettled.flat, Model.underlying_of_flat hsettled.flat,
      Model.standsFor_standsFor hsettled.flat]

-- The aliases of a program, in the order in which they are declared, have the types of what they name.
theorem aliases_settled (config : Config) (inputs : List (String × String)) {p : Check.Part}
    {later : List Check.Part}
    (hsuffix : p :: later <:+ (parseFiles config inputs).sources.flatMap fun source =>
      Check.partsIn source.file source.tree.aliases) :
    ∃ a, Check.AliasSettled (Check.checkProgram config.package (parseFiles config inputs).sources).model
      (Check.checkProgram config.package (parseFiles config inputs).sources).info p (p :: later) a :=
  have hfits := Parsed.fits_parseFiles config inputs
  Check.aliasSettled_checkProgram config.package hfits.nodup_sources (hfits.text_of_mem_sources [] True)
    hfits.isBundled_of_mem_sources hsuffix

end Program

end SpriteScript
