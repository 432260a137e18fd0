import SpriteScript.Proofs.Checking.Program
import SpriteScript.Proofs.Identifiers.Declarations

-- A program is read once, and so are the bundled packages before it.
namespace SpriteScript

-- What the steps of a check look at in a file.
def Tree.fileParts (root : Tree) : List Tree :=
  (root.childrenOf .typeDecl).flatMap typeDeclParts ++
    (root.items.flatMap memberStepParts ++ root.items.flatMap bodyStepParts)

namespace Check

-- The instances for the parts of a long function are found in one search.
set_option synthInstance.maxSize 1000

variable {ground : Ground} {file : FileId} {package : String}

section Ahead

variable {rest : List Part} {s : State} {parts : List Part}

-- Trees of several files, each as the parts that are made of it.
theorem Ahead.below_all {f : Tree → List Tree} (h : Ahead ground file (parts ++ rest) s)
    (hf : ∀ p ∈ parts, Tree.Below (f p.2) [p.2]) :
    Ahead ground file (parts.flatMap (fun p => partsIn p.1 (f p.2)) ++ rest) s := by
  induction parts generalizing rest with
  | nil => exact h
  | cons p others ih =>
      obtain ⟨hp, hothers⟩ := List.forall_mem_cons.mp hf
      have hfirst : Ahead ground file (partsIn p.1 [p.2] ++ (others ++ rest)) s := h
      have hhead := hfirst.below hp
      have hmoved := hhead.next hhead.context
        ((List.perm_append_comm_assoc others (partsIn p.1 (f p.2)) rest).append_right s.putOff).subperm
        rfl hhead.known hhead.valued
      have htail := ih hmoved hothers
      rw [List.flatMap_cons, List.append_assoc]
      exact htail.next htail.context
        ((List.perm_append_comm_assoc (partsIn p.1 (f p.2)) _ rest).append_right s.putOff).subperm rfl
        htail.known htail.valued

theorem partsIn_append (ts us : List Tree) : partsIn file (ts ++ us) = partsIn file ts ++ partsIn file us :=
  List.map_append

-- No two tokens of different files, or of a file, stand at the same place.
theorem nodup_keysOf (hfiles : (parts.map Prod.fst).Nodup)
    (htokens : ∀ p ∈ parts, (p.2.tokens.map rangeOf).Nodup) :
    (keysOf parts).Nodup := by
  refine List.nodup_flatMap.mpr ⟨fun p hp => ?_, ?_⟩
  · have hranges := (htokens p hp).map (f := fun range => (p.1, range)) fun _ _ h => (Prod.mk.inj h).2
    rwa [List.map_map] at hranges
  · refine (List.pairwise_map.mp hfiles).imp fun hne => ?_
    simp only [Function.onFun, List.disjoint_left, List.mem_map]
    rintro _ ⟨s, -, rfl⟩ ⟨s', -, heq⟩
    exact hne (Prod.mk.inj heq).1.symm

theorem nodup_rangeOf_parse (text : String) : ((Syntax.parse text).tree.tokens.map rangeOf).Nodup := by
  rw [Syntax.tokens_parse]
  exact List.pairwise_map.mpr (Token.tokenize_row text).ranges_ne

end Ahead

section Items

variable {r : Rules} [ReadsRules r]

theorem reads_checkFuncBody (decl : Tree) : Reads ground file decl.bodyParts (checkFuncBody r decl) := by
  unfold checkFuncBody
  split
  case h_1 body hbody =>
    refine .after inferInstance fun s => ?_
    extract_lets symbol? signature next results params
    have hnext (u : Unit) : Reads ground file ((decl.block?.map Tree.statements).getD []) (next u) := by
      rw [hbody]
      exact reads_checkStatements _
    have hresults (u : Unit) : Reads ground file
        (((decl.result?.bind Tree.paramList?).map Tree.nameParts).getD [] ++
          (decl.block?.map Tree.statements).getD []) (results u) := by
      unfold results
      split
      case h_1 list hlist =>
        rw [hlist]
        exact .bind (reads_paramIdents list _ _) hnext
      case h_2 => exact (hnext ()).sublist (List.sublist_append_right _ _)
    have hparams (u : Unit) : Reads ground file
        (decl.signatureNames ++ (decl.block?.map Tree.statements).getD []) (params u) := by
      unfold params Tree.signatureNames
      rw [List.append_assoc]
      split
      case h_1 list hlist =>
        rw [hlist]
        exact .bind (reads_paramIdents list _ _) hresults
      case h_2 => exact (hresults ()).sublist (List.sublist_append_right _ _)
    refine Reads.inScope (Reads.returning ?_)
    unfold Tree.bodyParts Tree.receiverName
    cases decl.receiver?.bind (·.child? .param) with
    | none => exact hparams ()
    | some param =>
        dsimp only
        split
        case isTrue =>
          split
          case h_1 ident hident =>
            exact .bind ((reads_declareLocal ident _ _ _ _).below (Tree.below_bind_ident? hident)) hparams
          case h_2 => exact (hparams ()).sublist (List.sublist_append_right _ _)
        case isFalse => exact hparams ()
  case h_2 => exact .of_runs inferInstance

theorem reads_checkItem (item : Tree) : Reads ground file item.bodyStepParts (checkItem r item) := by
  unfold checkItem Tree.bodyStepParts
  cases item.kind? with
  | none => exact reads_statement item
  | some kind =>
      cases kind with
      | funcDecl => exact reads_checkFuncBody item
      | importDecl | varDecl | constDecl | typeDecl => exact .of_runs inferInstance
      | _ => exact reads_statement item

end Items

section Sources

instance (other : FileId) : Runs (Passing ground file) (classOf? other) := by
  unfold classOf?
  infer_instance

instance (unit : ScopeId) (source : Source) :
    Runs (Passing ground file) (declareClass package unit source) := by
  have hclass (id : NamedId) : Runs (Passing ground file) (modify fun st => { st with
      classes := st.classes ++ [(source.file, id)]
      gameClass := if source.isEntry then some id else st.gameClass } : CheckM Unit) :=
    .passing_of_eq (fun _ => rfl) (fun _ => rfl) (fun _ => rfl) (fun _ => rfl) (fun _ => rfl) (fun _ => rfl)
      (fun _ => rfl) (fun _ => List.prefix_rfl) fun _ => rfl
  have hscope (scope : ScopeId) : Runs (Passing ground file) (modifyModel fun m =>
      { m with fileScopes := m.fileScopes ++ [(source.file, scope)] }) :=
    .passing_of_eq (fun _ => rfl) (fun _ => rfl) (fun _ => rfl) (fun _ => rfl) (fun _ => rfl) (fun _ => rfl)
      (fun _ => rfl) (fun _ => List.prefix_rfl) fun _ => rfl
  unfold declareClass
  refine .bind inferInstance fun id => .bind inferInstance fun s =>
    .bind (.modifyNamed fun _ h => h) fun _ => ?_
  infer_instance

instance (owner base : NamedId) : Runs (Passing ground file) (embed owner base) := by
  unfold embed
  refine .bind inferInstance fun m => .bind inferInstance fun id => .modifyNamed fun n hn => ?_
  obtain ⟨name, package, underlying, methods, symbol, classKind⟩ := n
  cases underlying with
  | struct fields => cases hn
  | _ => exact hn

instance (source : Source) : Runs (Passing ground file) (embedBases source) := by
  unfold embedBases
  refine .bind inferInstance fun owner? => ?_
  split
  case h_1 owner =>
    refine .bind inferInstance fun m => ?_
    dsimp only
    have hgame (game? : Option NamedId) : Runs (Passing ground file) (do
        if let some game := (← get).gameClass <|> game? then
          embed owner game) := by
      refine .bind inferInstance fun s => ?_
      split <;> infer_instance
    split
    · split <;> infer_instance
    · split
      · exact .bind inferInstance fun _ => hgame _
      · exact hgame _
  case h_2 => infer_instance

-- What is done within a file looks at parts of that file.
theorem visits_withinSource {source : Source} {ts : List Tree} {body : ScopeId → Option NamedId → CheckM Unit}
    (h : ∀ scope owner?, Reads ground source.file ts (body scope owner?)) :
    Visits ground file (partsIn source.file ts) (withinSource package source body) := by
  unfold withinSource
  refine .after inferInstance fun m => ?_
  split
  · exact .after inferInstance fun fileClass => .within (h _ fileClass)
  · exact (Visits.of_runs (h := inferInstance)).subperm List.nil_subperm

instance : Runs (Passing ground file) openUnit := by
  have hunit (unit : ScopeId) : Runs (Passing ground file) (modifyModel ({ · with unitScope := unit })) :=
    .passing_of_eq (fun _ => rfl) (fun _ => rfl) (fun _ => rfl) (fun _ => rfl) (fun _ => rfl) (fun _ => rfl)
      (fun _ => rfl) (fun _ => List.prefix_rfl) fun _ => rfl
  unfold openUnit
  infer_instance

theorem visits_declareSources (sources : List Source) : Visits ground file
    ((sources.flatMap fun source =>
        partsIn source.file ((source.tree.childrenOf .typeDecl).flatMap Tree.typeDeclParts)) ++
      sources.flatMap fun source => partsIn source.file (source.tree.items.flatMap Tree.memberStepParts))
    (declareSources package sources) := by
  rw [declareSources_eq]
  refine .after inferInstance fun unit => .after (.forM fun source _ => inferInstance) fun _ => ?_
  unfold declareRest
  refine .after (.forM fun source _ => inferInstance) fun _ => .bind (.forM fun source _ => ?_) fun _ =>
    .forM fun source _ => ?_
  · exact visits_withinSource fun _ _ => reads_declareTypeNames source.tree unit
  · exact visits_withinSource fun _ fileClass => reads_declareMembers unit fileClass true source.tree.items

variable {r : Rules} [ReadsRules r]

theorem visits_checkSources (sources : List Source) : Visits ground file
    (sources.flatMap fun source => partsIn source.file (source.tree.items.flatMap Tree.bodyStepParts))
    (checkSources r package sources) := by
  unfold checkSources
  refine .before (.forIn fun source _ _ => ?_) fun _ => inferInstance
  refine .before (visits_withinSource fun _ _ => ?_) fun _ => inferInstance
  exact .forM fun item _ => reads_checkItem item

end Sources

section Whole

variable {sources : List Source}

instance (trees : List Tree) : ReadsRules (rulesFor trees) := by
  unfold rulesFor
  infer_instance

-- The steps of a check look at different parts of the files.
theorem Ahead.steps {rest : List Part} {s : State}
    (hs : Ahead ground file ((sources.map fun source => (source.file, source.tree)) ++ rest) s) :
      Ahead ground file ((((sources.flatMap fun source =>
          partsIn source.file ((source.tree.childrenOf .typeDecl).flatMap Tree.typeDeclParts)) ++
        sources.flatMap fun source => partsIn source.file (source.tree.items.flatMap Tree.memberStepParts)) ++
      sources.flatMap fun source => partsIn source.file
      (source.tree.items.flatMap Tree.bodyStepParts)) ++ rest) s := by
  have hparts := Ahead.below_all (f := Tree.fileParts) hs fun p _ => p.2.below_file
  rw [List.flatMap_map] at hparts
  refine hparts.next hparts.context (((List.Perm.append_right rest ?_).append_right _).subperm) rfl
    hparts.known hparts.valued
  unfold Tree.fileParts
  simp only [partsIn_append]
  rw [List.append_assoc]
  exact ((List.flatMap_append_perm _ _ _).append_left _).trans (List.flatMap_append_perm _ _ _)

-- What the steps of a check look at in the files.
theorem visits_checkWhole (sources : List Source) :
    Visits ground file (sources.map fun source => (source.file, source.tree))
    (checkWhole package sources) := by
  intro rest s hs
  have hsteps : Visits ground file _ (checkWhole package sources) :=
    .bind (visits_declareSources sources) fun _ => .after inferInstance fun _ => visits_checkSources sources
  exact hsteps rest s hs.steps

instance (x : Symbol) : Runs (Passing ground file) (declareName x) := by
  have hdeclare (id : SymbolId) : Runs (Passing ground file)
      (modifyModel fun m => m.declare m.predeclared x.name ⟨id, 0, false⟩) :=
    .passing_of_eq (fun _ => rfl) (fun _ => rfl) (fun _ => rfl) (fun _ => rfl) (fun _ => rfl) (fun _ => rfl)
      (fun _ => rfl) (fun _ => List.prefix_rfl) fun _ => rfl
  unfold declareName
  infer_instance

instance : Runs (Passing ground file) declarePredeclared := by
  have hscope (scope : ScopeId) :
      Runs (Passing ground file) (modifyModel ({ · with predeclared := scope })) :=
    .passing_of_eq (fun _ => rfl) (fun _ => rfl) (fun _ => rfl) (fun _ => rfl) (fun _ => rfl) (fun _ => rfl)
      (fun _ => rfl) (fun _ => List.prefix_rfl) fun _ => rfl
  unfold declarePredeclared
  exact .bind inferInstance fun scope => .bind inferInstance fun _ => .forM fun x _ => inferInstance

theorem visits_declarePackage (p : Prelude.Package) :
    Visits ground file [(p.file, p.tree)] (declarePackage p) := by
  have hscope (scope : ScopeId) : Runs (Passing ground file)
      (modifyModel fun m => { m with packages := m.packages ++ [(p.path, scope)] }) :=
    .passing_of_eq (fun _ => rfl) (fun _ => rfl) (fun _ => rfl) (fun _ => rfl) (fun _ => rfl) (fun _ => rfl)
      (fun _ => rfl) (fun _ => List.prefix_rfl) fun _ => rfl
  unfold declarePackage
  refine .after inferInstance fun m => .after inferInstance fun scope => .after inferInstance fun _ => ?_
  change Visits ground file (partsIn p.file [p.tree]) _
  refine .within ?_
  have hbelow : Tree.Below ((p.tree.childrenOf .typeDecl).flatMap Tree.typeDeclParts ++
      p.tree.items.flatMap Tree.memberStepParts) [p.tree] :=
    (Tree.Below.of_sublist ((List.sublist_append_left _ _).append_left _)).trans p.tree.below_file
  exact Reads.below (.bind (reads_declareTypeNames p.tree scope) fun _ =>
    reads_declareMembers scope none true _) hbelow

theorem visits_bundle : Visits ground file (Prelude.packages.map fun p => (p.file, p.tree)) bundle := by
  unfold bundle
  refine .after inferInstance fun _ => ?_
  have hpackages : Visits ground file _ (Prelude.packages.forM declarePackage) :=
    .forM fun p _ => visits_declarePackage p
  rw [← List.map_eq_flatMap] at hpackages
  exact hpackages.before fun _ => inferInstance

-- Files are ahead as a whole when nothing was found in them.
theorem ahead_of_parse {parts : List Part} {s : State} (hfiles : (parts.map Prod.fst).Nodup)
    (htexts : ∀ p ∈ parts, ∃ text, ground.texts p.1 = some text ∧ p.2 = (Syntax.parse text).tree)
    (hputOff : s.putOff = []) (hnew : ∀ p ∈ parts, ∀ range, ¬ s.info.Notes (p.1, range))
    (honce : s.info.Once ground) (hknown : s.Known) (hvalued : Valued ground s) :
    Ahead ground s.context.file parts s := by
  have hparts : parts ++ s.putOff = parts := by rw [hputOff, List.append_nil]
  refine ⟨rfl, ?_, ?_, ?_, honce, hknown, hvalued⟩
  · rw [hparts]
    intro p hp
    obtain ⟨text, htext, htree⟩ := htexts p hp
    refine ⟨text, htext, ?_⟩
    rw [htree]
    exact ⟨Syntax.liesIn_parse text, fun _ hs => Syntax.tokens_parse text ▸ hs, Syntax.tidy_parse text⟩
  · rw [hparts]
    refine nodup_keysOf hfiles fun p hp => ?_
    obtain ⟨text, -, htree⟩ := htexts p hp
    rw [htree]
    exact nodup_rangeOf_parse text
  · rw [hparts]
    intro key hkey
    obtain ⟨p, hp, hkey⟩ := List.mem_flatMap.mp hkey
    obtain ⟨s, -, rfl⟩ := List.mem_map.mp hkey
    exact hnew p hp _

-- The bundled packages are read from their own texts.
def bundledGround : Ground := ⟨bundledText?, {}, []⟩

theorem nodup_packages : ((Prelude.packages.map fun p => (p.file, p.tree)).map Prod.fst).Nodup := by
  have hfiles (l : List (String × String)) : ((l.zipIdx.map fun p =>
      (⟨.bundled p.2, p.1.1, p.1.2, (Syntax.parse p.1.2).tree⟩ : Prelude.Package)).map fun p =>
        (p.file, p.tree)).map Prod.fst = (l.zipIdx.map Prod.snd).map FileId.bundled := by
    simp only [List.map_map]
    rfl
  refine (congrArg List.Nodup (hfiles Prelude.sources)).mpr
    (List.Nodup.map (fun _ _ => FileId.bundled.inj) ?_)
  rw [List.zipIdx_map_snd]
  exact List.nodup_range'

theorem once_empty (texts : FileId → Option String) : ({} : Info).Once ⟨texts, {}, []⟩ where
  sites := by simp [Info.sitesOf]
  nodup := by simp [Info.sitesOf]
  apart := by simp
  kept _ _ := ⟨rfl, rfl⟩

-- Nothing is known of symbols yet.
theorem valued_of_specs {texts : FileId → Option String} {before : Info} {s : State} (hspecs : s.specs = #[])
    (hnamed : s.info.Named s.model) : Valued ⟨texts, before, []⟩ s := by
  refine ⟨List.forall_mem_nil _, hnamed, ?_, ?_, ?_⟩ <;> rw [hspecs]
  · exact .nil
  · exact List.forall_mem_nil _
  · exact List.forall_mem_nil _

-- What was found is left as it is when other files are read.
structure Consistent (ground : Ground) (i : Info) (m : Model) : Prop where
  once : i.Once ground
  named : i.Named m

-- The files are read from a state in which nothing was put off.
theorem consistent_of_run {parts : List Part} {a : CheckM Unit} {s s' : State}
    (ha : Visits ground s.context.file parts a) (hs' : (a.run s).2 = s')
    (hstart : Ahead ground s.context.file parts s) :
    Consistent ground s'.info s'.model := by
  have hend := ha [] s (by rwa [List.append_nil])
  rw [hs'] at hend
  exact ⟨hend.once, hend.valued.named⟩

theorem once_of_before {texts : FileId → Option String} {i : Info} (h : i.Once ground) :
    i.Once ⟨texts, i, []⟩ :=
  ⟨h.sites, h.nodup, h.apart, fun _ _ => ⟨rfl, rfl⟩⟩

theorem consistent_prelude : Consistent bundledGround prelude.info prelude.model := by
  obtain ⟨s, hs, hprelude⟩ := exists_bundled
  have hstart : Ahead bundledGround default (Prelude.packages.map fun p => (p.file, p.tree)) {} := by
    refine ahead_of_parse (s := {}) nodup_packages (fun p hp => ?_) rfl (fun p hp range => ?_) (once_empty _)
      (fun _ h => nomatch h) (valued_of_specs rfl fun key tv text h => ?_)
    · obtain ⟨package, hpackage, rfl⟩ := List.mem_map.mp hp
      exact exists_text_package hpackage
    · simp [Info.Notes]
    · simp at h
  have hend : Consistent bundledGround s.info s.model := consistent_of_run (s := {}) visits_bundle hs hstart
  rw [hprelude]
  exact hend

-- The bundled packages note nothing in the files of a program.
theorem not_notes_prelude {range : Text.ByteRange} {file : FileId} (h : file.isBundled = false) :
    ¬ prelude.info.Notes (file, range) := by
  have hnone : bundledGround.texts file = none := by
    cases file with
    | source => rfl
    | bundled => cases h
  obtain ⟨huses, hdefs⟩ := consistent_prelude.once.kept (file, range) hnone
  rw [Info.Notes, Std.HashMap.contains_eq_isSome_getElem?, Std.HashMap.contains_eq_isSome_getElem?,
    huses, hdefs]
  simp [bundledGround]

section Files

variable {texts : FileId → Option String} (hfiles : (sources.map Source.file).Nodup)
variable (htexts : ∀ source ∈ sources, ∃ text, texts source.file = some text ∧
  source.tree = (Syntax.parse text).tree)
variable (hsources : ∀ source ∈ sources, source.file.isBundled = false)

include hfiles htexts hsources

-- The files of a program are ahead when the bundled packages were checked.
theorem ahead_prelude : Ahead ⟨texts, prelude.info, []⟩ prelude.context.file
    (sources.map fun source => (source.file, source.tree)) prelude := by
  obtain ⟨b, -, hprelude⟩ := exists_bundled
  have hputOff : prelude.putOff = [] := by
    rw [hprelude]
    rfl
  have hknown : prelude.Known := by
    rw [hprelude]
    exact fun _ h => nomatch h
  have hspecs : prelude.specs = #[] := by rw [hprelude]
  refine ahead_of_parse ?_ (fun p hp => ?_) hputOff (fun p hp range => ?_)
    (once_of_before consistent_prelude.once)
    hknown (valued_of_specs hspecs consistent_prelude.named)
  · rwa [List.map_map]
  · obtain ⟨source, hsource, rfl⟩ := List.mem_map.mp hp
    exact htexts source hsource
  · obtain ⟨source, hsource, rfl⟩ := List.mem_map.mp hp
    exact not_notes_prelude (hsources source hsource)

-- The files of a program are read once, and nothing changes in the bundled packages.
theorem consistent_checkProgram :
    Consistent ⟨texts, prelude.info, []⟩
    (checkProgram package sources).info (checkProgram package sources).model := by
  obtain ⟨s, hs, hchecked⟩ := exists_checked package sources
  have hend : Consistent ⟨texts, prelude.info, []⟩ s.info s.model :=
    consistent_of_run (visits_checkWhole sources) hs (ahead_prelude hfiles htexts hsources)
  rw [hchecked]
  exact hend

end Files

end Whole

end Check

end SpriteScript
