import SpriteScript.Check
import SpriteScript.Proofs.Checking.Declarations

-- What every check starts with: the predeclared names and the bundled packages.
namespace SpriteScript.Check

-- The instances for the parts of a long function are found in one search.
set_option synthInstance.maxSize 1000

variable {w : Stage} {file : FileId}

-- The names that are there from the start have no place.
theorem origin_predeclared : ∀ x ∈ predeclaredSymbols, x.origin = ⟨x.name, x.kind, none, false⟩ := by
  simp [predeclaredSymbols, Symbol.origin]

theorem keeps_declareName {x : Symbol} (hx : x.origin = ⟨x.name, x.kind, none, false⟩) :
    Keeps w file (declareName x) := by
  unfold declareName
  have hstays (id : SymbolId) : Stays w file
      (modifyModel fun m => m.declare m.predeclared x.name ⟨id, 0, false⟩) :=
    .modifyModel (fun m => Model.extends_declare m m.predeclared _ _) fun _ => Model.outline_declare
  refine Keeps.bind_yields (.addSymbol hx fits_unplaced) hstays fun id hid => ?_
  exact .modifyModel (fun m => Model.extends_declare m m.predeclared _ _) (fun _ => Model.outline_declare)
    fun _ hm _ => hm.declare ⟨_, hid, rfl⟩

-- The whole tree of a file in which no variable is set apart.
theorem sits_parse {w : Setting} {text : String} (htext : w.text? file = some text)
    (hvars : w.varIdents file = [])
    (hcalls : w.strict → ∀ u ∈ (Syntax.parse text).tree.nodes, u.isEmptySpread = false) :
    Sits ⟨w, (Syntax.parse text).tree.range⟩ file (Syntax.parse text).tree where
  part := ⟨text, htext, .self _⟩
  inside := Text.ByteRange.includes_self
  apart := by simp [hvars]
  calls := hcalls

theorem declarePackage_eq (p : Prelude.Package) : declarePackage p = (do
    let m ← model
    let scope ← openScope { kind := .package, parent := some m.predeclared }
      fun id m => { m with packages := m.packages ++ [(p.path, id)] }
    within ⟨p.file, scope, none, none, p.path⟩ do
      declareTypeNames p.tree scope
      declareMembers scope none true p.tree.items) := by
  simp only [declarePackage, openScope, bind_assoc, pure_bind]

-- The scope of a package lies in no file, so that there is room for the package.
theorem keeps_declarePackage {p : Prelude.Package} (htree : Sits ⟨w, p.tree.range⟩ p.file p.tree)
    {text : String}
    (htext : w.text? p.file = some text) (hparse : p.tree = (Syntax.parse text).tree) :
    Keeps w file (declarePackage p) := by
  have hitems (item : Tree) (hitem : item ∈ p.tree.items) : ItemSits ⟨w, p.tree.range⟩ p.file item := by
    have hchild := (List.mem_filter.mp hitem).1
    exact { toSits := .child hchild, listed := ⟨text, htext, hparse ▸ hchild⟩ }
  have hnotes (m : Model) : Notes w { kind := .package, parent := some m.predeclared }
      fun id m => { m with packages := m.packages ++ [(p.path, id)] } :=
    ⟨fun _ _ => rfl, fun _ _ => rfl, fun _ _ => rfl, fun _ _ => List.prefix_rfl,
      fun _ _ hfound hnested => hnested.note_package p.path hfound rfl⟩
  rw [declarePackage_eq]
  refine .bind_from (P := fun m outer => m.outline.Encloses outer.predeclared p.file ⟨0, 0⟩) inferInstance
    (fun s hs => ?_) fun m outer hroom => .bind_from
      (P := fun m scope => ∃ x, m.outline.frames[scope.index]? = some x ∧ x.file = none)
      (keeps_openScope rfl rfl rfl (.inl rfl) (Frame.spans_of_none rfl) hroom (hnotes outer))
      (fun s hs =>
        ⟨_, found_openScope (w := { w with base := m }) rfl rfl (.inl rfl) (Frame.spans_of_none rfl)
          hroom (hnotes outer) hs, rfl⟩)
      fun m scope hscope => ?_
  · have hpredeclared : s.model.predeclared = ⟨0⟩ := hs.nested.predeclared
    exact hpredeclared ▸ hs.nested.encloses_root
  · obtain ⟨x, hscope, hfile⟩ := hscope
    have hroom : m.outline.Encloses scope p.file p.tree.range := ⟨x, hscope, Frame.holds_of_none hfile⟩
    refine .within hroom ?_
    exact .bind inferInstance fun _ => keeps_declareMembers_none hitems

section Prelude

def bundledText? : FileId → Option String
  | .bundled index => Prelude.sources[index]?.map (·.2)
  | .source _ => none

-- The setting of the bundled packages alone.
def bundledSetting (origins : List Origin) : Setting where
  text? := bundledText?
  origins
  bundledCount := origins.length
  strict := False
  bundled _ _ _ := le_rfl

variable {origins : List Origin}

theorem exists_source {p : Prelude.Package} (hp : p ∈ Prelude.packages) : ∃ index source,
    p = ⟨.bundled index, source.1, source.2, (Syntax.parse source.2).tree⟩ ∧
      Prelude.sources[index]? = some source := by
  unfold Prelude.packages at hp
  obtain ⟨⟨source, index⟩, hmem, heq⟩ := List.mem_map.mp hp
  have hsource := List.mem_zipIdx_iff_getElem?.mp hmem
  exact ⟨index, source, heq.symm, hsource⟩

theorem exists_text_package {p : Prelude.Package} (hp : p ∈ Prelude.packages) :
    ∃ text, bundledText? p.file = some text ∧ p.tree = (Syntax.parse text).tree := by
  obtain ⟨index, source, hp, hsource⟩ := exists_source hp
  have htree : p.tree = (Syntax.parse source.2).tree := by simp only [hp]
  have hfile : p.file = .bundled index := by simp only [hp]
  refine ⟨source.2, ?_, htree⟩
  rw [hfile]
  exact Option.map_eq_some_iff.mpr ⟨source, hsource, rfl⟩

theorem sits_package (origins : List Origin) {p : Prelude.Package} (hp : p ∈ Prelude.packages) :
    Sits ⟨bundledSetting origins, p.tree.range⟩ p.file p.tree := by
  obtain ⟨text, htext, htree⟩ := exists_text_package hp
  have hvars : (bundledSetting origins).varIdents p.file = [] := by
    obtain ⟨index, source, hp, -⟩ := exists_source hp
    rw [hp]
    rfl
  rw [htree]
  exact sits_parse htext hvars False.elim

-- The universe, with nothing in it.
def bareModel : Model := { scopes := #[{ kind := .predeclared, parent := none }] }

theorem nested_bareModel (texts : FileId → Option String) : bareModel.outline.Nested texts where
  spans index x hx := by
    have hlt : index < 1 := (List.getElem?_eq_some_iff.mp hx).1
    obtain rfl : index = 0 := by omega
    cases hx
    exact nofun
  root := ⟨_, rfl, rfl, rfl⟩
  inner index x hx hne := by
    have hlt : index < 1 := (List.getElem?_eq_some_iff.mp hx).1
    omega
  later index x hx := by
    have hlt : index < 1 := (List.getElem?_eq_some_iff.mp hx).1
    obtain rfl : index = 0 := by omega
    cases hx
    exact nofun
  predeclared := rfl
  packages := nofun
  files := nofun

theorem sane_of_nested {w : Region} {model : Model} {info : Info} (h : model.outline.Nested w.text?) :
    Sane ⟨w, model⟩ default { model, info } where
  context := rfl
  room := h.encloses_root
  nested := h
  base := .refl model
  problems := List.forall_mem_nil _
  specs := List.forall_mem_nil _
  typeDecls := List.forall_mem_nil _
  aliases := List.forall_mem_nil _
  funcs := List.forall_mem_nil _
  crashed _ := rfl

theorem tables_bareModel {w : Setting} : Tables w { model := bareModel } where
  model := {
    origins := nofun
    once := by simp [bareModel, Scope.BindsOnce]
    entries := by simp [bareModel]
    fields := nofun }
  info := {
    defs := by simp
    sites := by simp [Info.sitesOf]
    used := by simp [Info.sitesOf]
    unique := by simp [Info.sitesOf] }

instance {w : Setting} (trees : List Tree) : KeepsRules w (rulesFor trees) := by
  unfold rulesFor
  infer_instance

def bundle : CheckM Unit := do
  declarePredeclared
  Prelude.packages.forM declarePackage
  resolveDeclarations (rulesFor (Prelude.packages.map (·.tree)))

-- What is known of the bundled packages. Their state is not to be looked into: it is large.
theorem exists_bundled :
    ∃ s, (bundle.run {}).2 = s ∧ prelude = { model := s.model, info := s.info } := by
  unfold prelude bundle
  exact ⟨_, rfl, rfl⟩

-- What is done in the universe.
def fillUniverse : CheckM Unit := do
  predeclaredSymbols.forM declareName
  Prelude.packages.forM declarePackage
  resolveDeclarations (rulesFor (Prelude.packages.map (·.tree)))

theorem run_openUniverse (rest : CheckM Unit) : (do
    let scope ← addScope { kind := .predeclared, parent := none }
    modifyModel ({ · with predeclared := scope })
    rest).run {} = rest.run { model := bareModel } := rfl

theorem run_bundle : bundle.run {} = fillUniverse.run { model := bareModel } := by
  rw [← run_openUniverse]
  simp only [bundle, declarePredeclared, fillUniverse, bind_assoc]

theorem keeps_fillUniverse {span : Text.ByteRange} {base : Model} :
    Keeps ⟨⟨bundledSetting origins, span⟩, base⟩ default fillUniverse := by
  unfold fillUniverse
  refine .bind (.forM fun x hx => keeps_declareName (origin_predeclared x hx)) fun _ =>
    .bind (.forM fun p hp => ?_) fun _ => inferInstance
  obtain ⟨text, htext, htree⟩ := exists_text_package hp
  exact keeps_declarePackage (sits_package origins hp) htext htree

theorem keeping_bundle (origins : List Origin) {s : State} (hs : (bundle.run {}).2 = s) :
    Keeping ⟨⟨bundledSetting origins, .empty 0⟩, bareModel⟩ default { model := bareModel } s := by
  rw [← hs, run_bundle]
  exact keeps_fillUniverse.run { model := bareModel }

theorem tables_bundled (h : prelude.model.origins = origins) : Tables (bundledSetting origins) prelude := by
  obtain ⟨s, hs, hprelude⟩ := exists_bundled
  rw [hprelude] at h ⊢
  subst h
  have htables :=
    (keeping_bundle _ hs).tables (sane_of_nested (nested_bareModel _)) tables_bareModel List.prefix_rfl
  exact ⟨htables.model, htables.info⟩

-- No file of a program is known when the bundled packages are checked.
theorem nested_prelude (texts : FileId → Option String) : prelude.model.outline.Nested texts := by
  obtain ⟨s, hs, hprelude⟩ := exists_bundled
  rw [hprelude]
  have hnested := ((keeping_bundle [] hs).sane (sane_of_nested (nested_bareModel _))).nested
  refine { hnested with spans := fun index x hx file hfile hsource => ?_, files := fun entry hentry => ?_ }
  · obtain ⟨text, htext, -⟩ := hnested.spans index x hx file hfile hsource
    cases file with
    | bundled => cases hsource
    | source => cases htext
  · obtain ⟨hsource, text, -, htext, -⟩ := hnested.files entry hentry
    cases hfile : entry.1 with
    | bundled => rw [hfile] at hsource; cases hsource
    | source => rw [hfile] at htext; cases htext

theorem not_stands_bundled {s : Token} (hsource : file.isBundled = false) :
    ¬ Stands (bundledSetting origins) file s := by
  rintro ⟨text, htext, -⟩
  cases file with
  | source index => cases htext
  | bundled => cases hsource

variable {w : Setting}

theorem identsOf_of_isBundled {list : Tree → List Token} (h : file.isBundled = true) :
    w.identsOf list file = [] := by
  cases file with
  | source => cases h
  | bundled => rfl

-- No place of a bundled package is one of a program.
theorem fits_of_bundled {o : Origin} (h : o.Fits (bundledSetting origins))
    (hbundled : ∀ file, file.isBundled = true → w.text? file = none) : o.Fits w := by
  have hfile (site : DefSite) (hsite : o.definedAt = some site) : site.file.isBundled = true := by
    rcases h.known site hsite with hfile | hfile
    · exact hfile
    · cases hsource : site.file with
      | bundled => rfl
      | source index => rw [hsource] at hfile; cases hfile
  refine ⟨fun site hsite => .inl (hfile site hsite), fun site text s hsite htext => ?_, ?_⟩
  · rw [hbundled _ (hfile site hsite)] at htext
    cases htext
  · rw [h.first]
    refine exists_congr fun site => exists_congr fun s => and_congr_right fun hsite => ?_
    rw [Setting.firstVarIdents, Setting.firstVarIdents, identsOf_of_isBundled (hfile site hsite),
      identsOf_of_isBundled (hfile site hsite)]

-- What the bundled packages have they have in every program.
theorem Tables.of_bundled {s : State} (h : Tables (bundledSetting origins) s)
    (horigins : origins <+: w.origins) (hcount : w.bundledCount = origins.length)
    (hbundled : ∀ file, file.isBundled = true → w.text? file = none) : Tables w s := by
  have horigin (id : SymbolId) (o : Origin) (ho : origins[id.index]? = some o) :
      w.origins[id.index]? = some o := by
    obtain ⟨hlt, rfl⟩ := List.getElem?_eq_some_iff.mp ho
    exact List.prefix_iff_getElem?.mp horigins _ hlt
  have hnames (id : SymbolId) (name : String) (h : Names (bundledSetting origins) id name) :
      Names w id name := by
    obtain ⟨o, ho, hname⟩ := h.exists_origin
    exact ⟨o, horigin id o ho, hname⟩
  have hheld (file : FileId) (h : w.Holds file) : file.isBundled = false := by
    refine Bool.eq_false_iff.mpr fun hfile => ?_
    rcases h with h | h
    · exact Bool.false_ne_true (h.symm.trans hfile)
    · rw [hbundled file hfile] at h
      cases h
  obtain ⟨hmodel, hinfo⟩ := h
  refine ⟨⟨fun o ho => fits_of_bundled (hmodel.origins o ho) hbundled, hmodel.once, fun scope hscope x hx =>
    hnames _ _ (hmodel.entries scope hscope x hx), fun n hn f hf => hnames _ _ (hmodel.fields n hn f hf)⟩,
    ⟨fun file range id hdef => ⟨fun hsource => ?_, fun hfile => ?_⟩,
      fun id site hsite => ⟨fun hfile => ?_, fun hfile => ?_⟩, hinfo.used, hinfo.unique⟩⟩
  · obtain ⟨o, ho, hat⟩ := (hinfo.defs file range id hdef).exists_origin hsource
    exact ⟨o, horigin id o ho, hat⟩
  · obtain ⟨s, o, hs, -⟩ := (hinfo.defs file range id hdef).spelled (.inl (hheld file hfile))
    exact absurd hs (not_stands_bundled (hheld file hfile))
  · rw [hcount]
    exact (hinfo.sites id site hsite).bundled hfile
  · obtain ⟨s, hs, -⟩ := (hinfo.sites id site hsite).source (.inl (hheld _ hfile))
    exact absurd hs.toStands (not_stands_bundled (hheld _ hfile))

-- How many symbols the bundled packages have. The number is not to be found out.
@[irreducible] def preludeCount : Nat := prelude.model.origins.length

theorem tables_prelude (horigins : prelude.model.origins <+: w.origins)
    (hcount : w.bundledCount = preludeCount)
    (hbundled : ∀ file, file.isBundled = true → w.text? file = none) : Tables w prelude := by
  unfold preludeCount at hcount
  exact (tables_bundled rfl).of_bundled horigins hcount hbundled

end Prelude

end SpriteScript.Check
