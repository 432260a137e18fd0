import SpriteScript.Proofs.Identifiers.OpenTypes
import SpriteScript.Proofs.Initialization.Search

-- Which specifications are open when everything is declared: all of them, each with the symbols of its names.
namespace SpriteScript

-- The specifications of an item of a file.
def Tree.itemSpecs (item : Tree) : List Tree :=
  match item.kind? with
  | some .varDecl | some .constDecl => item.specs
  | _ => []

-- The specifications of variables, constants and fields at package level.
def Tree.openSpecs (root : Tree) : List Tree := root.items.flatMap itemSpecs

namespace Tree

-- A tree is no deeper than it has nodes.
theorem height_le_nodeCount : (t : Tree) → t.height ≤ t.nodeCount
  | token _ => le_rfl
  | node _ _ children => Nat.succ_le_succ (heightOfAll_le children)
where
  heightOfAll_le : (ts : List Tree) → height.heightOfAll ts ≤ nodeCount.countOfAll ts
    | [] => le_rfl
    | t :: rest =>
        max_le (t.height_le_nodeCount.trans (Nat.le_add_right _ _))
        ((heightOfAll_le rest).trans (Nat.le_add_left _ _))

theorem countOfAll_eq (ts : List Tree) : nodeCount.countOfAll ts = (ts.map nodeCount).sum := by
  induction ts with
  | nil => rfl
  | cons t rest ih => rw [nodeCount.countOfAll, ih, List.map_cons, List.sum_cons]

theorem sum_nodeCount_childrenWith (t : Tree) (p : NodeKind → Bool) :
    ((t.childrenWith p).map nodeCount).sum ≤ t.nodeCount := by
  cases t with
  | token s => exact le_rfl
  | node kind offset children =>
      rw [nodeCount, countOfAll_eq]
      have hsublist :
          (((node kind offset children).childrenWith p).map nodeCount).Sublist (children.map nodeCount) :=
        List.filter_sublist.map nodeCount
      exact (hsublist.sum_le_sum fun _ _ => Nat.zero_le _).trans (Nat.le_succ _)

-- Nor are all specifications together, since they stand beside each other.
theorem sum_height_openSpecs (root : Tree) : (root.openSpecs.map height).sum ≤ root.nodeCount := by
  have hitem (item : Tree) : (item.itemSpecs.map height).sum ≤ item.nodeCount := by
    have hspecs : (item.specs.map height).sum ≤ item.nodeCount :=
      (List.sum_le_sum fun spec _ => spec.height_le_nodeCount).trans (item.sum_nodeCount_childrenWith _)
    unfold itemSpecs
    split
    · exact hspecs
    · exact hspecs
    · exact Nat.zero_le _
  rw [openSpecs, List.map_flatMap, List.flatMap_def, List.sum_flatten, List.map_map]
  exact (List.sum_le_sum fun item _ => hitem item).trans (root.sum_nodeCount_childrenWith _)

end Tree

namespace Check

-- The symbols of the specification are those that its names declare.
def PendingSpec.Named (i : Info) (p : PendingSpec) : Prop :=
  List.Forall₂ (fun ident x => i.defs[(p.context.file, rangeOf ident)]? = some x)
    (p.spec.names.filterMap Tree.ident?) p.symbols

-- The specifications that were put off are those of the parts, and each is found by its symbols.
structure OpensSpecs (parts : List Part) (s : State) : Prop where
  parts : s.specParts = parts
  untouched : ∀ p ∈ s.specs.toList, p.progress = .untouched
  named : ∀ p ∈ s.specs.toList, p.Named s.info
  linked : ∀ (x : SymbolId) (index : Nat), s.specOf[x]? = some index ↔ ∃ p, s.specs[index]? = some p ∧
    x ∈ p.symbols
  silent : ¬ s.ReportsInitCycle

variable {ground : Ground} {file : FileId} {sources : List Source} {source : Source} {package : String}
variable {fileClass : Option NamedId}
variable {s s' : State} {parts new rest : List Part} {item spec : Tree} {scope : ScopeId}
variable {isConst first : Bool} {i : Info} {α : Type}
variable {declareOne : Token → CheckM SymbolId}

section Moves

instance : DeclaresTypes Calm := { (inferInstance : Routine Calm) with
  scopes := fun _ _ _ _ => calm_of_eq rfl rfl rfl
  modifyNamed := fun _ _ _ _ => calm_of_eq rfl rfl rfl
  unnamed := fun _ _ _ => calm_of_eq rfl rfl rfl
  openClass := fun _ _ _ _ => ⟨fun _ => calm_of_eq rfl rfl rfl⟩
  aliases := fun _ _ => calm_of_eq rfl rfl rfl
  openType := fun _ _ _ _ => ⟨fun _ => calm_of_eq rfl rfl rfl⟩ }

instance : DeclaresFuncs Calm where
  funcs _ _ := calm_of_eq rfl rfl rfl

instance : Fills Calm fileClass where
  fill _ _ _ _ _ := calm_of_eq rfl rfl rfl

theorem placeless_opensSpecs : Placeless OpensSpecs :=
  fun _ _ _ h => ⟨h.parts, h.untouched, h.named, h.linked, h.silent⟩

-- No specification of the bundled packages is open.
theorem opensSpecs_prelude : OpensSpecs [] prelude := by
  obtain ⟨b, -, hprelude⟩ := exists_bundled
  rw [hprelude]
  refine ⟨rfl, List.forall_mem_nil _, List.forall_mem_nil _, fun x index => ?_,
    fun ⟨_, _, hx, _⟩ => nomatch hx⟩
  simp

theorem PendingSpec.Named.mono {p : PendingSpec} (h : p.Named s.info) (hkeeps : s.info.Keeps i) : p.Named i :=
  List.Forall₂.imp (fun _ x hx => hkeeps.defs _ x hx) h

theorem OpensSpecs.next (h : OpensSpecs parts s) (hcalm : Calm s s') (hkeeps : s.info.Keeps s'.info) :
    OpensSpecs parts s' where
  parts := hcalm.progressing.specParts.trans h.parts
  untouched := hcalm.specs ▸ h.untouched
  named p hp := (h.named p (hcalm.specs ▸ hp)).mono hkeeps
  linked := by
    rw [hcalm.specs, hcalm.specOf]
    exact h.linked
  silent := mt hcalm.unreported.reportsInitCycle.mp h.silent

theorem getElem?_foldl_insert {symbols : List SymbolId} {index : Nat} {table : Std.HashMap SymbolId Nat}
    {x : SymbolId} :
    (symbols.foldl (fun table id => table.insert id index) table)[x]? = if x ∈ symbols then some index
    else table[x]? := by
  induction symbols generalizing table with
  | nil => rfl
  | cons y others ih =>
      rw [List.foldl_cons, ih, Std.HashMap.getElem?_insert]
      simp only [beq_iff_eq, List.mem_cons, @eq_comm _ y x]
      split <;> simp_all

-- A specification of new symbols is put off.
theorem OpensSpecs.push {symbols : List SymbolId} (h : OpensSpecs parts s) (hcontext : s.context.file = file)
    (hnamed : List.Forall₂ (fun ident x => s.info.defs[(file, rangeOf ident)]? = some x)
      (spec.names.filterMap Tree.ident?) symbols)
    (hnew : ∀ q ∈ s.specs.toList, ∀ x ∈ q.symbols, x ∉ symbols) :
    OpensSpecs (parts ++ [(file, spec)]) ((pushSpec spec symbols isConst).run s).2 := by
  subst hcontext
  have hmem {p : PendingSpec}
      (hp : p ∈ (s.specs.push ⟨s.context, spec, symbols, isConst, .untouched⟩).toList) :
      p ∈ s.specs.toList ∨ p = ⟨s.context, spec, symbols, isConst, .untouched⟩ := by
    rwa [Array.toList_push, List.mem_append, List.mem_singleton] at hp
  refine ⟨?_, fun p hp => ?_, fun p hp => ?_, fun x index => ?_, h.silent⟩
  · rw [← h.parts]
    change (s.specs.push _).toList.map PendingSpec.part = _
    rw [Array.toList_push, List.map_append]
    rfl
  · rcases hmem hp with hp | rfl
    · exact h.untouched p hp
    · rfl
  · rcases hmem hp with hp | rfl
    · exact h.named p hp
    · exact hnamed
  · change (symbols.foldl (fun table id => table.insert id s.specs.size) s.specOf)[x]? = some index ↔
      ∃ p, (s.specs.push _)[index]? = some p ∧ x ∈ p.symbols
    rw [getElem?_foldl_insert]
    split
    case isTrue hx =>
      constructor
      · intro hindex
        obtain rfl := Option.some.inj hindex
        exact ⟨_, Array.getElem?_push_size, hx⟩
      · rintro ⟨p, hp, hxp⟩
        rw [Array.getElem?_push] at hp
        split at hp
        case isTrue heq => rw [heq]
        case isFalse => exact absurd hx (hnew p (Array.mem_toList_iff.mpr (Array.mem_of_getElem? hp)) x hxp)
    case isFalse hx =>
      rw [h.linked]
      constructor
      · rintro ⟨p, hp, hxp⟩
        exact ⟨p, by rw [Array.getElem?_push_lt
          (Array.getElem?_eq_some_iff.mp hp).1, ← Array.getElem?_eq_getElem, hp], hxp⟩
      · rintro ⟨p, hp, hxp⟩
        rw [Array.getElem?_push] at hp
        split at hp
        case isTrue =>
          obtain rfl := Option.some.inj hp
          exact absurd hxp hx
        case isFalse => exact ⟨p, hp, hxp⟩

end Moves

section Specs

-- The name is noted to declare the symbol that is returned.
def DefinesName (declareOne : Token → CheckM SymbolId) : Prop :=
  ∀ ident s, ((declareOne ident).run s).2.info.defs[(s.context.file, rangeOf ident)]? = some
    ((declareOne ident).run s).1

theorem definesName_declareField (owner : NamedId) : DefinesName (declareField owner) := by
  intro ident s
  change ((ite _ _ _ : CheckM SymbolId).run _).2.info.defs[(s.context.file, rangeOf ident)]? =
    some ((ite _ _ _ : CheckM SymbolId).run _).1
  split <;> exact Std.HashMap.getElem?_insert_self

theorem definesName_declareSpecName (scope : ScopeId) (kind : SymbolKind) :
    DefinesName (declareSpecName scope kind) := by
  intro ident s
  obtain ⟨id, noted, hrun, hnoted⟩ :
      ∃ (id : SymbolId) (noted : State), (declareSpecName scope kind ident).run s = StateT.run (do
      if ident.text != "_" then
        bind scope ident.text id (rangeOf ident)
      return id) noted ∧ noted.info.defs[(s.context.file, rangeOf ident)]? = some id :=
    ⟨_, _, rfl, Std.HashMap.getElem?_insert_self⟩
  rw [hrun]
  split
  · change ((bind scope ident.text id (rangeOf ident)).run noted).2.info.defs[_]? = _
    rwa [info_bind]
  · exact hnoted

section Names

variable (hreads : ∀ ground file ident, Reads ground file [.token ident] (declareOne ident))
variable (hdefines : DefinesName declareOne)

include hreads hdefines

-- Names that are declared later on do not change what was noted.
theorem defines_mapM {idents : List Token}
    (hs : Ahead ground file (partsIn file (idents.map Tree.token) ++ rest) s) :
    List.Forall₂ (fun ident x =>
      ((idents.mapM declareOne).run s).2.info.defs[(file, rangeOf ident)]? = some x) idents
      ((idents.mapM declareOne).run s).1 := by
  induction idents generalizing s with
  | nil => exact .nil
  | cons ident others ih =>
      rw [List.mapM_cons]
      have hothers (ground : Ground) :
          Reads ground file (others.map Tree.token) (others.mapM declareOne) := by
        have hnames := Reads.mapM (l := others) fun ident _ => hreads ground file ident
        rwa [← List.map_eq_flatMap] at hnames
      have hmid :
          Ahead ground file (partsIn file (others.map Tree.token) ++ rest) ((declareOne ident).run s).2 :=
        hreads ground file ident _ s hs
      have hfirst := hdefines ident s
      rw [hs.context] at hfirst
      exact .cons ((keeps_of_visits hothers hmid).defs _ _ hfirst) (ih hmid)

variable (hadds : ∀ ident, AddsSymbol (declareOne ident)) [hcalm : ∀ ident, Runs Calm (declareOne ident)]
variable [hpreserves : ∀ ident, Preserves (declareOne ident)]

include hadds hcalm hpreserves

-- A specification is put off with the symbols of its names.
theorem putsOff_declareSpec (isConst : Bool) (spec : Tree) :
    PutsOff sources OpensSpecs file (partsIn file [spec]) (partsIn file [spec])
    (declareSpec declareOne isConst spec) where
  visits ground := reads_declareSpec (hreads ground file) hadds isConst spec
  preserves := .bind (.mapM fun _ _ => inferInstance) fun _ => inferInstance
  appends s ground rest old hs hready h := by
    obtain ⟨idents, hidents⟩ : ∃ idents, idents = spec.names.filterMap Tree.ident? := ⟨_, rfl⟩
    have hnames : Ahead ground file (partsIn file (idents.map Tree.token) ++ rest) s := by
      rw [hidents]
      refine hs.below ((Tree.below_idents _).trans (Tree.Below.trans ?_ spec.below_spec))
      exact .of_sublist (List.sublist_append_right _ _)
    have hall (ground : Ground) : Reads ground file (idents.map Tree.token) (idents.mapM declareOne) := by
      have hnames := Reads.mapM (l := idents) fun ident _ => hreads ground file ident
      rwa [← List.map_eq_flatMap] at hnames
    have hdeclared : Runs Calm (idents.mapM declareOne) := inferInstance
    obtain ⟨xs, -, -, hids, -, hspecs⟩ := AddsSymbol.mapM hadds idents s
    have hopened := h.next (hdeclared.run s) (keeps_of_visits hall hnames)
    have hnoted := defines_mapM hreads hdefines hnames
    subst hidents
    refine hopened.push (hall ground _ s hnames).context hnoted fun q hq x hx hnew => ?_
    rw [hspecs] at hq
    replace hnew : x ∈ (((spec.names.filterMap Tree.ident?).mapM declareOne).run s).1 := hnew
    rw [hids] at hnew
    obtain ⟨index, hindex, rfl⟩ := List.mem_map.mp hnew
    exact absurd (hs.valued.there q hq _ hx) (Nat.not_lt_of_le (List.mem_range'_1.mp hindex).1)

-- So are all specifications of a declaration.
theorem putsOff_specs (isConst : Bool) (decl : Tree) : PutsOff sources OpensSpecs file (partsIn file [decl])
    (partsIn file decl.specs) (decl.specs.forM (declareSpec declareOne isConst)) := by
  have hspecs : PutsOff sources OpensSpecs file _ _ (decl.specs.forM (declareSpec declareOne isConst)) :=
    .forM fun spec _ => putsOff_declareSpec hreads hdefines hadds isConst spec
  have hparts : (decl.specs.flatMap fun spec => partsIn file [spec]) = partsIn file decl.specs :=
    List.map_eq_flatMap.symm
  rw [hparts] at hspecs
  exact hspecs.below (decl.below_one _)

end Names

end Specs

section Items

theorem lasting_opensSpecs : Lasting OpensSpecs := fun _ _ _ hmoves hkeeps h => h.next (hmoves Calm) hkeeps

theorem putsOff_declareItem (scope : ScopeId) (fileClass : Option NamedId) (first : Bool) (item : Tree) :
    PutsOff sources OpensSpecs file (partsIn file item.memberStepParts) (partsIn file item.itemSpecs)
      (declareItem scope fileClass first item) := by
  have hfields (owner : NamedId) :
      PutsOff sources OpensSpecs file (partsIn file [item]) (partsIn file item.specs)
      (declareFields owner item) := by
    rw [declareFields_eq]
    exact putsOff_specs (fun _ _ => reads_declareField owner) (definesName_declareField owner)
      (addsSymbol_declareField owner) false item
  have hspecs (isConst : Bool) :
      PutsOff sources OpensSpecs file (partsIn file [item]) (partsIn file item.specs)
      (declareSpecs scope isConst item) := by
    rw [declareSpecs_eq]
    exact putsOff_specs (fun _ _ => reads_declareSpecName scope _) (definesName_declareSpecName scope _)
      (addsSymbol_declareSpecName scope (if isConst then .const else .var)) isConst item
  have hother {a : CheckM Unit} [hcalm : Runs Calm a] [Preserves a] {ts : List Tree}
      (hreads : ∀ ground, Reads ground file ts a) :
      PutsOff sources OpensSpecs file (partsIn file ts) [] a := by
    refine .of_nil hreads fun s ground rest old hs hready h => ?_
    rw [List.append_nil]
    exact h.next (hcalm.run s) (keeps_of_visits hreads hs)
  have hquiet (ground : Ground) : Reads ground file [] (pure ⟨⟩ : CheckM Unit) := .of_runs inferInstance
  have hnothing : PutsOff sources OpensSpecs file [] [] (pure ⟨⟩ : CheckM Unit) := hother hquiet
  unfold declareItem Tree.itemSpecs Tree.memberStepParts
  cases item.kind? with
  | none => exact hnothing
  | some kind =>
      cases kind with
      | importDecl =>
          have himports : Runs Calm ((item.childrenOf .importSpec).forM declareImport) :=
            .forM fun spec _ => inferInstance
          have hsame : Preserves ((item.childrenOf .importSpec).forM declareImport) :=
            .forM fun spec _ => inferInstance
          exact hother fun ground => Reads.below (.forM_trees fun spec _ => reads_declareImport spec)
            (item.below_one _)
      | varDecl =>
          cases fileClass with
          | none => exact hspecs false
          | some owner =>
              cases first with
              | true => exact hfields owner
              | false => exact hspecs false
      | constDecl => exact hspecs true
      | funcDecl => exact hother fun ground => reads_declareFunc scope fileClass item
      | _ => exact hnothing

theorem putsOff_declareMembers (scope : ScopeId) (fileClass : Option NamedId) (first : Bool)
    (items : List Tree) :
    PutsOff sources OpensSpecs file (partsIn file (items.flatMap Tree.memberStepParts))
      (partsIn file (items.flatMap Tree.itemSpecs)) (declareMembers scope fileClass first items) := by
  induction items generalizing first with
  | nil =>
      unfold declareMembers
      refine .of_nil (fun ground => .of_runs (h := inferInstance)) fun s ground rest old _ _ h => ?_
      rwa [List.append_nil]
  | cons item others ih =>
      rw [declareMembers_cons, List.flatMap_cons, List.flatMap_cons, partsIn_append, partsIn_append]
      exact (putsOff_declareItem scope fileClass first item).bind fun _ => ih _

end Items

-- Specifications are open in the order of their declarations.
theorem opensSpecs_declareSources (hs : Ahead ground file
      (((sources.flatMap fun source =>
        partsIn source.file ((source.tree.childrenOf .typeDecl).flatMap Tree.typeDeclParts)) ++
      sources.flatMap fun source =>
      partsIn source.file (source.tree.items.flatMap Tree.memberStepParts)) ++ rest) s)
    (h : OpensSpecs [] s) :
      OpensSpecs (sources.flatMap fun source => partsIn source.file source.tree.openSpecs)
      ((declareSources package sources).run s).2 := by
  have htypes (unit : ScopeId) (source : Source) (s : State) : Appends sources OpensSpecs source.file
      (partsIn source.file ((source.tree.childrenOf .typeDecl).flatMap Tree.typeDeclParts)) []
      (declareTypeNames source.tree unit) s := by
    intro ground rest old hs _ h
    have hcalm : Runs Calm (declareTypeNames source.tree unit) := inferInstance
    rw [List.append_nil]
    exact h.next (hcalm.run s) (keeps_of_visits (fun _ => reads_declareTypeNames source.tree unit) hs)
  have hrest (unit : ScopeId) : PutsOff sources OpensSpecs file _
      ((sources.flatMap fun _ => []) ++ sources.flatMap fun source =>
        partsIn source.file source.tree.openSpecs) (declareRest package sources unit) :=
    putsOff_declareRest placeless_opensSpecs lasting_opensSpecs (fun source _ => htypes unit source)
      fun source _ owner s _ => (putsOff_declareMembers unit (some owner) true source.tree.items).appends s
  have hnone : sources.flatMap (fun _ => ([] : List Part)) = [] := List.flatMap_eq_nil_iff.mpr fun _ _ => rfl
  rw [hnone, List.nil_append] at hrest
  exact PutsOff.declareSources lasting_opensSpecs hrest hs h

end Check

end SpriteScript
