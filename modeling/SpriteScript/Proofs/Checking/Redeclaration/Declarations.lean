import SpriteScript.Proofs.Checking.Redeclaration.Spaces

-- Each declaration brings its names.
namespace SpriteScript

namespace Tree

def declaredName? (decl : Tree) : Option String := (decl.name?.bind ident?).map (·.text)

-- What a file declares: its types, then its variables and constants. The first variables are
-- fields of its class, and its functions are methods of it.

def typeNames (root : Tree) : List String := (root.childrenOf .typeDecl).filterMap declaredName?

def valueDecls (root : Tree) : List Tree :=
  (root.items.filter fun t => t.isA .varDecl || t.isA .constDecl).eraseP (·.isA .varDecl)

def valueNames (root : Tree) : List String :=
  ((root.valueDecls.flatMap declaredIdents).map (·.text)).filter (· != "_")

def fieldNames (root : Tree) : List String := root.firstVarIdents.map (·.text)

def methodNames (root : Tree) : List String :=
  ((root.childrenOf .funcDecl).filter (·.receiver?.isNone)).filterMap declaredName?

end Tree

namespace Check

-- The instances for the parts of a long function are found in one search.
set_option synthInstance.maxSize 1000

variable {sources : List Source} {file : FileId} {sp : Space} {name : String} {α : Type} {a : CheckM α}

section Declarations

instance (scope : ScopeId) (name : String) (id : SymbolId) (range : Text.ByteRange) :
    Preserves (bind scope name id range) := by
  unfold bind
  infer_instance

instance (spec : Tree) : Preserves (declareImport spec) := by
  unfold declareImport
  split
  · refine .bind inferInstance fun m => ?_
    split <;> infer_instance
  · infer_instance

instance (spec : Tree) (symbols : List SymbolId) (isConst : Bool) :
    Preserves (pushSpec spec symbols isConst) :=
  .of_same (fun _ => rfl) (fun _ => rfl) (fun _ => rfl) fun _ => rfl

instance (receiver : Tree) : Preserves (receiverNamed? receiver) := by
  unfold receiverNamed?
  split
  · dsimp only
    split
    · refine .bind inferInstance fun found? => ?_
      split <;> infer_instance
    · infer_instance
  · infer_instance

-- The action goes on, and it reports the name or puts it in.
theorem Brings.of_concat [h : Preserves a] (hname : ∀ s, s.context.file = file → sp.Exists s.model →
    (a.run s).2.Reports (sp.problem name) ∨ name ∉ sp.names s.model ∧ name ∈ sp.names (a.run s).2.model) :
    Brings sources file sp [name] a :=
  ⟨fun s => ⟨h.run s, fun hfile _ _ hexists _ ht => ht.concat (h.run s) (hname s hfile hexists)⟩⟩

-- The name is looked for, and put in if it is not there.
theorem Brings.of_test {g : Model → Model} {k : Unit → CheckM α} (range : Text.ByteRange)
    (test : Model → Bool) (hsource : file.isBundled = false) [hk : ∀ u, Preserves (k u)]
    [hg : Preserves (modifyModel g)] (htest : ∀ m, name ∈ sp.names m → test m = true)
    (hput : ∀ m, sp.Exists m → name ∈ sp.names (g m))
    (hrun : ∀ s, a.run s =
      ((if test s.model = true then problem range (sp.problem name) else modifyModel g) >>= k).run s) :
    Brings sources file sp [name] a := by
  have hall (s : State) : Preserving s (a.run s).2 := by
    rw [hrun]
    exact (Runs.bind (by split <;> infer_instance) hk).run s
  have : Preserves a := ⟨hall⟩
  refine .of_concat fun s hfile hexists => ?_
  rw [hrun]
  split
  case isTrue htaken =>
    have hon := (hk ()).run { s with problems := (s.context.file, range, sp.problem name) :: s.problems }
    exact .inl (hon.reports ⟨_, List.mem_cons_self, hfile ▸ hsource, rfl⟩)
  case isFalse hfree =>
    have hon := (hk ()).run { s with model := g s.model }
    exact .inr ⟨mt (htest s.model) hfree, hon.model.names sp (hput s.model hexists)⟩

-- A name that is bound at package level.
theorem brings_bind {scope : ScopeId} {id : SymbolId} {range : Text.ByteRange}
    (hsource : file.isBundled = false) :
    Brings sources file (.scope scope) [name] (bind scope name id range) := by
  refine .of_test (k := pure) (g := fun m => m.declare scope name ⟨id, 0, false⟩) range
    (fun m => ((m.scope scope).bound? name).isSome) hsource (fun m => ?_) (fun m hexists => ?_) fun s => rfl
  · exact Scope.mem_names_iff.mp
  · exact m.mem_names_declare hexists

variable {owner : NamedId} {scope : ScopeId} {ident : Token} {decl : Tree} {kind : SymbolKind}
variable {isConst : Bool}

instance (field : Field) : Preserves (modifyModel (·.modifyNamed owner fun n =>
    { n with underlying := .struct (n.fields ++ [field]) })) :=
  .modifyModel fun m => m.keepsNames_modifyNamed owner
    (fun n => by simp [NamedType.fieldNames, NamedType.fields]) fun _ _ h => h

instance (id : SymbolId) : Preserves (modifyModel (·.modifyNamed owner fun n =>
    { n with methods := n.methods ++ [id] })) :=
  .modifyModel fun m => m.keepsNames_modifyNamed owner (fun _ _ h => h) fun _ => List.subset_append_left ..

theorem brings_declareField (hsource : file.isBundled = false) :
    Brings sources file (.fields owner) [ident.text] (declareField owner ident) := by
  unfold declareField
  refine .bind_right fun x => .bind_right fun id => .bind_right fun _ => ?_
  refine .of_test (k := fun _ => pure id) (g := fun m => m.modifyNamed owner fun n =>
      { n with underlying := .struct (n.fields ++ [⟨id, ident.text, .invalid, false⟩]) })
    (rangeOf ident) (fun m => (m.namedType owner).fields.any (·.name == ident.text)) hsource
    (fun m hname => ?_) (fun m hexists => ?_) fun s => ?_
  · simpa [Space.names, NamedType.fieldNames] using hname
  · rw [Space.names, Model.namedType_modifyNamed _ _ hexists]
    simp [NamedType.fieldNames, NamedType.fields]
  · dsimp only
    change (if (s.model.namedType owner).fields.any (·.name == ident.text) = true then _ else _ :
      CheckM SymbolId).run s = _
    split <;> rfl

instance : Preserves (declareMethod owner ident) := by
  unfold declareMethod
  refine .bind inferInstance fun c => .bind inferInstance fun m => .bind inferInstance fun x => ?_
  dsimp only
  split
  · split <;> infer_instance
  · infer_instance

theorem brings_declareMethod (hsource : file.isBundled = false) :
    Brings sources file (.methods owner) [ident.text] (declareMethod owner ident) := by
  refine .of_concat fun s hfile hexists => ?_
  obtain ⟨x, hx, -, -, hrun⟩ := run_declareMethod owner ident s
  rw [hrun]
  split
  case h_1 existing hfound =>
    rw [if_neg (by simp [hfile, hsource])]
    exact .inl ⟨(s.context.file, rangeOf ident, .duplicateMethod ident.text), List.mem_cons_self,
      hfile ▸ hsource, rfl⟩
  case h_2 hnone =>
    refine .inr ⟨fun hname => ?_, ?_⟩
    · obtain ⟨id, hid, hname⟩ := List.mem_filterMap.mp hname
      obtain ⟨y, hy, hname⟩ := Option.map_eq_some_iff.mp hname
      exact List.find?_eq_none.mp hnone id hid (by simp [Model.symbol, hy, hname])
    · change ident.text ∈ (((s.model.addSymbol x).2.modifyNamed owner fun n =>
        { n with methods := n.methods ++ [(s.model.addSymbol x).1] }).namedType owner).methodNames
          (s.model.addSymbol x).2.symbols
      rw [Model.namedType_modifyNamed (s.model.addSymbol x).2 _ hexists]
      refine List.mem_filterMap.mpr ⟨_, List.mem_append_right _ List.mem_cons_self, ?_⟩
      simp [Model.addSymbol, hx]

-- Whole declarations

instance : Preserves (declareField owner ident) := by
  unfold declareField
  infer_instance

instance : Preserves (declareSpecName scope kind ident) := by
  unfold declareSpecName
  infer_instance

instance : Preserves (declareFields owner decl) := by
  unfold declareFields
  refine .bind (.forIn fun spec _ _ => ?_) fun _ => inferInstance
  exact .bind (.mapM fun _ _ => inferInstance) fun _ => inferInstance

instance : Preserves (declareSpecs scope isConst decl) := by
  unfold declareSpecs
  refine .bind (.forIn fun spec _ _ => ?_) fun _ => inferInstance
  exact .bind (.mapM fun _ _ => inferInstance) fun _ => inferInstance

instance : Preserves (declareFunction scope ident) := by
  unfold declareFunction
  refine .bind inferInstance fun c => .bind inferInstance fun m => ?_
  dsimp only
  split
  · split <;> infer_instance
  · infer_instance

instance (id : SymbolId) (pending : PendingDecl) :
    Preserves (modify fun s => { s with funcs := (id, pending) :: s.funcs } : CheckM Unit) :=
  .of_same (fun _ => rfl) (fun _ => rfl) (fun _ => rfl) fun _ => rfl

instance {fileClass : Option NamedId} : Preserves (declareFunc scope fileClass decl) := by
  unfold declareFunc
  split
  · extract_lets finish declare
    have (owner? : Option NamedId) : Preserves (declare owner?) := by
      unfold declare
      split <;> infer_instance
    split <;> infer_instance
  · infer_instance

theorem brings_declareSpecName (hsource : file.isBundled = false) :
    Brings sources file (.scope scope) ([ident.text].filter (· != "_"))
    (declareSpecName scope kind ident) := by
  unfold declareSpecName
  refine .bind_right fun x => .bind_right fun id => .bind_right fun _ => ?_
  by_cases hblank : (ident.text != "_") = true
  · rw [if_pos hblank, List.filter_cons_of_pos (p := (· != "_")) hblank]
    exact .bind_left (brings_bind hsource) fun _ => inferInstance
  · rw [if_neg hblank, List.filter_cons_of_neg (p := (· != "_")) hblank]
    exact .of_preserves

-- A declaration brings what its names bring.
theorem brings_specs {declare : Token → CheckM SymbolId} {of : Token → List String}
    (h : ∀ ident, Brings sources file sp (of ident) (declare ident)) :
    Brings sources file sp (decl.declaredIdents.flatMap of) (do
      for spec in decl.specs do
        let symbols ← (spec.names.filterMap Tree.ident?).mapM declare
        pushSpec spec symbols isConst) := by
  have hspecs := Brings.forM (l := decl.specs) (g := fun spec => do
      let symbols ← (spec.names.filterMap Tree.ident?).mapM declare
      pushSpec spec symbols isConst) fun spec _ =>
    .bind_left (.mapM fun ident _ => h ident) fun _ => inferInstance
  rw [← forIn_eq_forM, ← List.flatMap_assoc] at hspecs
  unfold Tree.declaredIdents
  simpa only [bind_assoc, bind_pure_unit] using hspecs

theorem brings_declareFields (hsource : file.isBundled = false) :
    Brings sources file (.fields owner) (decl.declaredIdents.map (·.text)) (declareFields owner decl) := by
  rw [List.map_eq_flatMap]
  exact brings_specs fun _ => brings_declareField hsource

theorem brings_declareSpecs (hsource : file.isBundled = false) :
    Brings sources file (.scope scope) ((decl.declaredIdents.map (·.text)).filter (· != "_"))
      (declareSpecs scope isConst decl) := by
  rw [List.map_eq_flatMap, List.filter_flatMap]
  exact brings_specs fun _ => brings_declareSpecName hsource

instance (id : SymbolId) (pending : PendingDecl) :
    Preserves (modify fun s => { s with aliases := (id, pending) :: s.aliases } : CheckM Unit) :=
  .of_same (fun _ => rfl) (fun _ => rfl) (fun _ => rfl) fun _ => rfl

instance (id : NamedId) (pending : PendingDecl) :
    Preserves (modify fun s => { s with typeDecls := (id, pending) :: s.typeDecls } : CheckM Unit) :=
  .of_same (fun _ => rfl) (fun _ => rfl) (fun _ => rfl) fun _ => rfl

theorem brings_declareTypeName (hsource : file.isBundled = false) :
    Brings sources file (.scope scope) decl.declaredName?.toList (declareTypeName scope decl) := by
  unfold declareTypeName Tree.declaredName?
  cases decl.name?.bind Tree.ident? with
  | none => exact .of_preserves
  | some ident =>
      refine .bind_right fun c => .bind_right fun x => ?_
      extract_lets next
      have hnext (id : SymbolId) : Brings sources file (.scope scope) [ident.text] (next id) :=
        .bind_right fun _ => brings_bind hsource
      split
      · exact .bind_right fun id => .bind_right fun _ => hnext id
      · refine .bind_right fun named => .bind_right fun id => ?_
        exact .bind_right fun _ => .bind_right fun _ => hnext id

instance : Preserves (declareTypeName scope decl) :=
  Brings.preserves (brings_declareTypeName rfl :
    Brings [] (.source 0) (.scope scope) decl.declaredName?.toList _)

-- A function without a receiver is a method of the class of its file.
theorem brings_declareFunc (hsource : file.isBundled = false) :
    Brings sources file (.methods owner) (if decl.receiver?.isNone then decl.declaredName?.toList else [])
      (declareFunc scope (some owner) decl) := by
  split
  case isTrue hnone =>
    unfold declareFunc Tree.declaredName?
    rw [Option.isNone_iff_eq_none.mp hnone]
    cases decl.name?.bind Tree.ident? with
    | none => exact .of_preserves
    | some ident =>
        dsimp only
        rw [pure_bind]
        exact .bind_left (brings_declareMethod hsource) fun _ => inferInstance
  case isFalse => exact .of_preserves

end Declarations

section Items

variable {owner : NamedId} {unit : ScopeId} {fileClass : Option NamedId}
variable {item root : Tree} {items : List Tree} {first : Bool}

-- What the items of a file bring, one after the other.
def gather (of : Bool → Tree → List String) : Bool → List Tree → List String
  | _, [] => []
  | first, item :: rest => of first item ++ gather of (first && !item.isA .varDecl) rest

theorem brings_declareMembers {of : Bool → Tree → List String}
    (h : ∀ first item, Brings sources file sp (of first item) (declareItem unit fileClass first item)) :
    Brings sources file sp (gather of first items) (declareMembers unit fileClass first items) := by
  induction items generalizing first with
  | nil =>
      unfold declareMembers
      exact .of_preserves
  | cons item rest ih =>
      rw [declareMembers_cons]
      exact .bind (h first item) fun _ => ih

-- The variables behind the first ones, and the constants.
def values (first : Bool) (item : Tree) : List String :=
  if item.isA .varDecl && !first || item.isA .constDecl then
    (item.declaredIdents.map (·.text)).filter (· != "_")
  else
    []

def fields (first : Bool) (item : Tree) : List String :=
  if item.isA .varDecl && first then item.declaredIdents.map (·.text) else []

def methods (_ : Bool) (item : Tree) : List String :=
  if item.isA .funcDecl && item.receiver?.isNone then item.declaredName?.toList else []

instance : Preserves (declareItem unit fileClass first item) := by
  unfold declareItem
  split
  case h_1 => exact .forM fun _ _ => inferInstance
  all_goals infer_instance

theorem brings_values (hsource : file.isBundled = false) :
    Brings sources file (.scope unit) (values first item) (declareItem unit (some owner) first item) := by
  unfold values
  split
  case isTrue hvalue =>
    have hitem : ∃ isConst, declareItem unit (some owner) first item = declareSpecs unit isConst item := by
      rcases Bool.or_eq_true_iff.mp hvalue with hvars | hconst
      · obtain ⟨hkind, hfirst⟩ := Bool.and_eq_true_iff.mp hvars
        refine ⟨false, ?_⟩
        unfold declareItem
        rw [beq_iff_eq.mp hkind]
        exact if_neg (by simpa using hfirst)
      · refine ⟨true, ?_⟩
        unfold declareItem
        rw [beq_iff_eq.mp hconst]
    obtain ⟨isConst, hitem⟩ := hitem
    rw [hitem]
    exact brings_declareSpecs hsource
  case isFalse => exact .of_preserves

theorem brings_fields (hsource : file.isBundled = false) :
    Brings sources file (.fields owner) (fields first item) (declareItem unit (some owner) first item) := by
  unfold fields
  split
  case isTrue h =>
    obtain ⟨hkind, hfirst⟩ := Bool.and_eq_true_iff.mp h
    unfold declareItem
    rw [beq_iff_eq.mp hkind]
    dsimp only
    rw [if_pos hfirst]
    exact brings_declareFields hsource
  case isFalse => exact .of_preserves

theorem brings_methods (hsource : file.isBundled = false) :
    Brings sources file (.methods owner) (methods first item) (declareItem unit (some owner) first item) := by
  unfold methods
  by_cases hkind : item.isA .funcDecl = true
  · unfold declareItem
    rw [hkind, Bool.true_and, beq_iff_eq.mp hkind]
    exact brings_declareFunc hsource
  · rw [if_neg (by simp [hkind])]
    exact .of_preserves

-- The items of a file, taken together

theorem gather_values_later : gather values false items =
    ((items.filter fun t => t.isA .varDecl || t.isA .constDecl).flatMap fun t =>
      (t.declaredIdents.map (·.text)).filter (· != "_")) := by
  induction items with
  | nil => rfl
  | cons item rest ih =>
      rw [gather, Bool.false_and, ih, values, Bool.not_false, Bool.and_true, List.filter_cons]
      split <;> rfl

theorem gather_values : gather values true items =
    (((items.filter fun t => t.isA .varDecl || t.isA .constDecl).eraseP (·.isA .varDecl)).flatMap fun t =>
      (t.declaredIdents.map (·.text)).filter (· != "_")) := by
  induction items with
  | nil => rfl
  | cons item rest ih =>
      rw [gather, values, List.filter_cons]
      cases hkind : item.isA .varDecl with
      | true =>
          have hconst : item.isA .constDecl = false := by
            rw [Tree.isA, beq_iff_eq.mp hkind]
            rfl
          simp [hkind, hconst, gather_values_later]
      | false =>
          simp only [Bool.not_false, Bool.true_and, Bool.false_and, Bool.false_or, ih]
          split
          · rw [List.eraseP_cons_of_neg (by simp [hkind]), List.flatMap_cons]
          · rfl

theorem gather_fields_later : gather fields false items = [] := by
  induction items with
  | nil => rfl
  | cons item rest ih => simpa [gather, fields] using ih

theorem gather_fields : gather fields true items =
    (((items.filter (·.isA .varDecl)).head?.map Tree.declaredIdents).getD []).map (·.text) := by
  induction items with
  | nil => rfl
  | cons item rest ih =>
      rw [gather, fields, List.filter_cons]
      cases hkind : item.isA .varDecl with
      | true => simp [gather_fields_later]
      | false => simp [ih]

theorem gather_methods : gather methods first items =
    ((items.filter (·.isA .funcDecl)).filter (·.receiver?.isNone)).filterMap Tree.declaredName? := by
  induction items generalizing first with
  | nil => rfl
  | cons item rest ih =>
      rw [gather, ih, methods, List.filter_cons]
      cases item.isA .funcDecl with
      | true =>
          rw [if_pos rfl, Bool.true_and, List.filter_cons]
          split
          · rw [List.filterMap_cons]
            cases item.declaredName? <;> rfl
          · rfl
      | false => rfl

-- The items are the children of their kinds.
theorem filter_items {kind : NodeKind} (hkind : kind.isItem = true) :
    root.items.filter (·.isA kind) = root.childrenOf kind := by
  rw [Tree.items, Tree.childrenOf, Tree.childrenWith, Tree.childrenWith, List.filter_filter]
  refine List.filter_congr fun t _ => ?_
  cases hother : t.kind? with
  | none => simp [Tree.isA, hother]
  | some k =>
      rw [Tree.isA, hother, Option.any_some, Option.any_some]
      by_cases heq : k = kind
      · simp [heq, hkind]
      · simp [heq]

-- What a file brings into the scope of the program, and into its class.

theorem brings_typeNames (hsource : file.isBundled = false) :
    Brings sources file (.scope unit) root.typeNames (declareTypeNames root unit) := by
  rw [Tree.typeNames, List.filterMap_eq_flatMap_toList]
  exact .forM fun decl _ => brings_declareTypeName hsource

theorem brings_valueNames (hsource : file.isBundled = false) :
    Brings sources file (.scope unit) root.valueNames (declareMembers unit (some owner) true root.items) := by
  have hnames : root.valueNames = gather values true root.items := by
    rw [gather_values, Tree.valueNames, List.map_flatMap, List.filter_flatMap, Tree.valueDecls]
  rw [hnames]
  exact brings_declareMembers fun _ _ => brings_values hsource

theorem brings_fieldNames (hsource : file.isBundled = false) :
    Brings sources file (.fields owner) root.fieldNames
    (declareMembers unit (some owner) true root.items) := by
  have hnames : root.fieldNames = gather fields true root.items := by
    rw [gather_fields, filter_items rfl, Tree.fieldNames, Tree.firstVarIdents]
  rw [hnames]
  exact brings_declareMembers fun _ _ => brings_fields hsource

theorem brings_methodNames (hsource : file.isBundled = false) :
    Brings sources file (.methods owner) root.methodNames
    (declareMembers unit (some owner) true root.items) := by
  have hnames : root.methodNames = gather methods true root.items := by
    rw [gather_methods, filter_items rfl, Tree.methodNames]
  rw [hnames]
  exact brings_declareMembers fun _ _ => brings_methods hsource

end Items

end Check

end SpriteScript
