import SpriteScript.Proofs.Checking.Program
import SpriteScript.Proofs.Checking.Routine.Rules

-- Declarations keep to a relation as well, if every move does that binds a name or puts something
-- off, and so does the check of a program that is made of them.
namespace SpriteScript.Check

-- The instances for the parts of a long function are found in one search.
set_option synthInstance.maxSize 1000

-- A type and its name.
def addType (n : NamedType) (x : Symbol) : CheckM (NamedId × SymbolId) := do
  let named ← addNamed n
  let id ← addSymbol { x with ty := .named named }
  modifyModel (·.modifyNamed named fun n => { n with symbol := some id })
  return (named, id)

-- A type that is put off.
def openType (n : NamedType) (x : Symbol) (pending : PendingDecl) : CheckM SymbolId := do
  let (named, id) ← addType n x
  modify fun s => { s with typeDecls := (named, pending) :: s.typeDecls }
  return id

-- An alias that is put off.
def openAlias (x : Symbol) (pending : PendingDecl) : CheckM SymbolId := do
  let id ← addSymbol x
  modify fun s => { s with aliases := (id, pending) :: s.aliases }
  return id

-- A class, which is noted for its file.
def openClass (n : NamedType) (x : Symbol) (source : Source) : CheckM (NamedId × SymbolId) := do
  let (named, id) ← addType n x
  modify fun s => { s with
    classes := s.classes ++ [(source.file, named)]
    gameClass := if source.isEntry then some named else s.gameClass }
  return (named, id)

-- What declarations do to a state, other than those of types and of specifications. Of a type that
-- is there they change at most the parts that it is made of.
class Declares (R : State → State → Prop) : Prop extends Routine R where
  scopes : ∀ (s : State) m, m.symbols = s.model.symbols → m.named = s.model.named → R s { s with model := m }
  modifyNamed : ∀ s id f, (∀ n, (f n).underlying = n.underlying ∨
    n.underlying.isComposite = true ∧ (f n).underlying.isComposite = true) →
    R s { s with model := s.model.modifyNamed id f }
  unnamed : ∀ s x, x.ty.named? = none → R s { s with model := (s.model.addSymbol x).2 }
  openClass : ∀ n x source, n.underlying.isComposite = true → Runs R (openClass n x source)

class DeclaresFuncs (R : State → State → Prop) : Prop extends Declares R where
  funcs : ∀ s funcs, R s { s with funcs }

class DeclaresSpecs (R : State → State → Prop) : Prop extends Declares R where
  pushSpec : ∀ s spec symbols isConst, (∀ x ∈ symbols, s.model.NamesValue x) →
    R s ((pushSpec spec symbols isConst).run s).2

class DeclaresTypes (R : State → State → Prop) : Prop extends Declares R where
  openType : ∀ n x pending, n.underlying = .pending → Runs R (openType n x pending)
  aliases : ∀ s aliases, R s { s with aliases }

-- The class of a file may be filled, whatever it was before.
class Fills (R : State → State → Prop) (fileClass : Option NamedId) : Prop where
  fill : ∀ owner ∈ fileClass, ∀ s f, (∀ n, (f n).underlying.isComposite = true) →
    R s { s with model := s.model.modifyNamed owner f }

variable {R : State → State → Prop} {ident : Token} {scope : ScopeId} {owner : NamedId} {kind : SymbolKind}
variable {decl item : Tree} {package : String} {source : Source} {sources : List Source} {α : Type}

section Symbols

-- The action adds a symbol that names a value, and returns it.
def AddsSymbolTo (s : State) (a : CheckM SymbolId) : Prop :=
  ∃ x : Symbol, x.kind.isTypeName = false ∧ x.value = none ∧ (a.run s).1 = ⟨s.model.symbols.size⟩ ∧
    (a.run s).2.model.symbols = s.model.symbols.push x ∧ (a.run s).2.specs = s.specs

abbrev AddsSymbol (a : CheckM SymbolId) : Prop := ∀ s, AddsSymbolTo s a

-- Symbols and what is put off stay as they are.
def Resting (s s' : State) : Prop := s'.model.symbols = s.model.symbols ∧ s'.specs = s.specs

instance : IsPreorder State Resting where
  refl _ := ⟨rfl, rfl⟩
  trans _ _ _ h h' := ⟨h'.1.trans h.1, h'.2.trans h.2⟩

instance (range : Text.ByteRange) (x : SymbolId) : Runs Resting (recordDef range x) := ⟨fun _ => ⟨rfl, rfl⟩⟩

instance (range : Text.ByteRange) (p : Problem) : Runs Resting (problem range p) := ⟨fun _ => ⟨rfl, rfl⟩⟩

instance (id : NamedId) (f : NamedType → NamedType) : Runs Resting (modifyModel (·.modifyNamed id f)) :=
  ⟨fun _ => ⟨rfl, rfl⟩⟩

instance (scope : ScopeId) (name : String) (id : SymbolId) (range : Text.ByteRange) :
    Runs Resting (bind scope name id range) := by
  have hput (entry : ScopeEntry) : Runs Resting (modifyModel (·.declare scope name entry)) :=
    ⟨fun _ => ⟨rfl, rfl⟩⟩
  unfold bind
  infer_instance

-- The symbol that was added names a value.
theorem AddsSymbolTo.namesValue {s : State} {a : CheckM SymbolId} (h : AddsSymbolTo s a) :
    (a.run s).2.model.NamesValue (a.run s).1 := by
  obtain ⟨x, hkind, -, hid, hsymbols, -⟩ := h
  rw [Model.NamesValue, Model.symbol, hid, hsymbols, Array.size_push, Array.getElem?_push_size]
  exact ⟨Nat.lt_succ_self _, hkind⟩

theorem addsSymbol_of_resting {x : Symbol} {f : SymbolId → CheckM SymbolId}
    (hkind : x.kind.isTypeName = false) (hvalue : x.value = none) (hf : ∀ id, Runs Resting (f id))
    (hresult : ∀ id s, ((f id).run s).1 = id) :
    AddsSymbol (addSymbol x >>= f) := by
  intro s
  obtain ⟨hsymbols, hspecs⟩ := (hf ⟨s.model.symbols.size⟩).run ((addSymbol x).run s).2
  exact ⟨x, hkind, hvalue, hresult _ _, hsymbols, hspecs⟩

theorem addsSymbol_declared {f : Symbol → CheckM SymbolId}
    (h : ∀ x, x.kind = kind → x.value = none → AddsSymbol (f x)) : AddsSymbol (declared ident kind >>= f) :=
  fun s => h ((declared ident kind).run s).1 rfl rfl s

theorem addsSymbol_declareField (owner : NamedId) (ident : Token) :
    AddsSymbol (declareField owner ident) := by
  unfold declareField
  refine addsSymbol_declared fun x hkind hvalue =>
    addsSymbol_of_resting ?_ hvalue (fun id => inferInstance) fun id s => ?_
  · exact congrArg SymbolKind.isTypeName hkind
  · change ((ite _ _ _ : CheckM SymbolId).run _).1 = id
    split <;> rfl

theorem addsSymbol_declareSpecName (scope : ScopeId) (kind : SymbolKind) [h : Refuted kind.isTypeName]
    (ident : Token) : AddsSymbol (declareSpecName scope kind ident) := by
  unfold declareSpecName
  refine addsSymbol_declared fun x hkind hvalue =>
    addsSymbol_of_resting ?_ hvalue (fun id => inferInstance) fun id s => ?_
  · rw [hkind, h.eq_false]
  · change ((ite _ _ _ : CheckM SymbolId).run _).1 = id
    split <;> rfl

-- Only bundled packages may declare a function again.

theorem addsSymbolTo_declareMethod (owner : NamedId) (ident : Token) {s : State}
    (h : s.context.file.isBundled = false) : AddsSymbolTo s (declareMethod owner ident) := by
  obtain ⟨x, -, hkind, hvalue, hrun⟩ := run_declareMethod owner ident s
  rw [AddsSymbolTo, hrun, h]
  split <;> exact ⟨x, congrArg SymbolKind.isTypeName hkind, hvalue, rfl, rfl, rfl⟩

theorem addsSymbolTo_declareFunction (scope : ScopeId) (ident : Token) {s : State}
    (h : s.context.file.isBundled = false) : AddsSymbolTo s (declareFunction scope ident) := by
  have hadds : AddsSymbol (declared ident .func >>= fun x => do
      let id ← addSymbol x
      bind scope ident.text id (rangeOf ident)
      return id) :=
    addsSymbol_declared fun x hkind hvalue =>
      addsSymbol_of_resting (congrArg SymbolKind.isTypeName hkind) hvalue
      (fun _ => inferInstance) fun _ _ => rfl
  have hrun : (declareFunction scope ident).run s = StateT.run (declared ident .func >>= fun x => do
      let id ← addSymbol x
      bind scope ident.text id (rangeOf ident)
      return id) s := by
    unfold declareFunction
    rw [run_context_bind, run_model_bind]
    dsimp only
    split
    · rw [h]
      rfl
    · rfl
  rw [AddsSymbolTo, hrun]
  exact hadds s

-- The symbols of several names stand one behind the other.
theorem AddsSymbol.mapM {γ : Type} {f : γ → CheckM SymbolId} (h : ∀ x, AddsSymbol (f x)) (l : List γ)
    (s : State) :
    ∃ xs : List Symbol, xs.length = l.length ∧ (∀ x ∈ xs, x.kind.isTypeName = false ∧ x.value = none) ∧
      ((l.mapM f).run s).1 = (List.range' s.model.symbols.size l.length).map SymbolId.mk ∧
      ((l.mapM f).run s).2.model.symbols.toList = s.model.symbols.toList ++ xs ∧
      ((l.mapM f).run s).2.specs = s.specs := by
  induction l generalizing s with
  | nil => exact ⟨[], rfl, List.forall_mem_nil _, rfl, (List.append_nil _).symm, rfl⟩
  | cons y rest ih =>
      rw [List.mapM_cons]
      obtain ⟨x, hkind, hvalue, hid, hsymbols, hspecs⟩ := h y s
      obtain ⟨xs, hlength, hxs, hids, hrest, hrestSpecs⟩ := ih ((f y).run s).2
      refine ⟨x :: xs, congrArg (· + 1) hlength, List.forall_mem_cons.mpr ⟨⟨hkind, hvalue⟩, hxs⟩, ?_, ?_,
        hrestSpecs.trans hspecs⟩
      · rw [hsymbols, Array.size_push] at hids
        change ((f y).run s).1 :: ((rest.mapM f).run ((f y).run s).2).1 = _
        rw [hid, hids]
        rfl
      · change ((rest.mapM f).run ((f y).run s).2).2.model.symbols.toList = _
        rw [hrest, hsymbols, Array.toList_push, List.append_assoc]
        rfl

end Symbols

section Members

variable [Declares R]

theorem Runs.modifyNamed_of {id : NamedId} {f : NamedType → NamedType}
    (hf : ∀ n, (f n).underlying = n.underlying ∨
      n.underlying.isComposite = true ∧ (f n).underlying.isComposite = true) :
    Runs R (modifyModel (·.modifyNamed id f)) :=
  ⟨fun s => Declares.modifyNamed s id f hf⟩

theorem Runs.modifyScopes {f : Model → Model} (hsymbols : ∀ m, (f m).symbols = m.symbols)
    (hnamed : ∀ m, (f m).named = m.named) : Runs R (modifyModel f) :=
  ⟨fun s => Declares.scopes s _ (hsymbols _) (hnamed _)⟩

instance (priority := low) {name : String} {id : SymbolId} {range : Text.ByteRange} :
    Runs R (bind scope name id range) := by
  unfold bind
  infer_instance

instance (priority := low) {spec : Tree} : Runs R (declareImport spec) := by
  unfold declareImport
  split
  · refine .bind inferInstance fun m => ?_
    split <;> infer_instance
  · infer_instance

instance (priority := low) [hfills : Fills R (some owner)] : Runs R (declareField owner ident) := by
  have hfield (field : Field) : Runs R (modifyModel (·.modifyNamed owner fun n =>
      { n with underlying := .struct (n.fields ++ [field]) })) :=
        ⟨fun s => hfills.fill owner rfl s _ fun _ => rfl⟩
  unfold declareField
  refine .declared_bind fun x hx => .addSymbol_bind (congrArg SymbolKind.isTypeName hx) fun id => ?_
  infer_instance

instance (priority := low) [h : Refuted kind.isTypeName] : Runs R (declareSpecName scope kind ident) := by
  unfold declareSpecName
  refine .declared_bind fun x hx => .addSymbol_bind (hx ▸ h.eq_false) fun id => ?_
  infer_instance

instance (priority := low) : Runs R (receiverNamed? decl) := by
  unfold receiverNamed?
  split
  · dsimp only
    split
    · refine .bind inferInstance fun found? => ?_
      split <;> infer_instance
    · infer_instance
  · infer_instance

instance (priority := low) : Runs R (declareMethod owner ident) := by
  have hadd (id : SymbolId) : Runs R (modifyModel (·.modifyNamed owner fun n =>
      { n with methods := n.methods ++ [id] })) := .modifyNamed_of fun _ => .inl rfl
  unfold declareMethod
  refine .bind inferInstance fun c => .bind inferInstance fun m => ?_
  dsimp only
  refine .declared_bind fun x hx => ?_
  have hsymbol : Runs R (addSymbol { x with owner := some owner }) :=
    have : Refuted x.kind.isTypeName := ⟨congrArg SymbolKind.isTypeName hx⟩
    inferInstance
  split <;> infer_instance

instance (priority := low) : Runs R (declareFunction scope ident) := by
  have hadd : Runs R (declared ident .func >>= fun x => do
      let id ← addSymbol x
      bind scope ident.text id (rangeOf ident)
      return id) :=
    .declared_bind fun x hx => .addSymbol_bind (congrArg SymbolKind.isTypeName hx) fun id => inferInstance
  unfold declareFunction
  refine .bind inferInstance fun c => .bind inferInstance fun m => ?_
  dsimp only
  split
  · split
    · infer_instance
    · exact hadd
  · exact hadd

end Members

instance (priority := low) [DeclaresFuncs R] {fileClass : Option NamedId} :
    Runs R (declareFunc scope fileClass decl) := by
  have hput (id : SymbolId) (c : Context) :
      Runs R (modify fun s => { s with funcs := (id, ⟨c, decl⟩) :: s.funcs } : CheckM Unit) :=
    ⟨fun s => DeclaresFuncs.funcs s _⟩
  unfold declareFunc
  split
  · extract_lets finish declare
    have hdeclare (owner? : Option NamedId) : Runs R (declare owner?) := by
      unfold declare finish
      split <;> infer_instance
    split <;> infer_instance
  · infer_instance

section Specs

-- A specification is put off when its names are declared.
def declareSpec (declareOne : Token → CheckM SymbolId) (isConst : Bool) (spec : Tree) : CheckM Unit := do
  let symbols ← (spec.names.filterMap Tree.ident?).mapM declareOne
  pushSpec spec symbols isConst

theorem declareFields_eq (owner : NamedId) (decl : Tree) :
    declareFields owner decl = decl.specs.forM (declareSpec (declareField owner) false) := by
  rw [List.forM_eq_forM, ← forIn_eq_forM]
  unfold declareFields declareSpec
  simp only [bind_assoc, bind_pure_unit]

theorem declareSpecs_eq (scope : ScopeId) (isConst : Bool) (decl : Tree) : declareSpecs scope isConst decl =
    decl.specs.forM (declareSpec (declareSpecName scope (if isConst then .const else .var)) isConst) := by
  rw [List.forM_eq_forM, ← forIn_eq_forM]
  unfold declareSpecs declareSpec
  simp only [bind_assoc, bind_pure_unit]

variable [DeclaresSpecs R]

theorem runs_declareSpec {declareOne : Token → CheckM SymbolId} [∀ ident, Runs R (declareOne ident)]
    (hadds : ∀ ident, AddsSymbol (declareOne ident)) (isConst : Bool) (spec : Tree) :
    Runs R (declareSpec declareOne isConst spec) where
  run s := by
    obtain ⟨xs, hlength, hxs, hids, hsymbols, -⟩ := AddsSymbol.mapM hadds (spec.names.filterMap Tree.ident?) s
    have hnames : Runs R ((spec.names.filterMap Tree.ident?).mapM declareOne) := inferInstance
    refine trans_of R (hnames.run s) (DeclaresSpecs.pushSpec _ spec _ isConst fun x hx => ?_)
    replace hx : x ∈ (((spec.names.filterMap Tree.ident?).mapM declareOne).run s).1 := hx
    rw [hids] at hx
    obtain ⟨index, hindex, rfl⟩ := List.mem_map.mp hx
    obtain ⟨hle, hlt⟩ := List.mem_range'_1.mp hindex
    rw [← hlength, ← Array.length_toList] at hlt
    have hsize := congrArg List.length hsymbols
    rw [List.length_append, Array.length_toList] at hsize
    refine ⟨hsize ▸ hlt, ?_⟩
    have hmem : index - s.model.symbols.toList.length < xs.length := by
      rw [Array.length_toList] at hlt ⊢
      omega
    rw [Model.symbol, ← Array.getElem?_toList, hsymbols,
      List.getElem?_append_right (Array.length_toList ▸ hle), List.getElem?_eq_getElem hmem]
    exact (hxs _ (List.getElem_mem hmem)).1

instance (priority := low) [Fills R (some owner)] : Runs R (declareFields owner decl) := by
  rw [declareFields_eq]
  exact .forM fun spec _ => runs_declareSpec (addsSymbol_declareField owner) false spec

instance (priority := low) {isConst : Bool} : Runs R (declareSpecs scope isConst decl) := by
  rw [declareSpecs_eq]
  exact .forM fun spec _ => runs_declareSpec (addsSymbol_declareSpecName scope _) isConst spec

variable [DeclaresFuncs R]

instance (priority := low) {fileClass : Option NamedId} {first : Bool} [Fills R fileClass] :
    Runs R (declareItem scope fileClass first item) := by
  unfold declareItem
  split
  · exact .forM fun spec _ => inferInstance
  · split <;> infer_instance
  all_goals infer_instance

instance (priority := low) {fileClass : Option NamedId} {first : Bool} {items : List Tree}
    [Fills R fileClass] : Runs R (declareMembers scope fileClass first items) := by
  induction items generalizing first with
  | nil =>
      unfold declareMembers
      infer_instance
  | cons item rest ih =>
      rw [declareMembers_cons]
      exact .bind inferInstance fun _ => ih

end Specs

section Types

-- A type or an alias is put off before its name is bound.
theorem run_declareTypeName (scope : ScopeId) (hident : decl.name?.bind Tree.ident? = some ident)
    (s : State) :
    ∃ x : Symbol, x.kind = .typeName ∧ x.ty = .invalid ∧ (declareTypeName scope decl).run s = StateT.run (do
      let id ← if decl.isAlias then openAlias x ⟨s.context, decl⟩
        else openType { name := ident.text, package := x.package } x ⟨s.context, decl⟩
      recordDef (rangeOf ident) id
      bind scope ident.text id (rangeOf ident)) s := by
  refine ⟨((declared ident .typeName).run s).1, rfl, rfl, ?_⟩
  unfold declareTypeName
  split
  case h_1 found hfound =>
    obtain rfl := Option.some.inj (hident.symm.trans hfound)
    change StateT.run (ite _ _ _) s = _
    split <;> rfl
  case h_2 hnone => exact absurd hident (hnone ident)

theorem runs_openAlias [DeclaresTypes R] {x : Symbol} (hx : x.ty.named? = none) (pending : PendingDecl) :
    Runs R (openAlias x pending) where
  run s :=
    trans_of R (Declares.unnamed s x hx) (DeclaresTypes.aliases { s with model := (s.model.addSymbol x).2 } _)

instance (priority := low) [DeclaresTypes R] : Runs R (declareTypeName scope decl) where
  run s := by
    cases hident : decl.name?.bind Tree.ident? with
    | none =>
        unfold declareTypeName
        rw [hident]
        exact refl_of R s
    | some ident =>
        obtain ⟨x, -, hty, hrun⟩ := run_declareTypeName scope hident s
        have halias : Runs R (openAlias x ⟨s.context, decl⟩) := runs_openAlias (hty ▸ rfl) _
        have hopen :=
          DeclaresTypes.openType (R := R) { name := ident.text, package := x.package } x ⟨s.context, decl⟩ rfl
        rw [hrun]
        exact Runs.run s

instance (priority := low) [DeclaresTypes R] : Runs R (declareTypeNames decl scope) := by
  unfold declareTypeNames
  exact .forM fun decl _ => inferInstance

end Types

section Sources

variable [Declares R]

instance (priority := low) {file : FileId} : Runs R (classOf? file) := .of_read fun _ => rfl

theorem declareClass_eq (package : String) (unit : ScopeId) (source : Source) :
    declareClass package unit source = (do
    let (id, s) ← openClass
      { name := source.className, package, underlying := .struct []
        classKind := some (if source.isEntry then .game else .sprite) }
      { name := source.className, kind := .typeName, package, definedAt :=
        some ⟨source.file, .empty 0⟩ } source
    modifyModel (·.declare unit source.className ⟨s, 0, false⟩)
    let scope ← addScope (fileScope unit source id)
    modifyModel fun m => { m with fileScopes := m.fileScopes ++ [(source.file, scope)] }) := rfl

instance (priority := low) {unit : ScopeId} : Runs R (declareClass package unit source) := by
  have hscope (scope : ScopeId) : Runs R (modifyModel fun m =>
      { m with fileScopes := m.fileScopes ++ [(source.file, scope)] }) :=
        .modifyScopes (fun _ => rfl) fun _ => rfl
  rw [declareClass_eq]
  refine .bind (Declares.openClass _ _ _ rfl) fun added => ?_
  infer_instance

instance (priority := low) {base : NamedId} : Runs R (embed owner base) := by
  unfold embed
  refine .bind inferInstance fun m => .bind inferInstance fun id => .modifyNamed_of fun n => ?_
  cases hn : n.underlying with
  | struct fields => exact .inr ⟨rfl, rfl⟩
  | _ => exact .inl hn

instance (priority := low) : Runs R (embedBases source) := .embedBases

omit [Declares R] in
theorem Runs.withinSource [TypeRoutine R] {body : ScopeId → Option NamedId → CheckM Unit}
    (h : ∀ scope fileClass, Runs R (body scope fileClass)) : Runs R (withinSource package source body) := by
  have hclass : Runs R (classOf? source.file) := .of_read fun _ => rfl
  unfold Check.withinSource
  refine .bind inferInstance fun m => ?_
  split
  · exact .bind hclass fun fileClass => .withinContext (h _ fileClass)
  · infer_instance

instance (priority := low) : Runs R openUnit := by
  have hunit (unit : ScopeId) : Runs R (modifyModel ({ · with unitScope := unit })) :=
    .modifyScopes (fun _ => rfl) fun _ => rfl
  unfold openUnit
  infer_instance

end Sources

section Packages

variable [DeclaresTypes R] [DeclaresFuncs R] [DeclaresSpecs R] [∀ fileClass, Fills R fileClass]

instance (priority := low) : Runs R (declareSources package sources) := by
  rw [declareSources_eq]
  unfold declareRest
  refine .bind inferInstance fun unit => .bind (.forM fun source _ => inferInstance) fun _ =>
    .bind (.forM fun source _ => inferInstance) fun _ => ?_
  refine .bind (.forM fun source _ => .withinSource fun _ _ => inferInstance) fun _ => ?_
  exact .forM fun source _ => .withinSource fun _ _ => inferInstance

instance (priority := low) : Runs R declarePredeclared := by
  have hscope (scope : ScopeId) : Runs R (modifyModel ({ · with predeclared := scope })) :=
    .modifyScopes (fun _ => rfl) fun _ => rfl
  have hdeclare (x : Symbol) (id : SymbolId) :
      Runs R (modifyModel fun m => m.declare m.predeclared x.name ⟨id, 0, false⟩) :=
    .modifyScopes (fun _ => rfl) fun _ => rfl
  unfold declarePredeclared
  refine .bind inferInstance fun scope => .bind inferInstance fun _ => .forM fun x hx => ?_
  have hplain : ∀ x ∈ predeclaredSymbols, x.ty.named? = none := by simp [predeclaredSymbols, Ty.named?]
  have hadd : Runs R (addSymbol x) := ⟨fun s => Declares.unnamed s x (hplain x hx)⟩
  unfold declareName
  infer_instance

instance (priority := low) {p : Prelude.Package} : Runs R (declarePackage p) := by
  have hscope (scope : ScopeId) :
      Runs R (modifyModel fun m => { m with packages := m.packages ++ [(p.path, scope)] }) :=
    .modifyScopes (fun _ => rfl) fun _ => rfl
  unfold declarePackage
  refine .bind inferInstance fun m => .bind inferInstance fun scope => .bind inferInstance fun _ => ?_
  exact .withinContext inferInstance

-- What the bundled packages declare.
def declareBundle : CheckM Unit := do
  declarePredeclared
  Prelude.packages.forM declarePackage

instance (priority := low) : Runs R declareBundle := by
  unfold declareBundle
  exact .bind inferInstance fun _ => .forM fun _ _ => inferInstance

omit [DeclaresTypes R] [DeclaresFuncs R] [DeclaresSpecs R] in
theorem bundle_eq : bundle = (do
    declareBundle
    resolveDeclarations (rulesFor (Prelude.packages.map (·.tree)))) := by
  rw [bundle, declareBundle, bind_assoc]

end Packages

section Bodies

instance (priority := low) [Routine R] [Resolves R] {trees : List Tree} : RunsRules R (rulesFor trees) := by
  unfold rulesFor
  infer_instance

variable [Routine R] [Resolves R] {r : Rules} [RunsRules R r]

instance (priority := low) : Runs R (checkFuncBody r decl) := by
  unfold checkFuncBody
  split
  · refine .bind inferInstance fun s => .inNewScope (.returningResults ?_)
    extract_lets next results params
    have hresults (u : Unit) : Runs R (results u) := by
      unfold results next
      split <;> infer_instance
    clear_value results
    have hparams (u : Unit) : Runs R (params u) := by
      unfold params
      split <;> infer_instance
    clear_value params
    split
    · split
      · split <;> infer_instance
      · infer_instance
    · infer_instance
  · infer_instance

instance (priority := low) : Runs R (checkItem r item) := by
  unfold checkItem
  split <;> infer_instance

instance (priority := low) : Runs R (checkSources r package sources) := by
  unfold checkSources
  refine .bind (.forIn fun source _ _ => ?_) fun _ => inferInstance
  exact .bind (.withinSource fun _ _ => .forM fun item _ => inferInstance) fun _ => inferInstance

end Bodies

section Resolving

-- What the types stand for is found before everything else.
def resolveTypes : CheckM Unit := do
  let declared := (← get).typeDecls.reverse
  declared.forM fun (id, _) => resolveNamed (declared.length + 1) id

def resolveOthers (r : Rules) : CheckM Unit := do
  let aliases ← modifyGet fun s => (s.aliases.reverse, { s with aliases := [] })
  aliases.forM fun (id, pending) => resolveAlias id pending
  let funcs ← modifyGet fun s => (s.funcs.reverse, { s with funcs := [] })
  funcs.forM fun (id, pending) => resolveFunc id pending
  (List.range (← get).specs.size).forM (resolveSpec r)

def resolveAliases : CheckM Unit := do
  let aliases ← modifyGet fun s => (s.aliases.reverse, { s with aliases := [] })
  aliases.forM fun (id, pending) => resolveAlias id pending

def resolveFuncs : CheckM Unit := do
  let funcs ← modifyGet fun s => (s.funcs.reverse, { s with funcs := [] })
  funcs.forM fun (id, pending) => resolveFunc id pending

-- Aliases and functions have their types before any specification is looked into.
def resolveSignatures : CheckM Unit := do
  resolveAliases
  resolveFuncs

def resolveSpecs (r : Rules) : CheckM Unit := do
  (List.range (← get).specs.size).forM (resolveSpec r)

theorem resolveOthers_eq (r : Rules) : resolveOthers r = (do resolveSignatures; resolveSpecs r) := by
  simp only [resolveOthers, resolveSignatures, resolveAliases, resolveFuncs, resolveSpecs, bind_assoc]

theorem resolveDeclarations_eq (r : Rules) : resolveDeclarations r = (do resolveTypes; resolveOthers r) := by
  simp only [resolveDeclarations, resolveTypes, resolveOthers, forIn_eq_forM, bind_assoc, bind_pure_unit,
    List.forM_eq_forM]

theorem Runs.resolveTypes [IsPreorder State R] (h : ∀ fuel id, Runs R (resolveNamed fuel id)) :
    Runs R resolveTypes := by
  unfold Check.resolveTypes
  exact .bind inferInstance fun s => .forM fun d _ => h _ d.1

theorem Runs.resolveSignatures [Routine R] (haliases : ∀ s aliases, R s { s with aliases })
    (hfuncs : ∀ s funcs, R s { s with funcs })
    (hsymbol : ∀ s id f, R s { s with model := s.model.modifySymbol id f }) : Runs R resolveSignatures := by
  have hmodify (id : SymbolId) (f : Symbol → Symbol) : Runs R (modifyModel (·.modifySymbol id f)) :=
    ⟨fun s => hsymbol s id f⟩
  have halias (id : SymbolId) (pending : PendingDecl) : Runs R (resolveAlias id pending) := by
    unfold resolveAlias
    refine .bind (.withinContext ?_) fun ty => inferInstance
    split <;> infer_instance
  have hfunc (id : SymbolId) (pending : PendingDecl) : Runs R (resolveFunc id pending) := by
    unfold resolveFunc
    exact .bind (.withinContext inferInstance) fun signature => inferInstance
  have haliased : Runs R resolveAliases :=
    .bind ⟨fun s => haliases s []⟩ fun aliases => .forM fun x _ => halias x.1 x.2
  have hcalled : Runs R resolveFuncs :=
    .bind ⟨fun s => hfuncs s []⟩ fun funcs => .forM fun x _ => hfunc x.1 x.2
  exact .bind haliased fun _ => hcalled

instance (priority := low) [Routine R] [Resolves R] {r : Rules} [hr : RunsRules R r] :
    Runs R (resolveSpecs r) := by
  unfold resolveSpecs
  exact .bind inferInstance fun s => .forM fun index _ => Resolves.resolveSpec r index hr

theorem Runs.resolveOthers [Routine R] [Resolves R] {r : Rules} [RunsRules R r]
    (haliases : ∀ s aliases, R s { s with aliases }) (hfuncs : ∀ s funcs, R s { s with funcs })
    (hsymbol : ∀ s id f, R s { s with model := s.model.modifySymbol id f }) : Runs R (resolveOthers r) := by
  rw [resolveOthers_eq]
  exact .bind (.resolveSignatures haliases hfuncs hsymbol) fun _ => inferInstance

end Resolving

end SpriteScript.Check
