import SpriteScript.Proofs.Checking.Statements

-- Declarations: names are bound, and their types are found.
namespace SpriteScript.Check

-- The instances for the parts of a long function are found in one search.
set_option synthInstance.maxSize 1000

variable {w : Stage} {file : FileId}

section Binding

instance (scope : ScopeId) (decl : Tree) [hdecl : Sits w file decl] :
    Keeps w file (declareTypeName scope decl) := by
  unfold declareTypeName
  split
  case h_1 ident hident =>
    refine Keeps.context_bind (P := (Sits · file decl)) hdecl fun w c hdecl hc hroom => ?_
    have hword : FreeWord w file ident := .of_bind_ident? hident
    have halias (id : SymbolId) : Keeps w file
        (modify fun st => { st with aliases := (id, ⟨c, decl⟩) :: st.aliases } : CheckM Unit) :=
      .of_sane (fun _ => rfl) (fun _ => rfl) (fun _ => rfl) (fun _ => List.suffix_rfl) fun _ hs =>
        { hs with aliases := List.forall_mem_cons.mpr ⟨hs.deferred hroom (hc ▸ hdecl), hs.aliases⟩ }
    have htype (id : NamedId) : Keeps w file
        (modify fun st => { st with typeDecls := (id, ⟨c, decl⟩) :: st.typeDecls } : CheckM Unit) :=
      .of_sane (fun _ => rfl) (fun _ => rfl) (fun _ => rfl) (fun _ => List.suffix_rfl) fun _ hs =>
        { hs with typeDecls := List.forall_mem_cons.mpr ⟨hs.deferred hroom (hc ▸ hdecl), hs.typeDecls⟩ }
    refine Keeps.bind_of inferInstance ensures_declared fun x hx => ?_
    extract_lets next
    have hstays (id : SymbolId) : Stays w file (next id) := by
      unfold next
      infer_instance
    have hnext (id : SymbolId) (_ : Names w id ident.text) (_ : DefinedAt w id file (rangeOf ident)) :
        Keeps w file (next id) := by
      unfold next
      infer_instance
    have hfirst := hword.toApart.not_first
    simp only [pure_bind]
    split
    · refine Keeps.addSymbol_bind hx (.inl ⟨hword.kind, rfl⟩) hfirst (fun id => inferInstance)
        fun id hid hdef => ?_
      exact .bind (halias id) fun _ => hnext id hid hdef
    · have hnew (package : String) : Keeps w file (addNamed { name := ident.text, package }) := .addNamed rfl
      refine .bind (hnew _) fun named => ?_
      refine Keeps.addSymbol_bind hx (.inl ⟨hword.kind, rfl⟩) hfirst (fun id => inferInstance)
        fun id hid hdef => ?_
      exact .bind (Keeps.modifyNamed fun _ h => h) fun _ => .bind (htype named) fun _ => hnext id hid hdef
  case h_2 => infer_instance

instance (root : Tree) (scope : ScopeId) [Sits w file root] :
    Keeps w file (declareTypeNames root scope) := by
  unfold declareTypeNames
  refine .forM fun decl hdecl => ?_
  have : Sits w file decl := .of_mem hdecl
  infer_instance

instance (spec : Tree) [hspec : Imports w file spec] : Keeps w file (declareImport spec) := by
  unfold declareImport
  split
  case h_1 path token _ htoken =>
    obtain ⟨text, htext, hlisted⟩ := hspec.listed
    have hfree : Free w file token := .of_find? htoken
    refine .bind inferInstance fun m => ?_
    split
    · infer_instance
    · extract_lets alias? name range
      refine Keeps.bind_of inferInstance ensures_context fun c hc => ?_
      have hplace : ∃ s, Free w file s ∧ range = rangeOf s ∧ NameOrImport w file s name := by
        cases halias : alias? with
        | none =>
            have hbare : BareImport w file token := ⟨text, htext, spec, hlisted, htoken, halias⟩
            exact ⟨token, hfree, by simp [range, halias], .inr hbare⟩
        | some ident =>
            have hword : FreeWord w file ident := .of_bind_ident? halias
            exact ⟨ident, inferInstance, by simp [range, halias], .inl ⟨hword.kind, by simp [name, halias]⟩⟩
      obtain ⟨s, hs, hrange, hname⟩ := hplace
      clear_value range name
      subst hrange
      exact Keeps.addSymbol_bind (by rw [Symbol.origin, hc]) hname hs.toApart.not_first
        (fun id => inferInstance) fun id _ _ => inferInstance
  case h_2 => infer_instance

instance (spec : Tree) (symbols : List SymbolId) (isConst : Bool) [hspec : SpecSits w file spec] :
    Keeps w file (pushSpec spec symbols isConst) := by
  unfold pushSpec
  refine Keeps.context_bind (P := (SpecSits · file spec)) hspec fun w c hspec hc hroom => ?_
  refine .of_sane (fun _ => rfl) (fun _ => rfl) (fun _ => rfl) (fun _ => List.suffix_rfl) fun s hs =>
    { hs with specs := forall_push hs.specs (hs.deferred hroom (hc ▸ hspec)) }

-- The names that a specification of a file declares, with whether they are first variables.
def DeclaresIn (w : Region) (file : FileId) (first : Bool) (decl : Tree) : Prop :=
  ∀ spec ∈ decl.specs, SpecSits w file spec ∧
    ∀ ident ∈ spec.names.filterMap Tree.ident?, Word w file ident ∧
      (first = true ↔ ident ∈ w.firstVarIdents file)

theorem declaresIn_of_sits {decl : Tree} [Sits w file decl] : DeclaresIn w file false decl := by
  intro spec hspec
  have : Sits w file spec := .of_mem hspec
  refine ⟨inferInstance, fun ident hident => ?_⟩
  have hword : FreeWord w file ident := .of_mem_idents hident
  exact ⟨inferInstance, hword.toApart.not_first⟩

theorem keeps_declareField {owner : NamedId} {ident : Token} [Word w file ident]
    (hfirst : ident ∈ w.firstVarIdents file) : Keeps w file (declareField owner ident) := by
  have hfirst : true = true ↔ ident ∈ w.firstVarIdents file := ⟨fun _ => hfirst, fun _ => rfl⟩
  unfold declareField
  refine (Yields.declared_bind_first (P := fun _ => True) hfirst
    (fun _ _ => rfl) (fun _ => inferInstance) fun id hname hdef => Keeps.yields ?_).keeps
  have hadd : Keeps w file (modifyModel (·.modifyNamed owner fun n =>
      { n with underlying := .struct (n.fields ++ [⟨id, ident.text, .invalid, false⟩]) })) := by
    refine .modifyNamed fun n hn f hf => ?_
    rcases List.mem_append.mp hf with hf | hf
    · exact hn f hf
    · rwa [List.mem_singleton.mp hf]
  infer_instance

theorem keeps_declareFields {owner : NamedId} {decl : Tree} (h : DeclaresIn w file true decl) :
    Keeps w file (declareFields owner decl) := by
  unfold declareFields
  refine .bind (.forIn fun spec hspec _ => ?_) fun _ => inferInstance
  obtain ⟨_, hnames⟩ := h spec hspec
  refine .bind (.mapM fun ident hident => ?_) fun symbols => inferInstance
  obtain ⟨_, hfirst⟩ := hnames ident hident
  exact keeps_declareField (hfirst.mp rfl)

theorem keeps_declareSpecName {scope : ScopeId} {kind : SymbolKind} {ident : Token} [Word w file ident]
    (hfirst : false = true ↔ ident ∈ w.firstVarIdents file) :
    Keeps w file (declareSpecName scope kind ident) := by
  unfold declareSpecName
  refine (Yields.declared_bind_first (P := fun _ => True) hfirst (fun x hx => ?_) (fun _ => inferInstance)
    fun id _ _ => Keeps.yields inferInstance).keeps
  rw [Symbol.origin, hx]

theorem keeps_declareSpecs {scope : ScopeId} {isConst : Bool} {decl : Tree}
    (h : DeclaresIn w file false decl) : Keeps w file (declareSpecs scope isConst decl) := by
  unfold declareSpecs
  refine .bind (.forIn fun spec hspec _ => ?_) fun _ => inferInstance
  obtain ⟨_, hnames⟩ := h spec hspec
  refine .bind (.mapM fun ident hident => ?_) fun symbols => inferInstance
  obtain ⟨_, hfirst⟩ := hnames ident hident
  exact keeps_declareSpecName hfirst

instance (receiver : Tree) [Sits w file receiver] : Keeps w file (receiverNamed? receiver) := by
  unfold receiverNamed?
  split
  case h_1 param hparam =>
    have : Sits w file param := .of_childWith? hparam
    extract_lets ident?
    have hident? (ident : Token) (hident : ident? = some ident) : FreeWord w file ident := by
      unfold ident? at hident
      split at hident
      case h_1 type htype =>
        have : Sits w file type := .of_childWith? htype
        exact freeWord_of_embeddedName? hident
      case h_2 => exact .of_bind_ident? hident
    clear_value ident?
    split
    case h_1 ident =>
      have := hident? ident rfl
      refine Keeps.bind_find inferInstance finds_typeSymbol? (fun found => ?_) fun found hfound => ?_
      · split <;> infer_instance
      · split
        case h_1 id =>
          have := hfound id rfl
          infer_instance
        case h_2 => infer_instance
    case h_2 => infer_instance
  case h_2 => infer_instance

-- Bundled packages may declare a symbol again, under its name.
theorem DefinedAt.of_bundled {id : SymbolId} {ident : Token} [hident : FreeWord w file ident]
    (h : file.isBundled = true) (hname : Names w id ident.text) :
    DefinedAt w id file (rangeOf ident) := by
  obtain ⟨o, ho, hname⟩ := hname.exists_origin
  refine ⟨fun hsource => ?_, fun _ => ⟨ident, o, inferInstance, rfl, ho, .inl ⟨hident.kind, hname.symm⟩⟩⟩
  rw [h] at hsource
  cases hsource

theorem run_declareMethod (owner : NamedId) (ident : Token) (s : State) :
    ∃ x : Symbol, x.name = ident.text ∧ x.kind = .method ∧ x.value = none ∧
      (declareMethod owner ident).run s = StateT.run (
      match (s.model.namedType owner).methods.find? fun id => (s.model.symbol id).name == ident.text with
      | some existing =>
          if s.context.file.isBundled then
            return existing
          else do
            problem (rangeOf ident) (.duplicateMethod ident.text)
            addSymbol x
      | none => do
          let id ← addSymbol x
          modifyModel (·.modifyNamed owner fun n => { n with methods := n.methods ++ [id] })
          return id) s :=
  ⟨{ name := ident.text, kind := .method, package := s.context.package
     definedAt := some ⟨s.context.file, rangeOf ident⟩, owner := some owner }, rfl, rfl, rfl, rfl⟩

theorem yields_declareMethod {owner : NamedId} {ident : Token} [hident : FreeWord w file ident] :
    Yields w file (declareMethod owner ident) fun id =>
      Names w id ident.text ∧ DefinedAt w id file (rangeOf ident) := by
  have hfresh (x : Symbol) (hx : x.origin = ⟨ident.text, .method, some ⟨file, rangeOf ident⟩, false⟩) :
      Yields w file (addSymbol { x with owner := some owner }) fun id =>
        Names w id ident.text ∧ DefinedAt w id file (rangeOf ident) := by
    have horigin : ({ x with owner := some owner } : Symbol).origin = _ := hx
    refine (Yields.addSymbol horigin ?_).mono fun id hid =>
      ⟨⟨_, hid, rfl⟩, ⟨fun _ => ⟨_, hid, rfl⟩,
        fun _ => ⟨ident, _, inferInstance, rfl, hid, .inl ⟨hident.kind, rfl⟩⟩⟩⟩
    exact fits_of_stands (.inl rfl) hident.toApart.not_first
  unfold declareMethod
  refine .bind (ensures_context.yields inferInstance) (fun c => ?_) fun c hc =>
    .bind ⟨inferInstance, finds_model⟩ (fun m => ?_) fun m hm => ?_
  · refine .bind inferInstance fun m => .bind inferInstance fun x => ?_
    dsimp only
    split <;> infer_instance
  · refine .bind inferInstance fun x => ?_
    dsimp only
    split <;> infer_instance
  · have hexisting (id : SymbolId)
        (h : (m.namedType owner).methods.find? (fun id => (m.symbol id).name == ident.text) = some id) :
        Names w id ident.text :=
      hm.2.names (beq_iff_eq.mp (List.find?_some h :)) hident.text_ne_empty
    dsimp only
    generalize (m.namedType owner).methods.find? _ = existing? at hexisting
    refine .bind (ensures_declared.yields inferInstance) (fun x => ?_) fun x hx => ?_
    · split <;> infer_instance
    · split
      case h_1 existing =>
        split
        case isTrue hbundled =>
          exact .pure ⟨hexisting existing rfl, .of_bundled (hc ▸ hbundled) (hexisting existing rfl)⟩
        case isFalse =>
          exact .bind (Keeps.yields inferInstance) (fun _ => inferInstance) fun _ _ => hfresh x hx
      case h_2 =>
        refine .bind (hfresh x hx) (fun id => inferInstance) fun id hid => ?_
        have hadd : Keeps w file (modifyModel (·.modifyNamed owner fun n =>
            { n with methods := n.methods ++ [id] })) :=
          .modifyNamed fun _ h => h
        exact .bind hadd.yields (fun _ => inferInstance) fun _ _ => .pure hid

theorem yields_declareFunction {scope : ScopeId} {ident : Token} [hident : FreeWord w file ident] :
    Yields w file (declareFunction scope ident) fun id =>
      Names w id ident.text ∧ DefinedAt w id file (rangeOf ident) := by
  unfold declareFunction
  refine .bind (ensures_context.yields inferInstance) (fun c => ?_) fun c hc =>
    .bind ⟨inferInstance, finds_model⟩ (fun m => ?_) fun m hm => ?_
  · refine .bind inferInstance fun m => ?_
    dsimp only
    split <;> infer_instance
  · dsimp only
    split <;> infer_instance
  · have hfresh : Yields w file (do
        let id ← addSymbol (← declared ident .func)
        bind scope ident.text id (rangeOf ident)
        return id) fun id => Names w id ident.text ∧ DefinedAt w id file (rangeOf ident) := by
      refine .declared_bind (fun _ => rfl) (fun id => inferInstance) fun id hname hdef => ?_
      exact .bind (Keeps.yields inferInstance) (fun _ => inferInstance) fun _ _ => .pure ⟨hname, hdef⟩
    dsimp only
    split
    case h_1 existing hexisting =>
      split
      case isTrue hbundled =>
        have hname := hm.1.names_of_bound? (Option.filter_eq_some_iff.mp hexisting).1
        exact .pure ⟨hname, .of_bundled (hc ▸ hbundled) hname⟩
      case isFalse => exact hfresh
    case h_2 => exact hfresh

instance (scope : ScopeId) (fileClass : Option NamedId) (decl : Tree) [hdecl : Sits w file decl] :
    Keeps w file (declareFunc scope fileClass decl) := by
  unfold declareFunc
  split
  case h_1 ident hident =>
    have hword : FreeWord w file ident := .of_bind_ident? hident
    extract_lets finish declare
    have hput (id : SymbolId) : Keeps w file (do
        let c ← context
        modify fun s => { s with funcs := (id, ⟨c, decl⟩) :: s.funcs } : CheckM Unit) :=
      Keeps.context_bind (P := (Sits · file decl)) hdecl fun w c hdecl hc hroom =>
        .of_sane (fun _ => rfl) (fun _ => rfl) (fun _ => rfl) (fun _ => List.suffix_rfl) fun _ hs =>
          { hs with funcs := List.forall_mem_cons.mpr ⟨hs.deferred hroom (hc ▸ hdecl), hs.funcs⟩ }
    have hstays (id : SymbolId) : Stays w file (finish id) := by
      have := hput id
      exact .bind inferInstance fun _ => inferInstance
    have hfinish (id : SymbolId) (h : Names w id ident.text ∧ DefinedAt w id file (rangeOf ident)) :
        Keeps w file (finish id) := by
      have := h.2
      exact .bind inferInstance fun _ => hput id
    have hdeclare (owner? : Option NamedId) : Keeps w file (declare owner?) := by
      unfold declare
      split
      · exact Keeps.bind_yields yields_declareMethod hstays hfinish
      · exact Keeps.bind_yields yields_declareFunction hstays hfinish
    split
    case h_1 receiver hreceiver =>
      have : Sits w file receiver := .of_childWith? hreceiver
      exact .bind inferInstance hdeclare
    case h_2 => exact .bind inferInstance hdeclare
  case h_2 => infer_instance

-- What one item of a file declares; its body is not looked into yet.
def declareItem (scope : ScopeId) (fileClass : Option NamedId) (first : Bool) (item : Tree) : CheckM Unit :=
  match item.kind?, fileClass with
  | some .importDecl, _ => (item.childrenOf .importSpec).forM declareImport
  | some .varDecl, some owner => if first then declareFields owner item else declareSpecs scope false item
  | some .varDecl, none => declareSpecs scope false item
  | some .constDecl, _ => declareSpecs scope true item
  | some .funcDecl, _ => declareFunc scope fileClass item
  | _, _ => pure ()

theorem declareMembers_cons (scope : ScopeId) (fileClass : Option NamedId) (first : Bool) (item : Tree)
    (rest : List Tree) : declareMembers scope fileClass first (item :: rest) = (do
      declareItem scope fileClass first item
      declareMembers scope fileClass (first && !item.isA .varDecl) rest) := by
  conv_lhs => unfold declareMembers
  unfold declareItem
  cases item.kind? with
  | none => rfl
  | some kind => cases kind <;> cases fileClass <;> cases first <;> rfl

-- An item of the file that names no variable at its top.
class ItemSits (w : Region) (file : FileId) (item : Tree) : Prop extends Sits w file item where
  listed : ∃ text, w.text? file = some text ∧ item ∈ (Syntax.parse text).tree.children

-- Items of a file from one of them on. `first` says that no variables came before.
inductive Items (w : Region) (file : FileId) : Bool → List Tree → Prop
  | nil (first : Bool) : Items w file first []
  | vars {first : Bool} {item : Tree} {rest : List Tree} (kind : item.kind? = some .varDecl)
      (names : DeclaresIn w file first item) (later : Items w file false rest) :
      Items w file first (item :: rest)
  | other {first : Bool} {item : Tree} {rest : List Tree} (kind : item.kind? ≠ some .varDecl)
      (sits : ItemSits w file item) (later : Items w file first rest) : Items w file first (item :: rest)

theorem keeps_declareImports {item : Tree} [hitem : ItemSits w file item]
    (hkind : item.kind? = some .importDecl) :
    Keeps w file ((item.childrenOf .importSpec).forM declareImport) := by
  obtain ⟨text, htext, hmem⟩ := hitem.listed
  have hdecl : item ∈ (Syntax.parse text).tree.childrenOf .importDecl :=
    List.mem_filter.mpr ⟨hmem, by rw [hkind]; rfl⟩
  refine .forM fun spec hspec => ?_
  have hsits : Sits w file spec := .of_mem hspec
  have : Imports w file spec :=
    { toSits := hsits, listed := ⟨text, htext, List.mem_flatMap_of_mem hdecl hspec⟩ }
  infer_instance

theorem keeps_declareVars {scope : ScopeId} {owner : NamedId} {first : Bool} {item : Tree}
    (kind : item.kind? = some .varDecl) (names : DeclaresIn w file first item) :
    Keeps w file (declareItem scope (some owner) first item) := by
  unfold declareItem
  simp only [kind]
  cases first with
  | true => exact keeps_declareFields names
  | false => exact keeps_declareSpecs names

-- An item that makes no field.
theorem keeps_declareItem {scope : ScopeId} {fileClass : Option NamedId} {first : Bool} {item : Tree}
    [ItemSits w file item] (h : fileClass = none ∨ item.kind? ≠ some .varDecl) :
    Keeps w file (declareItem scope fileClass first item) := by
  unfold declareItem
  split
  case h_1 himport => exact keeps_declareImports himport
  case h_2 hvars =>
    rcases h with hnone | hkind
    · cases hnone
    · exact absurd hvars hkind
  case h_3 => exact keeps_declareSpecs declaresIn_of_sits
  case h_4 => exact keeps_declareSpecs declaresIn_of_sits
  case h_5 => infer_instance
  case h_6 => infer_instance

-- The files of the program have a class, the first variables of which are fields.
theorem keeps_declareMembers {scope : ScopeId} {owner : NamedId} {first : Bool} {items : List Tree}
    (h : Items w file first items) : Keeps w file (declareMembers scope (some owner) first items) := by
  induction h with
  | nil first =>
      unfold declareMembers
      infer_instance
  | @vars first item rest kind names later ih =>
      have hlast : (first && !item.isA .varDecl) = false := by simp [Tree.isA, kind]
      rw [declareMembers_cons, hlast]
      exact .bind (keeps_declareVars kind names) fun _ => ih
  | @other first item rest kind sits later ih =>
      have hlast : (first && !item.isA .varDecl) = first := by simp [Tree.isA, kind]
      rw [declareMembers_cons, hlast]
      exact .bind (keeps_declareItem (.inr kind)) fun _ => ih

-- Bundled packages have no classes.
theorem keeps_declareMembers_none {scope : ScopeId} {first : Bool} {items : List Tree}
    (h : ∀ item ∈ items, ItemSits w file item) : Keeps w file (declareMembers scope none first items) := by
  induction items generalizing first with
  | nil =>
      unfold declareMembers
      infer_instance
  | cons item rest ih =>
      have : ItemSits w file item := h item List.mem_cons_self
      rw [declareMembers_cons]
      exact .bind (keeps_declareItem (.inl rfl)) fun _ => ih fun t ht => h t (List.mem_cons_of_mem item ht)

end Binding

section Finding

-- What a type is declared as is spelled.
def SpelledType (w : Setting) (u : Underlying) : Prop := ∀ fields, u = .struct fields → Spelled w fields

theorem keeps_setUnderlying {id : NamedId} {underlying : Underlying} (h : SpelledType w underlying) :
    Keeps w file (modifyModel (·.modifyNamed id fun n => { n with underlying })) := by
  refine .modifyNamed fun n hn => ?_
  unfold NamedType.fields
  dsimp only
  split
  · exact h _ rfl
  · exact nofun

theorem spelledType_underlyingOf {m : Model} (hm : m.Fits w) (ty : Ty) :
    SpelledType w (underlyingOf m ty) := by
  unfold underlyingOf
  split
  case h_1 id =>
    have hspelled := hm.spelled_fields id
    split
    · rintro _ ⟨⟩
    · intro fields hfields
      rwa [NamedType.fields, hfields] at hspelled
  case h_2 => rintro _ ⟨⟩

theorem yields_model_underlyingOf {ty : Ty} :
    Yields w file (do return underlyingOf (← model) ty) (SpelledType w) :=
  .bind ⟨inferInstance, finds_model⟩ (fun _ => inferInstance) fun _ hm =>
    .pure (spelledType_underlyingOf hm.1 ty)

instance (fuel : Nat) (id : NamedId) : Keeps w file (resolveNamed fuel id) := by
  induction fuel generalizing w file id with
  | zero =>
      unfold resolveNamed
      infer_instance
  | succ fuel ih =>
      unfold resolveNamed
      refine .bind inferInstance fun named => ?_
      split
      · infer_instance
      · refine Keeps.bind_from (P := fun m s => ∀ p ∈ s.typeDecls, p.2.Waits w m) inferInstance
          (fun s hs => hs.typeDecls) fun m s htypes => ?_
        dsimp only
        split
        case h_1 owner pending hpending =>
          obtain ⟨span, hroom, hsits⟩ := htypes _ (List.mem_of_find?_eq_some hpending)
          have hrange : InText (⟨w, span⟩ : Region) pending.context.file
              ((pending.decl.name?.map Tree.range).getD pending.decl.range) := by
            cases hname : pending.decl.name? with
            | none =>
                exact (inferInstance : InText (⟨w, span⟩ : Region) pending.context.file pending.decl.range)
            | some name =>
                have : Sits ⟨w, span⟩ pending.context.file name := .of_childWith? hname
                exact (inferInstance : InText (⟨w, span⟩ : Region) pending.context.file name.range)
          have hset (underlying : Underlying) (h : SpelledType w underlying) : Keeps { w with base := m } file
              (modifyModel (·.modifyNamed id fun n => { n with underlying })) :=
            keeps_setUnderlying h
          have hinvalid := hset (.type .invalid) nofun
          have hmark (f : List NamedId → List NamedId) : Keeps { w with base := m } file
              (modify fun s => { s with resolving := f s.resolving } : CheckM Unit) :=
            .of_sane (fun _ => rfl) (fun _ => rfl) (fun _ => rfl) (fun _ => List.suffix_rfl) fun _ hs =>
              { hs with }
          refine .bind inferInstance fun s => ?_
          split
          · infer_instance
          · refine .bind (hmark (id :: ·)) fun _ => ?_
            refine Keeps.bind_yields (.within (P := SpelledType w) hroom ?_) (fun underlying => ?_)
              fun underlying hunderlying => ?_
            · split
              case h_1 t ht =>
                have : Sits ⟨w, span⟩ pending.context.file t := .of_childWith? ht
                split
                · exact .bind yields_structFields (fun _ => inferInstance) fun fields hfields =>
                    .pure fun _ heq => Underlying.struct.inj heq ▸ hfields
                · exact .bind (Keeps.yields inferInstance) (fun _ => inferInstance) fun _ _ => .pure nofun
                · refine .bind (Keeps.yields inferInstance) (fun ty => ?_) fun ty _ => ?_
                  · split <;> infer_instance
                  · split
                    · exact .bind (ih _).yields (fun _ => inferInstance) fun _ _ => yields_model_underlyingOf
                    · exact yields_model_underlyingOf
              case h_2 => exact .pure nofun
            · have := hmark (·.erase id)
              infer_instance
            · have := hmark (·.erase id)
              have := hset underlying hunderlying
              infer_instance
        case h_2 => infer_instance

-- What is put off is looked into in its own place.
theorem keeps_resolveAlias {id : SymbolId} {pending : PendingDecl}
    (h : pending.Waits w w.base) :
    Keeps w file (resolveAlias id pending) := by
  obtain ⟨span, hroom, _⟩ := h
  have hset (ty : Ty) : Keeps w file (modifyModel (·.modifySymbol id fun s => { s with ty })) :=
    .modifySymbol fun _ => rfl
  unfold resolveAlias
  refine .bind (Keeps.within hroom ?_) hset
  split
  case h_1 t ht =>
    have : Sits ⟨w, span⟩ pending.context.file t := .of_childWith? ht
    infer_instance
  case h_2 => infer_instance

theorem keeps_resolveFunc {id : SymbolId} {pending : PendingDecl}
    (h : pending.Waits w w.base) :
    Keeps w file (resolveFunc id pending) := by
  obtain ⟨span, hroom, _⟩ := h
  have hset (signature : Signature) : Keeps w file (modifyModel (·.modifySymbol id fun s =>
      { s with
        signatures := s.signatures ++ [signature]
        ty := if s.signatures.isEmpty then signature.toTy else s.ty })) :=
    .modifySymbol fun _ => rfl
  unfold resolveFunc
  exact .bind (Keeps.within hroom inferInstance) hset

variable {r : Rules} [KeepsRules w r]

instance : Keeps w file (resolveDeclarations r) := by
  unfold resolveDeclarations
  refine .bind inferInstance fun s => .bind (.forIn fun entry _ _ => inferInstance) fun _ => ?_
  have haliases : Keeps w file (modifyGet fun s => (s.aliases.reverse, { s with aliases := [] }) :
      CheckM (List (SymbolId × PendingDecl))) :=
    .of_sane (fun _ => rfl) (fun _ => rfl) (fun _ => rfl) (fun _ => List.suffix_rfl) fun _ hs =>
      { hs with aliases := List.forall_mem_nil _ }
  refine Keeps.bind_from (P := fun m l => ∀ p ∈ l, p.2.Waits w m) haliases
    (fun s hs p hp => hs.aliases p (List.mem_reverse.mp hp))
    fun m aliases hlist => .bind (.forIn fun entry hentry _ => ?_) fun _ => ?_
  · have : Keeps { w with base := m } file (resolveAlias entry.1 entry.2) :=
      keeps_resolveAlias (hlist entry hentry)
    infer_instance
  have hfuncs : Keeps { w with base := m } file
      (modifyGet fun s => (s.funcs.reverse, { s with funcs := [] }) :
        CheckM (List (SymbolId × PendingDecl))) :=
    .of_sane (fun _ => rfl) (fun _ => rfl) (fun _ => rfl) (fun _ => List.suffix_rfl) fun _ hs =>
      { hs with funcs := List.forall_mem_nil _ }
  refine Keeps.bind_from (P := fun m l => ∀ p ∈ l, p.2.Waits w m) hfuncs
    (fun s hs p hp => hs.funcs p (List.mem_reverse.mp hp))
    fun m' funcs hlist => .bind (.forIn fun entry hentry _ => ?_) fun _ => ?_
  · have : Keeps { w with base := m' } file (resolveFunc entry.1 entry.2) :=
      keeps_resolveFunc (hlist entry hentry)
    infer_instance
  exact .bind inferInstance fun s => .bind (.forIn fun index _ _ => inferInstance) fun _ => inferInstance

end Finding

end SpriteScript.Check
