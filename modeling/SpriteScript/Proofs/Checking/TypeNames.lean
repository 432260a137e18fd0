import SpriteScript.Proofs.Checking.Underlying
import SpriteScript.Proofs.Identifiers.Parts

-- The symbols that name types. What they name is a type of the table, and no other symbol ever
-- comes to name one.
namespace SpriteScript

namespace Model

variable {m : Model} {x : SymbolId} {n : NamedId} {s : Symbol} {f : Symbol → Symbol}

theorem symbol_addSymbol (m : Model) (s : Symbol) : (m.addSymbol s).2.symbol ⟨m.symbols.size⟩ = s := by
  change (m.symbols.push s)[m.symbols.size]?.getD default = _
  rw [Array.getElem?_push_size, Option.getD_some]

theorem symbol_addSymbol_of_ne (m : Model) (s : Symbol) (h : x ≠ ⟨m.symbols.size⟩) :
    (m.addSymbol s).2.symbol x = m.symbol x := by
  have hne : x.index ≠ m.symbols.size := fun heq => h (congrArg SymbolId.mk heq)
  change (m.symbols.push s)[x.index]?.getD default = _
  rw [Array.getElem?_push, if_neg hne]
  rfl

theorem symbol_modifySymbol (m : Model) (f : Symbol → Symbol) (h : x.index < m.symbols.size) :
    (m.modifySymbol x f).symbol x = f (m.symbol x) := by
  unfold symbol modifySymbol
  rw [Array.getElem?_modify, if_pos rfl, Array.getElem?_eq_getElem h]
  rfl

theorem symbol_modifySymbol_of_ne (m : Model) {y : SymbolId} (f : Symbol → Symbol) (h : x ≠ y) :
    (m.modifySymbol y f).symbol x = m.symbol x := by
  have hne : y.index ≠ x.index := fun heq => h (congrArg SymbolId.mk heq.symm)
  unfold symbol modifySymbol
  rw [Array.getElem?_modify, if_neg hne]

-- The symbol is the name of the declared type.
def NamesType (m : Model) (x : SymbolId) (n : NamedId) : Prop :=
  (m.symbol x).kind = .typeName ∧ (m.symbol x).ty.named? = some n

theorem namesType_congr {m' : Model} (h : m'.symbols = m.symbols) : m'.NamesType x n ↔ m.NamesType x n := by
  unfold NamesType symbol
  rw [h]

theorem index_lt_of_kind (h : (m.symbol x).kind = .typeName) : x.index < m.symbols.size := by
  by_contra hx
  rw [symbol, Array.getElem?_eq_none (Nat.le_of_not_lt hx)] at h
  cases h

theorem NamesType.index_lt (h : m.NamesType x n) : x.index < m.symbols.size := m.index_lt_of_kind h.1

theorem namesType_addSymbol_iff :
    (m.addSymbol s).2.NamesType x n ↔ m.NamesType x n ∨ x = ⟨m.symbols.size⟩ ∧ s.kind = .typeName ∧
    s.ty.named? = some n := by
  by_cases hx : x = ⟨m.symbols.size⟩
  · subst hx
    have hnot : ¬ m.NamesType ⟨m.symbols.size⟩ n := fun h => lt_irrefl _ h.index_lt
    unfold NamesType at hnot ⊢
    rw [symbol_addSymbol, or_iff_right hnot, and_iff_right rfl]
  · unfold NamesType
    rw [m.symbol_addSymbol_of_ne s hx, or_iff_left fun h => hx h.1]

-- A symbol that names no type.
theorem namesType_addSymbol (h : s.kind.isTypeName = false ∨ s.ty.named? = none) :
    (m.addSymbol s).2.NamesType x n ↔ m.NamesType x n := by
  rw [namesType_addSymbol_iff, or_iff_left]
  rintro ⟨-, hkind, hty⟩
  rcases h with h | h
  · rw [hkind] at h
    cases h
  · rw [h] at hty
    cases hty

theorem symbols_addScope (m : Model) (x : Scope) : (m.addScope x).2.symbols = m.symbols := by
  unfold addScope
  dsimp only
  split <;> rfl

end Model

namespace Check

-- Types that are named are there, and no symbol that is put off names one.
structure TypesNamed (s : State) : Prop where
  known : ∀ x n, s.model.NamesType x n → n.index < s.model.named.size
  specs : ∀ p ∈ s.specs.toList, ∀ x ∈ p.symbols, s.model.NamesValue x

-- Where this holds it goes on to hold, and symbols keep their kinds. The names of types that are
-- kept stand for the same types as before.
structure Naming (kept : SymbolId → Prop) (s s' : State) : Prop where
  types : TypesNamed s → TypesNamed s'
  kinds : TypesNamed s → ∀ x : SymbolId, x.index < s.model.symbols.size →
    x.index < s'.model.symbols.size ∧ (s'.model.symbol x).kind = (s.model.symbol x).kind
  size : TypesNamed s → s.model.named.size ≤ s'.model.named.size
  lasts : TypesNamed s → ∀ x, kept x → (s.model.symbol x).kind = .typeName →
    (s'.model.symbol x).ty = (s.model.symbol x).ty

variable {kept : SymbolId → Prop} {s s' : State} {x : SymbolId}

-- What names a value goes on to do so.
theorem Naming.namesValue (h : Naming kept s s') (hs : TypesNamed s) (hx : s.model.NamesValue x) :
    s'.model.NamesValue x :=
  have hend := h.kinds hs x hx.1
  ⟨hend.1, (congrArg SymbolKind.isTypeName hend.2).trans hx.2⟩

theorem Naming.kind_eq (h : Naming kept s s') (hs : TypesNamed s) (hx : (s.model.symbol x).kind = .typeName) :
    (s'.model.symbol x).kind = .typeName :=
  (h.kinds hs x (Model.index_lt_of_kind hx)).2.trans hx

theorem Naming.mono {kept' : SymbolId → Prop} (h : Naming kept s s') (hkept : ∀ x, kept' x → kept x) :
    Naming kept' s s' :=
  { h with lasts := fun hs x hx => h.lasts hs x (hkept x hx) }

instance : IsPreorder State (Naming kept) where
  refl _ := ⟨fun h => h, fun _ _ h => ⟨h, rfl⟩, fun _ => le_rfl, fun _ _ _ _ => rfl⟩
  trans _ _ _ h h' := {
    types := fun hs => h'.types (h.types hs)
    kinds := fun hs x hx =>
      have hmid := h.kinds hs x hx
      have hend := h'.kinds (h.types hs) x hmid.1
      ⟨hend.1, hend.2.trans hmid.2⟩
    size := fun hs => (h.size hs).trans (h'.size (h.types hs))
    lasts := fun hs x hx hkind =>
      (h'.lasts (h.types hs) x hx (h.kind_eq hs hkind)).trans (h.lasts hs x hx hkind) }

theorem naming_of (h : TypesNamed s → Naming kept s s') : Naming kept s s' :=
  ⟨fun hs => (h hs).types hs, fun hs => (h hs).kinds hs, fun hs => (h hs).size hs, fun hs => (h hs).lasts hs⟩

theorem naming_of_symbols (hsymbols : s'.model.symbols = s.model.symbols)
    (hsize : s.model.named.size ≤ s'.model.named.size) (hspecs : s'.specs = s.specs) :
    Naming kept s s' where
  kinds _ x hx := by
    unfold Model.symbol
    rw [hsymbols]
    exact ⟨hx, rfl⟩
  size _ := hsize
  lasts _ x _ _ := by rw [Model.symbol, Model.symbol, hsymbols]
  types hs := by
    refine ⟨fun x n hx => (hs.known x n ((Model.namesType_congr hsymbols).mp hx)).trans_le hsize, ?_⟩
    unfold Model.NamesValue Model.symbol
    rw [hspecs, hsymbols]
    exact hs.specs

-- A new symbol names a type only if it is there.
theorem naming_addSymbol (s : State) {x : Symbol}
    (hx : ∀ n, x.kind = .typeName → x.ty.named? = some n → n.index < s.model.named.size) :
    Naming kept s { s with model := (s.model.addSymbol x).2 } := by
  have hold (y : SymbolId) (hy : y.index < s.model.symbols.size) :
      y.index < (s.model.symbols.push x).size ∧ (s.model.addSymbol x).2.symbol y = s.model.symbol y := by
    refine ⟨Array.size_push _ ▸ hy.trans (Nat.lt_succ_self _), s.model.symbol_addSymbol_of_ne x ?_⟩
    rintro rfl
    exact lt_irrefl _ hy
  refine ⟨fun hs => ⟨fun y n hy => ?_, fun p hp y hy => ?_⟩,
    fun _ y hy => ⟨(hold y hy).1, congrArg Symbol.kind (hold y hy).2⟩, fun _ => le_rfl,
    fun _ y _ hkind => congrArg Symbol.ty (hold y (Model.index_lt_of_kind hkind)).2⟩
  · by_cases hnew : y = ⟨s.model.symbols.size⟩
    · obtain ⟨hkind, hty⟩ := hy
      change ((s.model.addSymbol x).2.symbol y).kind = _ at hkind
      change ((s.model.addSymbol x).2.symbol y).ty.named? = _ at hty
      rw [hnew, Model.symbol_addSymbol] at hkind hty
      exact hx n hkind hty
    · refine hs.known y n ?_
      unfold Model.NamesType at hy ⊢
      rwa [← s.model.symbol_addSymbol_of_ne x hnew]
  · obtain ⟨hlt, hkind⟩ := hs.specs p hp y hy
    exact ⟨(hold y hlt).1, (congrArg (·.kind.isTypeName) (hold y hlt).2).trans hkind⟩

theorem naming_modifyNamed (s : State) (id : NamedId) (f : NamedType → NamedType) :
    Naming kept s { s with model := s.model.modifyNamed id f } :=
  naming_of_symbols rfl (s.model.size_modifyNamed id f).ge rfl

theorem naming_addNamed (s : State) (n : NamedType) :
    Naming kept s { s with model := (s.model.addNamed n).2 } :=
  naming_of_symbols rfl (Array.size_push _ ▸ Nat.le_succ _) rfl

-- A type has its name when it is there.
theorem naming_addType (n : NamedType) (x : Symbol) : Runs (Naming kept) (addType n x) where
  run s := by
    refine trans_of (Naming kept) (naming_addNamed s n)
      (trans_of (Naming kept) (naming_addSymbol _ ?_) (naming_modifyNamed _ ⟨s.model.named.size⟩ _))
    rintro _ - ⟨⟩
    exact Array.size_push _ ▸ Nat.lt_succ_self _

instance : DeclaresTypes (Naming kept) where
  context _ _ := naming_of_symbols rfl le_rfl rfl
  info _ _ := naming_of_symbols rfl le_rfl rfl
  problem _ _ _ _ _ := naming_of_symbols rfl le_rfl rfl
  symbol s x hx := naming_addSymbol s fun n hkind => by
    rw [hkind] at hx
    cases hx
  crashed _ := naming_of_symbols rfl le_rfl rfl
  addScope s x := naming_of_symbols (s.model.symbols_addScope x) (s.model.named_addScope x ▸ le_rfl) rfl
  declare _ _ _ _ := naming_of_symbols rfl le_rfl rfl
  composite x body _ hbody _ := ⟨fun s => trans_of (Naming kept) (naming_addNamed s x)
    (trans_of (Naming kept) ((hbody ⟨s.model.named.size⟩).run _)
      (naming_modifyNamed _ ⟨s.model.named.size⟩ _))⟩
  scopes _ _ hsymbols hnamed := naming_of_symbols hsymbols (hnamed ▸ le_rfl) rfl
  modifyNamed s id f _ := naming_modifyNamed s id f
  unnamed s x hx := naming_addSymbol s fun n _ hty => by
    rw [hx] at hty
    cases hty
  openClass n x source _ := by
    have hnote (id : NamedId) : Runs (Naming kept) (modify fun s => { s with
        classes := s.classes ++ [(source.file, id)]
        gameClass := if source.isEntry then some id else s.gameClass } : CheckM Unit) :=
      ⟨fun s => naming_of_symbols rfl le_rfl rfl⟩
    unfold openClass
    exact .bind (naming_addType n x) fun added => inferInstance
  aliases _ _ := naming_of_symbols rfl le_rfl rfl
  openType n x pending _ := by
    have hadd : Runs (Naming kept) (addType n x) := naming_addType n x
    have hput (named : NamedId) :
        Runs (Naming kept) (modify fun s => { s with typeDecls := (named, pending) :: s.typeDecls } :
          CheckM Unit) :=
      ⟨fun _ => naming_of_symbols rfl le_rfl rfl⟩
    unfold openType
    infer_instance

instance : DeclaresFuncs (Naming kept) where
  funcs _ _ := naming_of_symbols rfl le_rfl rfl

instance : DeclaresSpecs (Naming kept) where
  pushSpec s spec symbols isConst h := by
    refine ⟨fun hs => ⟨hs.known, fun p hp => ?_⟩, fun _ _ hx => ⟨hx, rfl⟩, fun _ => le_rfl,
      fun _ _ _ _ => rfl⟩
    change p ∈ (s.specs.push _).toList at hp
    rw [Array.toList_push, List.mem_append, List.mem_singleton] at hp
    rcases hp with hp | rfl
    · exact hs.specs p hp
    · exact h

instance {fileClass : Option NamedId} : Fills (Naming kept) fileClass where
  fill owner _ s f _ := naming_modifyNamed s owner f

section Specifications

-- A name of a type gets a type that is there, and if it is kept it gets the type that it had.
theorem naming_modifySymbol (s : State) {id : SymbolId} {f : Symbol → Symbol} (hf : ∀ x, (f x).kind = x.kind)
    (hid : TypesNamed s → (s.model.symbol id).kind = .typeName →
      (∀ n, (f (s.model.symbol id)).ty.named? = some n → n.index < s.model.named.size) ∧
      (kept id → (f (s.model.symbol id)).ty = (s.model.symbol id).ty)) :
    Naming kept s { s with model := s.model.modifySymbol id f } := by
  have hkind (y : SymbolId) : ((s.model.modifySymbol id f).symbol y).kind = (s.model.symbol y).kind := by
    by_cases hy : y = id
    · subst hy
      by_cases hlt : y.index < s.model.symbols.size
      · rw [s.model.symbol_modifySymbol f hlt, hf]
      · unfold Model.symbol Model.modifySymbol
        rw [Array.getElem?_modify, if_pos rfl, Array.getElem?_eq_none (Nat.le_of_not_lt hlt)]
        rfl
    · rw [s.model.symbol_modifySymbol_of_ne f hy]
  have hsize : (s.model.modifySymbol id f).symbols.size = s.model.symbols.size := Array.size_modify ..
  refine ⟨fun hs => ⟨fun y n hy => ?_, fun p hp y hy => ?_⟩, fun _ y hy => ⟨hsize ▸ hy, hkind y⟩,
    fun _ => le_rfl, fun hs y hy hname => ?_⟩
  · by_cases hid' : y = id
    · subst hid'
      have hlt := hsize ▸ hy.index_lt
      unfold Model.NamesType at hy
      dsimp only at hy
      rw [s.model.symbol_modifySymbol f hlt, hf] at hy
      exact (hid hs hy.1).1 n hy.2
    · unfold Model.NamesType at hy
      dsimp only at hy
      rw [s.model.symbol_modifySymbol_of_ne f hid'] at hy
      exact hs.known y n hy
  · obtain ⟨hlt, hnone⟩ := hs.specs p hp y hy
    exact ⟨hsize ▸ hlt, (congrArg SymbolKind.isTypeName (hkind y)).trans hnone⟩
  · dsimp only
    by_cases hid' : y = id
    · subst hid'
      rw [s.model.symbol_modifySymbol f (Model.index_lt_of_kind hname)]
      exact (hid hs hname).2 hy
    · rw [s.model.symbol_modifySymbol_of_ne f hid']

theorem naming_settle (s : State) {isConst : Bool} {id : SymbolId} {ty : Ty} {value : Option Constant}
    (hid : (s.model.symbol id).kind.isTypeName = false) :
    Naming kept s ((settle isConst id ty value).run s).2 := by
  have hnot (hkind : (s.model.symbol id).kind = .typeName) : False := by
    rw [hkind] at hid
    cases hid
  unfold settle
  rw [run_symbol_bind]
  dsimp only
  split
  case h_1 owner _ =>
    refine trans_of (Naming kept) (naming_modifyNamed s owner _)
      (naming_modifySymbol _ ?_ fun _ hkind => (hnot hkind).elim)
    exact fun _ => rfl
  case h_2 =>
    refine naming_modifySymbol s ?_ fun _ hkind => (hnot hkind).elim
    exact fun _ => rfl

instance {index : Nat} {progress : Progress} : Runs (Naming kept) (setProgress index progress) := by
  refine ⟨fun s => ⟨fun hs => ⟨hs.known, ?_⟩, fun _ _ hx => ⟨hx, rfl⟩, fun _ => le_rfl, fun _ _ _ _ => rfl⟩⟩
  change ∀ p ∈ (s.specs.modify index ({ · with progress })).toList, _
  exact forall_modify hs.specs fun _ h => h

-- A step on a symbol that names no types leaves it one that names none, so a later step may take it
-- for granted too.
theorem naming_forM {γ : Type} {l : List γ} {f : γ → CheckM PUnit} (symbolOf : γ → SymbolId)
    (among : γ → Prop)
    (hstep : ∀ y s, (among y → s.model.NamesValue (symbolOf y)) → Naming kept s ((f y).run s).2)
    (hl : ∀ y ∈ l, among y → s.model.NamesValue (symbolOf y)) :
    Naming kept s ((l.forM f).run s).2 := by
  refine naming_of fun hs => ?_
  induction l generalizing s with
  | nil => exact refl_of (Naming kept) s
  | cons y rest ih =>
      obtain ⟨hy, hrest⟩ := List.forall_mem_cons.mp hl
      have hfirst : Naming kept s ((f y).run s).2 := hstep y s hy
      exact trans_of (Naming kept) hfirst
        (ih (fun z hz h => hfirst.namesValue hs (hrest z hz h)) (hfirst.types hs))

-- Symbols that name no types get types.
theorem naming_settleAll (p : PendingSpec) (values : List (Ty × Option Constant)) (s : State)
    (hp : ∀ x ∈ p.symbols, s.model.NamesValue x) : Naming kept s ((settleAll p values).run s).2 := by
  have hentries (entry) (hentry : entry ∈ p.symbols.zip values) := hp entry.1 (List.of_mem_zip hentry).1
  unfold settleAll
  exact naming_forM Prod.fst (fun _ => True) (fun _ s hnames => naming_settle s (hnames trivial).2)
    fun entry hentry _ => hentries entry hentry

-- The symbols of a specification keep to naming no types while it is looked into.
theorem naming_lookIntoSpec {r : Rules} [RunsRules (Naming kept) r] {s : State} {index : Nat}
    {p : PendingSpec} (hp : s.specs[index]? = some p) :
    Naming kept s ((lookIntoSpec r index p).run s).2 := by
  refine naming_of fun hs => ?_
  have hsymbols := hs.specs p (Array.mem_toList_iff.mpr (Array.mem_of_getElem? hp))
  have hfind : Runs (Naming kept) (do
      setProgress index .running
      within p.context (specValues r p.spec p.symbols.length p.isConst)) :=
    .bind inferInstance fun _ => .withinContext inferInstance
  obtain ⟨values, found, hfound⟩ : ∃ values found, (do
      setProgress index .running
      within p.context (specValues r p.spec p.symbols.length p.isConst) : CheckM _).run s =
        (values, found) := ⟨_, _, rfl⟩
  have hrun : Naming kept s found := by
    have h := hfind.run s
    rwa [hfound] at h
  have hend :
      (lookIntoSpec r index p).run s = (do settleAll p values; setProgress index .finished).run found := by
    rw [lookIntoSpec, ← bind_assoc, StateT.run_bind, hfound]
    rfl
  have hfinish : Runs (Naming kept) (setProgress index .finished) := inferInstance
  rw [hend]
  exact trans_of (Naming kept) hrun (trans_of (Naming kept)
    (naming_settleAll p values found fun x hx => hrun.namesValue hs (hsymbols x hx)) (hfinish.run _))

instance : Resolves (Naming kept) where
  resolveSpec r index hr := by
    refine ⟨fun s => ?_⟩
    rcases resolveSpec_cases r index s with ⟨-, hrun⟩ | ⟨p, hp, ⟨-, hrun⟩ | ⟨-, hrun⟩⟩
    · rw [hrun]
      exact refl_of (Naming kept) s
    · rw [hrun]
      exact naming_of_symbols rfl le_rfl rfl
    · rw [hrun]
      exact naming_lookIntoSpec hp

end Specifications

section Expressions

variable {ident qualifier : Token} {t : Tree} {x : SymbolId} {n : NamedId} {fuel : Nat}

-- What comes of looking for the type that the token names: it is noted what the token means, or nothing is.
def LooksUp (ident : Token) (s : State) (r : Ty × State) : Prop :=
  (∃ x, (s.model.symbol x).kind = .typeName ∧
    r = ((s.model.symbol x).ty, ((recordUse (rangeOf ident) x).run s).2)) ∨
  r.1 = .invalid ∧ (r.2 = s ∨ ∃ p : Problem, p.isCycle = false ∧ r.2 = ((problem (rangeOf ident) p).run s).2)

theorem kind_of_typeSymbol? {name : String} (h : ((typeSymbol? name).run s).1 = some x) :
    (s.model.symbol x).kind = .typeName := by
  obtain ⟨id, -, hid⟩ := List.exists_of_findSome?_eq_some h
  obtain ⟨entry, -, hentry⟩ := Option.bind_eq_some_iff.mp hid
  split at hentry
  case isTrue hkind =>
    cases hentry
    exact beq_iff_eq.mp hkind
  case isFalse => cases hentry

theorem looksUp_typeOfName (ident : Token) (s : State) : LooksUp ident s ((typeOfName ident).run s) := by
  obtain ⟨found, hfound⟩ : ∃ found, (typeSymbol? ident.text).run s = (found, s) := ⟨_, rfl⟩
  rw [typeOfName, StateT.run_bind, hfound]
  cases found with
  | some x => exact .inl ⟨x, kind_of_typeSymbol? (congrArg Prod.fst hfound), rfl⟩
  | none =>
      refine .inr ⟨rfl, .inr ⟨_, ?_, rfl⟩⟩
      split <;> rfl

theorem looksUp_typeOfQualified (qualifier ident : Token) (s : State) :
    LooksUp ident ((packageOf? qualifier).run s).2 ((typeOfQualified qualifier ident).run s) := by
  obtain ⟨found, looked, hlooked⟩ : ∃ found looked, (packageOf? qualifier).run s = (found, looked) :=
    ⟨_, _, rfl⟩
  rw [typeOfQualified, StateT.run_bind, hlooked]
  cases found with
  | none => exact .inr ⟨rfl, .inl rfl⟩
  | some package =>
      change LooksUp ident looked (StateT.run (model >>= _ : CheckM Ty) looked)
      rw [run_model_bind]
      split
      case h_1 scope _ =>
        split
        case h_1 entry _ =>
          split
          case isTrue hkind => exact .inl ⟨entry.symbol, beq_iff_eq.mp hkind, rfl⟩
          case isFalse => exact .inr ⟨rfl, .inr ⟨_, rfl, rfl⟩⟩
        case h_2 => exact .inr ⟨rfl, .inr ⟨_, rfl, rfl⟩⟩
      case h_2 => exact .inr ⟨rfl, .inl rfl⟩

-- The type that the token names, in the package that is named before it.
def typeNamed (qualifier? : Option Token) (ident : Token) : CheckM Ty :=
  match qualifier? with
  | some qualifier => typeOfQualified qualifier ident
  | none => typeOfName ident

-- A name behind pointers stands for the type that it names.
theorem typeOf_of_embeddedName? (h : embeddedName? t = some ident) : ∃ u : Tree, u.typeName? = some ident ∧
    Tree.Below ((u.qualifier?.toList ++ [ident]).map Tree.token) [t] ∧
    typeOf t = typeNamed u.qualifier? ident := by
  unfold embeddedName? at h
  unfold typeOf
  generalize t.height + 1 = fuel at h
  induction fuel generalizing t with
  | zero => cases h
  | succ fuel ih =>
      unfold embeddedName?.go at h
      unfold typeWithin typeStep
      split at h
      case h_1 hkind =>
        have hbelow := t.below_typeRef
        rw [h] at hbelow
        refine ⟨t, h, hbelow, ?_⟩
        rw [hkind, h]
        unfold typeNamed
        cases t.qualifier? <;> rfl
      case h_2 hkind =>
        obtain ⟨elem, helem, hname⟩ := Option.bind_eq_some_iff.mp h
        obtain ⟨u, hu, hbelow, hrun⟩ := ih hname
        refine ⟨u, hu, hbelow.trans (Tree.below_of_child? helem), ?_⟩
        rw [hkind, helem, ← hrun]
      case h_3 => cases h

theorem lt_size_addComposite {x : NamedType} {body : NamedId → CheckM Underlying}
    (h : ∀ id, Runs Flattening (body id)) (s : State) :
    s.model.named.size < ((addComposite x body).run s).2.model.named.size := by
  have hadded : s.model.named.size < ((addNamed x).run s).2.model.named.size :=
    Array.size_push x ▸ Nat.lt_succ_self _
  exact (hadded.trans_le ((h ⟨s.model.named.size⟩).run _).size).trans_eq (Model.size_modifyNamed ..).symm

-- Other type expressions stand for types without names, or for new ones.
theorem fresh_typeOf (h : embeddedName? t = none) (s : State) : ∀ n ∈ ((typeOf t).run s).1.named?,
    s.model.named.size ≤ n.index ∧ n.index < ((typeOf t).run s).2.model.named.size := by
  unfold embeddedName? at h
  unfold typeOf
  generalize t.height + 1 = fuel at h
  have hnone {a : CheckM Ty} (ha : (a.run s).1.named? = none) : ∀ n ∈ (a.run s).1.named?,
      s.model.named.size ≤ n.index ∧ n.index < (a.run s).2.model.named.size := by
    rw [ha]
    exact nofun
  have hnew {α : Type} {x : NamedType} {body : NamedId → CheckM α} {f : α → Underlying}
      (hbody : ∀ id, Runs Flattening (body id)) :
      ∀ n ∈ (StateT.run (do
        let id ← addNamed x
        let found ← body id
        modifyModel (·.modifyNamed id fun n => { n with underlying := f found })
        return Ty.named id : CheckM Ty) s).1.named?, s.model.named.size ≤ n.index ∧ n.index < (StateT.run (do
        let id ← addNamed x
        let found ← body id
        modifyModel (·.modifyNamed id fun n => { n with underlying := f found })
        return Ty.named id : CheckM Ty) s).2.model.named.size := by
    rintro _ ⟨⟩
    have hmapped (id : NamedId) : Runs Flattening (f <$> body id) := ⟨(hbody id).run⟩
    exact ⟨le_rfl, lt_size_addComposite hmapped s⟩
  induction fuel generalizing t with
  | zero => exact hnone rfl
  | succ fuel ih =>
      unfold embeddedName?.go at h
      unfold typeWithin typeStep
      split at h
      case h_1 hkind =>
        rw [hkind, h]
        exact hnone rfl
      case h_2 hkind =>
        rw [hkind]
        dsimp only
        split
        case h_1 elem helem => exact ih (Option.bind_eq_none_iff.mp h elem helem)
        case h_2 => exact hnone rfl
      case h_3 href hpointer =>
        split
        case h_1 hkind => exact absurd hkind href
        case h_2 hkind => exact absurd hkind hpointer
        case h_3 => split <;> exact hnone rfl
        case h_4 => split <;> exact hnone rfl
        case h_5 => split <;> exact hnone rfl
        case h_6 => exact hnone rfl
        case h_7 => exact hnew fun _ => inferInstance
        case h_8 =>
          split
          · exact hnone rfl
          · exact hnew fun _ => inferInstance
        case h_9 => exact hnone rfl

theorem LooksUp.index_lt {r : Ty × State} (h : LooksUp ident s r) (hs : TypesNamed s) :
    ∀ n ∈ r.1.named?, n.index < r.2.model.named.size := by
  rcases h with ⟨x, hkind, rfl⟩ | ⟨hinvalid, -⟩
  · exact fun n hn => hs.known x n ⟨hkind, hn⟩
  · rw [hinvalid]
    exact nofun

theorem index_lt_typeNamed (hs : TypesNamed s) (qualifier? : Option Token) (ident : Token) :
    ∀ n ∈ ((typeNamed qualifier? ident).run s).1.named?,
    n.index < ((typeNamed qualifier? ident).run s).2.model.named.size := by
  cases qualifier? with
  | none => exact (looksUp_typeOfName ident s).index_lt hs
  | some qualifier =>
      have hpackage : Runs (Naming fun _ => False) (packageOf? qualifier) := inferInstance
      exact (looksUp_typeOfQualified qualifier ident s).index_lt ((hpackage.run s).types hs)

-- What a type expression stands for is there.
theorem index_lt_typeOf (hs : TypesNamed s) (t : Tree) :
    ∀ n ∈ ((typeOf t).run s).1.named?, n.index < ((typeOf t).run s).2.model.named.size := by
  cases hname : embeddedName? t with
  | none => exact fun n hn => (fresh_typeOf hname s n hn).2
  | some ident =>
      obtain ⟨u, -, -, hrun⟩ := typeOf_of_embeddedName? hname
      rw [hrun]
      exact index_lt_typeNamed hs u.qualifier? ident

end Expressions

section Resolving

variable {id : NamedId} {fuel : Nat}

instance {name : String} {pending : PendingDecl} : Runs (Naming kept) (reportRecursion id name pending) := by
  unfold reportRecursion
  exact .bind ⟨fun _ => naming_of_symbols rfl le_rfl rfl⟩ fun _ => ⟨fun s => naming_modifyNamed s id _⟩

instance {u : Underlying} : Runs (Naming kept) (closeType id u) := by
  refine ⟨fun s => ?_⟩
  rw [run_closeType]
  split
  · exact naming_of_symbols rfl (s.model.size_modifyNamed id _).ge rfl
  · exact naming_of_symbols rfl le_rfl rfl

instance : Runs (Naming kept) (resolveNamed fuel id) :=
  .resolveNamed (fun _ _ => naming_of_symbols rfl le_rfl rfl) (fun _ _ _ => inferInstance) fun _ _ =>
    inferInstance

-- The type that an alias is declared for.
def aliasedType (pending : PendingDecl) : CheckM Ty :=
  match pending.decl.type? with
  | some t => typeOf t
  | none => return .invalid

theorem resolveAlias_eq (x : SymbolId) (pending : PendingDecl) : resolveAlias x pending = (do
    let ty ← within pending.context (aliasedType pending)
    modifyModel (·.modifySymbol x fun s => { s with ty })) := rfl

theorem index_lt_aliasedType (hs : TypesNamed s) (pending : PendingDecl) :
    ∀ n ∈ ((aliasedType pending).run s).1.named?,
    n.index < ((aliasedType pending).run s).2.model.named.size := by
  unfold aliasedType
  split
  · exact index_lt_typeOf hs _
  · rintro _ ⟨⟩

theorem naming_aliasedType (pending : PendingDecl) :
    Runs (Naming kept) (within pending.context (aliasedType pending)) := by
  refine .withinContext ?_
  unfold aliasedType
  split <;> infer_instance

-- An alias gets the type that it is declared for. Other names of types are as before.
theorem naming_resolveAlias {x : SymbolId} (hx : ¬ kept x) (pending : PendingDecl) :
    Runs (Naming kept) (resolveAlias x pending) where
  run s := by
    rw [resolveAlias_eq]
    refine naming_of fun hs => trans_of (Naming kept) ((naming_aliasedType pending).run s)
      (naming_modifySymbol _ ?_ fun _ _ => ⟨fun _ => ?_, fun h => absurd h hx⟩)
    · exact fun _ => rfl
    · exact index_lt_aliasedType (s := { s with context := pending.context }) ⟨hs.known, hs.specs⟩ pending _

theorem naming_resolveFunc {x : SymbolId} (hx : kept x → s.model.NamesValue x) (pending : PendingDecl) :
    Naming kept s ((resolveFunc x pending).run s).2 := by
  have hfind : Runs (Naming kept) (within pending.context (signatureOf pending.decl)) :=
    .withinContext inferInstance
  obtain ⟨signature, found, hfound⟩ : ∃ signature found,
      (within pending.context (signatureOf pending.decl)).run s = (signature, found) := ⟨_, _, rfl⟩
  have hrun : Naming kept s found := by
    have h := hfind.run s
    rwa [hfound] at h
  unfold resolveFunc
  rw [StateT.run_bind, hfound]
  change Naming kept s { found with model := found.model.modifySymbol x _ }
  refine naming_of fun hs =>
    trans_of (Naming kept) hrun (naming_modifySymbol found ?_ fun hs' hkind => ⟨fun n hn => ?_, fun h => ?_⟩)
  · exact fun _ => rfl
  · dsimp only at hn
    split at hn
    · cases hn
    · exact hs'.known x n ⟨hkind, hn⟩
  · have hvalue := (hrun.namesValue hs (hx h)).2
    rw [hkind] at hvalue
    cases hvalue

theorem naming_resolveFuncs {l : List (SymbolId × PendingDecl)}
    (hl : ∀ p ∈ l, kept p.1 → s.model.NamesValue p.1) :
    Naming kept s ((l.forM fun p => resolveFunc p.1 p.2).run s).2 :=
  naming_forM Prod.fst (fun p => kept p.1) (fun p _ hnames => naming_resolveFunc hnames p.2) hl

instance {r : Rules} [hr : RunsRules (Naming fun _ => False) r] :
    Runs (Naming fun _ => False) (resolveDeclarations r) := by
  rw [resolveDeclarations_eq]
  have haliases : Runs (Naming fun _ => False) resolveAliases :=
    .bind ⟨fun s => naming_of_symbols rfl le_rfl rfl⟩ fun aliases => .forM fun x _ =>
      naming_resolveAlias (fun h => h) x.2
  have hfuncs : Runs (Naming fun _ => False) resolveFuncs :=
    .bind ⟨fun s => naming_of_symbols rfl le_rfl rfl⟩ fun funcs => ⟨fun s => naming_resolveFuncs nofun⟩
  have hsignatures : Runs (Naming fun _ => False) resolveSignatures := .bind haliases fun _ => hfuncs
  rw [resolveOthers_eq]
  exact .bind (.resolveTypes fun _ _ => inferInstance) fun _ => .bind hsignatures fun _ => inferInstance

theorem typesNamed_prelude : TypesNamed prelude := by
  obtain ⟨s, hs, hprelude⟩ := exists_bundled
  obtain ⟨start, hstart⟩ : ∃ start : State, start = {} := ⟨_, rfl⟩
  have hempty : TypesNamed start := by
    rw [hstart]
    exact ⟨fun x n hx => absurd hx.index_lt (Nat.not_lt_zero _), List.forall_mem_nil _⟩
  have hall : Runs (Naming fun _ => False) bundle := by
    rw [bundle_eq]
    infer_instance
  rw [← hstart] at hs
  have hend : Naming (fun _ => False) start s := hs ▸ hall.run start
  rw [hprelude]
  exact ⟨(hend.types hempty).known, List.forall_mem_nil _⟩

end Resolving

end Check

end SpriteScript
