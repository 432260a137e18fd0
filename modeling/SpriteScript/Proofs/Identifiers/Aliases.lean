import SpriteScript.Proofs.Identifiers.TypeCycles

-- What aliases stand for. They are looked into one after the other, and nothing is known of an
-- alias before its turn.
namespace SpriteScript

-- The tree declares another name of a type.
def Tree.declaresAlias (decl : Tree) : Bool := (decl.name?.bind ident?).isSome && decl.isAlias

def Tree.aliases (root : Tree) : List Tree := (root.childrenOf .typeDecl).filter declaresAlias

-- The declaration gives the symbol its name.
def Info.Introduces (i : Info) (p : Check.Part) (x : SymbolId) : Prop :=
  ∃ ident, p.2.name?.bind Tree.ident? = some ident ∧ i.defs[(p.1, Check.rangeOf ident)]? = some x

theorem Info.Introduces.keeps {i i' : Info} {p : Check.Part} {x : SymbolId} (h : i.Introduces p x)
    (hkeeps : i.Keeps i') : i'.Introduces p x := by
  obtain ⟨ident, hident, hdef⟩ := h
  exact ⟨ident, hident, hkeeps.defs _ x hdef⟩

theorem Info.Introduces.unique {i : Info} {p : Check.Part} {x y : SymbolId} (hx : i.Introduces p x)
    (hy : i.Introduces p y) : x = y := by
  obtain ⟨ident, hident, hdef⟩ := hx
  obtain ⟨ident', hident', hdef'⟩ := hy
  obtain rfl := Option.some.inj (hident.symm.trans hident')
  exact Option.some.inj (hdef.symm.trans hdef')

-- The symbol names a type of which nothing is known.
def Model.Untyped (m : Model) (x : SymbolId) : Prop :=
  (m.symbol x).kind = .typeName ∧ (m.symbol x).ty = .invalid

namespace Check

-- The instances for the parts of a long function are found in one search.
set_option synthInstance.maxSize 1000

variable {ground : Ground} {file : FileId} {sources : List Source} {package : String} {s s' : State}
variable {parts missing rest : List Part} {scope : ScopeId} {decl : Tree} {ident : Token}
variable {fileClass : Option NamedId} {α : Type}

section Listing

-- The aliases and the functions that were put off stay as they are.
structure Holding (s s' : State) : Prop where
  aliases : s'.aliases = s.aliases
  funcs : s'.funcs = s.funcs

instance : IsPreorder State Holding where
  refl _ := ⟨rfl, rfl⟩
  trans _ _ _ h h' := ⟨h'.aliases.trans h.aliases, h'.funcs.trans h.funcs⟩

instance : DeclaresSpecs Holding where
  context _ _ := ⟨rfl, rfl⟩
  info _ _ := ⟨rfl, rfl⟩
  problem _ _ _ _ _ := ⟨rfl, rfl⟩
  symbol _ _ _ := ⟨rfl, rfl⟩
  crashed _ := ⟨rfl, rfl⟩
  addScope _ _ := ⟨rfl, rfl⟩
  declare _ _ _ _ := ⟨rfl, rfl⟩
  composite _ _ _ hbody _ := ⟨fun _ => ⟨((hbody _).run _).aliases, ((hbody _).run _).funcs⟩⟩
  scopes _ _ _ _ := ⟨rfl, rfl⟩
  modifyNamed _ _ _ _ := ⟨rfl, rfl⟩
  unnamed _ _ _ := ⟨rfl, rfl⟩
  openClass _ _ _ _ := ⟨fun _ => ⟨rfl, rfl⟩⟩
  pushSpec _ _ _ _ _ := ⟨rfl, rfl⟩

instance : Fills Holding fileClass where
  fill _ _ _ _ _ := ⟨rfl, rfl⟩

-- Within a file of a program only functions that name values are put off.
structure Listing (s s' : State) : Prop where
  naming : Naming (fun _ => True) s s'
  file : s'.context.file = s.context.file
  aliases : s'.aliases = s.aliases
  funcs : s.context.file.isBundled = false → TypesNamed s → ∀ p ∈ s'.funcs, p ∈ s.funcs ∨
    s'.model.NamesValue p.1

instance : IsPreorder State Listing where
  refl s := ⟨refl_of (Naming _) s, rfl, rfl, fun _ _ _ hp => .inl hp⟩
  trans _ _ _ h h' := {
    naming := trans_of (Naming _) h.naming h'.naming
    file := h'.file.trans h.file
    aliases := h'.aliases.trans h.aliases
    funcs := fun hfile hs p hp => by
      have hmid := h.naming.types hs
      rcases h'.funcs (h.file ▸ hfile) hmid p hp with hp | hp
      · exact (h.funcs hfile hs p hp).imp id (h'.naming.namesValue hmid)
      · exact .inr hp }

theorem Runs.listing {a : CheckM α} [hnaming : Runs (Naming fun _ => True) a] [hpreserves : Preserves a]
    [hholding : Runs Holding a] : Runs Listing a where
  run s :=
    ⟨hnaming.run s, (hpreserves.run s).file, (hholding.run s).aliases,
      fun _ _ _ hp => .inl ((hholding.run s).funcs ▸ hp)⟩

-- A function is put off with the symbol that was added for it.
theorem runs_listFunc {a : CheckM SymbolId} [hnaming : Runs (Naming fun _ => True) a]
    [hpreserves : Preserves a] [hholding : Runs Holding a]
    (hadds : ∀ s, s.context.file.isBundled = false → AddsSymbolTo s a) :
    Runs Listing (do
      let id ← a
      recordDef (rangeOf ident) id
      let c ← context
      modify fun s => { s with funcs := (id, ⟨c, decl⟩) :: s.funcs }) where
  run s := by
    obtain ⟨hfile, hfuncs⟩ := And.intro (hpreserves.run s).file (hholding.run s)
    refine ⟨?_, hfile, hfuncs.aliases, fun hbundled hs p hp => ?_⟩
    · have hlisted (s' : State) (info : Info) (c : Context) (id : SymbolId) :
          Naming (fun _ => True) s' { s' with info, funcs := (id, ⟨c, decl⟩) :: s'.funcs } :=
        trans_of (Naming _) (TypeRoutine.info s' info) (DeclaresFuncs.funcs { s' with info } _)
      exact trans_of (Naming _) (hnaming.run s) (hlisted _ _ _ _)
    · rcases List.mem_cons.mp hp with rfl | hp
      · exact .inr (hadds s hbundled).namesValue
      · exact .inl (hfuncs.funcs ▸ hp)

instance : Runs Listing (declareFunc scope fileClass decl) := by
  unfold declareFunc
  split
  case h_1 ident _ =>
    extract_lets finish declare
    have hdeclare (owner? : Option NamedId) : Runs Listing (declare owner?) := by
      unfold declare finish
      cases owner? with
      | some owner => exact runs_listFunc fun s => addsSymbolTo_declareMethod owner ident
      | none => exact runs_listFunc fun s => addsSymbolTo_declareFunction scope ident
    split
    · have : Runs Listing (receiverNamed? ‹_›) := .listing
      infer_instance
    · infer_instance
  case h_2 => infer_instance

instance {first : Bool} {item : Tree} : Runs Listing (declareItem scope fileClass first item) := by
  unfold declareItem
  split
  case h_1 => exact .forM fun _ _ => .listing
  case h_2 => split <;> exact .listing
  case h_5 => infer_instance
  all_goals exact .listing

instance {first : Bool} {items : List Tree} : Runs Listing (declareMembers scope fileClass first items) := by
  induction items generalizing first with
  | nil =>
      unfold declareMembers
      infer_instance
  | cons item rest ih =>
      rw [declareMembers_cons]
      exact .bind inferInstance fun _ => ih

end Listing

section Opening

-- The aliases that were put off are those of the parts. Each has a symbol of its own, whose type is
-- not known yet.
structure OpensAliases (parts : List Part) (s : State) : Prop where
  parts : s.aliases.reverse.map (·.2.part) = parts
  typed : TypesNamed s
  apart : (s.aliases.map Prod.fst).Nodup
  untyped : ∀ d ∈ s.aliases, s.model.Untyped d.1
  introduced : ∀ d ∈ s.aliases, s.info.Introduces d.2.part d.1
  funcs : ∀ d ∈ s.funcs, s.model.NamesValue d.1

theorem placeless_opensAliases : Placeless OpensAliases := fun _ _ _ h =>
  ⟨h.parts, ⟨h.typed.known, h.typed.specs⟩, h.apart, h.untyped, h.introduced, h.funcs⟩

-- The bundled packages have been looked into.
theorem opensAliases_prelude : OpensAliases [] prelude := by
  have htyped := typesNamed_prelude
  obtain ⟨b, -, hprelude⟩ := exists_bundled
  rw [hprelude] at htyped ⊢
  exact ⟨rfl, htyped, .nil, List.forall_mem_nil _, List.forall_mem_nil _, List.forall_mem_nil _⟩

theorem OpensAliases.next (h : OpensAliases parts s) (hnaming : Naming (fun _ => True) s s')
    (hkeeps : s.info.Keeps s'.info) (haliases : s'.aliases = s.aliases)
    (hfuncs : ∀ p ∈ s'.funcs, p ∈ s.funcs ∨ s'.model.NamesValue p.1) :
    OpensAliases parts s' where
  parts := haliases ▸ h.parts
  typed := hnaming.types h.typed
  apart := haliases ▸ h.apart
  untyped d hd := by
    obtain ⟨hkind, hty⟩ := h.untyped d (haliases ▸ hd)
    exact ⟨hnaming.kind_eq h.typed hkind, (hnaming.lasts h.typed d.1 trivial hkind).trans hty⟩
  introduced d hd := (h.introduced d (haliases ▸ hd)).keeps hkeeps
  funcs d hd := (hfuncs d hd).elim (fun hold => hnaming.namesValue h.typed (h.funcs d hold)) id

theorem lasting_opensAliases : Lasting OpensAliases := fun _ _ _ hmoves hkeeps h =>
  have hholding := hmoves Holding
  h.next (hmoves (Naming _)) hkeeps hholding.aliases fun _ hp => .inl (hholding.funcs ▸ hp)

-- An alias that is put off is a new symbol.
theorem opensAliases_openAlias {x : Symbol} {i : Info} (pending : PendingDecl)
    (h : OpensAliases parts s) (hkind : x.kind = .typeName) (hty : x.ty = .invalid)
    (hident : pending.decl.name?.bind Tree.ident? = some ident) (hkeeps : s.info.Keeps i)
    (hdef : i.defs[(pending.context.file, rangeOf ident)]? = some ⟨s.model.symbols.size⟩) :
    OpensAliases (parts ++ [pending.part]) { ((openAlias x pending).run s).2 with info := i } := by
  obtain ⟨added, hadded⟩ :
      ∃ added : State, added = { s with model := (s.model.addSymbol x).2, info := i } := ⟨_, rfl⟩
  have hnaming : Naming (fun _ => True) s added := by
    rw [hadded]
    exact trans_of (Naming _) (Declares.unnamed s x (hty ▸ rfl))
      (TypeRoutine.info { s with model := (s.model.addSymbol x).2 } i)
  have hopened : { ((openAlias x pending).run s).2 with info := i } =
      { added with aliases := (⟨s.model.symbols.size⟩, pending) :: added.aliases } := by
    rw [hadded]
    rfl
  have hbefore : OpensAliases parts added := by
    refine h.next hnaming ?_ ?_ fun p hp => .inl ?_ <;> rw [hadded] at *
    · exact hkeeps
    · exact hp
  have hnew : added.model.Untyped ⟨s.model.symbols.size⟩ := by
    rw [hadded, Model.Untyped, s.model.symbol_addSymbol]
    exact ⟨hkind, hty⟩
  rw [hopened]
  refine ⟨?_, ⟨hbefore.typed.known, hbefore.typed.specs⟩, List.nodup_cons.mpr ⟨fun hmem => ?_, hbefore.apart⟩,
    List.forall_mem_cons.mpr ⟨hnew, hbefore.untyped⟩,
    List.forall_mem_cons.mpr ⟨⟨ident, hident, ?_⟩, hbefore.introduced⟩, hbefore.funcs⟩
  · rw [List.reverse_cons, List.map_append, hbefore.parts]
    rfl
  · obtain ⟨d, hd, heq⟩ := List.mem_map.mp hmem
    rw [hadded] at hd
    have hlt := Model.index_lt_of_kind (h.untyped d hd).1
    rw [heq] at hlt
    exact lt_irrefl _ hlt
  · rw [hadded]
    exact hdef

theorem appends_declareAlias : Appends sources OpensAliases file (partsIn file decl.typeDeclParts)
    (partsIn file (if decl.declaresAlias then [decl] else [])) (declareTypeName scope decl) s := by
  refine .declareTypeName lasting_opensAliases (fun hnone => ?_)
    fun ident x old hident hkind hty hkeeps h => ?_
  · rw [Tree.declaresAlias, hnone, Option.isSome_none, Bool.false_and]
  · obtain ⟨named, hnamed⟩ : ∃ named, named = namedBy decl ident x s := ⟨_, rfl⟩
    rw [Tree.declaresAlias, hident, Option.isSome_some, Bool.true_and]
    rw [← hnamed] at hkeeps ⊢
    unfold namedBy at hnamed
    cases halias : decl.isAlias with
    | true =>
        rw [halias, if_pos rfl] at hnamed
        rw [if_pos rfl]
        subst hnamed
        exact opensAliases_openAlias ⟨s.context, decl⟩ h hkind hty hident hkeeps
          Std.HashMap.getElem?_insert_self
    | false =>
        rw [halias, if_neg Bool.false_ne_true] at hnamed
        have hnaming : Naming (fun _ => True) s named := by
          rw [hnamed]
          exact trans_of (Naming _) ((DeclaresTypes.openType _ x ⟨s.context, decl⟩ rfl).run s)
            (TypeRoutine.info _ _)
        rw [if_neg Bool.false_ne_true, partsIn, List.map_nil, List.append_nil]
        refine h.next hnaming hkeeps ?_ fun p hp => .inl ?_ <;> rw [hnamed] at *
        · rfl
        · exact hp

-- Aliases are put off in the order of their declarations.
theorem opensAliases_declareSources (hsources : ∀ source ∈ sources, source.file.isBundled = false)
    (hs : Ahead ground file (((sources.flatMap fun source =>
        partsIn source.file ((source.tree.childrenOf .typeDecl).flatMap Tree.typeDeclParts)) ++
      sources.flatMap fun source =>
        partsIn source.file (source.tree.items.flatMap Tree.memberStepParts)) ++ rest) s)
    (h : OpensAliases [] s) :
    OpensAliases (sources.flatMap fun source => partsIn source.file source.tree.aliases)
      ((declareSources package sources).run s).2 := by
  refine PutsOff.declareSources_filter placeless_opensAliases lasting_opensAliases
    (fun _ _ _ _ _ => appends_declareAlias)
    (fun source hsource unit owner s howner ground rest old hs hready h => ?_) hs h
  have hlisting : Listing s ((declareMembers unit (some owner) true source.tree.items).run s).2 := Runs.run s
  rw [List.append_nil]
  refine h.next hlisting.naming
    (keeps_of_visits (fun _ => reads_declareMembers unit (some owner) true source.tree.items) hs)
    hlisting.aliases (hlisting.funcs ?_ h.typed)
  rw [hs.context]
  exact hsources source hsource

end Opening

section Following

variable {d : SymbolId × PendingDecl} {later : List SymbolId} {l : List (SymbolId × PendingDecl)}
variable {kept : SymbolId → Prop}

-- The alias has the type of the name that it is declared with, as far as it is known what the name
-- means. Nothing was known of the later aliases, of which it is one itself.
def State.Follows (s : State) (missing : List Part) (d : SymbolId × PendingDecl)
    (later : List SymbolId) : Prop :=
  ∀ key, d.2.base? = some key → key ∈ keysOf missing ∧ (s.model.symbol d.1).ty = .invalid ∨
    ∃ x, s.info.uses[key]? = some x ∧ (s.model.symbol x).kind = .typeName ∧
      (s.model.symbol d.1).ty = if x ∈ later then .invalid else (s.model.symbol x).ty

-- It goes on to do so when the later aliases are looked into.
theorem State.Follows.mono {missing' : List Part} (h : s.Follows missing d later) (hs : TypesNamed s)
    (hnaming : Naming kept s s') (hkeeps : s.info.Keeps s'.info)
    (hmissing : keysOf missing ⊆ keysOf missing') (hkind : (s.model.symbol d.1).kind = .typeName)
    (hd : kept d.1) (hlater : ∀ x ∉ later, kept x) : s'.Follows missing' d later := by
  intro key hkey
  have hty := hnaming.lasts hs d.1 hd hkind
  rcases h key hkey with ⟨hmem, hinvalid⟩ | ⟨x, huse, hx, hxty⟩
  · exact .inl ⟨hmissing hmem, hty.trans hinvalid⟩
  · refine .inr ⟨x, hkeeps.uses key x huse, hnaming.kind_eq hs hx, ?_⟩
    rw [hty, hxty]
    split
    · rfl
    case isFalse hnot => exact (hnaming.lasts hs x (hlater x hnot) hx).symm

-- The symbol of an alias gets a type, and all other symbols stay as they are.
theorem symbol_settleAlias {ty : Ty} (m : Model) {a : SymbolId} (ha : (m.symbol a).kind = .typeName)
    (x : SymbolId) :
    (m.modifySymbol a fun s => { s with ty }).symbol x = if x = a then { m.symbol a with ty }
    else m.symbol x := by
  split
  case isTrue heq => rw [heq, m.symbol_modifySymbol _ (Model.index_lt_of_kind ha)]
  case isFalse hne => exact m.symbol_modifySymbol_of_ne _ hne

theorem run_resolveAlias (a : SymbolId) (pending : PendingDecl) (s : State) :
    ((resolveAlias a pending).run s).2 =
    { ((within pending.context (aliasedType pending)).run s).2 with
      model := ((within pending.context (aliasedType pending)).run s).2.model.modifySymbol a fun x =>
        { x with ty := ((within pending.context (aliasedType pending)).run s).1 } } := rfl

-- What is found for an alias is the type of the name that it is declared with.
theorem ahead_aliasedType {key : FileId × Text.ByteRange} {pending : PendingDecl}
    (hbase : pending.base? = some key) (hs : Ahead ground file (pending.typeParts ++ rest) s)
    {ty : Ty} {found : State}
    (hfound : (within pending.context (aliasedType pending)).run s = (ty, found)) :
    (∃ x, found.info.uses[key]? = some x ∧ (found.model.symbol x).kind = .typeName ∧
      ty = (found.model.symbol x).ty ∧ Ahead ground file rest found) ∨
    ty = .invalid ∧ ∃ missing, key ∈ keysOf missing ∧ Ahead ground file (missing ++ rest) found := by
  obtain ⟨ident, hident, rfl⟩ := Option.map_eq_some_iff.mp hbase
  obtain ⟨t, ht, hname⟩ := Option.bind_eq_some_iff.mp hident
  obtain ⟨u, -, hbelow, hnamed⟩ := typeOf_of_embeddedName? hname
  have haliased : aliasedType pending = typeNamed u.qualifier? ident := by rw [aliasedType, ht, ← hnamed]
  have henter : Ahead ground pending.context.file (pending.typeParts ++ rest)
      { s with context := pending.context } :=
    hs.next rfl (List.Subperm.refl _) rfl hs.known (hs.valued.of_model rfl List.prefix_rfl rfl)
  have hleave {parts : List Part} {inner : State} (h : Ahead ground pending.context.file parts inner) :
      Ahead ground file parts { inner with context := s.context } :=
    h.next hs.context (List.Subperm.refl _) rfl h.known (h.valued.of_model rfl List.prefix_rfl rfl)
  rw [PendingDecl.typeParts, ht] at henter
  have hlooked := ahead_typeNamed u.qualifier? ident (henter.below hbelow)
  rw [haliased] at hfound
  obtain ⟨rfl, rfl⟩ := Prod.mk.inj hfound
  rcases hlooked with ⟨x, huse, hkind, hty, hmid⟩ | ⟨hinvalid, hmid⟩
  · exact .inl ⟨x, huse, hkind, hty, hleave hmid⟩
  · exact .inr ⟨hinvalid, partsIn pending.context.file [.token ident], List.mem_cons_self, hleave hmid⟩

theorem follows_resolveAlias (hs : Ahead ground file (d.2.typeParts ++ rest) s) (htyped : TypesNamed s)
    (hd : d.1 ∈ later) (hlater : ∀ x ∈ later, s.model.Untyped x) : ∃ missing,
      Ahead ground file (missing ++ rest) ((resolveAlias d.1 d.2).run s).2 ∧
      ((resolveAlias d.1 d.2).run s).2.Follows missing d later := by
  cases hbase : d.2.base? with
  | none =>
      refine ⟨[], visits_resolveAlias d.1 d.2 rest s hs, fun key hkey => ?_⟩
      rw [hbase] at hkey
      cases hkey
  | some key =>
      obtain ⟨ty, found, hfound⟩ :
          ∃ ty found, (within d.2.context (aliasedType d.2)).run s = (ty, found) := ⟨_, _, rfl⟩
      have hnaming : Naming (fun _ => True) s found := by
        have hrun : Naming (fun _ => True) s _ := (naming_aliasedType d.2).run s
        rwa [hfound] at hrun
      have hunknown (x) (hx : x ∈ later) : (found.model.symbol x).ty = .invalid := by
        obtain ⟨hkind, hty⟩ := hlater x hx
        exact (hnaming.lasts htyped x trivial hkind).trans hty
      have hname : (found.model.symbol d.1).kind = .typeName := hnaming.kind_eq htyped (hlater d.1 hd).1
      rw [run_resolveAlias, hfound]
      have hsettle :
          Runs (Passing ground file) (modifyModel fun m => m.modifySymbol d.1 fun x => { x with ty }) :=
        .modifySymbol fun _ => rfl
      have hown : ((found.model.modifySymbol d.1 fun x => { x with ty }).symbol d.1).ty = ty := by
        rw [symbol_settleAlias _ hname, if_pos rfl]
      rcases ahead_aliasedType hbase hs hfound with ⟨x, huse, hx, rfl, hmid⟩ | ⟨rfl, missing, hmem, hmid⟩
      · refine ⟨[], hsettle.run found _ hmid, fun key' hkey => .inr ⟨x, ?_, ?_, ?_⟩⟩
        · obtain rfl := Option.some.inj (hbase.symm.trans hkey)
          exact huse
        · dsimp only
          rw [symbol_settleAlias _ hname]
          split
          · exact hname
          · exact hx
        · dsimp only
          rw [hown]
          split
          case isTrue hmem => exact hunknown x hmem
          case isFalse hnot =>
            rw [symbol_settleAlias _ hname, if_neg]
            rintro rfl
            exact hnot hd
      · refine ⟨missing, hsettle.run found _ hmid, fun key' hkey => .inl ⟨?_, hown⟩⟩
        obtain rfl := Option.some.inj (hbase.symm.trans hkey)
        exact hmem

-- All aliases are looked into, one after the other.
theorem exists_forM_resolveAlias (hs : Ahead ground file (l.flatMap (·.2.typeParts) ++ rest) s)
    (htyped : TypesNamed s) (hapart : (l.map Prod.fst).Nodup)
    (huntyped : ∀ d ∈ l, s.model.Untyped d.1) : ∃ missing,
      Ahead ground file (missing ++ rest) ((l.forM fun d => resolveAlias d.1 d.2).run s).2 ∧ ∀ d later,
        d :: later <:+ l →
        ((l.forM fun d => resolveAlias d.1 d.2).run s).2.Follows missing d ((d :: later).map Prod.fst) := by
  induction l generalizing s rest with
  | nil => exact ⟨[], hs, fun d later h => absurd (List.suffix_nil.mp h) (List.cons_ne_nil d later)⟩
  | cons d others ih =>
      obtain ⟨hnew, hnodup⟩ := List.nodup_cons.mp hapart
      obtain ⟨huntypedFirst, huntypedOthers⟩ := List.forall_mem_cons.mp huntyped
      rw [List.flatMap_cons, List.append_assoc] at hs
      obtain ⟨first, hfirst⟩ : ∃ first, first = ((resolveAlias d.1 d.2).run s).2 := ⟨_, rfl⟩
      have hall : ∀ x ∈ (d :: others).map Prod.fst, s.model.Untyped x := List.forall_mem_map.mpr huntyped
      obtain ⟨missing, hahead, hfollows⟩ := follows_resolveAlias hs htyped List.mem_cons_self hall
      rw [← hfirst] at hahead hfollows
      have hnaming : Naming (· ≠ d.1) s first := hfirst ▸ (naming_resolveAlias (fun h => h rfl) d.2).run s
      have hfirstTyped := hnaming.types htyped
      have hrest : Ahead ground file (others.flatMap (·.2.typeParts) ++ (missing ++ rest)) first :=
        hahead.perm (List.perm_append_comm_assoc _ _ _)
      obtain ⟨missing', hend, hlater⟩ := ih hrest hfirstTyped hnodup fun e he => by
        obtain ⟨hkind, hty⟩ := huntypedOthers e he
        refine ⟨hnaming.kind_eq htyped hkind, (hnaming.lasts htyped e.1 ?_ hkind).trans hty⟩
        exact fun heq => hnew (heq ▸ List.mem_map_of_mem he)
      obtain ⟨s', hs'⟩ : ∃ s', s' = ((others.forM fun d => resolveAlias d.1 d.2).run first).2 := ⟨_, rfl⟩
      have hrun : (((d :: others).forM fun d => resolveAlias d.1 d.2).run s).2 = s' := by
        rw [hs', hfirst]
        rfl
      have hothers : Runs (Naming (· ∉ others.map Prod.fst)) (others.forM fun d => resolveAlias d.1 d.2) :=
        .forM fun e he => naming_resolveAlias (not_not_intro (List.mem_map_of_mem he)) e.2
      have hkeeps : first.info.Keeps s'.info :=
        hs' ▸ keeps_of_visits (fun _ => visits_resolveAliases others) hrest
      rw [← hs'] at hend hlater
      rw [hrun]
      refine ⟨missing' ++ missing, by rwa [List.append_assoc], fun e later hsuffix => ?_⟩
      rcases List.suffix_cons_iff.mp hsuffix with heq | hsuffix
      · obtain ⟨rfl, rfl⟩ := List.cons.inj heq
        refine hfollows.mono hfirstTyped (hs' ▸ hothers.run first) hkeeps ?_
          (hnaming.kind_eq htyped huntypedFirst.1) hnew ?_
        · rw [keysOf_append]
          exact List.subset_append_right ..
        · exact fun x hx hmem => hx (List.mem_cons_of_mem _ hmem)
      · intro key hkey
        rw [keysOf_append]
        exact (hlater e later hsuffix key hkey).imp (And.imp_left (List.mem_append_left _)) id

end Following

section Whole

variable {aliases : List Part} {l : List (SymbolId × PendingDecl)}

instance {x : SymbolId} {pending : PendingDecl} : Runs Holding (resolveAlias x pending) := by
  have hfind : Runs Holding (aliasedType pending) := by
    unfold aliasedType
    split <;> infer_instance
  rw [resolveAlias_eq]
  exact .bind (.withinContext hfind) fun ty => ⟨fun _ => ⟨rfl, rfl⟩⟩

instance : Runs Holding resolveTypes := by
  have hreport (id : NamedId) (name : String) (pending : PendingDecl) :
      Runs Holding (reportRecursion id name pending) :=
    ⟨fun _ => ⟨rfl, rfl⟩⟩
  have hclose (id : NamedId) (u : Underlying) : Runs Holding (closeType id u) :=
    ⟨fun s => by rw [run_closeType]; exact ⟨rfl, rfl⟩⟩
  exact .resolveTypes fun _ _ => .resolveNamed (fun _ _ => ⟨rfl, rfl⟩) hreport hclose

-- The aliases have been looked into.
structure AliasesFollow (l : List (SymbolId × PendingDecl)) (missing : List Part) (s : State) : Prop where
  typed : TypesNamed s
  named : ∀ d ∈ l, (s.model.symbol d.1).kind = .typeName
  introduced : ∀ d ∈ l, s.info.Introduces d.2.part d.1
  follows : ∀ d later, d :: later <:+ l → s.Follows missing d ((d :: later).map Prod.fst)

theorem AliasesFollow.next (h : AliasesFollow l missing s) (hnaming : Naming (fun _ => True) s s')
    (hkeeps : s.info.Keeps s'.info) : AliasesFollow l missing s' where
  typed := hnaming.types h.typed
  named d hd := hnaming.kind_eq h.typed (h.named d hd)
  introduced d hd := (h.introduced d hd).keeps hkeeps
  follows d later hsuffix :=
    have hd := h.named d (hsuffix.subset List.mem_cons_self)
    (h.follows d later hsuffix).mono h.typed hnaming hkeeps (List.Subset.refl _) hd trivial fun _ _ => trivial

theorem OpensAliases.exists_follow (h : OpensAliases aliases s) (hs : Ahead ground file rest s) : ∃ missing,
    Ahead ground file (missing ++ rest) (resolveAliases.run s).2 ∧
    AliasesFollow s.aliases.reverse missing (resolveAliases.run s).2 ∧
    ∀ p ∈ (resolveAliases.run s).2.funcs, (resolveAliases.run s).2.model.NamesValue p.1 := by
  obtain ⟨l, hl⟩ : ∃ l, l = s.aliases.reverse := ⟨_, rfl⟩
  obtain ⟨taken, htaken⟩ : ∃ taken : State, taken = { s with aliases := [] } := ⟨_, rfl⟩
  obtain ⟨s', hs'⟩ : ∃ s', s' = ((l.forM fun d => resolveAlias d.1 d.2).run taken).2 := ⟨_, rfl⟩
  have hrun : (resolveAliases.run s).2 = s' := by
    rw [hs', hl, htaken]
    rfl
  have hmem {d : SymbolId × PendingDecl} (hd : d ∈ l) : d ∈ s.aliases := List.mem_reverse.mp (hl ▸ hd)
  have hahead : Ahead ground file (l.flatMap (·.2.typeParts) ++ rest) taken := by
    rw [hl, htaken]
    exact hs.takeAliases
  have htyped : TypesNamed taken := htaken ▸ ⟨h.typed.known, h.typed.specs⟩
  have hapart : (l.map Prod.fst).Nodup := by
    rw [hl, List.map_reverse, List.nodup_reverse]
    exact h.apart
  have huntyped : ∀ d ∈ l, taken.model.Untyped d.1 := fun d hd => htaken ▸ h.untyped d (hmem hd)
  obtain ⟨missing, hend, hfollows⟩ := exists_forM_resolveAlias hahead htyped hapart huntyped
  have hnaming : Naming (fun _ => False) taken s' := by
    have hall : Runs (Naming fun _ => False) (l.forM fun d => resolveAlias d.1 d.2) :=
      .forM fun d _ => naming_resolveAlias (fun h => h) d.2
    rw [hs']
    exact hall.run taken
  have hholding : Holding taken s' := by
    have hall : Runs Holding (l.forM fun d => resolveAlias d.1 d.2) := .forM fun d _ => inferInstance
    rw [hs']
    exact hall.run taken
  have hkeeps : taken.info.Keeps s'.info := hs' ▸ keeps_of_visits (fun _ => visits_resolveAliases l) hahead
  rw [← hs'] at hend hfollows
  rw [hrun, ← hl]
  refine ⟨missing, hend, ⟨hnaming.types htyped, fun d hd => hnaming.kind_eq htyped (huntyped d hd).1,
    fun d hd => ?_, hfollows⟩, fun p hp => hnaming.namesValue htyped ?_⟩
  · refine Info.Introduces.keeps ?_ hkeeps
    rw [htaken]
    exact h.introduced d (hmem hd)
  · rw [hholding.funcs] at hp
    rw [htaken] at hp ⊢
    exact h.funcs p hp

-- What comes of an alias: it has the type of the name that it is declared with, unless nothing is
-- known of the name or it is the name of a later alias.
structure AliasSettled (m : Model) (i : Info) (p : Part) (later : List Part) (a : SymbolId) : Prop where
  introduced : i.Introduces p a
  named : (m.symbol a).kind = .typeName
  followed : ∀ ident x, p.2.type?.bind embeddedName? = some ident → i.uses[(p.1, rangeOf ident)]? = some x →
    (∀ q ∈ later, ¬ i.Introduces q x) → (m.symbol x).kind = .typeName ∧ (m.symbol a).ty = (m.symbol x).ty
  unknown : ∀ ident, p.2.type?.bind embeddedName? = some ident →
    (∀ x, i.uses[(p.1, rangeOf ident)]? = some x → ∃ q ∈ later, i.Introduces q x) → (m.symbol a).ty = .invalid

theorem AliasesFollow.settled (h : AliasesFollow l missing s)
    (hmissing : ∀ key ∈ keysOf missing, s.info.uses[key]? = none) {p : Part} {later : List Part}
    (hsuffix : p :: later <:+ l.map (·.2.part)) :
    ∃ a, AliasSettled s.model s.info p (p :: later) a := by
  obtain ⟨before, hbefore⟩ := hsuffix
  obtain ⟨l₁, l₂, hl, -, hl₂⟩ := List.map_eq_append_iff.mp hbefore.symm
  obtain ⟨d, others, rfl, rfl, rfl⟩ := List.map_eq_cons_iff.mp hl₂
  have hsuffix : d :: others <:+ l := ⟨l₁, hl.symm⟩
  have hd : d ∈ l := hsuffix.subset List.mem_cons_self
  have hlater (x : SymbolId) : x ∈ (d :: others).map Prod.fst ↔ ∃ q ∈ d.2.part :: others.map (·.2.part),
      s.info.Introduces q x := by
    change _ ↔ ∃ q ∈ (d :: others).map (·.2.part), _
    constructor
    · intro hx
      obtain ⟨e, he, rfl⟩ := List.mem_map.mp hx
      exact ⟨e.2.part, List.mem_map_of_mem he, h.introduced e (hsuffix.subset he)⟩
    · rintro ⟨_, hq, hx⟩
      obtain ⟨e, he, rfl⟩ := List.mem_map.mp hq
      rw [hx.unique (h.introduced e (hsuffix.subset he))]
      exact List.mem_map_of_mem he
  have hfollows (ident : Token) (hident : d.2.decl.type?.bind embeddedName? = some ident) :=
    h.follows d others hsuffix (d.2.context.file, rangeOf ident)
      (Option.map_eq_some_iff.mpr ⟨ident, hident, rfl⟩)
  refine ⟨d.1, h.introduced d hd, h.named d hd, fun ident x hident huse hnot => ?_,
    fun ident hident hall => ?_⟩
  · rcases hfollows ident hident with ⟨hmem, -⟩ | ⟨y, huse', hkind, hty⟩
    · exact absurd (huse.symm.trans (hmissing _ hmem)) nofun
    · obtain rfl := Option.some.inj (huse.symm.trans huse')
      rw [if_neg fun hx => (hlater x).mp hx |>.elim fun q hq => hnot q hq.1 hq.2] at hty
      exact ⟨hkind, hty⟩
  · rcases hfollows ident hident with ⟨-, hinvalid⟩ | ⟨y, huse, -, hty⟩
    · exact hinvalid
    · rwa [if_pos ((hlater y).mpr (hall y huse))] at hty

-- What the aliases stand for is known when they were looked into, whatever else is checked later on.
theorem OpensAliases.settled {after : CheckM Unit} [hafter : Runs (Naming fun _ => True) after]
    (h : OpensAliases aliases s) (hs : Ahead ground file rest s)
    (hvisits : ∀ ground, Visits ground file rest after)
    (hs' : ((do resolveTypes; resolveAliases; resolveFuncs; after : CheckM Unit).run s).2 = s')
    {p : Part} {later : List Part} (hsuffix : p :: later <:+ aliases) :
    ∃ a, AliasSettled s'.model s'.info p (p :: later) a := by
  obtain ⟨found, hfound⟩ : ∃ found, found = (resolveTypes.run s).2 := ⟨_, rfl⟩
  obtain ⟨aliased, haliased⟩ : ∃ aliased, aliased = (resolveAliases.run found).2 := ⟨_, rfl⟩
  obtain ⟨called, hcalled⟩ : ∃ called, called = (resolveFuncs.run aliased).2 := ⟨_, rfl⟩
  have hend : (after.run called).2 = s' := by
    rw [← hs', hcalled, haliased, hfound]
    rfl
  have hpassing {a : CheckM Unit} {parts : List Part} {before behind : State}
      (hpass : ∀ ground, Runs (Passing ground file) a) (hahead : Ahead ground file parts before)
      (hrun : behind = (a.run before).2) :
      Ahead ground file parts behind ∧ before.info.Keeps behind.info :=
    hrun ▸ ⟨(hpass ground).run before parts hahead,
      keeps_of_ahead (fun facts => (hpass (ground.learn facts)).run before parts) hahead⟩
  obtain ⟨hfoundAhead, hfoundKeeps⟩ := hpassing (fun _ => inferInstance) hs hfound
  have htypes : Runs (Naming fun _ => True) resolveTypes := .resolveTypes fun _ _ => inferInstance
  have hholding : Holding s found := hfound ▸ Runs.run s
  have hopens : OpensAliases aliases found :=
    h.next (hfound ▸ htypes.run s) hfoundKeeps hholding.aliases fun _ hp => .inl (hholding.funcs ▸ hp)
  obtain ⟨missing, haliasedAhead, hfollow, hfuncs⟩ := hopens.exists_follow hfoundAhead
  rw [← haliased] at haliasedAhead hfollow hfuncs
  obtain ⟨hcalledAhead, hcalledKeeps⟩ := hpassing (fun _ => inferInstance) haliasedAhead hcalled
  have hnaming : Naming (fun _ => True) aliased called := by
    have htaken : Naming (fun _ => True) aliased { aliased with funcs := [] } :=
      DeclaresFuncs.funcs aliased []
    rw [hcalled]
    exact trans_of (Naming _) htaken (naming_resolveFuncs fun d hd _ => hfuncs d (List.mem_reverse.mp hd))
  have hrest : Ahead ground file (rest ++ missing) called := hcalledAhead.perm List.perm_append_comm
  have hsettled :=
    (hfollow.next hnaming hcalledKeeps).next (hend ▸ hafter.run called) (hend ▸ keeps_of_visits hvisits hrest)
  rw [← hopens.parts] at hsuffix
  have hleft : Ahead ground file missing s' := hend ▸ hvisits ground missing called hrest
  exact hsettled.settled (fun _ hkey => hleft.uses_eq_none hkey) hsuffix

end Whole

end Check

end SpriteScript
