import SpriteScript.Proofs.Checking.Moves

-- Finding the types that type expressions stand for.
namespace SpriteScript.Check

variable {w : Stage} {file : FileId}

instance {R : State → State → Prop} [IsPreorder State R] (name : String) : Runs R (typeSymbol? name) :=
  .of_read fun _ => rfl

theorem finds_typeSymbol? {name : String} : Finds w file (typeSymbol? name) fun found =>
    ∀ id, found = some id → Names w id name := by
  intro s _ ht _ id h
  obtain ⟨scope, -, hscope⟩ := List.exists_of_findSome?_eq_some h
  obtain ⟨entry, hbound, hid⟩ := Option.bind_eq_some_iff.mp hscope
  split at hid
  · cases hid
    exact ht.model.names_of_bound? hbound
  · cases hid

instance (ident : Token) [FreeWord w file ident] : Keeps w file (typeOfName ident) := by
  unfold typeOfName
  refine Keeps.bind_find inferInstance finds_typeSymbol? (fun found => ?_) fun found hfound => ?_
  · split <;> infer_instance
  · split
    case h_1 id =>
      have := hfound id rfl
      infer_instance
    case h_2 => infer_instance

instance (ident : Token) [h : FreeWord w file ident] : Keeps w file (packageOf? ident) := by
  unfold packageOf?
  refine Keeps.bind_find inferInstance (finds_lookup? h.text_ne_empty) (fun found => ?_)
    fun found hfound => ?_
  · split <;> infer_instance
  · split
    case h_1 id =>
      have := hfound id rfl
      infer_instance
    case h_2 => infer_instance

instance (qualifier ident : Token) [FreeWord w file qualifier] [FreeWord w file ident] :
    Keeps w file (typeOfQualified qualifier ident) := by
  unfold typeOfQualified
  refine .bind inferInstance fun package => ?_
  split
  · refine Keeps.bind_find inferInstance finds_model (fun m => ?_) fun m hm => ?_
    · split
      · split <;> infer_instance
      · infer_instance
    · split
      · split
        case h_1 entry hentry =>
          have := hm.1.names_of_bound? hentry
          infer_instance
        case h_2 => infer_instance
      · infer_instance
  · infer_instance

section Names

variable {t : Tree} [Sits w file t]

theorem freeWord_of_typeName? {ident : Token} (h : t.typeName? = some ident) :
    FreeWord w file ident :=
  .of_mem_tokensOf (List.mem_of_getLast? h)

theorem freeWord_of_qualifier? {ident : Token} (h : t.qualifier? = some ident) :
    FreeWord w file ident := by
  unfold Tree.qualifier? at h
  split at h
  case h_1 package other htokens =>
    cases h
    have hmem : ident ∈ t.tokensOf .ident := htokens ▸ List.mem_cons_self
    exact .of_mem_tokensOf hmem
  case h_2 => cases h

theorem freeWord_of_embeddedName? {ident : Token} (h : embeddedName? t = some ident) :
    FreeWord w file ident := by
  unfold embeddedName? at h
  generalize t.height + 1 = fuel at h
  induction fuel generalizing t with
  | zero => cases h
  | succ fuel ih =>
      unfold embeddedName?.go at h
      split at h
      · exact freeWord_of_typeName? h
      · obtain ⟨elem, helem, hname⟩ := Option.bind_eq_some_iff.mp h
        have : Sits w file elem := .of_childWith? helem
        exact ih hname
      · cases h

theorem freeWord_of_fieldIdents {type : Tree} [Sits w file type] {ident : Token × Bool}
    (h : ident ∈ fieldIdents t type) : FreeWord w file ident.1 := by
  unfold fieldIdents at h
  split at h
  · obtain ⟨name, hname, rfl⟩ := List.mem_map.mp h
    exact freeWord_of_embeddedName? (Option.mem_toList.mp hname)
  · obtain ⟨name, hname, rfl⟩ := List.mem_map.mp h
    exact .of_mem_idents hname

end Names

-- The names of a list of parameters.
theorem freeWord_of_paramIdents {list : Tree} [Sits w file list] {ident : Token}
    (h : some ident ∈ paramIdents list) : FreeWord w file ident := by
  unfold paramIdents at h
  split at h
  · obtain ⟨param, hparam, hident⟩ := List.mem_map.mp h
    have : Sits w file param := .of_mem hparam
    exact .of_bind_ident? hident
  · obtain ⟨_, -, hident⟩ := List.mem_map.mp h
    cases hident

section Resolving

-- `resolve` may be used on all trees of the file.
variable {resolve : Tree → CheckM Ty} [KeepsOn w file resolve]

instance (params : List Tree) [hp : SitAll w file params] :
    Keeps w file (typesFromLast resolve params) := by
  revert hp
  induction params with
  | nil =>
      intro _
      unfold typesFromLast
      infer_instance
  | cons param rest ih =>
      intro hp
      have hparam : Sits w file param := hp.sits param List.mem_cons_self
      have hrest : SitAll w file rest := ⟨fun t ht => hp.sits t (List.mem_cons_of_mem _ ht)⟩
      unfold typesFromLast
      refine .bind ih fun (types, carried) => ?_
      dsimp only
      split
      case h_1 t ht =>
        have : Sits w file t := .of_childWith? ht
        infer_instance
      case h_2 => infer_instance

instance (list : Tree) [Sits w file list] : Keeps w file (paramsOf resolve list) := by
  unfold paramsOf
  dsimp only
  split
  · exact .bind inferInstance fun (types, carried) => by
      dsimp only
      infer_instance
  · refine .bind (.mapM fun param hparam => ?_) fun types => inferInstance
    have : Sits w file param := .of_mem hparam
    split
    case h_1 ident hident =>
      have : FreeWord w file ident := .of_bind_ident? hident
      infer_instance
    case h_2 => infer_instance

instance (result : Tree) [Sits w file result] :
    Keeps w file (resultTypes resolve result) := by
  unfold resultTypes
  split
  case h_1 ty hty =>
    have : Sits w file ty := .of_childWith? hty
    infer_instance
  case h_2 list _ hlist =>
    have : Sits w file list := .of_childWith? hlist
    infer_instance
  case h_3 => infer_instance

instance (t : Tree) [Sits w file t] : Keeps w file (signatureWith resolve t) := by
  unfold signatureWith
  refine .bind (.optionMapM fun list hlist => ?_) fun params =>
    .bind (.optionMapM fun result hresult => ?_) fun results => inferInstance
  · have : Sits w file list := .of_childWith? hlist
    infer_instance
  · have : Sits w file result := .of_childWith? hresult
    infer_instance

instance (owner : NamedId) (ty : Ty) (fields : List Field) (ident : Token) (embedded : Bool)
    [FreeWord w file ident] : Stays w file (addField owner ty fields ident embedded) := by
  unfold addField
  infer_instance

theorem yields_addField {owner : NamedId} {ty : Ty} {fields : List Field} {ident : Token}
    {embedded : Bool} [FreeWord w file ident] (hfields : Spelled w fields) :
    Yields w file (addField owner ty fields ident embedded) (Spelled w) := by
  have hadded (id : SymbolId) (hid : Names w id ident.text) :
      Yields w file (do
        if fields.any (·.name == ident.text) then
          problem (rangeOf ident) (.duplicateField ident.text)
          return fields
        else
          return fields ++ [⟨id, ident.text, ty, embedded⟩]) (Spelled w) := by
    split
    · exact ⟨inferInstance, fun _ _ _ _ => hfields⟩
    · refine .pure fun f hf => ?_
      rcases List.mem_append.mp hf with hf | hf
      · exact hfields f hf
      · rwa [List.mem_singleton.mp hf]
  unfold addField
  cases embedded with
  | false =>
      refine Yields.declared_bind (fun _ => rfl) (fun _ => ?_) fun id hname hdef => ?_
      · dsimp only
        infer_instance
      · exact .bind (Keeps.yields inferInstance) (fun _ => inferInstance) fun _ _ => hadded id hname
  | true =>
      refine .bind (ensures_declared.yields inferInstance) (fun _ => ?_) fun x hx => ?_
      · dsimp only
        infer_instance
      · have horigin := Origin.mk.inj hx
        refine .bind (.addSymbol (o := ⟨ident.text, .field, none, false⟩) ?_ fits_unplaced)
          (fun _ => ?_) fun id hid => hadded id ⟨_, hid, rfl⟩
        · simp [Symbol.origin, horigin]
        · dsimp only
          infer_instance

theorem yields_structFields {t : Tree} {owner : NamedId} [Sits w file t] :
    Yields w file (structFields resolve t owner) (Spelled w) := by
  unfold structFields
  refine .foldlM (fun _ => nofun) (fun decl hdecl fields => ?_) fun decl hdecl fields hfields => ?_
  all_goals
    have : Sits w file decl := .of_mem hdecl
    split
  case h_1 type htype =>
    have : Sits w file type := .of_childWith? htype
    refine .bind inferInstance fun ty => .foldlM fun ident hident fields => ?_
    have : FreeWord w file ident.1 := freeWord_of_fieldIdents hident
    infer_instance
  case h_2 => infer_instance
  case h_1 type htype =>
    have : Sits w file type := .of_childWith? htype
    have hident (ident : Token × Bool) (h : ident ∈ fieldIdents decl type) : FreeWord w file ident.1 :=
      freeWord_of_fieldIdents h
    refine .bind (Keeps.yields inferInstance) (fun ty => ?_) fun ty _ => ?_
    · refine .foldlM fun ident h fields => ?_
      have := hident ident h
      infer_instance
    · refine .foldlM hfields (fun ident h fields => ?_) fun ident h fields hfields => ?_
      all_goals have := hident ident h
      · infer_instance
      · exact yields_addField hfields
  case h_2 => exact .pure hfields

instance (t : Tree) (owner : NamedId) [Sits w file t] :
    Keeps w file (structFields resolve t owner) :=
  yields_structFields.keeps

instance (t : Tree) (owner : NamedId) [Sits w file t] :
    Keeps w file (interfaceMethods resolve t owner) := by
  unfold interfaceMethods
  refine .filterMapM fun spec hspec => ?_
  have : Sits w file spec := .of_mem hspec
  split
  case h_1 ident hident =>
    have : FreeWord w file ident := .of_bind_ident? hident
    exact .bind inferInstance fun signature =>
      Keeps.declared_bind (fun _ => rfl) (fun _ => inferInstance) fun id _ _ => inferInstance
  case h_2 => infer_instance

instance (t : Tree) [Sits w file t] : Keeps w file (typeStep resolve t) := by
  unfold typeStep
  split
  case h_1 =>
    split
    case h_1 ident qualifier hident hqualifier =>
      have : FreeWord w file ident := freeWord_of_typeName? hident
      have : FreeWord w file qualifier := freeWord_of_qualifier? hqualifier
      infer_instance
    case h_2 ident hident _ =>
      have : FreeWord w file ident := freeWord_of_typeName? hident
      infer_instance
    case h_3 => infer_instance
  case h_2 | h_3 | h_5 =>
    split
    case h_1 elem helem =>
      have : Sits w file elem := .of_childWith? helem
      infer_instance
    case h_2 => infer_instance
  case h_4 =>
    split
    case h_1 key value hkey hvalue =>
      have : Sits w file key := .of_childWith? hkey
      have : Sits w file value := .of_getElem? hvalue
      infer_instance
    case h_2 => infer_instance
  case h_6 | h_9 => infer_instance
  case h_7 =>
    have hnew : Keeps w file (addNamed { name := "struct\x7b...\x7d", package := "" }) := .addNamed rfl
    refine .bind hnew fun id => Keeps.bind_find inferInstance yields_structFields.finds
      (fun fields => inferInstance) fun fields hfields => ?_
    have : Keeps w file (modifyModel (·.modifyNamed id fun n => { n with underlying := .struct fields })) :=
      .modifyNamed fun _ _ => hfields
    infer_instance
  case h_8 =>
    have hnew : Keeps w file (addNamed { name := "interface\x7b...\x7d", package := "" }) := .addNamed rfl
    have hset (id : NamedId) (methods : List SymbolId) : Keeps w file
        (modifyModel (·.modifyNamed id fun n => { n with underlying := .interface methods })) :=
      .modifyNamed fun _ _ => nofun
    split <;> infer_instance

end Resolving

instance (fuel : Nat) : KeepsOn w file (typeWithin fuel) := by
  induction fuel with
  | zero => exact ⟨fun t _ => (inferInstance : Keeps w file (pure .invalid : CheckM Ty))⟩
  | succ fuel ih => exact ⟨fun t _ => (inferInstance : Keeps w file (typeStep (typeWithin fuel) t))⟩

instance : KeepsOn w file typeOf := ⟨fun t ht =>
  (inferInstance : KeepsOn w file (typeWithin (t.height + 1))).keeps t ht⟩

instance (t : Tree) [Sits w file t] : Keeps w file (signatureOf t) := by
  unfold signatureOf
  infer_instance

end SpriteScript.Check
