import SpriteScript.Proofs.Checking.Types
import SpriteScript.Proofs.Identifiers.Moves

-- Type expressions are read once.
namespace SpriteScript.Check

variable {ground : Ground} {file : FileId}

theorem reads_typeOfName (ident : Token) : Reads ground file [.token ident] (typeOfName ident) := by
  unfold typeOfName
  refine .after inferInstance fun found => ?_
  split
  · exact (reads_recordUse _ _).before fun _ => inferInstance
  · exact .of_runs inferInstance

theorem reads_packageOf? (ident : Token) : Reads ground file [.token ident] (packageOf? ident) := by
  unfold packageOf?
  refine .after inferInstance fun found => ?_
  split
  · refine .after inferInstance fun s => ?_
    split
    · exact (reads_recordUse _ _).before fun _ => inferInstance
    · exact .of_runs inferInstance
  · exact .of_runs inferInstance

theorem reads_typeOfQualified (qualifier ident : Token) :
    Reads ground file [.token qualifier, .token ident] (typeOfQualified qualifier ident) := by
  unfold typeOfQualified
  refine .bind_cons (reads_packageOf? qualifier) fun package => ?_
  split
  · refine .after inferInstance fun m => ?_
    split
    · split
      · split
        · exact (reads_recordUse _ _).before fun _ => inferInstance
        · exact .of_runs inferInstance
      · exact .of_runs inferInstance
    · exact .of_runs inferInstance
  · exact .of_runs inferInstance

section Resolving

variable {resolve : Tree → CheckM Ty} (hresolve : ∀ t, Reads ground file [t] (resolve t))

include hresolve

theorem reads_typesFromLast (params : List Tree) :
    Reads ground file (params.flatMap (·.type?.toList)) (typesFromLast resolve params) := by
  induction params with
  | nil => exact .of_runs (inferInstance : Runs _ (pure ([], .invalid) : CheckM (List Ty × Ty)))
  | cons param rest ih =>
      unfold typesFromLast
      rw [List.flatMap_cons]
      refine Reads.below (.bind ih fun found => ?_) (.of_perm List.perm_append_comm)
      dsimp only
      split
      case h_1 t ht =>
        rw [ht]
        exact (hresolve t).before fun _ => inferInstance
      case h_2 => exact .of_runs inferInstance

theorem reads_paramsOf (list : Tree) : Reads ground file list.typeParts (paramsOf resolve list) := by
  unfold paramsOf Tree.typeParts
  dsimp only
  split
  · exact (reads_typesFromLast hresolve list.params).before fun _ => inferInstance
  · refine Reads.before (.mapM fun param _ => ?_) fun types => inferInstance
    split
    case h_1 ident hident => exact (reads_typeOfName ident).below (Tree.below_bind_ident? hident)
    case h_2 => exact .of_runs inferInstance

theorem reads_resultTypes (result : Tree) :
    Reads ground file result.resultParts (resultTypes resolve result) := by
  unfold resultTypes Tree.resultParts
  split
  case h_1 ty hty =>
    rw [hty]
    exact ((hresolve ty).before fun _ => inferInstance).sublist (List.sublist_append_left _ _)
  case h_2 list hty hlist =>
    rw [hty, hlist]
    exact (reads_paramsOf hresolve list).before fun _ => inferInstance
  case h_3 => exact .of_runs inferInstance

theorem reads_signatureWith (t : Tree) : Reads ground file t.signatureParts (signatureWith resolve t) := by
  unfold signatureWith Tree.signatureParts
  refine .bind (.optionMapM fun list _ => reads_paramsOf hresolve list) fun params => ?_
  exact (Reads.optionMapM fun result _ => reads_resultTypes hresolve result).before fun results =>
    inferInstance

omit hresolve in
-- An embedded field is declared where its type is, so that its name is no definition.
theorem reads_addField (owner : NamedId) (ty : Ty) (fields : List Field) (ident : Token) (embedded : Bool) :
    Reads ground file (if embedded then [] else [.token ident])
    (addField owner ty fields ident embedded) := by
  unfold addField
  refine .after inferInstance fun x => ?_
  cases embedded with
  | true =>
      refine .of_runs (.bind inferInstance fun id => ?_)
      rw [if_neg (by simp)]
      infer_instance
  | false =>
      refine .after inferInstance fun id => ?_
      exact (reads_recordDef ident id).before fun _ => inferInstance

theorem reads_structFields (t : Tree) (owner : NamedId) :
    Reads ground file [t] (structFields resolve t owner) := by
  unfold structFields
  refine Reads.below (.foldlM (p := fun decl => decl.type?.toList ++ decl.names) fun decl _ fields => ?_)
    ((Tree.Below.flatMap fun decl _ => decl.below_fieldDecl).trans (Tree.below_one _))
  split
  case h_1 type htype =>
    rw [htype]
    refine .bind (hresolve type) fun ty => ?_
    have hfields := Reads.foldlM (b := fields) (l := fieldIdents decl type)
      (g := fun fields x => addField owner ty fields x.1 x.2)
      fun x _ acc => show Reads ground file _ _ from reads_addField owner ty acc x.1 x.2
    refine hfields.below ?_
    unfold fieldIdents
    split
    · rw [List.flatMap_eq_nil_iff.mpr (by simp)]
      exact .nil _
    · simpa [List.flatMap_map, ← List.map_eq_flatMap] using Tree.below_idents decl.names
  case h_2 => exact .of_runs inferInstance

theorem reads_interfaceMethods (t : Tree) (owner : NamedId) :
    Reads ground file [t] (interfaceMethods resolve t owner) := by
  unfold interfaceMethods
  refine Reads.below (.filterMapM (p := fun spec => spec.signatureParts ++ spec.name?.toList)
    fun spec _ => ?_)
    ((Tree.Below.flatMap fun spec _ => spec.below_methodSpec).trans (Tree.below_one _))
  split
  case h_1 ident hident =>
    refine .bind (reads_signatureWith hresolve spec) fun signature => ?_
    refine .after inferInstance fun x => .after inferInstance fun id => ?_
    exact ((reads_recordDef ident id).below (Tree.below_bind_ident? hident)).before fun _ => inferInstance
  case h_2 => exact .of_runs inferInstance

theorem reads_typeStep (t : Tree) : Reads ground file [t] (typeStep resolve t) := by
  have hset (id : NamedId) (underlying : Underlying) (h : underlying ≠ .pending) : Runs (Passing ground file)
      (modifyModel (·.modifyNamed id fun n => { n with underlying })) := by
    refine .modifyNamed fun n hn => ?_
    unfold NamedType.isPending at hn
    split at hn
    · exact absurd ‹_› h
    · cases hn
  unfold typeStep
  split
  case h_1 =>
    split
    case h_1 ident qualifier hident hqualifier =>
      have hbelow := t.below_typeRef
      rw [hident, hqualifier] at hbelow
      exact (reads_typeOfQualified qualifier ident).below hbelow
    case h_2 ident hident hqualifier =>
      have hbelow := t.below_typeRef
      rw [hident, hqualifier] at hbelow
      exact (reads_typeOfName ident).below hbelow
    case h_3 => exact .of_runs inferInstance
  case h_2 =>
    split
    case h_1 elem helem => exact (hresolve elem).below (Tree.below_of_child? helem)
    case h_2 => exact .of_runs inferInstance
  case h_3 | h_5 =>
    split
    case h_1 elem helem =>
      exact ((hresolve elem).before fun _ => inferInstance).below (Tree.below_of_child? helem)
    case h_2 => exact .of_runs inferInstance
  case h_4 =>
    split
    case h_1 key value hkey hvalue =>
      have hbelow := t.below_typePair.trans (Tree.below_one _)
      rw [hkey, hvalue] at hbelow
      exact Reads.below (.bind (hresolve key) fun _ => (hresolve value).before fun _ => inferInstance) hbelow
    case h_2 => exact .of_runs inferInstance
  case h_6 =>
    exact ((reads_signatureWith hresolve t).before fun _ => inferInstance).below t.below_signatureParts
  case h_7 =>
    refine .after inferInstance fun id => (reads_structFields hresolve t id).before fun fields => ?_
    have := hset id (.struct fields) (by simp)
    infer_instance
  case h_8 =>
    split
    · exact .of_runs inferInstance
    · refine .after inferInstance fun id => (reads_interfaceMethods hresolve t id).before fun methods => ?_
      have := hset id (.interface methods) (by simp)
      infer_instance
  case h_9 => exact .of_runs inferInstance

end Resolving

theorem reads_typeWithin (fuel : Nat) (t : Tree) : Reads ground file [t] (typeWithin fuel t) := by
  induction fuel generalizing t with
  | zero => exact .of_runs (inferInstance : Runs _ (pure .invalid : CheckM Ty))
  | succ fuel ih => exact reads_typeStep ih t

theorem reads_typeOf (t : Tree) : Reads ground file [t] (typeOf t) := reads_typeWithin _ t

theorem reads_signatureOf (t : Tree) : Reads ground file t.signatureParts (signatureOf t) :=
  reads_signatureWith reads_typeOf t

end SpriteScript.Check
