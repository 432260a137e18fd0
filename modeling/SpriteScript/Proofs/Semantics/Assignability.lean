import SpriteScript.Semantics.Model

-- Which basic kinds the types have that can be assigned to each other.
namespace SpriteScript

namespace BasicKind

-- Both are numbers, both texts or both booleans.
def Alike (a b : BasicKind) : Prop :=
  a.isNumeric = true ∧ b.isNumeric = true ∨ a.isString = true ∧ b.isString = true ∨
    a.isBoolean = true ∧ b.isBoolean = true

instance (a b : BasicKind) : Decidable (a.Alike b) := inferInstanceAs (Decidable (_ ∨ _ ∨ _))

theorem Alike.symm {a b : BasicKind} (h : a.Alike b) : b.Alike a := by
  revert h
  cases a <;> cases b <;> decide

theorem alike_of_isInteger {a b : BasicKind} (ha : a.isInteger = true) (hb : b.isInteger = true) :
    a.Alike b := by
  revert ha hb
  cases a <;> cases b <;> decide

theorem alike_of_fits {a b : BasicKind} (h : Model.untypedAssignable.fits a (some b) = true) : a.Alike b := by
  revert h
  cases a <;> cases b <;> decide

end BasicKind

namespace Ty

mutual

theorem eq_of_same : {a b : Ty} → a.same b = true → a = b
  | .invalid, .invalid, _ => rfl
  | .any, .any, _ => rfl
  | .basic _, .basic _, h => congrArg basic (beq_iff_eq.mp h)
  | .named _, .named _, h => congrArg named (beq_iff_eq.mp h)
  | .slice _, .slice _, h => congrArg slice (eq_of_same h)
  | .chan _, .chan _, h => congrArg chan (eq_of_same h)
  | .tuple _, .tuple _, h => congrArg tuple (eq_of_sameAll h)
  | .map _ _, .map _ _, h => by
      obtain ⟨hkey, hvalue⟩ := Bool.and_eq_true_iff.mp h
      rw [eq_of_same hkey, eq_of_same hvalue]
  | .func _ _ _, .func _ _ _, h => by
      obtain ⟨hrest, hresults⟩ := Bool.and_eq_true_iff.mp h
      obtain ⟨hparams, hvariadic⟩ := Bool.and_eq_true_iff.mp hrest
      rw [eq_of_sameAll hparams, beq_iff_eq.mp hvariadic, eq_of_sameAll hresults]

theorem eq_of_sameAll : {as bs : List Ty} → same.sameAll as bs = true → as = bs
  | [], [], _ => rfl
  | _ :: _, _ :: _, h => by
      obtain ⟨hhead, htail⟩ := Bool.and_eq_true_iff.mp h
      rw [eq_of_same hhead, eq_of_sameAll htail]

end

theorem eq_of_beq {a b : Ty} (h : (a == b) = true) : a = b := eq_of_same h

mutual

theorem same_self : (a : Ty) → a.same a = true
  | .invalid => rfl
  | .any => rfl
  | .basic kind => beq_self_eq_true kind
  | .named id => beq_self_eq_true id
  | .slice elem => same_self elem
  | .chan elem => same_self elem
  | .tuple items => sameAll_self items
  | .map key value => Bool.and_eq_true_iff.mpr ⟨same_self key, same_self value⟩
  | .func params variadic results => Bool.and_eq_true_iff.mpr
      ⟨Bool.and_eq_true_iff.mpr ⟨sameAll_self params, beq_self_eq_true variadic⟩, sameAll_self results⟩

theorem sameAll_self : (as : List Ty) → same.sameAll as as = true
  | [] => rfl
  | a :: rest => Bool.and_eq_true_iff.mpr ⟨same_self a, sameAll_self rest⟩

end

theorem beq_self (a : Ty) : (a == a) = true := same_self a

theorem beq_symm {a b : Ty} (h : (a == b) = true) : (b == a) = true := eq_of_beq h ▸ beq_self a

theorem exists_of_isUntyped {a : Ty} (h : a.isUntyped = true) :
    ∃ kind, a = basic kind ∧ kind.isUntyped = true := by
  cases a with
  | basic kind => exact ⟨kind, rfl, h⟩
  | _ => cases h

end Ty

namespace Model

variable {m : Model} {a b : Ty}

theorem assignable_of_same (h : (a == b) = true) : m.assignable a b = true := by
  unfold assignable
  rw [h, Bool.or_true, if_pos rfl]

theorem assignable_self (a : Ty) : m.assignable a a = true := assignable_of_same (Ty.beq_self a)

theorem assignable_of_isInvalid (h : b.isInvalid = true) : m.assignable a b = true := by
  unfold assignable
  rw [h, Bool.or_true, Bool.true_or, if_pos rfl]

theorem basicOf?_of_isInvalid (h : a.isInvalid = true) : m.basicOf? a = none := by
  cases a with
  | invalid => rfl
  | _ => cases h

theorem basicOf?_of_isInterface {id : NamedId} (h : (m.namedType id).isInterface = true) :
    m.basicOf? (.named id) = none := by
  have hgo : m.underlying (.named id) = .named id := by
    unfold underlying maxAliases underlying.go
    unfold NamedType.isInterface at h
    split at h
    case h_1 hunderlying => rw [hunderlying]
    case h_2 => cases h
  rw [basicOf?, hgo]
  rfl

-- A typed value goes where its own kind is asked for, or to an interface.
theorem basicOf?_eq_of_assignable (h : m.assignable a b = true) (ha : a.isUntyped = false)
    (hvalid : a.isInvalid = false) (hvalid' : b.isInvalid = false) :
    m.basicOf? a = m.basicOf? b ∨ m.basicOf? b = none := by
  unfold assignable at h
  rw [hvalid, hvalid', Bool.false_or, Bool.false_or] at h
  split at h
  case isTrue hsame => exact .inl (by rw [Ty.eq_of_beq hsame])
  case isFalse =>
    split at h
    case h_1 => cases h
    case h_2 => exact .inr rfl
    case h_3 =>
      rw [ha, if_neg Bool.false_ne_true] at h
      split at h
      case isTrue hstrings =>
        simp only [Bool.and_eq_true, beq_iff_eq] at hstrings
        exact .inl (hstrings.1.2.trans hstrings.2.symm)
      case isFalse =>
        split at h
        case h_1 id hid =>
          obtain ⟨hnamed, hinterface⟩ := Option.filter_eq_some_iff.mp hid
          cases b with
          | named id' =>
              obtain rfl : id' = id := Option.some.inj hnamed
              exact .inr (basicOf?_of_isInterface hinterface)
          | _ => cases hnamed
        case h_2 =>
          split at h
          · cases h
          · exact .inl (congrArg Ty.basic? (Ty.eq_of_beq h))

-- So types of values that can be assigned in both directions have one kind.
theorem basicOf?_eq_of_assignable_both (h : m.assignable a b = true) (h' : m.assignable b a = true)
    (ha : a.isUntyped = false) (hb : b.isUntyped = false) (hvalid : a.isInvalid = false)
    (hvalid' : b.isInvalid = false) : m.basicOf? a = m.basicOf? b := by
  rcases basicOf?_eq_of_assignable h ha hvalid hvalid' with heq | hnone
  · exact heq
  · rcases basicOf?_eq_of_assignable h' hb hvalid' hvalid with heq | hnone'
    · exact heq.symm
    · rw [hnone, hnone']

theorem basicOf?_of_nilAssignable (h : m.nilAssignable a = true) : m.basicOf? a = none := by
  unfold nilAssignable at h
  rw [basicOf?]
  split at h
  case h_7 => cases h
  all_goals rename_i hunderlying; rw [hunderlying]; rfl

-- An untyped constant goes where a kind like its own is asked for, or to what is no basic type.
theorem fits_of_untypedAssignable {kind : BasicKind} (h : m.untypedAssignable kind b = true) :
    m.basicOf? b = none ∨ untypedAssignable.fits kind (m.basicOf? b) = true := by
  unfold untypedAssignable at h
  split at h
  case isTrue => exact .inl (basicOf?_of_nilAssignable h)
  case isFalse =>
    split at h
    case h_1 => exact .inl rfl
    case h_2 id =>
      split at h
      case isTrue hinterface => exact .inl (basicOf?_of_isInterface hinterface)
      case isFalse => exact .inr h
    case h_3 => exact .inr h

theorem fits_of_assignable {kind : BasicKind} (h : m.assignable (.basic kind) b = true)
    (hkind : kind.isUntyped = true) (hvalid : b.isInvalid = false) (hne : b ≠ .basic kind) :
    m.basicOf? b = none ∨ untypedAssignable.fits kind (m.basicOf? b) = true := by
  have huntyped : (Ty.basic kind).isUntyped = true := hkind
  unfold assignable at h
  rw [hvalid, huntyped] at h
  split at h
  case isTrue hsame => exact absurd (Ty.eq_of_beq hsame).symm hne
  case isFalse =>
    split at h
    case h_1 => cases h
    case h_2 => exact .inl rfl
    case h_3 => exact fits_of_untypedAssignable h

theorem isInvalid_eq_false_of_basic {kind : BasicKind} (h : m.basicOf? a = some kind) :
    a.isInvalid = false := by
  cases a with
  | invalid => cases h
  | _ => rfl

-- Between types of basic kinds it does not matter which one is assigned.
theorem assignable_iff_of_basic {kind kind' : BasicKind} (ha : a.isUntyped = false)
    (hkind : m.basicOf? a = some kind) (hkind' : m.basicOf? b = some kind') :
    m.assignable a b = true ↔ (a == b) = true ∨
      ((m.resourceNameKind? a).isSome = true ∨ (m.resourceNameKind? b).isSome = true) ∧
        kind = .string ∧ kind' = .string ∨
      (hasName a && hasName b) = false ∧ (m.underlying a == m.underlying b) = true := by
  have hinterface : (b.named?.filter fun id => (m.namedType id).isInterface) = none := by
    cases b with
    | named id =>
        refine Option.filter_eq_none_iff.mpr fun id' hid hinterface => ?_
        obtain rfl := Option.some.inj hid
        rw [basicOf?_of_isInterface hinterface] at hkind'
        cases hkind'
    | _ => rfl
  unfold assignable
  rw [isInvalid_eq_false_of_basic hkind, isInvalid_eq_false_of_basic hkind', Bool.false_or, Bool.false_or]
  split
  case isTrue hsame => exact iff_of_true rfl (.inl hsame)
  case isFalse hsame =>
    split
    case h_1 => cases hkind'
    case h_2 => cases hkind'
    case h_3 =>
      rw [ha, if_neg Bool.false_ne_true, hkind, hkind', hinterface]
      cases hasName a && hasName b <;> simp [hsame, and_assoc]

theorem assignable_symm_of_basic {kind : BasicKind} (h : m.assignable b a = true) (ha : a.isUntyped = false)
    (hb : b.isUntyped = false) (hkind : m.basicOf? a = some kind) : m.assignable a b = true := by
  cases hvalid : b.isInvalid with
  | true => exact assignable_of_isInvalid hvalid
  | false =>
      have hkind' : m.basicOf? b = some kind := by
        rcases basicOf?_eq_of_assignable h hb hvalid (isInvalid_eq_false_of_basic hkind) with heq | hnone
        · exact heq.trans hkind
        · rw [hkind] at hnone
          cases hnone
      rw [assignable_iff_of_basic ha hkind hkind']
      rcases (assignable_iff_of_basic hb hkind' hkind).mp h with hsame | ⟨hname, hkinds⟩ | ⟨hnames, hunder⟩
      · exact .inl (Ty.beq_symm hsame)
      · exact .inr (.inl ⟨hname.symm, hkinds⟩)
      · exact .inr (.inr ⟨(Bool.and_comm _ _).trans hnames, Ty.beq_symm hunder⟩)

-- A whole number goes where a number is asked for.
theorem assignable_untypedInt {kind : BasicKind} (hkind : m.basicOf? a = some kind)
    (hnumeric : kind.isNumeric = true) : m.assignable (.basic .untypedInt) a = true := by
  have hfits : untypedAssignable.fits .untypedInt (m.basicOf? a) = true := by
    rw [hkind]
    exact hnumeric
  have huntyped : m.untypedAssignable .untypedInt a = true := by
    unfold untypedAssignable
    rw [if_neg (by decide)]
    split
    case h_1 => rfl
    case h_2 id =>
      split
      case isTrue hinterface =>
        rw [basicOf?_of_isInterface hinterface] at hkind
        cases hkind
      case isFalse => exact hfits
    case h_3 => exact hfits
  unfold assignable
  split
  case isTrue => rfl
  case isFalse =>
    split
    case h_1 => cases hkind
    case h_2 => rfl
    case h_3 => exact huntyped

end Model

end SpriteScript
