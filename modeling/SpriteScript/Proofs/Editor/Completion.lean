import Mathlib.Logic.Basic
import SpriteScript.Check.Calls
import SpriteScript.Editor.Completion
import SpriteScript.Proofs.Semantics.Assignability
import SpriteScript.Proofs.Text.Literals

-- What is suggested at a cursor: resources by the texts that are inserted for them, and names by the
-- types that are asked for.
namespace SpriteScript.Editor

variable {d : Document} {docs : Docs} {offset : Nat} {wanted : Wanted} {item : CompletionItem}
variable {id : ResourceId}

-- Resources

theorem resource_of_mem_scopeItems (h : item ∈ scopeItems d docs offset wanted) : item.resource = none := by
  obtain ⟨s, -, hitem⟩ := List.mem_filterMap.mp h
  dsimp only at hitem
  split at hitem
  · cases hitem
  · split at hitem
    · cases hitem
    · obtain rfl := Option.some.inj hitem
      rfl

theorem resource_of_mem_memberItems {m : Model} {base? : Option MemberBase}
    (h : item ∈ memberItems m docs base?) : item.resource = none := by
  unfold memberItems at h
  split at h <;> try split at h
  · obtain ⟨entry, -, rfl⟩ := List.mem_map.mp h
    rfl
  · cases h
  · obtain ⟨member, -, rfl⟩ := List.mem_map.mp h
    rfl
  · cases h
  · cases h

theorem exists_of_mem_resourceItems {inQuotes : Bool} (h : item ∈ resourceItems d wanted inQuotes) :
    ∃ id, item = .ofResource id inQuotes := by
  obtain ⟨id, -, rfl⟩ := List.mem_map.mp h
  exact ⟨id, rfl⟩

-- A suggestion that stands for a resource is made from it.
theorem eq_ofResource_of_mem_itemsAt (h : item ∈ itemsAt d docs offset) (hid : item.resource = some id) :
    ∃ inQuotes, item = .ofResource id inQuotes := by
  have hresource {wanted : Wanted} {inQuotes : Bool} (h : item ∈ resourceItems d wanted inQuotes) :
      ∃ inQuotes, item = .ofResource id inQuotes := by
    obtain ⟨found, rfl⟩ := exists_of_mem_resourceItems h
    obtain rfl : found = id := Option.some.inj hid
    exact ⟨inQuotes, rfl⟩
  have hother (h : item.resource = none) : ∃ inQuotes, item = .ofResource id inQuotes := by
    rw [h] at hid
    cases hid
  unfold itemsAt at h
  split at h
  case h_1 => cases h
  case h_2 => exact hresource h
  case h_3 =>
    obtain ⟨package, -, rfl⟩ := List.mem_map.mp h
    exact hother rfl
  case h_4 => exact hother (resource_of_mem_memberItems h)
  case h_5 =>
    obtain ⟨field, -, rfl⟩ := List.mem_map.mp h
    exact hother rfl
  case h_6 =>
    rcases List.mem_append.mp h with h | h
    · exact hother (resource_of_mem_scopeItems h)
    · exact hresource h
  case h_7 =>
    rcases List.mem_append.mp h with h | h
    · exact hother (resource_of_mem_scopeItems h)
    · split at h
      · obtain ⟨keyword, -, rfl⟩ := List.mem_map.mp h
        exact hother rfl
      · cases h

-- Suggestions are those of the document at the offset of the position, in their order.
theorem exists_mem_itemsAt {p : Program} {path : String} {position : Text.Position}
    {items : List CompletionItem} (h : completions p docs path position = .ok items)
    (hitem : item ∈ items) :
    ∃ d offset, Document.open? p path = .ok d ∧ d.offset? position = some offset ∧
    item ∈ itemsAt d docs offset := by
  unfold completions at h
  cases hopen : Document.open? p path with
  | error e =>
      rw [hopen] at h
      cases h
  | ok d =>
      simp only [hopen, bind, Except.bind] at h
      split at h
      case h_1 offset hoffset =>
        obtain rfl := Except.ok.inj h
        exact ⟨d, offset, rfl, hoffset, List.mem_mergeSort.mp hitem⟩
      case h_2 =>
        obtain rfl := Except.ok.inj h
        cases hitem

-- The text that is inserted for a resource outside of quotes is a string for its name if every character
-- of the name means itself there: nothing in it is escaped.
theorem resource_inserted {p : Program} {path : String} {position : Text.Position}
    {items : List CompletionItem} {text : String} (h : completions p docs path position = .ok items)
    (hitem : item ∈ items) (hid : item.resource = some id) (htext : item.insertText = some text) :
    Syntax.IsLiteralOf text id.name ↔ ∀ c ∈ id.name.toList, Token.IsPlain c := by
  obtain ⟨d, offset, -, -, hmem⟩ := exists_mem_itemsAt h hitem
  obtain ⟨inQuotes, rfl⟩ := eq_ofResource_of_mem_itemsAt hmem hid
  cases inQuotes with
  | true => cases htext
  | false =>
      obtain rfl : CompletionItem.quoted id.name = text := Option.some.inj htext
      exact Syntax.isLiteralOf_quoted_self_iff id.name

-- Names

theorem mem_addType {types : List Ty} {ty other : Ty} :
    other ∈ addType types ty ↔ other ∈ types ∨ other = ty ∧ ty.isInvalid = false := by
  unfold addType
  split
  case isTrue h =>
    rcases Bool.or_eq_true_iff.mp h with hinvalid | hold
    · simp [hinvalid]
    · obtain ⟨found, hmem, heq⟩ := List.contains_iff_exists_mem_beq.mp hold
      have hmem : ty ∈ types := Ty.eq_of_beq heq ▸ hmem
      constructor
      · exact .inl
      · rintro (h | ⟨rfl, -⟩)
        · exact h
        · exact hmem
  case isFalse h =>
    have hvalid : ty.isInvalid = false := by simp_all
    simp [hvalid]

theorem mem_addTypes {types more : List Ty} {ty : Ty} :
    ty ∈ addTypes types more ↔ ty ∈ types ∨ ty ∈ more ∧ ty.isInvalid = false := by
  unfold addTypes
  induction more generalizing types with
  | nil => simp
  | cons first rest ih =>
      rw [List.foldl_cons, ih, mem_addType, List.mem_cons]
      constructor
      · rintro ((h | ⟨rfl, hvalid⟩) | ⟨h, hvalid⟩)
        · exact .inl h
        · exact .inr ⟨.inl rfl, hvalid⟩
        · exact .inr ⟨.inr h, hvalid⟩
      · rintro (h | ⟨rfl | h, hvalid⟩)
        · exact .inl (.inl h)
        · exact .inl (.inr ⟨rfl, hvalid⟩)
        · exact .inr ⟨h, hvalid⟩

-- Variables, parameters, fields and constants, which are values of their type wherever they stand.
def isValue (s : Symbol) : Bool := s.kind.isVariable || s.kind == .const

section Names

variable {s f : SymbolId} {callee : Tree} {index : Nat} {ty : Ty} {anchor? : Option Place}

theorem mem_paramTypes (hcallee : d.calleeSymbol? callee = some f) : ty ∈ paramTypes d callee index ↔
    (∃ g ∈ (d.model.symbol f).signatures, g.param? index = some ty) ∧ ty.isInvalid = false := by
  unfold paramTypes
  rw [hcallee]
  dsimp only
  rw [mem_addTypes, List.mem_filterMap]
  simp

theorem fits_of_isValue {m : Model} {types : List Ty} {s : Symbol} (h : isValue s = true) :
    fits m types s = types.any (m.assignable s.ty) := by
  unfold fits
  unfold isValue SymbolKind.isVariable at h
  split <;> simp_all

-- A value that can be seen is suggested if it goes where one of the types is asked for.
theorem exists_item_iff (hvalue : isValue (d.model.symbol s) = true) :
    (∃ item ∈ scopeItems d docs offset wanted, item.symbol = some s) ↔
      s ∈ d.visibleAt offset ∧ s ∉ wanted.targets ∧ isHidden (d.model.symbol s) = false ∧
        (wanted.types = [] ∨ ∃ ty ∈ wanted.types, d.model.assignable (d.model.symbol s).ty ty = true) := by
  have hmethod : (d.model.symbol s).kind ≠ .method := by
    intro h
    rw [isValue, h] at hvalue
    cases hvalue
  -- only methods are out of place inside of handlers
  have hleft (misplaced : Bool) : (wanted.targets.contains s || isHidden (d.model.symbol s) ||
      (misplaced && (d.model.symbol s).kind == .method && Text.isHandlerName (d.model.symbol s).name)) =
      true ↔ ¬(s ∉ wanted.targets ∧ isHidden (d.model.symbol s) = false) := by
    simp [hmethod, or_iff_not_imp_left]
  have hunfit : (!wanted.types.isEmpty && !fits d.model wanted.types (d.model.symbol s)) = true ↔
      ¬(wanted.types = [] ∨ ∃ ty ∈ wanted.types, d.model.assignable (d.model.symbol s).ty ty = true) := by
    simp [fits_of_isValue hvalue]
  constructor
  · rintro ⟨item, hitem, hsymbol⟩
    obtain ⟨other, hvisible, hsome⟩ := List.mem_filterMap.mp hitem
    dsimp only at hsome
    split at hsome
    case isTrue => cases hsome
    case isFalse hshown =>
      split at hsome
      case isTrue => cases hsome
      case isFalse hwanted =>
        obtain rfl := Option.some.inj hsome
        obtain rfl : other = s := Option.some.inj hsymbol
        obtain ⟨htarget, hshown⟩ := not_not.mp (mt (hleft _).mpr hshown)
        exact ⟨hvisible, htarget, hshown, not_not.mp (mt hunfit.mpr hwanted)⟩
  · rintro ⟨hvisible, htarget, hshown, hwanted⟩
    refine ⟨.ofSymbol d.model docs s, List.mem_filterMap.mpr ⟨s, hvisible, ?_⟩, rfl⟩
    dsimp only
    rw [if_neg fun h => (hleft _).mp h ⟨htarget, hshown⟩, if_neg fun h => hunfit.mp h hwanted]

-- At an argument the types of all parameters in its place are asked for.
theorem exists_argument_item_iff (hvalue : isValue (d.model.symbol s) = true)
    (hcallee : d.calleeSymbol? callee = some f) :
    (∃ item ∈ scopeItems d docs offset { types := paramTypes d callee index, anchor := anchor? },
      item.symbol = some s) ↔
      s ∈ d.visibleAt offset ∧ isHidden (d.model.symbol s) = false ∧
        ((∀ g ∈ (d.model.symbol f).signatures, ∀ ty, g.param? index = some ty → ty.isInvalid = true) ∨
          ∃ g ∈ (d.model.symbol f).signatures, ∃ ty, g.param? index = some ty ∧ ty.isInvalid = false ∧
            d.model.assignable (d.model.symbol s).ty ty = true) := by
  rw [exists_item_iff hvalue, List.eq_nil_iff_forall_not_mem]
  simp only [mem_paramTypes hcallee, List.not_mem_nil, not_false_eq_true, true_and]
  refine and_congr_right fun _ => and_congr_right fun _ => or_congr ?_ ?_
  · constructor
    · intro h g hg ty hty
      cases hvalid : ty.isInvalid with
      | true => rfl
      | false => exact absurd ⟨⟨g, hg, hty⟩, hvalid⟩ (h ty)
    · rintro h ty ⟨⟨g, hg, hty⟩, hvalid⟩
      rw [h g hg ty hty] at hvalid
      cases hvalid
  · constructor
    · rintro ⟨ty, ⟨⟨g, hg, hty⟩, hvalid⟩, hfits⟩
      exact ⟨g, hg, ty, hty, hvalid, hfits⟩
    · rintro ⟨g, hg, ty, hty, hvalid, hfits⟩
      exact ⟨ty, ⟨⟨g, hg, hty⟩, hvalid⟩, hfits⟩

-- A spread argument is passed for the whole tail, and the editor asks for one value of it.
theorem param?_spread {a : Check.Arguments} {g : Signature} {elem : Ty} (hfits : Check.countFits g a = true)
    (hspread : a.spread = true) (hlast : index + 1 = a.count)
    (htail : g.params.getLast? = some (.slice elem)) :
    a.param? g index = some (.slice elem) ∧ g.param? index = some elem := by
  unfold Check.countFits at hfits
  rw [if_pos hspread, Bool.and_eq_true_iff, beq_iff_eq] at hfits
  obtain ⟨hvariadic, hcount⟩ := hfits
  have hbehind : g.params.length ≤ index + 1 := by omega
  constructor
  · unfold Check.Arguments.param?
    rw [hspread, hlast, beq_self_eq_true, Bool.and_self, if_pos rfl, htail]
  · unfold Signature.param?
    rw [hvariadic, decide_eq_true hbehind, Bool.and_self, if_pos rfl, htail]
    rfl

-- What the check lets pass as an argument is suggested in its place, unless it is the spread one.
theorem exists_argument_item {a : Check.Arguments} {g : Signature} {arg : Tree} {o : Check.Operand}
    (hvisible : s ∈ d.visibleAt offset) (hshown : isHidden (d.model.symbol s) = false)
    (hvalue : isValue (d.model.symbol s) = true) (hcallee : d.calleeSymbol? callee = some f)
    (hg : g ∈ (d.model.symbol f).signatures) (hvalid : ∀ ty, g.param? index = some ty → ty.isInvalid = false)
    (hfits : Check.signatureFits d.model g a = true) (harg : a.all[index]? = some (arg, some o))
    (hsound : o.isInvalid = false) (hty : o.ty = (d.model.symbol s).ty)
    (hspread : a.spread = true → index + 1 ≠ a.count) :
    ∃ item ∈ scopeItems d docs offset { types := paramTypes d callee index, anchor := anchor? },
      item.symbol = some s := by
  have hmem : ((arg, some o), index) ∈ a.all.zipIdx := List.mem_zipIdx_iff_getElem?.mpr harg
  have hplain : a.param? g index = g.param? index := by
    unfold Check.Arguments.param?
    rw [if_neg (by simpa using hspread)]
  have hpassed := List.all_eq_true.mp (Bool.and_eq_true_iff.mp hfits).2 _ hmem
  obtain ⟨ty, hparam, hgoes⟩ := (Option.any_eq_true _ _).mp hpassed
  rw [hplain] at hparam
  have hassignable : d.model.assignable (d.model.symbol s).ty ty = true := by
    rw [Check.argumentFits, hsound, Bool.false_or, hty] at hgoes
    exact (Bool.and_eq_true_iff.mp hgoes).2
  exact (exists_argument_item_iff hvalue hcallee).mpr
    ⟨hvisible, hshown, .inr ⟨g, hg, ty, hparam, hvalid ty hparam, hassignable⟩⟩

end Names

end SpriteScript.Editor
