import SpriteScript.Resource.Id

-- Locators: which texts stand for a resource, and for which one. A locator is read back as the resource
-- it was written for if no name in it is empty or has a slash, and every text that is read is the
-- locator of what it is read as.
namespace SpriteScript

namespace Text

theorem splitChars_eq_splitOn (sep : Char) (cs : List Char) : splitChars sep cs = cs.splitOn sep := by
  induction cs with
  | nil => rfl
  | cons c cs ih =>
      rw [splitChars, List.splitOn_cons_eq_if_modifyHead, ih]
      by_cases hsep : c = sep
      · simp [hsep]
      · obtain ⟨part, rest, hparts⟩ := List.exists_cons_of_ne_nil (List.splitOn_ne_nil sep cs)
        simp [hsep, hparts]

theorem splitText_ne_nil (sep : Char) (text : String) : splitText sep text ≠ [] := by
  simp [splitText, splitChars_eq_splitOn]

theorem not_mem_of_mem_splitChars {sep : Char} {part cs : List Char} (h : part ∈ splitChars sep cs) :
    sep ∉ part := by
  induction cs generalizing part with
  | nil => simp_all [splitChars]
  | cons c cs ih =>
      rw [splitChars] at h
      by_cases hsep : c = sep
      · rw [if_pos hsep] at h
        cases h with
        | head => exact List.not_mem_nil
        | tail _ hrest => exact ih hrest
      · rw [if_neg hsep] at h
        cases hparts : splitChars sep cs with
        | nil =>
            rw [hparts, List.mem_singleton] at h
            rw [h, List.mem_singleton]
            exact Ne.symm hsep
        | cons first rest =>
            rw [hparts] at h ih
            cases h with
            | head =>
                intro hmem
                cases hmem with
                | head => exact hsep rfl
                | tail _ hmem => exact ih List.mem_cons_self hmem
            | tail _ hrest => exact ih (List.mem_cons_of_mem first hrest)

theorem not_mem_of_mem_splitText {sep : Char} {part text : String} (h : part ∈ splitText sep text) :
    sep ∉ part.toList := by
  obtain ⟨cs, hcs, rfl⟩ := List.mem_map.mp h
  rw [String.toList_ofList]
  exact not_mem_of_mem_splitChars hcs

-- The parts of a text give the text again when they are joined.
theorem intercalate_splitText (sep : Char) (text : String) :
    (String.singleton sep).intercalate (splitText sep text) = text := by
  apply String.toList_injective
  rw [String.toList_intercalate, splitText, List.map_map]
  simp [splitChars_eq_splitOn, Function.comp_def]

-- Texts without a separator are the parts of what they are joined to.
theorem splitText_intercalate {sep : Char} {parts : List String} (hne : parts ≠ [])
    (hsep : ∀ part ∈ parts, sep ∉ part.toList) :
    splitText sep ((String.singleton sep).intercalate parts) = parts := by
  rw [splitText, splitChars_eq_splitOn, String.toList_intercalate, String.toList_singleton,
    List.splitOn_intercalate sep (by simpa using hsep) (by simpa using hne), List.map_map]
  simp [Function.comp_def]

theorem dropStart?_eq_some_iff {start text rest : List Char} :
    dropStart? start text = some rest ↔ text = start ++ rest := by
  induction start generalizing text with
  | nil => simp [dropStart?]
  | cons s start ih =>
      cases text with
      | nil => simp [dropStart?]
      | cons c text =>
          by_cases hc : s = c
          · simp [dropStart?, hc, ih]
          · simp [dropStart?, hc, Ne.symm hc]

theorem dropTextStart?_eq_some_iff {start text rest : String} :
    dropTextStart? start text = some rest ↔ text = start ++ rest := by
  rw [dropTextStart?, Option.map_eq_some_iff]
  simp only [dropStart?_eq_some_iff]
  constructor
  · rintro ⟨cs, htext, rfl⟩
    apply String.toList_injective
    simp [htext]
  · rintro rfl
    exact ⟨rest.toList, by simp, by simp⟩

theorem dropTextStart?_eq_none_iff {start text : String} :
    dropTextStart? start text = none ↔ ¬start.toList <+: text.toList := by
  rw [dropTextStart?, Option.map_eq_none_iff, Option.eq_none_iff_forall_ne_some]
  simp only [ne_eq, dropStart?_eq_some_iff, List.IsPrefix, not_exists]
  exact forall_congr' fun rest => not_congr eq_comm

end Text

namespace ResourceId

variable {text name : String} {id : ResourceId} {components : List String} {e : LocatorError}

-- What may stand between two slashes of a locator.
def IsComponent (s : String) : Prop := s ≠ "" ∧ '/' ∉ s.toList

instance (s : String) : Decidable (IsComponent s) := inferInstanceAs (Decidable (_ ∧ _))

-- The text is the scheme with the components behind it, one slash between each two.
structure Splits (text : String) (components : List String) : Prop where
  joined : text = scheme ++ "/".intercalate components
  nonempty : components ≠ []
  noSlash : ∀ c ∈ components, '/' ∉ c.toList

-- The components that a locator may have.
inductive WellShaped : List String → Prop where
  | topLevel {folder name : String} : folder ∈ kindFolders → WellShaped [folder, name]
  | ofSprite {owner folder name : String} : folder ∈ ["costumes", "animations"] →
      WellShaped ["sprites", owner, folder, name]

-- One of the components is empty, or the first one names a kind and the others do not go with it.
def Malformed (components : List String) : Prop :=
  "" ∈ components ∨ (∃ folder ∈ components.head?, folder ∈ kindFolders) ∧ ¬WellShaped components

-- Why a text is refused.
inductive Refused (text : String) : LocatorError → Prop where
  | scheme : ¬scheme.toList <+: text.toList → Refused text (.scheme text)
  | malformed {components : List String} : Splits text components → Malformed components →
      Refused text (.malformed text)
  | unknownKind {components : List String} : Splits text components → ¬Malformed components →
      ¬WellShaped components → Refused text (.unknownKind text)

-- The names in the locator of the resource are components.
def IsNamed (id : ResourceId) : Prop := IsComponent id.name ∧ ∀ owner ∈ id.sprite?, IsComponent owner

-- The resource for which a locator is written, given the kind, the sprite and the name one by one. A
-- sprite that is missing counts as an empty name, and one that the kind has no use for is left out.
def ofFields (kind : ResourceKind) (owner? : Option String) (name : String) : ResourceId :=
  match kind with
  | .backdrop => backdrop name
  | .sound => sound name
  | .sprite => sprite name
  | .spriteCostume => costume (owner?.getD "") name
  | .spriteAnimation => animation (owner?.getD "") name
  | .widget => widget name

theorem ofParts?_eq_some_iff : ofParts? components = some id ↔ id.parts = components := by
  constructor
  · intro h
    unfold ofParts? at h
    split at h <;> cases h <;> rfl
  · rintro rfl
    cases id <;> rfl

theorem wellShaped_iff : WellShaped components ↔ ∃ id : ResourceId, id.parts = components := by
  constructor
  · intro h
    cases h with
    | @topLevel folder name hfolder =>
        simp only [kindFolders, List.mem_cons, List.not_mem_nil, or_false] at hfolder
        rcases hfolder with rfl | rfl | rfl | rfl
        · exact ⟨backdrop name, rfl⟩
        · exact ⟨sound name, rfl⟩
        · exact ⟨sprite name, rfl⟩
        · exact ⟨widget name, rfl⟩
    | @ofSprite owner folder name hfolder =>
        simp only [List.mem_cons, List.not_mem_nil, or_false] at hfolder
        rcases hfolder with rfl | rfl
        · exact ⟨costume owner name, rfl⟩
        · exact ⟨animation owner name, rfl⟩
  · rintro ⟨id, rfl⟩
    cases id with
    | costume owner name => exact .ofSprite (by simp)
    | animation owner name => exact .ofSprite (by simp)
    | _ => exact .topLevel (by simp [kindFolders])

theorem ofParts?_eq_none_iff : ofParts? components = none ↔ ¬WellShaped components := by
  simp only [wellShaped_iff, ← ofParts?_eq_some_iff, Option.eq_none_iff_forall_ne_some, not_exists, ne_eq]

-- The components of a text are the parts of what follows the scheme.
theorem splits_iff : Splits text components ↔
    ∃ rest, Text.dropTextStart? scheme text = some rest ∧ Text.splitText '/' rest = components := by
  simp only [Text.dropTextStart?_eq_some_iff]
  constructor
  · intro h
    exact ⟨_, h.joined, Text.splitText_intercalate h.nonempty h.noSlash⟩
  · rintro ⟨rest, rfl, rfl⟩
    exact ⟨congrArg (scheme ++ ·) (Text.intercalate_splitText '/' rest).symm, Text.splitText_ne_nil '/' rest,
      fun c hc => Text.not_mem_of_mem_splitText hc⟩

theorem parse_eq_of_splits (h : Splits text components) :
    parse text = if components.any String.isEmpty then .error (.malformed text)
      else match ofParts? components with
        | some id => .ok id
        | none => if components.head?.any kindFolders.contains then .error (.malformed text)
            else .error (.unknownKind text) := by
  obtain ⟨rest, hrest, rfl⟩ := splits_iff.mp h
  unfold parse
  split
  case h_1 hnone => exact absurd (hrest.symm.trans hnone) (Option.some_ne_none rest)
  case h_2 other hother =>
    obtain rfl : rest = other := Option.some.inj (hrest.symm.trans hother)
    rfl

theorem any_isEmpty_iff : components.any String.isEmpty = true ↔ "" ∈ components := by
  simp

theorem head?_any_iff : components.head?.any kindFolders.contains = true ↔
    ∃ folder ∈ components.head?, folder ∈ kindFolders := by
  simp [Option.any_eq_true]

theorem parts_ne_nil (id : ResourceId) : id.parts ≠ [] := by
  cases id <;> simp [parts]

-- What else there is in a locator are the names of folders.
theorem forall_parts_iff (id : ResourceId) : (∀ c ∈ id.parts, IsComponent c) ↔ id.IsNamed := by
  have hfolder : ∀ c ∈ kindFolders ++ ["costumes", "animations"], IsComponent c := by decide
  cases id <;> simp_all [parts, IsNamed, ResourceId.name, sprite?, kindFolders, and_comm]

theorem IsNamed.splits (h : id.IsNamed) : Splits id.locator id.parts :=
  ⟨rfl, id.parts_ne_nil, fun c hc => ((forall_parts_iff id).mpr h c hc).2⟩

theorem exists_splits_or (text : String) :
    (∃ components, Splits text components) ∨ ¬scheme.toList <+: text.toList := by
  rw [← Text.dropTextStart?_eq_none_iff]
  cases hrest : Text.dropTextStart? scheme text with
  | none => exact .inr rfl
  | some rest => exact .inl ⟨_, splits_iff.mpr ⟨rest, hrest, rfl⟩⟩

theorem parse_without_scheme (h : ¬scheme.toList <+: text.toList) : parse text = .error (.scheme text) := by
  unfold parse
  rw [Text.dropTextStart?_eq_none_iff.mpr h]

-- A text is read as a resource if it is the locator of it and all names in it are components.
theorem parse_eq_ok_iff : parse text = .ok id ↔ id.locator = text ∧ id.IsNamed := by
  constructor
  · intro h
    rcases exists_splits_or text with ⟨components, hsplits⟩ | hnone
    · rw [parse_eq_of_splits hsplits] at h
      split at h
      · cases h
      case isFalse hempty =>
        split at h
        case h_1 found hfound =>
          cases h
          obtain rfl := ofParts?_eq_some_iff.mp hfound
          refine ⟨hsplits.joined.symm, (forall_parts_iff id).mp fun c hc => ⟨?_, hsplits.noSlash c hc⟩⟩
          rintro rfl
          exact hempty (any_isEmpty_iff.mpr hc)
        case h_2 => split at h <;> cases h
    · rw [parse_without_scheme hnone] at h
      cases h
  · rintro ⟨rfl, hnamed⟩
    have hempty : ¬id.parts.any String.isEmpty = true := by
      rw [any_isEmpty_iff]
      exact fun hc => ((forall_parts_iff id).mpr hnamed "" hc).1 rfl
    rw [parse_eq_of_splits hnamed.splits, if_neg hempty, ofParts?_eq_some_iff.mpr rfl]

theorem parse_eq_error_iff : parse text = .error e ↔ Refused text e := by
  constructor
  · intro h
    rcases exists_splits_or text with ⟨components, hsplits⟩ | hnone
    · rw [parse_eq_of_splits hsplits] at h
      split at h
      case isTrue hempty =>
        cases h
        exact .malformed hsplits (.inl (any_isEmpty_iff.mp hempty))
      case isFalse hempty =>
        split at h
        · cases h
        case h_2 hparts =>
          have hshape := ofParts?_eq_none_iff.mp hparts
          split at h
          case isTrue hfolder =>
            cases h
            exact .malformed hsplits (.inr ⟨head?_any_iff.mp hfolder, hshape⟩)
          case isFalse hfolder =>
            cases h
            refine .unknownKind hsplits ?_ hshape
            rintro (hmem | ⟨hknown, -⟩)
            · exact hempty (any_isEmpty_iff.mpr hmem)
            · exact hfolder (head?_any_iff.mpr hknown)
    · rw [parse_without_scheme hnone] at h
      cases h
      exact .scheme hnone
  · intro h
    cases h with
    | scheme hnone => exact parse_without_scheme hnone
    | @malformed components hsplits hbad =>
        rw [parse_eq_of_splits hsplits]
        by_cases hempty : components.any String.isEmpty = true
        · rw [if_pos hempty]
        · rcases hbad with hmem | ⟨hknown, hshape⟩
          · exact absurd (any_isEmpty_iff.mpr hmem) hempty
          · rw [if_neg hempty, ofParts?_eq_none_iff.mpr hshape]
            exact if_pos (head?_any_iff.mpr hknown)
    | @unknownKind components hsplits hgood hshape =>
        have hempty : ¬components.any String.isEmpty = true := fun h => hgood (.inl (any_isEmpty_iff.mp h))
        have hknown : ¬components.head?.any kindFolders.contains = true :=
          fun h => hgood (.inr ⟨head?_any_iff.mp h, hshape⟩)
        rw [parse_eq_of_splits hsplits, if_neg hempty, ofParts?_eq_none_iff.mpr hshape]
        exact if_neg hknown

theorem kind_ofFields (kind : ResourceKind) (owner? : Option String) (name : String) :
    (ofFields kind owner? name).kind = kind := by
  cases kind <;> rfl

theorem name_ofFields (kind : ResourceKind) (owner? : Option String) (name : String) :
    (ofFields kind owner? name).name = name := by
  cases kind <;> rfl

theorem sprite?_ofFields (kind : ResourceKind) (owner? : Option String) (name : String) :
    (ofFields kind owner? name).sprite? = if kind.isSpriteScoped then some (owner?.getD "") else none := by
  cases kind <;> rfl

theorem isSome_sprite? (id : ResourceId) : id.sprite?.isSome = id.kind.isSpriteScoped := by
  cases id <;> rfl

-- The locator written for a kind, a sprite and a name is read back as these three if the names in it
-- are components and the sprite is there just where the kind has a use for it. What is read is the
-- locator of the resource, and what is not read is refused for the first reason there is.
theorem locators_read_back :
    (∀ kind owner? name,
      (∃ id, parse (ofFields kind owner? name).locator = .ok id ∧
        id.kind = kind ∧ id.sprite? = owner? ∧ id.name = name) ↔
      IsComponent name ∧
        if kind.isSpriteScoped then ∃ owner, owner? = some owner ∧ IsComponent owner else owner? = none) ∧
    (∀ text id, parse text = .ok id ↔ id.locator = text ∧ id.IsNamed) ∧
    ∀ text e, parse text = .error e ↔ Refused text e := by
  refine ⟨fun kind owner? name => ⟨?_, ?_⟩, fun _ _ => parse_eq_ok_iff, fun _ _ => parse_eq_error_iff⟩
  · rintro ⟨id, hparse, rfl, rfl, rfl⟩
    obtain ⟨-, hname, howner⟩ := parse_eq_ok_iff.mp hparse
    refine ⟨hname, ?_⟩
    rw [← isSome_sprite?]
    cases hsprite : id.sprite? with
    | none => rfl
    | some owner => exact ⟨owner, rfl, howner owner hsprite⟩
  · rintro ⟨hname, howner⟩
    have hsprite : (ofFields kind owner? name).sprite? = owner? ∧ ∀ owner ∈ owner?, IsComponent owner := by
      rw [sprite?_ofFields]
      by_cases hscoped : kind.isSpriteScoped
      · rw [if_pos hscoped] at howner ⊢
        obtain ⟨owner, rfl, hcomponent⟩ := howner
        exact ⟨rfl, fun other hother => Option.some.inj hother ▸ hcomponent⟩
      · rw [if_neg hscoped] at howner ⊢
        exact ⟨howner.symm, by simp [howner]⟩
    refine ⟨ofFields kind owner? name, parse_eq_ok_iff.mpr ⟨rfl, ?_, ?_⟩, kind_ofFields .., hsprite.1,
      name_ofFields ..⟩
    · rwa [name_ofFields]
    · rw [hsprite.1]
      exact hsprite.2

-- A sprite with slashes in its name has the locator of a costume.
example : (parse (sprite "Fido/costumes/jump").locator).toOption = some (costume "Fido" "jump") := by decide

end ResourceId

end SpriteScript
