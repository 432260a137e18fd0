import Mathlib
import SpriteScript.Proofs.Program.Fields

-- What stands where a program refers to a resource: a token of the file that gives its name.
namespace SpriteScript

theorem ResourceId.name_of_ofSprite? {kind : ResourceKind} {owner name : String} {id : ResourceId}
    (h : ResourceId.ofSprite? kind owner name = some id) : id.name = name := by
  cases kind <;> cases h <;> rfl

-- The symbols of the bundled packages are not declared in a file of a program.
theorem Check.isBundled_of_prelude {o : Origin} {site : DefSite} (ho : o ∈ Check.prelude.model.origins)
    (hsite : o.definedAt = some site) : site.file.isBundled = true := by
  rcases ((Check.tables_bundled rfl).model.origins o ho).known site hsite with hbundled | htext
  · exact hbundled
  · cases hfile : site.file with
    | bundled => rfl
    | source =>
        rw [hfile] at htext
        cases htext

namespace Resource.World

variable {w : World} {file : FileId} {place : Place} {id : ResourceId} {how : RefKind} {kind : ResourceKind}
variable {name : String}

theorem name_of_idAt? (h : w.idAt? file place kind name = some id) : id.name = name := by
  unfold idAt? at h
  split at h
  · obtain ⟨owner, -, h⟩ := Option.bind_eq_some_iff.mp h
    exact ResourceId.name_of_ofSprite? h
  · exact (ResourceId.kind_of_topLevel? h).2

-- A plain text names no resource.
theorem ne_string_of_resourceNameKind? {m : Model} {ty : Ty} (h : m.resourceNameKind? ty = some kind) :
    ty ≠ .basic .string := by
  rintro rfl
  cases h

-- A place that names a resource holds a text that reads as a name, or the name of a constant.
theorem token_of_nameAt? {t : Tree} {value : Option Constant} (h : w.nameAt? file t value = some (name, how))
    (hname : name ≠ "") :
    (t.kind? = some .literal ∧ how = .stringLiteral ∧ ∃ s ∈ t.childTokens,
      Syntax.unquote? s.text = some name) ∨
      t.kind? = some .nameRef ∧ how = .constantReference ∧ value = some (.string name) ∧ ∃ ident x,
        t.ident? = some ident ∧ w.info.useAt? file (Check.rangeOf ident) = some x ∧
        (w.model.symbol x).kind = .const := by
  unfold nameAt? at h
  split at h
  case h_1 hkind =>
    split at h
    case isFalse => cases h
    case isTrue =>
      cases h
      cases hvalue : t.stringValue? with
      | none => simp [hvalue] at hname
      | some text =>
          obtain ⟨s, hs, htext⟩ := Option.bind_eq_some_iff.mp hvalue
          refine .inl ⟨hkind, rfl, s, List.mem_of_find?_eq_some hs, ?_⟩
          split at htext
          · exact htext
          · exact htext
          · cases htext
  case h_2 hkind =>
    dsimp only at h
    split at h
    case isFalse => cases h
    case isTrue hconst =>
      obtain ⟨text, htext, heq⟩ := Option.map_eq_some_iff.mp h
      cases heq
      obtain ⟨x, hx, hconst⟩ := (Option.any_eq_true _ _).mp hconst
      obtain ⟨ident, hident, huse⟩ := Option.bind_eq_some_iff.mp hx
      obtain ⟨c, rfl, hc⟩ := Option.bind_eq_some_iff.mp htext
      have hc : c = .string name := by
        cases c <;> cases hc
        rfl
      exact .inr ⟨hkind, rfl, congrArg some hc, ident, x, hident, huse, beq_iff_eq.mp hconst⟩
  case h_3 => cases h

end Resource.World

namespace Program

variable {config : Config} {assets : AssetReader} {inputs : List (String × String)} {p : Program}
variable {f : SourceFile} {index : Nat} {ident : Token} {x : SymbolId} {id : ResourceId} {how : RefKind}
variable {place : Place} {file : FileId} {range : Text.ByteRange}

-- How a token gives the name of the resource that is referred to at its place.
inductive IsNamedBy (p : Program) (r : ResourceRef) (s : Token) : Prop
  | text (kind : r.kind = .stringLiteral) (value : Syntax.unquote? s.text = some r.id.name)
  | constant (x : SymbolId) (kind : r.kind = .constantReference) (use : p.info.useAt? r.file r.range = some x)
      (const : (p.model.symbol x).kind = .const) (value : (p.model.symbol x).value = some (.string r.id.name))
  | variable (kind : r.kind = .autoBinding ∨ r.kind = .autoBindingReference) (word : s.text = r.id.name)

-- There is the resource, and its name is given by a token of the file.
structure Refers (p : Program) (r : ResourceRef) : Prop where
  contained : p.catalog.contains r.id = true
  token : ∃ f s, p.file? r.file = some f ∧ s ∈ Token.tokenize f.text ∧ Check.rangeOf s = r.range ∧
    r.range.Spells f.text s.text ∧ p.IsNamedBy r s

section Tokens

variable (h : p.Compiled assets inputs)

include h

theorem Compiled.refers_of_token {r : ResourceRef} {s : Token} (hf : f ∈ p.files.toList)
    (hfile : f.file = r.file) (hs : s ∈ Token.tokenize f.text) (hrange : Check.rangeOf s = r.range)
    (hfound : p.catalog.contains r.id = true) (hnamed : p.IsNamedBy r s) : p.Refers r :=
  ⟨hfound, f, s, hfile ▸ h.file?_eq hf, hs, hrange, hrange ▸ Token.spells_of_mem_tokenize hs, hnamed⟩

-- A variable of the program is used in the files of the program only, where its name stands.
theorem Compiled.token_of_site (hf : f ∈ p.files.toList)
    (hplace : (p.model.symbol x).definedAt = some ⟨f.file, range⟩) {site : FileId × Text.ByteRange}
    (hsite : site ∈ p.info.sitesOf x) :
      ∃ g ∈ p.files.toList, g.file = site.1 ∧
      ∃ s ∈ Token.tokenize g.text, Check.rangeOf s = site.2 ∧ s.text = (p.model.symbol x).name := by
  have hused := h.info.sites x site hsite
  cases hfile : site.1 with
  | source index =>
      obtain ⟨s, hs, hrange, hname⟩ := hused.source (.inl (by rw [hfile]; rfl))
      obtain ⟨o, ho, hname⟩ := hname.exists_origin
      obtain ⟨text, htext, hmem⟩ := hs.exists_text
      obtain ⟨g, hg, hgfile, rfl⟩ := h.exists_file htext
      have hsymbol := congrArg Origin.name (Model.symbol_of_origins ho)
      exact ⟨g, hg, hgfile.trans hfile, s, hmem, hrange, (hsymbol.trans hname).symm⟩
  | bundled index =>
      have hlt : x.index < Check.preludeCount := hused.bundled (by rw [hfile]; rfl)
      unfold Check.preludeCount at hlt
      have horigin := List.prefix_iff_getElem?.mp h.bundled _ hlt
      have hsymbol := congrArg Origin.definedAt (Model.symbol_of_origins horigin)
      have hbundled := Check.isBundled_of_prelude (List.getElem_mem hlt) (hsymbol.symm.trans hplace)
      rw [h.isBundled_eq hf] at hbundled
      cases hbundled

theorem Compiled.refers_of_field (hfield : p.Field f index ident x id)
    (hfound : p.catalog.contains id = true) :
    p.Refers ⟨id, .autoBinding, f.file, Check.rangeOf ident⟩ := by
  have hname := (h.symbol_of_ident hfield.file hfield.mem_varIdents hfield.declares).1
  refine h.refers_of_token hfield.file rfl (h.mem_tokenize hfield.file hfield.mem_varIdents) rfl hfound ?_
  exact .variable (.inl rfl) (hname.symm.trans hfield.resource.name_eq.symm)

theorem Compiled.refers_of_site (hfield : p.Field f index ident x id) (hfound : p.catalog.contains id = true)
    {site : FileId × Text.ByteRange} (hsite : site ∈ p.info.sitesOf x) :
    p.Refers ⟨id, .autoBindingReference, site.1, site.2⟩ := by
  have hplace := (h.symbol_of_ident hfield.file hfield.mem_varIdents hfield.declares).2
  obtain ⟨g, hg, hfile, s, hs, hrange, hname⟩ := h.token_of_site hfield.file hplace hsite
  exact h.refers_of_token hg hfile hs hrange hfound
    (.variable (.inr rfl) (hname.trans hfield.resource.name_eq.symm))

-- What is known of a name with a text for its value is that it means a constant.
theorem Compiled.value_of_use {t : Tree} {tv : TypeAndValue} {kind : ResourceKind} {name : String}
    (htype : p.info.type? f.file t = some tv) (hkind : p.model.resourceNameKind? tv.ty = some kind)
    (hnode : t.kind? = some .nameRef) (hvalue : tv.value = some (.string name))
    (huse : p.info.useAt? f.file t.range = some x) : (p.model.symbol x).value = some (.string name) := by
  obtain ⟨key, hkey, htype⟩ := Option.bind_eq_some_iff.mp htype
  rw [Info.key?, hnode, Option.map_some, Option.some.injEq] at hkey
  subst hkey
  obtain ⟨x', hx', hvalue⟩ :=
    h.named _ _ _ htype rfl hvalue (Resource.World.ne_string_of_resourceNameKind? hkind)
  rw [show x = x' from Option.some.inj (huse.symm.trans hx')]
  exact hvalue

theorem Compiled.refers_of_place (hf : f ∈ p.files.toList) (hplace : place ∈ f.tree.places)
    (hnamed : p.world.named? f.file place = some (id, how)) (hcomplaint : p.world.complaint? id = none) :
    p.Refers ⟨id, how, f.file, place.tree.range⟩ := by
  obtain ⟨hname, hfound⟩ := Resource.World.complaint?_eq_none.mp hcomplaint
  obtain ⟨tv, kind, name, htype, hkind, hgiven, hid⟩ := Resource.World.named?_eq_some.mp hnamed
  obtain rfl := Resource.World.name_of_idAt? hid
  have htidy : place.tree.Tidy := by
    rw [h.tree f hf] at hplace
    exact Syntax.tidy_place hplace
  -- The name or the literal at the place is a token with its range.
  have hrefers (node : NodeKind) (hnode : place.tree.kind? = some node) (hatom : node.isAtom = true)
      (s : Token) (hs : s ∈ place.tree.childTokens) (hread : place.tree.range = Check.rangeOf s →
        p.IsNamedBy ⟨id, how, f.file, place.tree.range⟩ s) :
        p.Refers ⟨id, how, f.file, place.tree.range⟩ := by
    have hs : place.atom? = some s := Tree.atom?_of_mem_childTokens htidy hnode hatom hs
    have hrange := h.range_eq hf hplace hs
    have hmem := h.mem_tokens_of_atom? hf hplace hs
    rw [h.tree f hf, Syntax.tokens_parse] at hmem
    exact h.refers_of_token hf rfl hmem hrange.symm hfound (hread hrange)
  obtain ⟨hnode, hhow, s, hs, hread⟩ | ⟨hnode, hhow, hvalue, ident, x, hident, huse, hconst⟩ :=
    Resource.World.token_of_nameAt? hgiven hname
  · exact hrefers _ hnode rfl s hs fun _ => .text hhow hread
  · refine hrefers _ hnode rfl ident (List.mem_of_find?_eq_some hident) fun hrange => ?_
    have huse : p.info.useAt? f.file place.tree.range = some x := hrange ▸ huse
    exact .constant x hhow huse hconst (h.value_of_use htype hkind hnode hvalue huse)

theorem Compiled.refers_of_mem_steps {r : ResourceRef} (hr : .ref r ∈ p.world.steps p.files.toList) :
    p.Refers r := by
  obtain ⟨f, index, ident, x, id, hfield, hstep⟩ | ⟨f, hf, -, place, hplace, id, how, hnamed, hstep⟩ :=
    mem_steps.mp hr
  · obtain ⟨-, -, hstep⟩ | ⟨-, hstep⟩ := hstep
    · obtain ⟨q, -, hstep⟩ | ⟨hcomplaint, hstep⟩ := Resource.World.mem_bindSteps.mp hstep
      · cases hstep
      · have hfound := (Resource.World.complaint?_eq_none.mp hcomplaint).2
        rcases hstep with hstep | ⟨site, hsite, hstep⟩ | hstep <;> cases hstep
        · exact h.refers_of_field hfield hfound
        · exact h.refers_of_site hfield hfound hsite
    · cases hstep
  · obtain ⟨q, -, hstep⟩ | ⟨hcomplaint, hstep⟩ := Resource.World.mem_nameSteps.mp hstep
    · cases hstep
    · cases List.mem_singleton.mp hstep
      exact h.refers_of_place hf hplace hnamed hcomplaint

end Tokens

-- Each reference of a program is to a resource that there is, at a token that gives its name. None
-- of them is listed twice.
theorem references_named (h : compile config assets inputs false = .ok p) :
    (∀ r ∈ p.resources.refs.toList, p.Refers r) ∧ p.resources.refs.toList.Nodup := by
  have hcompiled := compiled_of_compile h
  obtain ⟨-, s, hs⟩ | ⟨-, hnone, -⟩ := hcompiled.search
  · exact ⟨fun r hr => hcompiled.refers_of_mem_steps (hs.mem_refs.mp hr), hs.nodup_refs⟩
  · rw [hnone]
    exact ⟨fun r hr => (by cases hr), List.nodup_nil⟩

-- A sound that is bound to a variable, and named by a constant and by a text.
theorem references_named_sounds : ∃ p, compile {} (.ofFiles [("assets/sounds/hop/a.wav", "")])
    [("main.spx", "var hop Sound\nconst name = \"hop\"\nplay hop\nplay name\nplay \"hop\"")] false = .ok p ∧
      (∀ r ∈ p.resources.refs.toList, p.Refers r) ∧ p.resources.refs.toList.Nodup := by
  have hspread : Parsed.NoEmptySpread
      [("main.spx", "var hop Sound\nconst name = \"hop\"\nplay hop\nplay name\nplay \"hop\"")] :=
    Parsed.noEmptySpread_of_tokenize (by cbv)
  obtain ⟨p, hp, -⟩ := compile_ok {} (.ofFiles [("assets/sounds/hop/a.wav", "")]) hspread
  exact ⟨p, hp, references_named hp⟩

end Program

end SpriteScript
