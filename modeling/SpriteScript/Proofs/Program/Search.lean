import SpriteScript.Proofs.Program.Compile
import SpriteScript.Proofs.Resource.Messages
import SpriteScript.Proofs.Resource.Steps

-- What the search for the resources of a program leaves behind, at each place of its files.
namespace SpriteScript

theorem Problem.isOfResource_of_isOfName {p : Problem} (h : p.isOfName = true) : p.isOfResource = true := by
  cases p <;> first | rfl | cases h

namespace Resource.World

variable {w : World} {file : FileId} {place : Place} {id : ResourceId} {how : RefKind} {d : Diagnostic}
variable {files : List SourceFile} {p : Problem}

theorem isOfName_of_complaint? (h : w.complaint? id = some p) : p.isOfName = true := by
  unfold complaint? at h
  split at h
  · cases h
    rfl
  · split at h
    · cases h
      rfl
    · cases h

-- What the search reports: names that are wrong, and fields at a wrong place.
theorem problem_of_mem_steps (h : .report d ∈ w.steps files) :
    ∃ p file range, d = Problem.diagnostic p file range ∧
    (p.isOfName = true ∨ ∃ kind name, p = .misplacedField kind name w.entryName) := by
  obtain ⟨f, -, -, hstep | hstep⟩ := mem_steps.mp h
  · obtain ⟨index, decl, -, ident, -, hstep⟩ := mem_fieldStepsOf.mp hstep
    obtain ⟨x, kind, -, ⟨-, id, -, hstep⟩ | ⟨-, hstep⟩⟩ := mem_fieldSteps.mp hstep
    · obtain ⟨p, hp, hstep⟩ | ⟨-, hstep | ⟨site, -, hstep⟩ | hstep⟩ := mem_bindSteps.mp hstep
      · cases hstep
        exact ⟨p, _, _, rfl, .inl (isOfName_of_complaint? hp)⟩
      all_goals cases hstep
    · cases hstep
      exact ⟨_, _, _, rfl, .inr ⟨kind, _, rfl⟩⟩
  · obtain ⟨place, -, hstep⟩ := mem_exprStepsOf.mp hstep
    obtain ⟨id, how, -, hstep⟩ := mem_exprSteps.mp hstep
    obtain ⟨p, hp, hstep⟩ | ⟨-, hstep⟩ := mem_nameSteps.mp hstep
    · cases hstep
      exact ⟨p, _, _, rfl, .inl (isOfName_of_complaint? hp)⟩
    · cases List.mem_singleton.mp hstep

-- A place that names a resource holds a text or the name of a constant.
theorem kind?_of_nameAt? {t : Tree} {value : Option Constant} {name : String}
    (h : w.nameAt? file t value = some (name, how)) :
    t.kind? = some .literal ∧ t.childTokens ≠ [] ∧ how = .stringLiteral ∨
      t.kind? = some .nameRef ∧ t.childTokens ≠ [] ∧ how = .constantReference := by
  unfold nameAt? at h
  split at h
  case h_1 hkind =>
    split at h
    case isTrue hliteral =>
      cases h
      refine .inl ⟨hkind, fun hnone => ?_, rfl⟩
      simp [Tree.literalKind?, Tree.literalToken?, hnone] at hliteral
    case isFalse => cases h
  case h_2 hkind =>
    dsimp only at h
    split at h
    case isTrue hconst =>
      obtain ⟨name', -, heq⟩ := Option.map_eq_some_iff.mp h
      cases heq
      refine .inr ⟨hkind, fun hnone => ?_, rfl⟩
      simp [Tree.ident?, Tree.tokenOf?, hnone] at hconst
    case isFalse => cases h
  case h_3 => cases h

theorem named?_eq_some : w.named? file place = some (id, how) ↔ ∃ tv kind name,
    w.info.type? file place.tree = some tv ∧ w.model.resourceNameKind? tv.ty = some kind ∧
      w.nameAt? file place.tree tv.value = some (name, how) ∧ w.idAt? file place kind name = some id := by
  constructor
  · intro h
    obtain ⟨tv, htype, h⟩ := Option.bind_eq_some_iff.mp h
    obtain ⟨kind, hkind, h⟩ := Option.bind_eq_some_iff.mp h
    obtain ⟨⟨name, how'⟩, hname, h⟩ := Option.bind_eq_some_iff.mp h
    obtain ⟨id', hid, h⟩ := Option.bind_eq_some_iff.mp h
    cases h
    exact ⟨tv, kind, name, htype, hkind, hname, hid⟩
  · rintro ⟨tv, kind, name, htype, hkind, hname, hid⟩
    refine Option.bind_eq_some_iff.mpr ⟨tv, htype, Option.bind_eq_some_iff.mpr ⟨kind, hkind, ?_⟩⟩
    exact Option.bind_eq_some_iff.mpr ⟨_, hname, Option.bind_eq_some_iff.mpr ⟨_, hid, rfl⟩⟩

theorem atom?_of_named? (h : w.named? file place = some (id, how)) :
    (∃ s, place.atom? = some s) ∧ place.tree.kind? ≠ some .name := by
  obtain ⟨tv, kind, name, -, -, hname, -⟩ := named?_eq_some.mp h
  have hatom (kind : NodeKind) (hkind : place.tree.kind? = some kind) (hne : place.tree.childTokens ≠ [])
      (hatom : kind.isAtom = true) : ∃ s, place.atom? = some s := by
    obtain ⟨s, rest, hs⟩ := List.exists_cons_of_ne_nil hne
    exact ⟨s, by simp [Place.atom?, hkind, hatom, hs]⟩
  rcases kind?_of_nameAt? hname with ⟨hkind, hne, -⟩ | ⟨hkind, hne, -⟩
  · exact ⟨hatom _ hkind hne rfl, by simp [hkind]⟩
  · exact ⟨hatom _ hkind hne rfl, by simp [hkind]⟩

end Resource.World

namespace Tree

variable {t root : Tree} {s : Token}

-- A name that is declared at the top stands at a place of its own.
theorem exists_place_of_mem_varIdents (htidy : root.Tidy) (h : s ∈ root.varIdents) :
    ∃ q ∈ root.places, q.atom? = some s ∧ q.tree.kind? = some .name := by
  obtain ⟨decl, hdecl, h⟩ := List.mem_flatMap.mp h
  obtain ⟨spec, hspec, name, hname, h⟩ := mem_declaredIdents.mp h
  have hkind := kind?_of_mem_childrenOf hname
  have hnode {c t : Tree} {p : NodeKind → Bool} (hc : c ∈ t.childrenWith p) : c.isNode = true := by
    obtain ⟨k, hk, -⟩ := (Option.any_eq_true _ _).mp (List.mem_filter.mp hc).2
    simp [isNode, hk]
  have hdecl' := mem_children_of_mem_childrenWith hdecl
  have hspec' := mem_children_of_mem_childrenWith hspec
  have hname' := mem_children_of_mem_childrenWith hname
  have hroot : root.isNode = true := by
    cases root with
    | token => cases hdecl'
    | node => rfl
  have hplace : ⟨name, [spec, decl, root]⟩ ∈ root.places :=
    nodesWithin_child hname' (hnode hname) _ _ (nodesWithin_child hspec' (hnode hspec) _ _
      (nodesWithin_child hdecl' (hnode hdecl) _ _ (mem_nodesWithin_self hroot)))
  exact ⟨_, hplace, atom?_of_ident? (((htidy.child hdecl').child hspec').child hname') hkind rfl h, hkind⟩

end Tree

namespace Program

variable {assets : AssetReader} {inputs : List (String × String)} {p : Program} {s : Resource.State}
variable {f f' : SourceFile} {place place' : Place} {ident : Token}

namespace Compiled

variable (h : p.Compiled assets inputs)

include h

theorem file_unique (hf : f ∈ p.files.toList) (hf' : f' ∈ p.files.toList) (heq : f.file = f'.file) :
    f = f' := by
  have hfound := h.file?_eq hf
  rw [heq, h.file?_eq hf'] at hfound
  exact (Option.some.inj hfound).symm

theorem range_eq (hf : f ∈ p.files.toList) (hplace : place ∈ f.tree.places) {s : Token}
    (hs : place.atom? = some s) : place.tree.range = Check.rangeOf s := by
  rw [h.tree f hf] at hplace
  exact Place.range_of_atom (Syntax.liesIn_place hplace) (Syntax.tidy_place hplace) hs

-- No token is empty.
theorem rangeOf_ne_empty (hf : f ∈ p.files.toList) {s : Token} (hs : s ∈ f.tree.tokens) {offset : Nat} :
    Check.rangeOf s ≠ .empty offset := by
  intro hrange
  rw [h.tree f hf, Syntax.tokens_parse] at hs
  have hstart : s.offset = offset := congrArg Text.ByteRange.start hrange
  have hstop : s.offset + s.text.utf8ByteSize = offset := congrArg Text.ByteRange.stop hrange
  have hempty : s.text.utf8ByteSize = 0 := by omega
  exact Check.text_ne_empty hs (String.utf8ByteSize_eq_zero_iff.mp hempty)

theorem mem_tokens_of_atom? (hf : f ∈ p.files.toList) (hplace : place ∈ f.tree.places) {s : Token}
    (hs : place.atom? = some s) : s ∈ f.tree.tokens := by
  have htidy : f.tree.Tidy := h.tree f hf ▸ Syntax.tidy_parse f.text
  exact (f.tree.atoms_sublist htidy []).subset (List.mem_filterMap.mpr ⟨place, hplace, hs⟩)

theorem place_unique (hf : f ∈ p.files.toList) (hplace : place ∈ f.tree.places)
    (hplace' : place' ∈ f.tree.places) {s s' : Token} (hs : place.atom? = some s)
    (hs' : place'.atom? = some s') (hrange : place.tree.range = place'.tree.range) :
    place = place' := by
  rw [h.range_eq hf hplace hs, h.range_eq hf hplace' hs'] at hrange
  rw [h.tree f hf] at hplace hplace'
  exact Syntax.place_unique hplace hplace' hs hs' hrange

-- A text or a use of a constant does not stand where a variable is declared.
theorem ne_rangeOf (hf : f ∈ p.files.toList) (hplace : place ∈ f.tree.places) {s : Token}
    (hs : place.atom? = some s) (hkind : place.tree.kind? ≠ some .name)
    (hident : ident ∈ f.tree.varIdents) :
    place.tree.range ≠ Check.rangeOf ident := by
  intro hrange
  have htidy : f.tree.Tidy := h.tree f hf ▸ Syntax.tidy_parse f.text
  obtain ⟨q, hq, hident, hname⟩ := Tree.exists_place_of_mem_varIdents htidy hident
  rw [← h.range_eq hf hq hident] at hrange
  rw [h.place_unique hf hplace hq hs hident hrange] at hkind
  exact hkind hname

end Compiled

namespace Searched

variable {d : Diagnostic} {r : ResourceRef} (h : p.Searched s)

include h

theorem mem_refs : r ∈ p.resources.refs.toList ↔ .ref r ∈ p.world.steps p.files.toList := by
  obtain ⟨report, -, hleads⟩ := h.early
  rw [h.resources, hleads.refs]
  simp

theorem nodup_refs : p.resources.refs.toList.Nodup := by
  obtain ⟨report, -, hleads⟩ := h.early
  rw [h.resources]
  exact hleads.faithful.nodup

theorem mem_bindings {x : SymbolId} {id : ResourceId} :
    (x, id) ∈ p.resources.bindings ↔ .bind x id ∈ p.world.steps p.files.toList := by
  obtain ⟨report, -, hleads⟩ := h.early
  rw [h.resources, hleads.bindings]
  simp

theorem nodup_diagnostics : p.diagnostics.Nodup := by
  obtain ⟨report, hearly, hleads⟩ := h.early
  rw [h.diagnostics, hleads.report]
  exact (hearly.faithful.addAll _).nodup_byFile

-- What was reported before the search, or is reported by it.
theorem mem_diagnostics (hd : d ∈ p.diagnostics) :
    d.IsEarly p.files ∨ .report d ∈ p.world.steps p.files.toList := by
  obtain ⟨report, hearly, hleads⟩ := h.early
  rw [h.diagnostics, Report.mem_byFile, hleads.report] at hd
  refine (Report.mem_addAll hd).imp (hearly.all d) fun hd => ?_
  obtain ⟨step, hstep, heq⟩ := List.mem_filterMap.mp hd
  cases step with
  | report => exact Option.some.inj heq ▸ hstep
  | ref => cases heq
  | bind => cases heq

-- Only problems with assets are reported at an empty place.
theorem problem_of_mem (hd : d ∈ p.diagnostics) : ∃ q file range, d = Problem.diagnostic q file range ∧
    (∀ text, q = .assets text → range = .empty 0) := by
  rcases h.mem_diagnostics hd with hd | hd
  · obtain ⟨q, file, range, heq, hq⟩ := hd.problem
    refine ⟨q, file, range, heq, ?_⟩
    rintro text rfl
    rcases hq with hq | hq | ⟨-, hrange⟩
    · cases hq
    · cases hq
    · exact hrange
  · obtain ⟨q, file, range, heq, hq⟩ := Resource.World.problem_of_mem_steps hd
    refine ⟨q, file, range, heq, ?_⟩
    rintro text rfl
    rcases hq with hq | ⟨kind, name, hq⟩ <;> cases hq

-- What the search has to say is said.
theorem mem_of_report {q : Problem} (hq : q.isOfName = true ∨ q.severity = .warning) {file : FileId}
    {range : Text.ByteRange} (hrange : range ≠ .empty 0)
    (hstep : .report (q.diagnostic file range) ∈ p.world.steps p.files.toList) :
    q.diagnostic file range ∈ p.diagnostics := by
  obtain ⟨report, hearly, hleads⟩ := h.early
  have hmem : q.diagnostic file range ∈ (p.world.steps p.files.toList).filterMap Resource.Step.diagnostic? :=
    List.mem_filterMap.mpr ⟨_, hstep, rfl⟩
  obtain ⟨d, hd, hidentity⟩ := Report.exists_mem_addAll hearly.faithful hmem
  have hd : d ∈ p.diagnostics := by
    rwa [h.diagnostics, Report.mem_byFile, hleads.report]
  obtain ⟨q', file', range', rfl, hassets⟩ := h.problem_of_mem hd
  simp only [Diagnostic.identity, Problem.diagnostic, Prod.mk.injEq] at hidentity
  obtain ⟨rfl, hseverity, rfl, hmessage⟩ := hidentity
  have hcode : q'.code = q.code := by
    rcases hq with hq | hq
    · exact Problem.code_eq_of_message_eq hq (fun text heq => hrange (hassets text heq)) hseverity hmessage
    · obtain ⟨kind, name, entry, rfl⟩ := Problem.misplaced_of_warning hq
      obtain ⟨kind', name', entry', rfl⟩ := Problem.misplaced_of_warning (hseverity.trans hq)
      rfl
  have heq : q'.diagnostic file' range' = q.diagnostic file' range' := by
    simp only [Problem.diagnostic, hseverity, hcode, hmessage]
  exact heq ▸ hd

end Searched

end Program

end SpriteScript
