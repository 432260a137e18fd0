import SpriteScript.Proofs.Checking.OpenTypes
import SpriteScript.Proofs.Identifiers.PuttingOff

-- Which types are open when everything is declared: those that have declarations of their own, each
-- with its name.
namespace SpriteScript

-- The tree declares a type that is no other name of another one.
def Tree.declaresType (decl : Tree) : Bool := (decl.name?.bind ident?).isSome && !decl.isAlias

def Tree.openTypes (root : Tree) : List Tree := (root.childrenOf .typeDecl).filter declaresType

namespace Check

-- The instances for the parts of a long function are found in one search.
set_option synthInstance.maxSize 1000

def PendingDecl.part (p : PendingDecl) : Part := (p.context.file, p.decl)

-- The types that were put off are those of the parts, and each is found by its own name.
structure OpensTypes (parts : List Part) (s : State) : Prop where
  parts : s.typeDecls.reverse.map (·.2.part) = parts
  typed : TypesNamed s
  resolving : s.resolving = []
  apart : (s.typeDecls.map Prod.fst).Nodup
  awaited : ∀ d ∈ s.typeDecls, s.model.Awaits d.1
  named : ∀ d ∈ s.typeDecls, ∃ ident x, d.2.decl.name?.bind Tree.ident? = some ident ∧
    s.info.defs[(d.2.context.file, rangeOf ident)]? = some x ∧ ∀ y, s.model.NamesType y d.1 ↔ y = x
  classes : ∀ c ∈ s.classes, c.2.index < s.model.named.size ∧ ¬ s.Declares c.2
  silent : ∀ p : Problem, p.IsRecursion → ¬ s.Reports p

variable {ground : Ground} {file : FileId} {sources : List Source} {source : Source} {package : String}
variable {s s' : State} {parts : List Part} {fileClass : Option NamedId} {decl : Tree} {scope : ScopeId}
variable {ident : Token} {α : Type}

theorem placeless_opensTypes : Placeless OpensTypes := fun _ _ _ h =>
  ⟨h.parts, ⟨h.typed.known, h.typed.specs⟩, h.resolving, h.apart, h.awaited, h.named, h.classes, h.silent⟩

-- No type of the bundled packages is open.
theorem opensTypes_prelude : OpensTypes [] prelude := by
  have htyped := typesNamed_prelude
  obtain ⟨b, -, hprelude⟩ := exists_bundled
  rw [hprelude] at htyped ⊢
  exact ⟨rfl, htyped, rfl, .nil, List.forall_mem_nil _, List.forall_mem_nil _, List.forall_mem_nil _,
    fun _ _ ⟨_, hx, _⟩ => nomatch hx⟩

theorem OpensTypes.next (h : OpensTypes parts s) (hadding : Adding fileClass s s')
    (hnaming : Naming (fun _ => False) s s') (hkeeps : s.info.Keeps s'.info)
    (hclass : ∀ owner ∈ fileClass, owner ∈ s.classes.map Prod.snd) :
    OpensTypes parts s' where
  parts := by rw [hadding.typeDecls, h.parts]
  typed := hnaming.types h.typed
  resolving := hadding.resolving.trans h.resolving
  apart := by
    rw [hadding.typeDecls]
    exact h.apart
  awaited d hd := by
    rw [hadding.typeDecls] at hd
    obtain ⟨hlt, hpending⟩ := h.awaited d hd
    refine ⟨hlt.trans_le hadding.size, ?_⟩
    rw [hadding.pending d.1 hlt, hpending]
    intro howner
    obtain ⟨c, hc, heq⟩ := List.mem_map.mp (hclass d.1 howner)
    exact (h.classes c hc).2 ⟨d, hd, heq.symm⟩
  named d hd := by
    rw [hadding.typeDecls] at hd
    obtain ⟨ident, x, hident, hdef, hx⟩ := h.named d hd
    refine ⟨ident, x, hident, hkeeps.defs _ x hdef, fun y => ?_⟩
    rw [hadding.names y d.1 (h.awaited d hd).1, hx]
  classes c hc := by
    unfold State.Declares
    rw [hadding.typeDecls]
    rcases hadding.classes c hc with hold | ⟨hle, hlt⟩
    · exact ⟨(h.classes c hold).1.trans_le hadding.size, (h.classes c hold).2⟩
    · refine ⟨hlt, ?_⟩
      rintro ⟨d, hd, heq⟩
      rw [← heq] at hle
      exact absurd (h.awaited d hd).1 (Nat.not_lt_of_le hle)
  silent p hp := mt (hadding.silent p hp).mp (h.silent p hp)

-- What belongs to no class does not fill one.
theorem OpensTypes.next_unowned (h : OpensTypes parts s) (hadding : Adding none s s')
    (hnaming : Naming (fun _ => False) s s') (hkeeps : s.info.Keeps s'.info) :
    OpensTypes parts s' :=
  h.next hadding hnaming hkeeps fun owner howner => absurd howner (Option.not_mem_none owner)

-- An action that puts off no types.
theorem appends_nil {a : CheckM α} [hadding : Runs (Adding fileClass) a]
    [hnaming : Runs (Naming fun _ => False) a] (hvisits : ∀ ground, Visits ground file parts a)
    (hclass : ∀ owner ∈ fileClass, owner ∈ s.classes.map Prod.snd) :
    Appends sources OpensTypes file parts [] a s := by
  intro ground rest old hs hready h
  rw [List.append_nil]
  exact h.next (hadding.run s) (hnaming.run s) (keeps_of_visits hvisits hs) hclass

theorem lasting_opensTypes : Lasting OpensTypes := fun _ _ _ hmoves hkeeps h =>
  h.next_unowned (hmoves (Adding none)) (hmoves (Naming _)) hkeeps

-- A type that is put off is new, and so is its name.
theorem opensTypes_openType {n : NamedType} {x : Symbol} {i : Info} (pending : PendingDecl)
    (h : OpensTypes parts s) (hn : n.underlying = .pending) (hkind : x.kind = .typeName)
    (hident : pending.decl.name?.bind Tree.ident? = some ident) (hkeeps : s.info.Keeps i)
    (hdef : i.defs[(pending.context.file, rangeOf ident)]? = some ⟨s.model.symbols.size⟩) :
    OpensTypes (parts ++ [pending.part]) { ((openType n x pending).run s).2 with info := i } := by
  obtain ⟨id, hid⟩ : ∃ id : NamedId, id = ⟨s.model.named.size⟩ := ⟨_, rfl⟩
  obtain ⟨added, hadded⟩ : ∃ added, added = { ((addType n x).run s).2 with info := i } := ⟨_, rfl⟩
  have hadding : Adding none s added := by
    rw [hadded]
    exact trans_of (Adding none) (adding_addType n x s) (TypeRoutine.info _ i)
  have hnaming : Naming (fun _ => False) s added := by
    rw [hadded]
    exact trans_of (Naming _) ((naming_addType n x).run s) (TypeRoutine.info _ i)
  have hopened : { ((openType n x pending).run s).2 with info := i } =
      { added with typeDecls := (id, pending) :: added.typeDecls } := by
    rw [hadded, hid]
    rfl
  have hbefore : OpensTypes parts added := by
    refine h.next_unowned hadding hnaming ?_
    rw [hadded]
    exact hkeeps
  have hnew (other : NamedId) (hother : other.index < s.model.named.size) : other ≠ id := by
    rw [hid]
    rintro rfl
    exact lt_irrefl _ hother
  have hdecl (d : NamedId × PendingDecl) (hd : d ∈ added.typeDecls) : d.1 ≠ id :=
    hnew d.1 (h.awaited d (hadding.typeDecls ▸ hd)).1
  rw [hopened]
  refine ⟨?_, ⟨hbefore.typed.known, hbefore.typed.specs⟩, hbefore.resolving,
    List.nodup_cons.mpr ⟨fun hmem => ?_, hbefore.apart⟩,
    List.forall_mem_cons.mpr ⟨?_, hbefore.awaited⟩, List.forall_mem_cons.mpr ⟨?_, hbefore.named⟩,
    fun c hc => ?_, hbefore.silent⟩
  · rw [List.reverse_cons, List.map_append, hbefore.parts]
    rfl
  · obtain ⟨d, hd, heq⟩ := List.mem_map.mp hmem
    exact hdecl d hd heq
  · rw [hadded, hid]
    exact awaits_addType hn x s
  · refine ⟨ident, ⟨s.model.symbols.size⟩, hident, ?_, fun y => ?_⟩
    · rw [hadded]
      exact hdef
    · rw [hadded, hid]
      exact namesType_addType h.typed hkind n
  · have hold : c ∈ s.classes := by
      rw [hadded] at hc
      exact hc
    refine ⟨(hbefore.classes c hc).1, ?_⟩
    rintro ⟨d, hd, heq⟩
    rcases List.mem_cons.mp hd with rfl | hd
    · exact hnew c.2 (h.classes c hold).1 heq.symm
    · exact (hbefore.classes c hc).2 ⟨d, hd, heq⟩

theorem appends_declareTypeName : Appends sources OpensTypes file (partsIn file decl.typeDeclParts)
    (partsIn file (if decl.declaresType then [decl] else [])) (declareTypeName scope decl) s := by
  refine .declareTypeName lasting_opensTypes (fun hnone => ?_) fun ident x old hident hkind hty hkeeps h => ?_
  · rw [Tree.declaresType, hnone, Option.isSome_none, Bool.false_and]
  · obtain ⟨named, hnamed⟩ : ∃ named, named = namedBy decl ident x s := ⟨_, rfl⟩
    rw [Tree.declaresType, hident, Option.isSome_some, Bool.true_and]
    rw [← hnamed] at hkeeps ⊢
    unfold namedBy at hnamed
    cases halias : decl.isAlias with
    | true =>
        rw [halias, if_pos rfl] at hnamed
        have hmoves (R : State → State → Prop) [Declares R]
            (haliases : ∀ s aliases, R s { s with aliases }) : R s named := by
          rw [hnamed]
          exact trans_of R (Declares.unnamed s x (hty ▸ rfl))
            (trans_of R (haliases { s with model := (s.model.addSymbol x).2 } _) (TypeRoutine.info _ _))
        rw [Bool.not_true, if_neg Bool.false_ne_true, partsIn, List.map_nil, List.append_nil]
        exact h.next_unowned (hmoves (Adding none) fun _ _ => adding_of_eq rfl rfl rfl rfl rfl rfl)
          (hmoves (Naming _) DeclaresTypes.aliases) hkeeps
    | false =>
        rw [halias, if_neg Bool.false_ne_true] at hnamed
        rw [Bool.not_false, if_pos rfl]
        subst hnamed
        exact opensTypes_openType ⟨s.context, decl⟩ h rfl hkind hident hkeeps Std.HashMap.getElem?_insert_self

-- Types are open in the order of their declarations.
theorem opensTypes_declareSources {rest : List Part} (hs : Ahead ground file
      (((sources.flatMap fun source =>
        partsIn source.file ((source.tree.childrenOf .typeDecl).flatMap Tree.typeDeclParts)) ++
      sources.flatMap fun source =>
      partsIn source.file (source.tree.items.flatMap Tree.memberStepParts)) ++ rest) s)
    (h : OpensTypes [] s) :
      OpensTypes (sources.flatMap fun source => partsIn source.file source.tree.openTypes)
      ((declareSources package sources).run s).2 :=
  PutsOff.declareSources_filter placeless_opensTypes lasting_opensTypes
    (fun _ _ _ _ _ => appends_declareTypeName) (fun source _ unit owner s howner =>
      have hclass : ∀ other ∈ some owner, other ∈ s.classes.map Prod.snd :=
        fun _ hother => Option.some.inj hother ▸ howner
      appends_nil (fun _ => reads_declareMembers unit (some owner) true source.tree.items) hclass) hs h

end Check

end SpriteScript
