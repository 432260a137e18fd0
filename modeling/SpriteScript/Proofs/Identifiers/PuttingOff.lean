import SpriteScript.Proofs.Checking.Redeclaration
import SpriteScript.Proofs.Identifiers.Program

-- Declarations put things off one after the other, each for a part of a file.
namespace SpriteScript.Check

variable {ground : Ground} {file : FileId} {sources : List Source} {source : Source} {package : String}
variable {s : State}
variable {parts parts' new new' : List Part} {ts : List Tree} {α β γ : Type}

-- Whatever is found out on the way, nothing else that was found out before changes.
theorem keeps_of_ahead {rest : List Part} {s' : State}
    (h : ∀ facts, Ahead (ground.learn facts) file parts s → Ahead (ground.learn facts) file rest s')
    (hs : Ahead ground file parts s) : s.info.Keeps s'.info := by
  have hfact (fact : Fact) (hfact : fact.Holds s) : fact.Holds s' :=
    (h [fact] (hs.learn (List.forall_mem_singleton.mpr hfact))).valued.facts fact List.mem_cons_self
  exact ⟨fun key x => hfact (.use key x), fun key x => hfact (.declares key x)⟩

theorem keeps_of_visits {a : CheckM α} {rest : List Part} (ha : ∀ ground, Visits ground file parts a)
    (hs : Ahead ground file (parts ++ rest) s) : s.info.Keeps (a.run s).2.info :=
  keeps_of_ahead (fun _ => ha _ rest s) hs

-- The invariant holds of a list of parts, and then of a longer one.
def Appends (sources : List Source) (I : List Part → State → Prop) (file : FileId) (parts new : List Part)
    (a : CheckM α) (s : State) : Prop :=
  ∀ ground rest old, Ahead ground file (parts ++ rest) s → Ready sources s → I old s →
    I (old ++ new) (a.run s).2

-- The action reads the parts, and puts something off for each of the new ones.
structure PutsOff (sources : List Source) (I : List Part → State → Prop) (file : FileId)
    (parts new : List Part) (a : CheckM α) : Prop where
  visits : ∀ ground, Visits ground file parts a
  preserves : Preserves a
  appends : ∀ s, Appends sources I file parts new a s

namespace PutsOff

variable {I : List Part → State → Prop} {a : CheckM α}

theorem bind {f : α → CheckM β} (ha : PutsOff sources I file parts new a)
    (hf : ∀ x, PutsOff sources I file parts' new' (f x)) :
    PutsOff sources I file (parts ++ parts') (new ++ new') (a >>= f) where
  visits ground := .bind (ha.visits ground) fun x => (hf x).visits ground
  preserves := have := ha.preserves; .bind inferInstance fun x => (hf x).preserves
  appends s ground rest old hs hready hI := by
    rw [List.append_assoc] at hs
    rw [← List.append_assoc]
    exact (hf _).appends _ ground rest _ (ha.visits ground _ s hs) ((ha.preserves.run s).ready hready)
      (ha.appends s ground _ old hs hready hI)

-- Nothing is put off.
theorem of_nil [hpreserves : Preserves a] (hvisits : ∀ ground, Visits ground file parts a)
    (h : ∀ s, Appends sources I file parts [] a s) : PutsOff sources I file parts [] a :=
  ⟨hvisits, hpreserves, h⟩

theorem below {us : List Tree} (h : PutsOff sources I file (partsIn file ts) new a)
    (hbelow : Tree.Below ts us) : PutsOff sources I file (partsIn file us) new a where
  visits ground := Reads.below (h.visits ground) hbelow
  preserves := h.preserves
  appends s ground rest old hs := h.appends s ground rest old (hs.below hbelow)

theorem forM {l : List γ} {g : γ → CheckM PUnit} {p q : γ → List Part}
    (h : ∀ x ∈ l, PutsOff sources I file (p x) (q x) (g x)) :
    PutsOff sources I file (l.flatMap p) (l.flatMap q) (forM l g) := by
  induction l with
  | nil =>
      refine ⟨fun ground => .forM nofun, .forM nofun, fun s ground rest old hs hready hI => ?_⟩
      rw [List.flatMap_nil, List.append_nil]
      exact hI
  | cons x rest ih =>
      rw [List.forM_cons, List.flatMap_cons, List.flatMap_cons]
      exact (h x List.mem_cons_self).bind fun _ => ih fun y hy => h y (List.mem_cons_of_mem x hy)

end PutsOff

-- The invariant does not depend on where the check is.
def Placeless (I : List Part → State → Prop) : Prop := ∀ old s c, I old s → I old { s with context := c }

theorem Appends.within {I : List Part → State → Prop} {a : CheckM α} {c : Context} (hI : Placeless I)
    (h : Appends sources I c.file parts new a { s with context := c }) :
    Appends sources I file parts new (within c a) s :=
  fun ground rest old hs hready hold => hI _ _ _ <| h ground rest old
    (hs.next rfl (List.Subperm.refl _) rfl hs.known (hs.valued.of_model rfl List.prefix_rfl rfl)) hready
    (hI _ _ _ hold)

-- What is done within a file is done with its class.
theorem PutsOff.withinSource {I : List Part → State → Prop}
    {body : ScopeId → Option NamedId → CheckM Unit} (hI : Placeless I) (hsource : source ∈ sources)
    [hbody : ∀ scope fileClass, Preserves (body scope fileClass)]
    (hreads : ∀ ground scope fileClass, Reads ground source.file ts (body scope fileClass))
    (h : ∀ scope owner s, owner ∈ s.classes.map Prod.snd →
      Appends sources I source.file (partsIn source.file ts) new (body scope (some owner)) s) :
    PutsOff sources I file (partsIn source.file ts) new (withinSource package source body) where
  visits ground := visits_withinSource (hreads ground)
  preserves := inferInstance
  appends s ground rest old hs hready hold := by
    obtain ⟨scope, owner, -, howner, hrun⟩ := run_withinSource package hready hsource body
    obtain ⟨c, hc, rfl⟩ := Option.map_eq_some_iff.mp howner
    rw [hrun]
    have hmem : c.2 ∈ s.classes.map Prod.snd := List.mem_map_of_mem (List.mem_of_find?_eq_some hc)
    have hinner := h scope c.2 { s with context := ⟨source.file, scope, some c.2, none, package⟩ } hmem
    exact Appends.within hI hinner ground rest old hs hready hold

-- The invariant outlasts what declarations do to other things.
def Lasting (I : List Part → State → Prop) : Prop :=
  ∀ old s s', (∀ R : State → State → Prop, [Declares R] → R s s') → s.info.Keeps s'.info → I old s → I old s'

section Names

variable {decl : Tree} {ident : Token} {scope : ScopeId}

theorem info_bind (scope : ScopeId) (name : String) (id : SymbolId) (range : Text.ByteRange) (s : State) :
    ((bind scope name id range).run s).2.info = s.info := by
  change ((ite _ _ _ : CheckM Unit).run s).2.info = s.info
  split <;> rfl

-- The state when the declared name was noted, and not bound yet.
def namedBy (decl : Tree) (ident : Token) (x : Symbol) (s : State) : State :=
  { ((if decl.isAlias then openAlias x ⟨s.context, decl⟩
      else openType { name := ident.text, package := x.package } x ⟨s.context, decl⟩ :
        CheckM SymbolId).run s).2 with
    info := s.info.recordDef s.context.file (rangeOf ident) ⟨s.model.symbols.size⟩ }

theorem exists_declareTypeName (hident : decl.name?.bind Tree.ident? = some ident) (scope : ScopeId)
    (s : State) :
    ∃ x : Symbol, x.kind = .typeName ∧ x.ty = .invalid ∧ ((declareTypeName scope decl).run s).2 =
      ((bind scope ident.text ⟨s.model.symbols.size⟩ (rangeOf ident)).run (namedBy decl ident x s)).2 := by
  obtain ⟨x, hkind, hty, hrun⟩ := run_declareTypeName scope hident s
  refine ⟨x, hkind, hty, ?_⟩
  rw [hrun, namedBy]
  cases decl.isAlias <;> rfl

-- What is put off with a name is there before the name is bound.
theorem Appends.declareTypeName {I : List Part → State → Prop} {declares : Tree → Bool} (hlasting : Lasting I)
    (hnone : decl.name?.bind Tree.ident? = none → declares decl = false)
    (h : ∀ ident x old, decl.name?.bind Tree.ident? = some ident → x.kind = .typeName → x.ty = .invalid →
      s.info.Keeps (namedBy decl ident x s).info → I old s →
      I (old ++ partsIn s.context.file (if declares decl then [decl] else [])) (namedBy decl ident x s)) :
    Appends sources I file (partsIn file decl.typeDeclParts)
      (partsIn file (if declares decl then [decl] else []))
      (declareTypeName scope decl) s := by
  intro ground rest old hs hready hold
  cases hident : decl.name?.bind Tree.ident? with
  | none =>
      have hrun : (Check.declareTypeName scope decl).run s = (⟨⟩, s) := by
        unfold Check.declareTypeName
        rw [hident]
        rfl
      rw [hrun, hnone hident, if_neg Bool.false_ne_true]
      exact (List.append_nil old).symm ▸ hold
  | some ident =>
      obtain ⟨x, hkind, hty, hrun⟩ := exists_declareTypeName hident scope s
      have hkeeps := keeps_of_visits (fun _ => reads_declareTypeName scope decl) hs
      have hcontext := hs.context
      subst hcontext
      rw [hrun, info_bind] at hkeeps
      rw [hrun]
      refine hlasting _ _ _ (fun R _ => Runs.run _) ?_ (h ident x old hident hkind hty hkeeps hold)
      rw [info_bind]
      exact .refl _

end Names

section Sources

variable {I : List Part → State → Prop} {types members : Source → List Part}

theorem putsOff_declareRest {unit : ScopeId} (hplaceless : Placeless I) (hlasting : Lasting I)
    (htypes : ∀ source ∈ sources, ∀ s, Appends sources I source.file
      (partsIn source.file ((source.tree.childrenOf .typeDecl).flatMap Tree.typeDeclParts)) (types source)
      (declareTypeNames source.tree unit) s)
    (hmembers : ∀ source ∈ sources, ∀ owner s, owner ∈ s.classes.map Prod.snd → Appends sources I source.file
      (partsIn source.file (source.tree.items.flatMap Tree.memberStepParts)) (members source)
      (declareMembers unit (some owner) true source.tree.items) s) :
    PutsOff sources I file
      ((sources.flatMap fun source =>
          partsIn source.file ((source.tree.childrenOf .typeDecl).flatMap Tree.typeDeclParts)) ++
        sources.flatMap fun source => partsIn source.file (source.tree.items.flatMap Tree.memberStepParts))
      (sources.flatMap types ++ sources.flatMap members) (declareRest package sources unit) := by
  have hbases : PutsOff sources I file [] [] (sources.forM embedBases) := by
    have hpreserves : Preserves (sources.forM embedBases) := .forM fun _ _ => inferInstance
    have hvisits (ground : Ground) : Visits ground file [] (sources.forM embedBases) :=
      .of_runs (h := .forM fun _ _ => inferInstance)
    refine .of_nil hvisits fun s ground rest old hs hready h => ?_
    rw [List.append_nil]
    refine hlasting old s _ (fun R _ => ?_) (keeps_of_visits hvisits hs) h
    have hbases : Runs R (sources.forM embedBases) := .forM fun _ _ => inferInstance
    exact hbases.run s
  have htypes : PutsOff sources I file _ _ (sources.forM fun source =>
      withinSource package source fun _ _ => declareTypeNames source.tree unit) :=
    .forM fun source hsource =>
      .withinSource hplaceless hsource (fun _ _ _ => reads_declareTypeNames source.tree unit)
      fun _ _ s _ => htypes source hsource s
  have hmembers : PutsOff sources I file _ _ (sources.forM fun source =>
      withinSource package source fun _ fileClass => declareMembers unit fileClass true source.tree.items) :=
    .forM fun source hsource => .withinSource hplaceless hsource
      (fun _ _ fileClass => reads_declareMembers unit fileClass true source.tree.items) fun _ =>
      hmembers source hsource
  have hall := hbases.bind fun _ => htypes.bind fun _ => hmembers
  rwa [List.nil_append, List.nil_append] at hall

-- Nothing is put off before the classes of the files are known.
theorem PutsOff.declareSources {rest : List Part} (hlasting : Lasting I)
    (h : ∀ unit, PutsOff sources I file parts new (declareRest package sources unit))
    (hs : Ahead ground file (parts ++ rest) s) (hstart : I [] s) :
    I new ((declareSources package sources).run s).2 := by
  obtain ⟨opened, hopened⟩ : ∃ opened, opened = openUnit.run s := ⟨_, rfl⟩
  obtain ⟨known, hknown⟩ :
    ∃ known, known = ((sources.forM (declareClass package opened.1)).run opened.2).2 := ⟨_, rfl⟩
  have hrun :
      ((Check.declareSources package sources).run s).2 =
      ((declareRest package sources opened.1).run known).2 := by
    rw [declareSources_eq, hknown, hopened]
    rfl
  have hmoves (R : State → State → Prop) [IsPreorder State R] (hunit : Runs R openUnit)
      (hclass : ∀ unit source, Runs R (declareClass package unit source)) : R s known := by
    have hclasses : Runs R (sources.forM (declareClass package opened.1)) :=
      .forM fun source _ => hclass _ source
    rw [hknown]
    exact trans_of R (hopened ▸ hunit.run s) (hclasses.run opened.2)
  have hahead := hmoves (Passing ground file) inferInstance (fun _ _ => inferInstance) _ hs
  have hkept : s.info.Keeps known.info :=
    keeps_of_ahead (fun facts =>
      hmoves (Passing (ground.learn facts) file) inferInstance (fun _ _ => inferInstance) _) hs
  have hbefore : I [] known :=
    hlasting [] s known (fun R _ => hmoves R inferInstance fun _ _ => inferInstance) hkept hstart
  rw [hrun]
  exact (h opened.1).appends known ground rest [] hahead (hknown ▸ ready_classes opened.2) hbefore

-- The declarations of types that pass the test are put off, and nothing else is.
theorem PutsOff.declareSources_filter {declares : Tree → Bool} {rest : List Part}
    (hplaceless : Placeless I) (hlasting : Lasting I) (hdecl : ∀ source ∈ sources, ∀ scope decl s,
      Appends sources I source.file (partsIn source.file decl.typeDeclParts)
      (partsIn source.file (if declares decl then [decl] else [])) (declareTypeName scope decl) s)
    (hmembers : ∀ source ∈ sources, ∀ unit owner s, owner ∈ s.classes.map Prod.snd →
      Appends sources I source.file
      (partsIn source.file (source.tree.items.flatMap Tree.memberStepParts)) []
      (declareMembers unit (some owner) true source.tree.items) s)
    (hs : Ahead ground file
      (((sources.flatMap fun source =>
        partsIn source.file ((source.tree.childrenOf .typeDecl).flatMap Tree.typeDeclParts)) ++
      sources.flatMap fun source =>
      partsIn source.file (source.tree.items.flatMap Tree.memberStepParts)) ++ rest) s)
    (h : I [] s) :
    I (sources.flatMap fun source => partsIn source.file ((source.tree.childrenOf .typeDecl).filter declares))
      ((Check.declareSources package sources).run s).2 := by
  have htypes (source) (hsource : source ∈ sources) (scope : ScopeId) : PutsOff sources I source.file
      (partsIn source.file ((source.tree.childrenOf .typeDecl).flatMap Tree.typeDeclParts))
      (partsIn source.file ((source.tree.childrenOf .typeDecl).filter declares))
      (declareTypeNames source.tree scope) := by
    have hparts : PutsOff sources I source.file _ _ (declareTypeNames source.tree scope) :=
      .forM fun decl _ =>
        ⟨fun _ => reads_declareTypeName scope decl, inferInstance, hdecl source hsource scope decl⟩
    have hnew :
        ((source.tree.childrenOf .typeDecl).flatMap fun decl =>
          partsIn source.file (if declares decl then [decl] else [])) =
        partsIn source.file ((source.tree.childrenOf .typeDecl).filter declares) := by
      rw [← List.flatMap_singleton' ((source.tree.childrenOf .typeDecl).filter _), flatMap_filter]
      exact List.map_flatMap.symm
    rw [← hnew, partsIn, List.map_flatMap]
    exact hparts
  have hrest (unit : ScopeId) : PutsOff sources I file _
      ((sources.flatMap fun source =>
        partsIn source.file ((source.tree.childrenOf .typeDecl).filter declares)) ++
        sources.flatMap fun _ => [])
      (declareRest package sources unit) :=
    putsOff_declareRest hplaceless hlasting (fun source hsource => (htypes source hsource unit).appends)
      fun source hsource owner s howner => hmembers source hsource unit owner s howner
  have hnone : sources.flatMap (fun _ => ([] : List Part)) = [] := List.flatMap_eq_nil_iff.mpr fun _ _ => rfl
  rw [hnone, List.append_nil] at hrest
  exact PutsOff.declareSources hlasting hrest hs h

end Sources

end SpriteScript.Check
