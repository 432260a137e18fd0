import SpriteScript.Proofs.Conformance.Lists

-- The grammar of types and signatures.
namespace SpriteScript.Syntax

open Grammar

-- The instances for the parts of a long rule are found in one search.
set_option synthInstance.maxSize 1000

namespace Rules

section Types

variable {g : Rules} {n : Nat} [∀ rule, Bracketed (g.run rule)] {s : Cursor}

theorem makes_param (hg : g.Fit n) (h : s.Sound) (hn : 4 * s.rest.length < n) :
    Makes g.param s [nodeOf .param] := by
  unfold param
  dsimp only
  refine makes_node h fun s₁ h₁ _ hle => Quiet.isAt_bind.mpr (Quiet.second?_bind.mpr ?_)
  generalize (s₁.kind? == some .ident && _) = named
  cases named with
  | true =>
      simp only [if_true, Bool.not_true, Bool.false_eq_true, if_false]
      refine .step (.refl h₁) (makes_name h₁ _) fun _ s₂ h₂ hle₂ => ?_
      refine .step h₂ (makes_eat h₂.sound rfl) fun _ s₃ h₃ hle₃ => ?_
      refine Quiet.isAtAny_bind.mpr (.ite (fun _ => ?_) fun _ => .pure ?_)
      · refine (makes_type hg h₃.sound (by omega)).imp fun _ s₄ h₄ => ?_
        exact ready_of_filled rfl (.head _) (h₃.trans (h₄.mono fun _ => .opt))
      · exact ready_of_filled rfl (.head _) (h₃.optional Tree.isType)
  | false =>
      simp only [Bool.false_eq_true, if_false, Bool.not_false, if_true]
      refine .step (.refl h₁) (makes_eat h₁ rfl) fun _ s₂ h₂ hle₂ => ?_
      refine Quiet.isAtAny_bind.mpr (.ite (fun _ => ?_) fun _ => .fault)
      refine (makes_type hg h₂.sound (by omega)).imp fun _ s₃ h₃ => ?_
      exact ready_of_filled rfl (.tail _ (.head _)) (h₂.trans h₃)

theorem makes_paramList (hg : g.Fit n) (h : s.Sound) (hkind : s.kind? = some .lParen)
    (hn : 4 * s.rest.length < n) : Makes g.paramList s [nodeOf .paramList] := by
  unfold paramList
  refine makes_node h fun s₁ h₁ hsolids hle => ?_
  refine .bind (.here h₁) (quiet_bump h₁ (kind?_of_solids hsolids hkind) rfl) ?_
  rintro _ s₂ ⟨h₂, hless⟩
  refine .step h₂ (makes_commaList h₂.sound fun s₃ h₃ hle₃ => makes_param hg h₃ (by omega)) ?_
  intro _ s₃ h₃ _
  refine (makes_expect h₃.sound rfl _).imp fun _ s₄ h₄ => ?_
  exact ready_of_filled rfl (.head _) (h₃.trans h₄)

-- The continuation of a signature behind its parameters.
theorem makes_signature (hg : g.Fit n) (h : s.Sound) (hn : 4 * s.rest.length < n) :
    Makes g.signature s [nodeOf .paramList, optNode .result] := by
  unfold signature
  refine Quiet.isAt_bind.mpr (.ite (fun hat => ?_) fun _ => .fault_bind (.here h))
  refine .step (.refl h) (makes_paramList hg h (beq_iff_eq.mp hat) hn) fun _ s₁ h₁ hle => ?_
  refine Quiet.isAt_bind.mpr (.ite (fun hat => ?_) fun _ => Quiet.isAtAny_bind.mpr ?_)
  · have hresult : Makes (node .result g.paramList) s₁ [nodeOf .result] :=
      makes_node h₁.sound fun s₂ h₂ hsolids hle₂ =>
        (makes_paramList hg h₂ (kind?_of_solids hsolids (beq_iff_eq.mp hat)) (by omega)).imp
          fun _ _ h₃ => ready_of_filled rfl (.head _) h₃
    exact hresult.imp fun _ _ h₂ => h₁.trans (h₂.mono fun _ => .opt)
  · refine .ite (fun _ => ?_) fun _ => .pure (h₁.optional _)
    have hresult : Makes (node .result g.type) s₁ [nodeOf .result] :=
      makes_node h₁.sound fun s₂ h₂ _ hle₂ =>
        (makes_type hg h₂ (by omega)).imp
          fun _ _ h₃ => ready_of_filled rfl (.tail _ (.head _)) h₃
    exact hresult.imp fun _ _ h₂ => h₁.trans (h₂.mono fun _ => .opt)

theorem makes_fieldDecl (hg : g.Fit n) (h : s.Sound) (hn : 4 * s.rest.length < n) :
    Makes g.fieldDecl s [nodeOf .fieldDecl] := by
  unfold fieldDecl
  dsimp only
  refine makes_node h fun s₁ h₁ _ hle =>
    Quiet.isAt_bind.mpr (Quiet.isAt_bind.mpr (Quiet.second?_bind.mpr (.ite (fun _ => ?_) fun _ => ?_)))
  · refine (makes_type hg h₁ (by omega)).imp fun _ s₂ h₂ => ?_
    exact ready_of_filled rfl (.head _) h₂
  · refine .step (.refl h₁) (makes_name h₁ _) fun _ s₂ h₂ hle₂ => ?_
    refine .step h₂ (makes_moreNames h₂.sound _) fun _ s₃ h₃ hle₃ => ?_
    refine (makes_type hg h₃.sound (by omega)).imp fun _ s₄ h₄ => ?_
    exact ready_of_filled rfl (.tail _ (.head _)) (h₃.trans h₄)

theorem makes_methodSpec (hg : g.Fit n) (h : s.Sound) (hn : 4 * s.rest.length < n) :
    Makes g.methodSpec s [nodeOf .methodSpec] := by
  unfold methodSpec
  refine makes_node h fun s₁ h₁ _ hle => ?_
  refine .step (.refl h₁) (makes_name h₁ _) fun _ s₂ h₂ hle₂ => ?_
  refine (makes_signature hg h₂.sound (by omega)).imp fun _ s₃ h₃ => ?_
  exact ready_of_filled rfl (.head _) (h₂.trans h₃)

theorem makes_typeRule (hg : g.Fit n) (h : s.Sound) (hn : 4 * s.rest.length < n + 1) :
    Makes g.typeRule s [typeSlot] := by
  unfold typeRule
  refine Quiet.kind?_bind.mpr ?_
  split
  · rename_i hkind
    refine Adds.ofType .typeRef rfl ?_
    refine makes_node_bump h hkind rfl rfl fun s₁ s₂ h₂ hless => ?_
    refine Quiet.isAt_bind.mpr (Quiet.second?_bind.mpr (.ite (fun hdot => ?_) fun _ => .pure ?_))
    · obtain ⟨hdot, hsecond⟩ : s₂.kind? = some .dot ∧ s₂.second? = some .ident := by
        simpa using hdot
      refine (makes_bump_bump h₂.sound hdot hsecond rfl rfl).imp fun _ _ h₃ => ?_
      exact ⟨_, .tail _ (.head _), h₂.trans h₃⟩
    · exact ⟨_, .head _, h₂⟩
  · rename_i hkind
    refine Adds.ofType .pointerType rfl ?_
    refine makes_node_bump h hkind rfl rfl fun s₁ s₂ h₂ hless => ?_
    exact (makes_type hg h₂.sound (by omega)).imp fun _ _ h₃ => ⟨_, .head _, h₂.trans h₃⟩
  · rename_i hkind
    refine Adds.ofType .sliceType rfl ?_
    refine makes_node_bump h hkind rfl rfl fun s₁ s₂ h₂ hless => ?_
    refine .step h₂ (makes_expect h₂.sound rfl _) fun _ s₃ h₃ hle₃ => ?_
    exact (makes_type hg h₃.sound (by omega)).imp fun _ _ h₄ => ⟨_, .head _, h₃.trans h₄⟩
  · rename_i hkind
    refine Adds.ofType .mapType rfl ?_
    refine makes_node_bump h hkind rfl rfl fun s₁ s₂ h₂ hless => ?_
    refine .step h₂ (makes_expect h₂.sound rfl _) fun _ s₃ h₃ hle₃ => ?_
    refine .step h₃ (makes_type hg h₃.sound (by omega)) fun _ s₄ h₄ hle₄ => ?_
    refine .step h₄ (makes_expect h₄.sound rfl _) fun _ s₅ h₅ hle₅ => ?_
    exact (makes_type hg h₅.sound (by omega)).imp fun _ _ h₆ => ⟨_, .head _, h₅.trans h₆⟩
  · rename_i hkind
    refine Adds.ofType .chanType rfl ?_
    refine makes_node_bump h hkind rfl rfl fun s₁ s₂ h₂ hless => ?_
    exact (makes_type hg h₂.sound (by omega)).imp fun _ _ h₃ => ⟨_, .head _, h₂.trans h₃⟩
  · rename_i hkind
    refine Adds.ofType .funcType rfl ?_
    refine makes_node_bump h hkind rfl rfl fun s₁ s₂ h₂ hless => ?_
    exact (makes_signature hg h₂.sound (by omega)).imp fun _ _ h₃ => ⟨_, .head _, h₂.trans h₃⟩
  · rename_i hkind
    refine Adds.ofType .structType rfl ?_
    refine makes_node h fun s₁ h₁ hsolids hle => ?_
    refine (makes_typeBody h₁ (kind?_of_solids hsolids hkind) rfl _ fun s₂ h₂ hless =>
      makes_fieldDecl hg h₂ (by omega)).imp fun _ _ h₃ => ?_
    exact ready_of_filled rfl (.head _) h₃
  · rename_i hkind
    refine Adds.ofType .interfaceType rfl ?_
    refine makes_node h fun s₁ h₁ hsolids hle => ?_
    refine (makes_typeBody h₁ (kind?_of_solids hsolids hkind) rfl _ fun s₂ h₂ hless =>
      makes_methodSpec hg h₂ (by omega)).imp fun _ _ h₃ => ?_
    exact ready_of_filled rfl (.head _) h₃
  · exact .fault

end Types

end Rules

end SpriteScript.Syntax
