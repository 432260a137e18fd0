import Mathlib.Data.List.Flatten
import Mathlib.Data.List.Perm.Subperm
import SpriteScript.Syntax.Access
import SpriteScript.Proofs.Checking.Setting
import SpriteScript.Proofs.Tidy

-- Parts of trees that do not overlap. What is read of a node in several steps has to be made of
-- such parts, however malformed the node is.
namespace SpriteScript

namespace Tree

-- The tree is a part of the text, and so are its tokens.
structure StandsIn (text : String) (t : Tree) : Prop where
  lies : t.LiesIn text
  tokens : t.tokens ⊆ Token.tokenize text
  tidy : t.Tidy

-- The first trees are parts of the second ones; together they have no token more often.
structure Below (ts us : List Tree) : Prop where
  tokens : (ts.flatMap Tree.tokens).Subperm (us.flatMap Tree.tokens)
  stands : ∀ t ∈ ts, ∃ u ∈ us, ∀ text, u.StandsIn text → t.StandsIn text

variable {t c : Tree} {ts us vs ts' us' : List Tree}

theorem StandsIn.child {text : String} (h : t.StandsIn text) (hc : c ∈ t.children) : c.StandsIn text :=
  ⟨h.lies.child hc, fun _ hs => h.tokens (mem_tokens_child hc hs), h.tidy.child hc⟩

namespace Below

theorem of_subperm (h : ts.Subperm us) : Below ts us where
  tokens := by
    obtain ⟨vs, hperm, hsub⟩ := h
    exact ⟨_, hperm.flatMap_right _, hsub.flatMap _⟩
  stands t ht := ⟨t, h.subset ht, fun _ hstands => hstands⟩

theorem of_sublist (h : ts.Sublist us) : Below ts us := .of_subperm h.subperm

theorem of_perm (h : ts.Perm us) : Below ts us := .of_subperm h.subperm

theorem refl (ts : List Tree) : Below ts ts := .of_sublist (List.Sublist.refl ts)

theorem nil (ts : List Tree) : Below [] ts := .of_sublist (List.nil_sublist ts)

theorem trans (h : Below ts us) (h' : Below us vs) : Below ts vs where
  tokens := h.tokens.trans h'.tokens
  stands t ht := by
    obtain ⟨u, hu, htu⟩ := h.stands t ht
    obtain ⟨v, hv, huv⟩ := h'.stands u hu
    exact ⟨v, hv, fun text hstands => htu text (huv text hstands)⟩

theorem append (h : Below ts us) (h' : Below ts' us') : Below (ts ++ ts') (us ++ us') where
  tokens := by
    rw [List.flatMap_append, List.flatMap_append]
    exact h.tokens.append h'.tokens
  stands t ht := by
    rcases List.mem_append.mp ht with ht | ht
    · obtain ⟨u, hu, htu⟩ := h.stands t ht
      exact ⟨u, List.mem_append_left _ hu, htu⟩
    · obtain ⟨u, hu, htu⟩ := h'.stands t ht
      exact ⟨u, List.mem_append_right _ hu, htu⟩

theorem left (h : Below ts us) (vs : List Tree) : Below (ts ++ vs) (us ++ vs) := h.append (.refl vs)

theorem right (vs : List Tree) (h : Below ts us) : Below (vs ++ ts) (vs ++ us) := (refl vs).append h

-- The children of a tree are parts of it.
theorem children (t : Tree) : Below t.children [t] where
  tokens := by
    cases t with
    | token s => exact List.nil_subperm
    | node kind offset children =>
        rw [List.flatMap_cons, List.flatMap_nil, List.append_nil]
        rw [tokens_eq_flatMap (t := node kind offset children) rfl]
  stands c hc := ⟨t, List.mem_cons_self, fun _ ht => ht.child hc⟩

theorem of_children (h : ts.Subperm t.children) : Below ts [t] := (of_subperm h).trans (.children t)

theorem flatMap {f : Tree → List Tree} (h : ∀ t ∈ us, Below (f t) [t]) : Below (us.flatMap f) us := by
  induction us with
  | nil => exact .nil []
  | cons t rest ih =>
      rw [List.flatMap_cons]
      exact (h t List.mem_cons_self).append (ih fun u hu => h u (List.mem_cons_of_mem t hu))

-- Parts of an optional part.
theorem getD {o : Option Tree} {f : Tree → List Tree} (h : ∀ t, o = some t → Below (f t) [t]) :
    Below ((o.map f).getD []) o.toList := by
  cases o with
  | none => exact .nil []
  | some t => exact h t rfl

end Below

end Tree

-- Sublists that are picked by properties of which an entry has one at most.
theorem filters_subperm {α : Type} (ps : List (α → Bool)) {l : List α}
    (h : ∀ x ∈ l, ps.countP (· x) ≤ 1) : (ps.flatMap (l.filter ·)).Subperm l := by
  induction l with
  | nil => simp
  | cons x rest ih =>
      obtain ⟨hx, hrest⟩ := List.forall_mem_cons.mp h
      have hpicked : (ps.flatMap fun p => if p x then [x] else []).Subperm [x] := by
        have hcopies :
            (ps.flatMap fun p => if p x then [x] else []) = List.replicate (ps.countP (· x)) x := by
          clear h hx hrest ih
          induction ps with
          | nil => rfl
          | cons p rest ih =>
              rw [List.flatMap_cons, ih, List.countP_cons]
              split <;> simp [List.replicate_succ]
        rw [hcopies]
        exact (List.replicate_sublist_replicate x |>.mpr hx).subperm
      have hsplit : (ps.flatMap fun p => if p x then [x] else []) ++ ps.flatMap (rest.filter ·) |>.Perm
          (ps.flatMap ((x :: rest).filter ·)) := by
        refine (List.flatMap_append_perm ps _ _).trans (.of_eq ?_)
        congr 1
        funext p
        rw [List.filter_cons]
        split <;> rfl
      exact hsplit.symm.subperm.trans (hpicked.append (ih hrest))

theorem perm_append_middle {α : Type} {l₁ l₂ l₃ l₄ : List α} :
    ((l₁ ++ l₂) ++ (l₃ ++ l₄)).Perm ((l₁ ++ l₃) ++ (l₂ ++ l₄)) := by
  rw [List.append_assoc, List.append_assoc]
  refine List.Perm.append_left l₁ ?_
  rw [← List.append_assoc, ← List.append_assoc]
  exact List.perm_append_comm.append_right l₄

theorem flatMap_filter {α β : Type} (p : α → Bool) (f : α → List β) (l : List α) :
    (l.filter p).flatMap f = l.flatMap fun x => if p x then f x else [] := by
  induction l with
  | nil => rfl
  | cons x rest ih =>
      rw [List.filter_cons, List.flatMap_cons, ← ih]
      split <;> rfl

-- The first entries of a list.
theorem toList_head? {α : Type} (l : List α) : l.head?.toList.Sublist l := by
  cases l with
  | nil => exact List.nil_sublist _
  | cons x rest => exact (List.nil_sublist rest).cons_cons x

theorem toList_first_second {α : Type} (l : List α) : (l.head?.toList ++ l[1]?.toList).Sublist l := by
  match l with
  | [] => exact List.nil_sublist _
  | [_] => exact List.Sublist.refl _
  | x :: y :: rest => exact ((List.nil_sublist rest).cons_cons y).cons_cons x

theorem toList_of_mem {α : Type} {o : Option α} {l : List α} (h : ∀ x, o = some x → x ∈ l) :
    o.toList.Sublist l := by
  cases o with
  | none => exact List.nil_sublist l
  | some x => exact List.singleton_sublist.mpr (h x rfl)

theorem toList_find? {α : Type} (p : α → Bool) (l : List α) : (l.find? p).toList.Sublist l :=
  toList_of_mem fun _ => List.mem_of_find?_eq_some

namespace Tree

-- The parts of a list of parameters that are types. Without any type the names are.
def typeParts (list : Tree) : List Tree :=
  if list.params.any (·.type?.isSome) then list.params.flatMap (·.type?.toList)
  else list.params.flatMap (·.name?.toList)

-- The parts that are names.
def nameParts (list : Tree) : List Tree :=
  if list.params.any (·.type?.isSome) then list.params.flatMap (·.name?.toList) else []

def resultParts (result : Tree) : List Tree :=
  result.type?.toList ++ (result.paramList?.map typeParts).getD []

-- The parts of a node with parameters and a result that make its signature.
def signatureParts (t : Tree) : List Tree :=
  (t.paramList?.map typeParts).getD [] ++ (t.result?.map resultParts).getD []

variable {t : Tree}

-- Children by their kinds, with the identifiers among them.
theorem subperm_children (ps : List (NodeKind → Bool)) (h : ∀ k, ps.countP (· k) ≤ 1) :
    (t.childTokens.map Tree.token ++ ps.flatMap t.childrenWith).Subperm t.children := by
  have htokens : t.childTokens.map Tree.token = t.children.filter (·.kind?.isNone) := by
    unfold childTokens
    generalize t.children = cs
    induction cs with
    | nil => rfl
    | cons c rest ih =>
        cases c with
        | token s =>
            rw [List.filter_cons_of_pos rfl, ← ih]
            rfl
        | node => rwa [List.filterMap_cons_none rfl, List.filter_cons_of_neg (by simp [kind?])]
  have hfilters := filters_subperm ((fun c => c.kind?.isNone) :: ps.map fun p c => c.kind?.any p)
    (l := t.children) fun c _ => by
      cases hkind : c.kind? with
      | none => simp [List.countP_map, hkind, Function.comp_def]
      | some k => simpa [List.countP_cons, List.countP_map, hkind, Function.comp_def] using h k
  rw [List.flatMap_cons, List.flatMap_map] at hfilters
  rw [htokens]
  exact hfilters

section Kinds

variable {p q p' q' : NodeKind → Bool}

-- Children of different kinds.
theorem below_kinds (ps : List (NodeKind → Bool)) (h : ∀ k, ps.countP (· k) ≤ 1) :
    Below (ps.flatMap t.childrenWith) [t] :=
  .of_children ((List.sublist_append_right _ _).subperm.trans (subperm_children ps h))

theorem below_two (h : ∀ k, [p, q].countP (· k) ≤ 1) : Below (t.childrenWith p ++ t.childrenWith q) [t] := by
  simpa using below_kinds _ h

theorem below_three (h : ∀ k, [p, q, p'].countP (· k) ≤ 1) :
    Below (t.childrenWith p ++ (t.childrenWith q ++ t.childrenWith p')) [t] := by
  simpa using below_kinds _ h

theorem below_four (h : ∀ k, [p, q, p', q'].countP (· k) ≤ 1) :
    Below (t.childrenWith p ++ (t.childrenWith q ++ (t.childrenWith p' ++ t.childrenWith q'))) [t] := by
  simpa using below_kinds _ h

theorem below_one (p : NodeKind → Bool) : Below (t.childrenWith p) [t] :=
  .of_children List.filter_sublist.subperm

theorem below_tokens : Below (t.childTokens.map Tree.token) [t] :=
  .of_children ((List.sublist_append_left _ _).subperm.trans (subperm_children [] (by simp)))

-- Children and tokens.
theorem below_one_tokens (p : NodeKind → Bool) :
    Below (t.childrenWith p ++ t.childTokens.map Tree.token) [t] := by
  have h := subperm_children (t := t) [p] fun k => List.countP_le_length
  rw [List.flatMap_cons, List.flatMap_nil, List.append_nil] at h
  exact .of_children (List.perm_append_comm.subperm.trans h)

theorem below_first (p : NodeKind → Bool) : Below (t.childWith? p).toList (t.childrenWith p) := by
  rw [childWith?, ← List.head?_filter]
  exact .of_sublist (toList_head? _)

theorem below_child? (p : NodeKind → Bool) : Below (t.childWith? p).toList [t] :=
  (below_first p).trans (below_one p)

theorem below_of_child? {c : Tree} (h : t.childWith? p = some c) : Below [c] [t] := by
  have hbelow := t.below_child? p
  rwa [h] at hbelow

end Kinds

section Access

theorem below_ident? : Below (t.ident?.toList.map Tree.token) (t.childTokens.map Tree.token) :=
  .of_sublist ((toList_find? _ _).map _)

-- The token of a name that is a part.
theorem below_ident {s : Token} (h : t.ident? = some s) : Below [.token s] [t] := by
  have hbelow := t.below_ident?.trans below_tokens
  rwa [h] at hbelow

theorem below_idents (ts : List Tree) : Below ((ts.filterMap ident?).map Tree.token) ts := by
  induction ts with
  | nil => exact .nil []
  | cons t rest ih =>
      cases hident : t.ident? with
      | none =>
          rw [List.filterMap_cons_none hident]; exact ih.trans (.of_sublist (List.sublist_cons_self t rest))
      | some s =>
          rw [List.filterMap_cons_some hident]
          exact (below_ident hident).append ih

theorem below_operands : Below (t.expr?.toList ++ t.secondExpr?.toList) t.exprs := by
  rw [expr?, childWith?, ← List.head?_filter]
  exact .of_sublist (toList_first_second _)

theorem below_typePair : Below (t.type?.toList ++ t.secondType?.toList) (t.childrenWith NodeKind.isType) := by
  rw [type?, childWith?, ← List.head?_filter]
  exact .of_sublist (toList_first_second _)

-- The base of a selector and the name behind the dot.
theorem below_selector : Below (t.expr?.toList ++ t.ident?.toList.map Tree.token) [t] :=
  ((below_first _).append below_ident?).trans (below_one_tokens _)

-- The names in a type.
theorem below_typeRef : Below ((t.qualifier?.toList ++ t.typeName?.toList).map Tree.token) [t] := by
  refine Below.trans (.of_sublist (List.Sublist.map _ ?_)) below_tokens
  refine List.Sublist.trans ?_ (List.filter_sublist (p := (·.kind == .ident)))
  change (t.qualifier?.toList ++ t.typeName?.toList).Sublist (t.tokensOf .ident)
  unfold qualifier? typeName?
  split
  · rename_i htokens
    rw [htokens]
    exact List.Sublist.refl _
  · exact toList_of_mem fun _ => List.mem_of_getLast?

theorem below_listed (index : Nat) : Below (t.listed index) (t.childrenOf .exprList) :=
  (Below.getD fun _ _ => below_one _).trans (.of_sublist (toList_of_mem fun _ => List.mem_of_getElem?))

-- The two sides of an assignment.
theorem below_sides : Below (t.listed 0 ++ t.listed 1) [t] := by
  have hsides : Below (t.listed 0 ++ t.listed 1)
      ((t.childrenOf .exprList)[0]?.toList ++ (t.childrenOf .exprList)[1]?.toList) :=
    (Below.getD fun _ _ => below_one _).append (.getD fun _ _ => below_one _)
  rw [← List.head?_eq_getElem?] at hsides
  exact hsides.trans ((Below.of_sublist (toList_first_second _)).trans (below_one _))

theorem below_bind_ident? {s : Token} {p : NodeKind → Bool} (h : (t.childWith? p).bind ident? = some s) :
    Below [.token s] (t.childWith? p).toList := by
  obtain ⟨c, hc, hident⟩ := Option.bind_eq_some_iff.mp h
  rw [hc]
  exact below_ident hident

-- Parameters: types, and the names in front of them.
theorem below_params (list : Tree) : Below (list.typeParts ++ list.nameParts) [list] := by
  unfold typeParts nameParts
  split
  · refine Below.trans (.of_perm (List.flatMap_append_perm _ _ _))
      ((Below.flatMap fun param _ => ?_).trans (below_one _))
    exact ((below_first _).append (below_first _)).trans (below_two fun k => by cases k <;> decide)
  · rw [List.append_nil]
    exact (Below.flatMap fun param _ => below_child? _).trans (below_one _)

theorem below_typeParts (list : Tree) : Below list.typeParts [list] :=
  (Below.of_sublist (List.sublist_append_left _ _)).trans list.below_params

theorem below_resultParts (result : Tree) : Below result.resultParts [result] :=
  ((below_first _).append ((Below.getD fun list _ => list.below_typeParts).trans (below_first _))).trans
    (below_two fun k => by cases k <;> decide)

theorem below_signature : Below t.signatureParts (t.paramList?.toList ++ t.result?.toList) :=
  (Below.getD fun list _ => list.below_typeParts).append (.getD fun result _ => result.below_resultParts)

theorem below_signatureParts : Below t.signatureParts [t] :=
  t.below_signature.trans (((below_first _).append (below_first _)).trans
    (below_two fun k => by cases k <;> decide))

-- The parts of a method in an interface.
theorem below_methodSpec : Below (t.signatureParts ++ t.name?.toList) [t] := by
  refine (t.below_signature.left _).trans ?_
  rw [List.append_assoc]
  exact ((below_first _).append ((below_first _).append (below_first _))).trans
    (below_three fun k => by cases k <;> decide)

-- The parts of a field in a struct.
theorem below_fieldDecl : Below (t.type?.toList ++ t.names) [t] :=
  ((below_first _).left _).trans (below_two fun k => by cases k <;> decide)

-- The parts of an element with a key, and of what has two operands.
theorem below_pair : Below (t.expr?.toList ++ t.secondExpr?.toList) [t] := below_operands.trans (below_one _)

-- What is called, and the arguments.
theorem below_call : Below (t.expr?.toList ++ t.args) [t] :=
  ((below_first _).append ((Below.getD fun _ _ => below_one _).trans (below_first _))).trans
    (below_two fun k => by cases k <;> decide)

-- The type of a literal, and its elements.
theorem below_composite : Below (t.literalType?.toList ++ (t.literalBody?.map elements).getD []) [t] := by
  have htype : Below t.literalType?.toList (t.childrenWith fun k => k.isType || k.isExpr) := by
    refine .of_sublist (toList_of_mem fun named hnamed => ?_)
    obtain ⟨hhead, hkind⟩ := Option.filter_eq_some_iff.mp hnamed
    refine List.mem_filter.mpr ⟨(List.mem_filter.mp (List.mem_of_head? hhead)).1, ?_⟩
    unfold isType isExpr at hkind
    cases hk : named.kind? with
    | none => simp [hk] at hkind
    | some k => simpa [hk] using hkind
  have hbody : Below ((t.literalBody?.map elements).getD []) (t.childrenOf .litBody) :=
    (Below.getD fun _ _ => below_one _).trans (below_first _)
  exact (htype.append hbody).trans (below_two fun k => by cases k <;> decide)

theorem below_elements : Below ((t.literalBody?.map elements).getD []) [t] :=
  (Below.of_sublist (List.sublist_append_right _ _)).trans t.below_composite

-- The parameters of a lambda, and its body.
theorem below_lambda : Below (t.lambdaParams ++ (t.block?.toList ++ t.expr?.toList)) [t] :=
  (((Below.getD fun _ _ => below_one _).trans (below_first _)).append
    ((below_first _).append (below_first _))).trans (below_three fun k => by cases k <;> decide)

-- The names of the parameters and results.
def signatureNames (t : Tree) : List Tree :=
  (t.paramList?.map nameParts).getD [] ++ ((t.result?.bind paramList?).map nameParts).getD []

theorem below_signatureNames :
    Below (t.signatureParts ++ t.signatureNames) (t.paramList?.toList ++ t.result?.toList) := by
  have hparams : Below ((t.paramList?.map typeParts).getD [] ++ (t.paramList?.map nameParts).getD [])
      t.paramList?.toList := by
    cases t.paramList? with
    | none => exact .nil []
    | some list => exact list.below_params
  have hresults :
      Below ((t.result?.map resultParts).getD [] ++ ((t.result?.bind paramList?).map nameParts).getD [])
      t.result?.toList := by
    cases t.result? with
    | none => exact .nil []
    | some result =>
        refine Below.trans ?_ (below_two (p := NodeKind.isType)
          (q := (· == .paramList)) fun k => by cases k <;> decide)
        change Below (result.resultParts ++ ((result.paramList?.map nameParts).getD [])) _
        unfold resultParts
        rw [List.append_assoc]
        refine (below_first _).append (Below.trans ?_ (below_first _))
        change Below _ result.paramList?.toList
        cases result.paramList? with
        | none => exact .nil []
        | some list => exact list.below_params
  exact (Below.of_perm perm_append_middle).trans (hparams.append hresults)

end Access

section Statements

-- A specification: its type and values, and the names.
theorem below_spec : Below ((t.type?.toList ++ t.listed 0) ++ t.names) [t] := by
  rw [List.append_assoc]
  exact ((below_first _).append ((below_listed 0).left _)).trans (below_three fun k => by cases k <;> decide)

-- The node that is the other branch.
def elseParts (t : Tree) : List Tree :=
  match t.elseBranch? with
  | some (.ifStmt nested) => [nested]
  | some (.block block) => [block]
  | none => []

theorem below_branches :
    Below (t.block?.toList ++ t.elseParts) (t.childrenOf .block ++ t.childrenOf .ifStmt) := by
  unfold elseParts elseBranch?
  cases hnested : t.child? .ifStmt with
  | some nested =>
      have hbelow := t.below_first (· == .ifStmt)
      rw [show t.childWith? (· == .ifStmt) = some nested from hnested] at hbelow
      exact (below_first _).append hbelow
  | none =>
      refine Below.trans ?_ (.of_sublist (List.sublist_append_left _ _))
      have hblocks := toList_first_second (t.childrenOf .block)
      rw [show (t.childrenOf .block).head? = t.block? from List.head?_filter ..] at hblocks
      cases hother : (t.childrenOf .block)[1]? with
      | some block =>
          rw [hother] at hblocks
          exact .of_sublist hblocks
      | none =>
          rw [hother] at hblocks
          exact .of_sublist hblocks

theorem below_if :
    Below (t.simpleStatement?.toList ++ (t.expr?.toList ++ (t.block?.toList ++ t.elseParts))) [t] :=
  ((below_first _).append ((below_first _).append below_branches)).trans
    (below_four fun k => by cases k <;> decide)

-- The parts between the semicolons.
theorem toList_segments (ts : List Tree) :
    ((segment? 0 ts).toList ++ ((segment? 1 ts).toList ++ (segment? 2 ts).toList)).Sublist ts := by
  induction ts with
  | nil => exact List.Sublist.refl _
  | cons c rest ih =>
      cases c with
      | node kind offset children => exact ((List.sublist_append_right _ _).trans ih).cons_cons _
      | token s =>
          simp only [segment?]
          split
          · refine List.Sublist.cons _ (List.Sublist.trans ?_ ih)
            rw [Option.toList_none, List.nil_append, ← List.append_assoc]
            exact List.sublist_append_left _ _
          · exact ih.cons _

theorem toList_filter {α : Type} (o : Option α) (p : α → Bool) : (o.filter p).toList.Sublist o.toList := by
  cases o with
  | none => exact List.Sublist.refl _
  | some x =>
      rw [Option.filter_some]
      split
      · exact List.Sublist.refl _
      · exact List.nil_sublist _

theorem below_forClause : Below (t.forInit?.toList ++ (t.forCondition?.toList ++ t.forPost?.toList)) [t] :=
  .of_children (((toList_filter _ _).append ((toList_filter _ _).append (toList_filter _ _))).trans
    (toList_segments t.children)).subperm

theorem below_rangeClause : Below (t.expr?.toList ++ t.listed 0) [t] :=
  ((below_first _).append (below_listed 0)).trans (below_two fun k => by cases k <;> decide)

theorem below_for :
    Below ((t.child? .forClause).toList ++
      ((t.child? .rangeClause).toList ++ (t.expr?.toList ++ t.block?.toList))) [t] :=
  ((below_first _).append ((below_first _).append ((below_first _).append (below_first _)))).trans
    (below_four fun k => by cases k <;> decide)

theorem below_switch :
    Below (t.simpleStatement?.toList ++ (t.expr?.toList ++ t.childrenOf .caseClause)) [t] :=
  ((below_first _).append ((below_first _).left _)).trans (below_three fun k => by cases k <;> decide)

theorem sublist_clauseStatements : t.clauseStatements.Sublist t.statements := by
  unfold clauseStatements
  split
  · exact List.filter_sublist
  · exact List.nil_sublist _

theorem below_caseClause : Below (t.listed 0 ++ t.clauseStatements) [t] :=
  ((below_listed 0).append (.of_sublist sublist_clauseStatements)).trans
    (below_two fun k => by cases k <;> decide)

-- What a clause waits for stands before the colon, and what it does behind.
theorem below_commClause {text : String} (h : t.StandsIn text) :
    Below (t.commStatement?.toList ++ t.clauseStatements) [t] := by
  unfold commStatement? clauseStatements
  cases hcolon : t.tokenOf? .colon with
  | none => exact .nil _
  | some colon =>
      have hbefore : ((t.childNodes.filter (·.stop ≤ colon.offset)).find? fun n =>
          n.kind?.any NodeKind.isSimpleStatement).toList.Sublist
            (t.children.filter (·.stop ≤ colon.offset)) :=
        (toList_find? _ _).trans (List.filter_sublist.filter _)
      have hbehind :
          (t.statements.filter (colon.stop ≤ ·.start)).Sublist (t.children.filter (colon.stop ≤ ·.start)) :=
        List.filter_sublist.filter _
      have hfilters := filters_subperm
        [fun c => decide (c.stop ≤ colon.offset), fun c => decide (colon.stop ≤ c.start)]
        (l := t.children) fun c hc => by
          have hordered : c.start ≤ c.stop := (h.child hc).lies.fitsIn.ordered
          have hlong : colon.offset < colon.stop := by
            have hmem := h.tokens (childTokens_subset t (List.mem_of_find?_eq_some hcolon))
            have hpos : colon.text.utf8ByteSize ≠ 0 := fun hempty =>
              Check.text_ne_empty hmem (String.utf8ByteSize_eq_zero_iff.mp hempty)
            unfold Token.stop
            omega
          simp only [List.countP_cons, List.countP_nil, decide_eq_true_eq]
          split <;> split <;> omega
      rw [List.flatMap_cons, List.flatMap_cons, List.flatMap_nil, List.append_nil] at hfilters
      exact .of_children ((hbefore.append hbehind).subperm.trans hfilters)

end Statements

section Declarations

theorem below_childToken {s : Token} (h : s ∈ t.childTokens) : Below [.token s] [t] :=
  (Below.of_sublist (List.singleton_sublist.mpr (List.mem_map_of_mem h))).trans below_tokens

-- The name of a type behind pointers.
theorem below_embeddedName? {s : Token} (h : Check.embeddedName? t = some s) : Below [.token s] [t] := by
  unfold Check.embeddedName? at h
  generalize t.height + 1 = fuel at h
  induction fuel generalizing t with
  | zero => cases h
  | succ fuel ih =>
      unfold Check.embeddedName?.go at h
      split at h
      · exact below_childToken (List.mem_filter.mp (List.mem_of_getLast? h)).1
      · obtain ⟨c, hc, hname⟩ := Option.bind_eq_some_iff.mp h
        exact (ih hname).trans (below_of_child? hc)
      · cases h

-- Where a receiver names its type.
def receiverType (t : Tree) : List Tree :=
  match t.receiver?.bind (·.child? .param) with
  | some param => if param.type?.isSome then param.type?.toList else param.name?.toList
  | none => []

-- The name of a receiver that has a type besides.
def receiverName (t : Tree) : List Tree :=
  match t.receiver?.bind (·.child? .param) with
  | some param => if param.type?.isSome then param.name?.toList else []
  | none => []

theorem below_receiver : Below (t.receiverType ++ t.receiverName) t.receiver?.toList := by
  unfold receiverType receiverName
  cases hreceiver : t.receiver? with
  | none => exact .nil _
  | some receiver =>
      rw [Option.bind_some]
      cases hparam : receiver.child? .param with
      | none => exact .nil _
      | some param =>
          refine Below.trans ?_ (below_of_child? hparam)
          dsimp only
          split
          · exact ((below_first _).append (below_first _)).trans (below_two fun k => by cases k <;> decide)
          · rw [List.append_nil]
            exact below_child? _

-- What is found out of a function when it is declared, and what in its body.
def headParts (t : Tree) : List Tree := t.name?.toList ++ (t.receiverType ++ t.signatureParts)

def bodyParts (t : Tree) : List Tree :=
  t.receiverName ++ (t.signatureNames ++ (t.block?.map statements).getD [])

theorem below_funcDecl : Below (t.headParts ++ t.bodyParts) [t] := by
  have hparts : Below (t.headParts ++ t.bodyParts)
      (t.name?.toList ++ (t.receiver?.toList ++
        ((t.paramList?.toList ++ t.result?.toList) ++ t.block?.toList))) := by
    have hstatements : Below ((t.block?.map statements).getD []) t.block?.toList :=
      .getD fun _ _ => below_one _
    unfold headParts bodyParts
    rw [List.append_assoc]
    refine .right _ (Below.trans (.of_perm perm_append_middle) (below_receiver.append ?_))
    rw [← List.append_assoc]
    exact below_signatureNames.append hstatements
  refine hparts.trans (Below.trans ((below_first _).append ((below_first _).append
    (((below_first _).append (below_first _)).append (below_first _)))) ?_)
  have hkinds := below_kinds (t := t)
    [(· == .name), (· == .receiver), (· == .paramList), (· == .result), (· == .block)] fun k => by
      cases k <;> decide
  simpa only [List.flatMap_cons, List.flatMap_nil, List.append_nil, List.append_assoc] using hkinds

-- A declared type: its name, and what is put off.
def typeDeclParts (t : Tree) : List Tree := t.name?.toList ++ t.type?.toList

theorem below_typeDecl : Below t.typeDeclParts [t] :=
  ((below_first _).append (below_first _)).trans (below_two fun k => by cases k <;> decide)

-- The steps of the check look at different parts of an item: one for types, one for the other
-- declarations, and one for what is done.
def typeStepParts (item : Tree) : List Tree :=
  match item.kind? with
  | some .typeDecl => item.typeDeclParts
  | _ => []

def memberStepParts (item : Tree) : List Tree :=
  match item.kind? with
  | some .importDecl | some .varDecl | some .constDecl => [item]
  | some .funcDecl => item.headParts
  | _ => []

def bodyStepParts (item : Tree) : List Tree :=
  match item.kind? with
  | some .funcDecl => item.bodyParts
  | some .importDecl | some .varDecl | some .constDecl | some .typeDecl => []
  | _ => [item]

theorem below_item (item : Tree) :
    Below (item.typeStepParts ++ (item.memberStepParts ++ item.bodyStepParts)) [item] := by
  unfold typeStepParts memberStepParts bodyStepParts
  cases item.kind? with
  | none => exact .refl _
  | some k =>
      cases k with
      | typeDecl =>
          dsimp only [List.nil_append]
          rw [List.append_nil]
          exact below_typeDecl
      | funcDecl => exact below_funcDecl
      | _ => exact .refl _

-- A file is looked through three times.
theorem below_file (root : Tree) :
    Below ((root.childrenOf .typeDecl).flatMap typeDeclParts ++
      (root.items.flatMap memberStepParts ++ root.items.flatMap bodyStepParts)) [root] := by
  have htypes : (root.childrenOf .typeDecl).flatMap typeDeclParts = root.items.flatMap typeStepParts := by
    unfold childrenOf items childrenWith
    rw [flatMap_filter, flatMap_filter]
    congr 1
    funext c
    unfold typeStepParts
    cases c.kind? with
    | none => rfl
    | some k => cases k <;> rfl
  rw [htypes]
  refine Below.trans (.of_perm (((List.flatMap_append_perm _ _ _).append_left _).trans
    (List.flatMap_append_perm _ _ _))) ?_
  exact (Below.flatMap fun item _ => item.below_item).trans (root.below_one _)

end Declarations

end Tree

end SpriteScript
