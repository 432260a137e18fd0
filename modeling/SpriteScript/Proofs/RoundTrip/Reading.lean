import SpriteScript.Proofs.Accessors
import SpriteScript.Proofs.RoundTrip.Words

-- Which trees are read as an expression: what counts among their children decides.
namespace SpriteScript.RoundTrip

open Grammar

section Nodes

variable {t u v : Tree} {cs inner : List Tree} {offset : Nat} {kind : NodeKind} {e l r : Expr}

theorem Reads.isExpr (h : Reads t e) : t.isExpr = true := by
  cases h <;> simp_all [Tree.isExpr, NodeKind.isExpr]

theorem Reads.token?_eq_none (h : Reads t e) : t.token? = none := Tree.token?_of_any h.isExpr

theorem exprs_node : (Tree.node kind offset cs).exprs = (solid cs).filter Tree.isExpr :=
  Tree.childrenWith_eq_solid

theorem expr?_node : (Tree.node kind offset cs).expr? = ((solid cs).filter Tree.isExpr).head? := by
  rw [← exprs_node]
  exact Tree.childWith?_eq_head?

theorem secondExpr?_node :
    (Tree.node kind offset cs).secondExpr? = ((solid cs).filter Tree.isExpr)[1]? := by
  rw [← exprs_node]
  rfl

-- The first token of a class without blanks.
theorem find?_childTokens {q : Token → Bool} (hq : ∀ s, q s = true → s.kind.isTrivia = false) :
    (Tree.node kind offset cs).childTokens.find? q = ((solid cs).filterMap Tree.token?).find? q := by
  rw [← List.head?_filter, Tree.filter_childTokens hq, List.head?_filter]
  rfl

theorem isExpr_token (s : Token) : (Tree.token s).isExpr = false := rfl

theorem reads_name {s : Token} {x : Ident} (hs : s.word = ⟨.ident, x.text⟩)
    (hcs : solid cs = [.token s]) : Reads (.node .nameRef offset cs) (.name x) := by
  obtain ⟨kind, text, place⟩ := s
  obtain ⟨rfl, rfl⟩ : kind = .ident ∧ text = x.text := by simpa [Token.word] using hs
  refine .name rfl ?_
  rw [Tree.identText?, Tree.ident?, Tree.tokenOf?,
    find?_childTokens fun s hs => by rw [beq_iff_eq.mp hs]; rfl, hcs]
  rfl

theorem reads_number {s : Token} {n : Digits} (hs : s.word = ⟨.int, n.text⟩)
    (hcs : solid cs = [.token s]) : Reads (.node .literal offset cs) (.number n) := by
  obtain ⟨kind, text, place⟩ := s
  obtain ⟨rfl, rfl⟩ : kind = .int ∧ text = n.text := by simpa [Token.word] using hs
  have hliteral : ∀ s : Token, s.kind.isLiteral = true → s.kind.isTrivia = false := by
    intro s hs
    cases hkind : s.kind <;> simp_all [TokenKind.isLiteral, TokenKind.isTrivia]
  have htoken : (Tree.node .literal offset cs).literalToken? = some ⟨.int, n.text, place⟩ := by
    rw [Tree.literalToken?, find?_childTokens hliteral, hcs]
    rfl
  exact .number rfl (by rw [Tree.literalKind?, htoken]; rfl) (by rw [htoken]; rfl)

theorem reads_paren {s s' : Token} (hu : Reads u e)
    (hcs : solid cs = [.token s, u, .token s']) : Reads (.node .parenExpr offset cs) (.paren e) := by
  refine .paren rfl ?_ hu
  simp [expr?_node, hcs, hu.isExpr, isExpr_token]

theorem reads_unary {s : Token} {op : UnaryOp} (hs : s.word = op.word) (hu : Reads u e)
    (hcs : cs = .token s :: inner) (hinner : solid inner = [u]) :
    Reads (.node .unaryExpr offset cs) (.unary op e) := by
  have hkind : s.kind = op.word.kind := congrArg Word.kind hs
  subst hcs
  refine .unary rfl ?_ ?_ hu
  · simp [Tree.unaryOp?, Tree.tokens, Tree.tokens.tokensOfAll, hkind]
  · have hsolid : (solid (.token s :: inner)).filter Tree.isExpr = [u] := by
      rw [← List.singleton_append, solid_append, List.filter_append, hinner]
      have hnone : (solid [Tree.token s]).filter Tree.isExpr = [] :=
        List.filter_eq_nil_iff.mpr fun c hc => by
          obtain rfl : c = .token s := List.mem_singleton.mp (List.mem_of_mem_filter hc)
          simp [isExpr_token]
      simp [hnone, hu.isExpr]
    rw [expr?_node, hsolid]
    rfl

theorem isPunct_binary (op : BinaryOp) : op.word.kind.isPunct = true := by
  cases op <;> decide

theorem reads_binary {s : Token} {op : BinaryOp} (hs : s.word = op.word) (hu : Reads u l)
    (hv : Reads v r) (hcs : solid cs = [u, .token s, v]) :
    Reads (.node .binaryExpr offset cs) (.binary op l r) := by
  have hkind : s.kind = op.word.kind := congrArg Word.kind hs
  have hexprs : (solid cs).filter Tree.isExpr = [u, v] := by
    simp [hcs, hu.isExpr, hv.isExpr, isExpr_token]
  refine .binary rfl (by rw [expr?_node, hexprs]; rfl) ?_
    (by rw [secondExpr?_node, hexprs]; rfl) hu hv
  have hpunct : ∀ s : Token, s.kind.isPunct = true → s.kind.isTrivia = false := by
    intro s hs
    cases hkind : s.kind <;> simp_all [TokenKind.isTrivia] <;> exact absurd hs (by decide)
  rw [Tree.binaryOp?, Tree.binaryOpToken?, find?_childTokens hpunct, hcs]
  simp [hu.token?_eq_none, hkind, isPunct_binary op]

theorem reads_selector {s s' : Token} {x : Ident} (hs : s.kind = .dot)
    (hs' : s'.word = ⟨.ident, x.text⟩) (hu : Reads u e)
    (hcs : solid cs = [u, .token s, .token s']) :
    Reads (.node .selectorExpr offset cs) (.selector e x) := by
  obtain ⟨kind, text, place⟩ := s'
  obtain ⟨rfl, rfl⟩ : kind = .ident ∧ text = x.text := by simpa [Token.word] using hs'
  refine .selector rfl (by simp [expr?_node, hcs, hu.isExpr]) ?_ hu
  rw [Tree.identText?, Tree.ident?, Tree.tokenOf?,
    find?_childTokens fun s hs => by rw [beq_iff_eq.mp hs]; rfl, hcs]
  simp [hu.token?_eq_none, hs]

theorem reads_index {s s' : Token} (hu : Reads u l) (hv : Reads v r)
    (hcs : solid cs = [u, .token s, v, .token s']) :
    Reads (.node .indexExpr offset cs) (.index l r) := by
  have hexprs : (solid cs).filter Tree.isExpr = [u, v] := by
    simp [hcs, hu.isExpr, hv.isExpr, isExpr_token]
  exact .index rfl (by rw [expr?_node, hexprs]; rfl) (by rw [secondExpr?_node, hexprs]; rfl) hu hv

-- A row of trees that is a list of arguments, whatever tokens stand between them.
structure Lists (ts : List Tree) (args : List Expr) : Prop where
  reads : ReadsAll ((solid ts).filter Tree.isExpr) args
  noSpread : (solid ts).any (·.isTok .ellipsis) = false

theorem ReadsAll.append {ts us : List Tree} {es fs : List Expr} (h : ReadsAll ts es)
    (h' : ReadsAll us fs) : ReadsAll (ts ++ us) (es ++ fs) := by
  induction ts generalizing es with
  | nil =>
      cases h
      exact h'
  | cons t ts ih =>
      cases h with
      | cons ht hts => exact .cons ht (ih hts)

theorem Lists.append {ts us : List Tree} {es fs : List Expr} (h : Lists ts es) (h' : Lists us fs) :
    Lists (ts ++ us) (es ++ fs) where
  reads := by
    rw [solid_append, List.filter_append]
    exact h.reads.append h'.reads
  noSpread := by rw [solid_append, List.any_append, h.noSpread, h'.noSpread]; rfl

theorem Lists.nil (h : solid cs = []) : Lists cs [] := ⟨by rw [h]; exact .nil, by rw [h]; rfl⟩

theorem Lists.token {s : Token} (hs : s.kind ≠ .ellipsis) (h : solid cs = [.token s]) :
    Lists cs [] where
  reads := by rw [h]; exact .nil
  noSpread := by simpa [h, Tree.isTok] using hs

theorem Lists.one (hu : Reads u e) (h : solid cs = [u]) : Lists cs [e] where
  reads := by simpa [h, hu.isExpr] using .cons hu .nil
  noSpread := by simp [h, Tree.isTok, hu.token?_eq_none]

theorem reads_call {args : List Expr} (hu : Reads u e) {place : Nat}
    (hcs : solid cs = [u, .node .argList place inner]) (hinner : Lists inner args) :
    Reads (.node .callExpr offset cs) (.call e args) := by
  have hargList : (Tree.node .callExpr offset cs).argList? = some (.node .argList place inner) := by
    have hnot : u.isA .argList = false := Tree.isA_of_any hu.isExpr rfl
    have hself : (Tree.node .argList place inner).isA .argList = true := rfl
    rw [Tree.argList?, Tree.child?, Tree.childWith?_eq_head?, ← Tree.childrenOf,
      Tree.childrenOf_eq_solid, Tree.children_node, hcs]
    simp only [List.filter_cons, hnot, hself, Bool.false_eq_true, if_false, if_true, List.head?_cons]
  refine .call rfl ?_ hu ?_ ?_
  · rw [expr?_node, hcs]
    simp [hu.isExpr]
  · rw [Tree.args, hargList]
    simpa [exprs_node] using hinner.reads
  · rw [hargList, Option.map_some, Tree.hasSpread, Tree.has_eq rfl]
    simpa using hinner.noSpread

theorem Ident.ext : {x y : Ident} → x.text = y.text → x = y
  | ⟨_, _, _, htext, _, _, _⟩, ⟨_, _, _, htext', _, _, _⟩, h => by
      subst h
      obtain ⟨rfl, rfl⟩ := List.cons.inj (htext.symm.trans htext')
      rfl

theorem Digits.ext : {n m : Digits} → n.text = m.text → n = m
  | ⟨_, _, _⟩, ⟨_, _, _⟩, h => by
      subst h
      rfl

theorem UnaryOp.word_injective {op op' : UnaryOp} (h : op.word.kind = op'.word.kind) : op = op' := by
  revert h
  cases op <;> cases op' <;> decide

theorem BinaryOp.word_injective {op op' : BinaryOp} (h : op.word.kind = op'.word.kind) :
    op = op' := by
  revert h
  cases op <;> cases op' <;> decide

-- The kind of the nodes that are read as an expression of this form.
def Expr.nodeKind : Expr → NodeKind
  | name _ => .nameRef
  | number _ => .literal
  | paren _ => .parenExpr
  | unary .. => .unaryExpr
  | binary .. => .binaryExpr
  | selector .. => .selectorExpr
  | call .. => .callExpr
  | index .. => .indexExpr

theorem Reads.kind?_eq (h : Reads t e) : t.kind? = some e.nodeKind := by
  cases h <;> assumption

end Nodes

theorem some_unique {α : Type} {x? : Option α} {x y : α} (hx : x? = some x) (hy : x? = some y) :
    x = y :=
  Option.some.inj (hx.symm.trans hy)

mutual

-- A tree is read in one way only.
theorem Reads.unique {t : Tree} {e e' : Expr} (h : Reads t e) (h' : Reads t e') : e = e' := by
  have hkind : e.nodeKind = e'.nodeKind := some_unique h.kind?_eq h'.kind?_eq
  cases h with
  | name _ hident =>
      cases h' with
      | name _ hident' => rw [Ident.ext (some_unique hident hident')]
      | _ => exact absurd hkind (by simp [Expr.nodeKind])
  | number _ _ htoken =>
      cases h' with
      | number _ _ htoken' => rw [Digits.ext (some_unique htoken htoken')]
      | _ => exact absurd hkind (by simp [Expr.nodeKind])
  | paren _ hinner hu =>
      cases h' with
      | paren _ hinner' hu' =>
          obtain rfl := some_unique hinner hinner'
          rw [hu.unique hu']
      | _ => exact absurd hkind (by simp [Expr.nodeKind])
  | unary _ hop hoperand hu =>
      cases h' with
      | unary _ hop' hoperand' hu' =>
          obtain rfl := some_unique hoperand hoperand'
          rw [UnaryOp.word_injective (some_unique hop hop'), hu.unique hu']
      | _ => exact absurd hkind (by simp [Expr.nodeKind])
  | binary _ hlhs hop hrhs hu hv =>
      cases h' with
      | binary _ hlhs' hop' hrhs' hu' hv' =>
          obtain rfl := some_unique hlhs hlhs'
          obtain rfl := some_unique hrhs hrhs'
          rw [BinaryOp.word_injective (some_unique hop hop'), hu.unique hu', hv.unique hv']
      | _ => exact absurd hkind (by simp [Expr.nodeKind])
  | selector _ hbase hmember hu =>
      cases h' with
      | selector _ hbase' hmember' hu' =>
          obtain rfl := some_unique hbase hbase'
          rw [Ident.ext (some_unique hmember hmember'), hu.unique hu']
      | _ => exact absurd hkind (by simp [Expr.nodeKind])
  | call _ hcallee hu hargs =>
      cases h' with
      | call _ hcallee' hu' hargs' =>
          obtain rfl := some_unique hcallee hcallee'
          rw [hu.unique hu', hargs.unique hargs']
      | _ => exact absurd hkind (by simp [Expr.nodeKind])
  | index _ hbase hkey hu hv =>
      cases h' with
      | index _ hbase' hkey' hu' hv' =>
          obtain rfl := some_unique hbase hbase'
          obtain rfl := some_unique hkey hkey'
          rw [hu.unique hu', hv.unique hv']
      | _ => exact absurd hkind (by simp [Expr.nodeKind])

theorem ReadsAll.unique {ts : List Tree} {es es' : List Expr} (h : ReadsAll ts es)
    (h' : ReadsAll ts es') : es = es' := by
  cases h with
  | nil =>
      cases h'
      rfl
  | cons ht hts =>
      cases h' with
      | cons ht' hts' => rw [ht.unique ht', hts.unique hts']

end

end SpriteScript.RoundTrip
