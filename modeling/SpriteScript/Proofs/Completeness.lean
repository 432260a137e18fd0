import Mathlib
import SpriteScript.Proofs.Accessors
import SpriteScript.Proofs.Precedence

-- In the tree of a text without syntax errors the accessors of a node find its parts.
namespace SpriteScript

namespace Tree

open Grammar

-- An operand, an operator and another operand, in the order of the text.
def hasOperands (t : Tree) : Bool :=
  match t.expr?, t.binaryOpToken?, t.secondExpr? with
  | some lhs, some op, some rhs =>
      (Syntax.binaryPower? op.kind).isSome && lhs.stop ≤ op.offset && op.stop ≤ rhs.start
  | _, _, _ => false

-- Whether a node of the kind has the parts that its kind needs, as its accessors find them.
def hasParts (t : Tree) : NodeKind → Bool
  | .error => false
  -- declarations
  | .packageClause => t.name?.isSome
  | .importSpec => t.pathToken?.isSome
  | .varSpec | .constSpec => !t.names.isEmpty
  | .typeDecl => t.name?.isSome && t.type?.isSome
  | .funcDecl | .methodSpec => t.name?.isSome && t.paramList?.isSome
  | .receiver => !t.params.isEmpty
  | .param => t.name?.isSome || t.type?.isSome
  | .result => t.paramList?.isSome || t.type?.isSome
  | .name | .nameRef => t.ident?.isSome
  -- types
  | .typeRef => t.typeName?.isSome
  | .pointerType | .sliceType | .chanType | .fieldDecl => t.type?.isSome
  | .mapType => t.type?.isSome && t.secondType?.isSome
  | .funcType => t.paramList?.isSome
  -- statements
  | .exprStmt | .incDecStmt => t.expr?.isSome
  | .assignStmt => t.assignOp?.isSome && !(t.listed 0).isEmpty && !(t.listed 1).isEmpty
  | .defineStmt => !(t.listed 0).isEmpty && !(t.listed 1).isEmpty
  | .sendStmt => t.expr?.isSome && t.secondExpr?.isSome
  | .ifStmt => t.expr?.isSome && t.block?.isSome && t.elseBranch?.isSome == t.has .elseKw
  | .forStmt => t.block?.isSome
  | .forClause => (t.tokensOf .semicolon).length == 2
  | .rangeClause => t.expr?.isSome
  | .caseClause => t.isDefault != !(t.listed 0).isEmpty
  | .commClause => t.isDefault != t.commStatement?.isSome
  | .exprList => !t.exprs.isEmpty
  -- expressions
  | .literal => t.literalKind?.isSome
  | .parenExpr => t.expr?.isSome
  | .selectorExpr => t.expr?.isSome && t.has .dot && t.ident?.isSome
  | .callExpr | .commandCall => t.expr?.isSome && t.argList?.isSome
  | .indexExpr => t.expr?.isSome && t.secondExpr?.isSome
  | .compositeLit => t.literalType?.isSome && t.literalBody?.isSome
  | .mapLit => t.literalBody?.isSome
  | .keyedElement => t.expr?.isSome && t.secondExpr?.isSome
  | .unaryExpr => t.unaryOp?.any Syntax.unaryOps.contains && t.expr?.isSome
  | .binaryExpr => t.hasOperands
  | .funcLit => t.paramList?.isSome && t.block?.isSome
  | .lambdaExpr => t.block?.isSome != t.expr?.isSome
  | _ => true

-- A token that is no error, a string with its closing quote, or a node with its parts.
def complete (t : Tree) : Bool :=
  match t with
  | .token s => s.kind != .error && (s.kind != .str || Token.isTerminatedString s.text)
  | .node kind _ _ => t.hasParts kind

section Parts

variable {kind : NodeKind} {offset : Nat} {children : List Tree} {p : Tree → Bool}

theorem exists_of_slots (ps : List (Tree → Bool)) (h : (node kind offset children).conforms = true)
    (hslots : ∀ slots ∈ productions kind, (ps.map Slot.one).Sublist slots) :
    ∃ cs : List Tree, cs.Sublist (solid children) ∧ List.Forall₂ (fun p c => p c = true) ps cs := by
  obtain ⟨slots, hmem, hrow⟩ := exists_row h
  exact exists_of_fills ps (hslots slots hmem) hrow

theorem exists_of_mem {slots : List Slot} {ts : List Tree} (h : fills slots ts = true)
    (hslot : .one p ∈ slots) : ∃ c ∈ ts, p c = true := by
  obtain ⟨cs, hcs, hall⟩ := exists_of_fills [p] (List.singleton_sublist.mpr hslot) h
  cases hall with
  | cons hp hnil => exact ⟨_, hcs.subset List.mem_cons_self, hp⟩

theorem exists_of_slot (h : (node kind offset children).conforms = true)
    (hslots : ∀ slots ∈ productions kind, .one p ∈ slots) : ∃ c ∈ solid children, p c = true := by
  obtain ⟨slots, hmem, hrow⟩ := exists_row h
  exact exists_of_mem hrow (hslots slots hmem)

theorem child_of_slot {wanted : NodeKind} (h : (node kind offset children).conforms = true)
    (hslots : ∀ slots ∈ productions kind, nodeOf wanted ∈ slots) :
    ((node kind offset children).child? wanted).isSome = true := by
  obtain ⟨c, hc, hkind⟩ := exists_of_slot h hslots
  exact childWith?_isSome hc (by simp [kind?_of_isA hkind])

theorem expr_of_slot (h : (node kind offset children).conforms = true)
    (hslots : ∀ slots ∈ productions kind, exprSlot ∈ slots) :
    (node kind offset children).expr?.isSome = true := by
  obtain ⟨c, hc, hexpr⟩ := exists_of_slot h hslots
  exact childWith?_isSome hc hexpr

theorem type_of_slot (h : (node kind offset children).conforms = true)
    (hslots : ∀ slots ∈ productions kind, typeSlot ∈ slots) :
    (node kind offset children).type?.isSome = true := by
  obtain ⟨c, hc, htype⟩ := exists_of_slot h hslots
  exact childWith?_isSome hc htype

theorem token_of_slot {wanted : TokenKind} (h : (node kind offset children).conforms = true)
    (hslots : ∀ slots ∈ productions kind, tok wanted ∈ slots) :
    (node kind offset children).has wanted = true := by
  obtain ⟨c, hc, htok⟩ := exists_of_slot h hslots
  obtain ⟨s, rfl, hs⟩ := isTok_iff.mp htok
  exact find?_childTokens_isSome hc (beq_iff_eq.mpr hs)

theorem two_of_slots {q : NodeKind → Bool} (hp : ∀ c, p c = true → c.kind?.any q = true)
    (h : (node kind offset children).conforms = true)
    (hslots : ∀ slots ∈ productions kind, [.one p, .one p].Sublist slots) :
    ((node kind offset children).childWith? q).isSome = true ∧
      ((node kind offset children).childrenWith q)[1]?.isSome = true := by
  obtain ⟨cs, hcs, hall⟩ := exists_of_slots [p, p] h hslots
  obtain _ | ⟨hc, _ | ⟨hd, _ | _⟩⟩ := hall
  exact ⟨childWith?_isSome (hcs.subset List.mem_cons_self) (hp _ hc),
    second_isSome hcs (hp _ hc) (hp _ hd)⟩

theorem two_exprs (h : (node kind offset children).conforms = true)
    (hslots : ∀ slots ∈ productions kind, [exprSlot, exprSlot].Sublist slots) :
    (node kind offset children).expr?.isSome = true ∧
      (node kind offset children).secondExpr?.isSome = true :=
  two_of_slots (fun _ => id) h hslots

-- A list of expressions is not empty.
theorem exprs_ne_nil (h : (node .exprList offset children).conforms = true) :
    (node .exprList offset children).exprs.isEmpty = false := by
  obtain ⟨c, hc, hexpr⟩ := exists_of_slot (p := isExpr) h (by simp [productions, exprSlot])
  refine List.isEmpty_eq_false_iff.mpr (List.ne_nil_of_mem (a := c) ?_)
  exact List.mem_filter.mpr ⟨List.mem_of_mem_filter hc, hexpr⟩

theorem listed_ne_nil {t : Tree} {index : Nat} (h : t.conforms = true)
    (hlist : (t.childrenOf .exprList)[index]?.isSome = true) : (t.listed index).isEmpty = false := by
  obtain ⟨list, hlist⟩ := Option.isSome_iff_exists.mp hlist
  obtain ⟨hmem, hkind⟩ := List.mem_filter.mp (List.mem_of_getElem? hlist)
  have hconforms := conforms_child h list hmem
  rw [listed, hlist, Option.map_some, Option.getD_some]
  cases list with
  | token => simp at hkind
  | node kind offset children =>
      obtain rfl : kind = .exprList := by simpa using hkind
      exact exprs_ne_nil hconforms

theorem both_sides (h : (node kind offset children).conforms = true)
    (hslots : ∀ slots ∈ productions kind, [nodeOf .exprList, nodeOf .exprList].Sublist slots) :
    ((node kind offset children).listed 0).isEmpty = false ∧
      ((node kind offset children).listed 1).isEmpty = false := by
  obtain ⟨hfirst, hsecond⟩ := two_of_slots (q := (· == .exprList))
    (fun c hc => by simp [kind?_of_isA hc]) h hslots
  rw [childWith?_eq_head?, List.head?_eq_getElem?] at hfirst
  exact ⟨listed_ne_nil h hfirst, listed_ne_nil h hsecond⟩

theorem hasOperands_of_conforms (h : (node .binaryExpr offset children).conforms = true)
    {start stop : Nat} (hcovers : CoversAll start children stop) :
    (node .binaryExpr offset children).hasOperands = true := by
  obtain ⟨slots, hslots, hrow⟩ := exists_row h
  obtain rfl := List.mem_singleton.mp hslots
  simp only [exprSlot, fills_one, fills_nil] at hrow
  obtain ⟨lhs, _, hsolid, hlhs, c, _, rfl, hop, rhs, _, rfl, hrhs, rfl⟩ := hrow
  obtain ⟨op, rfl, hpower⟩ : ∃ op, c = .token op ∧ (Syntax.binaryPower? op.kind).isSome = true := by
    cases c with
    | token op => exact ⟨op, rfl, hop⟩
    | node => simp at hop
  have hexprs : (node .binaryExpr offset children).exprs = [lhs, rhs] := by
    have hkinds : lhs.kind?.any NodeKind.isExpr = true ∧ rhs.kind?.any NodeKind.isExpr = true :=
      ⟨hlhs, hrhs⟩
    rw [exprs, childrenWith_eq_solid, children_node, hsolid]
    simp [hkinds]
  have hoperator : (node .binaryExpr offset children).binaryOpToken? = some op := by
    rw [binaryOpToken?, ← List.head?_filter, filter_childTokens fun _ => isTrivia_of_isPunct _,
      children_node, hsolid]
    simp [token?_of_any hlhs, token?_of_any hrhs, isPunct_of_binaryPower _ hpower]
  have hsublist : [lhs, .token op, rhs].Sublist children := hsolid ▸ solid_sublist children
  have hbefore := hcovers.ordered (.trans (by simp) hsublist : [lhs, .token op].Sublist children)
  have hafter := hcovers.ordered (.trans (by simp) hsublist : [.token op, rhs].Sublist children)
  rw [hasOperands, expr?, childWith?_eq_head?, secondExpr?, ← exprs, hexprs, hoperator]
  simpa [hpower] using ⟨hbefore, hafter⟩

-- What stands before the body of an `if`.
theorem none_in_head {head : List Slot} (hhead : head ∈ headProductions) {xs : List Tree}
    (h : fills (tok .ifKw :: head ++ [exprSlot]) xs = true) (wanted : NodeKind)
    (hsimple : wanted.isSimpleStatement = false) (hexpr : wanted.isExpr = false) :
    xs.any (·.isA wanted) = false ∧ xs.any (·.isTok .elseKw) = false := by
  have hslots : ∀ slot ∈ tok .ifKw :: head ++ [exprSlot], ∀ c, slot.admits c = true →
      c.isA wanted = false ∧ c.isTok .elseKw = false := by
    have hkeyword (kind : TokenKind) (hne : kind ≠ .elseKw) (c : Tree)
        (hc : (tok kind).admits c = true) : c.isA wanted = false ∧ c.isTok .elseKw = false :=
      ⟨isA_of_isTok hc, isTok_of_isTok hc hne⟩
    have hcond (c : Tree) (hc : exprSlot.admits c = true) :
        c.isA wanted = false ∧ c.isTok .elseKw = false :=
      ⟨isA_of_any hc hexpr, isTok_of_any hc⟩
    have hinit (c : Tree) (hc : (Slot.opt Tree.isSimpleStatement).admits c = true) :
        c.isA wanted = false ∧ c.isTok .elseKw = false :=
      ⟨isA_of_any hc hsimple, isTok_of_any hc⟩
    rcases List.mem_pair.mp hhead with rfl | rfl
    · simpa using ⟨hkeyword .ifKw (by simp), hcond⟩
    · simpa using ⟨hkeyword .ifKw (by simp), hinit, hkeyword .semicolon (by simp), hcond⟩
  exact ⟨any_of_fills h fun slot hslot c hc => (hslots slot hslot c hc).1,
    any_of_fills h fun slot hslot c hc => (hslots slot hslot c hc).2⟩

theorem elseBranch?_isSome_eq (t : Tree) : t.elseBranch?.isSome =
    ((solid t.children).any (·.isA .ifStmt) || decide (1 < (solid t.children).countP (·.isA .block))) := by
  rw [← child?_isSome_eq, ← length_childrenOf, elseBranch?]
  cases t.child? .ifStmt with
  | some nested => rfl
  | none =>
      rw [Bool.eq_iff_iff]
      simp

theorem elseBranch?_of_conforms (h : (node .ifStmt offset children).conforms = true) :
    (node .ifStmt offset children).elseBranch?.isSome =
      (node .ifStmt offset children).has .elseKw := by
  rw [elseBranch?_isSome_eq, has_eq rfl, children_node]
  obtain ⟨slots, hslots, hrow⟩ := exists_row h
  obtain ⟨head, hhead, hslots⟩ := List.mem_flatMap.mp hslots
  obtain ⟨more, rfl, hmore⟩ : ∃ more, slots = (tok .ifKw :: head ++ [exprSlot]) ++ nodeOf .block :: more ∧
      (more = [] ∨ more = [tok .elseKw, .one fun t => t.isA .ifStmt || t.isA .block]) := by
    rcases List.mem_pair.mp hslots with rfl | rfl
    · exact ⟨[], by simp, .inl rfl⟩
    · exact ⟨_, by simp, .inr rfl⟩
  obtain ⟨xs, ys, hsolid, hxs, hys⟩ := exists_of_fills_append _ hrow
  obtain ⟨body, tail, rfl, hbody, htail⟩ := fills_one.mp hys
  obtain ⟨hblock, helse⟩ := none_in_head hhead hxs .block rfl rfl
  obtain ⟨hif, -⟩ := none_in_head hhead hxs .ifStmt rfl rfl
  have hcount : xs.countP (·.isA .block) = 0 :=
    List.countP_eq_zero.mpr (List.any_eq_false.mp hblock)
  have hkind := kind?_of_isA hbody
  have hbodyIf : body.isA .ifStmt = false := by simp [isA, hkind]
  have hbodyElse : body.isTok .elseKw = false := isTok_of_any (p := fun _ => true) (by simp [hkind])
  rw [hsolid]
  rcases hmore with rfl | rfl
  · obtain rfl := fills_nil.mp htail
    simp [hif, helse, hcount, hbodyIf, hbodyElse, hbody]
  · obtain ⟨word, _, rfl, hword, branch, _, rfl, hbranch, hnil⟩ := by
      simpa only [tok, fills_one] using htail
    obtain rfl := fills_nil.mp hnil
    have hwordBlock : word.isA .block = false := isA_of_isTok hword
    have hwordIf : word.isA .ifStmt = false := isA_of_isTok hword
    have hbranch : branch.isA .ifStmt = true ∨ branch.isA .block = true := by simpa using hbranch
    rcases hbranch with hbranch | hbranch <;>
      simp [hcount, hword, hwordBlock, hbranch, hbody]

theorem body_of_lambda (h : (node .lambdaExpr offset children).conforms = true) :
    (node .lambdaExpr offset children).block?.isSome ≠
      (node .lambdaExpr offset children).expr?.isSome := by
  obtain ⟨slots, hslots, hrow⟩ := exists_row h
  obtain rfl := List.mem_singleton.mp hslots
  obtain ⟨xs, ys, hsolid, hxs, hys⟩ :=
    exists_of_fills_append [optNode .lambdaParams, tok .fatArrow] hrow
  obtain ⟨body, _, rfl, hbody, hnil⟩ := fills_one.mp hys
  obtain rfl := fills_nil.mp hnil
  have hslots : ∀ slot ∈ [optNode .lambdaParams, tok .fatArrow], ∀ c, slot.admits c = true →
      c.isA .block = false ∧ c.isExpr = false := by
    have hparams (c : Tree) (hc : c.isA .lambdaParams = true) :
        c.isA .block = false ∧ c.isExpr = false := by simp [isA, isExpr, kind?_of_isA hc, NodeKind.isExpr]
    simpa using ⟨hparams, fun c hc => ⟨isA_of_isTok hc, isExpr_of_isTok hc⟩⟩
  have hblock := any_of_fills hxs fun slot hslot c hc => (hslots slot hslot c hc).1
  have hexpr := any_of_fills hxs fun slot hslot c hc => (hslots slot hslot c hc).2
  rw [block?, child?_isSome_eq, expr?_isSome_eq, children_node, hsolid, List.any_append,
    List.any_append, hblock, hexpr]
  have hbody : body.isA .block = true ∨ body.isExpr = true := by simpa using hbody
  rcases hbody with hbody | hbody
  · have hnone : body.isExpr = false := by simp [isExpr, kind?_of_isA hbody, NodeKind.isExpr]
    simp [hbody, hnone]
  · have hnone : body.isA .block = false := isA_of_any hbody rfl
    simp [hbody, hnone]

theorem semicolons_of_conforms (h : (node .forClause offset children).conforms = true) :
    ((node .forClause offset children).tokensOf .semicolon).length = 2 := by
  rw [length_tokensOf rfl, children_node]
  obtain ⟨slots, hslots, hrow⟩ := exists_row h
  obtain rfl := List.mem_singleton.mp hslots
  obtain ⟨xs, rest, hsolid, hxs, hrest⟩ :=
    exists_of_fills_append [.opt Tree.isSimpleStatement] hrow
  obtain ⟨first, more, rfl, hfirst, hmore⟩ := fills_one.mp hrest
  obtain ⟨ys, last, rfl, hys, hlast⟩ := exists_of_fills_append [.opt Tree.isExpr] hmore
  obtain ⟨second, zs, rfl, hsecond, hzs⟩ := fills_one.mp hlast
  have hnone {q : NodeKind → Bool} {ts : List Tree} (h : fills [.opt fun c => c.kind?.any q] ts = true) :
      ts.countP (·.isTok .semicolon) = 0 :=
    List.countP_eq_zero.mpr (List.any_eq_false.mp (any_of_fills h
      (List.forall_mem_singleton.mpr fun _ hc => isTok_of_any hc)))
  have hfirst : first.isTok .semicolon = true := hfirst
  have hsecond : second.isTok .semicolon = true := hsecond
  simp [hsolid, List.countP_append, hnone hxs, hnone hys, hnone hzs, hfirst, hsecond]

theorem any_statements {q : Tree → Bool} {xs : List Tree} (h : fills [Grammar.statements] xs = true)
    (hstatement : ∀ c, c.isStatement = true → q c = false)
    (hsemicolon : ∀ c, c.isTok .semicolon = true → q c = false) : xs.any q = false :=
  any_of_fills h <| List.forall_mem_singleton.mpr fun c hc => by
    have hor : c.isStatement = true ∨ c.isTokIn [.semicolon] = true := (Bool.or_eq_true _ _).mp hc
    refine hor.elim (hstatement c) fun hc => hsemicolon c ?_
    obtain ⟨s, rfl, hs⟩ := isTokIn_iff.mp hc
    exact isTok_iff.mpr ⟨s, rfl, List.mem_singleton.mp hs⟩

-- A clause has values behind `case`, or it is the default.
theorem values_of_conforms (h : (node .caseClause offset children).conforms = true) :
    (node .caseClause offset children).isDefault =
      ((node .caseClause offset children).listed 0).isEmpty := by
  rw [isDefault, has_eq rfl, children_node]
  obtain ⟨slots, hslots, hrow⟩ := exists_row h
  have hbody {xs : List Tree} (hxs : fills [Grammar.statements] xs = true) :
      xs.any (·.isTok .defaultKw) = false ∧ xs.any (·.isA .exprList) = false :=
    ⟨any_statements hxs (fun _ hc => isTok_of_any hc) fun _ hc => isTok_of_isTok hc (by simp),
      any_statements hxs (fun _ hc => isA_of_any hc rfl) fun _ hc => isA_of_isTok hc⟩
  rcases List.mem_pair.mp hslots with rfl | rfl
  · obtain ⟨word, _, hsolid, hword, list, _, rfl, hlist, colon, xs, rfl, hcolon, hxs⟩ := by
      simpa only [tok, nodeOf, fills_one] using hrow
    have hfirst : ((node .caseClause offset children).childrenOf .exprList)[0]?.isSome = true := by
      rw [← List.head?_eq_getElem?, childrenOf_eq_solid, List.head?_filter, List.isSome_find?,
        children_node, hsolid]
      simp [hlist]
    have hkind := kind?_of_isA hlist
    have hlistTok : list.isTok .defaultKw = false := isTok_of_any (p := fun _ => true) (by simp [hkind])
    rw [listed_ne_nil h hfirst, hsolid]
    simpa [isTok_of_isTok hword (by simp : TokenKind.caseKw ≠ .defaultKw), hlistTok,
      isTok_of_isTok hcolon (by simp : TokenKind.colon ≠ .defaultKw)] using (hbody hxs).1
  · obtain ⟨word, _, hsolid, hword, colon, xs, rfl, hcolon, hxs⟩ := by
      simpa only [tok, fills_one] using hrow
    have hnone : (node .caseClause offset children).childrenOf .exprList = [] := by
      rw [childrenOf_eq_solid, children_node, hsolid]
      simpa [isA_of_isTok hword, isA_of_isTok hcolon] using (hbody hxs).2
    rw [listed, hnone, hsolid]
    simp [hword]

-- The first colon of a clause is the one behind its head.
theorem colon_of_solid (xs : List Tree) {ys : List Tree} {s : Token}
    (hsolid : solid children = xs ++ .token s :: ys) (hxs : xs.any (·.isTok .colon) = false)
    (hs : s.kind = .colon) :
    (node kind offset children).tokenOf? .colon = some s := by
  have hnone : (xs.filterMap token?).filter (·.kind == .colon) = [] := by
    refine List.filter_eq_nil_iff.mpr fun u hu => ?_
    obtain ⟨c, hc, hcu⟩ := List.mem_filterMap.mp hu
    have := List.any_eq_false.mp hxs c hc
    simpa [isTok, hcu] using this
  have hcolons : ∀ u : Token, (u.kind == .colon) = true → u.kind.isTrivia = false := fun u hu => by
    simp [beq_iff_eq.mp hu, TokenKind.isTrivia]
  rw [tokenOf?, ← List.head?_filter, filter_childTokens hcolons, children_node, hsolid,
    List.filterMap_append, List.filter_append, hnone]
  simp [hs]

-- What stands before the colon of a clause is found there.
theorem commStatement?_isSome {comm : Tree} {s : Token} {start stop : Nat}
    (hcovers : CoversAll start children stop)
    (hcolon : (node kind offset children).tokenOf? .colon = some s)
    (hbefore : [comm, .token s].Sublist (solid children)) (hcomm : comm.isSimpleStatement = true) :
    (node kind offset children).commStatement?.isSome = true := by
  have hsub := solid_sublist children
  have hordered : comm.stop ≤ s.offset := hcovers.ordered (hbefore.trans hsub)
  have hnode : comm.isNode = true := by
    obtain ⟨kind, hkind, -⟩ := (Option.any_eq_true _ _).mp hcomm
    simp [isNode, hkind]
  have hmem : comm ∈ children := hsub.subset (hbefore.subset List.mem_cons_self)
  have hnodes : comm ∈ (node kind offset children).childNodes := List.mem_filter.mpr ⟨hmem, hnode⟩
  rw [commStatement?, hcolon, Option.bind_some, List.find?_isSome]
  exact ⟨comm, List.mem_filter.mpr ⟨hnodes, by simpa using hordered⟩, hcomm⟩

-- Where there is nothing but a word before the colon, no statement ends before it.
theorem commStatement?_eq_none {word : Tree} {s : Token} {xs : List Tree} {wanted : TokenKind}
    {start stop : Nat} (hcovers : CoversAll start children stop)
    (hcolon : (node kind offset children).tokenOf? .colon = some s)
    (hsolid : solid children = word :: .token s :: xs) (hword : word.isTok wanted = true) :
    (node kind offset children).commStatement? = none := by
  have hsub := solid_sublist children
  have hlater (c : Tree) (hmem : c ∈ children)
      (hsimple : c.kind?.any NodeKind.isSimpleStatement = true) : c ∈ xs := by
    have hmem : c ∈ solid children := List.mem_filter.mpr ⟨hmem, by cases c <;> simp_all [isBlank]⟩
    rw [hsolid, List.mem_cons, List.mem_cons] at hmem
    rcases hmem with rfl | rfl | hmem
    · obtain ⟨u, rfl, -⟩ := isTok_iff.mp hword
      simp at hsimple
    · simp at hsimple
    · exact hmem
  rw [commStatement?, hcolon, Option.bind_some, List.find?_eq_none]
  intro c hc hsimple
  obtain ⟨hc, hstop⟩ := List.mem_filter.mp hc
  have hmem : c ∈ children := (List.mem_filter.mp hc).1
  have hbehind : [.token s, c].Sublist (solid children) := by
    rw [hsolid]
    exact ((List.singleton_sublist.mpr (hlater c hmem hsimple)).cons_cons _).cons _
  have hordered : s.stop ≤ c.start := hcovers.ordered (hbehind.trans hsub)
  obtain ⟨_, _, -, ⟨rfl, hpos, -⟩, -⟩ :=
    hcovers.exists_of_mem (hsub.subset (hbehind.subset List.mem_cons_self))
  obtain ⟨_, _, -, hc, -⟩ := hcovers.exists_of_mem hmem
  have hle := hc.le
  rw [← hc.start_eq, ← hc.stop_eq] at hle
  have hstop : c.stop ≤ s.offset := by simpa using hstop
  omega

-- A clause waits for a channel, or it is the default.
theorem comm_of_conforms (h : (node .commClause offset children).conforms = true)
    {start stop : Nat} (hcovers : CoversAll start children stop) :
    (node .commClause offset children).isDefault ≠
      (node .commClause offset children).commStatement?.isSome := by
  rw [isDefault, has_eq rfl, children_node]
  obtain ⟨slots, hslots, hrow⟩ := exists_row h
  rcases List.mem_pair.mp hslots with rfl | rfl
  · obtain ⟨word, _, hsolid, hword, comm, _, rfl, hcomm, colon, xs, rfl, hcolon, hxs⟩ := by
      simpa only [tok, nodeOf, fills_one] using hrow
    obtain ⟨s, rfl, hs⟩ := isTok_iff.mp hcolon
    have hcolon? : (node .commClause offset children).tokenOf? .colon = some s := by
      refine colon_of_solid [word, comm] hsolid ?_ hs
      simp [isTok_of_isTok hword, isTok_of_any hcomm]
    have hstatements := any_statements (q := (·.isTok .defaultKw)) hxs (fun _ hc => isTok_of_any hc)
      fun _ hc => isTok_of_isTok hc (by simp)
    have hdefault : (solid children).any (·.isTok .defaultKw) = false := by
      rw [hsolid]
      simpa [isTok_of_isTok hword, isTok_of_any hcomm, isTok_of_isTok hcolon] using hstatements
    rw [hdefault, commStatement?_isSome hcovers hcolon? (by simp [hsolid]) hcomm]
    exact Bool.false_ne_true
  · obtain ⟨word, _, hsolid, hword, colon, xs, rfl, hcolon, hxs⟩ := by
      simpa only [tok, fills_one] using hrow
    obtain ⟨s, rfl, hs⟩ := isTok_iff.mp hcolon
    have hcolon? : (node .commClause offset children).tokenOf? .colon = some s :=
      colon_of_solid [word] hsolid (by simp [isTok_of_isTok hword]) hs
    have hdefault : (solid children).any (·.isTok .defaultKw) = true := by simp [hsolid, hword]
    simp [hdefault, commStatement?_eq_none hcovers hcolon? hsolid hword]

theorem unaryOp?_of_conforms (h : (node .unaryExpr offset children).conforms = true) :
    (node .unaryExpr offset children).unaryOp?.any Syntax.unaryOps.contains = true := by
  obtain ⟨slots, hslots, hrow⟩ := exists_row h
  obtain rfl := List.mem_singleton.mp hslots
  obtain ⟨op, _, hsolid, hop, -⟩ := fills_one.mp hrow
  obtain ⟨s, rfl, hs⟩ := isTokIn_iff.mp hop
  rw [conforms, fits, Bool.and_eq_true, Bool.and_eq_true, Bool.and_eq_true] at h
  have hleads : children.head?.any isBlank = false := by simpa [leads] using h.1.2.2
  cases children with
  | nil => simp [solid] at hsolid
  | cons c rest =>
      have hc : c.isBlank = false := by simpa using hleads
      have hfirst : c = .token s := by
        simp only [solid, List.filter_cons, hc, Bool.not_false, if_true, List.cons.injEq] at hsolid
        exact hsolid.1
      subst hfirst
      simpa [unaryOp?, tokens, tokens.tokensOfAll] using hs

theorem children_of_slot {wanted : NodeKind} (h : (node kind offset children).conforms = true)
    (hslots : ∀ slots ∈ productions kind, nodeOf wanted ∈ slots) :
    ((node kind offset children).childrenOf wanted).isEmpty = false := by
  have hsome := child_of_slot h hslots
  rw [child?, childWith?_eq_head?, ← childrenOf] at hsome
  cases hall : (node kind offset children).childrenOf wanted with
  | nil => simp [hall] at hsome
  | cons => rfl

theorem typeName?_of_conforms (h : (node .typeRef offset children).conforms = true) :
    (node .typeRef offset children).typeName?.isSome = true := by
  have hident : (node .typeRef offset children).has .ident = true :=
    token_of_slot h (by simp [productions])
  rw [has, tokenOf?, ← List.head?_filter, ← tokensOf] at hident
  cases hall : (node .typeRef offset children).tokensOf .ident with
  | nil => simp [hall] at hident
  | cons => simp [typeName?, hall]

theorem literalKind?_of_conforms (h : (node .literal offset children).conforms = true) :
    (node .literal offset children).literalKind?.isSome = true := by
  obtain ⟨c, hc, hkinds⟩ := exists_of_slot (p := (·.isTokIn [.int, .float, .str, .rawStr])) h
    (by simp [productions, tokIn])
  obtain ⟨s, rfl, hs⟩ := isTokIn_iff.mp hkinds
  have hsome := find?_childTokens_isSome (q := (·.kind.isLiteral)) (t := node .literal offset children)
    hc (by simp at hs; rcases hs with hs | hs | hs | hs <;> rw [hs] <;> rfl)
  obtain ⟨u, hu⟩ := Option.isSome_iff_exists.mp hsome
  have hliteral : u.kind.isLiteral = true := by simpa using List.find?_some hu
  rw [literalKind?, literalToken?, hu, Option.bind_some]
  cases hkind : u.kind <;> simp [hkind, TokenKind.isLiteral] at hliteral ⊢

theorem literalType?_of_conforms (h : (node .compositeLit offset children).conforms = true) :
    (node .compositeLit offset children).literalType?.isSome = true := by
  obtain ⟨slots, hslots, hrow⟩ := exists_row h
  obtain rfl := List.mem_singleton.mp hslots
  obtain ⟨c, rest, hsolid, hc, -⟩ := fills_one.mp hrow
  have hnodes : children.filter isNode = (solid children).filter isNode := by
    rw [solid, List.filter_filter]
    exact List.filter_congr fun c _ => by cases c <;> simp [isNode, isBlank]
  have hnode : c.isNode = true := by
    cases c with
    | node => rfl
    | token => simp [isType, isExpr] at hc
  rw [literalType?, childNodes, children_node, hnodes, hsolid, List.filter_cons, hnode]
  simpa using hc

-- A parameter has a name or a type, and a result is one type or a list of them.
theorem child_or_type (h : (node kind offset children).conforms = true) {wanted : NodeKind}
    (hslots : ∀ slots ∈ productions kind, nodeOf wanted ∈ slots ∨ typeSlot ∈ slots) :
    (((node kind offset children).child? wanted).isSome ||
      (node kind offset children).type?.isSome) = true := by
  obtain ⟨slots, hmem, hrow⟩ := exists_row h
  rcases hslots slots hmem with hslot | hslot
  · obtain ⟨c, hc, hkind⟩ := exists_of_mem hrow hslot
    rw [child?, childWith?_isSome hc (by simp [kind?_of_isA hkind]), Bool.true_or]
  · obtain ⟨c, hc, htype⟩ := exists_of_mem hrow hslot
    rw [type?, childWith?_isSome hc htype, Bool.or_true]

theorem assignOp?_of_conforms (h : (node .assignStmt offset children).conforms = true) :
    (node .assignStmt offset children).assignOp?.isSome = true := by
  obtain ⟨c, hc, hops⟩ := exists_of_slot (p := (·.isTokIn Syntax.assignOps)) h
    (by simp [productions, assignSlots, tokIn])
  obtain ⟨s, rfl, hs⟩ := isTokIn_iff.mp hops
  exact find?_childTokens_isSome hc (List.contains_iff_mem.mpr hs)

theorem callee_of_conforms (h : (node .commandCall offset children).conforms = true) :
    (node .commandCall offset children).expr?.isSome = true := by
  obtain ⟨c, hc, hcallee⟩ := exists_of_slot (p := fun t => t.isA .nameRef || t.isA .selectorExpr) h
    (by simp [productions])
  refine childWith?_isSome hc ?_
  rcases (Bool.or_eq_true _ _).mp hcallee with hkind | hkind <;>
    simp [kind?_of_isA hkind, NodeKind.isExpr]

theorem hasParts_of_isType (h : (node kind offset children).conforms = true) (hkind : kind.isType = true) :
    (node kind offset children).hasParts kind = true := by
  cases kind <;> cases hkind <;> simp only [hasParts, Bool.and_eq_true]
  case typeRef => exact typeName?_of_conforms h
  case pointerType | sliceType | chanType => exact type_of_slot h (by simp [productions])
  case mapType =>
    exact two_of_slots (fun _ => id) h
      (by simpa [productions] using .cons _ (.cons _ (.cons_cons _ (.cons _ (.cons_cons _ .slnil)))))
  case funcType => exact child_of_slot h (by simp [productions])

theorem hasParts_of_isExpr (h : (node kind offset children).conforms = true) {start stop : Nat}
    (hcovers : CoversAll start children stop) (hkind : kind.isExpr = true) :
    (node kind offset children).hasParts kind = true := by
  cases kind <;> cases hkind <;> simp only [hasParts, Bool.and_eq_true, bne_iff_ne]
  case nameRef => exact token_of_slot h (by simp [productions])
  case literal => exact literalKind?_of_conforms h
  case parenExpr => exact expr_of_slot h (by simp [productions])
  case selectorExpr =>
    exact ⟨⟨expr_of_slot h (by simp [productions]), token_of_slot h (by simp [productions])⟩,
      token_of_slot h (by simp [productions])⟩
  case callExpr =>
    exact ⟨expr_of_slot h (by simp [productions]), child_of_slot h (by simp [productions])⟩
  case commandCall => exact ⟨callee_of_conforms h, child_of_slot h (by simp [productions])⟩
  case indexExpr => exact two_exprs h (by simp [productions])
  case compositeLit =>
    exact ⟨literalType?_of_conforms h, child_of_slot h (by simp [productions])⟩
  case mapLit => exact child_of_slot h (by simp [productions])
  case unaryExpr => exact ⟨unaryOp?_of_conforms h, expr_of_slot h (by simp [productions])⟩
  case binaryExpr => exact hasOperands_of_conforms h hcovers
  case funcLit =>
    exact ⟨child_of_slot h (by simp [productions]), child_of_slot h (by simp [productions])⟩
  case lambdaExpr => exact body_of_lambda h

-- What is neither a type nor an expression: the declarations, the statements and their parts.
theorem hasParts_of_other (h : (node kind offset children).conforms = true) {start stop : Nat}
    (hcovers : CoversAll start children stop) (htype : kind.isType = false) (hexpr : kind.isExpr = false) :
    (node kind offset children).hasParts kind = true := by
  cases kind <;> cases htype <;> cases hexpr <;>
    simp only [hasParts, Bool.and_eq_true, beq_iff_eq, bne_iff_ne, Bool.not_eq_true']
  case error =>
    obtain ⟨slots, hslots, -⟩ := exists_row h
    cases hslots
  -- declarations
  case packageClause => exact child_of_slot h (by simp [productions])
  case importSpec => exact token_of_slot h (by simp [productions])
  case varSpec | constSpec => exact children_of_slot h (by simp [productions, valueSpecProductions])
  case typeDecl =>
    exact ⟨child_of_slot h (by simp [productions]), type_of_slot h (by simp [productions])⟩
  case funcDecl | methodSpec =>
    exact ⟨child_of_slot h (by simp [productions]), child_of_slot h (by simp [productions])⟩
  case receiver => exact children_of_slot h (by simp [productions])
  case param | result => exact child_or_type h (by simp [productions])
  case name => exact token_of_slot h (by simp [productions])
  case fieldDecl => exact type_of_slot h (by simp [productions])
  -- statements
  case exprStmt | incDecStmt => exact expr_of_slot h (by simp [productions])
  case assignStmt =>
    have hsides := both_sides h (by simp [productions, assignSlots])
    exact ⟨⟨assignOp?_of_conforms h, hsides.1⟩, hsides.2⟩
  case defineStmt => exact both_sides h (by simp [productions, assignSlots])
  case sendStmt => exact two_exprs h (by simp [productions])
  case ifStmt =>
    refine ⟨⟨expr_of_slot h ?_, child_of_slot h ?_⟩, elseBranch?_of_conforms h⟩ <;>
      simp [productions, headProductions]
  case forStmt => exact child_of_slot h (by simp [productions])
  case forClause => exact semicolons_of_conforms h
  case rangeClause => exact expr_of_slot h (by simp [productions])
  case caseClause => simpa using values_of_conforms h
  case commClause => exact comm_of_conforms h hcovers
  case exprList => exact exprs_ne_nil h
  case keyedElement => exact two_exprs h (by simp [productions])

theorem hasParts_of_conforms (h : (node kind offset children).conforms = true) {start stop : Nat}
    (hcovers : CoversAll start children stop) : (node kind offset children).hasParts kind = true := by
  cases htype : kind.isType with
  | true => exact hasParts_of_isType h htype
  | false =>
      cases hexpr : kind.isExpr with
      | true => exact hasParts_of_isExpr h hcovers hexpr
      | false => exact hasParts_of_other h hcovers htype hexpr

end Parts

end Tree

namespace Syntax

-- If a parse reports no errors, its tree has no error in it, every string is terminated and every
-- node has its parts.
theorem parse_complete {text : String} (hok : (parse text).ok = true) :
    ∀ t ∈ ((parse text).tree.preorder 0).map (·.2), t.complete = true := by
  let P : Tree → Prop := fun t => t.conforms = true ∧ ∃ start stop, t.Covers start stop
  have hroot : P (parse text).tree := ⟨parse_conforms hok, _, _, parse_covers text⟩
  have hchild : ∀ t, P t → ∀ c ∈ t.children, P c := by
    rintro t ⟨hconforms, start, stop, hcovers⟩ c hc
    obtain ⟨first, last, -, hcovers', -⟩ := hcovers.children hc
    exact ⟨Tree.conforms_child hconforms c hc, first, last, hcovers'⟩
  intro t ht
  obtain ⟨⟨depth, t⟩, hmem, rfl⟩ := List.mem_map.mp ht
  obtain ⟨hconforms, start, stop, hcovers⟩ := Tree.forall_preorder hchild _ 0 hroot _ hmem
  dsimp only at hconforms hcovers ⊢
  cases t with
  | token s => exact hconforms
  | node kind offset children => exact Tree.hasParts_of_conforms hconforms hcovers.2

-- Both branches of an `if`, a comparison and a negation.
set_option maxRecDepth 2000 in
theorem parse_complete_branches :
    (parse "if a > 1 { b = 2 } else { b = -3 }").ok = true ∧
      ∀ t ∈ ((parse "if a > 1 { b = 2 } else { b = -3 }").tree.preorder 0).map (·.2),
        t.complete = true :=
  have hok : (parse "if a > 1 { b = 2 } else { b = -3 }").ok = true := by cbv
  ⟨hok, parse_complete hok⟩

end Syntax

end SpriteScript
