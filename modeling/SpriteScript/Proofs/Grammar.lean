import SpriteScript.Syntax.Access
import SpriteScript.Syntax.Parser.Rules

-- The grammar of texts without syntax errors: which children a node of each kind has.
namespace SpriteScript

namespace Tree

def isTok (t : Tree) (kind : TokenKind) : Bool := t.token?.any (·.kind == kind)

def isTokIn (t : Tree) (kinds : List TokenKind) : Bool := t.token?.any (kinds.contains ·.kind)

-- A blank, a comment or a line feed.
def isBlank (t : Tree) : Bool := t.token?.any (·.kind.isTrivia)

def isStatement (t : Tree) : Bool := t.kind?.any NodeKind.isStatement

def isSimpleStatement (t : Tree) : Bool := t.kind?.any NodeKind.isSimpleStatement

def isItem (t : Tree) : Bool := t.kind?.any NodeKind.isItem

-- What a list of expressions or a literal consists of.
def isElement (t : Tree) : Bool := t.isA .keyedElement || t.isExpr

end Tree

namespace Grammar

-- A place in a production: for one tree, for one or none, or for any number of trees.
inductive Slot where
  | one (p : Tree → Bool)
  | opt (p : Tree → Bool)
  | many (p : Tree → Bool)

def Slot.admits : Slot → Tree → Bool
  | .one p | .opt p | .many p => p

-- Whether trees for which `p` holds stand in front of trees for which `rest` does.
def fillsMany (p : Tree → Bool) (rest : List Tree → Bool) : List Tree → Bool
  | [] => rest []
  | t :: more => rest (t :: more) || (p t && fillsMany p rest more)

-- Whether the trees fill the slots in their order.
def fills : List Slot → List Tree → Bool
  | [], ts => ts.isEmpty
  | .one p :: rest, ts =>
      match ts with
      | [] => false
      | t :: more => p t && fills rest more
  | .opt p :: rest, ts =>
      fills rest ts ||
        match ts with
        | [] => false
        | t :: more => p t && fills rest more
  | .many p :: rest, ts => fillsMany p (fills rest) ts

def tok (kind : TokenKind) : Slot := .one (·.isTok kind)

def tokIn (kinds : List TokenKind) : Slot := .one (·.isTokIn kinds)

def optTok (kind : TokenKind) : Slot := .opt (·.isTok kind)

def nodeOf (kind : NodeKind) : Slot := .one (·.isA kind)

def optNode (kind : NodeKind) : Slot := .opt (·.isA kind)

def exprSlot : Slot := .one Tree.isExpr

def typeSlot : Slot := .one Tree.isType

-- Trees for which `p` holds, and separators between them.
def list (p : Tree → Bool) (separators : List TokenKind) : Slot :=
  .many fun t => p t || t.isTokIn separators

def statements : Slot := list Tree.isStatement [.semicolon]

-- One declaration behind a keyword, or several in parentheses.
def declProductions (keyword : TokenKind) (spec : NodeKind) : List (List Slot) :=
  [[tok keyword, nodeOf spec],
    [tok keyword, tok .lParen, list (·.isA spec) [.semicolon], tok .rParen]]

def valueSpecProductions : List (List Slot) :=
  [[nodeOf .name, list (·.isA .name) [.comma], .opt Tree.isType],
    [nodeOf .name, list (·.isA .name) [.comma], .opt Tree.isType, tok .eq, nodeOf .exprList]]

-- What may stand before the condition of an `if` and the tag of a `switch`.
def headProductions : List (List Slot) :=
  [[], [.opt Tree.isSimpleStatement, tok .semicolon]]

def memberProductions (keyword : TokenKind) (member : NodeKind) : List (List Slot) :=
  [[tok keyword, tok .lBrace, list (·.isA member) [.semicolon], tok .rBrace]]

def clauseProductions (head : Slot) : List (List Slot) :=
  [[tok .caseKw, head, tok .colon, statements], [tok .defaultKw, tok .colon, statements]]

def assignSlots (op : Slot) : List Slot := [nodeOf .exprList, op, nodeOf .exprList]

-- What the children of a node may be.
def productions : NodeKind → List (List Slot)
  | .sourceFile => [[list (fun t => t.isA .packageClause || t.isItem) [.semicolon]]]
  | .packageClause => [[tok .packageKw, nodeOf .name]]
  | .importDecl => declProductions .importKw .importSpec
  | .importSpec => [[optNode .name, tok .str]]
  | .varDecl => declProductions .varKw .varSpec
  | .varSpec => valueSpecProductions
  | .constDecl => declProductions .constKw .constSpec
  | .constSpec => valueSpecProductions
  | .typeDecl => [[tok .typeKw, nodeOf .name, optTok .eq, typeSlot]]
  | .funcDecl =>
      [[tok .funcKw, optNode .receiver, nodeOf .name, nodeOf .paramList, optNode .result,
        optNode .block]]
  | .receiver => [[tok .lParen, nodeOf .param, tok .rParen]]
  | .paramList => [[tok .lParen, list (·.isA .param) [.comma], tok .rParen]]
  | .param => [[nodeOf .name, optTok .ellipsis, .opt Tree.isType], [optTok .ellipsis, typeSlot]]
  | .result => [[nodeOf .paramList], [typeSlot]]
  | .name => [[tok .ident]]
  | .typeRef => [[tok .ident], [tok .ident, tok .dot, tok .ident]]
  | .pointerType => [[tok .star, typeSlot]]
  | .sliceType => [[tok .lBracket, tok .rBracket, typeSlot]]
  | .mapType => [[tok .mapKw, tok .lBracket, typeSlot, tok .rBracket, typeSlot]]
  | .chanType => [[tok .chanKw, typeSlot]]
  | .funcType => [[tok .funcKw, nodeOf .paramList, optNode .result]]
  | .structType => memberProductions .structKw .fieldDecl
  | .fieldDecl => [[typeSlot], [nodeOf .name, list (·.isA .name) [.comma], typeSlot]]
  | .interfaceType => memberProductions .interfaceKw .methodSpec
  | .methodSpec => [[nodeOf .name, nodeOf .paramList, optNode .result]]
  | .block => [[tok .lBrace, statements, tok .rBrace]]
  | .exprStmt => [[exprSlot]]
  | .assignStmt => [assignSlots (tokIn Syntax.assignOps)]
  | .defineStmt => [assignSlots (tok .colonEq)]
  | .incDecStmt => [[exprSlot, tokIn [.plusPlus, .minusMinus]]]
  | .sendStmt => [[exprSlot, tok .arrow, exprSlot]]
  | .returnStmt => [[tok .returnKw, optNode .exprList]]
  | .ifStmt => headProductions.flatMap fun head =>
      [tok .ifKw :: head ++ [exprSlot, nodeOf .block],
        tok .ifKw :: head ++ [exprSlot, nodeOf .block, tok .elseKw,
          .one fun t => t.isA .ifStmt || t.isA .block]]
  | .forStmt =>
      [[tok .forKw, .opt fun t => t.isA .rangeClause || t.isA .forClause || t.isExpr, nodeOf .block]]
  | .forClause =>
      [[.opt Tree.isSimpleStatement, tok .semicolon, .opt Tree.isExpr, tok .semicolon,
        .opt Tree.isSimpleStatement]]
  | .rangeClause =>
      [[tok .rangeKw, exprSlot], [nodeOf .exprList, tokIn [.colonEq, .eq], tok .rangeKw, exprSlot]]
  | .switchStmt => headProductions.map fun head =>
      tok .switchKw :: head ++ [.opt Tree.isExpr, tok .lBrace,
        list (·.isA .caseClause) [.semicolon], tok .rBrace]
  | .caseClause => clauseProductions (nodeOf .exprList)
  | .selectStmt =>
      [[tok .selectKw, tok .lBrace, list (·.isA .commClause) [.semicolon], tok .rBrace]]
  | .commClause => clauseProductions (.one Tree.isSimpleStatement)
  | .branchStmt => [[tokIn [.breakKw, .continueKw]]]
  | .exprList => [[exprSlot, list Tree.isExpr [.comma]]]
  | .nameRef => [[tok .ident]]
  | .literal => [[tokIn [.int, .float, .str, .rawStr]]]
  | .parenExpr => [[tok .lParen, exprSlot, tok .rParen]]
  | .selectorExpr => [[exprSlot, tok .dot, tok .ident]]
  | .callExpr => [[exprSlot, nodeOf .argList]]
  | .commandCall => [[.one fun t => t.isA .nameRef || t.isA .selectorExpr, nodeOf .argList]]
  | .argList =>
      [[tok .lParen, list Tree.isExpr [.comma, .ellipsis], tok .rParen],
        [exprSlot, list Tree.isExpr [.comma]]]
  | .indexExpr => [[exprSlot, tok .lBracket, exprSlot, tok .rBracket]]
  | .compositeLit => [[.one fun t => t.isType || t.isExpr, nodeOf .litBody]]
  | .litBody =>
      [[tok .lBrace, list Tree.isElement [.comma], tok .rBrace]]
  | .keyedElement => [[exprSlot, tok .colon, exprSlot]]
  | .unaryExpr => [[tokIn Syntax.unaryOps, exprSlot]]
  | .binaryExpr =>
      [[exprSlot, .one fun t => t.token?.any fun s => (Syntax.binaryPower? s.kind).isSome, exprSlot]]
  | .funcLit => [[tok .funcKw, nodeOf .paramList, optNode .result, nodeOf .block]]
  | .lambdaExpr => [[optNode .lambdaParams, tok .fatArrow, .one fun t => t.isA .block || t.isExpr]]
  | .lambdaParams => [[nodeOf .name], [tok .lParen, list (·.isA .name) [.comma], tok .rParen]]
  | .listLit => [[tok .lBracket, list Tree.isExpr [.comma], tok .rBracket]]
  | .mapLit => [[nodeOf .litBody]]
  | .error => []

-- Whether no two trees for which `p` holds stand next to each other.
def apart (p : Tree → Bool) : List Tree → Bool
  | t :: u :: rest => !(p t && p u) && apart p (u :: rest)
  | _ => true

-- The trees of a list, which have a separator between them.
def memberOf : NodeKind → Tree → Bool
  | .sourceFile | .block | .caseClause | .commClause => Tree.isItem
  | .exprList | .argList | .litBody | .listLit => Tree.isElement
  | _ => fun _ => false

-- A prefix operator is found as the first token of its expression.
def leads (kind : NodeKind) (ts : List Tree) : Bool :=
  kind != .unaryExpr || !ts.head?.any Tree.isBlank

-- Kinds whose children are only asked to follow a production.
def loose : NodeKind → Bool
  | .sourceFile | .block | .caseClause | .commClause | .exprList | .argList | .litBody | .listLit
  | .unaryExpr => false
  | _ => true

-- The trees of a row that count in the grammar.
def solid (ts : List Tree) : List Tree := ts.filter (!·.isBlank)

-- Whether a row may be the children of a node.
def fits (kind : NodeKind) (ts : List Tree) : Bool :=
  (productions kind).any (fills · (solid ts)) && (apart (memberOf kind) ts && leads kind ts)

section Filling

variable {p q : Tree → Bool} {slots more : List Slot} {ts us : List Tree}

theorem fillsMany_iff {rest : List Tree → Bool} :
    fillsMany p rest ts = true ↔ ∃ xs ys, ts = xs ++ ys ∧ (∀ t ∈ xs, p t = true) ∧ rest ys = true := by
  induction ts with
  | nil => simp [fillsMany, and_assoc]
  | cons t ts ih =>
      simp only [fillsMany, Bool.or_eq_true, Bool.and_eq_true, ih]
      constructor
      · rintro (hrest | ⟨ht, xs, ys, rfl, hxs, hys⟩)
        · exact ⟨[], t :: ts, rfl, by simp, hrest⟩
        · exact ⟨t :: xs, ys, rfl, by simpa using ⟨ht, hxs⟩, hys⟩
      · rintro ⟨xs, ys, heq, hxs, hys⟩
        cases xs with
        | nil => exact .inl (by rw [heq]; exact hys)
        | cons x xs =>
            obtain ⟨rfl, rfl⟩ := List.cons.inj heq
            exact .inr ⟨hxs _ List.mem_cons_self, xs, ys, rfl,
              fun t ht => hxs t (List.mem_cons_of_mem _ ht), hys⟩

@[simp] theorem fills_nil : fills [] ts = true ↔ ts = [] := by
  simp [fills]

@[simp] theorem fills_one : fills (.one p :: slots) ts = true ↔
    ∃ t more, ts = t :: more ∧ p t = true ∧ fills slots more = true := by
  cases ts <;> simp [fills, and_assoc]

@[simp] theorem fills_opt : fills (.opt p :: slots) ts = true ↔
    fills slots ts = true ∨ ∃ t more, ts = t :: more ∧ p t = true ∧ fills slots more = true := by
  cases ts <;> simp [fills, and_assoc]

@[simp] theorem fills_many : fills (.many p :: slots) ts = true ↔
    ∃ xs ys, ts = xs ++ ys ∧ (∀ t ∈ xs, p t = true) ∧ fills slots ys = true :=
  fillsMany_iff

theorem fills_append (h : fills slots ts = true) (h' : fills more us = true) :
    fills (slots ++ more) (ts ++ us) = true := by
  induction slots generalizing ts with
  | nil =>
      rw [fills_nil.mp h]
      exact h'
  | cons slot slots ih =>
      cases slot with
      | one p =>
          obtain ⟨t, rest, rfl, ht, hrest⟩ := fills_one.mp h
          exact fills_one.mpr ⟨t, rest ++ us, rfl, ht, ih hrest⟩
      | opt p =>
          cases fills_opt.mp h with
          | inl hskip => exact fills_opt.mpr (.inl (ih hskip))
          | inr htake =>
              obtain ⟨t, rest, rfl, ht, hrest⟩ := htake
              exact fills_opt.mpr (.inr ⟨t, rest ++ us, rfl, ht, ih hrest⟩)
      | many p =>
          obtain ⟨xs, ys, rfl, hxs, hys⟩ := fills_many.mp h
          exact fills_many.mpr ⟨xs, ys ++ us, List.append_assoc .., hxs, ih hys⟩

theorem exists_of_fills_append (slots : List Slot) {more : List Slot}
    (h : fills (slots ++ more) ts = true) :
    ∃ xs ys, ts = xs ++ ys ∧ fills slots xs = true ∧ fills more ys = true := by
  induction slots generalizing ts with
  | nil => exact ⟨[], ts, rfl, fills_nil.mpr rfl, h⟩
  | cons slot slots ih =>
      cases slot with
      | one p =>
          obtain ⟨t, rest, rfl, ht, hrest⟩ := fills_one.mp h
          obtain ⟨xs, ys, rfl, hxs, hys⟩ := ih hrest
          exact ⟨t :: xs, ys, rfl, fills_one.mpr ⟨t, xs, rfl, ht, hxs⟩, hys⟩
      | opt p =>
          cases fills_opt.mp h with
          | inl hskip =>
              obtain ⟨xs, ys, rfl, hxs, hys⟩ := ih hskip
              exact ⟨xs, ys, rfl, fills_opt.mpr (.inl hxs), hys⟩
          | inr htake =>
              obtain ⟨t, rest, rfl, ht, hrest⟩ := htake
              obtain ⟨xs, ys, rfl, hxs, hys⟩ := ih hrest
              exact ⟨t :: xs, ys, rfl, fills_opt.mpr (.inr ⟨t, xs, rfl, ht, hxs⟩), hys⟩
      | many p =>
          obtain ⟨zs, rest, rfl, hzs, hrest⟩ := fills_many.mp h
          obtain ⟨xs, ys, rfl, hxs, hys⟩ := ih hrest
          exact ⟨zs ++ xs, ys, (List.append_assoc ..).symm, fills_many.mpr ⟨zs, xs, rfl, hzs, hxs⟩,
            hys⟩

-- A tree of the row is one that some slot is for.
theorem admits_of_fills (h : fills slots ts = true) :
    ∀ t ∈ ts, ∃ slot ∈ slots, slot.admits t = true := by
  induction slots generalizing ts with
  | nil => simp [fills_nil.mp h]
  | cons slot slots ih =>
      have hrest (us : List Tree) (hus : fills slots us = true) : ∀ t ∈ us,
          ∃ slot' ∈ slot :: slots, slot'.admits t = true := fun t ht =>
        (ih hus t ht).imp fun _ hslot => ⟨List.mem_cons_of_mem _ hslot.1, hslot.2⟩
      cases slot with
      | one p =>
          obtain ⟨u, us, rfl, hu, hus⟩ := fills_one.mp h
          exact List.forall_mem_cons.mpr ⟨⟨_, List.mem_cons_self, hu⟩, hrest us hus⟩
      | opt p =>
          rcases fills_opt.mp h with hts | ⟨u, us, rfl, hu, hus⟩
          · exact hrest ts hts
          · exact List.forall_mem_cons.mpr ⟨⟨_, List.mem_cons_self, hu⟩, hrest us hus⟩
      | many p =>
          obtain ⟨xs, ys, rfl, hxs, hys⟩ := fills_many.mp h
          intro t ht
          rcases List.mem_append.mp ht with ht | ht
          · exact ⟨_, List.mem_cons_self, hxs t ht⟩
          · exact hrest ys hys t ht

-- A kind of tree that no slot is for is not in the row.
theorem any_of_fills (h : fills slots ts = true)
    (hnone : ∀ slot ∈ slots, ∀ t, slot.admits t = true → q t = false) : ts.any q = false := by
  refine List.any_eq_false.mpr fun t ht => Bool.eq_false_iff.mp ?_
  obtain ⟨slot, hslot, hadmits⟩ := admits_of_fills h t ht
  exact hnone slot hslot t hadmits

end Filling

@[simp] theorem solid_append (ts us : List Tree) : solid (ts ++ us) = solid ts ++ solid us :=
  List.filter_append ..

theorem isNode_of_isBlank {t : Tree} (h : t.isBlank = true) : t.isNode = false := by
  cases t <;> simp_all [Tree.isBlank, Tree.token?, Tree.isNode, Tree.kind?]

-- A row of trees fills the slots when the blanks are left out.
def Fills (slots : List Slot) (ts : List Tree) : Prop := fills slots (solid ts) = true

namespace Fills

variable {p q : Tree → Bool} {slots more : List Slot} {ts us : List Tree}

theorem append (h : Fills slots ts) (h' : Fills more us) : Fills (slots ++ more) (ts ++ us) := by
  rw [Fills, solid_append]
  exact fills_append h h'

theorem blank (h : ∀ t ∈ ts, t.isBlank = true) : Fills [] ts := by
  simpa [Fills, solid] using h

theorem nil : Fills [] [] := rfl

theorem many_iff : Fills [.many p] ts ↔ ∀ t ∈ solid ts, p t = true := by
  simp [Fills]

theorem opt (h : Fills [.one p] ts) : Fills [.opt p] ts := by
  obtain ⟨t, more, hts, ht, hmore⟩ := fills_one.mp h
  exact fills_opt.mpr (.inr ⟨t, more, hts, ht, hmore⟩)

theorem opt_nil (h : Fills [] ts) : Fills [.opt p] ts := fills_opt.mpr (.inl h)

theorem one (h : Fills [.one p] ts) (hpq : ∀ t, p t = true → q t = true) : Fills [.one q] ts := by
  obtain ⟨t, more, hts, ht, hmore⟩ := fills_one.mp h
  exact fills_one.mpr ⟨t, more, hts, hpq t ht, hmore⟩

theorem many_nil (h : Fills [] ts) : Fills [.many p] ts :=
  fills_many.mpr ⟨[], _, rfl, by simp, h⟩

theorem many_one (h : Fills [.one p] ts) (hpq : ∀ t, p t = true → q t = true) :
    Fills [.many q] ts := by
  obtain ⟨t, more, hts, ht, hmore⟩ := fills_one.mp h
  exact fills_many.mpr ⟨[t], more, hts, by simpa using hpq t ht, hmore⟩

-- A list may be empty.
theorem empty_list (h : Fills slots ts) : Fills (slots ++ [.many p]) ts := by
  have := h.append (many_nil (p := p) nil)
  rwa [List.append_nil] at this

-- A row that ends in a list can be made longer.
theorem many_append (h : Fills (slots ++ [.many p]) ts) (h' : Fills [.many p] us) :
    Fills (slots ++ [.many p]) (ts ++ us) := by
  obtain ⟨xs, ys, hsolid, hxs, hys⟩ := exists_of_fills_append slots h
  have hlist : fills [.many p] (ys ++ solid us) = true := by
    have hys' : ∀ t ∈ ys, p t = true := by simpa using hys
    have hus' : ∀ t ∈ solid us, p t = true := many_iff.mp h'
    have hall : ∀ t ∈ ys ++ solid us, p t = true := fun t ht =>
      (List.mem_append.mp ht).elim (hys' t) (hus' t)
    simpa using hall
  rw [Fills, solid_append, hsolid, List.append_assoc]
  exact fills_append hxs hlist

theorem many_opt (h : Fills [.opt p] ts) (hpq : ∀ t, p t = true → q t = true) :
    Fills [.many q] ts := by
  cases fills_opt.mp h with
  | inl hnone => exact many_nil hnone
  | inr hone =>
      obtain ⟨t, more, hts, ht, hmore⟩ := hone
      exact many_one (fills_one.mpr ⟨t, more, hts, ht, hmore⟩) hpq

theorem many_append_many (h : Fills [.many p] ts) (h' : Fills [.many p] us) :
    Fills [.many p] (ts ++ us) :=
  (show Fills ([] ++ [.many p]) ts from h).many_append h'

-- Where only tokens may stand there are no nodes.
theorem tokens (h : Fills [.many p] ts) (hp : ∀ t, p t = true → t.isNode = false) :
    ∀ t ∈ ts, t.isNode = false := by
  intro t ht
  cases hblank : t.isBlank with
  | true => exact isNode_of_isBlank hblank
  | false => exact hp t (many_iff.mp h t (List.mem_filter.mpr ⟨ht, by simp [hblank]⟩))

theorem isNode_of_isTok {kind : TokenKind} (t : Tree) (h : t.isTok kind = true) :
    t.isNode = false := by
  cases t <;> simp_all [Tree.isTok, Tree.token?, Tree.isNode, Tree.kind?]

theorem tok_tokens {kind : TokenKind} (h : Fills [tok kind] ts) : ∀ t ∈ ts, t.isNode = false :=
  tokens (many_one h fun _ => id) isNode_of_isTok

theorem optTok_tokens {kind : TokenKind} (h : Fills [optTok kind] ts) :
    ∀ t ∈ ts, t.isNode = false :=
  tokens (many_opt h fun _ => id) isNode_of_isTok

theorem nil_tokens (h : Fills [] ts) : ∀ t ∈ ts, t.isNode = false :=
  tokens (many_nil (p := fun _ => false) h) (by simp)

theorem ne_nil (h : Fills [.one p] ts) : ts ≠ [] := by
  rintro rfl
  simp [Fills, solid] at h

end Fills

theorem isTokIn_of_isTok {t : Tree} {kind : TokenKind} {kinds : List TokenKind}
    (h : t.isTok kind = true) (hmem : kind ∈ kinds) : t.isTokIn kinds = true := by
  cases t <;> simp_all [Tree.isTok, Tree.isTokIn, Tree.token?]

theorem kind?_of_isA {t : Tree} {kind : NodeKind} (h : t.isA kind = true) : t.kind? = some kind :=
  beq_iff_eq.mp h

theorem isType_of_isA (kind : NodeKind) (hkind : kind.isType = true) (t : Tree)
    (h : t.isA kind = true) : t.isType = true := by
  simpa [Tree.isType, kind?_of_isA h] using hkind

theorem isExpr_of_isA (kind : NodeKind) (hkind : kind.isExpr = true) (t : Tree)
    (h : t.isA kind = true) : t.isExpr = true := by
  simpa [Tree.isExpr, kind?_of_isA h] using hkind

theorem isStatement_of_isA (kind : NodeKind) (hkind : kind.isStatement = true) (t : Tree)
    (h : t.isA kind = true) : t.isStatement = true := by
  simpa [Tree.isStatement, kind?_of_isA h] using hkind

theorem isSimpleStatement_of_isA (kind : NodeKind) (hkind : kind.isSimpleStatement = true) (t : Tree)
    (h : t.isA kind = true) : t.isSimpleStatement = true := by
  simpa [Tree.isSimpleStatement, kind?_of_isA h] using hkind

theorem isStatement_of_simple (t : Tree) (h : t.isSimpleStatement = true) :
    t.isStatement = true := by
  obtain ⟨kind, hkind, hsimple⟩ := (Option.any_eq_true _ _).mp h
  rw [Tree.isStatement, hkind, Option.any_some]
  cases kind <;> simp_all [NodeKind.isSimpleStatement, NodeKind.isStatement]

theorem isNode_of_isTokIn {t : Tree} {kinds : List TokenKind} (h : t.isTokIn kinds = true) :
    t.isNode = false := by
  cases t <;> simp_all [Tree.isTokIn, Tree.token?, Tree.isNode, Tree.kind?]

theorem isElement_token (t : Tree) (h : t.isNode = false) : t.isElement = false := by
  cases t <;> simp_all [Tree.isNode, Tree.isElement, Tree.isA, Tree.isExpr, Tree.kind?]

theorem isItem_token (t : Tree) (h : t.isNode = false) : t.isItem = false := by
  cases t <;> simp_all [Tree.isNode, Tree.isItem, Tree.kind?]

section Apart

variable {p q : Tree → Bool} {kind : NodeKind} {slots more : List Slot} {xs ys : List Tree}

-- The last tree of the row, if there is one, is none of those that have to be apart.
def Open (p : Tree → Bool) (ts : List Tree) : Prop := ∀ t ∈ ts.getLast?, p t = false

theorem apart_cons {t : Tree} : apart p (t :: xs) = true ↔
    (∀ u ∈ xs.head?, ¬(p t = true ∧ p u = true)) ∧ apart p xs = true := by
  cases xs with
  | nil => simp [apart]
  | cons u xs => cases ht : p t <;> simp [apart, ht]

theorem apart_of_none (h : ∀ t ∈ xs, p t = false) : apart p xs = true := by
  induction xs with
  | nil => rfl
  | cons t xs ih =>
      refine apart_cons.mpr ⟨?_, ih fun u hu => h u (List.mem_cons_of_mem t hu)⟩
      simp [h t List.mem_cons_self]

theorem fits_of_loose (hloose : loose kind = true)
    (hslots : slots ∈ productions kind) (h : Fills slots xs) : fits kind xs = true := by
  have hapart : apart (memberOf kind) xs = true := apart_of_none fun t _ => by
    cases kind <;> first | rfl | cases hloose
  have hleads : leads kind xs = true := by
    cases kind <;> first | rfl | cases hloose
  rw [fits, Bool.and_eq_true, hapart, hleads]
  exact ⟨List.any_eq_true.mpr ⟨slots, hslots, h⟩, rfl⟩

-- A prefix operator is not in a list.
theorem leads_of_many (hslots : slots ++ .many q :: more ∈ productions kind) :
    leads kind xs = true := by
  by_cases hkind : kind = .unaryExpr
  · subst hkind
    have hmem : Slot.many q ∈ [tokIn Syntax.unaryOps, exprSlot] :=
      List.mem_singleton.mp hslots ▸ List.mem_append_right _ List.mem_cons_self
    simp [tokIn, exprSlot] at hmem
  · simp [leads, hkind]

theorem apart_append (h : apart p xs = true) (hopen : Open p xs) (h' : apart p ys = true) :
    apart p (xs ++ ys) = true := by
  induction xs with
  | nil => exact h'
  | cons t xs ih =>
      obtain ⟨hhead, htail⟩ := apart_cons.mp h
      cases xs with
      | nil =>
          have ht : p t = false := hopen t (by simp)
          exact apart_cons.mpr ⟨by simp [ht], h'⟩
      | cons u xs =>
          have hopen' : Open p (u :: xs) := fun v hv => hopen v (by simpa using hv)
          exact apart_cons.mpr ⟨hhead, ih htail hopen'⟩

theorem apart_append_none (h : apart p xs = true) (h' : ∀ t ∈ ys, p t = false) :
    apart p (xs ++ ys) = true := by
  induction xs with
  | nil => exact apart_of_none h'
  | cons t xs ih =>
      obtain ⟨hhead, htail⟩ := apart_cons.mp h
      refine apart_cons.mpr ⟨fun u hu => ?_, ih htail⟩
      cases xs with
      | nil =>
          have hu' : p u = false := h' u (List.mem_of_mem_head? hu)
          simp [hu']
      | cons v xs => exact hhead u hu

theorem open_append_none (h : Open p xs) (h' : ∀ t ∈ ys, p t = false) : Open p (xs ++ ys) := by
  intro t ht
  rw [List.getLast?_append] at ht
  cases hlast : ys.getLast? with
  | none => exact h t (by simpa [hlast] using ht)
  | some u =>
      have : t = u := by simpa [hlast] using ht.symm
      exact this ▸ h' u (List.mem_of_getLast? hlast)

theorem open_append_of_ne_nil (hne : ys ≠ []) (h : ∀ t ∈ ys, p t = false) : Open p (xs ++ ys) := by
  intro t ht
  rw [List.getLast?_append, List.getLast?_eq_some_getLast hne] at ht
  have heq : ys.getLast hne = t := by simpa using ht
  exact heq ▸ h _ (List.getLast_mem hne)

-- Where one tree counts, none are next to each other.
theorem apart_of_one (h : Fills [.one q] xs) (hp : ∀ t, t.isNode = false → p t = false) :
    apart p xs = true := by
  have hblank : ∀ t, t.isBlank = true → p t = false := fun t ht => hp t (isNode_of_isBlank ht)
  induction xs with
  | nil => rfl
  | cons t xs ih =>
      cases ht : t.isBlank with
      | true =>
          have hsame : solid (t :: xs) = solid xs := by simp [solid, ht]
          rw [Fills, hsame] at h
          exact apart_cons.mpr ⟨by simp [hblank t ht], ih h⟩
      | false =>
          have hsolid : solid (t :: xs) = t :: solid xs := by simp [solid, ht]
          rw [Fills, hsolid] at h
          obtain ⟨_, _, heq, -, hnil⟩ := fills_one.mp h
          have hrest : solid xs = [] := (List.cons.inj heq).2.trans (fills_nil.mp hnil)
          have hnone : ∀ u ∈ xs, p u = false := fun u hu => hblank u (by
            simpa [solid] using List.filter_eq_nil_iff.mp hrest u hu)
          refine apart_cons.mpr ⟨fun u hu => ?_, apart_of_none hnone⟩
          simp [hnone u (List.mem_of_mem_head? hu)]

-- A row that ends in a list, the members of which are apart.
def ListRow (slots : List Slot) (p q : Tree → Bool) (ts : List Tree) : Prop :=
  Fills (slots ++ [.many p]) ts ∧ apart q ts = true

-- Another member may follow.
def OpenRow (slots : List Slot) (p q : Tree → Bool) (ts : List Tree) : Prop :=
  ListRow slots p q ts ∧ Open q ts

theorem OpenRow.nil (h : Fills [] xs) (hq : ∀ t, t.isNode = false → q t = false) :
    OpenRow [] p q xs := by
  have hnone : ∀ t ∈ xs, q t = false := fun t ht => hq t (h.nil_tokens t ht)
  exact ⟨⟨.many_nil h, apart_of_none hnone⟩, fun t ht => hnone t (List.mem_of_getLast? ht)⟩

theorem ListRow.separator {kind : TokenKind} (h : ListRow slots p q xs) (h' : Fills [tok kind] ys)
    (hp : ∀ t, t.isTok kind = true → p t = true) (hq : ∀ t, t.isNode = false → q t = false) :
    OpenRow slots p q (xs ++ ys) := by
  have hnone : ∀ t ∈ ys, q t = false := fun t ht => hq t (h'.tok_tokens t ht)
  exact ⟨⟨h.1.many_append (h'.many_one hp), apart_append_none h.2 hnone⟩,
    open_append_of_ne_nil h'.ne_nil hnone⟩

theorem OpenRow.tokens (h : OpenRow slots p q xs) (h' : Fills [.many p] ys)
    (hq : ∀ t ∈ ys, q t = false) : OpenRow slots p q (xs ++ ys) :=
  ⟨⟨h.1.1.many_append h', apart_append_none h.1.2 hq⟩, open_append_none h.2 hq⟩

theorem OpenRow.blanks (h : OpenRow slots p q xs) (h' : Fills [] ys)
    (hq : ∀ t, t.isNode = false → q t = false) : OpenRow slots p q (xs ++ ys) :=
  h.tokens (.many_nil h') fun t ht => hq t (h'.nil_tokens t ht)

theorem ListRow.tokens (h : ListRow slots p q xs) (h' : Fills [.many p] ys)
    (hq : ∀ t ∈ ys, q t = false) : ListRow slots p q (xs ++ ys) :=
  ⟨h.1.many_append h', apart_append_none h.2 hq⟩

theorem ListRow.blanks (h : ListRow slots p q xs) (h' : Fills [] ys)
    (hq : ∀ t, t.isNode = false → q t = false) : ListRow slots p q (xs ++ ys) :=
  h.tokens (.many_nil h') fun t ht => hq t (h'.nil_tokens t ht)

theorem OpenRow.member (h : OpenRow slots p q xs) (h' : ListRow [] p q ys) :
    ListRow slots p q (xs ++ ys) :=
  ⟨h.1.1.many_append h'.1, apart_append h.1.2 h.2 h'.2⟩

theorem ListRow.one {r : Tree → Bool} (h : Fills [.one r] xs) (hp : ∀ t, r t = true → p t = true)
    (hq : ∀ t, t.isNode = false → q t = false) : ListRow [] p q xs :=
  ⟨h.many_one hp, apart_of_one h hq⟩

-- What stands before a list.
theorem ListRow.after (h : Fills slots xs) (hapart : apart q xs = true) (hopen : Open q xs)
    (h' : ListRow [] p q ys) : ListRow slots p q (xs ++ ys) :=
  ⟨h.append h'.1, apart_append hapart hopen h'.2⟩

-- A list between two tokens.
theorem ListRow.between {first last : TokenKind} {zs : List Tree} (h : Fills [tok first] xs)
    (h' : ListRow [] p q ys) (h'' : Fills [tok last] zs)
    (hq : ∀ t, t.isNode = false → q t = false) :
    Fills [tok first, .many p, tok last] (xs ++ ys ++ zs) ∧ apart q (xs ++ ys ++ zs) = true := by
  have hnone : ∀ t ∈ xs, q t = false := fun t ht => hq t (h.tok_tokens t ht)
  have hopen : Open q xs := fun t ht => hnone t (List.mem_of_getLast? ht)
  have hrow := ListRow.after h (apart_of_none hnone) hopen h'
  exact ⟨hrow.1.append h'', apart_append_none hrow.2 fun t ht => hq t (h''.tok_tokens t ht)⟩

end Apart

end Grammar

namespace Tree

-- The tree has no error token, every string in it is terminated, and the children of every node
-- are what the grammar asks for.
def conforms : Tree → Bool
  | .token t => t.kind != .error && (t.kind != .str || Token.isTerminatedString t.text)
  | .node kind _ children =>
      Grammar.fits kind children && conformsAll children
where
  conformsAll : List Tree → Bool
    | [] => true
    | t :: rest => t.conforms && conformsAll rest

end Tree

end SpriteScript
