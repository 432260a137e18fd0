import SpriteScript.Syntax.Access
import SpriteScript.Token.Lexer

-- Expressions apart from any text, their words in order, and what it means that a syntax tree
-- is such an expression.
namespace SpriteScript

-- A token without its place.
structure Word where
  kind : TokenKind
  text : String
deriving DecidableEq, Repr, Inhabited

def Token.word (t : Token) : Word := ⟨t.kind, t.text⟩

namespace RoundTrip

-- A name that is no keyword.
structure Ident where
  text : String
  first : Char
  others : List Char
  text_eq : text.toList = first :: others
  isIdentStart : Text.isIdentStart first = true
  isIdentPart : ∀ c ∈ others, Text.isIdentPart c = true
  isNoKeyword : TokenKind.ofKeyword? text = none

-- A decimal number.
structure Digits where
  text : String
  ne_nil : text.toList ≠ []
  isDigit : ∀ c ∈ text.toList, c.isDigit = true

inductive UnaryOp where
  | plus | minus | not | complement | receive
deriving DecidableEq, Repr

def UnaryOp.word : UnaryOp → Word
  | plus => ⟨.plus, "+"⟩
  | minus => ⟨.minus, "-"⟩
  | not => ⟨.bang, "!"⟩
  | complement => ⟨.caret, "^"⟩
  | receive => ⟨.arrow, "<-"⟩

inductive BinaryOp where
  | or | and
  | eq | ne | lt | le | gt | ge
  | plus | minus | bitOr | bitXor
  | times | divide | remainder | shiftLeft | shiftRight | bitAnd
deriving DecidableEq, Repr

namespace BinaryOp

def word : BinaryOp → Word
  | or => ⟨.pipePipe, "||"⟩
  | and => ⟨.ampAmp, "&&"⟩
  | eq => ⟨.eqEq, "=="⟩
  | ne => ⟨.bangEq, "!="⟩
  | lt => ⟨.lt, "<"⟩
  | le => ⟨.ltEq, "<="⟩
  | gt => ⟨.gt, ">"⟩
  | ge => ⟨.gtEq, ">="⟩
  | plus => ⟨.plus, "+"⟩
  | minus => ⟨.minus, "-"⟩
  | bitOr => ⟨.pipe, "|"⟩
  | bitXor => ⟨.caret, "^"⟩
  | times => ⟨.star, "*"⟩
  | divide => ⟨.slash, "/"⟩
  | remainder => ⟨.percent, "%"⟩
  | shiftLeft => ⟨.shl, "<<"⟩
  | shiftRight => ⟨.shr, ">>"⟩
  | bitAnd => ⟨.amp, "&"⟩

-- The precedence of Go's operators, the loosest first.
def precedence : BinaryOp → Nat
  | or => 1
  | and => 2
  | eq | ne | lt | le | gt | ge => 3
  | plus | minus | bitOr | bitXor => 4
  | times | divide | remainder | shiftLeft | shiftRight | bitAnd => 5

theorem precedence_le (op : BinaryOp) : op.precedence ≤ 5 := by
  cases op <;> decide

theorem precedence_pos (op : BinaryOp) : 0 < op.precedence := by
  cases op <;> decide

end BinaryOp

inductive Expr where
  | name (ident : Ident)
  | number (digits : Digits)
  | paren (inner : Expr)
  | unary (op : UnaryOp) (operand : Expr)
  | binary (op : BinaryOp) (lhs rhs : Expr)
  | selector (base : Expr) (member : Ident)
  | call (callee : Expr) (args : List Expr)
  | index (base key : Expr)

namespace Expr

-- How tight the parts of an expression hold together: those of a binary operator by its
-- precedence, those of a prefix operator tighter, and those of all else tightest.
def level : Expr → Nat
  | binary op _ _ => op.precedence
  | unary _ _ => 6
  | _ => 7

-- The expression where one of at least the given level is asked for.
def wrap (least : Nat) (e : Expr) : Expr := if e.level < least then paren e else e

-- The expression with parentheses around every operand that needs them and has none. Operators
-- of one precedence group to the left.
def grouped : Expr → Expr
  | name x => name x
  | number n => number n
  | paren e => paren e.grouped
  | unary op e => unary op (e.grouped.wrap 6)
  | binary op l r => binary op (l.grouped.wrap op.precedence) (r.grouped.wrap (op.precedence + 1))
  | selector b x => selector (b.grouped.wrap 7) x
  | call f args => call (f.grouped.wrap 7) (groupedAll args)
  | index b k => index (b.grouped.wrap 7) k.grouped
where
  groupedAll : List Expr → List Expr
    | [] => []
    | e :: rest => e.grouped :: groupedAll rest

-- Whether no operand lacks parentheses.
def isGrouped : Expr → Bool
  | name _ | number _ => true
  | paren e => e.isGrouped
  | unary _ e => decide (6 ≤ e.level) && e.isGrouped
  | binary op l r =>
      decide (op.precedence ≤ l.level) && decide (op.precedence < r.level) && l.isGrouped &&
        r.isGrouped
  | selector b _ => decide (7 ≤ b.level) && b.isGrouped
  | call f args => decide (7 ≤ f.level) && f.isGrouped && areGrouped args
  | index b k => decide (7 ≤ b.level) && b.isGrouped && k.isGrouped
where
  areGrouped : List Expr → Bool
    | [] => true
    | e :: rest => e.isGrouped && areGrouped rest

-- The expression without any parentheses.
def bare : Expr → Expr
  | name x => name x
  | number n => number n
  | paren e => e.bare
  | unary op e => unary op e.bare
  | binary op l r => binary op l.bare r.bare
  | selector b x => selector b.bare x
  | call f args => call f.bare (bareAll args)
  | index b k => index b.bare k.bare
where
  bareAll : List Expr → List Expr
    | [] => []
    | e :: rest => e.bare :: bareAll rest

-- The words of the expression as it stands.
def words : Expr → List Word
  | name x => [⟨.ident, x.text⟩]
  | number n => [⟨.int, n.text⟩]
  | paren e => ⟨.lParen, "("⟩ :: (e.words ++ [⟨.rParen, ")"⟩])
  | unary op e => op.word :: e.words
  | binary op l r => l.words ++ op.word :: r.words
  | selector b x => b.words ++ [⟨.dot, "."⟩, ⟨.ident, x.text⟩]
  | call f args => f.words ++ ⟨.lParen, "("⟩ :: (listWords args ++ [⟨.rParen, ")"⟩])
  | index b k => b.words ++ ⟨.lBracket, "["⟩ :: (k.words ++ [⟨.rBracket, "]"⟩])
where
  -- expressions with commas between them
  listWords : List Expr → List Word
    | [] => []
    | e :: rest => e.words ++ moreWords rest
  moreWords : List Expr → List Word
    | [] => []
    | e :: rest => ⟨.comma, ","⟩ :: (e.words ++ moreWords rest)

-- The text of an expression: its words with the parentheses it needs, a blank between two.
def print (e : Expr) : String := " ".intercalate (e.grouped.words.map (·.text))

theorem level_pos (e : Expr) : 0 < e.level := by
  cases e with
  | binary op => exact op.precedence_pos
  | _ => simp [level]

theorem wrap_of_le {least : Nat} {e : Expr} (h : least ≤ e.level) : e.wrap least = e :=
  if_neg (Nat.not_lt.mpr h)

theorem le_level_wrap (least : Nat) (e : Expr) (h : least ≤ 7) : least ≤ (e.wrap least).level := by
  unfold wrap
  split
  case isTrue => exact h
  case isFalse hle => exact Nat.not_lt.mp hle

theorem isGrouped_wrap (least : Nat) {e : Expr} (h : e.isGrouped = true) :
    (e.wrap least).isGrouped = true := by
  unfold wrap
  split
  case isTrue => exact h
  case isFalse => exact h

theorem bare_wrap (least : Nat) (e : Expr) : (e.wrap least).bare = e.bare := by
  unfold wrap
  split
  case isTrue => rfl
  case isFalse => rfl

-- Grouping leaves no operand without the parentheses that it needs.
theorem isGrouped_grouped : (e : Expr) → e.grouped.isGrouped = true
  | name _ => rfl
  | number _ => rfl
  | paren e => isGrouped_grouped e
  | unary _ e => by
      have he := isGrouped_wrap 6 (isGrouped_grouped e)
      have hlevel := le_level_wrap 6 e.grouped (by decide)
      simp [grouped, isGrouped, he, hlevel]
  | binary op l r => by
      have hop := op.precedence_le
      have hl := isGrouped_wrap op.precedence (isGrouped_grouped l)
      have hr := isGrouped_wrap (op.precedence + 1) (isGrouped_grouped r)
      have hlevel := le_level_wrap op.precedence l.grouped (by omega)
      have hlevel' := le_level_wrap (op.precedence + 1) r.grouped (by omega)
      simp [grouped, isGrouped, hl, hr, hlevel, Nat.lt_of_succ_le hlevel']
  | selector b _ => by
      have hb := isGrouped_wrap 7 (isGrouped_grouped b)
      have hlevel := le_level_wrap 7 b.grouped (by decide)
      simp [grouped, isGrouped, hb, hlevel]
  | call f args => by
      have hf := isGrouped_wrap 7 (isGrouped_grouped f)
      have hlevel := le_level_wrap 7 f.grouped (by decide)
      simp [grouped, isGrouped, hf, hlevel, go args]
  | index b k => by
      have hb := isGrouped_wrap 7 (isGrouped_grouped b)
      have hlevel := le_level_wrap 7 b.grouped (by decide)
      simp [grouped, isGrouped, hb, hlevel, isGrouped_grouped k]
where
  go : (args : List Expr) → isGrouped.areGrouped (grouped.groupedAll args) = true
    | [] => rfl
    | e :: rest => by simp [grouped.groupedAll, isGrouped.areGrouped, isGrouped_grouped e, go rest]

-- An expression that has all parentheses it needs gets no others.
theorem grouped_eq : (e : Expr) → e.isGrouped = true → e.grouped = e
  | name _, _ => rfl
  | number _, _ => rfl
  | paren e, h => by rw [grouped, grouped_eq e h]
  | unary _ e, h => by
      simp only [isGrouped, Bool.and_eq_true, decide_eq_true_eq] at h
      rw [grouped, grouped_eq e h.2, wrap_of_le h.1]
  | binary op l r, h => by
      simp only [isGrouped, Bool.and_eq_true, decide_eq_true_eq] at h
      rw [grouped, grouped_eq l h.1.2, grouped_eq r h.2, wrap_of_le h.1.1.1, wrap_of_le h.1.1.2]
  | selector b _, h => by
      simp only [isGrouped, Bool.and_eq_true, decide_eq_true_eq] at h
      rw [grouped, grouped_eq b h.2, wrap_of_le h.1]
  | call f args, h => by
      simp only [isGrouped, Bool.and_eq_true, decide_eq_true_eq] at h
      rw [grouped, grouped_eq f h.1.2, wrap_of_le h.1.1, go args h.2]
  | index b k, h => by
      simp only [isGrouped, Bool.and_eq_true, decide_eq_true_eq] at h
      rw [grouped, grouped_eq b h.1.2, grouped_eq k h.2, wrap_of_le h.1.1]
where
  go : (args : List Expr) → isGrouped.areGrouped args = true → grouped.groupedAll args = args
    | [], _ => rfl
    | e :: rest, h => by
        simp only [isGrouped.areGrouped, Bool.and_eq_true] at h
        rw [grouped.groupedAll, grouped_eq e h.1, go rest h.2]

-- Grouping only adds parentheses.
theorem bare_grouped : (e : Expr) → e.grouped.bare = e.bare
  | name _ => rfl
  | number _ => rfl
  | paren e => bare_grouped e
  | unary _ e => by rw [grouped, bare, bare, bare_wrap, bare_grouped e]
  | binary _ l r => by
      rw [grouped, bare, bare, bare_wrap, bare_wrap, bare_grouped l, bare_grouped r]
  | selector b _ => by rw [grouped, bare, bare, bare_wrap, bare_grouped b]
  | call f args => by rw [grouped, bare, bare, bare_wrap, bare_grouped f, go args]
  | index b k => by rw [grouped, bare, bare, bare_wrap, bare_grouped b, bare_grouped k]
where
  go : (args : List Expr) → bare.bareAll (grouped.groupedAll args) = bare.bareAll args
    | [] => rfl
    | e :: rest => by rw [grouped.groupedAll, bare.bareAll, bare.bareAll, bare_grouped e, go rest]

theorem words_ne_nil : (e : Expr) → e.words ≠ []
  | name _ | number _ | paren _ | unary .. => by simp [words]
  | binary .. | selector .. | call .. | index .. => by simp [words]

end Expr

-- The words that expressions are made of.
inductive IsPart : Word → Prop
  | ident (x : Ident) : IsPart ⟨.ident, x.text⟩
  | digits (n : Digits) : IsPart ⟨.int, n.text⟩
  | unary (op : UnaryOp) : IsPart op.word
  | binary (op : BinaryOp) : IsPart op.word
  | lParen : IsPart ⟨.lParen, "("⟩
  | rParen : IsPart ⟨.rParen, ")"⟩
  | lBracket : IsPart ⟨.lBracket, "["⟩
  | rBracket : IsPart ⟨.rBracket, "]"⟩
  | dot : IsPart ⟨.dot, "."⟩
  | comma : IsPart ⟨.comma, ","⟩

theorem Expr.isPart_words : (e : Expr) → ∀ w ∈ e.words, IsPart w
  | name x => by simpa [words] using IsPart.ident x
  | number n => by simpa [words] using IsPart.digits n
  | paren e => by
      simpa [words, or_imp, forall_and] using ⟨IsPart.lParen, isPart_words e, IsPart.rParen⟩
  | unary op e => by simpa [words] using ⟨IsPart.unary op, isPart_words e⟩
  | binary op l r => by
      simpa [words, or_imp, forall_and] using ⟨isPart_words l, IsPart.binary op, isPart_words r⟩
  | selector b x => by
      simpa [words, or_imp, forall_and] using ⟨isPart_words b, IsPart.dot, IsPart.ident x⟩
  | call f args => by
      simpa [words, or_imp, forall_and] using
        ⟨isPart_words f, IsPart.lParen, listWords args, IsPart.rParen⟩
  | index b k => by
      simpa [words, or_imp, forall_and] using
        ⟨isPart_words b, IsPart.lBracket, isPart_words k, IsPart.rBracket⟩
where
  listWords : (args : List Expr) → ∀ w ∈ words.listWords args, IsPart w
    | [] => by simp [words.listWords]
    | e :: rest => by
        simpa [words.listWords, or_imp, forall_and] using ⟨isPart_words e, moreWords rest⟩
  moreWords : (args : List Expr) → ∀ w ∈ words.moreWords args, IsPart w
    | [] => by simp [words.moreWords]
    | e :: rest => by
        simpa [words.moreWords, or_imp, forall_and] using
          ⟨IsPart.comma, isPart_words e, moreWords rest⟩

mutual

-- The tree is the expression, as its parts are read.
inductive Reads : Tree → Expr → Prop
  | name {t : Tree} {x : Ident} (hkind : t.kind? = some .nameRef)
      (hident : t.identText? = some x.text) : Reads t (.name x)
  | number {t : Tree} {n : Digits} (hkind : t.kind? = some .literal)
      (hliteral : t.literalKind? = some .int)
      (htoken : t.literalToken?.map (·.text) = some n.text) : Reads t (.number n)
  | paren {t u : Tree} {e : Expr} (hkind : t.kind? = some .parenExpr) (hinner : t.expr? = some u)
      (hu : Reads u e) : Reads t (.paren e)
  | unary {t u : Tree} {op : UnaryOp} {e : Expr} (hkind : t.kind? = some .unaryExpr)
      (hop : t.unaryOp? = some op.word.kind) (hoperand : t.expr? = some u) (hu : Reads u e) :
      Reads t (.unary op e)
  | binary {t u v : Tree} {op : BinaryOp} {l r : Expr} (hkind : t.kind? = some .binaryExpr)
      (hlhs : t.expr? = some u) (hop : t.binaryOp? = some op.word.kind)
      (hrhs : t.secondExpr? = some v) (hu : Reads u l) (hv : Reads v r) : Reads t (.binary op l r)
  | selector {t u : Tree} {b : Expr} {x : Ident} (hkind : t.kind? = some .selectorExpr)
      (hbase : t.expr? = some u) (hmember : t.identText? = some x.text) (hu : Reads u b) :
      Reads t (.selector b x)
  | call {t u : Tree} {f : Expr} {args : List Expr} (hkind : t.kind? = some .callExpr)
      (hcallee : t.expr? = some u) (hu : Reads u f) (hargs : ReadsAll t.args args)
      (hspread : t.argList?.map Tree.hasSpread = some false) : Reads t (.call f args)
  | index {t u v : Tree} {b k : Expr} (hkind : t.kind? = some .indexExpr)
      (hbase : t.expr? = some u) (hkey : t.secondExpr? = some v) (hu : Reads u b) (hv : Reads v k) :
      Reads t (.index b k)

inductive ReadsAll : List Tree → List Expr → Prop
  | nil : ReadsAll [] []
  | cons {t : Tree} {ts : List Tree} {e : Expr} {es : List Expr} (ht : Reads t e)
      (hts : ReadsAll ts es) : ReadsAll (t :: ts) (e :: es)

end

end RoundTrip

end SpriteScript
