import Mathlib.Data.Int.Bitwise
import SpriteScript.Semantics.Constant

-- The arithmetic on integer constants, compared with that on all integers.
namespace SpriteScript.Constant

-- The integer has a constant.
def Fits (n : Int) : Prop := minInt ≤ n ∧ n ≤ maxInt

instance (n : Int) : Decidable (Fits n) := inferInstanceAs (Decidable (_ ∧ _))

theorem fits_iff {n : Int} : Fits n ↔ -2 ^ 63 ≤ n ∧ n < 2 ^ 63 := by
  simp only [Fits, minInt, maxInt]
  omega

theorem fits_natCast {n : Nat} : Fits n ↔ n < 2 ^ 63 := by
  rw [fits_iff]
  omega

theorem fits_negSucc {n : Nat} : Fits (.negSucc n) ↔ n < 2 ^ 63 := by
  rw [fits_iff]
  omega

-- The integer, if it has a constant.
def fit? (n : Int) : Option Int := if Fits n then some n else none

theorem fit?_of_fits {n : Int} (h : Fits n) : fit? n = some n := if_pos h

theorem fit?_eq_some_iff {a n : Int} : fit? a = some n ↔ a = n ∧ Fits n := by
  unfold fit?
  split
  case isTrue h => simpa using fun heq => heq ▸ h
  case isFalse h => simpa using fun heq => heq ▸ h

theorem ofInt?_eq (n : Int) : ofInt? n = (fit? n).map int := by
  have hofInt : ofInt? n = if Fits n then some (int n) else none := by
    simp only [ofInt?, Bool.and_eq_true, decide_eq_true_eq]
    rfl
  rw [hofInt, fit?]
  split <;> rfl

section Words

variable {f : Bool → Bool → Bool} {a b : Int} {w i : Nat}

theorem toInt_ofInt (h : Fits a) : (Int64.ofInt a).toInt = a :=
  Int64.toInt_ofInt_of_le (fits_iff.mp h).1 (fits_iff.mp h).2

theorem fits_natBitwise (f : Bool → Bool → Bool) {m n : Nat} (hm : m < 2 ^ 63) (hn : n < 2 ^ 63) :
    Fits (Int.natBitwise f m n) := by
  unfold Int.natBitwise
  cases f false false with
  | true => exact fits_negSucc.mpr (Nat.bitwise_lt_two_pow hm hn)
  | false => exact fits_natCast.mpr (Nat.bitwise_lt_two_pow hm hn)

-- A bit operation needs no more bits than its operands.
theorem fits_bitwise (f : Bool → Bool → Bool) (ha : Fits a) (hb : Fits b) : Fits (Int.bitwise f a b) := by
  cases a with
  | ofNat m =>
      cases b with
      | ofNat n => exact fits_natBitwise f (fits_natCast.mp ha) (fits_natCast.mp hb)
      | negSucc n => exact fits_natBitwise (fun x y => f x !y) (fits_natCast.mp ha) (fits_negSucc.mp hb)
  | negSucc m =>
      cases b with
      | ofNat n => exact fits_natBitwise (fun x y => f (!x) y) (fits_negSucc.mp ha) (fits_natCast.mp hb)
      | negSucc n => exact fits_natBitwise (fun x y => f (!x) !y) (fits_negSucc.mp ha) (fits_negSucc.mp hb)

theorem getElem_ofNat (n : Nat) (hi : i < w) : (BitVec.ofNat w n)[i] = n.testBit i := by
  rw [← BitVec.getLsbD_eq_getElem, BitVec.getLsbD_ofNat, decide_eq_true hi, Bool.true_and]

theorem getElem_ofInt_natBitwise (m n : Nat) (hi : i < w) :
    (BitVec.ofInt w (Int.natBitwise f m n))[i] = f (m.testBit i) (n.testBit i) := by
  unfold Int.natBitwise
  cases hf : f false false with
  | true => simp [getElem_ofNat, Nat.testBit_bitwise, hf]
  | false => simp [getElem_ofNat, Nat.testBit_bitwise, hf]

theorem getElem_ofInt_bitwise (a b : Int) (hi : i < w) :
    (BitVec.ofInt w (Int.bitwise f a b))[i] = f (BitVec.ofInt w a)[i] (BitVec.ofInt w b)[i] := by
  cases a <;> cases b <;> simp [Int.bitwise, getElem_ofInt_natBitwise, getElem_ofNat]

theorem onWords_eq_bitwise {g : Int64 → Int64 → Int64}
    (hg : ∀ x y i (hi : i < 64), (g x y).toBitVec[i] = f x.toBitVec[i] y.toBitVec[i]) (ha : Fits a)
    (hb : Fits b) : onWords g a b = Int.bitwise f a b := by
  have hwords : g (.ofInt a) (.ofInt b) = .ofInt (Int.bitwise f a b) := by
    refine Int64.toBitVec_inj.mp (BitVec.eq_of_getElem_eq fun i hi => ?_)
    rw [hg, Int64.toBitVec_ofInt, Int64.toBitVec_ofInt, Int64.toBitVec_ofInt, getElem_ofInt_bitwise]
  rw [onWords, hwords, toInt_ofInt (fits_bitwise f ha hb)]

theorem onWords_and (ha : Fits a) (hb : Fits b) : onWords (· &&& ·) a b = a.land b := by
  rw [← Int.bitwise_and]
  exact onWords_eq_bitwise (fun x y i hi => by simp) ha hb

theorem onWords_or (ha : Fits a) (hb : Fits b) : onWords (· ||| ·) a b = a.lor b := by
  rw [← Int.bitwise_or]
  exact onWords_eq_bitwise (fun x y i hi => by simp) ha hb

theorem onWords_xor (ha : Fits a) (hb : Fits b) : onWords (· ^^^ ·) a b = a.xor b := by
  rw [← Int.bitwise_xor]
  exact onWords_eq_bitwise (fun x y i hi => by simp) ha hb

-- An amount below the number of bits is taken as it is.
theorem toBitVec_smod {n : Nat} (hlt : n < 64) : (Int64.ofInt n).toBitVec.smod 64 = BitVec.ofNat 64 n := by
  have hn : (BitVec.ofNat 64 n).toInt = n := by
    rw [← BitVec.ofInt_natCast, BitVec.toInt_ofInt, Int.bmod_eq_of_le (by omega) (by omega)]
  refine BitVec.eq_of_toInt_eq ?_
  rw [BitVec.toInt_smod, Int64.toBitVec_ofInt, BitVec.ofInt_natCast, hn]
  exact Int.fmod_eq_of_lt (Int.natCast_nonneg n) (Int.ofNat_lt.mpr hlt)

theorem toNat_ofNat_amount {n : Nat} (hlt : n < 64) : (BitVec.ofNat 64 n).toNat = n := by
  rw [BitVec.toNat_ofNat, Nat.mod_eq_of_lt (by omega)]

theorem onWords_shiftRight {n : Nat} (ha : Fits a) (hlt : n < 64) :
    onWords (· >>> ·) a n = a.fdiv (2 ^ n) := by
  have hpos : (0 : Int) ≤ 2 ^ n := Int.le_of_lt (Int.pow_pos (by decide))
  rw [onWords, ← Int64.toInt_toBitVec, Int64.toBitVec_shiftRight, toBitVec_smod hlt, BitVec.sshiftRight_eq',
    toNat_ofNat_amount hlt, BitVec.toInt_sshiftRight, Int64.toInt_toBitVec, toInt_ofInt ha,
    Int.shiftRight_eq_div_pow, Int.fdiv_eq_ediv_of_nonneg a hpos, Int.natCast_pow, Nat.cast_ofNat]

-- What is shifted out to the left is lost.
theorem onWords_shiftLeft {n : Nat} (hlt : n < 64) : onWords (· <<< ·) a n = (a * 2 ^ n).bmod (2 ^ 64) := by
  have hpow : BitVec.ofInt 64 (2 ^ n) = BitVec.twoPow 64 n := by
    refine BitVec.eq_of_toNat_eq ?_
    rw [BitVec.toNat_twoPow, ← BitVec.toNat_ofNat, ← BitVec.ofInt_natCast, Int.natCast_pow, Nat.cast_ofNat]
  rw [onWords, ← Int64.toInt_toBitVec, Int64.toBitVec_shiftLeft, toBitVec_smod hlt, BitVec.shiftLeft_eq',
    toNat_ofNat_amount hlt, BitVec.shiftLeft_eq_mul_twoPow, Int64.toBitVec_ofInt, ← hpow, ← BitVec.ofInt_mul,
    BitVec.toInt_ofInt]

-- The result of a shift to the left, which keeps the lower bits.
def shiftedLeft? (a b : Int) : Option Int :=
  if 0 ≤ b ∧ b < 64 then some ((a * 2 ^ b.toNat).bmod (2 ^ 64)) else none

theorem foldInts_shiftLeft (a b : Int) : foldInts .shl a b = .ofOption ((shiftedLeft? a b).map int) := by
  by_cases h : 0 ≤ b ∧ b < 64
  · obtain ⟨n, rfl⟩ := Int.eq_ofNat_of_zero_le h.1
    rw [shiftedLeft?, if_pos h, Int.toNat_natCast, ← onWords_shiftLeft (Int.ofNat_lt.mp h.2)]
    simp [foldInts, h.2, Folded.ofOption]
  · rw [shiftedLeft?, if_neg h]
    simpa [foldInts, Folded.ofOption] using h

-- It is exact only if nothing is lost.
theorem shiftedLeft?_exact_iff {a b : Int} :
    shiftedLeft? a b = some (a * 2 ^ b.toNat) ↔ 0 ≤ b ∧ b < 64 ∧ Fits (a * 2 ^ b.toNat) := by
  have hbmod (n : Int) : n.bmod (2 ^ 64) = n ↔ Fits n := by
    rw [fits_iff, Int.bmod_def]
    omega
  rw [shiftedLeft?, Option.ite_none_right_eq_some, Option.some_inj, hbmod, and_assoc]

theorem fits_toInt (x : Int64) : Fits x.toInt := fits_iff.mpr ⟨x.le_toInt, x.toInt_lt⟩

end Words

end SpriteScript.Constant

namespace SpriteScript.Arithmetic

open Constant

-- Operators that make an integer of one.
inductive UnaryOp where
  | plus | minus | complement
deriving DecidableEq, Repr

namespace UnaryOp

def kind : UnaryOp → TokenKind
  | plus => .plus
  | minus => .minus
  | complement => .caret

def result : UnaryOp → Int → Int
  | plus, a => a
  | minus, a => -a
  | complement, a => a.lnot

theorem lnot_eq (a : Int) : a.lnot = -a - 1 := by
  cases a with
  | ofNat n =>
      simp only [Int.lnot, Int.ofNat_eq_natCast]
      omega
  | negSucc n =>
      simp only [Int.lnot]
      omega

-- The result that the checker knows.
def known? (op : UnaryOp) (a : Int) : Option Int := fit? (op.result a)

theorem foldUnary?_eq {op : UnaryOp} {a : Int} (ha : Fits a) :
    foldUnary? op.kind (int a) = (op.known? a).map int := by
  rw [known?, ← ofInt?_eq]
  cases op with
  | plus =>
      rw [result, ofInt?_eq, fit?_of_fits ha]
      rfl
  | minus => rfl
  | complement =>
      have hfits : Fits (-a - 1) := by
        rw [fits_iff] at ha ⊢
        omega
      rw [result, lnot_eq, ofInt?_eq, fit?_of_fits hfits]
      rfl

end UnaryOp

-- Operators that make an integer of two, except for shifts to the left.
inductive BinaryOp where
  | plus | minus | times | divide | remainder | bitAnd | bitOr | bitXor | shiftRight
deriving DecidableEq, Repr

namespace BinaryOp

def kind : BinaryOp → TokenKind
  | plus => .plus
  | minus => .minus
  | times => .star
  | divide => .slash
  | remainder => .percent
  | bitAnd => .amp
  | bitOr => .pipe
  | bitXor => .caret
  | shiftRight => .shr

def divides : BinaryOp → Bool
  | divide | remainder => true
  | _ => false

-- The result over all integers. Bits are those of two's complement, and a shift to the right is a
-- division that rounds down.
def result? : BinaryOp → Int → Int → Option Int
  | plus, a, b => some (a + b)
  | minus, a, b => some (a - b)
  | times, a, b => some (a * b)
  | divide, a, b => if b = 0 then none else some (a.tdiv b)
  | remainder, a, b => if b = 0 then none else some (a.tmod b)
  | bitAnd, a, b => some (a.land b)
  | bitOr, a, b => some (a.lor b)
  | bitXor, a, b => some (a.xor b)
  | shiftRight, a, b => if 0 ≤ b then some (a.fdiv (2 ^ b.toNat)) else none

-- Whether the operation is carried out at all: not every one is whose result fits.
def reaches : BinaryOp → Int → Int → Bool
  | remainder, a, b => !(a = minInt && b = -1)
  | shiftRight, _, b => b < 64
  | _, _, _ => true

-- The result that the checker knows.
def known? (op : BinaryOp) (a b : Int) : Option Int :=
  if op.reaches a b then (op.result? a b).bind fit? else none

variable {op : BinaryOp} {a b n : Int}

theorem exact_of_known? (h : op.known? a b = some n) : op.result? a b = some n ∧ Fits n := by
  obtain ⟨-, hbind⟩ := Option.ite_none_right_eq_some.mp h
  obtain ⟨m, hresult, hfit⟩ := Option.bind_eq_some_iff.mp hbind
  obtain ⟨rfl, hfits⟩ := fit?_eq_some_iff.mp hfit
  exact ⟨hresult, hfits⟩

theorem result?_zero (h : op.divides = true) : op.result? a 0 = none := by
  cases op with
  | divide | remainder => rfl
  | _ => cases h

theorem known?_zero (h : op.divides = true) : op.known? a 0 = none := by
  cases op with
  | divide => rfl
  | remainder => cases hreaches : remainder.reaches a 0 <;> rw [known?, hreaches] <;> rfl
  | _ => cases h

theorem map_known? (hresult : op.result? a b = some n) (hreaches : op.reaches a b = true) :
    (op.known? a b).map int = ofInt? n := by
  rw [known?, if_pos hreaches, hresult, ofInt?_eq]
  rfl

theorem known?_of_not_reaches (h : op.reaches a b = false) : op.known? a b = none :=
  if_neg (Bool.eq_false_iff.mp h)

theorem map_known?_of_words {f : Int64 → Int64 → Int64} (hresult : op.result? a b = some (onWords f a b))
    (hreaches : op.reaches a b = true) : (op.known? a b).map int = some (int (onWords f a b)) := by
  have hfits : Fits (onWords f a b) := fits_toInt _
  rw [map_known? hresult hreaches, ofInt?_eq, fit?_of_fits hfits]
  rfl

theorem fits_tmod (ha : Fits a) (b : Int) : Fits (a.tmod b) := by
  have hle : (a.tmod b).natAbs ≤ a.natAbs := Int.natAbs_tmod a b ▸ Nat.mod_le _ _
  have hneg : 0 ≤ -a → 0 ≤ -a.tmod b := fun h => Int.neg_tmod a b ▸ Int.tmod_nonneg b h
  rw [fits_iff] at ha ⊢
  omega

-- The arithmetic on constants is that on all integers, as far as it reaches.
theorem foldInts_eq (ha : Fits a) (hb : Fits b) : foldInts op.kind a b =
    if op.divides && b = 0 then .divisionByZero else .ofOption ((op.known? a b).map int) := by
  cases op with
  | plus => exact congrArg Folded.ofOption (map_known? rfl rfl).symm
  | minus => exact congrArg Folded.ofOption (map_known? rfl rfl).symm
  | times => exact congrArg Folded.ofOption (map_known? rfl rfl).symm
  | divide =>
      by_cases hzero : b = 0
      · simp [foldInts, kind, divides, hzero]
      · have hresult : divide.result? a b = some (a.tdiv b) := if_neg hzero
        rw [map_known? hresult rfl]
        simp [foldInts, kind, divides, hzero]
  | remainder =>
      by_cases hzero : b = 0
      · simp [foldInts, kind, divides, hzero]
      · have hresult : remainder.result? a b = some (a.tmod b) := if_neg hzero
        cases hreaches : remainder.reaches a b with
        | true =>
            have hmin : a = minInt → ¬b = -1 := by simpa [reaches, imp_iff_not_or] using hreaches
            rw [map_known? hresult hreaches, ofInt?_eq, fit?_of_fits (fits_tmod ha b)]
            simpa [foldInts, kind, divides, hzero, Folded.ofOption] using hmin
        | false =>
            have hmin : a = minInt ∧ b = -1 := by simpa [reaches] using hreaches
            rw [known?_of_not_reaches hreaches]
            simp [foldInts, kind, divides, hmin, Folded.ofOption]
  | bitAnd =>
      have hresult : bitAnd.result? a b = some (onWords (· &&& ·) a b) :=
        congrArg some (onWords_and ha hb).symm
      rw [map_known?_of_words hresult rfl]
      rfl
  | bitOr =>
      have hresult : bitOr.result? a b = some (onWords (· ||| ·) a b) := congrArg some (onWords_or ha hb).symm
      rw [map_known?_of_words hresult rfl]
      rfl
  | bitXor =>
      have hresult : bitXor.result? a b = some (onWords (· ^^^ ·) a b) :=
        congrArg some (onWords_xor ha hb).symm
      rw [map_known?_of_words hresult rfl]
      rfl
  | shiftRight =>
      by_cases hnonneg : 0 ≤ b
      · by_cases hlt : b < 64
        · obtain ⟨n, rfl⟩ := Int.eq_ofNat_of_zero_le hnonneg
          have hresult : shiftRight.result? a n = some (onWords (· >>> ·) a n) := by
            rw [onWords_shiftRight ha (Int.ofNat_lt.mp hlt), result?, if_pos hnonneg, Int.toNat_natCast]
          rw [map_known?_of_words hresult (decide_eq_true hlt)]
          simp [foldInts, kind, divides, hlt, Folded.ofOption]
        · have hreaches : shiftRight.reaches a b = false := decide_eq_false hlt
          rw [known?_of_not_reaches hreaches]
          simp [foldInts, kind, divides, hlt, Folded.ofOption]
      · have hresult : shiftRight.result? a b = none := if_neg hnonneg
        rw [known?, hresult]
        simp [foldInts, kind, divides, hnonneg, Folded.ofOption]

end BinaryOp

end SpriteScript.Arithmetic
