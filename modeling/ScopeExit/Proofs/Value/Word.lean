import ScopeExit.Proofs.Value.Integer
/-!
Integers as words of 32 bits.

The bitwise operators take their operands modulo `2 ^ 32`.  The word of an integer is a bit vector here, and the
operators are those of bit vectors: a result is read with its sign, but for the unsigned shift to the right.  The
distance of a shift is taken modulo 32.

The evaluator wraps some of its intermediate results only: a shift to the right cannot leave the range, and the
complement is computed as a difference.  `wrap32_eq` says that wrapping is reading the word with its sign, and so all
of them come to the same words.

**Main result.** `Heap.words`: the seven operators are those of words, for integers of either sign and any size up to
what a float can hold.
-/
namespace ScopeExit

/-- What a binary operator makes of two words. -/
def wordResult? (op : String) (p q : BitVec 32) : Option Int :=
  match op with
  | "&" => some (p &&& q).toInt
  | "|" => some (p ||| q).toInt
  | "^" => some (p ^^^ q).toInt
  | "<<" => some ((p.toInt * 2 ^ (q.toNat % 32)).bmod (2 ^ 32))
  | ">>" => some (p.toInt.fdiv (2 ^ (q.toNat % 32)))
  | ">>>" => some ((p.toNat : Int).fdiv (2 ^ (q.toNat % 32)))
  | _ => none

/-- The range of words that are read with their sign. -/
def IsSigned32 (n : Int) : Prop := -2 ^ 31 ≤ n ∧ n < 2 ^ 31

/-- The range of words that are read without a sign. -/
def IsUnsigned32 (n : Int) : Prop := 0 ≤ n ∧ n < 2 ^ 32

theorem isSigned32_toInt (p : BitVec 32) : IsSigned32 p.toInt := ⟨BitVec.le_toInt p, BitVec.toInt_lt⟩

/-- A shift to the right does not leave the range. -/
theorem IsSigned32.fdiv {n : Int} (h : IsSigned32 n) (k : Nat) : IsSigned32 (n.fdiv (2 ^ k)) := by
  have unit : (1 : Int) ≤ 2 ^ k := Int.pow_pos (by decide)
  obtain ⟨low, high⟩ := h
  rw [Int.fdiv_eq_ediv_of_nonneg _ (by omega)]
  refine ⟨?_, ?_⟩
  · rw [Int.le_ediv_iff_mul_le (by omega)]
    nlinarith
  · rw [Int.ediv_lt_iff_lt_mul (by omega)]
    nlinarith

namespace Heap

/-- Wrapping an integer reads its word with the sign. -/
theorem wrap32_eq (n : Int) : wrap32 n = (BitVec.ofInt 32 n).toInt := by
  rw [BitVec.toInt_ofInt, Int.bmod_def, wrap32, Number.wordSize, Number.signBit]
  norm_num
  split <;> split <;> omega

theorem wrap32_toNat (p : BitVec 32) : wrap32 p.toNat = p.toInt := by
  rw [wrap32_eq, BitVec.ofInt_natCast, BitVec.ofNat_toNat, BitVec.setWidth_eq]

theorem toInt_emod_wordSize (p : BitVec 32) : p.toInt % Number.wordSize = p.toNat := by
  have := p.isLt
  rw [BitVec.toInt_eq_toNat_cond, Number.wordSize]
  split <;> omega

theorem not_toInt (p : BitVec 32) : -p.toInt - 1 = (~~~p).toInt := by
  have := p.isLt
  rw [BitVec.toInt_eq_toNat_cond, BitVec.toInt_eq_toNat_cond, BitVec.toNat_not]
  split <;> split <;> omega

section

variable (h : Heap) {a b : Value} {x y : Int} (numberA : h.number a = .int x) (numberB : h.number b = .int y)
  (fitsX : x.natAbs < Number.overflowLimit) (fitsY : y.natAbs < Number.overflowLimit)
include numberA fitsX

theorem int32_word : h.int32 a = .ok (BitVec.ofInt 32 x).toInt := by
  obtain ⟨f, rounded, -⟩ := Number.rounded_int fitsX
  rw [← wrap32_eq]
  simp only [int32, Number.toInt32, numberA, rounded]
  rfl

theorem uint32_word : h.uint32 a = .ok (BitVec.ofInt 32 x).toNat := by
  obtain ⟨f, rounded, -⟩ := Number.rounded_int fitsX
  rw [← toInt_emod_wordSize, ← wrap32_eq]
  simp only [uint32, Number.toUInt32, Number.toInt32, numberA, rounded]
  rfl

theorem not_word : h.unary "~" a = .ok (.ofInt (~~~BitVec.ofInt 32 x).toInt) := by
  rw [← not_toInt]
  refine (h.unary_named rfl a).trans ?_
  rw [h.int32_word numberA fitsX]
  rfl

theorem shiftDistance_word : h.shiftDistance a = .ok ((BitVec.ofInt 32 x).toNat % 32) := by
  rw [shiftDistance, h.uint32_word numberA fitsX]
  rfl

include numberB fitsY

theorem bitwise_word {f : Nat → Nat → Nat} {r : BitVec 32}
    (bits : f (BitVec.ofInt 32 x).toNat (BitVec.ofInt 32 y).toNat = r.toNat) :
    h.bitwise f a b = .ok (.ofInt r.toInt) := by
  simp only [bitwise, h.int32_word numberA fitsX, h.int32_word numberB fitsY, bind, Except.bind, pure, Except.pure,
    toInt_emod_wordSize, Int.toNat_natCast, bits, wrap32_toNat]

theorem shiftLeft_word : h.shiftLeft a b =
    .ok (.ofInt (((BitVec.ofInt 32 x).toInt * 2 ^ ((BitVec.ofInt 32 y).toNat % 32)).bmod (2 ^ 32))) := by
  simp only [shiftLeft, h.int32_word numberA fitsX, h.shiftDistance_word numberB fitsY, bind, Except.bind, pure,
    Except.pure, wrap32_eq, BitVec.toInt_ofInt, Number.pow2_eq]
  push_cast
  rfl

theorem shiftRight_word : h.shiftRight a b =
    .ok (.ofInt ((BitVec.ofInt 32 x).toInt.fdiv (2 ^ ((BitVec.ofInt 32 y).toNat % 32)))) := by
  rw [Int.fdiv_eq_ediv_of_nonneg _ (by positivity)]
  simp only [shiftRight, h.int32_word numberA fitsX, h.shiftDistance_word numberB fitsY, bind, Except.bind, pure,
    Except.pure, Number.pow2_eq]
  push_cast
  rfl

theorem shiftRightUnsigned_word : h.shiftRightUnsigned a b =
    .ok (.ofInt (((BitVec.ofInt 32 x).toNat : Int).fdiv (2 ^ ((BitVec.ofInt 32 y).toNat % 32)))) := by
  rw [Int.fdiv_eq_ediv_of_nonneg _ (by positivity)]
  simp only [shiftRightUnsigned, h.uint32_word numberA fitsX, h.shiftDistance_word numberB fitsY, bind, Except.bind,
    pure, Except.pure, Number.pow2_eq]
  push_cast
  rfl

/-- The binary operators on the words of their operands. -/
theorem binary_word {op : String} {r : Int}
    (result : wordResult? op (BitVec.ofInt 32 x) (BitVec.ofInt 32 y) = some r) :
    h.binary op a b = .ok (.ofInt r) := by
  unfold wordResult? at result
  split at result <;> cases result
  · exact (h.binary_named rfl a b).trans (h.bitwise_word numberA numberB fitsX fitsY (BitVec.toNat_and ..).symm)
  · exact (h.binary_named rfl a b).trans (h.bitwise_word numberA numberB fitsX fitsY (BitVec.toNat_or ..).symm)
  · exact (h.binary_named rfl a b).trans (h.bitwise_word numberA numberB fitsX fitsY (BitVec.toNat_xor ..).symm)
  · exact (h.binary_named rfl a b).trans (h.shiftLeft_word numberA numberB fitsX fitsY)
  · exact (h.binary_named rfl a b).trans (h.shiftRight_word numberA numberB fitsX fitsY)
  · exact (h.binary_named rfl a b).trans (h.shiftRightUnsigned_word numberA numberB fitsX fitsY)

end

/-- The results are in the range of the words that they are read as. -/
theorem wordResult?_range {op : String} {p q : BitVec 32} {r : Int} (result : wordResult? op p q = some r) :
    if op = ">>>" then IsUnsigned32 r else IsSigned32 r := by
  unfold wordResult? at result
  split at result <;> cases result
  · exact isSigned32_toInt _
  · exact isSigned32_toInt _
  · exact isSigned32_toInt _
  · rw [if_neg (by decide), ← BitVec.toInt_ofInt]
    exact isSigned32_toInt _
  · exact (isSigned32_toInt p).fdiv _
  · have := p.isLt
    rw [if_pos rfl, Int.fdiv_eq_ediv_of_nonneg _ (by positivity)]
    refine ⟨Int.ediv_nonneg (by positivity) (by positivity), ?_⟩
    exact (Int.ediv_le_self _ (by positivity)).trans_lt (by exact_mod_cast this)

/-- **The bitwise operators are those of words of 32 bits.**  The operands count by their words, which are congruent
to the integers modulo `2 ^ 32`; so does the distance of a shift, modulo 32. -/
theorem words (h : Heap) {a b : Value} {x y : Int} (numberA : h.number a = .int x) (numberB : h.number b = .int y)
    (fitsX : x.natAbs < Number.overflowLimit) (fitsY : y.natAbs < Number.overflowLimit) :
    (∃ n, h.int32 a = .ok n ∧ n = (BitVec.ofInt 32 x).toInt ∧ IsSigned32 n ∧ n ≡ x [ZMOD 2 ^ 32]) ∧
    (∃ n, h.unary "~" a = .ok (.ofInt n) ∧ n = (~~~BitVec.ofInt 32 x).toInt ∧ IsSigned32 n) ∧
    ∀ op r, wordResult? op (BitVec.ofInt 32 x) (BitVec.ofInt 32 y) = some r →
      h.binary op a b = .ok (.ofInt r) ∧ if op = ">>>" then IsUnsigned32 r else IsSigned32 r := by
  refine ⟨⟨_, h.int32_word numberA fitsX, rfl, isSigned32_toInt _, ?_⟩,
    ⟨_, h.not_word numberA fitsX, rfl, isSigned32_toInt _⟩, fun op r result => ?_⟩
  · rw [BitVec.toInt_ofInt]
    exact_mod_cast Int.bmod_emod (m := 2 ^ 32)
  · exact ⟨h.binary_word numberA numberB fitsX fitsY result, wordResult?_range result⟩

/-- A negative integer far outside the range, shifted by more than its word has bits. -/
theorem words_wide :
    ({} : Heap).int32 (.ofInt (-2 ^ 40 - 5)) = .ok (-5) ∧
      ({} : Heap).binary ">>" (.ofInt (-2 ^ 40 - 5)) (.ofInt 67) = .ok (.ofInt (-1)) ∧
      ({} : Heap).binary ">>>" (.ofInt (-2 ^ 40 - 5)) (.ofInt 67) = .ok (.ofInt 536870911) := by
  obtain ⟨⟨n, converted, word, -⟩, -, shifts⟩ :=
    words (a := .ofInt (-2 ^ 40 - 5)) (b := .ofInt 67) {} rfl rfl (by decide +kernel) (by decide +kernel)
  refine ⟨?_, (shifts ">>" _ rfl).1, (shifts ">>>" _ rfl).1⟩
  rw [converted, word]
  exact congrArg _ (by decide)

end Heap

end ScopeExit
