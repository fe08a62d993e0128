/-!
Powers of two and of ten.

They are the units of mantissas and the points of decimal grids.  Both are natural numbers; an
exponent with a sign is split by the caller into a factor and a divisor.
-/
namespace ScopeExit.Number

/-- A power of two. -/
def pow2 (k : Nat) : Nat := Nat.pow 2 k

/-- A power of ten. -/
def pow10 (k : Nat) : Nat := Nat.pow 10 k

/-- The number of values of a word of 32 bits. -/
def wordSize : Int := 4294967296

/-- The first value of a word of 32 bits whose sign bit is set. -/
def signBit : Int := 2147483648

theorem pow2_zero : pow2 0 = 1 := rfl

theorem pow2_succ (k : Nat) : pow2 (k + 1) = pow2 k * 2 := rfl

theorem pow10_zero : pow10 0 = 1 := rfl

theorem pow10_succ (k : Nat) : pow10 (k + 1) = pow10 k * 10 := rfl

theorem pow2_pos (k : Nat) : 0 < pow2 k := by
  induction k with
  | zero => decide
  | succ k ih => rw [pow2_succ]; omega

theorem pow10_pos (k : Nat) : 0 < pow10 k := by
  induction k with
  | zero => decide
  | succ k ih => rw [pow10_succ]; omega

theorem wordSize_eq : wordSize = pow2 32 := rfl

theorem signBit_eq : signBit = pow2 31 := rfl

end ScopeExit.Number
