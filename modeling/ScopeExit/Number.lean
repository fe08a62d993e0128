/-!
Numbers of the scripts: exact integers beside binary64 floats.

The two kinds are told apart everywhere but compared by value.  An integral result of arithmetic is
always an integer; a float that is integral comes only from a literal or from outside.
-/
namespace ScopeExit

/-- A number: an exact integer or a binary64 float. -/
inductive Number where
  /-- An integer of any size. -/
  | int (n : Int)
  /-- A float, possibly infinite or not a number. -/
  | float (x : Float)

instance : Inhabited Number := ⟨.int 0⟩

instance (n : Nat) : OfNat Number n := ⟨.int n⟩

/-- Why an operation on numbers has no result. -/
inductive NumberError where
  /-- An integer is too large to become a float. -/
  | tooLarge
  /-- A quotient of integers is too large for a float. -/
  | quotientTooLarge
  /-- An integer has more digits than a text may show or hold. -/
  | tooManyDigits
  deriving DecidableEq

end ScopeExit
