import ScopeExit.Proofs.Number.Nearest
import ScopeExit.Proofs.Text.Spelling
import ScopeExit.Value.Operator
/-!
Integers under the operators of scripts.

Sums, differences and products of integers are exact, however large they are.  A remainder and a quotient are not:
both operands of `%` become floats, and so does what `/` gives.  `integer_arithmetic` says what comes out in general,
and that it is the exact result whenever operands and result are values of floats, as all integers up to `2 ^ 53` are.

**Main result.** `Heap.integer_arithmetic`: the five operators on two integers of any size.
-/
namespace ScopeExit.Heap

variable (h : Heap)

theorem binary_named {op : String} {f : Value → Value → Conversion Value} (named : h.binaryNamed? op = some f)
    (a b : Value) : h.binary op a b = f a b := by
  rw [binary, Text.toString?_ofString, Option.bind_some, named]

theorem unary_named {op : String} {f : Value → Conversion Value} (named : h.unaryNamed? op = some f) (v : Value) :
    h.unary op v = f v := by
  rw [unary, Text.toString?_ofString, Option.bind_some, named]

theorem numeric_error {f : Number → Number → Except NumberError Number} {x y : Int} {e : NumberError}
    (result : f (.int x) (.int y) = .error e) :
    h.numeric f (.ofInt x) (.ofInt y) = .error (.ofNumberError e) := by
  simp only [numeric, Value.ofInt, number, result]
  rfl

theorem numeric_ofInt {f : Number → Number → Except NumberError Number} {x y n : Int}
    (result : f (.int x) (.int y) = .ok (.int n)) : h.numeric f (.ofInt x) (.ofInt y) = .ok (.ofInt n) := by
  simp only [numeric, Value.ofInt, number, result]
  rfl

theorem add_ofInt (x y : Int) : h.binary "+" (.ofInt x) (.ofInt y) = .ok (.ofInt (x + y)) :=
  (h.binary_named rfl ..).trans rfl

theorem sub_ofInt (x y : Int) : h.binary "-" (.ofInt x) (.ofInt y) = .ok (.ofInt (x - y)) :=
  (h.binary_named rfl ..).trans (h.numeric_ofInt rfl)

theorem mul_ofInt (x y : Int) : h.binary "*" (.ofInt x) (.ofInt y) = .ok (.ofInt (x * y)) :=
  (h.binary_named rfl ..).trans (h.numeric_ofInt rfl)

theorem mod_ofInt {x y : Int} (hy : y ≠ 0) (left : x.natAbs < Number.overflowLimit)
    (right : y.natAbs < Number.overflowLimit) :
    h.binary "%" (.ofInt x) (.ofInt y) = .ok (.ofInt ((Number.nearest x).tmod (Number.nearest y))) :=
  (h.binary_named rfl ..).trans (h.numeric_ofInt (Number.mod_ints hy left right))

theorem div_ofInt {x y : Int} (hy : y ≠ 0) (divides : y ∣ x) (small : (x / y).natAbs < Number.overflowLimit) :
    h.binary "/" (.ofInt x) (.ofInt y) = .ok (.ofInt (Number.nearest (x / y))) :=
  (h.binary_named rfl ..).trans (h.numeric_ofInt (Number.div_ints hy divides small))

/-- The remainder of values of floats is exact. -/
theorem mod_exact {x y : Int} (hy : y ≠ 0) (left : Number.IsFloat x) (right : Number.IsFloat y) :
    h.binary "%" (.ofInt x) (.ofInt y) = .ok (.ofInt (x.tmod y)) := by
  rw [h.mod_ofInt hy (Number.lt_overflowLimit_of_isFloat left) (Number.lt_overflowLimit_of_isFloat right),
    Number.nearest_of_isFloat left, Number.nearest_of_isFloat right]

/-- A quotient that is the value of a float is exact. -/
theorem div_exact {x y : Int} (hy : y ≠ 0) (divides : y ∣ x) (float : Number.IsFloat (x / y)) :
    h.binary "/" (.ofInt x) (.ofInt y) = .ok (.ofInt (x / y)) := by
  rw [h.div_ofInt hy divides (Number.lt_overflowLimit_of_isFloat float), Number.nearest_of_isFloat float]

/-- The value of `((x - x % y) / y) * y + x % y`. -/
def recomposed (x y : Value) : Conversion Value := do
  let remainder ← h.binary "%" x y
  let multiple ← h.binary "-" x remainder
  let quotient ← h.binary "/" multiple y
  let product ← h.binary "*" quotient y
  h.binary "+" product remainder

theorem recomposed_ofInt {x y r q : Int} (remainder : h.binary "%" (.ofInt x) (.ofInt y) = .ok (.ofInt r))
    (quotient : h.binary "/" (.ofInt (x - r)) (.ofInt y) = .ok (.ofInt q)) :
    h.recomposed (.ofInt x) (.ofInt y) = .ok (.ofInt (q * y + r)) := by
  calc h.recomposed (.ofInt x) (.ofInt y)
      = (do
          let multiple ← h.binary "-" (.ofInt x) (.ofInt r)
          let quotient ← h.binary "/" multiple (.ofInt y)
          let product ← h.binary "*" quotient (.ofInt y)
          h.binary "+" product (.ofInt r)) := by rw [recomposed, remainder]; rfl
    _ = (do
          let quotient ← h.binary "/" (.ofInt (x - r)) (.ofInt y)
          let product ← h.binary "*" quotient (.ofInt y)
          h.binary "+" product (.ofInt r)) := by rw [h.sub_ofInt]; rfl
    _ = (do
          let product ← h.binary "*" (.ofInt q) (.ofInt y)
          h.binary "+" product (.ofInt r)) := by rw [quotient]; rfl
    _ = h.binary "+" (.ofInt (q * y)) (.ofInt r) := by rw [h.mul_ofInt]; rfl
    _ = .ok (.ofInt (q * y + r)) := h.add_ofInt ..

theorem recomposed_exact {x y : Int} (hy : y ≠ 0) (left : Number.IsFloat x) (right : Number.IsFloat y)
    (quotient : Number.IsFloat (x.tdiv y)) : h.recomposed (.ofInt x) (.ofInt y) = .ok (.ofInt x) := by
  have multiple : x - x.tmod y = y * x.tdiv y := by have := Int.mul_tdiv_add_tmod x y; omega
  have whole : (x - x.tmod y) / y = x.tdiv y := by rw [multiple, Int.mul_ediv_cancel_left _ hy]
  have divided := h.div_exact hy ⟨x.tdiv y, multiple⟩ (by rwa [whole])
  rw [h.recomposed_ofInt (h.mod_exact hy left right) divided, whole, Int.tdiv_mul_add_tmod]

/-- **Integer arithmetic.**  Sums, differences and products are exact.  So are a remainder, a quotient that is whole
and the division law, if operands or quotient are values of floats; in general the remainder is that of the nearest
floats, a quotient that is whole becomes the nearest float, and what is too large for a float is refused. -/
theorem integer_arithmetic (x y : Int) :
    h.binary "+" (.ofInt x) (.ofInt y) = .ok (.ofInt (x + y)) ∧
    h.binary "-" (.ofInt x) (.ofInt y) = .ok (.ofInt (x - y)) ∧
    h.binary "*" (.ofInt x) (.ofInt y) = .ok (.ofInt (x * y)) ∧
    (y ≠ 0 → Number.IsFloat x → Number.IsFloat y →
      h.binary "%" (.ofInt x) (.ofInt y) = .ok (.ofInt (x.tmod y)) ∧
      (Number.IsFloat (x.tdiv y) → h.recomposed (.ofInt x) (.ofInt y) = .ok (.ofInt x))) ∧
    (y ≠ 0 → y ∣ x → Number.IsFloat (x / y) → h.binary "/" (.ofInt x) (.ofInt y) = .ok (.ofInt (x / y))) ∧
    (y ≠ 0 → x.natAbs < Number.overflowLimit → y.natAbs < Number.overflowLimit →
      h.binary "%" (.ofInt x) (.ofInt y) = .ok (.ofInt ((Number.nearest x).tmod (Number.nearest y)))) ∧
    (y ≠ 0 → Number.overflowLimit ≤ x.natAbs ∨ Number.overflowLimit ≤ y.natAbs →
      h.binary "%" (.ofInt x) (.ofInt y) = .error (.ofNumberError .tooLarge)) ∧
    (y ≠ 0 → y ∣ x → (x / y).natAbs < Number.overflowLimit →
      h.binary "/" (.ofInt x) (.ofInt y) = .ok (.ofInt (Number.nearest (x / y)))) ∧
    (y ≠ 0 → y ∣ x → Number.overflowLimit ≤ (x / y).natAbs →
      h.binary "/" (.ofInt x) (.ofInt y) = .error (.ofNumberError .quotientTooLarge)) ∧
    ∀ n : Int, n.natAbs ≤ 2 ^ 53 → Number.IsFloat n := by
  refine ⟨h.add_ofInt x y, h.sub_ofInt x y, h.mul_ofInt x y, fun hy left right => ⟨h.mod_exact hy left right, ?_⟩,
    fun hy => h.div_exact hy, fun hy => h.mod_ofInt hy, fun hy large => ?_, fun hy => h.div_ofInt hy,
    fun hy divides large => ?_, fun _ => Number.isFloat_of_le⟩
  · exact h.recomposed_exact hy left right
  · exact (h.binary_named rfl ..).trans (h.numeric_error (Number.mod_ints_of_large hy large))
  · exact (h.binary_named rfl ..).trans (h.numeric_error (Number.div_ints_of_large hy divides large))

/-- Beyond `2 ^ 53`, but a value of a float. -/
theorem isFloat_power : Number.IsFloat (-2 ^ 60) := by
  have canonical : Number.Canonical (2 ^ 52) 8 :=
    ⟨by norm_num, by decide, by decide, fun h => absurd h (by norm_num)⟩
  exact (Number.isFloat_iff _).mpr ⟨2 ^ 52, 8, canonical, by norm_num⟩

theorem integer_arithmetic_power :
    ({} : Heap).binary "%" (.ofInt (-2 ^ 60)) (.ofInt 1000003) = .ok (.ofInt (-709420)) ∧
      ({} : Heap).recomposed (.ofInt (-2 ^ 60)) (.ofInt 1000003) = .ok (.ofInt (-2 ^ 60)) := by
  obtain ⟨-, -, -, exact, -⟩ := integer_arithmetic {} (-2 ^ 60) 1000003
  obtain ⟨remainder, law⟩ := exact (by decide) isFloat_power (Number.isFloat_of_le (by decide))
  exact ⟨remainder, law (Number.isFloat_of_le (by decide))⟩

theorem nearest_odd : Number.nearest 9007199254740993 = 9007199254740992 := by decide +kernel

/-- An odd number of 54 bits is no value of a float, so it has lost its last bit before it is divided. -/
theorem inexact_odd :
    ({} : Heap).binary "%" (.ofInt 9007199254740993) (.ofInt 2) ≠ .ok (.ofInt (Int.tmod 9007199254740993 2)) ∧
      ({} : Heap).binary "/" (.ofInt 9007199254740993) (.ofInt 1) ≠ .ok (.ofInt (9007199254740993 / 1)) ∧
      ({} : Heap).recomposed (.ofInt 9007199254740993) (.ofInt 1) ≠ .ok (.ofInt 9007199254740993) := by
  have remainder (y : Int) (hy : y ≠ 0) (small : y.natAbs ≤ 2 ^ 53) :
      ({} : Heap).binary "%" (.ofInt 9007199254740993) (.ofInt y) = .ok (.ofInt (Int.tmod 9007199254740992 y)) := by
    have float := Number.isFloat_of_le small
    rw [mod_ofInt {} hy (by decide +kernel) (Number.lt_overflowLimit_of_isFloat float), nearest_odd,
      Number.nearest_of_isFloat float]
  have quotient :
      ({} : Heap).binary "/" (.ofInt 9007199254740993) (.ofInt 1) = .ok (.ofInt 9007199254740992) := by
    rw [div_ofInt {} (by decide) (one_dvd _) (by decide +kernel), Int.ediv_one, nearest_odd]
  have other {m n : Int} (different : m ≠ n) : (.ok (.ofInt m) : Conversion Value) ≠ .ok (.ofInt n) := fun same =>
    different (Number.int.inj (Value.number.inj (Except.ok.inj same)))
  refine ⟨?_, ?_, ?_⟩
  · rw [remainder 2 (by decide) (by decide)]
    exact other (by decide)
  · rw [quotient]
    exact other (by decide)
  · rw [recomposed_ofInt {} (remainder 1 (by decide) (by decide)) quotient]
    exact other (by decide)

end ScopeExit.Heap
