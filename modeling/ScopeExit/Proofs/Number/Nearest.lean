import ScopeExit.Proofs.Number.Representation
/-!
Whole numbers and the floats next to them.

An integer that is divided becomes a float first, so it loses what does not fit into 53 bits.  `nearest` says what
is left of it, and `overflowLimit` from where on nothing is: the largest float is `(2 ^ 53 - 1) * 2 ^ 971`, and half a
unit above it everything is rounded to infinity.  What is computed with the floats is exact again, since the
remainder of two floats is a float and the quotient of two integers is rounded only once.

So the remainder is that of the nearest floats, and a quotient that is whole is the float nearest to it.  Both are
exact for whole numbers that are values of floats, all up to `2 ^ 53` among them.

**Main result.** `mod_ints` and `div_ints`: remainder and quotient of two integers that floats can hold.
-/
namespace ScopeExit.Number

/-- The least whole number that is too large to become a float. -/
def overflowLimit : Nat := (2 ^ 54 - 1) * 2 ^ 970

/-- A natural number rounded to 53 bits. -/
def nearestNat (n : Nat) : Nat := roundEven n (2 ^ (n.log2 - 52)) * 2 ^ (n.log2 - 52)

/-- The whole number that the float next to an integer is. -/
def nearest (n : Int) : Int := Exact.signed (n < 0) (nearestNat n.natAbs)

/-- A whole number that is the value of a float. -/
def IsFloat (n : Int) : Prop := ∃ x : Float, (Exact.ofFloat x).toInt? = some n

/-! ### Rounding -/

/-- Below the middle between two integers the lower one is not exceeded. -/
theorem roundEven_le_of_below {num den k : Nat} (h : 2 * num < (2 * k + 1) * den) : roundEven num den ≤ k := by
  have hden : 0 < den := Nat.pos_of_ne_zero (by rintro rfl; simp at h)
  have split := Nat.div_add_mod num den
  have quotient : 2 * (num / den) < 2 * k + 1 := by
    have scaled : den * (2 * (num / den)) < den * (2 * k + 1) := by linarith [(num % den).zero_le]
    exact lt_of_mul_lt_mul_left scaled den.zero_le
  unfold roundEven
  dsimp only
  split
  · omega
  · have above : 2 * (num / den) + 1 < 2 * k + 1 :=
      lt_of_mul_lt_mul_left (by linarith : den * (2 * (num / den) + 1) < den * (2 * k + 1)) den.zero_le
    split
    · omega
    · omega

/-- From the middle on an odd integer is exceeded. -/
theorem lt_roundEven_of_odd {num den k : Nat} (hden : 0 < den) (odd : k % 2 = 1)
    (h : (2 * k + 1) * den ≤ 2 * num) : k < roundEven num den := by
  have split := Nat.div_add_mod num den
  have rest := Nat.mod_lt num hden
  have quotient : k ≤ num / den := (Nat.le_div_iff_mul_le hden).mpr (by nlinarith)
  unfold roundEven
  dsimp only
  by_cases same : num / den = k
  · rw [same] at split ⊢
    have middle : den ≤ 2 * (num % den) := by nlinarith
    split
    · omega
    · split <;> omega
  · split
    · omega
    · split <;> omega

theorem exponentFor_one {n : Nat} (hn : 0 < n) : exponentFor n 1 = (n.log2 : Int) - 52 := by
  rw [exponentFor_eq hn Nat.one_pos, Nat.cast_one, div_one, Int.log_natCast, ← Nat.log2_eq_log_two]
  simp only [minExponent]
  omega

theorem two_pow_mul_le {a b c : Nat} (h : a + b ≤ c) : 2 ^ a * 2 ^ b ≤ 2 ^ c := by
  rw [← Nat.pow_add]
  exact Nat.pow_le_pow_right Nat.two_pos h

theorem two_pow_le_mul {a b c : Nat} (h : c ≤ a + b) : 2 ^ c ≤ 2 ^ a * 2 ^ b := by
  rw [← Nat.pow_add]
  exact Nat.pow_le_pow_right Nat.two_pos h

/-- The bits of a number that has more than 53 of them. -/
theorem mantissa_bounds {n : Nat} (large : 53 ≤ n.log2) :
    2 ^ 52 ≤ roundEven n (2 ^ (n.log2 - 52)) ∧ roundEven n (2 ^ (n.log2 - 52)) ≤ 2 ^ 53 := by
  have hn : n ≠ 0 := by rintro rfl; simp at large
  have low := Nat.log2_self_le hn
  have high := @Nat.lt_log2_self n
  refine ⟨le_roundEven (by positivity) ?_, roundEven_le (by positivity) ?_⟩
  · exact (two_pow_mul_le (by omega)).trans low
  · exact high.trans_le (two_pow_le_mul (by omega))

/-- The float next to a number that has more than 53 bits. -/
theorem ofRatio_of_large {n : Nat} (large : 53 ≤ n.log2) (s : Bool) :
    ofRatio s n 1 = Float.ofBits (if roundEven n (2 ^ (n.log2 - 52)) = 2 ^ 53
      then packBits s (2 ^ 52) ((n.log2 - 52 : Nat) + 1)
      else packBits s (roundEven n (2 ^ (n.log2 - 52))) (n.log2 - 52 : Nat)).toUInt64 := by
  have hn : n ≠ 0 := by rintro rfl; simp at large
  have exponent : exponentFor n 1 = ((n.log2 - 52 : Nat) : Int) := by rw [exponentFor_one (by omega)]; omega
  have mantissa : mantissaFor n 1 ((n.log2 - 52 : Nat) : Int) = roundEven n (2 ^ (n.log2 - 52)) := by
    unfold mantissaFor
    rw [if_neg (by omega), Int.natAbs_natCast, Nat.one_mul, pow2_eq]
  simp only [ofRatio, if_neg hn, exponent, mantissa, pow2_eq]

theorem ofFloat_of_large_exponent (s : Bool) (m : Nat) {e : Int} (large : maxExponent < e) :
    Exact.ofFloat (Float.ofBits (packBits s m e).toUInt64) = .infinite s := by
  have bits : packBits s m e = joinBits s 2047 0 := by
    simp only [packBits, if_pos large, joinBits, Nat.add_zero]
    rfl
  have value : Exact.ofBits (joinBits s 2047 0) = .infinite s := ofBits_joinBits s (by norm_num) (by norm_num)
  have small : joinBits s 2047 0 < 2 ^ 64 := joinBits_lt s (by norm_num) (by norm_num)
  rw [bits, ofFloat_ofBits small (by rw [value]; exact Exact.noConfusion), value]

/-- A number that is not too large becomes the float of the nearest number. -/
theorem exists_nearest {n : Nat} (small : n < overflowLimit) :
    ∃ m e, Canonical m e ∧ (nearestNat n : ℚ) = m * 2 ^ e ∧
      ∀ s, Exact.ofFloat (ofRatio s n 1) = .finite s m e := by
  by_cases large : 53 ≤ n.log2
  · have hn : n ≠ 0 := by rintro rfl; simp at large
    have low := Nat.log2_self_le hn
    have bound : n.log2 ≤ 1023 := by
      by_contra above
      have := two_pow_mul_le (by omega : 54 + 970 ≤ n.log2)
      unfold overflowLimit at small
      omega
    obtain ⟨lower, upper⟩ := mantissa_bounds large
    -- of the largest exponent, only mantissas below the middle to the next one are left
    have last : n.log2 = 1023 → roundEven n (2 ^ (n.log2 - 52)) < 2 ^ 53 := by
      intro top
      rw [top]
      refine Nat.lt_of_le_of_lt (roundEven_le_of_below (k := 2 ^ 53 - 1) ?_) (by norm_num)
      rw [show 1023 - 52 = 970 + 1 from rfl, Nat.pow_succ]
      unfold overflowLimit at small
      omega
    by_cases carry : roundEven n (2 ^ (n.log2 - 52)) = 2 ^ 53
    · have canonical : Canonical (2 ^ 52) ((n.log2 - 52 : Nat) + 1) := by
        refine ⟨by norm_num, ?_, ?_, fun h => absurd h (by norm_num)⟩ <;>
          simp only [minExponent, maxExponent] <;> omega
      refine ⟨2 ^ 52, (n.log2 - 52 : Nat) + 1, canonical, ?_, fun s => ?_⟩
      · rw [nearestNat, carry, zpow_add_one₀ two_ne_zero, zpow_natCast]
        push_cast
        ring
      · rw [ofRatio_of_large large, if_pos carry, canonical.ofFloat_packBits]
    · have canonical : Canonical (roundEven n (2 ^ (n.log2 - 52))) ((n.log2 - 52 : Nat) : Int) := by
        refine ⟨by omega, ?_, ?_, fun h => absurd h (by omega)⟩ <;>
          simp only [minExponent, maxExponent] <;> omega
      refine ⟨_, _, canonical, ?_, fun s => ?_⟩
      · rw [nearestNat, zpow_natCast]
        push_cast
        rfl
      · rw [ofRatio_of_large large, if_neg carry, canonical.ofFloat_packBits]
  · have few : n < 2 ^ 53 := Nat.lt_log2_self.trans_le (Nat.pow_le_pow_right Nat.two_pos (by omega))
    obtain ⟨m, e, canonical, value⟩ := isValue_of_le few.le
    have same : nearestNat n = n := by
      rw [nearestNat, show n.log2 - 52 = 0 by omega, Nat.pow_zero, Nat.mul_one]
      simpa using roundEven_exact n Nat.one_pos
    refine ⟨m, e, canonical, by rw [same, value], fun s => ?_⟩
    exact ofFloat_ofRatio s Nat.one_pos canonical (by rw [Nat.cast_one, div_one, value])

/-- A number that is too large is rounded to infinity. -/
theorem ofFloat_ofRatio_of_large {n : Nat} (large : overflowLimit ≤ n) (s : Bool) :
    Exact.ofFloat (ofRatio s n 1) = .infinite s := by
  have high := @Nat.lt_log2_self n
  have log : 1023 ≤ n.log2 := by
    by_contra below
    have := two_pow_le_mul (by omega : n.log2 + 1 ≤ 53 + 970)
    unfold overflowLimit at large
    omega
  rw [ofRatio_of_large (by omega)]
  split
  · exact ofFloat_of_large_exponent s _ (by simp only [maxExponent]; omega)
  · rename_i carry
    refine ofFloat_of_large_exponent s _ ?_
    by_contra top
    have top : n.log2 = 1023 := by simp only [maxExponent] at top; omega
    -- from the middle on the mantissa is rounded up, to one bit too many
    have above : 2 ^ 53 - 1 < roundEven n (2 ^ (n.log2 - 52)) := by
      refine lt_roundEven_of_odd (by positivity) (by norm_num) ?_
      rw [top, show 1023 - 52 = 970 + 1 from rfl, Nat.pow_succ]
      unfold overflowLimit at large
      omega
    obtain ⟨-, upper⟩ := mantissa_bounds (by omega : 53 ≤ n.log2)
    omega

/-! ### The nearest whole number -/

/-- The float of a natural number that is the value of one. -/
theorem ofFloat_of_value {n m : Nat} {e : Int} (canonical : Canonical m e) (value : (n : ℚ) = m * 2 ^ e) :
    Exact.ofFloat (ofRatio false n 1) = .finite false m e :=
  ofFloat_ofRatio false Nat.one_pos canonical (by rw [Nat.cast_one, div_one, value])

theorem lt_overflowLimit_of_isValue {n : Nat} (float : IsValue n) : n < overflowLimit := by
  obtain ⟨m, e, canonical, value⟩ := float
  by_contra large
  exact Exact.noConfusion ((ofFloat_of_value canonical value).symm.trans (ofFloat_ofRatio_of_large (not_lt.mp large) false))

theorem nearestNat_of_isValue {n : Nat} (float : IsValue n) : nearestNat n = n := by
  obtain ⟨m', e', -, nearest, read'⟩ := exists_nearest (lt_overflowLimit_of_isValue float)
  obtain ⟨m, e, canonical, value⟩ := float
  obtain ⟨-, rfl, rfl⟩ := Exact.finite.inj ((ofFloat_of_value canonical value).symm.trans (read' false))
  exact_mod_cast nearest.trans value.symm

theorem nearestNat_ne_zero {n : Nat} (hn : n ≠ 0) : nearestNat n ≠ 0 := by
  by_cases large : 53 ≤ n.log2
  · have := (mantissa_bounds large).1
    exact Nat.mul_ne_zero (by omega) (by positivity)
  · have few : n < 2 ^ 53 := Nat.lt_log2_self.trans_le (Nat.pow_le_pow_right Nat.two_pos (by omega))
    rwa [nearestNat_of_isValue (isValue_of_le few.le)]

theorem nearest_ne_zero {n : Int} (hn : n ≠ 0) : nearest n ≠ 0 := by
  intro zero
  have magnitude := Exact.natAbs_signed (n < 0) (nearestNat n.natAbs)
  rw [← nearest, zero, Int.natAbs_zero] at magnitude
  exact nearestNat_ne_zero (Int.natAbs_ne_zero.mpr hn) magnitude.symm

theorem isFloat_iff (n : Int) : IsFloat n ↔ IsValue n.natAbs := by
  constructor
  · rintro ⟨x, whole⟩
    cases read : Exact.ofFloat x with
    | nan => rw [read] at whole; contradiction
    | infinite s => rw [read] at whole; contradiction
    | finite s m e =>
      rw [read, Exact.toInt?_eq_some_iff] at whole
      exact ⟨m, e, (canonical_of_ofFloat read).1, (natAbs_of_rational whole).symm⟩
  · rintro ⟨m, e, canonical, value⟩
    refine ⟨_, (congrArg Exact.toInt? (canonical.ofFloat_packBits (n < 0))).trans ?_⟩
    rw [Exact.toInt?_eq_some_iff, ← Exact.rational_ofInt n, Exact.rational, Exact.rational, Exact.signed_cast,
      Exact.signed_cast, value, zpow_zero, mul_one]
    split <;> ring

theorem nearest_of_isFloat {n : Int} (float : IsFloat n) : nearest n = n := by
  rw [nearest, nearestNat_of_isValue ((isFloat_iff n).mp float), Exact.signed_natAbs]

theorem isFloat_of_le {n : Int} (small : n.natAbs ≤ 2 ^ 53) : IsFloat n := (isFloat_iff n).mpr (isValue_of_le small)

theorem lt_overflowLimit_of_isFloat {n : Int} (float : IsFloat n) : n.natAbs < overflowLimit :=
  lt_overflowLimit_of_isValue ((isFloat_iff n).mp float)

/-! ### Integers that become floats -/

/-- An integer becomes the float of the nearest number. -/
theorem rounded_int {n : Int} (small : n.natAbs < overflowLimit) :
    ∃ x : Float, (Number.int n).rounded = .ok (Exact.ofFloat x) ∧ Whole (nearest n) (Exact.ofFloat x) := by
  obtain ⟨m, e, -, value, read⟩ := exists_nearest small
  have rational : Exact.rational (n < 0) m e = (nearest n : Int) := by
    rw [Exact.rational, nearest, Exact.signed_cast, Exact.signed_cast, value]
    split <;> ring
  have sign : decide (n < 0) = decide (nearest n < 0) := by
    refine sign_of_rational ?_ rational
    rintro ⟨negative, rfl⟩
    have : n ≠ 0 := (of_decide_eq_true negative).ne
    rw [Nat.cast_zero, zero_mul] at value
    exact nearestNat_ne_zero (Int.natAbs_ne_zero.mpr this) (by exact_mod_cast value)
  refine ⟨ofRatio (n < 0) n.natAbs 1, ?_, m, e, by rw [read, sign], by rw [← sign, rational]⟩
  simp only [rounded, floatOfInt, read]
  exact congrArg Except.ok (read _)

theorem rounded_int_of_large {n : Int} (large : overflowLimit ≤ n.natAbs) :
    (Number.int n).rounded = .error .tooLarge := by
  simp only [rounded, floatOfInt, ofFloat_ofRatio_of_large large]
  rfl

/-! ### Remainders -/

/-- A remainder does not depend on the unit that both numbers are counted in. -/
theorem cast_mod_scaled {a b p q : Nat} {k : Int} (left : (a : ℚ) * 2 ^ k = p) (right : (b : ℚ) * 2 ^ k = q) :
    ((a % b : Nat) : ℚ) * 2 ^ k = (p % q : Nat) := by
  obtain ⟨j, rfl | rfl⟩ := k.eq_nat_or_neg
  · rw [zpow_natCast] at left right ⊢
    obtain rfl : a * 2 ^ j = p := by exact_mod_cast left
    obtain rfl : b * 2 ^ j = q := by exact_mod_cast right
    rw [Nat.mul_mod_mul_right]
    push_cast
    rfl
  · have unit : (2 : ℚ) ^ j ≠ 0 := by positivity
    rw [zpow_neg, zpow_natCast, mul_inv_eq_iff_eq_mul₀ unit] at left right ⊢
    obtain rfl : a = p * 2 ^ j := by exact_mod_cast left
    obtain rfl : b = q * 2 ^ j := by exact_mod_cast right
    rw [Nat.mul_mod_mul_right]
    push_cast
    rfl

theorem tmod_eq_signed (a b : Int) : a.tmod b = Exact.signed (a < 0) (a.natAbs % b.natAbs) := by
  have magnitude := Int.natAbs_tmod a b
  by_cases negative : a < 0
  · have sign := Int.tmod_nonneg b (a := -a) (by omega)
    rw [Int.neg_tmod] at sign
    simp only [Exact.signed, negative, decide_true, if_true]
    omega
  · have sign := Int.tmod_nonneg b (not_lt.mp negative)
    simp only [Exact.signed, negative, decide_false, Bool.false_eq_true, if_false]
    omega

/-- The remainder of two mantissas in their common unit is a mantissa again. -/
theorem align_mod {m m' : Nat} {e e' : Int} (h : Canonical m e) (h' : Canonical m' e') (hm' : m' ≠ 0) (s : Bool) :
    ∃ a b k, Exact.align m e (Exact.signed s m') e' = (a, b, minExponent + (k : Nat)) ∧ k ≤ 2045 ∧
      a.natAbs % b.natAbs < 2 ^ 53 := by
  have range {d : Int} (low : minExponent ≤ d) (high : d ≤ maxExponent) : ∃ k : Nat, d = minExponent + k ∧ k ≤ 2045 := by
    simp only [minExponent, maxExponent] at low high ⊢
    exact ⟨(d + 1074).toNat, by omega, by omega⟩
  unfold Exact.align
  by_cases lower : e ≤ e'
  · obtain ⟨k, exponent, bound⟩ := range h.least h.greatest
    refine ⟨_, _, k, by rw [if_pos lower, exponent], bound, ?_⟩
    exact (Nat.mod_le _ _).trans_lt h.mantissa
  · obtain ⟨k, exponent, bound⟩ := range h'.least h'.greatest
    refine ⟨_, _, k, by rw [if_neg lower, exponent], bound, ?_⟩
    rw [Exact.natAbs_signed]
    exact (Nat.mod_lt _ (Nat.pos_of_ne_zero hm')).trans h'.mantissa

/-- The remainder of two floats is not rounded. -/
theorem Whole.normalize_rem {a b : Int} {x y : Float} (hx : Whole a (Exact.ofFloat x)) (hy : Whole b (Exact.ofFloat y))
    (hb : b ≠ 0) : normalize (.float (remExact (Exact.ofFloat x) (Exact.ofFloat y))) = .int (a.tmod b) := by
  obtain ⟨m, e, finite, left⟩ := hx
  obtain ⟨m', e', finite', right⟩ := hy
  have hm := natAbs_of_rational left
  have hm' := natAbs_of_rational right
  have hm'0 : m' ≠ 0 := by
    rintro rfl
    rw [Nat.cast_zero, zero_mul] at hm'
    exact hb (Int.natAbs_eq_zero.mp (by exact_mod_cast hm'.symm))
  obtain ⟨c, d, k, aligned, bound, small⟩ :=
    align_mod (canonical_of_ofFloat finite).1 (canonical_of_ofFloat finite').1 hm'0 (b < 0)
  obtain ⟨c', d', k', aligned', hc, hd⟩ := Exact.exists_align m (Exact.signed (b < 0) m') e e'
  obtain ⟨rfl, rfl, rfl⟩ : c = c' ∧ d = d' ∧ minExponent + (k : Int) = k' := by simpa using aligned.symm.trans aligned'
  have unit : (0 : ℚ) < 2 ^ (minExponent + (k : Int)) := by positivity
  have left' : (c.natAbs : ℚ) * 2 ^ (minExponent + (k : Int)) = a.natAbs := by
    rw [Nat.cast_natAbs, Int.cast_abs, ← abs_of_pos unit, ← abs_mul, ← hc, Int.cast_natCast, hm, Nat.abs_cast]
  have right' : (d.natAbs : ℚ) * 2 ^ (minExponent + (k : Int)) = b.natAbs := by
    rw [Nat.cast_natAbs, Int.cast_abs, ← abs_of_pos unit, ← abs_mul, ← hd, ← hm', abs_mul, Exact.signed_cast]
    split <;> simp
  have remainder := cast_mod_scaled left' right'
  obtain ⟨m'', e'', canonical, value⟩ := exists_canonical k small bound
  have result : Exact.rational (a < 0) (c.natAbs % d.natAbs) (minExponent + (k : Int)) = (a.tmod b : Int) := by
    rw [tmod_eq_signed, Exact.rational, Exact.signed_cast, Exact.signed_cast, ← remainder]
    split <;> ring
  have float : IsValue (a.tmod b).natAbs := by
    refine ⟨m'', e'', canonical, ?_⟩
    rw [Int.natAbs_tmod, ← remainder, value]
  rw [finite, finite']
  simp only [remExact, aligned]
  exact normalize_toFloat float result

/-- The remainder of two integers is that of the nearest floats. -/
theorem mod_ints {a b : Int} (hb : b ≠ 0) (left : a.natAbs < overflowLimit) (right : b.natAbs < overflowLimit) :
    mod (.int a) (.int b) = .ok (.int ((nearest a).tmod (nearest b))) := by
  obtain ⟨x, hx, wholeX⟩ := rounded_int left
  obtain ⟨y, hy, wholeY⟩ := rounded_int right
  have remainder := wholeX.normalize_rem wholeY (nearest_ne_zero hb)
  obtain ⟨m, e, finite, -⟩ := wholeX
  obtain ⟨m', e', finite', -⟩ := wholeY
  have nonzero : ¬ (Number.int b).isZero = true := fun zero => hb ((isZero_int b).mp zero)
  rw [finite] at hx
  rw [finite'] at hy
  simp only [mod, if_neg nonzero, isInfinite, isNaN, viaFloats, hx, hy]
  rw [finite, finite'] at remainder
  exact congrArg Except.ok remainder

/-- Integers that are too large have no remainder. -/
theorem mod_ints_of_large {a b : Int} (hb : b ≠ 0) (large : overflowLimit ≤ a.natAbs ∨ overflowLimit ≤ b.natAbs) :
    mod (.int a) (.int b) = .error .tooLarge := by
  have nonzero : ¬ (Number.int b).isZero = true := fun zero => hb ((isZero_int b).mp zero)
  by_cases left : overflowLimit ≤ a.natAbs
  · simp only [mod, if_neg nonzero, isInfinite, rounded_int_of_large left]
    rfl
  · obtain ⟨x, hx, m, e, finite, -⟩ := rounded_int (not_le.mp left)
    rw [finite] at hx
    simp only [mod, if_neg nonzero, isInfinite, isNaN, hx, rounded_int_of_large (large.resolve_left left)]
    rfl

/-! ### Quotients -/

/-- A quotient that is whole is rounded once. -/
theorem ofFloat_quotient {b : Int} (hb : b ≠ 0) (q : Int) (s : Bool) :
    ofRatio s (b * q).natAbs b.natAbs = ofRatio s q.natAbs 1 := by
  refine ofRatio_congr s (Int.natAbs_pos.mpr hb) Nat.one_pos ?_
  rw [Int.natAbs_mul, Nat.mul_one, Nat.mul_comm]

theorem quotient_sign {b q : Int} (hb : b ≠ 0) (n : Nat) (zero : q = 0 → n = 0) :
    Exact.signed ((b * q < 0) != (b < 0)) n = Exact.signed (q < 0) n := by
  rcases eq_or_ne q 0 with rfl | hq
  · rw [zero rfl]
    simp [Exact.signed]
  · congr 1
    rcases lt_or_gt_of_ne hb with hb | hb <;> rcases lt_or_gt_of_ne hq with hq | hq <;>
      simp [mul_neg_iff, hb, hq, hb.not_gt, hq.not_gt]

/-- A quotient that is whole is the float next to it. -/
theorem div_ints {a b : Int} (hb : b ≠ 0) (divides : b ∣ a) (small : (a / b).natAbs < overflowLimit) :
    div (.int a) (.int b) = .ok (.int (nearest (a / b))) := by
  obtain ⟨q, rfl⟩ := divides
  rw [Int.mul_ediv_cancel_left q hb] at small ⊢
  obtain ⟨m, e, -, value, read⟩ := exists_nearest small
  have nonzero : ¬ (Number.int b).isZero = true := fun zero => hb ((isZero_int b).mp zero)
  have whole (s : Bool) : (Exact.finite s m e).toInt? = some (Exact.signed s (nearestNat q.natAbs)) := by
    rw [Exact.toInt?_eq_some_iff, Exact.rational, Exact.signed_cast, Exact.signed_cast, value]
    split <;> ring
  simp only [div, if_neg nonzero, divInts, ofFloat_quotient hb, read, normalize, whole]
  rw [quotient_sign hb, nearest]
  rintro rfl
  rfl

/-- A quotient that is whole and too large for a float is refused. -/
theorem div_ints_of_large {a b : Int} (hb : b ≠ 0) (divides : b ∣ a) (large : overflowLimit ≤ (a / b).natAbs) :
    div (.int a) (.int b) = .error .quotientTooLarge := by
  obtain ⟨q, rfl⟩ := divides
  rw [Int.mul_ediv_cancel_left q hb] at large
  have nonzero : ¬ (Number.int b).isZero = true := fun zero => hb ((isZero_int b).mp zero)
  simp only [div, if_neg nonzero, divInts, ofFloat_quotient hb, ofFloat_ofRatio_of_large large]

end ScopeExit.Number
