import ScopeExit.Number.Arithmetic
import ScopeExit.Number.Literal
import ScopeExit.Proofs.Number.Binary64
/-!
The two representations of a whole number.

A float may be integral, and then it stands for the same number as an integer.  `settle` takes the integer
in its place.  The negative zero is no integer, since its sign shows in a quotient.

No comparison and no conversion tells a number from its settled form.  Arithmetic does not either, as long as
it stays within `2 ^ 53`, where every integer is the value of a float: there the exact arithmetic of integers
and the rounded arithmetic of floats agree.
-/
namespace ScopeExit.Number

/-- A number with an integer in place of an integral float. -/
def settle : Number → Number
  | .int n => .int n
  | .float x =>
    match Exact.ofFloat x with
    | .finite true 0 _ => .float x
    | v =>
      match v.toInt? with
      | some n => .int n
      | none => .float x

/-- The largest whole number up to which all of them are values of floats. -/
def wholeLimit : Nat := pow2 53

/-- The whole number that a number is, if it is one, is not too large. -/
def Fits (x : Number) : Prop := ∀ n, x.settle = .int n → n.natAbs ≤ wholeLimit

/-! ### Integral floats -/

/-- A finite value that is a whole number other than the negative zero. -/
def Whole (n : Int) (v : Exact) : Prop := ∃ m e, v = .finite (n < 0) m e ∧ Exact.rational (n < 0) m e = n

theorem sign_of_rational {s : Bool} {m : Nat} {e n : Int} (zero : ¬ (s = true ∧ m = 0))
    (value : Exact.rational s m e = n) : s = decide (n < 0) := by
  have unit : (0 : ℚ) < 2 ^ e := by positivity
  rw [Exact.rational, Exact.signed_cast] at value
  cases s with
  | true =>
    have positive : (0 : ℚ) < m := by
      have : m ≠ 0 := fun h => zero ⟨rfl, h⟩
      exact_mod_cast Nat.pos_of_ne_zero this
    have negative : (n : ℚ) < 0 := by
      rw [← value, if_pos rfl, neg_mul]
      exact neg_lt_zero.mpr (mul_pos positive unit)
    exact (decide_eq_true (by exact_mod_cast negative)).symm
  | false =>
    have large : (0 : ℚ) ≤ n := by
      rw [← value, if_neg Bool.false_ne_true]
      positivity
    exact (decide_eq_false (not_lt.mpr (by exact_mod_cast large))).symm

/-- A float is settled as it is, or it is a whole number. -/
theorem settle_float (x : Float) :
    settle (.float x) = .float x ∨ ∃ n, settle (.float x) = .int n ∧ Whole n (Exact.ofFloat x) := by
  unfold settle
  dsimp only
  split
  · exact .inl rfl
  · rename_i zero
    split
    · rename_i n whole
      refine .inr ⟨n, rfl, ?_⟩
      cases v : Exact.ofFloat x with
      | nan => rw [v] at whole; contradiction
      | infinite s => rw [v] at whole; contradiction
      | finite s m e =>
        rw [v] at whole
        have value := (Exact.toInt?_eq_some_iff s m e n).mp whole
        have sign := sign_of_rational (fun h => zero e (by rw [v, h.1, h.2])) value
        rw [sign] at value ⊢
        exact ⟨m, e, rfl, value⟩
    · exact .inl rfl

@[simp] theorem settle_int (n : Int) : settle (.int n) = .int n := rfl

@[simp] theorem settle_settle (x : Number) : x.settle.settle = x.settle := by
  cases x with
  | int n => rfl
  | float x =>
    rcases settle_float x with h | ⟨n, h, -⟩
    · rw [h, h]
    · rw [h, settle_int]

/-- The magnitude of a whole number in units of a float. -/
theorem natAbs_of_rational {s : Bool} {m : Nat} {e n : Int} (value : Exact.rational s m e = n) :
    (m : ℚ) * 2 ^ e = n.natAbs := by
  have unit : (0 : ℚ) < 2 ^ e := by positivity
  rw [Nat.cast_natAbs, Int.cast_abs, ← value, Exact.rational, Exact.signed_cast, abs_mul, abs_of_pos unit]
  cases s <;> simp

/-- A whole number becomes the float that it came from. -/
theorem Whole.floatOfInt_eq {n : Int} {x : Float} (h : Whole n (Exact.ofFloat x)) : floatOfInt n = .ok x := by
  obtain ⟨m, e, finite, value⟩ := h
  have same : ofRatio (n < 0) n.natAbs 1 = x :=
    ofRatio_of_ofFloat finite Nat.one_pos (by rw [natAbs_of_rational value, Nat.cast_one, div_one])
  simp only [floatOfInt, same, finite]

theorem Whole.toInt?_eq {n : Int} {v : Exact} (h : Whole n v) : v.toInt? = some n := by
  obtain ⟨m, e, rfl, value⟩ := h
  exact (Exact.toInt?_eq_some_iff _ m e n).mpr value

theorem Whole.settle_eq {n : Int} {x : Float} (h : Whole n (Exact.ofFloat x)) : settle (.float x) = .int n := by
  have integral := h.toInt?_eq
  obtain ⟨m, e, finite, value⟩ := h
  unfold settle
  dsimp only
  split
  · rename_i e' negativeZero
    obtain ⟨negative, rfl, -⟩ := Exact.finite.inj (finite.symm.trans negativeZero)
    have zero : n = 0 := by
      rw [Exact.rational, Exact.signed_cast, Nat.cast_zero, neg_zero, ite_self, zero_mul] at value
      exact_mod_cast value.symm
    have := of_decide_eq_true negative
    omega
  · rw [integral]

/-! ### What does not tell the representations apart -/

/-- A number becomes the same float in both representations. -/
@[simp] theorem rounded_settle (x : Number) : x.settle.rounded = x.rounded := by
  cases x with
  | int n => rfl
  | float x =>
    rcases settle_float x with h | ⟨n, h, whole⟩
    · rw [h]
    · rw [h, rounded, whole.floatOfInt_eq]
      rfl

@[simp] theorem isNaN_settle (x : Number) : x.settle.isNaN = x.isNaN := by rw [isNaN, rounded_settle, isNaN]

@[simp] theorem isInfinite_settle (x : Number) : x.settle.isInfinite = x.isInfinite := by
  rw [isInfinite, rounded_settle, isInfinite]

/-- Two exact values of one sign and one rational value. -/
inductive Exact.Same : Exact → Exact → Prop
  | refl (v : Exact) : Same v v
  | finite {s : Bool} {m m' : Nat} {e e' : Int} (value : Exact.rational s m e = Exact.rational s m' e') :
      Same (.finite s m e) (.finite s m' e')

theorem same_settle (x : Number) : Exact.Same x.settle.exact x.exact := by
  cases x with
  | int n => exact .refl _
  | float x =>
    rcases settle_float x with h | ⟨n, h, ⟨m, e, finite, value⟩⟩
    · rw [h]
      exact .refl _
    · rw [h, exact, exact, finite]
      exact .finite (by rw [Exact.rational_ofInt, value])

namespace Exact.Same

variable {v v' w w' : Exact}

theorem compare?_eq (h : Same v v') (k : Same w w') : v.compare? w = v'.compare? w' := by
  cases h with
  | refl =>
    cases k with
    | refl => rfl
    | finite value =>
      cases v with
      | nan => rfl
      | infinite s => rfl
      | finite s m e => rw [Exact.compare?_finite, Exact.compare?_finite, value]
  | finite value =>
    cases k with
    | refl =>
      cases w with
      | nan => rfl
      | infinite s => rfl
      | finite s m e => rw [Exact.compare?_finite, Exact.compare?_finite, value]
    | finite value' => rw [Exact.compare?_finite, Exact.compare?_finite, value, value']

theorem toInt?_eq (h : Same v v') : v.toInt? = v'.toInt? := by
  cases h with
  | refl => rfl
  | finite value =>
    refine Option.ext fun n => ?_
    rw [Exact.toInt?_eq_some_iff, Exact.toInt?_eq_some_iff, value]

end Exact.Same

@[simp] theorem toInt?_settle (x : Number) : x.settle.exact.toInt? = x.exact.toInt? := (same_settle x).toInt?_eq

@[simp] theorem eqv_settle (x y : Number) : x.settle.eqv y.settle = x.eqv y := by
  rw [eqv, (same_settle x).compare?_eq (same_settle y), eqv]

@[simp] theorem lt_settle (x y : Number) : x.settle.lt y.settle = x.lt y := by
  rw [lt, (same_settle x).compare?_eq (same_settle y), lt]

@[simp] theorem le_settle (x y : Number) : x.settle.le y.settle = x.le y := by rw [le, lt_settle, eqv_settle, le]

@[simp] theorem isZero_settle (x : Number) : x.settle.isZero = x.isZero := eqv_settle x 0

@[simp] theorem isNegative_settle (x : Number) : x.settle.isNegative = x.isNegative := by
  have same := same_settle x
  unfold isNegative
  generalize x.settle.exact = v at same ⊢
  generalize x.exact = w at same ⊢
  cases same <;> rfl

theorem truncate?_of_toInt? {v : Exact} {n : Int} (h : v.toInt? = some n) : v.truncate? = some n := by
  cases v with
  | nan => contradiction
  | infinite s => contradiction
  | finite s m e =>
    unfold Exact.toInt? at h
    unfold Exact.truncate?
    by_cases whole : 0 ≤ e
    · simpa [whole] using h
    · simp only [if_neg whole] at h ⊢
      split at h
      · exact h
      · contradiction

@[simp] theorem toInt32_settle (x : Number) : x.settle.toInt32 = x.toInt32 := by
  cases x with
  | int n => rfl
  | float x =>
    rcases settle_float x with h | ⟨n, h, whole⟩
    · rw [h]
    · rw [h]
      simp only [toInt32, rounded, whole.floatOfInt_eq, truncate?_of_toInt? whole.toInt?_eq]
      rfl

@[simp] theorem toUInt32_settle (x : Number) : x.settle.toUInt32 = x.toUInt32 := by
  rw [toUInt32, toInt32_settle, toUInt32]

@[simp] theorem render_settle (x : Number) : x.settle.render = x.render := by
  cases x with
  | int n => rfl
  | float x =>
    rcases settle_float x with h | ⟨n, h, whole⟩
    · rw [h]
    · have integral := whole.toInt?_eq
      obtain ⟨m, e, finite, -⟩ := whole
      rw [h]
      rw [finite] at integral
      simp only [render, finite, integral]

/-! ### Arithmetic -/

/-- The float next to a whole number within the limit is that number. -/
theorem whole_ofRatio {n : Int} (small : n.natAbs ≤ wholeLimit) :
    Whole n (Exact.ofFloat (ofRatio (n < 0) n.natAbs 1)) := by
  obtain ⟨m, e, canonical, value⟩ := isValue_of_le small
  refine ⟨m, e, ofFloat_ofRatio _ Nat.one_pos canonical (by rw [Nat.cast_one, div_one, value]), ?_⟩
  conv_rhs => rw [← Exact.rational_ofInt]
  rw [Exact.rational, Exact.rational, Exact.signed_cast, Exact.signed_cast, zpow_zero, mul_one, value]
  split <;> ring

/-- A whole number that fits becomes a float of its value. -/
theorem Fits.rounded_whole {x : Number} {n : Int} (h : x.Fits) (hx : x.settle = .int n) :
    ∃ v, x.rounded = .ok v ∧ Whole n v := by
  have whole := whole_ofRatio (h n hx)
  refine ⟨_, ?_, whole⟩
  rw [← rounded_settle, hx, rounded, whole.floatOfInt_eq]
  rfl

/-- The float next to a whole number that is the value of a float is the integer again. -/
theorem normalize_toFloat {s : Bool} {m : Nat} {e n : Int} (float : IsValue n.natAbs)
    (value : Exact.rational s m e = n) : normalize (.float (Exact.finite s m e).toFloat) = .int n := by
  obtain ⟨num, den, hden, next, quotient⟩ := toFloat_finite s m e
  have exact : (num : ℚ) / den = n.natAbs := quotient.trans (natAbs_of_rational value)
  rw [next, normalize_ofRatio s hden float exact]
  congr 1
  have unit : (0 : ℚ) < 2 ^ e := by positivity
  have same : ((Exact.signed s n.natAbs : Int) : ℚ) = n := by
    rw [Exact.signed_cast, ← natAbs_of_rational value]
    conv_rhs => rw [← value, Exact.rational, Exact.signed_cast]
    split <;> ring
  exact_mod_cast same

theorem normalize_addExact {s s' : Bool} {m m' : Nat} {e e' a b : Int} (small : (a + b).natAbs ≤ wholeLimit)
    (left : Exact.rational s m e = a) (right : Exact.rational s' m' e' = b) :
    normalize (.float (addExact (.finite s m e) (.finite s' m' e'))) = .int (a + b) := by
  obtain ⟨c, d, k, aligned, hc, hd⟩ := Exact.exists_align (Exact.signed s m) (Exact.signed s' m') e e'
  have value : Exact.rational (c + d < 0) (c + d).natAbs k = ((a + b : Int) : ℚ) := by
    rw [Exact.rational, Exact.signed_natAbs]
    push_cast
    rw [add_mul, ← hc, ← hd, ← left, ← right, Exact.rational, Exact.rational]
  simp only [addExact, aligned, ofScaled, normalize_toFloat (isValue_of_le small) value]

theorem Exact.rational_mul (s s' : Bool) (m m' : Nat) (e e' : Int) :
    Exact.rational (s != s') (m * m') (e + e') = Exact.rational s m e * Exact.rational s' m' e' := by
  rw [Exact.rational, Exact.rational, Exact.rational, zpow_add₀ two_ne_zero, Exact.signed_cast, Exact.signed_cast,
    Exact.signed_cast]
  cases s <;> cases s' <;> simp <;> ring

theorem Exact.rational_not (s : Bool) (m : Nat) (e : Int) : Exact.rational (!s) m e = -Exact.rational s m e := by
  simp only [Exact.rational, Exact.signed_cast]
  cases s <;> simp

theorem Whole.normalize_add {a b : Int} {v w : Exact} (hv : Whole a v) (hw : Whole b w)
    (small : (a + b).natAbs ≤ wholeLimit) : normalize (.float (addExact v w)) = .int (a + b) := by
  obtain ⟨m, e, rfl, left⟩ := hv
  obtain ⟨m', e', rfl, right⟩ := hw
  exact normalize_addExact small left right

theorem Whole.normalize_sub {a b : Int} {v w : Exact} (hv : Whole a v) (hw : Whole b w)
    (small : (a - b).natAbs ≤ wholeLimit) : normalize (.float (addExact v w.neg)) = .int (a - b) := by
  obtain ⟨m, e, rfl, left⟩ := hv
  obtain ⟨m', e', rfl, right⟩ := hw
  refine normalize_addExact (b := -b) small left ?_
  rw [Exact.rational_not, right, Int.cast_neg]

theorem Whole.normalize_mul {a b : Int} {v w : Exact} (hv : Whole a v) (hw : Whole b w)
    (small : (a * b).natAbs ≤ wholeLimit) : normalize (.float (mulExact v w)) = .int (a * b) := by
  obtain ⟨m, e, rfl, left⟩ := hv
  obtain ⟨m', e', rfl, right⟩ := hw
  refine normalize_toFloat (isValue_of_le small) ?_
  rw [Exact.rational_mul, left, right, Int.cast_mul]

/-- The quotient of two floats of whole numbers is that of the integers. -/
theorem Whole.divExact_eq {a b : Int} {v w : Exact} (hv : Whole a v) (hw : Whole b w) (hb : b ≠ 0) :
    divExact v w = ofRatio ((a < 0) != (b < 0)) a.natAbs b.natAbs := by
  obtain ⟨m, e, rfl, left⟩ := hv
  obtain ⟨m', e', rfl, right⟩ := hw
  have hm := natAbs_of_rational left
  have hm' := natAbs_of_rational right
  have hm'0 : m' ≠ 0 := by
    rintro rfl
    rw [Nat.cast_zero, zero_mul] at hm'
    exact hb (Int.natAbs_eq_zero.mp (by exact_mod_cast hm'.symm))
  refine ofRatio_congr _ (Nat.mul_pos (Nat.pos_of_ne_zero hm'0) (pow2_pos _)) (Int.natAbs_pos.mpr hb) ?_
  have units : (2 : ℚ) ^ ((e - e').toNat : Int) * 2 ^ e' = 2 ^ e * 2 ^ ((-(e - e')).toNat : Int) := by
    rw [← zpow_add₀ two_ne_zero, ← zpow_add₀ two_ne_zero]
    congr 1
    omega
  have cross : (m : ℚ) * pow2 (e - e').toNat * b.natAbs = a.natAbs * (m' * pow2 (-(e - e')).toNat) := by
    rw [← hm, ← hm', ← two_zpow_natCast, ← two_zpow_natCast]
    linear_combination (m : ℚ) * m' * units
  exact_mod_cast cross

theorem divInts_of_small {a b : Int} (ha : a.natAbs ≤ wholeLimit) (hb : b ≠ 0) :
    divInts a b = .ok (normalize (.float (ofRatio ((a < 0) != (b < 0)) a.natAbs b.natAbs))) := by
  have positive : 0 < b.natAbs := Int.natAbs_pos.mpr hb
  have small : (a.natAbs : ℚ) / b.natAbs < 2 ^ (1000 : Int) := by
    have one : (1 : ℚ) ≤ b.natAbs := by exact_mod_cast positive
    have limit : (a.natAbs : ℚ) ≤ 2 ^ (53 : Int) := by exact_mod_cast ha
    calc (a.natAbs : ℚ) / b.natAbs ≤ a.natAbs := div_le_self (by positivity) one
      _ ≤ 2 ^ (53 : Int) := limit
      _ < 2 ^ (1000 : Int) := zpow_lt_zpow_right₀ one_lt_two (by norm_num)
  obtain ⟨m, e, finite⟩ := exists_ofFloat_ofRatio ((a < 0) != (b < 0)) positive small
  simp only [divInts, finite]

/-- An operation on floats does not tell the representations of its operands apart. -/
theorem viaFloats_settle (f : Exact → Exact → Float) (x y : Number) :
    viaFloats f x.settle y.settle = viaFloats f x y := by
  rw [viaFloats, rounded_settle, rounded_settle, viaFloats]

/-- An operation that integers do exactly and floats by rounding. -/
structure Mixed (op : Number → Number → Except NumberError Number) (ints : Int → Int → Except NumberError Number)
    (floats : Exact → Exact → Float) : Prop where
  int (a b : Int) : op (.int a) (.int b) = ints a b
  left (x : Float) (y : Number) : op (.float x) y = viaFloats floats (.float x) y
  right (x : Number) (y : Float) : op x (.float y) = viaFloats floats x (.float y)

theorem mixed_add : Mixed add (fun a b => .ok (.int (a + b))) addExact :=
  ⟨fun _ _ => rfl, fun _ _ => rfl, fun x _ => by cases x <;> rfl⟩

theorem mixed_sub : Mixed sub (fun a b => .ok (.int (a - b))) (fun v w => addExact v w.neg) :=
  ⟨fun _ _ => rfl, fun _ _ => rfl, fun x _ => by cases x <;> rfl⟩

theorem mixed_mul : Mixed mul (fun a b => .ok (.int (a * b))) mulExact :=
  ⟨fun _ _ => rfl, fun _ _ => rfl, fun x _ => by cases x <;> rfl⟩

/-- If both ways agree on whole numbers, the representations of the operands make no difference. -/
theorem Mixed.settle {op : Number → Number → Except NumberError Number}
    {ints : Int → Int → Except NumberError Number} {floats : Exact → Exact → Float} (h : Mixed op ints floats)
    {x y : Number} (hx : x.Fits) (hy : y.Fits)
    (agree : ∀ a b v w, x.settle = .int a → y.settle = .int b → Whole a v → Whole b w →
      ints a b = .ok (normalize (.float (floats v w)))) :
    op x.settle y.settle = op x y := by
  cases hxs : x.settle with
  | float u =>
    -- Nothing but a float is settled as a float.
    obtain ⟨u', rfl⟩ : ∃ u', x = .float u' := by cases x with | int n => contradiction | float u' => exact ⟨u', rfl⟩
    rw [h.left, ← hxs, viaFloats_settle, h.left]
  | int a =>
    cases hys : y.settle with
    | float u =>
      obtain ⟨u', rfl⟩ : ∃ u', y = .float u' := by
        cases y with | int n => contradiction | float u' => exact ⟨u', rfl⟩
      rw [h.right, ← hxs, ← hys, viaFloats_settle, h.right]
    | int b =>
      obtain ⟨v, hv, left⟩ := hx.rounded_whole hxs
      obtain ⟨w, hw, right⟩ := hy.rounded_whole hys
      have floating : viaFloats floats x y = ints a b := by
        rw [viaFloats, hv, hw, agree a b v w hxs hys left right]
        rfl
      rw [h.int]
      cases x with
      | float u => rw [h.left, floating]
      | int n =>
        cases y with
        | float u => rw [h.right, floating]
        | int n' => rw [h.int, ← Number.int.inj hxs, ← Number.int.inj hys]

/-- Both operands fit, and so does what an exact operation makes of them. -/
structure Fit (x y : Number) (result : Int → Int → Int) : Prop where
  left : x.Fits
  right : y.Fits
  result (a b : Int) (hx : x.settle = .int a) (hy : y.settle = .int b) : (result a b).natAbs ≤ wholeLimit

variable {x y : Number}

theorem add_settle (h : Fit x y (· + ·)) : x.settle.add y.settle = x.add y :=
  mixed_add.settle h.left h.right fun a b _ _ hx hy hv hw => by rw [hv.normalize_add hw (h.result a b hx hy)]

theorem sub_settle (h : Fit x y (· - ·)) : x.settle.sub y.settle = x.sub y :=
  mixed_sub.settle h.left h.right fun a b _ _ hx hy hv hw => by rw [hv.normalize_sub hw (h.result a b hx hy)]

theorem mul_settle (h : Fit x y (· * ·)) : x.settle.mul y.settle = x.mul y :=
  mixed_mul.settle h.left h.right fun a b _ _ hx hy hv hw => by rw [hv.normalize_mul hw (h.result a b hx hy)]

theorem isZero_int (n : Int) : (Number.int n).isZero = true ↔ n = 0 := by
  have compare : (Number.int n).exact.compare? (Number.int 0).exact =
      some (if (n : ℚ) < (0 : Int) then .lt else if (n : ℚ) = (0 : Int) then .eq else .gt) := by
    rw [← Exact.rational_ofInt n, ← Exact.rational_ofInt 0]
    exact Exact.compare?_finite ..
  change ((Number.int n).exact.compare? (Number.int 0).exact == some Ordering.eq) = true ↔ n = 0
  rw [compare, beq_iff_eq, Option.some_inj, Int.cast_zero]
  split
  · rename_i less
    exact ⟨fun h => by contradiction, fun h => by simp [h] at less⟩
  · split
    · rename_i equal
      exact ⟨fun _ => by exact_mod_cast equal, fun _ => rfl⟩
    · rename_i different
      exact ⟨fun h => by contradiction, fun h => by simp [h] at different⟩

/-- The quotient by a number that is not zero. -/
def quotient : Number → Number → Except NumberError Number
  | .int a, .int b => divInts a b
  | x, y => viaFloats divExact x y

theorem mixed_quotient : Mixed quotient divInts divExact :=
  ⟨fun _ _ => rfl, fun _ _ => rfl, fun x _ => by cases x <;> rfl⟩

theorem quotient_settle (hx : x.Fits) (hy : y.Fits) (zero : ¬ y.isZero) :
    quotient x.settle y.settle = quotient x y := by
  refine mixed_quotient.settle hx hy fun a b v w hxs hys hv hw => ?_
  have hb : b ≠ 0 := fun h => zero (by rw [← isZero_settle, hys]; exact (isZero_int b).mpr h)
  rw [divInts_of_small (hx a hxs) hb, hv.divExact_eq hw hb]

theorem div_settle (hx : x.Fits) (hy : y.Fits) : x.settle.div y.settle = x.div y := by
  unfold div
  rw [isZero_settle, isZero_settle, isNaN_settle, isNegative_settle, isNegative_settle]
  by_cases zero : y.isZero
  · rw [if_pos zero, if_pos zero]
  · rw [if_neg zero, if_neg zero]
    exact quotient_settle hx hy zero

@[simp] theorem mod_settle (x y : Number) : x.settle.mod y.settle = x.mod y := by
  rw [mod, isZero_settle, isInfinite_settle, isNaN_settle, isNaN_settle, viaFloats_settle, mod]

/-- The opposite of a float is exact, so no limit is needed. -/
@[simp] theorem neg_settle (x : Number) : x.settle.neg.settle = x.neg.settle := by
  cases x with
  | int n => rfl
  | float x =>
    rcases settle_float x with h | ⟨n, h, m, e, finite, value⟩
    · rw [h]
    · obtain ⟨canonical, -⟩ := canonical_of_ofFloat finite
      obtain ⟨num, den, hden, float, exact⟩ := toFloat_finite (!decide (n < 0)) m e
      have opposite : (Exact.finite (!decide (n < 0)) m e).toInt? = some (-n) := by
        rw [Exact.toInt?_eq_some_iff, Exact.rational_not, value, Int.cast_neg]
      rw [h, neg, neg, finite, Exact.neg, float]
      simp only [normalize, ofFloat_ofRatio _ hden canonical exact, opposite]

/-! ### Numbers with one settled form -/

section

variable {x' y' : Number} (hx : x.settle = x'.settle) (hy : y.settle = y'.settle)
include hx

theorem Fits.congr (h : x.Fits) : x'.Fits := fun n hn => h n (hx.trans hn)

theorem toInt32_congr : x.toInt32 = x'.toInt32 := by rw [← toInt32_settle, hx, toInt32_settle]

theorem toUInt32_congr : x.toUInt32 = x'.toUInt32 := by rw [← toUInt32_settle, hx, toUInt32_settle]

theorem isNaN_congr : x.isNaN = x'.isNaN := by rw [← isNaN_settle, hx, isNaN_settle]

theorem isZero_congr : x.isZero = x'.isZero := by rw [← isZero_settle, hx, isZero_settle]

theorem render_congr : x.render = x'.render := by rw [← render_settle, hx, render_settle]

theorem neg_congr : x.neg.settle = x'.neg.settle := by rw [← neg_settle, hx, neg_settle]

include hy

theorem Fit.congr {f : Int → Int → Int} (h : Fit x y f) : Fit x' y' f :=
  ⟨h.left.congr hx, h.right.congr hy, fun a b ha hb => h.result a b (hx.trans ha) (hy.trans hb)⟩

theorem eqv_congr : x.eqv y = x'.eqv y' := by rw [← eqv_settle, hx, hy, eqv_settle]

theorem lt_congr : x.lt y = x'.lt y' := by rw [← lt_settle, hx, hy, lt_settle]

theorem le_congr : x.le y = x'.le y' := by rw [← le_settle, hx, hy, le_settle]

theorem add_congr (h : Fit x y (· + ·)) : x.add y = x'.add y' := by
  rw [← add_settle h, hx, hy, add_settle (h.congr hx hy)]

theorem sub_congr (h : Fit x y (· - ·)) : x.sub y = x'.sub y' := by
  rw [← sub_settle h, hx, hy, sub_settle (h.congr hx hy)]

theorem mul_congr (h : Fit x y (· * ·)) : x.mul y = x'.mul y' := by
  rw [← mul_settle h, hx, hy, mul_settle (h.congr hx hy)]

theorem div_congr (left : x.Fits) (right : y.Fits) : x.div y = x'.div y' := by
  rw [← div_settle left right, hx, hy, div_settle (left.congr hx) (right.congr hy)]

theorem mod_congr : x.mod y = x'.mod y' := by rw [← mod_settle, hx, hy, mod_settle]

end

end ScopeExit.Number
