import ScopeExit.Number.Binary64
import Mathlib
/-!
Floats and the values they stand for.

A finite float is told by its sign, its mantissa and its exponent, and these by its bits: packing them
gives the bits back.  A quotient is rounded to a float that depends on the value of the quotient alone,
not on how it is written, and a quotient that is the value of a float is rounded to that float.  Values
are rational numbers here, so that the exponent of the rounding is a logarithm and the comparison of two
floats is that of their values.

Whole numbers of at most `2 ^ 53` are values of floats.
-/
namespace ScopeExit.Number

open Float.Model Float.Model.UnpackedFloat

/-! ### Bits -/

theorem pow2_eq (k : Nat) : pow2 k = 2 ^ k := rfl

/-- The bits of a float: its sign, its exponent field and its fraction. -/
def joinBits (s : Bool) (exponent fraction : Nat) : Nat :=
  (if s then 2 ^ 63 else 0) + exponent * 2 ^ 52 + fraction

theorem exists_joinBits {b : Nat} (h : b < 2 ^ 64) :
    ∃ s exponent fraction, exponent < 2048 ∧ fraction < 2 ^ 52 ∧ b = joinBits s exponent fraction := by
  refine ⟨b / 2 ^ 63 = 1, b / 2 ^ 52 % 2 ^ 11, b % 2 ^ 52, by omega, by omega, ?_⟩
  unfold joinBits
  split
  · simp_all; omega
  · simp_all; omega

theorem fields_joinBits (s : Bool) {exponent fraction : Nat} (he : exponent < 2048) (hf : fraction < 2 ^ 52) :
    decide (joinBits s exponent fraction / 2 ^ 63 % 2 = 1) = s ∧
      joinBits s exponent fraction / 2 ^ 52 % 2 ^ 11 = exponent ∧
      joinBits s exponent fraction % 2 ^ 52 = fraction := by
  cases s <;> simp [joinBits] <;> omega

theorem ofBits_joinBits (s : Bool) {exponent fraction : Nat} (he : exponent < 2048) (hf : fraction < 2 ^ 52) :
    Exact.ofBits (joinBits s exponent fraction) =
      if exponent = 2047 then if fraction = 0 then .infinite s else .nan
      else if exponent = 0 then .finite s fraction minExponent
      else .finite s (fraction + 2 ^ 52) ((exponent : Int) - 1075) := by
  obtain ⟨hs, hexponent, hfraction⟩ := fields_joinBits s he hf
  have hs : decide (joinBits s exponent fraction / pow2 63 % 2 = 1) = s := hs
  have hexponent : joinBits s exponent fraction / pow2 52 % pow2 11 = exponent := hexponent
  have hfraction : joinBits s exponent fraction % pow2 52 = fraction := hfraction
  unfold Exact.ofBits
  simp only [hs, hexponent, hfraction]
  rfl

theorem joinBits_lt (s : Bool) {exponent fraction : Nat} (he : exponent < 2048) (hf : fraction < 2 ^ 52) :
    joinBits s exponent fraction < 2 ^ 64 := by
  cases s <;> simp [joinBits] <;> omega

/-- A mantissa and an exponent as finite floats have them. -/
structure Canonical (m : Nat) (e : Int) : Prop where
  mantissa : m < 2 ^ 53
  least : minExponent ≤ e
  greatest : e ≤ maxExponent
  full : m < 2 ^ 52 → e = minExponent

theorem packBits_joinBits (s : Bool) {m : Nat} {e : Int} (h : Canonical m e) :
    packBits s m e = if m < 2 ^ 52 then joinBits s 0 m else joinBits s (e + 1075).toNat (m - 2 ^ 52) := by
  have range : ¬ e > maxExponent := Int.not_lt.mpr h.greatest
  simp only [packBits, if_neg range, joinBits, Nat.zero_mul, Nat.add_zero]
  rfl

theorem Canonical.ofBits_packBits {m : Nat} {e : Int} (h : Canonical m e) (s : Bool) :
    packBits s m e < 2 ^ 64 ∧ Exact.ofBits (packBits s m e) = .finite s m e := by
  rw [packBits_joinBits s h]
  obtain ⟨mantissa, least, greatest, full⟩ := h
  by_cases small : m < 2 ^ 52
  · rw [if_pos small, ofBits_joinBits s (by omega) small, full small]
    exact ⟨joinBits_lt s (by omega) small, rfl⟩
  · simp only [minExponent, maxExponent] at least greatest
    have exponent : (e + 1075).toNat < 2047 ∧ (e + 1075).toNat ≠ 0 := by omega
    have fraction : m - 2 ^ 52 < 2 ^ 52 := by omega
    rw [if_neg small, ofBits_joinBits s (by omega) fraction, if_neg (by omega), if_neg exponent.2]
    refine ⟨joinBits_lt s (by omega) fraction, ?_⟩
    congr 1 <;> omega

theorem canonical_of_ofBits {b m : Nat} {e : Int} {s : Bool} (small : b < 2 ^ 64)
    (h : Exact.ofBits b = .finite s m e) : Canonical m e ∧ packBits s m e = b := by
  obtain ⟨s', exponent, fraction, he, hf, rfl⟩ := exists_joinBits small
  rw [ofBits_joinBits s' he hf] at h
  by_cases top : exponent = 2047
  · rw [if_pos top] at h
    split at h <;> contradiction
  rw [if_neg top] at h
  by_cases zero : exponent = 0
  · rw [if_pos zero] at h
    obtain ⟨rfl, rfl, rfl⟩ := Exact.finite.inj h
    have canonical : Canonical fraction minExponent := ⟨by omega, le_refl _, by decide, fun _ => rfl⟩
    refine ⟨canonical, ?_⟩
    rw [packBits_joinBits s' canonical, if_pos hf, zero]
  · rw [if_neg zero] at h
    obtain ⟨rfl, rfl, rfl⟩ := Exact.finite.inj h
    have canonical : Canonical (fraction + 2 ^ 52) ((exponent : Int) - 1075) := by
      refine ⟨by omega, ?_, ?_, by omega⟩ <;> simp only [minExponent, maxExponent] <;> omega
    refine ⟨canonical, ?_⟩
    have full : ¬ fraction + 2 ^ 52 < 2 ^ 52 := by omega
    have field : ((exponent : Int) - 1075 + 1075).toNat = exponent := by omega
    rw [packBits_joinBits s' canonical, if_neg full, field, Nat.add_sub_cancel]

theorem Exact.ofBits_eq_nan_iff (b : Nat) :
    Exact.ofBits b = .nan ↔ b / 2 ^ 52 % 2 ^ 11 = 2047 ∧ b % 2 ^ 52 ≠ 0 := by
  change _ ↔ b / pow2 52 % pow2 11 = 2047 ∧ b % pow2 52 ≠ 0
  unfold Exact.ofBits
  by_cases exponent : b / pow2 52 % pow2 11 = 2047
  · by_cases fraction : b % pow2 52 = 0 <;> simp [exponent, fraction]
  · by_cases zero : b / pow2 52 % pow2 11 = 0 <;> simp [exponent, zero]

theorem isNaNBits_iff (u : UInt64) :
    @isNaNBits .binary64 u.toBitVec = true ↔ Exact.ofBits u.toNat = .nan := by
  have exponent : (@unpackExponent .binary64 u.toBitVec).toNat = u.toNat / 2 ^ 52 % 2 ^ 11 := by
    simp [unpackExponent, BitVec.extractLsb, Nat.shiftRight_eq_div_pow]
  have fraction : (@unpackMantissa .binary64 u.toBitVec).toNat = u.toNat % 2 ^ 52 := by
    simp [unpackMantissa, BitVec.extractLsb]
  have ones : (-1#11 : BitVec 11).toNat = 2047 := by decide
  rw [Exact.ofBits_eq_nan_iff, isNaNBits, decide_eq_true_eq, ← BitVec.toNat_inj, ne_eq, ← BitVec.toNat_inj,
    exponent, fraction, ones, BitVec.toNat_zero]

theorem ofFloat_ofBits {b : Nat} (small : b < 2 ^ 64) (number : Exact.ofBits b ≠ .nan) :
    Exact.ofFloat (Float.ofBits b.toUInt64) = Exact.ofBits b := by
  have hu : b.toUInt64.toNat = b := by simpa using Nat.mod_eq_of_lt small
  have hnan : @isNaNBits .binary64 b.toUInt64.toBitVec = false := by
    rw [← Bool.not_eq_true, isNaNBits_iff, hu]
    exact number
  have hbits : (Float.ofBits b.toUInt64).toBits = b.toUInt64 := by
    have := @pack_unpack .binary64 b.toUInt64.toBitVec
    rw [hnan] at this
    simpa [Float.ofBits, Float.toBits, Float.Model.ofBits, Float.Model.pack, ← UInt64.toBitVec_inj] using this
  rw [Exact.ofFloat, hbits, hu]

theorem ofBits_toNat_toBits (x : Float) : Float.ofBits x.toBits.toNat.toUInt64 = x := by
  simp

/-! ### Rounding -/

theorem log_eq_of_bounds {r : ℚ} {k : Int} (low : 2 ^ k ≤ r) (high : r < 2 ^ (k + 1)) : Int.log 2 r = k := by
  have positive : 0 < r := lt_of_lt_of_le (by positivity) low
  have h1 := (Int.zpow_le_iff_le_log (b := 2) Nat.one_lt_two positive).mp (by exact_mod_cast low)
  have h2 := (Int.lt_zpow_iff_log_lt (b := 2) Nat.one_lt_two positive).mp (by exact_mod_cast high)
  omega

/-- The test whether a quotient is below `2 ^ (g + 52)`. -/
theorem below_iff (num : Nat) {den : Nat} (hden : 0 < den) (g : Int) :
    (if g ≤ 0 then num * pow2 g.natAbs < pow2 52 * den else num < pow2 (52 + g.natAbs) * den) ↔
      (num : ℚ) / den < 2 ^ (g + 52) := by
  have hden' : (0 : ℚ) < den := by exact_mod_cast hden
  rw [div_lt_iff₀ hden']
  simp only [pow2_eq]
  split
  · rename_i negative
    obtain ⟨k, rfl⟩ : ∃ k : Nat, g = -(k : Int) := ⟨g.natAbs, by omega⟩
    have e : (2 : ℚ) ^ (-(k : Int) + 52) = 2 ^ 52 / 2 ^ k := by
      rw [zpow_add₀ two_ne_zero, zpow_neg, zpow_natCast]
      field_simp
    rw [e, div_mul_eq_mul_div, lt_div_iff₀ (by positivity), Int.natAbs_neg, Int.natAbs_natCast]
    exact_mod_cast Iff.rfl
  · rename_i positive
    obtain ⟨k, rfl⟩ : ∃ k : Nat, g = (k : Int) := ⟨g.natAbs, by omega⟩
    have e : (2 : ℚ) ^ ((k : Int) + 52) = 2 ^ (52 + k) := by
      rw [add_comm]
      exact_mod_cast zpow_natCast (2 : ℚ) (52 + k)
    rw [e, Int.natAbs_natCast]
    exact_mod_cast Iff.rfl

theorem exponentFor_eq {num den : Nat} (hnum : 0 < num) (hden : 0 < den) :
    exponentFor num den = max (Int.log 2 ((num : ℚ) / den) - 52) minExponent := by
  have hden' : (0 : ℚ) < den := by exact_mod_cast hden
  obtain ⟨g, hg⟩ : ∃ g : Int, g = (num.log2 : Int) - (den.log2 : Int) - 52 := ⟨_, rfl⟩
  have low : (2 : ℚ) ^ (g + 51) ≤ (num : ℚ) / den := by
    have hn : (2 : ℚ) ^ num.log2 ≤ num := by exact_mod_cast Nat.log2_self_le hnum.ne'
    have hd : (den : ℚ) < 2 ^ (den.log2 + 1) := by exact_mod_cast Nat.lt_log2_self
    have split : g + 51 = (num.log2 : Int) - ((den.log2 + 1 : Nat) : Int) := by rw [hg]; push_cast; ring
    rw [split, zpow_sub₀ two_ne_zero, zpow_natCast, zpow_natCast]
    exact div_le_div₀ (by positivity) hn hden' hd.le
  have high : (num : ℚ) / den < 2 ^ (g + 53) := by
    have hn : (num : ℚ) < 2 ^ (num.log2 + 1) := by exact_mod_cast Nat.lt_log2_self
    have hd : (2 : ℚ) ^ den.log2 ≤ den := by exact_mod_cast Nat.log2_self_le hden.ne'
    have split : g + 53 = ((num.log2 + 1 : Nat) : Int) - (den.log2 : Int) := by rw [hg]; push_cast; ring
    rw [split, zpow_sub₀ two_ne_zero, zpow_natCast, zpow_natCast]
    exact div_lt_div₀ hn hd (by positivity) (by positivity)
  have test := below_iff num hden g
  unfold exponentFor
  simp only [← hg]
  by_cases small : (num : ℚ) / den < 2 ^ (g + 52)
  · have log : Int.log 2 ((num : ℚ) / den) = g + 51 := log_eq_of_bounds low (by convert small using 2; ring)
    rw [if_pos (by simpa using test.mpr small), log]
    congr 1
    ring
  · have log : Int.log 2 ((num : ℚ) / den) = g + 52 :=
      log_eq_of_bounds (not_lt.mp small) (by convert high using 2; ring)
    rw [if_neg (by simpa using fun h => small (test.mp h)), log]
    congr 1
    ring

theorem roundEven_scale {num den c : Nat} (hc : 0 < c) :
    roundEven (num * c) (den * c) = roundEven num den := by
  have below : 2 * (num % den * c) < den * c ↔ 2 * (num % den) < den := by
    rw [← Nat.mul_assoc]
    exact Nat.mul_lt_mul_right hc
  have above : den * c < 2 * (num % den * c) ↔ den < 2 * (num % den) := by
    rw [← Nat.mul_assoc]
    exact Nat.mul_lt_mul_right hc
  simp only [roundEven, Nat.mul_div_mul_right _ _ hc, Nat.mul_mod_mul_right, below, above]

theorem roundEven_exact (q : Nat) {den : Nat} (hden : 0 < den) : roundEven (q * den) den = q := by
  simp [roundEven, Nat.mul_div_cancel _ hden, hden]

/-- Rounding does not leave the integers around a quotient. -/
theorem roundEven_le {num den k : Nat} (hden : 0 < den) (h : num < k * den) : roundEven num den ≤ k := by
  have quotient : num / den < k := (Nat.div_lt_iff_lt_mul hden).mpr h
  unfold roundEven
  dsimp only
  split
  · omega
  · split
    · omega
    · have := Nat.mod_lt (num / den) Nat.two_pos
      omega

theorem le_roundEven {num den k : Nat} (hden : 0 < den) (h : k * den ≤ num) : k ≤ roundEven num den := by
  have quotient : k ≤ num / den := (Nat.le_div_iff_mul_le hden).mpr h
  unfold roundEven
  dsimp only
  split
  · omega
  · split <;> omega

/-- The quotient in units of `2 ^ e` as a quotient of naturals. -/
theorem mantissaFor_eq (num : Nat) {den : Nat} (hden : 0 < den) (e : Int) :
    ∃ n d : Nat, 0 < d ∧ mantissaFor num den e = roundEven n d ∧ (n : ℚ) / d = (num : ℚ) / den / 2 ^ e := by
  have hden' : (den : ℚ) ≠ 0 := by exact_mod_cast hden.ne'
  unfold mantissaFor
  simp only [pow2_eq]
  by_cases negative : e ≤ 0
  · obtain ⟨k, rfl⟩ : ∃ k : Nat, e = -(k : Int) := ⟨e.natAbs, by omega⟩
    refine ⟨num * 2 ^ k, den, hden, by rw [if_pos negative, Int.natAbs_neg, Int.natAbs_natCast], ?_⟩
    rw [zpow_neg, zpow_natCast]
    push_cast
    field_simp
  · obtain ⟨k, rfl⟩ : ∃ k : Nat, e = (k : Int) := ⟨e.natAbs, by omega⟩
    refine ⟨num, den * 2 ^ k, by positivity, by rw [if_neg negative, Int.natAbs_natCast], ?_⟩
    rw [zpow_natCast]
    push_cast
    field_simp

theorem mantissaFor_scale {num den c : Nat} (hc : 0 < c) (e : Int) :
    mantissaFor (num * c) (den * c) e = mantissaFor num den e := by
  unfold mantissaFor
  split
  · rw [Nat.mul_right_comm, roundEven_scale hc]
  · rw [Nat.mul_right_comm, roundEven_scale hc]

theorem exponentFor_scale {num den c : Nat} (hnum : 0 < num) (hden : 0 < den) (hc : 0 < c) :
    exponentFor (num * c) (den * c) = exponentFor num den := by
  have hc' : (c : ℚ) ≠ 0 := by exact_mod_cast hc.ne'
  rw [exponentFor_eq (Nat.mul_pos hnum hc) (Nat.mul_pos hden hc), exponentFor_eq hnum hden]
  push_cast
  rw [mul_div_mul_right _ _ hc']

theorem ofRatio_scale (s : Bool) (num : Nat) {den c : Nat} (hden : 0 < den) (hc : 0 < c) :
    ofRatio s (num * c) (den * c) = ofRatio s num den := by
  rcases Nat.eq_zero_or_pos num with rfl | hnum
  · simp [ofRatio]
  · have positive : num * c ≠ 0 := (Nat.mul_pos hnum hc).ne'
    simp only [ofRatio, if_neg positive, if_neg hnum.ne', exponentFor_scale hnum hden hc, mantissaFor_scale hc]

/-- The float next to a quotient depends on the quotient alone. -/
theorem ofRatio_congr (s : Bool) {num den num' den' : Nat} (hden : 0 < den) (hden' : 0 < den')
    (h : num * den' = num' * den) : ofRatio s num den = ofRatio s num' den' := by
  rw [← ofRatio_scale s num hden hden', ← ofRatio_scale s num' hden' hden, h, Nat.mul_comm den den']

/-- The bits of a float that a quotient is exactly. -/
theorem ofRatio_eq_packBits (s : Bool) {num den m : Nat} {e : Int} (hden : 0 < den) (h : Canonical m e)
    (exact : (num : ℚ) / den = m * 2 ^ e) : ofRatio s num den = Float.ofBits (packBits s m e).toUInt64 := by
  have hden' : (den : ℚ) ≠ 0 := by exact_mod_cast hden.ne'
  rcases Nat.eq_zero_or_pos m with rfl | hm
  · have hnum : num = 0 := by
      rw [Nat.cast_zero, zero_mul, div_eq_zero_iff] at exact
      exact_mod_cast exact.resolve_right hden'
    rw [ofRatio, if_pos hnum, h.full (by norm_num)]
  have hnum : 0 < num := by
    refine Nat.pos_of_ne_zero fun zero => ?_
    have positive : (0 : ℚ) < m * 2 ^ e := by positivity
    rw [← exact, zero] at positive
    simp at positive
  have exponent : exponentFor num den = e := by
    rw [exponentFor_eq hnum hden, exact]
    by_cases small : m < 2 ^ 52
    · have below : (m : ℚ) * 2 ^ e < 2 ^ (e + 52) := by
        rw [zpow_add₀ two_ne_zero, mul_comm]
        have : (m : ℚ) < 2 ^ (52 : Int) := by exact_mod_cast small
        exact mul_lt_mul_of_pos_left this (by positivity)
      have positive : (0 : ℚ) < m * 2 ^ e := by positivity
      have log := (Int.lt_zpow_iff_log_lt (b := 2) Nat.one_lt_two positive).mp (by exact_mod_cast below)
      have := h.full small
      omega
    · have low : (2 : ℚ) ^ (e + 52) ≤ m * 2 ^ e := by
        rw [zpow_add₀ two_ne_zero, mul_comm]
        have : (2 : ℚ) ^ (52 : Int) ≤ m := by exact_mod_cast not_lt.mp small
        exact mul_le_mul_of_nonneg_right this (by positivity)
      have high : (m : ℚ) * 2 ^ e < 2 ^ (e + 52 + 1) := by
        rw [add_assoc, zpow_add₀ two_ne_zero, mul_comm]
        have : (m : ℚ) < 2 ^ (52 + 1 : Int) := by exact_mod_cast h.mantissa
        exact mul_lt_mul_of_pos_left this (by positivity)
      rw [log_eq_of_bounds low high]
      have := h.least
      omega
  have mantissa : mantissaFor num den e = m := by
    obtain ⟨n, d, hd, rounded, quotient⟩ := mantissaFor_eq num hden e
    have hd' : (d : ℚ) ≠ 0 := by exact_mod_cast hd.ne'
    rw [exact, mul_div_cancel_right₀ _ (by positivity), div_eq_iff hd'] at quotient
    have whole : n = m * d := by exact_mod_cast quotient
    rw [rounded, whole, roundEven_exact m hd]
  have full : m ≠ pow2 53 := h.mantissa.ne
  simp only [ofRatio, if_neg hnum.ne', exponent, mantissa, if_neg full]

/-- A quotient that is not too large is rounded to a finite float. -/
theorem exists_ofRatio_eq (s : Bool) {num den : Nat} (hden : 0 < den) (small : (num : ℚ) / den < 2 ^ (1000 : Int)) :
    ∃ m e, Canonical m e ∧ ofRatio s num den = Float.ofBits (packBits s m e).toUInt64 := by
  rcases Nat.eq_zero_or_pos num with rfl | hnum
  · exact ⟨0, minExponent, ⟨by norm_num, le_refl _, by decide, fun _ => rfl⟩, by simp [ofRatio]⟩
  have hden' : (0 : ℚ) < den := by exact_mod_cast hden
  have positive : (0 : ℚ) < (num : ℚ) / den := div_pos (by exact_mod_cast hnum) hden'
  have exponent := exponentFor_eq hnum hden
  have below : Int.log 2 ((num : ℚ) / den) < 1000 :=
    (Int.lt_zpow_iff_log_lt (b := 2) Nat.one_lt_two positive).mp (by exact_mod_cast small)
  obtain ⟨n, d, hd, rounded, quotient⟩ := mantissaFor_eq num hden (exponentFor num den)
  have hd' : (0 : ℚ) < d := by exact_mod_cast hd
  have high : mantissaFor num den (exponentFor num den) ≤ 2 ^ 53 := by
    have bound : (n : ℚ) / d < 2 ^ 53 := by
      rw [quotient, div_lt_iff₀ (by positivity)]
      refine lt_of_lt_of_le (Int.lt_zpow_succ_log_self Nat.one_lt_two _) ?_
      rw [← zpow_natCast, ← zpow_add₀ two_ne_zero, Nat.cast_ofNat]
      exact zpow_le_zpow_right₀ one_le_two (by push_cast; omega)
    rw [rounded]
    exact roundEven_le hd (by exact_mod_cast (div_lt_iff₀ hd').mp bound)
  have low : exponentFor num den ≠ minExponent → 2 ^ 52 ≤ mantissaFor num den (exponentFor num den) := by
    intro above
    have bound : (2 : ℚ) ^ 52 ≤ (n : ℚ) / d := by
      rw [quotient, le_div_iff₀ (by positivity)]
      refine le_trans ?_ (Int.zpow_log_le_self Nat.one_lt_two positive)
      rw [← zpow_natCast, ← zpow_add₀ two_ne_zero, Nat.cast_ofNat]
      exact zpow_le_zpow_right₀ one_le_two (by omega)
    rw [rounded]
    exact le_roundEven hd (by exact_mod_cast (le_div_iff₀ hd').mp bound)
  have least : minExponent ≤ exponentFor num den := by omega
  have greatest : exponentFor num den < 948 := by
    have : minExponent < 948 := by decide
    omega
  unfold ofRatio
  simp only [if_neg hnum.ne']
  by_cases carry : mantissaFor num den (exponentFor num den) = pow2 53
  · refine ⟨pow2 52, exponentFor num den + 1, ⟨by decide, by omega, ?_, fun h => absurd h (by decide)⟩, ?_⟩
    · simp only [maxExponent]
      omega
    · rw [if_pos carry]
  · rw [pow2_eq] at carry
    refine ⟨mantissaFor num den (exponentFor num den), exponentFor num den,
      ⟨by omega, least, ?_, fun h => ?_⟩, by rw [pow2_eq, if_neg carry]⟩
    · simp only [maxExponent]
      omega
    · by_contra above
      have := low above
      omega

/-! ### Finite floats -/

theorem Canonical.ofFloat_packBits {m : Nat} {e : Int} (h : Canonical m e) (s : Bool) :
    Exact.ofFloat (Float.ofBits (packBits s m e).toUInt64) = .finite s m e := by
  obtain ⟨small, value⟩ := h.ofBits_packBits s
  rw [ofFloat_ofBits small (by rw [value]; exact Exact.noConfusion), value]

theorem canonical_of_ofFloat {x : Float} {s : Bool} {m : Nat} {e : Int} (h : Exact.ofFloat x = .finite s m e) :
    Canonical m e ∧ Float.ofBits (packBits s m e).toUInt64 = x := by
  obtain ⟨canonical, bits⟩ := canonical_of_ofBits x.toBits.toNat_lt h
  exact ⟨canonical, by rw [bits, ofBits_toNat_toBits]⟩

/-- A quotient is read back from the float next to it, if it is the value of a float. -/
theorem ofFloat_ofRatio (s : Bool) {num den m : Nat} {e : Int} (hden : 0 < den) (h : Canonical m e)
    (exact : (num : ℚ) / den = m * 2 ^ e) : Exact.ofFloat (ofRatio s num den) = .finite s m e := by
  rw [ofRatio_eq_packBits s hden h exact, h.ofFloat_packBits]

/-- A float is the float next to its value. -/
theorem ofRatio_of_ofFloat {x : Float} {s : Bool} {num den m : Nat} {e : Int} (h : Exact.ofFloat x = .finite s m e)
    (hden : 0 < den) (exact : (num : ℚ) / den = m * 2 ^ e) : ofRatio s num den = x := by
  obtain ⟨canonical, bits⟩ := canonical_of_ofFloat h
  rw [ofRatio_eq_packBits s hden canonical exact, bits]

theorem exists_ofFloat_ofRatio (s : Bool) {num den : Nat} (hden : 0 < den)
    (small : (num : ℚ) / den < 2 ^ (1000 : Int)) :
    ∃ m e, Exact.ofFloat (ofRatio s num den) = .finite s m e := by
  obtain ⟨m, e, canonical, bits⟩ := exists_ofRatio_eq s hden small
  exact ⟨m, e, by rw [bits, canonical.ofFloat_packBits]⟩

/-- The float of a mantissa and an exponent is the float next to the quotient that they stand for. -/
theorem toFloat_finite (s : Bool) (m : Nat) (e : Int) :
    ∃ num den : Nat, 0 < den ∧ (Exact.finite s m e).toFloat = ofRatio s num den ∧ (num : ℚ) / den = m * 2 ^ e := by
  unfold Exact.toFloat
  simp only [pow2_eq]
  by_cases negative : e ≤ 0
  · obtain ⟨k, rfl⟩ : ∃ k : Nat, e = -(k : Int) := ⟨e.natAbs, by omega⟩
    refine ⟨m, 2 ^ k, by positivity, by rw [if_pos negative, Int.natAbs_neg, Int.natAbs_natCast], ?_⟩
    rw [zpow_neg, zpow_natCast, div_eq_mul_inv]
    push_cast
    rfl
  · obtain ⟨k, rfl⟩ : ∃ k : Nat, e = (k : Int) := ⟨e.natAbs, by omega⟩
    refine ⟨m * 2 ^ k, 1, Nat.one_pos, by rw [if_neg negative, Int.natAbs_natCast], ?_⟩
    rw [zpow_natCast, Nat.cast_one, div_one]
    push_cast
    rfl

/-- Mantissas of at most 53 bits are those of floats, whatever the exponent is. -/
theorem exists_canonical (k : Nat) {m : Nat} (small : m < 2 ^ 53) (range : k ≤ 2045) :
    ∃ m' e', Canonical m' e' ∧ (m : ℚ) * 2 ^ (minExponent + k) = m' * 2 ^ e' := by
  -- a mantissa that is not full is doubled, and the exponent lowered, until it is the least
  induction k generalizing m with
  | zero => exact ⟨m, minExponent, ⟨small, le_refl _, by decide, fun _ => rfl⟩, by simp⟩
  | succ k ih =>
    by_cases full : 2 ^ 52 ≤ m
    · refine ⟨m, minExponent + (k + 1 : Nat), ⟨small, by omega, ?_, fun h => by omega⟩, rfl⟩
      simp only [minExponent, maxExponent]
      omega
    · obtain ⟨m', e', canonical, value⟩ := ih (m := 2 * m) (by omega) (by omega)
      refine ⟨m', e', canonical, ?_⟩
      rw [← value, Nat.cast_add, Nat.cast_one, ← add_assoc, zpow_add_one₀ two_ne_zero]
      push_cast
      ring

/-- A natural number that is the value of a float. -/
def IsValue (n : Nat) : Prop := ∃ m e, Canonical m e ∧ (n : ℚ) = m * 2 ^ e

/-- Small whole numbers are values of floats. -/
theorem isValue_of_le {n : Nat} (small : n ≤ 2 ^ 53) : IsValue n := by
  rcases small.eq_or_lt with rfl | below
  · refine ⟨2 ^ 52, 1, ⟨by norm_num, by decide, by decide, fun h => absurd h (by norm_num)⟩, by norm_num⟩
  · obtain ⟨m, e, canonical, value⟩ := exists_canonical 1074 below (by norm_num)
    exact ⟨m, e, canonical, by rw [← value, minExponent]; norm_num⟩

/-! ### Values -/

/-- The value of a finite float. -/
def Exact.rational (s : Bool) (m : Nat) (e : Int) : ℚ := Exact.signed s m * 2 ^ e

theorem Exact.signed_cast (s : Bool) (m : Nat) : (Exact.signed s m : ℚ) = if s then -(m : ℚ) else m := by
  cases s <;> simp [Exact.signed]

theorem Exact.natAbs_signed (s : Bool) (m : Nat) : (Exact.signed s m).natAbs = m := by
  cases s <;> simp [Exact.signed]

theorem Exact.signed_natAbs (n : Int) : Exact.signed (n < 0) n.natAbs = n := by
  by_cases negative : n < 0
  · simp only [Exact.signed, negative, decide_true, if_true]
    omega
  · simp only [Exact.signed, negative, decide_false, Bool.false_eq_true, if_false]
    omega

theorem Exact.rational_ofInt (n : Int) : Exact.rational (n < 0) n.natAbs 0 = n := by
  rw [Exact.rational, Exact.signed_natAbs, zpow_zero, mul_one]

theorem Exact.signed_mul (s : Bool) (a b : Nat) : Exact.signed s (a * b) = Exact.signed s a * b := by
  cases s <;> simp [Exact.signed]

theorem two_zpow_natCast (k : Nat) : (2 : ℚ) ^ (k : Int) = pow2 k := by
  rw [zpow_natCast, pow2_eq]
  push_cast
  rfl

/-- A finite value is an integer exactly when its number of units is a multiple of the denominator. -/
theorem Exact.toInt?_eq_some_iff (s : Bool) (m : Nat) (e n : Int) :
    (Exact.finite s m e).toInt? = some n ↔ Exact.rational s m e = n := by
  unfold Exact.toInt? Exact.rational
  dsimp only
  by_cases whole : 0 ≤ e
  · obtain ⟨k, rfl⟩ : ∃ k : Nat, e = (k : Int) := ⟨e.natAbs, by omega⟩
    rw [if_pos whole, Int.natAbs_natCast, Option.some_inj, signed_mul, two_zpow_natCast]
    exact_mod_cast Iff.rfl
  · obtain ⟨k, rfl⟩ : ∃ k : Nat, e = -(k : Int) := ⟨e.natAbs, by omega⟩
    have positive := pow2_pos k
    have unit : (pow2 k : ℚ) ≠ 0 := by exact_mod_cast positive.ne'
    have units : (Exact.signed s m : ℚ) = n * pow2 k ↔ Exact.signed s m = n * pow2 k := by exact_mod_cast Iff.rfl
    rw [if_neg whole, Int.natAbs_neg, Int.natAbs_natCast, zpow_neg, two_zpow_natCast, ← div_eq_mul_inv,
      div_eq_iff unit, units]
    by_cases multiple : m % pow2 k = 0
    · obtain ⟨q, rfl⟩ := Nat.dvd_of_mod_eq_zero multiple
      have unit : (pow2 k : Int) ≠ 0 := by exact_mod_cast positive.ne'
      rw [if_pos multiple, Nat.mul_div_cancel_left _ positive, Option.some_inj, Nat.mul_comm, signed_mul]
      exact ⟨fun h => by rw [h], fun h => mul_right_cancel₀ unit h⟩
    · rw [if_neg multiple]
      refine ⟨fun h => by contradiction, fun h => absurd ?_ multiple⟩
      have units : m = n.natAbs * pow2 k := by
        rw [← natAbs_signed s m, h, Int.natAbs_mul, Int.natAbs_natCast]
      rw [units, Nat.mul_mod_left]

/-- Aligned values are the same numbers of a common unit. -/
theorem Exact.exists_align (a b e e' : Int) :
    ∃ a' b' k, Exact.align a e b e' = (a', b', k) ∧ (a : ℚ) * 2 ^ e = a' * 2 ^ k ∧ (b : ℚ) * 2 ^ e' = b' * 2 ^ k := by
  have lowered (n : Int) {d d' : Int} (h : d' ≤ d) :
      (n : ℚ) * 2 ^ d = ((n * pow2 (d - d').toNat : Int) : ℚ) * 2 ^ d' := by
    obtain ⟨k, rfl⟩ : ∃ k : Nat, d = d' + k := ⟨(d - d').toNat, by omega⟩
    have distance : (d' + (k : Int) - d').toNat = k := by omega
    rw [zpow_add₀ two_ne_zero, two_zpow_natCast, distance]
    push_cast
    ring
  unfold Exact.align
  by_cases h : e ≤ e'
  · exact ⟨_, _, _, if_pos h, rfl, lowered b h⟩
  · exact ⟨_, _, _, if_neg h, lowered a (by omega), rfl⟩

/-- How finite values compare is how the rational numbers compare. -/
theorem Exact.compare?_finite (s s' : Bool) (m m' : Nat) (e e' : Int) :
    (Exact.finite s m e).compare? (.finite s' m' e') =
      some (if Exact.rational s m e < Exact.rational s' m' e' then .lt
        else if Exact.rational s m e = Exact.rational s' m' e' then .eq else .gt) := by
  obtain ⟨a, b, k, aligned, left, right⟩ :
      ∃ a b k, Exact.align (Exact.signed s m) e (Exact.signed s' m') e' = (a, b, k) ∧
        Exact.rational s m e = a * 2 ^ k ∧ Exact.rational s' m' e' = b * 2 ^ k := Exact.exists_align ..
  have unit : (0 : ℚ) < 2 ^ k := by positivity
  have less : (a : ℚ) * 2 ^ k < b * 2 ^ k ↔ a < b := by
    rw [mul_lt_mul_iff_of_pos_right unit]; exact_mod_cast Iff.rfl
  have equal : (a : ℚ) * 2 ^ k = b * 2 ^ k ↔ a = b := by
    rw [mul_left_inj' unit.ne']; exact_mod_cast Iff.rfl
  simp only [Exact.compare?, aligned, left, right, less, equal]

theorem normalize_ofRatio (s : Bool) {num den n : Nat} (hden : 0 < den) (float : IsValue n)
    (exact : (num : ℚ) / den = n) : normalize (.float (ofRatio s num den)) = .int (Exact.signed s n) := by
  obtain ⟨m, e, canonical, value⟩ := float
  have whole : (Exact.finite s m e).toInt? = some (Exact.signed s n) := by
    rw [Exact.toInt?_eq_some_iff, Exact.rational, Exact.signed_cast, Exact.signed_cast, value]
    cases s <;> simp
  simp only [normalize, ofFloat_ofRatio s hden canonical (exact.trans value), whole]

end ScopeExit.Number
