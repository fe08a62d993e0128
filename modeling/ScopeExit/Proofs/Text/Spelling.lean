import Mathlib
import ScopeExit.Number.Literal
/-!
Texts that spell something.

A string comes back from its text, and a natural number from its decimal numeral.  Only numerals of natural
numbers consist of digits alone: that of a negative integer starts with a sign, and a float shows a point, an
exponent or a name.
-/
namespace ScopeExit

open Number

/-! ### Strings -/

theorem CodePoint.toChar?_ofChar (c : Char) : (ofChar c).toChar? = some c := by
  have whole : (ofChar c).isSurrogate = false := by
    have valid : c.toNat < 0xD800 ∨ 0xDFFF < c.toNat := by
      rcases c.valid with h | h
      · exact .inl h
      · exact .inr h.1
    rw [isSurrogate, Bool.and_eq_false_iff, decide_eq_false_iff_not, decide_eq_false_iff_not]
    rcases valid with below | above
    · exact .inl (by simpa [ofChar] using below)
    · exact .inr (by simpa [ofChar] using above)
  rw [toChar?, whole, ofChar, Char.ofNat_toNat]
  rfl

theorem Text.toString?_ofString (s : String) : (ofString s).toString? = some s := by
  have chars (cs : List Char) : (cs.map CodePoint.ofChar).mapM CodePoint.toChar? = some cs := by
    induction cs with
    | nil => rfl
    | cons c cs ih => simp [CodePoint.toChar?_ofChar, ih]
  rw [toString?, ofString, ofChars, chars, Option.map_some, String.ofList_toList]

theorem Text.ofString_injective {s t : String} (h : ofString s = ofString t) : s = t := by
  have same := congrArg toString? h
  rw [toString?_ofString, toString?_ofString] at same
  exact Option.some.inj same

/-- A text with a character that is no digit does not consist of digits. -/
theorem Text.isDigits_eq_false {t : Text} {c : CodePoint} (there : c ∈ t.codes) (other : c.isDigit = false) :
    t.isDigits = false := by
  rw [isDigits, Bool.and_eq_false_iff]
  refine .inr (Bool.eq_false_iff.mpr fun all => ?_)
  rw [List.all_eq_true.mp all c there] at other
  contradiction

theorem Text.isDigits_ofString_eq_false {s : String} {c : Char} (there : c ∈ s.toList)
    (other : (CodePoint.ofChar c).isDigit = false) : (ofString s).isDigits = false :=
  isDigits_eq_false (List.mem_map_of_mem there) other

/-! ### Numerals of natural numbers -/

theorem Text.codes_ofNat (n : Nat) : (ofNat n).codes = (Nat.toDigits 10 n).map CodePoint.ofChar := by
  rw [ofNat, ofString, ofChars, Nat.repr_eq_ofList_toDigits, String.toList_ofList]

theorem Text.ofNat_injective {m n : Nat} (h : ofNat m = ofNat n) : m = n :=
  Nat.repr_injective (ofString_injective h)

/-- What holds of the ten digits holds of each digit. -/
theorem forall_isDigit {P : Char → Prop} (h : ∀ d : Fin 10, P (Char.ofNat (48 + d))) (c : Char) (digit : c.isDigit) :
    P c := by
  have range : 48 ≤ c.toNat ∧ c.toNat ≤ 57 := Char.isDigit_iff_toNat.mp digit
  have := h ⟨c.toNat - 48, by omega⟩
  rwa [Nat.add_sub_cancel' range.1, Char.ofNat_toNat] at this

theorem isDigit_of_mem_toDigits {n : Nat} {c : Char} (h : c ∈ Nat.toDigits 10 n) : c.isDigit :=
  Nat.isDigit_of_mem_toDigits (by decide) (by decide) h

theorem Text.isDigits_ofNat (n : Nat) : (ofNat n).isDigits := by
  rw [isDigits, isEmpty, codes_ofNat, Bool.and_eq_true, List.isEmpty_map, List.all_map, List.all_eq_true]
  refine ⟨?_, fun c hc => ?_⟩
  · rw [Bool.not_eq_true', List.isEmpty_eq_false_iff]
    exact Nat.toDigits_ne_nil
  · exact forall_isDigit (P := fun c => (CodePoint.ofChar c).isDigit) (by decide) c (isDigit_of_mem_toDigits hc)

/-- A character of a numeral that stands for itself: it is neither white space nor a sign nor an underscore. -/
def IsFigure (c : Char) : Prop :=
  numeralChar (.ofChar c) = c ∧ isPad c = false ∧ c ≠ '_' ∧ c ≠ '+' ∧ c ≠ '-'

instance (c : Char) : Decidable (IsFigure c) := inferInstanceAs (Decidable (_ ∧ _))

section

variable {cs : List Char} (figures : ∀ c ∈ cs, IsFigure c)
include figures

theorem numeralChars_ofChars : numeralChars (Text.ofChars cs) = cs := by
  have keep (ds : List Char) (all : ∀ d ∈ ds, IsFigure d) : ds.dropWhile isPad = ds := by
    cases ds with
    | nil => rfl
    | cons d ds => rw [List.dropWhile_cons_of_neg (by simp [(all d List.mem_cons_self).2.1])]
  have chars : (cs.map CodePoint.ofChar).map numeralChar = cs := by
    rw [List.map_map]
    exact (List.map_congr_left fun c hc => (figures c hc).1).trans (List.map_id _)
  rw [numeralChars, Text.ofChars, chars, keep cs figures,
    keep cs.reverse fun c hc => figures c (List.mem_reverse.mp hc), List.reverse_reverse]

theorem dropUnderscores_figures (isDig : Char → Bool) (after : Bool) : dropUnderscores isDig after cs = some cs := by
  induction cs generalizing after with
  | nil => rfl
  | cons c cs ih =>
    have other : c ≠ '_' := (figures c List.mem_cons_self).2.2.1
    have rest := ih fun c hc => figures c (List.mem_cons_of_mem _ hc)
    unfold dropUnderscores
    split
    · contradiction
    · exact absurd (List.cons.inj ‹_›).1 other
    · rename_i same
      obtain ⟨rfl, rfl⟩ := List.cons.inj same
      rw [rest, Option.map_some]

theorem splitSign_figures : splitSign cs = (false, cs) := by
  cases cs with
  | nil => rfl
  | cons c cs =>
    obtain ⟨-, -, -, plus, minus⟩ := figures c List.mem_cons_self
    unfold splitSign
    split
    · exact absurd (List.cons.inj ‹_›).1 plus
    · exact absurd (List.cons.inj ‹_›).1 minus
    · rfl

/-- Figures that are digits of a base are read as the number that they stand for. -/
theorem readDigits?_figures {base : Nat} (full : cs ≠ []) (digits : ∀ c ∈ cs, isDigitOf base c = true)
    (short : base = 10 → cs.length ≤ maxDigits) : readDigits? base cs = some (ofDigits base cs) := by
  have few : ¬(base = 10 ∧ maxDigits < cs.length) := fun ⟨ten, long⟩ => Nat.not_lt.mpr (short ten) long
  simpa [readDigits?, dropUnderscores_figures figures, full, few] using digits

end

/-- What holds of the digits of a base holds of the characters of a numeral. -/
theorem forall_mem_toDigits {P : Char → Prop} {base : Nat} (proper : 1 < base)
    (h : ∀ d < base, P (Nat.digitChar d)) (n : Nat) : ∀ c ∈ Nat.toDigits base n, P c := by
  induction n using Nat.strongRecOn with
  | ind n ih =>
    intro c hc
    rw [Nat.toDigits_eq_if proper] at hc
    split at hc
    · rename_i small
      rw [List.mem_singleton.mp hc]
      exact h n small
    · rename_i large
      rcases List.mem_append.mp hc with front | last
      · exact ih _ (Nat.div_lt_self (by omega) proper) c front
      · rw [List.mem_singleton.mp last]
        exact h _ (Nat.mod_lt n (by omega))

/-- A numeral in a base comes back as the number that its digits stand for. -/
theorem ofDigits_toDigits {base : Nat} (proper : 1 < base) (bound : base ≤ 16) (n : Nat) :
    ofDigits base (Nat.toDigits base n) = n := by
  have value : ∀ d < 16, (digitValue? (Nat.digitChar d)).getD 0 = d := by decide
  induction n using Nat.strongRecOn with
  | ind n ih =>
    rw [Nat.toDigits_eq_if proper]
    split
    · rename_i small
      simp [ofDigits, value n (by omega)]
    · rename_i large
      have front := ih (n / base) (Nat.div_lt_self (by omega) proper)
      have last : n % base < base := Nat.mod_lt n (by omega)
      rw [ofDigits] at front ⊢
      rw [List.foldl_append, front, List.foldl_cons, List.foldl_nil, value _ (by omega), Nat.div_add_mod']

theorem pow10_eq (k : Nat) : pow10 k = 10 ^ k := rfl

theorem isFigure_of_mem_toDigits {base : Nat} (proper : 1 < base) (bound : base ≤ 16) (n : Nat) :
    ∀ c ∈ Nat.toDigits base n, IsFigure c ∧ isDigitOf base c = true := by
  have figure : ∀ d < 16, IsFigure (Nat.digitChar d) := by decide
  have value : ∀ d < 16, digitValue? (Nat.digitChar d) = some d := by decide
  refine forall_mem_toDigits proper (fun d small => ⟨figure d (by omega), ?_⟩) n
  rw [isDigitOf, value d (by omega)]
  exact decide_eq_true small

/-- A natural number is read back from its numeral, unless it has too many digits. -/
theorem readDecimalInt?_ofNat {n : Nat} (small : n < pow10 maxDigits) : readDecimalInt? (Text.ofNat n) = some n := by
  have digits : ∀ c ∈ Nat.toDigits 10 n, IsFigure c ∧ isDigitOf 10 c = true :=
    isFigure_of_mem_toDigits (by decide) (by decide) n
  have figures : ∀ c ∈ Nat.toDigits 10 n, IsFigure c := fun c hc => (digits c hc).1
  have length : (Nat.toDigits 10 n).length ≤ maxDigits := by
    rw [pow10_eq] at small
    exact (Nat.length_toDigits_le_iff (by decide) (by decide)).mpr small
  have chars : Text.ofNat n = Text.ofChars (Nat.toDigits 10 n) := Text.ext (Text.codes_ofNat n)
  rw [readDecimalInt?, chars, numeralChars_ofChars figures, splitSign_figures figures]
  dsimp only
  rw [readDigits?_figures figures Nat.toDigits_ne_nil (fun c hc => (digits c hc).2) fun _ => length,
    ofDigits_toDigits (by decide) (by decide)]
  rfl

/-! ### Numerals of integers and floats -/

theorem isDigits_ofInt_iff (n : Int) : (Text.ofInt n).isDigits ↔ 0 ≤ n := by
  unfold Text.ofInt
  split
  · rename_i negative
    have sign : (Text.ofString "-" ++ Text.ofNat n.natAbs).isDigits = false :=
      @Text.isDigits_eq_false _ (CodePoint.ofChar '-') (by simp [Text.ofString, Text.ofChars]) (by decide)
    rw [sign]
    exact ⟨fun h => by contradiction, fun h => by omega⟩
  · exact ⟨fun _ => by omega, fun _ => Text.isDigits_ofNat _⟩

/-- A float in a listing is more than digits. -/
theorem isDigits_floatLiteral (x : Float) : (Text.ofString (floatLiteral x)).isDigits = false := by
  have point : (CodePoint.ofChar '.').isDigit = false := by decide
  have letter : (CodePoint.ofChar 'e').isDigit = false := by decide
  have written (d : Decimal) : ∃ c ∈ (literalStyle.write d).toList, (CodePoint.ofChar c).isDigit = false := by
    unfold FloatStyle.write
    dsimp only
    split
    · split
      · exact ⟨'.', by simp [literalStyle], point⟩
      · split
        · exact ⟨'.', by simp, point⟩
        · exact ⟨'.', by simp, point⟩
    · exact ⟨'e', by simp, letter⟩
  suffices other : ∃ c ∈ (floatLiteral x).toList, (CodePoint.ofChar c).isDigit = false by
    obtain ⟨c, there, other⟩ := other
    exact Text.isDigits_ofString_eq_false there other
  unfold floatLiteral FloatStyle.format
  split
  · exact ⟨'n', by decide, by decide⟩
  · split
    · exact ⟨'-', by simp, by decide⟩
    · exact ⟨'i', by decide, by decide⟩
  · rename_i s m e _
    have unsigned : ∃ c ∈ (if m = 0 then "0" ++ literalStyle.integralSuffix
        else literalStyle.write (shortest m e)).toList, (CodePoint.ofChar c).isDigit = false := by
      by_cases zero : m = 0
      · rw [if_pos zero]
        exact ⟨'.', by decide, point⟩
      · rw [if_neg zero]
        exact written _
    dsimp only
    split
    · exact ⟨'-', by simp, by decide⟩
    · exact unsigned

end ScopeExit
