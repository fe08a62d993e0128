import ScopeExit.Proofs.Source.Literal
/-!
Spellings of numbers and texts.

A natural number is spelled with decimal or with hexadecimal digits, and a text as a string of pieces.  Decimal digits
are read up to a number of them, while hexadecimal ones have no such limit, so every natural number has a numeral.
Every text has a string as well, since each code point has an escape, also those that no character has.

**Main results.** `Whole.readLiteral?_text`: a numeral is read as its number.  `exists_whole` and `exists_quoted`:
every number and every text has a spelling.
-/
namespace ScopeExit.Literal

open Number

/-! ### Numbers -/

/-- A numeral of a natural number. -/
inductive Whole where
  | decimal (n : Nat) (short : (Nat.toDigits 10 n).length ≤ maxDigits)
  | hexadecimal (n : Nat)

namespace Whole

/-- The number of a numeral. -/
def value : Whole → Nat
  | decimal n _ | hexadecimal n => n

/-- The characters of a numeral. -/
def chars : Whole → List Char
  | decimal n _ => Nat.toDigits 10 n
  | hexadecimal n => '0' :: 'x' :: Nat.toDigits 16 n

/-- The text of a numeral. -/
def text (w : Whole) : String := .ofList w.chars

end Whole

/-- A numeral without underscores, and without the mark of a large integer at its end. -/
theorem readLiteral?_ofChars {cs : List Char} (full : cs ≠ []) (plain : ∀ c ∈ cs, c ≠ '_' ∧ c ≠ 'n') :
    readLiteral? (.ofChars cs) =
      if hasBaseMark (.ofChars cs) then (readInt? (.ofChars cs)).map .int
      else if isDecimalDigits (.ofChars cs) then (readDecimalInt? (.ofChars cs)).map .int
      else (readFloat? (.ofChars cs)).map .float := by
  have whole : withoutUnderscores (.ofChars cs) = .ofChars cs := by
    refine Text.ext (List.filter_eq_self.mpr ?_)
    refine List.forall_mem_map.mpr fun c hc => ?_
    exact decide_eq_true fun same => (plain c hc).1 (Char.toNat_inj.mp same)
  obtain ⟨front, last, rfl⟩ : ∃ front last, cs = front ++ [last] := by
    simpa only [List.concat_eq_append] using (List.eq_nil_or_concat cs).resolve_left full
  have codes : (Text.ofChars (front ++ [last])).codes.reverse =
      .ofChar last :: (front.map CodePoint.ofChar).reverse := by
    simp [Text.ofChars]
  have mark : (CodePoint.ofChar last).val ≠ 'n'.toNat := fun same =>
    (plain last (by simp)).2 (Char.toNat_inj.mp same)
  unfold readLiteral?
  rw [whole]
  dsimp only
  rw [codes]
  dsimp only
  rw [if_neg mark]

theorem hasBaseMark_digits {cs : List Char} (digits : ∀ c ∈ cs, c.isDigit = true) :
    hasBaseMark (.ofChars cs) = false := by
  match cs with
  | [] | [_] | [_, _] => rfl
  | a :: b :: c :: cs =>
    have letter : (baseOfLetter? (Char.ofNat b.toNat)).isSome = false :=
      forall_isDigit (P := fun b => (baseOfLetter? (Char.ofNat b.toNat)).isSome = false) (by decide) b
        (digits b (by simp))
    show (_ && _ && (baseOfLetter? (Char.ofNat b.toNat)).isSome && _ && _) = false
    rw [letter, Bool.and_false, Bool.false_and, Bool.false_and]

theorem isDecimalDigits_digits {cs : List Char} (full : cs ≠ []) (digits : ∀ c ∈ cs, c.isDigit = true) :
    isDecimalDigits (.ofChars cs) = true := by
  have value : ∀ c ∈ cs, (CodePoint.ofChar c).decimalValue?.isSome = true := fun c hc =>
    forall_isDigit (P := fun c => (CodePoint.ofChar c).decimalValue?.isSome = true) (by decide) c (digits c hc)
  rw [isDecimalDigits, Bool.and_eq_true]
  refine ⟨?_, ?_⟩
  · cases cs with
    | nil => contradiction
    | cons c cs => rfl
  · exact List.all_eq_true.mpr (List.forall_mem_map.mpr value)

/-- **A numeral is read as its number.** -/
theorem Whole.readLiteral?_text (w : Whole) : readLiteral? (.ofString w.text) = some (.int w.value) := by
  rw [text, ofString_ofList]
  cases w with
  | decimal n short =>
    have figures : ∀ c ∈ Nat.toDigits 10 n, IsFigure c ∧ isDigitOf 10 c = true :=
      isFigure_of_mem_toDigits (by decide) (by decide) n
    have digits : ∀ c ∈ Nat.toDigits 10 n, c.isDigit = true := fun c hc => isDigit_of_mem_toDigits hc
    have plain : ∀ c ∈ Nat.toDigits 10 n, c ≠ '_' ∧ c ≠ 'n' := fun c hc =>
      ⟨(figures c hc).1.2.2.1, fun letter => absurd (digits c hc) (by rw [letter]; decide)⟩
    have numeral : Text.ofChars (Nat.toDigits 10 n) = Text.ofNat n := Text.ext (Text.codes_ofNat n).symm
    have small : n < pow10 maxDigits := by
      rw [pow10_eq]
      exact (Nat.length_toDigits_le_iff (by decide) (by decide)).mp short
    show readLiteral? (.ofChars (Nat.toDigits 10 n)) = _
    rw [readLiteral?_ofChars Nat.toDigits_ne_nil plain, hasBaseMark_digits digits,
      isDecimalDigits_digits Nat.toDigits_ne_nil digits, numeral, readDecimalInt?_ofNat small]
    rfl
  | hexadecimal n =>
    have figures : ∀ c ∈ Nat.toDigits 16 n, IsFigure c ∧ isDigitOf 16 c = true :=
      isFigure_of_mem_toDigits (by decide) (by decide) n
    have plain : ∀ c ∈ Nat.toDigits 16 n, c ≠ '_' ∧ c ≠ 'n' := fun c hc =>
      ⟨(figures c hc).1.2.2.1, fun letter => absurd (figures c hc).2 (by rw [letter]; decide)⟩
    have hex : ∀ c ∈ Nat.toDigits 16 n, isHexDigit (.ofChar c) = true :=
      forall_mem_toDigits (by decide) (by decide) n
    have all : ∀ c ∈ '0' :: 'x' :: Nat.toDigits 16 n, IsFigure c :=
      List.forall_mem_cons.mpr ⟨by decide, List.forall_mem_cons.mpr ⟨by decide, fun c hc => (figures c hc).1⟩⟩
    have marked : hasBaseMark (.ofChars ('0' :: 'x' :: Nat.toDigits 16 n)) = true := by
      cases digits : Nat.toDigits 16 n with
      | nil => exact absurd digits Nat.toDigits_ne_nil
      | cons d ds =>
        rw [digits] at hex
        show (_ && _ && _ && isHexDigit (.ofChar d) && (ds.map CodePoint.ofChar).all isHexDigit) = true
        rw [hex d List.mem_cons_self,
          List.all_eq_true.mpr (List.forall_mem_map.mpr fun c hc => hex c (List.mem_cons_of_mem d hc))]
        rfl
    have read : readInt? (.ofChars ('0' :: 'x' :: Nat.toDigits 16 n)) = some n := by
      have base : readUnsigned? ('0' :: 'x' :: Nat.toDigits 16 n) = readMarked? 16 (Nat.toDigits 16 n) := rfl
      have unmarked : readMarked? 16 (Nat.toDigits 16 n) = readDigits? 16 (Nat.toDigits 16 n) := by
        unfold readMarked?
        split
        · rename_i rest same
          exact absurd rfl (plain '_' (by rw [same]; exact List.mem_cons_self)).1
        · rfl
      rw [readInt?, numeralChars_ofChars all, splitSign_figures all]
      dsimp only
      rw [base, unmarked, readDigits?_figures (fun c hc => (figures c hc).1) Nat.toDigits_ne_nil
        (fun c hc => (figures c hc).2) fun ten => absurd ten (by decide), ofDigits_toDigits (by decide) (by decide)]
      rfl
    show readLiteral? (.ofChars ('0' :: 'x' :: Nat.toDigits 16 n)) = _
    rw [readLiteral?_ofChars (List.cons_ne_nil _ _)
      (List.forall_mem_cons.mpr ⟨by decide, List.forall_mem_cons.mpr ⟨by decide, plain⟩⟩), marked, read]
    rfl

/-- Every natural number has a numeral. -/
theorem exists_whole (n : Nat) : ∃ w : Whole, w.value = n := ⟨.hexadecimal n, rfl⟩

/-! ### Texts -/

/-- A string with its quotes. -/
structure Quoted where
  quote : Quote
  isString : quote ≠ .template
  pieces : List Piece
  clear : quote.Clear pieces

/-- The text that a string stands for. -/
def Quoted.value (s : Quoted) : Text := meaning s.pieces

/-- The hexadecimal digit of a number below sixteen. -/
def digitOf (n : Nat) : HexDigit := ⟨⟨n % 16, Nat.mod_lt n (by decide)⟩, false⟩

/-- Six hexadecimal digits, which are enough for every code point. -/
def sixDigits (n : Nat) : List HexDigit :=
  [digitOf (n / 0x100000), digitOf (n / 0x10000), digitOf (n / 0x1000), digitOf (n / 0x100), digitOf (n / 0x10), digitOf n]

theorem number_sixDigits {n : Nat} (small : n < 0x110000) : HexDigit.number (sixDigits n) = n := by
  simp only [sixDigits, HexDigit.number, digitOf, List.foldl_cons, List.foldl_nil]
  omega

/-- The escape of a code point. -/
def escapeOf (c : CodePoint) : Escape :=
  .braces (sixDigits c.val) (List.cons_ne_nil _ _) (by rw [number_sixDigits c.isLt]; exact c.isLt)

theorem meaning_escapeOf (c : CodePoint) : (escapeOf c).meaning = .single c := by
  have same : HexDigit.number (sixDigits c.val) = c.val := number_sixDigits c.isLt
  show Text.single ⟨HexDigit.number (sixDigits c.val), _⟩ = _
  simp only [same]

theorem clear_escapeOf (cs : List CodePoint) : Quote.double.Clear (cs.map fun c => .escape (escapeOf c)) where
  fits := by
    refine ⟨List.forall_mem_map.mpr fun c _ => rfl, ?_⟩
    rw [List.isChain_map]
    exact List.isChain_iff_getElem.mpr fun _ _ => rfl
  real := by
    refine List.forall_mem_map.mpr fun c _ => ?_
    have digit : ∀ d : HexDigit, d.char ≠ '\x00' := HexDigit.forall_char (P := fun c _ => c ≠ '\x00') (by decide)
    show '\x00' ∉ '\\' :: 'u' :: '\x7b' :: ((sixDigits c.val).map HexDigit.char ++ ['\x7d'])
    simp [digit]

/-- Every text has a string. -/
theorem exists_quoted (t : Text) : ∃ s : Quoted, s.value = t := by
  refine ⟨⟨.double, by decide, _, clear_escapeOf t.codes⟩, Text.ext ?_⟩
  show ((t.codes.map fun c => Piece.escape (escapeOf c)).map Piece.meaning).flatMap Text.codes = t.codes
  rw [List.map_map, List.flatMap_map]
  have one (c : CodePoint) : (Piece.escape (escapeOf c)).meaning.codes = [c] := congrArg Text.codes (meaning_escapeOf c)
  simp only [Function.comp_apply, one]
  exact List.flatMap_singleton' t.codes

end ScopeExit.Literal
