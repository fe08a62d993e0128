import ScopeExit.Grammar.Character
import ScopeExit.Proofs.Text.Spelling
import ScopeExit.Source.Escape
/-!
The pieces that literals are spelled with.

Between its quotes a literal is a sequence of pieces: characters that stand for themselves, and escapes.  A `Piece`
has a spelling and a meaning.  Its meaning is given here by itself, as the code points that the language gives to it;
that the reader of escapes finds the same is the result of this module.

Not every sequence of pieces can be read back.  A quote of the literal's own kind would end it, and some neighbours
would be taken for something else: a digit behind `\0`, or a brace behind a dollar sign in a template.  `Fits`
excludes them.

**Main result.** `decodeEscape_chars`: an escape is decoded to its meaning.
-/
namespace ScopeExit.Literal

open Number

/-! ### Hexadecimal digits -/

/-- A hexadecimal digit, in lower or upper case. -/
structure HexDigit where
  value : Fin 16
  isUpper : Bool

namespace HexDigit

/-- The character of a digit. -/
def char (d : HexDigit) : Char :=
  if d.isUpper then (Nat.digitChar d.value).toUpper else Nat.digitChar d.value

/-- The number that digits stand for. -/
def number (ds : List HexDigit) : Nat := ds.foldl (fun n d => n * 16 + d.value) 0

theorem number_concat (ds : List HexDigit) (d : HexDigit) : number (ds ++ [d]) = number ds * 16 + d.value := by
  simp [number]

theorem number_lt (ds : List HexDigit) : number ds < 16 ^ ds.length := by
  induction ds using List.reverseRecOn with
  | nil => decide
  | append_singleton ds d ih =>
    have := d.value.isLt
    rw [number_concat, List.length_append, List.length_singleton, Nat.pow_succ]
    omega

/-- What holds of the thirty-two spellings holds of each digit. -/
theorem forall_char {P : Char → Fin 16 → Prop} (h : ∀ b v, P (char ⟨v, b⟩) v) (d : HexDigit) : P d.char d.value :=
  h d.isUpper d.value

theorem isFigure_char (d : HexDigit) : IsFigure d.char :=
  forall_char (P := fun c _ => IsFigure c) (by decide) d

theorem digitValue?_char (d : HexDigit) : digitValue? d.char = some d.value.val :=
  forall_char (P := fun c v => digitValue? c = some v.val) (by decide) d

theorem isHexDigit_char (d : HexDigit) : Grammar.isHexDigit d.char = true :=
  forall_char (P := fun c _ => Grammar.isHexDigit c = true) (by decide) d

theorem char_ne_x (d : HexDigit) : d.char ≠ 'x' ∧ d.char ≠ 'X' :=
  forall_char (P := fun c _ => c ≠ 'x' ∧ c ≠ 'X') (by decide) d

theorem ofDigits_chars (ds : List HexDigit) : ofDigits 16 (ds.map char) = number ds := by
  rw [ofDigits, number, List.foldl_map]
  simp only [digitValue?_char, Option.getD_some]

/-- Digits are read as the number that they stand for. -/
theorem readHexInt?_chars {ds : List HexDigit} (full : ds ≠ []) :
    readHexInt? (Text.ofChars (ds.map char)) = some (number ds : Int) := by
  have figures : ∀ c ∈ ds.map char, IsFigure c := List.forall_mem_map.mpr fun d _ => d.isFigure_char
  have digits : ∀ c ∈ ds.map char, isDigitOf 16 c = true := by
    refine List.forall_mem_map.mpr fun d _ => ?_
    rw [isDigitOf, digitValue?_char]
    exact decide_eq_true d.value.isLt
  have read := readDigits?_figures figures (by simpa using full) digits fun ten => absurd ten (by decide)
  rw [ofDigits_chars] at read
  rw [readHexInt?, numeralChars_ofChars figures, splitSign_figures figures]
  dsimp only
  split
  -- no digit is the letter of a mark
  · rename_i same
    have mem : 'x' ∈ ds.map char := by rw [same]; simp
    obtain ⟨d, -, hd⟩ := List.mem_map.mp mem
    exact absurd hd d.char_ne_x.1
  · rename_i same
    have mem : 'X' ∈ ds.map char := by rw [same]; simp
    obtain ⟨d, -, hd⟩ := List.mem_map.mp mem
    exact absurd hd d.char_ne_x.2
  · rw [read]
    rfl

end HexDigit

open HexDigit

/-! ### Escapes -/

/-- The letters with a meaning of their own and the characters that they stand for. -/
def letters : List (Char × Char) :=
  [('n', '\n'), ('t', '\t'), ('r', '\r'), ('b', '\x08'), ('f', '\x0c'), ('v', '\x0b')]

/-- A character that a backslash leaves as it is. -/
def isPlain (c : Char) : Bool :=
  !(c.isDigit || ['n', 't', 'r', 'b', 'f', 'v', 'x', 'u', '\r', '\n', '\u2028', '\u2029'].contains c)

/-- What a backslash makes of what follows it. -/
inductive Escape where
  | letter (c meaning : Char) (known : (c, meaning) ∈ letters)
  | zero
  | hex (a b : HexDigit)
  | unicode (a b c d : HexDigit)
  | braces (digits : List HexDigit) (full : digits ≠ []) (bound : number digits < 0x110000)
  /-- The end of a line, which stands for nothing. -/
  | line
  | other (c : Char) (plain : isPlain c = true)

namespace Escape

/-- The spelling behind the backslash. -/
def tail : Escape → List Char
  | letter c _ _ => [c]
  | zero => ['0']
  | hex a b => ['x', a.char, b.char]
  | unicode a b c d => ['u', a.char, b.char, c.char, d.char]
  | braces digits _ _ => 'u' :: '\x7b' :: (digits.map HexDigit.char ++ ['\x7d'])
  | line => ['\n']
  | other c _ => [c]

/-- The spelling of an escape. -/
def chars (e : Escape) : List Char := '\\' :: e.tail

/-- The text that an escape stands for. -/
def meaning : Escape → Text
  | letter _ m _ => .ofChars [m]
  | zero => .ofChars ['\x00']
  | hex a b => .single ⟨number [a, b], (number_lt [a, b]).trans_le (by norm_num)⟩
  | unicode a b c d => .single ⟨number [a, b, c, d], (number_lt [a, b, c, d]).trans_le (by norm_num)⟩
  | braces digits _ bound => .single ⟨number digits, bound⟩
  | line => .empty
  | other c _ => .ofChars [c]

end Escape

/-! ### Decoding -/

/-- The code point of hexadecimal digits. -/
theorem hexCode_chars {ds : List HexDigit} (full : ds ≠ []) (bound : number ds < 0x110000) :
    Source.hexCode (.ofChars (ds.map HexDigit.char)) = .ok (.single ⟨number ds, bound⟩) := by
  have limit : (0x110000 : Int) < signBit := by decide
  have positive : -signBit < 0 := by decide
  unfold Source.hexCode
  rw [readHexInt?_chars full]
  dsimp only
  rw [if_neg (by simp only [Bool.or_eq_true, decide_eq_true_eq]; omega), if_neg (by omega), Int.toNat_natCast,
    CodePoint.ofNat?, dif_pos bound]

/-- A character as the reader of escapes sees it: one of ASCII as itself, any other as a question mark. -/
def seen (c : Char) : Char := if c.toNat < 0x80 then c else '?'

theorem seen_eq (c : Char) :
    (if (CodePoint.ofChar c).val < 0x80 then Char.ofNat (CodePoint.ofChar c).val else '?') = seen c := by
  rw [CodePoint.ofChar, Char.ofNat_toNat]
  rfl

/-- An escape of more than a letter that stands for a number of code points by itself. -/
theorem decodeEscape_cons (c : Char) (cs : List Char) (long : cs ≠ [] ∨ Source.simpleEscape? (seen c) = none) :
    Source.decodeEscape (.ofChars ('\\' :: c :: cs)) =
      if seen c = 'x' && cs.length = 2 then Source.hexCode (.ofChars cs)
      else if seen c = 'u' then Source.hexCode ⟨Source.unicodeDigits (cs.map CodePoint.ofChar)⟩
      else if seen c = '\r' || seen c = '\n' then .ok .empty
      else .ok (.ofChars (c :: cs)) := by
  have codes : (Text.ofChars ('\\' :: c :: cs)).codes.drop 1 = .ofChar c :: cs.map CodePoint.ofChar := rfl
  unfold Source.decodeEscape
  rw [codes]
  dsimp only
  rw [seen_eq]
  split
  · rename_i n empty simple
    rcases long with full | none
    · exact absurd (List.map_eq_nil_iff.mp empty) full
    · rw [none] at simple
      contradiction
  · rw [List.length_map]
    rfl

/-- The characters behind a backslash that the reader of escapes looks for. -/
def special : List Char := ['0', 'n', 't', 'r', 'b', 'f', 'v', 'x', 'u', '\r', '\n']

/-- What a backslash leaves as it is is none of the characters that are looked for. -/
theorem seen_ne_of_isPlain {c : Char} (plain : isPlain c = true) : ∀ d ∈ special, seen c ≠ d := by
  intro d hd same
  have other : isPlain d = false ∧ d ≠ '?' := by
    unfold special at hd
    fin_cases hd <;> exact ⟨rfl, by decide⟩
  unfold seen at same
  split at same
  · rw [same, other.1] at plain
    contradiction
  · exact other.2 same.symm

/-- **An escape is decoded to its meaning.** -/
theorem decodeEscape_chars (e : Escape) : Source.decodeEscape (.ofChars e.chars) = .ok e.meaning := by
  have letter (n : Nat) : ¬(seen 'u' = 'x' && n = 2) = true := by
    have other : seen 'u' ≠ 'x' := by decide
    simp [other]
  cases e with
  | letter c m known =>
    unfold letters at known
    simp only [List.mem_cons, Prod.mk.injEq, List.not_mem_nil, or_false] at known
    rcases known with ⟨rfl, rfl⟩ | ⟨rfl, rfl⟩ | ⟨rfl, rfl⟩ | ⟨rfl, rfl⟩ | ⟨rfl, rfl⟩ | ⟨rfl, rfl⟩ <;> rfl
  | zero => rfl
  | hex a b =>
    show Source.decodeEscape (.ofChars ('\\' :: 'x' :: [a, b].map HexDigit.char)) = _
    rw [decodeEscape_cons 'x' _ (.inl (by simp)), if_pos (by rfl)]
    exact hexCode_chars (by simp) _
  | unicode a b c d =>
    show Source.decodeEscape (.ofChars ('\\' :: 'u' :: [a, b, c, d].map HexDigit.char)) = _
    have digits : Source.unicodeDigits (([a, b, c, d].map HexDigit.char).map CodePoint.ofChar) =
        (Text.ofChars ([a, b, c, d].map HexDigit.char)).codes := by
      have noBrace : a.char.toNat ≠ '\x7b'.toNat := forall_char (P := fun c _ => c.toNat ≠ '\x7b'.toNat) (by decide) a
      exact if_neg noBrace
    rw [decodeEscape_cons 'u' _ (.inl (by simp)), if_neg (letter _), if_pos (by decide), digits]
    exact hexCode_chars (by simp) _
  | braces digits full bound =>
    show Source.decodeEscape (.ofChars ('\\' :: 'u' :: '\x7b' :: (digits.map HexDigit.char ++ ['\x7d']))) = _
    have inner : Source.unicodeDigits (('\x7b' :: (digits.map HexDigit.char ++ ['\x7d'])).map CodePoint.ofChar) =
        (Text.ofChars (digits.map HexDigit.char)).codes := by
      show (List.map CodePoint.ofChar (digits.map HexDigit.char ++ ['\x7d'])).dropLast = _
      rw [List.map_append]
      exact List.dropLast_concat
    rw [decodeEscape_cons 'u' _ (.inl (by simp)), if_neg (letter _), if_pos (by decide), inner]
    exact hexCode_chars full bound
  | line => rfl
  | other c plain =>
    have unseen := seen_ne_of_isPlain plain
    have simple : Source.simpleEscape? (seen c) = none := by
      unfold Source.simpleEscape?
      split <;> first | rfl | exact absurd ‹seen c = _› (unseen _ (by simp [special]))
    show Source.decodeEscape (.ofChars ['\\', c]) = _
    rw [decodeEscape_cons c [] (.inr simple), if_neg (by simp), if_neg (unseen 'u' (by simp [special])), if_neg]
    · rfl
    · simp [unseen '\r' (by simp [special]), unseen '\n' (by simp [special])]

/-- A backslash before a question mark draws a line break behind it into the escape, where both stand for themselves. -/
theorem decodeEscape_drawn (c : Char) : Source.decodeEscape (.ofChars ['\\', '?', c]) = .ok (.ofChars ['?', c]) := by
  rw [decodeEscape_cons '?' [c] (.inl (List.cons_ne_nil _ _)), if_neg (by simp [seen]), if_neg (by decide),
    if_neg (by decide)]

/-! ### Pieces -/

/-- What a literal stands between. -/
inductive Quote where
  | single | double | template
  deriving DecidableEq

/-- The character that starts and ends a literal. -/
def Quote.char : Quote → Char
  | single => '\''
  | double => '"'
  | template => '\x60'

/-- A piece of the text between the quotes. -/
inductive Piece where
  | raw (c : Char)
  | escape (e : Escape)

namespace Piece

/-- The spelling of a piece. -/
def chars : Piece → List Char
  | raw c => [c]
  | escape e => e.chars

/-- The text that a piece stands for. -/
def meaning : Piece → Text
  | raw c => .ofChars [c]
  | escape e => e.meaning

end Piece

/-- The spelling of several pieces. -/
def spelling (ps : List Piece) : List Char := ps.flatMap Piece.chars

/-- The text that several pieces stand for. -/
def meaning (ps : List Piece) : Text := .concat (ps.map Piece.meaning)

namespace Quote

/-- A character that stands for itself between quotes of a kind. -/
def admits (q : Quote) (c : Char) : Bool :=
  c ≠ q.char && c ≠ '\\' && (q = template || (c ≠ '\n' && c ≠ '\r'))

/-- A piece that may stand between quotes of a kind. -/
def holds (q : Quote) : Piece → Bool
  | .raw c => q.admits c
  | .escape _ => true

/-- Two pieces that may be neighbours: a digit would be drawn into the escape of the null character, and a dollar sign
with a brace opens a substitution in a template. -/
def separates (q : Quote) : Piece → Piece → Bool
  | .escape .zero, .raw c => !c.isDigit
  | .raw '$', .raw '\x7b' => q ≠ template
  | _, _ => true

/-- Pieces that may stand between quotes of a kind, one after the other. -/
structure Fits (q : Quote) (ps : List Piece) : Prop where
  each : ∀ p ∈ ps, q.holds p = true
  neighbours : ps.IsChain fun p p' => q.separates p p' = true

instance (q : Quote) (ps : List Piece) : Decidable (q.Fits ps) :=
  decidable_of_iff ((∀ p ∈ ps, q.holds p = true) ∧ ps.IsChain fun p p' => q.separates p p' = true)
    ⟨fun h => ⟨h.1, h.2⟩, fun h => ⟨h.each, h.neighbours⟩⟩

end Quote

end ScopeExit.Literal
