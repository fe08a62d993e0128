import Mathlib
import ScopeExit.Proofs.Text.Spelling
import ScopeExit.Span
import ScopeExit.Text.Quoted
/-!
Texts that stay on one line.

Lines end at line feeds only; a carriage return or another separator of lines does not end one.  A text is unbroken if
it holds no line feed.  Names and numerals are unbroken because of the characters they are made of, and a quoted text
is unbroken whatever it quotes: a line feed is not printable, so it is never written as itself.

**Main results.** `unbroken_quoted`: a quoted text is on one line.  `splitLines_join`: texts without line feeds that are
joined by line feeds come back as the lines.
-/
namespace ScopeExit

namespace Text

/-- The code point that ends a line. -/
def lineFeed : CodePoint := .ofChar '\n'

/-- The parts of a text between its line feeds. -/
def splitLines (t : Text) : List Text := (t.codes.splitOn lineFeed).map Text.mk

/-- A text without a line feed. -/
def Unbroken (t : Text) : Prop := lineFeed ∉ t.codes

instance (t : Text) : Decidable t.Unbroken := inferInstanceAs (Decidable (_ ∉ _))

section

variable {a b : Text} {ts : List Text} {cs : List Char} {s t : String}

@[simp] theorem unbroken_empty : Unbroken .empty := List.not_mem_nil

@[simp] theorem unbroken_append : (a ++ b).Unbroken ↔ a.Unbroken ∧ b.Unbroken := by
  simp [Unbroken]

@[simp] theorem unbroken_concat : (concat ts).Unbroken ↔ ∀ t ∈ ts, t.Unbroken := by
  simp [Unbroken, concat]

@[simp] theorem unbroken_single {c : CodePoint} : (single c).Unbroken ↔ c ≠ lineFeed := by
  rw [Unbroken, single, List.mem_singleton, ne_comm]

theorem ofString_append : ofString (s ++ t) = ofString s ++ ofString t := by
  apply ext
  rw [codes_append, ofString, ofString, ofString, ofChars, ofChars, ofChars, String.toList_append, List.map_append]

theorem unbroken_join {sep : Text} (between : sep.Unbroken) (each : ∀ t ∈ ts, t.Unbroken) :
    (join sep ts).Unbroken := by
  induction ts with
  | nil => exact unbroken_empty
  | cons t ts ih =>
    have rest := ih fun t ht => each t (List.mem_cons_of_mem _ ht)
    have first := each t List.mem_cons_self
    cases ts with
    | nil => simpa [join, Unbroken] using first
    | cons u ts =>
      have same : join sep (t :: u :: ts) = t ++ sep ++ join sep (u :: ts) := by
        apply ext
        simp [join]
      rw [same, unbroken_append, unbroken_append]
      exact ⟨⟨first, between⟩, rest⟩

/-! ### Characters -/

theorem unbroken_ofChars : (ofChars cs).Unbroken ↔ '\n' ∉ cs := by
  have one (c : Char) : CodePoint.ofChar c = lineFeed ↔ c = '\n' := by
    refine ⟨fun same => ?_, fun same => same ▸ rfl⟩
    have back := congrArg CodePoint.toChar? same
    rw [lineFeed, CodePoint.toChar?_ofChar, CodePoint.toChar?_ofChar] at back
    exact Option.some.inj back
  rw [Unbroken, ofChars, not_iff_not, List.mem_map]
  simp only [one]
  constructor
  · rintro ⟨c, mem, rfl⟩
    exact mem
  · exact fun mem => ⟨'\n', mem, rfl⟩

theorem unbroken_ofList : (ofString (String.ofList cs)).Unbroken ↔ '\n' ∉ cs := by
  rw [ofString, String.toList_ofList, unbroken_ofChars]

theorem unbroken_ofString : (ofString s).Unbroken ↔ '\n' ∉ s.toList := unbroken_ofChars

theorem toList_pushn (c : Char) (n : Nat) : (s.pushn c n).toList = s.toList ++ List.replicate n c := by
  unfold String.pushn
  induction n with
  | zero => simp [Nat.repeat]
  | succ n ih => rw [Nat.repeat, String.toList_push, ih, List.append_assoc, List.replicate_succ']

theorem unbroken_zeros (n : Nat) : (ofString ("".pushn '0' n)).Unbroken := by
  rw [unbroken_ofString, toList_pushn]
  intro mem
  rcases List.mem_append.mp mem with mem | mem
  · exact absurd mem (by decide)
  · exact absurd (List.eq_of_mem_replicate mem) (by decide)

/-! ### Numerals -/

theorem not_mem_repr (n : Nat) : '\n' ∉ (Nat.repr n).toList := by
  rw [Nat.repr_eq_ofList_toDigits, String.toList_ofList]
  intro mem
  exact absurd (isDigit_of_mem_toDigits mem) (by decide)

theorem unbroken_repr (n : Nat) : (ofString (Nat.repr n)).Unbroken := unbroken_ofString.mpr (not_mem_repr n)

theorem unbroken_ofInt (n : Int) : (ofInt n).Unbroken := by
  unfold ofInt
  split
  · exact unbroken_append.mpr ⟨by decide, unbroken_repr _⟩
  · exact unbroken_repr _

open Number

theorem unbroken_padded (width n : Nat) : (ofString (padded width n)).Unbroken := by
  rw [padded, ofString_append, unbroken_append]
  exact ⟨unbroken_zeros _, unbroken_repr n⟩

/-- The digits of a decimal, some of them or with zeros and a point among them. -/
theorem unbroken_write (d : Decimal) : (ofString (literalStyle.write d)).Unbroken := by
  have digits : (ofString (Nat.repr d.digits)).Unbroken := unbroken_repr _
  have some {cs : List Char} (sub : cs ⊆ (Nat.repr d.digits).toList) : (ofString (String.ofList cs)).Unbroken :=
    unbroken_ofList.mpr fun mem => not_mem_repr _ (sub mem)
  have first (k : Nat) := some (List.take_subset k (Nat.repr d.digits).toList)
  have others (k : Nat) := some (List.drop_subset k (Nat.repr d.digits).toList)
  have point : (ofString ".").Unbroken := by decide
  unfold FloatStyle.write
  dsimp only
  split
  · split
    · simp only [ofString_append, unbroken_append]
      exact ⟨⟨digits, unbroken_zeros _⟩, by decide⟩
    · split
      · simp only [ofString_append, unbroken_append]
        exact ⟨⟨first _, point⟩, others _⟩
      · simp only [ofString_append, unbroken_append]
        exact ⟨⟨by decide, unbroken_zeros _⟩, digits⟩
  · simp only [ofString_append, unbroken_append]
    refine ⟨⟨⟨?_, by decide⟩, ?_⟩, unbroken_padded _ _⟩
    · split
      · exact first 1
      · simp only [ofString_append, unbroken_append]
        exact ⟨⟨first 1, point⟩, others 1⟩
    · split <;> decide

theorem unbroken_floatLiteral (x : Float) : (ofString (floatLiteral x)).Unbroken := by
  unfold floatLiteral FloatStyle.format
  split
  · decide
  · split <;> decide
  · rename_i s m e _
    have digits : (ofString (if m = 0 then "0" ++ literalStyle.integralSuffix
        else literalStyle.write (shortest m e))).Unbroken := by
      split
      · decide
      · exact unbroken_write _
    dsimp only
    split
    · rw [ofString_append, unbroken_append]
      exact ⟨by decide, digits⟩
    · exact digits

/-! ### Quotes -/

theorem not_mem_hexDigits (width n : Nat) : '\n' ∉ hexDigits width n := by
  intro mem
  rcases List.mem_append.mp mem with mem | mem
  · exact absurd (List.eq_of_mem_replicate mem) (by decide)
  · have digits : ∀ d < 16, Nat.digitChar d ≠ '\n' := by decide
    exact forall_mem_toDigits (P := (· ≠ '\n')) (by decide) digits n _ mem rfl

theorem unbroken_hexEscape (n : Nat) : (ofChars (hexEscape n)).Unbroken := by
  have digits (width : Nat) := not_mem_hexDigits width n
  rw [unbroken_ofChars]
  unfold hexEscape
  split
  · simp [digits]
  · split <;> simp [digits]

/-- Between quotes no code point stands for a line feed. -/
theorem unbroken_quotedCode {quote : Char} (other : quote ≠ '\n') (c : CodePoint) : (quotedCode quote c).Unbroken := by
  by_cases broken : c = lineFeed
  · subst broken
    have skipped : lineFeed.val ≠ quote.toNat := fun same => other (Char.toNat_inj.mp same.symm)
    unfold quotedCode
    rw [if_neg (by simpa using ⟨skipped, by decide⟩)]
    decide
  · unfold quotedCode
    split
    · exact unbroken_append.mpr ⟨by decide, unbroken_single.mpr broken⟩
    · split
      · decide
      · split
        · decide
        · split
          · decide
          · split
            · exact unbroken_single.mpr broken
            · exact unbroken_hexEscape _

/-- **A quoted text is on one line.** -/
theorem unbroken_quoted (t : Text) : t.quoted.Unbroken := by
  have quote : t.quoteFor ≠ '\n' := by
    unfold quoteFor
    dsimp only
    split <;> decide
  have mark : (ofChars [t.quoteFor]).Unbroken := unbroken_ofChars.mpr (by simpa using quote.symm)
  unfold quoted
  simp only [unbroken_append, unbroken_concat, List.forall_mem_map]
  exact ⟨⟨mark, fun c _ => unbroken_quotedCode quote c⟩, mark⟩

end

/-- **Texts without line feeds are the lines of what they are joined to.** -/
theorem splitLines_join {ts : List Text} (each : ∀ t ∈ ts, t.Unbroken) (some : ts ≠ []) :
    (join "\n" ts).splitLines = ts := by
  have codes : ∀ l ∈ ts.map Text.codes, lineFeed ∉ l := by
    intro l hl
    obtain ⟨t, ht, rfl⟩ := List.mem_map.mp hl
    exact each t ht
  have parts := List.splitOn_intercalate lineFeed codes (by simpa using some)
  show (([lineFeed].intercalate (ts.map Text.codes)).splitOn lineFeed).map Text.mk = ts
  rw [parts, List.map_map]
  exact List.map_id ts

end Text

theorem Span.unbroken_render (s : Span) : s.render.Unbroken := by
  unfold render
  split
  · decide
  · simp only [Text.unbroken_concat, List.forall_mem_cons]
    exact ⟨Text.unbroken_ofInt _, by decide, Text.unbroken_ofInt _, by decide, Text.unbroken_ofInt _, by decide,
      Text.unbroken_ofInt _, nofun⟩

end ScopeExit
