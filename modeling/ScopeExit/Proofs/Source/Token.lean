import ScopeExit.Grammar.Token
import ScopeExit.Proofs.Source.Draft
import ScopeExit.Proofs.Source.Piece
/-!
The tokens of a literal.

The tokenizer cuts the text between the quotes into fragments, which are runs of raw characters, and escapes.  This is
almost a cut into pieces with the raw ones put together, but for one thing: a line break behind `\?` is drawn into the
escape.  `cuts` says which tokens pieces make up, each with the text that it stands for, and `tokens` takes them off the
front of a text with the scanners of the grammar.

The null character ends every token, wherever it stands, so a literal that holds one as it is has no tokens at all.

**Main result.** `tokens_spelling`: the scanners find the cuts of pieces that fit, if no null character is among them.
-/
namespace ScopeExit.Literal

open Grammar

/-! ### Cuts -/

/-- A token between the quotes with the text that it stands for. -/
inductive Cut where
  | fragment (run : List Char)
  | escape (chars : List Char) (meaning : Text)

namespace Cut

/-- The spelling of a token. -/
def chars : Cut → List Char
  | fragment run => run
  | escape chars _ => chars

/-- The text that a token stands for. -/
def meaning : Cut → Text
  | fragment run => .ofChars run
  | escape _ meaning => meaning

/-- The node of a token. -/
def draft : Cut → Draft
  | fragment run => .leaf "string_fragment" none (.ofList run)
  | escape chars _ => .leaf "escape_sequence" none (.ofList chars)

/-- An escape that stands for nothing. -/
def isVoid : Cut → Bool
  | fragment _ => false
  | escape _ meaning => meaning.isEmpty

/-- The reader of escapes agrees about a token. -/
def Reads : Cut → Prop
  | fragment _ => True
  | escape chars meaning => Source.decodeEscape (.ofChars chars) = .ok meaning

end Cut

/-- A raw character in front of tokens. -/
def attach (c : Char) : List Cut → List Cut
  | .fragment run :: rest => .fragment (c :: run) :: rest
  | others => .fragment [c] :: others

/-- The tokens that pieces make up. -/
def cuts : List Piece → List Cut
  | [] => []
  | .raw c :: ps => attach c (cuts ps)
  | .escape e :: .raw c :: ps =>
    if e.tail = ['?'] && isLineBreak c then .escape (e.chars ++ [c]) (e.meaning ++ .ofChars [c]) :: cuts ps
    else .escape e.chars e.meaning :: attach c (cuts ps)
  | [.escape e] => [.escape e.chars e.meaning]
  | .escape e :: .escape e' :: ps => .escape e.chars e.meaning :: cuts (.escape e' :: ps)

/-- The end of a line behind a backslash, which stands for nothing. -/
def Piece.isContinuation : Piece → Bool
  | escape .line => true
  | _ => false

section

variable (ps : List Piece) (c : Char) (cs : List Cut)

theorem cuts_escape (e : Escape) (apart : ∀ c ps', ps = .raw c :: ps' → (e.tail = ['?'] && isLineBreak c) = false) :
    cuts (.escape e :: ps) = .escape e.chars e.meaning :: cuts ps := by
  cases ps with
  | nil => rfl
  | cons p ps =>
    cases p with
    | raw c =>
      show (if _ then _ else _) = _
      rw [apart c ps rfl]
      rfl
    | escape e' => rfl

theorem chars_attach : (attach c cs).flatMap Cut.chars = c :: cs.flatMap Cut.chars := by
  unfold attach
  split <;> rfl

theorem chars_cuts : (cuts ps).flatMap Cut.chars = spelling ps := by
  induction ps using cuts.induct with
  | case1 => rfl
  | case2 c ps ih => rw [cuts, chars_attach, ih]; rfl
  | case3 e c ps drawn ih =>
    rw [cuts, if_pos drawn, List.flatMap_cons, ih]
    show e.chars ++ [c] ++ spelling ps = e.chars ++ ([c] ++ spelling ps)
    rw [List.append_assoc]
  | case4 e c ps apart ih =>
    rw [cuts, if_neg apart, List.flatMap_cons, chars_attach, ih]
    rfl
  | case5 e => rfl
  | case6 e e' ps ih =>
    rw [cuts, List.flatMap_cons, ih]
    rfl

theorem meaning_attach :
    Text.concat ((attach c cs).map Cut.meaning) = .ofChars [c] ++ Text.concat (cs.map Cut.meaning) := by
  unfold attach
  split <;> rfl

theorem meaning_cuts : Text.concat ((cuts ps).map Cut.meaning) = meaning ps := by
  have cons (p : Piece) (ps : List Piece) : meaning (p :: ps) = p.meaning ++ meaning ps := Text.concat_cons _ _
  induction ps using cuts.induct with
  | case1 => rfl
  | case2 c ps ih => rw [cuts, meaning_attach, ih, cons]; rfl
  | case3 e c ps drawn ih =>
    rw [cuts, if_pos drawn, List.map_cons, Text.concat_cons, ih, cons, cons]
    exact Text.append_assoc _ _ _
  | case4 e c ps apart ih =>
    rw [cuts, if_neg apart, List.map_cons, Text.concat_cons, meaning_attach, ih, cons, cons]
    rfl
  | case5 e => rfl
  | case6 e e' ps ih =>
    rw [cuts, List.map_cons, Text.concat_cons, ih, cons]
    rfl

theorem Escape.isEmpty_meaning (e : Escape) : e.meaning.isEmpty = (Piece.escape e).isContinuation := by
  cases e <;> rfl

/-- Only one escape is spelled with a zero. -/
theorem Escape.eq_zero {e : Escape} (spelled : e.tail = ['0']) : e = .zero := by
  cases e with
  | letter c m known =>
    unfold letters at known
    fin_cases known <;> contradiction
  | zero => rfl
  | hex a b => exact absurd (List.cons.inj spelled).1 (by decide)
  | unicode a b c d => exact absurd (List.cons.inj spelled).1 (by decide)
  | braces digits full bound => exact absurd (List.cons.inj spelled).1 (by decide)
  | line => contradiction
  | other c plain =>
    obtain rfl : c = '0' := (List.cons.inj spelled).1
    contradiction

/-- Only one escape is spelled with a question mark. -/
theorem Escape.meaning_of_question {e : Escape} (question : e.tail = ['?']) : e.meaning = .ofChars ['?'] := by
  cases e with
  | letter c m known =>
    unfold letters at known
    fin_cases known <;> contradiction
  | zero => contradiction
  | hex a b => exact absurd (List.cons.inj question).1 (by decide)
  | unicode a b c d => exact absurd (List.cons.inj question).1 (by decide)
  | braces digits full bound => exact absurd (List.cons.inj question).1 (by decide)
  | line => contradiction
  | other c plain =>
    rw [← question]
    rfl

theorem drawn_iff {e : Escape} {c : Char} :
    (e.tail = ['?'] && isLineBreak c) = true ↔ e.tail = ['?'] ∧ isLineBreak c = true := by
  rw [Bool.and_eq_true, decide_eq_true_eq]

theorem countP_attach : (attach c cs).countP Cut.isVoid = cs.countP Cut.isVoid := by
  unfold attach
  split
  · rw [List.countP_cons_of_neg Bool.false_ne_true, List.countP_cons_of_neg Bool.false_ne_true]
  · exact List.countP_cons_of_neg Bool.false_ne_true

/-- A token that stands for nothing is the end of a line behind a backslash. -/
theorem countP_cuts : (cuts ps).countP Cut.isVoid = ps.countP Piece.isContinuation := by
  have raw (c : Char) (ps : List Piece) :
      (Piece.raw c :: ps).countP Piece.isContinuation = ps.countP Piece.isContinuation :=
    List.countP_cons_of_neg Bool.false_ne_true
  have escape (e : Escape) (cs : List Cut) (ps : List Piece)
      (ih : cs.countP Cut.isVoid = ps.countP Piece.isContinuation) :
      (Cut.escape e.chars e.meaning :: cs).countP Cut.isVoid = (Piece.escape e :: ps).countP Piece.isContinuation := by
    rw [List.countP_cons, List.countP_cons, ih, ← e.isEmpty_meaning]
    rfl
  induction ps using cuts.induct with
  | case1 => rfl
  | case2 c ps ih => rw [cuts, countP_attach, ih, raw]
  | case3 e c ps drawn ih =>
    have question := e.meaning_of_question (drawn_iff.mp drawn).1
    have full : (Piece.escape e).isContinuation = false := by rw [← e.isEmpty_meaning, question]; rfl
    rw [cuts, if_pos drawn, question, List.countP_cons_of_neg Bool.false_ne_true, ih,
      List.countP_cons_of_neg (by rw [full]; exact Bool.false_ne_true), raw]
  | case4 e c ps apart ih =>
    rw [cuts, if_neg apart]
    exact escape e _ _ (by rw [countP_attach, ih, raw])
  | case5 e => exact escape e [] [] rfl
  | case6 e e' ps ih => exact escape e _ _ ih

theorem reads_attach (h : ∀ c ∈ cs, c.Reads) : ∀ d ∈ attach c cs, d.Reads := by
  unfold attach
  split
  · exact List.forall_mem_cons.mpr ⟨trivial, fun d hd => h d (List.mem_cons_of_mem _ hd)⟩
  · exact List.forall_mem_cons.mpr ⟨trivial, h⟩

/-- The reader of escapes agrees about all tokens. -/
theorem reads_cuts : ∀ c ∈ cuts ps, c.Reads := by
  induction ps using cuts.induct with
  | case1 => exact nofun
  | case2 c ps ih => exact reads_attach _ _ ih
  | case3 e c ps drawn ih =>
    rw [cuts, if_pos drawn]
    refine List.forall_mem_cons.mpr ⟨?_, ih⟩
    have question := (drawn_iff.mp drawn).1
    rw [Escape.meaning_of_question question, Escape.chars, question]
    exact decodeEscape_drawn c
  | case4 e c ps apart ih =>
    rw [cuts, if_neg apart]
    exact List.forall_mem_cons.mpr ⟨decodeEscape_chars e, reads_attach _ _ ih⟩
  | case5 e => exact List.forall_mem_singleton.mpr (decodeEscape_chars e)
  | case6 e e' ps ih => exact List.forall_mem_cons.mpr ⟨decodeEscape_chars e, ih⟩

end

/-! ### Scanning -/

namespace Quote

/-- The raw text at the start of what is left of a literal. -/
def fragment? (q : Quote) (chars : List Char) : Option Scanned :=
  match q with
  | template =>
    (Lexicon.templateText? false 0 chars).map fun behind => chars.splitAt (chars.length - behind.rest.length)
  | quote => scanFragment quote.char chars

/-- The tokens at the start of what is left of a literal, at most the given number of them. -/
def tokens (q : Quote) : Nat → List Char → List Draft
  | 0, _ => []
  | most + 1, chars =>
    match q.fragment? chars with
    | some (taken, rest) => .leaf "string_fragment" none (.ofList taken) :: q.tokens most rest
    | none =>
      match scanEscape chars with
      | some (taken, rest) => .leaf "escape_sequence" none (.ofList taken) :: q.tokens most rest
      | none => []

/-- The tokens at the start of what is left of a literal. -/
def tokensOf (q : Quote) (chars : List Char) : List Draft := q.tokens chars.length chars

/-- The text behind the tokens: the end of the literal, or a substitution. -/
def Ends (q : Quote) (rest : List Char) : Prop :=
  (∃ more, rest = q.char :: more) ∨ (q = template ∧ ∃ more, rest = '$' :: '\x7b' :: more)

/-- The text behind a run of raw characters: an escape, or the end of the tokens. -/
def Stops (q : Quote) (rest : List Char) : Prop := (∃ more, rest = '\\' :: more) ∨ q.Ends rest

section

variable {q : Quote} {run rest : List Char}

/-- Raw characters that are no null characters, and no two that open a substitution. -/
structure Runs (q : Quote) (run : List Char) : Prop where
  each : ∀ c ∈ run, q.admits c = true ∧ c ≠ '\x00'
  apart : q = template → run.IsChain fun c d => ¬(c = '$' ∧ d = '\x7b')

theorem Runs.tail {c : Char} (h : q.Runs (c :: run)) : q.Runs run where
  each d hd := h.each d (List.mem_cons_of_mem c hd)
  apart isTemplate := (h.apart isTemplate).tail

theorem isNull_eq_false {c : Char} (real : c ≠ '\x00') : isNull c = false := decide_eq_false real

/-- A raw character is passed over. -/
theorem templateText?_cons {c : Char} (found : Bool) (offset : Nat) (chars : List Char)
    (admitted : template.admits c = true) (real : c ≠ '\x00') (apart : ∀ more, ¬(c = '$' ∧ chars = '\x7b' :: more)) :
    Lexicon.templateText? found offset (c :: chars) = Lexicon.templateText? true (offset + c.utf8Size) chars := by
  have inside : c ≠ '\x60' ∧ c ≠ '\\' := by
    simp only [admits, Bool.and_eq_true, decide_eq_true_eq] at admitted
    exact admitted.1
  rw [Lexicon.templateText?.eq_def]
  split
  · rename_i more same
    obtain ⟨first, others⟩ := List.cons.inj same
    exact absurd ⟨first, others⟩ (apart more)
  · rename_i d more _ same
    obtain ⟨rfl, rfl⟩ := List.cons.inj same
    simp [isNull_eq_false real, inside.1, inside.2]
  · contradiction

theorem templateText?_run (found : Bool) (offset : Nat) (runs : template.Runs run) (stops : template.Stops rest)
    (some : found = true ∨ run ≠ []) :
    ∃ behind, Lexicon.templateText? found offset (run ++ rest) = .some behind ∧ behind.rest = rest := by
  induction run generalizing found offset with
  | nil =>
    obtain rfl : found = true := some.resolve_right (by simp)
    rcases stops with ⟨more, rfl⟩ | ⟨more, rfl⟩ | ⟨-, more, rfl⟩
    · exact ⟨_, rfl, rfl⟩
    · exact ⟨_, rfl, rfl⟩
    · exact ⟨_, rfl, rfl⟩
  | cons c run ih =>
    obtain ⟨behind, read, same⟩ := ih true (offset + c.utf8Size) runs.tail (.inl rfl)
    refine ⟨behind, ?_, same⟩
    obtain ⟨admitted, real⟩ := runs.each c List.mem_cons_self
    rw [List.cons_append, templateText?_cons found offset _ admitted real, read]
    rintro more ⟨dollar, brace⟩
    cases run with
    | nil =>
      rcases stops with ⟨_, rfl⟩ | ⟨_, rfl⟩ | ⟨-, _, rfl⟩ <;> exact absurd (List.cons.inj brace).1 (by decide)
    | cons d run => exact ((List.isChain_cons_cons.mp (runs.apart rfl)).1 ⟨dollar, (List.cons.inj brace).1⟩)

section

/-- A character of a fragment of a string. -/
def isRaw (q : Quote) (c : Char) : Bool := !(c = q.char || c = '\\' || c = '\r' || c = '\n' || isNull c)

variable (isString : q ≠ template)
include isString

theorem fragment?_eq (chars : List Char) :
    q.fragment? chars = nonempty (chars.takeWhile q.isRaw, chars.dropWhile q.isRaw) := by
  rw [← List.span_eq_takeWhile_dropWhile]
  cases q <;> first | rfl | contradiction

theorem isRaw_of_admits {c : Char} (admitted : q.admits c = true) (real : c ≠ '\x00') : q.isRaw c = true := by
  simp only [admits, Bool.and_eq_true, Bool.or_eq_true, decide_eq_true_eq, isString, false_or] at admitted
  simp [isRaw, isNull_eq_false real, admitted.1.1, admitted.1.2, admitted.2.1, admitted.2.2]

theorem takeWhile_stops (stops : q.Stops rest) : rest.takeWhile q.isRaw = [] ∧ rest.dropWhile q.isRaw = rest := by
  have head (c : Char) (more : List Char) (stop : q.isRaw c = false) :
      (c :: more).takeWhile q.isRaw = [] ∧ (c :: more).dropWhile q.isRaw = c :: more := by
    have other : ¬q.isRaw c = true := by rw [stop]; exact Bool.false_ne_true
    exact ⟨List.takeWhile_cons_of_neg other, List.dropWhile_cons_of_neg other⟩
  rcases stops with ⟨more, rfl⟩ | ⟨more, rfl⟩ | ⟨isTemplate, -⟩
  · exact head _ more (by simp [isRaw])
  · exact head _ more (by simp [isRaw])
  · contradiction

end

/-- A run of raw characters is one fragment. -/
theorem fragment?_run (runs : q.Runs run) (full : run ≠ []) (stops : q.Stops rest) :
    q.fragment? (run ++ rest) = some (run, rest) := by
  by_cases isTemplate : q = template
  · subst isTemplate
    obtain ⟨behind, read, same⟩ := templateText?_run false 0 runs stops (.inr full)
    have length : (run ++ rest).length - rest.length = run.length := by
      rw [List.length_append, Nat.add_sub_cancel]
    rw [fragment?, read, Option.map_some, same, length, List.splitAt_eq, List.take_left, List.drop_left]
  · have all : ∀ c ∈ run, q.isRaw c = true := fun c hc =>
      isRaw_of_admits isTemplate (runs.each c hc).1 (runs.each c hc).2
    obtain ⟨taken, left⟩ := takeWhile_stops isTemplate stops
    rw [fragment?_eq isTemplate, List.takeWhile_append_of_pos all, List.dropWhile_append_of_pos all, taken, left,
      List.append_nil]
    cases run with
    | nil => contradiction
    | cons c run => rfl

/-- No fragment starts where raw characters stop. -/
theorem fragment?_stops (stops : q.Stops rest) : q.fragment? rest = none := by
  by_cases isTemplate : q = template
  · subst isTemplate
    rcases stops with ⟨more, rfl⟩ | ⟨more, rfl⟩ | ⟨-, more, rfl⟩ <;> rfl
  · rw [fragment?_eq isTemplate, (takeWhile_stops isTemplate stops).1]
    rfl

end

end Quote

/-! ### The lengths of escapes -/

section

variable {c : Char} {rest : List Char}

theorem isOctalDigit_eq_false (other : isDigit c = false) : isOctalDigit c = false := by
  rw [Bool.eq_false_iff] at other ⊢
  intro octal
  refine other (Char.isDigit_iff_toNat.mpr ?_)
  have upper : '7'.toNat ≤ '9'.toNat := by decide
  simp only [isOctalDigit, Bool.and_eq_true, decide_eq_true_eq, Char.le_def, UInt32.le_iff_toNat_le] at octal
  exact ⟨octal.1, octal.2.trans upper⟩

/-- An escape of one character, or of digits or line breaks that it draws in. -/
theorem escapeLength?_cons (letter : c ≠ 'x' ∧ c ≠ 'u') (real : c ≠ '\x00') :
    escapeLength? ('\\' :: c :: rest) =
      if isOctalDigit c then some (1 + octalLength (c :: rest))
      else if drawsIn c && startsWith isLineBreak rest then some 3
      else some 2 := by
  rw [escapeLength?.eq_def]
  split
  · rename_i same
    exact absurd (List.cons.inj (List.cons.inj same).2).1 letter.1
  · rename_i same
    exact absurd (List.cons.inj (List.cons.inj same).2).1 letter.2
  · rename_i same
    exact absurd (List.cons.inj (List.cons.inj same).2).1 letter.2
  · rename_i same
    obtain ⟨rfl, rfl⟩ := List.cons.inj (List.cons.inj same).2
    rw [if_neg]
    simp [isNull, letter, real]
  · rename_i none
    exact absurd rfl (none c rest)

/-- The escape of the null character, if no digit follows. -/
theorem escapeLength?_zero (alone : startsWith isDigit rest = false) : escapeLength? ('\\' :: '0' :: rest) = some 2 := by
  have one : octalLength ('0' :: rest) = 1 := by
    cases rest with
    | nil => rfl
    | cons d rest =>
      have other : ¬isOctalDigit d = true := by rw [isOctalDigit_eq_false alone]; exact Bool.false_ne_true
      rw [octalLength, List.take_succ_cons, List.takeWhile_cons_of_pos rfl, List.take_succ_cons,
        List.takeWhile_cons_of_neg other]
      rfl
  rw [escapeLength?_cons ⟨by decide, by decide⟩ (by decide), if_pos (by decide), one]

end

/-- An escape is taken off the front, unless it would draw in what follows. -/
theorem scanEscape_chars {e : Escape} {rest : List Char} (real : '\x00' ∉ e.chars)
    (zero : e.tail = ['0'] → startsWith isDigit rest = false)
    (question : e.tail = ['?'] → startsWith isLineBreak rest = false) :
    scanEscape (e.chars ++ rest) = some (e.chars, rest) := by
  have length : escapeLength? (e.chars ++ rest) = some e.chars.length := by
    cases e with
    | letter c m known =>
      unfold letters at known
      simp only [List.mem_cons, Prod.mk.injEq, List.not_mem_nil, or_false] at known
      rcases known with ⟨rfl, rfl⟩ | ⟨rfl, rfl⟩ | ⟨rfl, rfl⟩ | ⟨rfl, rfl⟩ | ⟨rfl, rfl⟩ | ⟨rfl, rfl⟩ <;> rfl
    | zero => exact escapeLength?_zero (zero rfl)
    | hex a b =>
      show (if [a.char, b.char].all isHexDigit then some 4 else none) = some 4
      rw [if_pos (by simp [HexDigit.isHexDigit_char])]
    | unicode a b c d =>
      have noBrace : a.char ≠ '\x7b' := HexDigit.forall_char (P := fun c _ => c ≠ '\x7b') (by decide) a
      show escapeLength? ('\\' :: 'u' :: a.char :: b.char :: c.char :: d.char :: rest) = some 6
      rw [escapeLength?, if_pos (by simp [HexDigit.isHexDigit_char])]
      exact noBrace
    | braces digits full bound =>
      have all : ∀ c ∈ digits.map HexDigit.char, isHexDigit c = true :=
        List.forall_mem_map.mpr fun d _ => d.isHexDigit_char
      have taken : (digits.map HexDigit.char ++ '\x7d' :: rest).takeWhile isHexDigit = digits.map HexDigit.char := by
        rw [List.takeWhile_append_of_pos all, List.takeWhile_cons_of_neg (by decide), List.append_nil]
      have spelled : (Escape.braces digits full bound).chars ++ rest =
          '\\' :: 'u' :: '\x7b' :: (digits.map HexDigit.char ++ '\x7d' :: rest) := by
        simp [Escape.chars, Escape.tail]
      rw [spelled, escapeLength?, taken, List.drop_left, if_pos (by simp [startsWith, full])]
      simp [Escape.chars, Escape.tail]
    | line => rfl
    | other c plain =>
      have letter : c ≠ 'x' ∧ c ≠ 'u' := by
        constructor <;> rintro rfl <;> exact absurd plain (by decide)
      have digit : isDigit c = false := by
        simp only [isPlain, Bool.not_eq_true', Bool.or_eq_false_iff] at plain
        exact plain.1
      have drawn : (drawsIn c && startsWith isLineBreak rest) = false := by
        by_cases mark : c = '?'
        · rw [question (by simp [Escape.tail, mark]), Bool.and_false]
        · have other : c ≠ '\r' := by
            rintro rfl
            exact absurd plain (by decide)
          simp [drawsIn, mark, other]
      show escapeLength? ('\\' :: c :: rest) = some 2
      rw [escapeLength?_cons letter, if_neg (by rw [isOctalDigit_eq_false digit]; exact Bool.false_ne_true),
        if_neg (by rw [drawn]; exact Bool.false_ne_true)]
      exact fun null => real (by simp [Escape.chars, Escape.tail, null])
  rw [scanEscape, length, Option.map_some, List.splitAt_eq, List.take_left, List.drop_left]

/-- A line break behind an escaped question mark is drawn into the escape. -/
theorem scanEscape_drawn {c : Char} {rest : List Char} (lineBreak : isLineBreak c = true) :
    scanEscape ('\\' :: '?' :: c :: rest) = some (['\\', '?', c], rest) := by
  have length : escapeLength? ('\\' :: '?' :: c :: rest) = some 3 := by
    rw [escapeLength?_cons ⟨by decide, by decide⟩ (by decide), if_neg (by decide), if_pos]
    exact lineBreak
  rw [scanEscape, length, Option.map_some, List.splitAt_eq]
  rfl

/-! ### The tokens of pieces -/

/-- Pieces begin with a run of raw characters, which may be empty, and go on with an escape if they go on. -/
theorem exists_run (ps : List Piece) : ∃ (run : List Char) (tail : List Piece), ps = run.map Piece.raw ++ tail ∧
    ∀ c ps', tail ≠ .raw c :: ps' := by
  induction ps with
  | nil => exact ⟨[], [], rfl, nofun⟩
  | cons p ps ih =>
    cases p with
    | raw c =>
      obtain ⟨run, tail, rfl, other⟩ := ih
      exact ⟨c :: run, tail, rfl, other⟩
    | escape e => exact ⟨[], .escape e :: ps, rfl, nofun⟩

theorem spelling_append (ps ps' : List Piece) : spelling (ps ++ ps') = spelling ps ++ spelling ps' := List.flatMap_append

theorem spelling_raw (run : List Char) : spelling (run.map Piece.raw) = run := by
  rw [spelling, List.flatMap_map]
  exact List.flatMap_singleton' run

theorem exists_cuts_escape (e : Escape) (ps : List Piece) :
    ∃ chars meaning rest, cuts (.escape e :: ps) = .escape chars meaning :: rest := by
  match ps with
  | [] => exact ⟨_, _, _, rfl⟩
  | .escape e' :: ps => exact ⟨_, _, _, rfl⟩
  | .raw c :: ps =>
    unfold cuts
    split <;> exact ⟨_, _, _, rfl⟩

/-- A run of raw characters is one token. -/
theorem cuts_run {run : List Char} {tail : List Piece} (full : run ≠ []) (other : ∀ c ps', tail ≠ .raw c :: ps') :
    cuts (run.map Piece.raw ++ tail) = .fragment run :: cuts tail := by
  induction run with
  | nil => contradiction
  | cons c run ih =>
    show attach c (cuts (run.map Piece.raw ++ tail)) = _
    cases run with
    | cons d run => rw [ih (List.cons_ne_nil _ _)]; rfl
    | nil =>
      rw [List.map_nil, List.nil_append]
      match tail with
      | [] => rfl
      | .raw d :: tail => exact absurd rfl (other d tail)
      | .escape e :: tail =>
        obtain ⟨chars, meaning, rest, same⟩ := exists_cuts_escape e tail
        rw [same]
        rfl

/-- No escape starts with another character than a backslash. -/
theorem scanEscape_other {c : Char} {rest : List Char} (other : c ≠ '\\') : scanEscape (c :: rest) = none := by
  have none : escapeLength? (c :: rest) = none := by
    rw [escapeLength?.eq_def]
    split <;> first | rfl | (rename_i same; exact absurd (List.cons.inj same).1 other)
  rw [scanEscape, none]
  rfl

namespace Quote

variable {q : Quote} {ps : List Piece}

/-- Pieces between quotes of a kind that hold no null character. -/
structure Clear (q : Quote) (ps : List Piece) : Prop where
  fits : q.Fits ps
  real : ∀ p ∈ ps, '\x00' ∉ p.chars

instance (q : Quote) (ps : List Piece) : Decidable (q.Clear ps) :=
  decidable_of_iff (q.Fits ps ∧ ∀ p ∈ ps, '\x00' ∉ p.chars) ⟨fun h => ⟨h.1, h.2⟩, fun h => ⟨h.fits, h.real⟩⟩

theorem Clear.right (ps' : List Piece) (h : q.Clear (ps' ++ ps)) : q.Clear ps where
  fits := ⟨fun p hp => h.fits.each p (List.mem_append_right _ hp), h.fits.neighbours.right_of_append⟩
  real p hp := h.real p (List.mem_append_right _ hp)

theorem Clear.tail {p : Piece} (h : q.Clear (p :: ps)) : q.Clear ps := h.right [p]

theorem Clear.runs {run : List Char} (h : q.Clear (run.map Piece.raw ++ ps)) : q.Runs run where
  each c hc := by
    have mem : Piece.raw c ∈ run.map Piece.raw ++ ps := List.mem_append_left _ (List.mem_map_of_mem hc)
    exact ⟨h.fits.each _ mem, fun null => h.real _ mem (by rw [null]; exact List.mem_singleton_self _)⟩
  apart isTemplate := by
    have chain := (List.isChain_map _).mp h.fits.neighbours.left_of_append
    refine chain.imp fun c d apart => ?_
    rintro ⟨rfl, rfl⟩
    subst isTemplate
    contradiction

/-- No escape draws in what follows the tokens, and no escape or fragment starts there. -/
theorem Ends.head {behind : List Char} (ends : q.Ends behind) :
    ∃ c more, behind = c :: more ∧ isDigit c = false ∧ isLineBreak c = false ∧ c ≠ '\\' := by
  rcases ends with ⟨more, rfl⟩ | ⟨-, more, rfl⟩
  · cases q <;> exact ⟨_, _, rfl, by decide, by decide, by decide⟩
  · exact ⟨_, _, rfl, by decide, by decide, by decide⟩

section

variable {behind : List Char} {most : Nat}

theorem tokens_fragment {chars taken rest : List Char} (found : q.fragment? chars = some (taken, rest)) :
    q.tokens (most + 1) chars = (Cut.fragment taken).draft :: q.tokens most rest := by
  rw [tokens, found]
  rfl

theorem tokens_escape {chars taken rest : List Char} {meaning : Text} (stops : q.Stops chars)
    (found : scanEscape chars = some (taken, rest)) :
    q.tokens (most + 1) chars = (Cut.escape taken meaning).draft :: q.tokens most rest := by
  rw [tokens, fragment?_stops stops, found]
  rfl

theorem tokens_ends (ends : q.Ends behind) : q.tokens most behind = [] := by
  obtain ⟨c, more, rfl, -, -, other⟩ := ends.head
  cases most with
  | zero => rfl
  | succ most => rw [tokens, fragment?_stops (.inr ends), scanEscape_other other]

/-- What stands behind an escape is drawn into it only if that is a raw character. -/
theorem Clear.startsWith {e : Escape} (clear : q.Clear (.escape e :: ps)) (ends : q.Ends behind) (p : Char → Bool)
    (mark : p '\\' = false) (last : ∀ c more, behind = c :: more → p c = false)
    (next : ∀ c ps', ps = .raw c :: ps' → q.separates (.escape e) (.raw c) = true → p c = false) :
    Grammar.startsWith p (spelling ps ++ behind) = false := by
  match ps with
  | [] =>
    obtain ⟨c, more, rfl, -⟩ := ends.head
    exact last c more rfl
  | .escape e' :: ps => exact mark
  | .raw c :: ps => exact next c ps rfl (List.isChain_cons_cons.mp clear.fits.neighbours).1

/-- **The scanners find the tokens that pieces make up.** -/
theorem tokens_spelling (clear : q.Clear ps) (ends : q.Ends behind) (enough : ps.length ≤ most) :
    q.tokens most (spelling ps ++ behind) = (cuts ps).map Cut.draft := by
  -- one token uses up at least one piece
  induction most generalizing ps with
  | zero =>
    obtain rfl : ps = [] := List.length_eq_zero_iff.mp (Nat.le_zero.mp enough)
    rfl
  | succ most ih =>
    obtain ⟨run, tail, rfl, other⟩ := exists_run ps
    cases run with
    | cons c run =>
      have spelled : spelling ((c :: run).map Piece.raw ++ tail) ++ behind = (c :: run) ++ (spelling tail ++ behind) := by
        rw [spelling_append, spelling_raw, List.append_assoc]
      have stops : q.Stops (spelling tail ++ behind) := by
        match tail with
        | [] => exact .inr ends
        | .raw d :: tail => exact absurd rfl (other d tail)
        | .escape e :: tail => exact .inl ⟨_, rfl⟩
      have fewer : tail.length ≤ most := by
        simp only [List.length_append, List.length_map, List.length_cons] at enough
        omega
      rw [spelled, tokens_fragment (fragment?_run clear.runs (List.cons_ne_nil _ _) stops), ih (clear.right _) fewer,
        cuts_run (List.cons_ne_nil _ _) other]
      rfl
    | nil =>
      rw [List.map_nil, List.nil_append] at *
      match tail with
      | [] => exact tokens_ends ends
      | .raw c :: tail => exact absurd rfl (other c tail)
      | .escape e :: tail =>
        have fewer : tail.length ≤ most := Nat.le_of_succ_le_succ enough
        by_cases drawn : e.tail = ['?'] ∧ ∃ c ps', tail = .raw c :: ps' ∧ isLineBreak c = true
        · obtain ⟨question, c, ps', rfl, lineBreak⟩ := drawn
          have spelled : spelling (.escape e :: .raw c :: ps') ++ behind =
              '\\' :: '?' :: c :: (spelling ps' ++ behind) := by
            show e.chars ++ ([c] ++ spelling ps') ++ behind = _
            rw [Escape.chars, question]
            simp
          have cut : cuts (.escape e :: .raw c :: ps') =
              .escape ['\\', '?', c] (e.meaning ++ .ofChars [c]) :: cuts ps' := by
            rw [cuts, if_pos (drawn_iff.mpr ⟨question, lineBreak⟩), Escape.chars, question]
            rfl
          rw [cut, spelled, tokens_escape (.inl ⟨_, rfl⟩) (scanEscape_drawn lineBreak),
            ih clear.tail.tail (Nat.le_of_succ_le fewer)]
          rfl
        · have apart : ∀ c ps', tail = .raw c :: ps' → (e.tail = ['?'] && isLineBreak c) = false := by
            intro c ps' same
            rw [Bool.eq_false_iff]
            intro both
            exact drawn ⟨(drawn_iff.mp both).1, c, ps', same, (drawn_iff.mp both).2⟩
          have scanned : scanEscape (e.chars ++ (spelling tail ++ behind)) =
              some (e.chars, spelling tail ++ behind) := by
            refine scanEscape_chars (clear.real _ List.mem_cons_self) (fun zero => ?_) fun question => ?_
            · obtain rfl := Escape.eq_zero zero
              refine clear.startsWith ends _ (by decide) (fun c more same => ?_) fun c ps' _ digit => ?_
              · obtain ⟨d, more', same', digit, -⟩ := ends.head
                rw [(List.cons.inj (same.symm.trans same')).1, digit]
              · exact Bool.not_eq_true' _ ▸ digit
            · refine clear.startsWith ends _ (by decide) (fun c more same => ?_) fun c ps' same _ => ?_
              · obtain ⟨d, more', same', -, lineBreak, -⟩ := ends.head
                rw [(List.cons.inj (same.symm.trans same')).1, lineBreak]
              · simpa [question] using apart c ps' same
          have stops : q.Stops (e.chars ++ (spelling tail ++ behind)) := .inl ⟨_, rfl⟩
          have spelled : spelling (.escape e :: tail) ++ behind = e.chars ++ (spelling tail ++ behind) :=
            List.append_assoc _ _ _
          rw [cuts_escape _ _ apart, spelled, tokens_escape stops scanned, ih clear.tail fewer]
          rfl

theorem length_le_spelling (ps : List Piece) : ps.length ≤ (spelling ps).length := by
  induction ps with
  | nil => exact Nat.zero_le _
  | cons p ps ih =>
    have one : 1 ≤ p.chars.length := by
      cases p with
      | raw c => exact Nat.le_refl 1
      | escape e => exact Nat.succ_pos _
    rw [spelling, List.flatMap_cons, List.length_append, List.length_cons]
    exact Nat.add_comm _ _ ▸ Nat.add_le_add one ih

theorem tokensOf_spelling (clear : q.Clear ps) (ends : q.Ends behind) :
    q.tokensOf (spelling ps ++ behind) = (cuts ps).map Cut.draft :=
  tokens_spelling clear ends ((length_le_spelling ps).trans (by simp))

end

end Quote

end ScopeExit.Literal
