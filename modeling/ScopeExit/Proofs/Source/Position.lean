import ScopeExit.Source.Concrete
/-!
Lines and columns of a text.

A text is broken into lines at its line feeds and nowhere else.  `At` says which byte a line and a column stand for:
the bytes of the lines before it, with their line feeds, and then the column.  It does not mention how positions are
computed, and it determines the byte.

`Source.position` walks over the starts of the lines.  Its answer is a line and a column at which the byte is, and so
positions are in the order of the bytes.

**Main result.** `position_at`: the position of a byte of the text, or of its end, is where that byte is.
-/
namespace ScopeExit.Source

/-! ### Lines -/

/-- The lines of a text, without the line feeds between them. -/
def lines (source : Source) : List (List UInt8) := source.bytes.toList.splitOn 10

/-- The number of bytes in front of a line. -/
def before : List (List UInt8) → Nat → Nat
  | line :: lines, k + 1 => line.length + 1 + before lines k
  | _, _ => 0

@[simp] theorem before_zero (lines : List (List UInt8)) : before lines 0 = 0 := by cases lines <;> rfl

@[simp] theorem before_cons (line : List UInt8) (lines : List (List UInt8)) (k : Nat) :
    before (line :: lines) (k + 1) = line.length + 1 + before lines k := rfl

/-- A line is over before every later line starts. -/
theorem before_lt {lines : List (List UInt8)} {line : List UInt8} {k k' : Nat} (found : lines[k]? = some line)
    (later : k < k') : before lines k + line.length < before lines k' := by
  induction lines generalizing k k' with
  | nil => simp at found
  | cons first rest ih =>
    obtain ⟨k', rfl⟩ : ∃ i, k' = i + 1 := ⟨k' - 1, by omega⟩
    cases k with
    | zero =>
      obtain rfl : first = line := by simpa using found
      rw [before_zero, before_cons]
      omega
    | succ k =>
      have := ih (by simpa using found) (Nat.lt_of_succ_lt_succ later)
      rw [before_cons, before_cons]
      omega

/-- The place `p` is in line `k` at column `c`, both counted from zero. -/
def At (lines : List (List UInt8)) (k c p : Nat) : Prop :=
  ∃ line, lines[k]? = some line ∧ c ≤ line.length ∧ before lines k + c = p

/-- Places are in the order of their lines, and in a line in the order of their columns. -/
theorem At.le_iff {lines : List (List UInt8)} {k c p k' c' p' : Nat} (h : At lines k c p) (h' : At lines k' c' p') :
    p ≤ p' ↔ k < k' ∨ k = k' ∧ c ≤ c' := by
  obtain ⟨line, found, fits, rfl⟩ := h
  obtain ⟨line', found', fits', rfl⟩ := h'
  rcases Nat.lt_trichotomy k k' with earlier | rfl | later
  · have := before_lt found earlier
    omega
  · omega
  · have := before_lt found' later
    omega

/-! ### Positions -/

theorem modifyHead_nil_append (ls : List (List UInt8)) : ls.modifyHead ([] ++ ·) = ls := by
  cases ls <;> rfl

theorem modifyHead_append_append (l r : List UInt8) (ls : List (List UInt8)) :
    (ls.modifyHead (r ++ ·)).modifyHead (l ++ ·) = ls.modifyHead ((l ++ r) ++ ·) := by
  cases ls <;> simp

/-- The walk from the current line on, of which `read` has been read already. -/
theorem go_at (rest read : List UInt8) (line start place : Nat) (low : start ≤ place)
    (high : place ≤ start + read.length + rest.length) :
    ∃ k c, position.go place (startsAfter rest (start + read.length)) line start = (line + k, c) ∧
      At ((rest.splitOn 10).modifyHead (read ++ ·)) k c (place - start) := by
  induction rest generalizing read line start with
  | nil => exact ⟨0, place - start, rfl, read, by simp, by simp at high; omega, by simp⟩
  | cons b rest ih =>
    rw [List.length_cons] at high
    rw [startsAfter, List.splitOn_cons_eq_if_modifyHead]
    by_cases feed : b = 10
    · rw [if_pos feed, if_pos (beq_iff_eq.mpr feed), position.go]
      by_cases past : start + read.length + 1 ≤ place
      · -- the line is over, and the walk goes on behind the line feed
        obtain ⟨k, c, went, line', found, fits, rest'⟩ :=
          ih [] (line + 1) (start + read.length + 1) past (by simpa [Nat.add_assoc, Nat.add_comm 1] using high)
        rw [modifyHead_nil_append] at found rest'
        refine ⟨k + 1, c, ?_, line', by simpa using found, fits, ?_⟩
        · rw [if_pos past, Nat.add_comm k, ← Nat.add_assoc]
          exact went
        · rw [List.modifyHead_cons, before_cons, List.append_nil]
          omega
      · exact ⟨0, place - start, if_neg past, read, by simp, by omega, by simp⟩
    · rw [if_neg feed, if_neg (by simpa using feed)]
      obtain ⟨k, c, went, found⟩ := ih (read ++ [b]) line start low (by simp; omega)
      refine ⟨k, c, by simpa [Nat.add_assoc] using went, ?_⟩
      rw [← modifyHead_append_append] at found
      exact found

theorem length_toList (bytes : ByteArray) : bytes.toList.length = bytes.size := by
  have loop (i : Nat) (r : List UInt8) :
      (ByteArray.toList.loop bytes i r).length = r.length + (bytes.size - i) := by
    fun_induction ByteArray.toList.loop bytes i r with
    | case1 i r more ih => rw [ih, List.length_cons]; omega
    | case2 i r done => rw [List.length_reverse]; omega
  rw [ByteArray.toList, loop]
  simp

/-- The position of a byte is the line and the column at which it is. -/
theorem position_at (text : String) {place : Nat} (inside : place ≤ (ofString text).size) :
    ∃ k c, (ofString text).position place = (k + 1, c) ∧ At (ofString text).lines k c place := by
  obtain ⟨k, c, went, found⟩ := go_at (ofString text).bytes.toList [] 1 0 place (Nat.zero_le _)
    (by simpa [length_toList, size] using inside)
  refine ⟨k, c, ?_, ?_⟩
  · rw [Nat.add_comm, ← went, position, ofString, position.go, if_pos (Nat.zero_le place)]
    rfl
  · rw [modifyHead_nil_append] at found
    exact found

/-- The text of a stretch has the bytes of the stretch. -/
theorem toUTF8_of_text? {source : Source} {p q : Nat} {t : Text} (found : source.text? p q = some t) :
    ∃ s : String, t = Text.ofString s ∧ s.toUTF8 = source.bytes.extract p q := by
  obtain ⟨s, decoded, rfl⟩ := Option.map_eq_some_iff.mp found
  refine ⟨s, rfl, ?_⟩
  unfold String.fromUTF8? at decoded
  split at decoded
  · cases decoded
    rfl
  · contradiction

/-! ### Spans -/

/-- There is such a line, and it reaches to the column. -/
def Has (source : Source) (line col : Int) : Prop :=
  ∃ (k c : Nat) (bytes : List UInt8), line = k + 1 ∧ col = c ∧ source.lines[k]? = some bytes ∧ c ≤ bytes.length

/-- The place of a line and a column. -/
def placeOf (source : Source) (line col : Int) : Nat := before source.lines (line.toNat - 1) + col.toNat

/-- The first place is the second one or comes before it. -/
def Upto (line col line' col' : Int) : Prop := line < line' ∨ line = line' ∧ col ≤ col'

/-- A span is a stretch of the text. -/
structure Covers (source : Source) (s : Span) : Prop where
  first : source.Has s.startLine s.startCol
  last : source.Has s.endLine s.endCol
  order : Upto s.startLine s.startCol s.endLine s.endCol

/-- A span is part of another one. -/
structure Encloses (outer inner : Span) : Prop where
  first : Upto outer.startLine outer.startCol inner.startLine inner.startCol
  last : Upto inner.endLine inner.endCol outer.endLine outer.endCol

section

variable (text : String) {p q : Nat}

theorem position_has (inside : p ≤ (ofString text).size) :
    (ofString text).Has ((ofString text).position p).1 ((ofString text).position p).2 := by
  obtain ⟨k, c, position, line, found, fits, -⟩ := position_at text inside
  rw [position]
  exact ⟨k, c, line, by simp, rfl, found, fits⟩

theorem placeOf_position (inside : p ≤ (ofString text).size) :
    (ofString text).placeOf ((ofString text).position p).1 ((ofString text).position p).2 = p := by
  obtain ⟨k, c, position, -, -, -, place⟩ := position_at text inside
  rw [position]
  exact place

/-- Positions are in the order of the bytes. -/
theorem position_upto (order : p ≤ q) (inside : q ≤ (ofString text).size) :
    Upto ((ofString text).position p).1 ((ofString text).position p).2
      ((ofString text).position q).1 ((ofString text).position q).2 := by
  obtain ⟨k, c, position, at'⟩ := position_at text (Nat.le_trans order inside)
  obtain ⟨k', c', position', at''⟩ := position_at text inside
  rw [position, position', Upto]
  have := (at'.le_iff at'').mp order
  omega

theorem covers_span (order : p ≤ q) (inside : q ≤ (ofString text).size) :
    (ofString text).Covers ((ofString text).span p q) :=
  ⟨position_has text (Nat.le_trans order inside), position_has text inside, position_upto text order inside⟩

theorem encloses_span {p' q' : Nat} (low : p ≤ p') (order : p' ≤ q') (high : q' ≤ q)
    (inside : q ≤ (ofString text).size) :
    Encloses ((ofString text).span p q) ((ofString text).span p' q') :=
  ⟨position_upto text low (Nat.le_trans order (Nat.le_trans high inside)), position_upto text high inside⟩

theorem placeOf_span (order : p ≤ q) (inside : q ≤ (ofString text).size) :
    (ofString text).placeOf ((ofString text).span p q).startLine ((ofString text).span p q).startCol = p ∧
      (ofString text).placeOf ((ofString text).span p q).endLine ((ofString text).span p q).endCol = q :=
  ⟨placeOf_position text (Nat.le_trans order inside), placeOf_position text inside⟩

/-- Lines count from one, so the span of a stretch is known. -/
theorem span_known (inside : p ≤ (ofString text).size) : ((ofString text).span p q).isUnknown = false := by
  obtain ⟨k, c, position, -⟩ := position_at text inside
  rw [Span.isUnknown, beq_eq_false_iff_ne]
  intro unknown
  have line : (((ofString text).position p).1 : Int) = 0 := congrArg Span.startLine unknown
  rw [position] at line
  omega

end

end ScopeExit.Source
