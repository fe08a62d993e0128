import Mathlib
import ScopeExit.Proofs.Source.Position
/-!
Blanks in place of a stretch of a text.

When a stretch of a text is replaced by blanks, one for each byte, with the line feeds kept, nothing moves: every
other byte stays in its place, and every place in its line and column.

**Main result.** `agree_blanks`: the two texts have the same spans, and the same text wherever it is clear of the
stretch.
-/
namespace ScopeExit.Source

/-! ### Blanks -/

/-- The blanks that take the place of a character. -/
def blank (c : Char) : List Char := if c = '\n' then ['\n'] else List.replicate c.utf8Size ' '

/-- The blanks that take the place of a text: as many as it has bytes, with its line feeds. -/
def blanks (t : String) : String := String.ofList (t.toList.flatMap blank)

theorem toList_blanks (t : String) : (blanks t).toList = t.toList.flatMap blank := String.toList_ofList

/-! ### Bytes -/

theorem toList_eq (bytes : ByteArray) : bytes.toList = bytes.data.toList := by
  have loop (i : Nat) (r : List UInt8) :
      ByteArray.toList.loop bytes i r = r.reverse ++ bytes.data.toList.drop i := by
    fun_induction ByteArray.toList.loop bytes i r with
    | case1 i r more ih =>
      have next : i < bytes.data.toList.length := more
      rw [ih, List.drop_eq_getElem_cons next, List.reverse_cons, List.append_assoc, List.singleton_append]
      congr 2
      exact getElem!_pos bytes.data i more
    | case2 i r done =>
      have past : bytes.data.toList.length ≤ i := Nat.le_of_not_lt done
      rw [List.drop_eq_nil_of_le past, List.append_nil]
  rw [ByteArray.toList, loop]
  rfl

/-- The bytes of a text are those of its characters. -/
theorem toList_toUTF8 (t : String) : t.toUTF8.toList = t.toList.flatMap String.utf8EncodeChar := by
  have bytes : t.toByteArray = t.toList.utf8Encode := by
    rw [← String.toByteArray_ofList, String.ofList_toList]
  rw [toList_eq, String.toUTF8, bytes, List.utf8Encode]
  simp

theorem ofNat_ne_feed {n : Nat} (h : n % 256 ≠ 10) : (UInt8.ofNat n == 10) = false := by
  rw [beq_eq_false_iff_ne, ne_eq, ← UInt8.toNat_inj, UInt8.toNat_ofNat']
  exact h

/-- Only a line feed has the byte of a line feed. -/
theorem ne_feed {c : Char} (other : c ≠ '\n') : ∀ b ∈ String.utf8EncodeChar c, (b == 10) = false := by
  have code : c.val.toNat ≠ 10 := fun h => other (Char.ext (UInt32.toNat_inj.mp h))
  unfold String.utf8EncodeChar
  dsimp only
  -- a character of one byte has its own code, and the bytes of the others are beyond 127
  split
  · exact List.forall_mem_singleton.mpr (ofNat_ne_feed (by omega))
  · split
    · simp only [List.forall_mem_cons]
      exact ⟨ofNat_ne_feed (by omega), ofNat_ne_feed (by omega), List.forall_mem_nil _⟩
    · split
      · simp only [List.forall_mem_cons]
        exact ⟨ofNat_ne_feed (by omega), ofNat_ne_feed (by omega), ofNat_ne_feed (by omega), List.forall_mem_nil _⟩
      · simp only [List.forall_mem_cons]
        exact ⟨ofNat_ne_feed (by omega), ofNat_ne_feed (by omega), ofNat_ne_feed (by omega),
          ofNat_ne_feed (by omega), List.forall_mem_nil _⟩

/-- Which bytes are line feeds. -/
def feeds (bytes : List UInt8) : List Bool := bytes.map (· == 10)

theorem feeds_append (bytes bytes' : List UInt8) : feeds (bytes ++ bytes') = feeds bytes ++ feeds bytes' :=
  List.map_append

/-- The lines of a text start behind its line feeds, whatever the other bytes are. -/
theorem startsAfter_congr {bytes bytes' : List UInt8} (h : feeds bytes = feeds bytes') (place : Nat) :
    startsAfter bytes place = startsAfter bytes' place := by
  induction bytes generalizing bytes' place with
  | nil =>
    obtain rfl : bytes' = [] := List.map_eq_nil_iff.mp h.symm
    rfl
  | cons b bytes ih =>
    obtain ⟨b', rest, rfl, same, others⟩ := List.map_eq_cons_iff.mp h.symm
    have both : b = 10 ↔ b' = 10 := by rw [← beq_iff_eq, ← beq_iff_eq (a := b'), same]
    rw [startsAfter, startsAfter, ih others.symm]
    simp only [both]

theorem feeds_blank (c : Char) : feeds ((blank c).flatMap String.utf8EncodeChar) = feeds (String.utf8EncodeChar c) := by
  unfold blank
  split
  · rename_i feed
    rw [feed, List.flatMap_singleton]
  · rename_i other
    have space : String.utf8EncodeChar ' ' = [32] := by decide
    have none : feeds (String.utf8EncodeChar c) = List.replicate c.utf8Size false := by
      rw [List.eq_replicate_iff, feeds, List.length_map, String.length_utf8EncodeChar]
      exact ⟨rfl, List.forall_mem_map.mpr (ne_feed other)⟩
    rw [none, feeds, List.flatMap_replicate, space, List.map_flatten, List.map_replicate]
    exact List.flatten_replicate_singleton

/-- Blanks have their line feeds where the text has them. -/
theorem feeds_blanks (t : String) : feeds (blanks t).toUTF8.toList = feeds t.toUTF8.toList := by
  rw [toList_toUTF8, toList_toUTF8, toList_blanks, List.flatMap_assoc]
  induction t.toList with
  | nil => rfl
  | cons c cs ih => rw [List.flatMap_cons, List.flatMap_cons, feeds_append, feeds_append, feeds_blank, ih]

/-- Blanks have as many bytes as the text. -/
theorem utf8ByteSize_blanks (t : String) : (blanks t).utf8ByteSize = t.utf8ByteSize := by
  have lengths := congrArg List.length (feeds_blanks t)
  rw [feeds, feeds, List.length_map, List.length_map, length_toList, length_toList] at lengths
  exact lengths

/-! ### Sources -/

/-- A stretch ends before another one starts, or starts when that one is over. -/
def Clear (low high start stop : Nat) : Prop := stop ≤ low ∨ high ≤ start

instance (low high start stop : Nat) : Decidable (Clear low high start stop) := inferInstanceAs (Decidable (_ ∨ _))

/-- Two sources agree outside of a stretch. -/
structure Agree (source source' : Source) (low high : Nat) : Prop where
  lineStarts : source'.lineStarts = source.lineStarts
  text? : ∀ {start stop : Nat}, Clear low high start stop → source'.text? start stop = source.text? start stop

theorem Agree.span {source source' : Source} {low high : Nat} (h : Agree source source' low high) (start stop : Nat) :
    source'.span start stop = source.span start stop := by
  have position (place : Nat) : source'.position place = source.position place := by
    unfold Source.position
    rw [h.lineStarts]
  unfold Source.span
  rw [position, position]

theorem extract_clear {before t t' after : ByteArray} (size : t'.size = t.size) {start stop : Nat}
    (clear : Clear before.size (before.size + t.size) start stop) :
    (before ++ t' ++ after).extract start stop = (before ++ t ++ after).extract start stop := by
  have none {u : ByteArray} (same : u.size = t.size) :
      u.extract (start - before.size) (stop - before.size) = ByteArray.empty := by
    rw [ByteArray.extract_eq_empty_iff]
    rcases clear with _ | _ <;> omega
  simp only [ByteArray.extract_append, ByteArray.size_append, none rfl, none size, size]

/-- **Blanks in place of a stretch leave everything else where it is.** -/
theorem agree_blanks (before t after : String) :
    Agree (ofString (before ++ t ++ after)) (ofString (before ++ blanks t ++ after))
      before.utf8ByteSize (before.utf8ByteSize + t.utf8ByteSize) where
  lineStarts := by
    have feeds : feeds (before ++ blanks t ++ after).toUTF8.toList = feeds (before ++ t ++ after).toUTF8.toList := by
      have blanked := feeds_blanks t
      rw [toList_toUTF8, toList_toUTF8] at blanked ⊢
      simp only [String.toList_append, List.flatMap_append, feeds_append, blanked]
    exact congrArg (List.cons 0) (startsAfter_congr feeds 0)
  text? := by
    intro start stop clear
    have stretch : (before ++ blanks t ++ after).toUTF8.extract start stop =
        (before ++ t ++ after).toUTF8.extract start stop := by
      simp only [String.toUTF8, String.toByteArray_append]
      exact extract_clear (utf8ByteSize_blanks t) clear
    unfold text? ofString
    rw [stretch]

/-- The blanks of a comment of two lines. -/
example : blanks "/* é\n */" = "     \n   " := by decide +kernel

end ScopeExit.Source
