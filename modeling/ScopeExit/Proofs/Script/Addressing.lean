import ScopeExit.Proofs.Number.Representation
import ScopeExit.Proofs.Text.Spelling
import ScopeExit.Script.Property
/-!
How the elements of an array are addressed.

An element is found by its position, all else by the text of the key, so two keys with one text should find the
same thing.  That holds of `Plain` keys: if the text of the key consists of digits, the key is a number, or it is
the decimal numeral of a position itself.  Other keys are strange in one of two ways.  A text of digits that is
no such numeral, with a zero in front or with digits of another script, stands for the position of another
text, or for none and then the access fails.  And an array or an error whose text is a numeral is never looked
up as a position.

**Main result.** `World.addresses_by_text`: an element that was written is read by the keys of the same text and
by no other, and a text as key fails only in the ways a script can see.
-/
namespace ScopeExit

open Number

/-! ### Positions and texts -/

namespace Heap

/-- A key that denotes a position if its text is a text of digits: a text of digits has to be the numeral of the
position, and an array or an object may have no such text. -/
def Plain (h : Heap) : Value → Prop
  | .text t => t.isDigits = true → ∃ i, i < pow10 maxDigits ∧ t = Text.ofNat i
  | .array ref => ∀ t, h.text (.array ref) = .ok t → t.isDigits = false
  | .object ref => ∀ t, h.text (.object ref) = .ok t → t.isDigits = false
  | _ => True

theorem text_text (h : Heap) (t : Text) : h.text (.text t) = .ok t := by
  unfold text
  cases h.pathBound <;> rfl

theorem text_number (h : Heap) (n : Number) : h.text (.number n) = ofNumeric n.render := by
  unfold text
  cases h.pathBound <;> rfl

/-- The text of a function is no text of digits, whatever its name is. -/
theorem isDigits_functionText (name : Text) :
    (Text.concat ["function ", name, "() \x7b [code] \x7d"]).isDigits = false :=
  @Text.isDigits_eq_false _ (CodePoint.ofChar 'f') (by simp [Text.concat, Text.ofString, Text.ofChars]) (by decide)

/-- Of the plain keys only numbers and texts have texts of digits. -/
theorem number_or_text {h : Heap} {k : Value} {t : Text} (plain : h.Plain k) (text : h.text k = .ok t)
    (digits : t.isDigits = true) : (∃ n, k = .number n) ∨ k = .text t := by
  have other {t' : Text} (same : (.ok t' : Conversion Text) = .ok t) (none : t'.isDigits = false) : False := by
    rw [Except.ok.inj same, digits] at none
    contradiction
  cases k with
  | number n => exact .inl ⟨n, rfl⟩
  | text t' => exact .inr (by rw [Except.ok.inj ((h.text_text t').symm.trans text)])
  | array ref => exact absurd digits (Bool.eq_false_iff.mp (plain t text))
  | object ref => exact absurd digits (Bool.eq_false_iff.mp (plain t text))
  | bool b =>
    unfold Heap.text at text
    cases h.pathBound <;> cases b <;> exact (other text (by decide)).elim
  | function ref =>
    unfold Heap.text at text
    cases h.pathBound <;> exact (other text (isDigits_functionText _)).elim
  | native n =>
    unfold Heap.text at text
    cases h.pathBound <;> exact (other text (isDigits_functionText _)).elim
  | _ =>
    unfold Heap.text at text
    cases h.pathBound <;> exact (other text (by decide)).elim

end Heap

theorem Text.ofInt_natCast (i : Nat) : Text.ofInt i = Text.ofNat i := by
  rw [Text.ofInt, if_neg (by omega), Int.natAbs_natCast]

namespace Number

theorem toInt?_ofInt (n : Int) : (Exact.ofInt n).toInt? = some n := by
  rw [Exact.ofInt, Exact.toInt?_eq_some_iff, Exact.rational_ofInt]

theorem eq_ofInt_of_intText {n : Int} {t : Text} (h : intText n = .ok t) : t = Text.ofInt n := by
  unfold intText at h
  generalize pow10 maxDigits = bound at h
  split at h
  · contradiction
  · exact (Except.ok.inj h).symm

theorem eq_of_ofInt {n : Int} {i : Nat} (h : Text.ofInt n = Text.ofNat i) : n = i := by
  obtain ⟨j, rfl⟩ : ∃ j : Nat, n = j := by
    refine ⟨n.toNat, ?_⟩
    have := (isDigits_ofInt_iff n).mp (h ▸ Text.isDigits_ofNat i)
    omega
  rw [Text.ofInt_natCast] at h
  rw [Text.ofNat_injective h]

/-- A number whose text is a numeral is the whole number that it shows. -/
theorem toInt?_of_render {n : Number} {i : Nat} (h : n.render = .ok (Text.ofNat i)) : n.exact.toInt? = some (i : Int) := by
  have other {t : Text} (digits : t.isDigits = false) : t ≠ Text.ofNat i := by
    rintro rfl
    rw [Text.isDigits_ofNat] at digits
    contradiction
  cases n with
  | int m =>
    rw [eq_of_ofInt (eq_ofInt_of_intText h).symm]
    exact toInt?_ofInt i
  | float x =>
    unfold render at h
    dsimp only at h
    split at h
    · exact absurd (Except.ok.inj h) (other (by decide))
    · rename_i s _
      cases s <;> exact absurd (Except.ok.inj h) (other (by decide))
    · split at h
      · rename_i m whole
        rw [eq_of_ofInt (eq_ofInt_of_intText h).symm] at whole
        exact whole
      · exact absurd (Except.ok.inj h) (other (isDigits_floatLiteral x))

/-- The text of a whole number that is not negative is its numeral. -/
theorem render_of_toInt? {n : Number} {i : Nat} {t : Text} (whole : n.exact.toInt? = some (i : Int))
    (h : n.render = .ok t) : t = Text.ofNat i := by
  cases n with
  | int m =>
    have same : m = i := Option.some.inj ((toInt?_ofInt m).symm.trans whole)
    rw [eq_ofInt_of_intText h, same, Text.ofInt_natCast]
  | float x =>
    change (Exact.ofFloat x).toInt? = some (i : Int) at whole
    unfold render at h
    dsimp only at h
    split at h
    · rename_i nan
      rw [nan] at whole
      contradiction
    · rename_i infinite
      rw [infinite] at whole
      contradiction
    · rw [whole] at h
      rw [eq_ofInt_of_intText h, Text.ofInt_natCast]

/-- A whole number within the limit becomes a float that is whole. -/
theorem exists_rounded {n : Number} {i : Nat} (whole : n.exact.toInt? = some (i : Int)) (small : i ≤ wholeLimit) :
    ∃ v, n.rounded = .ok v ∧ v.toInt? = some (i : Int) := by
  cases n with
  | float x => exact ⟨_, rfl, whole⟩
  | int m =>
    have same : m = i := Option.some.inj ((toInt?_ofInt m).symm.trans whole)
    have float := @whole_ofRatio m (by omega)
    refine ⟨_, by rw [rounded, float.floatOfInt_eq]; rfl, ?_⟩
    rw [float.toInt?_eq, same]

end Number

namespace Value

theorem position?_text (t : Text) : (Value.text t).position? =
    if t.isDigits then
      match readDecimalInt? t with
      | some i => .ok (some i.toNat)
      | none => .error (.host .value)
    else .ok none := rfl

theorem position?_ofNat {i : Nat} (short : i < pow10 maxDigits) :
    (Value.text (Text.ofNat i)).position? = .ok (some i) := by
  rw [position?_text, if_pos (Text.isDigits_ofNat i), readDecimalInt?_ofNat short]
  rfl

theorem toInt?_of_position? {n : Number} {i : Nat} (found : (Value.number n).position? = .ok (some i)) :
    n.exact.toInt? = some (i : Int) := by
  cases rounded : n.rounded with
  | error e =>
    simp only [position?, rounded, ofNumeric, bind, Except.bind] at found
    contradiction
  | ok v =>
    simp only [position?, rounded, ofNumeric, bind, Except.bind] at found
    split at found
    · exact absurd (Except.ok.inj found) (by simp)
    · split at found
      · rename_i j whole
        split at found
        · rename_i large
          rw [whole, ← Option.some.inj (Except.ok.inj found), Int.toNat_of_nonneg large]
        · exact absurd (Except.ok.inj found) (by simp)
      · exact absurd (Except.ok.inj found) (by simp)

/-- The text of a key that denotes a position is the numeral of the position. -/
theorem text_of_position? {h : Heap} {k : Value} {t : Text} {i : Nat} (plain : h.Plain k)
    (found : k.position? = .ok (some i)) (text : h.text k = .ok t) : t = Text.ofNat i := by
  cases k with
  | number n =>
    rw [Heap.text_number] at text
    cases rendered : n.render with
    | error e => rw [rendered] at text; contradiction
    | ok t' =>
      rw [rendered] at text
      rw [← Except.ok.inj text]
      exact render_of_toInt? (toInt?_of_position? found) rendered
  | text t' =>
    rw [Heap.text_text] at text
    obtain rfl := Except.ok.inj text
    by_cases digits : t'.isDigits
    · obtain ⟨j, short, rfl⟩ := plain digits
      rw [position?_ofNat short] at found
      rw [Option.some.inj (Except.ok.inj found)]
    · rw [position?_text, if_neg digits] at found
      exact absurd (Except.ok.inj found) (by simp)
  | _ => exact absurd (Except.ok.inj found) (by simp)

/-- A key with the numeral of a position of an array denotes it. -/
theorem position?_of_text {h : Heap} {k : Value} {i : Nat} (plain : h.Plain k) (small : i < Script.World.maxElements)
    (text : h.text k = .ok (Text.ofNat i)) : k.position? = .ok (some i) := by
  rcases Heap.number_or_text plain text (Text.isDigits_ofNat i) with ⟨n, rfl⟩ | rfl
  · rw [Heap.text_number] at text
    have whole : n.exact.toInt? = some (i : Int) := by
      cases rendered : n.render with
      | error e => rw [rendered] at text; contradiction
      | ok t =>
        rw [rendered] at text
        obtain rfl := Except.ok.inj text
        exact toInt?_of_render rendered
    have limit : Script.World.maxElements ≤ wholeLimit := by decide
    obtain ⟨v, rounded, float⟩ := exists_rounded whole (by omega)
    simp only [position?, rounded, ofNumeric, bind, Except.bind, float, whole]
    rw [if_pos (Int.natCast_nonneg i), Int.toNat_natCast]
    rfl
  · obtain ⟨j, short, same⟩ := plain (Text.isDigits_ofNat i)
    rw [Text.ofNat_injective same, position?_ofNat short]

end Value

/-! ### Elements -/

theorem getD_putElement (items : Array Value) (i j : Nat) (v : Value) :
    (Script.World.putElement items i v).getD j .undefined = if j = i then v else items.getD j .undefined := by
  unfold Script.World.putElement
  rw [Array.getD_eq_getD_getElem?, Array.getD_eq_getD_getElem?]
  by_cases inside : i < items.size
  · rw [if_pos inside, Array.getElem?_setIfInBounds]
    by_cases same : j = i
    · rw [if_pos same.symm, if_pos inside, if_pos same, Option.getD_some]
    · rw [if_neg (Ne.symm same), if_neg same]
  · have size : (items ++ Array.replicate (i - items.size) Value.undefined).size = i := by
      rw [Array.size_append, Array.size_replicate]
      omega
    rw [if_neg inside, Array.getElem?_push, size]
    by_cases same : j = i
    · rw [if_pos same, if_pos same, Option.getD_some]
    · rw [if_neg same, if_neg same, Array.getElem?_append]
      split
      · rfl
      · rename_i beyond
        -- A gap reads as what is not there.
        rw [Array.getElem?_eq_none (Nat.not_lt.mp beyond), Array.getElem?_replicate]
        split <;> rfl

theorem Heap.elements_modifyElements {h : Heap} {ref : Nat} (there : ref < h.arrays.size) (f : Array Value → Array Value) :
    (h.modifyElements ref f).elements ref = f (h.elements ref) := by
  simp only [Heap.modifyElements, Heap.elements, Array.getD_eq_getD_getElem?, Array.getElem?_modify]
  simp [there]

namespace Script.World

/-- The names of what an array has beside its elements. -/
def memberNames : List Text := ["length", "push", "join"]

theorem arrayMember_other (h : Heap) (ref : Nat) {t : Text} (other : t ∉ memberNames) :
    arrayMember h ref t = .value .undefined := by
  simp only [memberNames, List.mem_cons, List.not_mem_nil, or_false, not_or] at other
  simp [arrayMember, other]

variable {w w' : World} {ref : Nat} {k k' v : Value}

theorem getProperty_position {i : Nat} (found : k.position? = .ok (some i)) :
    w.getProperty (.array ref) k = (.ok ((w.heap.elements ref).getD i .undefined), w) := by
  simp only [getProperty, member, found, change, Bind.bind, Except.bind, Pure.pure, Except.pure]

theorem getProperty_other {t : Text} (found : k.position? = .ok none) (text : w.heap.text k = .ok t)
    (other : t ∉ memberNames) : w.getProperty (.array ref) k = (.ok .undefined, w) := by
  simp only [getProperty, member, found, text, arrayMember_other _ _ other, change, Bind.bind, Except.bind, Pure.pure,
    Except.pure]

theorem getProperty_failed {f : Failure} (failed : k.position? = .error f) :
    w.getProperty (.array ref) k = (.error f, w) := by
  simp only [getProperty, member, failed, change, Bind.bind, Except.bind]

/-- What writing an element does. -/
theorem setProperty_array (written : w.setProperty (.array ref) k v = (.ok (), w')) :
    ∃ i, k.position? = .ok (some i) ∧ i < maxElements ∧
      w' = { w with heap := w.heap.modifyElements ref fun items => putElement items i v } := by
  unfold setProperty at written
  dsimp only at written
  cases position : w.writtenPosition (w.heap.elements ref).size k with
  | error f =>
    rw [position] at written
    exact absurd (Prod.mk.inj written).1 (by simp)
  | ok i =>
    rw [position] at written
    obtain ⟨-, rfl⟩ := Prod.mk.inj written
    unfold writtenPosition at position
    cases found : k.position? with
    | error f =>
      rw [found] at position
      contradiction
    | ok found? =>
      rw [found] at position
      cases found? with
      | none =>
        cases text : w.heap.text k with
        | error f => simp only [text, Bind.bind, Except.bind] at position; contradiction
        | ok t => simp only [text, Bind.bind, Except.bind] at position; contradiction
      | some j =>
        simp only [Bind.bind, Except.bind] at position
        split at position
        · rename_i small
          obtain rfl := Except.ok.inj position
          exact ⟨j, rfl, small, rfl⟩
        · split at position <;> contradiction

/-- After an element was written, the keys of the same text read it and all others read what they did before. -/
theorem element_written (there : ref < w.heap.arrays.size) (plain : w.heap.Plain k)
    (written : w.setProperty (.array ref) k v = (.ok (), w')) {t₁ t t' : Text} (text₁ : w.heap.text k = .ok t₁)
    (text : w.heap.text k' = .ok t) (text' : w'.heap.text k' = .ok t') (plain' : w'.heap.Plain k') :
    (t' = t₁ → w'.getProperty (.array ref) k' = (.ok v, w')) ∧
      (t' ≠ t₁ → t ∉ memberNames → t' ∉ memberNames →
        (w'.getProperty (.array ref) k').1 = (w.getProperty (.array ref) k').1) := by
  obtain ⟨i, found, small, rfl⟩ := setProperty_array written
  have numeral : t₁ = Text.ofNat i := Value.text_of_position? plain found text₁
  have elements := Heap.elements_modifyElements there fun items => putElement items i v
  constructor
  · rintro rfl
    have found' : k'.position? = .ok (some i) := Value.position?_of_text plain' small (numeral ▸ text')
    rw [getProperty_position found', elements, getD_putElement, if_pos rfl]
  · intro different other other'
    cases position : k'.position? with
    | error f => rw [getProperty_failed position, getProperty_failed position]
    | ok position? =>
      cases position? with
      | none => rw [getProperty_other position text other, getProperty_other position text' other']
      | some j =>
        have elsewhere : j ≠ i := by
          rintro rfl
          exact different ((Value.text_of_position? plain' position text').trans numeral.symm)
        rw [getProperty_position position, getProperty_position position, elements, getD_putElement, if_neg elsewhere]

/-- A plain text always denotes a position or none. -/
theorem exists_position {h : Heap} {t : Text} (plain : h.Plain (.text t)) :
    (∃ i, t = Text.ofNat i ∧ (Value.text t).position? = .ok (some i)) ∨ (Value.text t).position? = .ok none := by
  by_cases digits : t.isDigits
  · obtain ⟨i, short, rfl⟩ := plain digits
    exact .inl ⟨i, rfl, Value.position?_ofNat short⟩
  · exact .inr (by rw [Value.position?_text, if_neg digits])

/-- Reading an array by a plain text does not fail. -/
theorem getProperty_text {t : Text} (plain : w.heap.Plain (.text t)) :
    ∃ u w', w.getProperty (.array ref) (.text t) = (.ok u, w') := by
  rcases exists_position plain with ⟨i, -, found⟩ | found
  · exact ⟨_, _, getProperty_position found⟩
  · simp only [getProperty, member, found, Heap.text_text, change, Bind.bind, Except.bind, Pure.pure, Except.pure]
    exact ⟨_, _, rfl⟩

/-- Writing an array by a plain text fails with an error of scripts, or because of its size. -/
theorem setProperty_text {t : Text} {f : Failure} (plain : w.heap.Plain (.text t))
    (failed : w.setProperty (.array ref) (.text t) v = (.error f, w')) :
    (∃ message, f = .typeError message) ∨ ∃ i, maxElements ≤ i ∧ t = Text.ofNat i := by
  unfold setProperty at failed
  dsimp only at failed
  cases position : w.writtenPosition (w.heap.elements ref).size (.text t) with
  | ok i =>
    rw [position] at failed
    exact absurd (Prod.mk.inj failed).1 (by simp)
  | error f' =>
    rw [position] at failed
    obtain ⟨same, -⟩ := Prod.mk.inj failed
    obtain rfl := Except.error.inj same
    unfold writtenPosition at position
    rcases exists_position plain with ⟨i, numeral, found⟩ | found
    · refine .inr ⟨i, ?_, numeral⟩
      by_contra small
      simp only [found, Bind.bind, Except.bind, if_pos (Nat.not_le.mp small)] at position
      contradiction
    · simp only [found, Heap.text_text, Bind.bind, Except.bind] at position
      exact .inl ⟨_, (Except.error.inj position).symm⟩

/-- **Main result.** With plain keys, an element that was written is read by the keys of the same text and by no
others, and an access by a text fails only in ways that a script can see, unless it is a write beyond the
greatest size. -/
theorem addresses_by_text (w : World) {ref : Nat} (there : ref < w.heap.arrays.size) :
    (∀ k₁ v w', w.heap.Plain k₁ → w.setProperty (.array ref) k₁ v = (.ok (), w') →
      ∀ k₂ t₁ t t', w'.heap.Plain k₂ → w.heap.text k₁ = .ok t₁ → w.heap.text k₂ = .ok t → w'.heap.text k₂ = .ok t' →
        (t' = t₁ → w'.getProperty (.array ref) k₂ = (.ok v, w')) ∧
          (t' ≠ t₁ → t ∉ memberNames → t' ∉ memberNames →
            (w'.getProperty (.array ref) k₂).1 = (w.getProperty (.array ref) k₂).1)) ∧
      ∀ t, w.heap.Plain (.text t) →
        (∃ u w', w.getProperty (.array ref) (.text t) = (.ok u, w')) ∧
          ∀ v f w', w.setProperty (.array ref) (.text t) v = (.error f, w') →
            (∃ message, f = .typeError message) ∨ ∃ i, maxElements ≤ i ∧ t = Text.ofNat i :=
  ⟨fun _ _ _ plain written _ _ _ _ plain' text₁ text text' =>
      element_written there plain written text₁ text text' plain',
    fun _ plain => ⟨getProperty_text plain, fun _ _ _ => setProperty_text plain⟩⟩

/-- A world with an empty array. -/
def oneArray : World := { heap := { arrays := #[#[]] } }

theorem addresses_by_text_oneArray :
    ∃ w', oneArray.setProperty (.array 0) (.text "1") .null = (.ok (), w') ∧
      w'.getProperty (.array 0) (.text "1") = (.ok .null, w') := by
  obtain ⟨w', written⟩ : ∃ w', oneArray.setProperty (.array 0) (.text "1") .null = (.ok (), w') := ⟨_, rfl⟩
  have short : 1 < pow10 maxDigits := by
    rw [pow10_eq]
    exact Nat.one_lt_pow (by decide) (by decide)
  have plain (h : Heap) : h.Plain (.text "1") := fun _ => ⟨1, short, by decide⟩
  exact ⟨w', written, ((addresses_by_text oneArray (by decide)).1 _ _ _ (plain _) written _ _ _ _ (plain _)
    (Heap.text_text _ _) (Heap.text_text _ _) (Heap.text_text _ _)).1 rfl⟩

theorem aliased_leadingZero :
    ∃ (w w' : World) (v : Value), w.setProperty (.array 0) (.text "1") v = (.ok (), w') ∧
      (w'.getProperty (.array 0) (.text "01")).1 = .ok v ∧ (w.getProperty (.array 0) (.text "01")).1 ≠ .ok v := by
  refine ⟨oneArray, _, .null, rfl, rfl, fun same => ?_⟩
  have nothing : (oneArray.getProperty (.array 0) (.text "01")).1 = .ok .undefined := rfl
  exact absurd (Except.ok.inj (nothing.symm.trans same)) (by simp)

end Script.World

end ScopeExit
