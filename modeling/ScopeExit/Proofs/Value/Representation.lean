import ScopeExit.Proofs.Number.Representation
import ScopeExit.Proofs.Text.Spelling
import ScopeExit.Script.Property
import ScopeExit.Value.Description
import ScopeExit.Value.Operator
/-!
Values whose numbers differ in their representation.

`Alike` values are the same but for an integral float in place of an integer.  Conversions, the positions and
keys of properties, and the operators take alike values for the same, and an operator that gives back a number
gives back alike numbers.  What the operators need for that is `Fits`: where integers are computed exactly and
floats by rounding, operands and result have to stay within the whole numbers that are floats.

Two operators are no part of this.  Powers of floats leave the whole numbers for good.  And `in` does tell the
representations apart if it looks for an element of an array: it takes an integer for a position and no float.

**Main result.** `World.alike_indifferent`: neither operators nor conversions nor the reading and writing of
properties tell alike values apart.
-/
namespace ScopeExit

/-- An integral float in place of an integer, or the same value. -/
inductive Value.Alike : Value → Value → Prop
  | refl (v : Value) : Alike v v
  | number {x y : Number} (h : x.settle = y.settle) : Alike (.number x) (.number y)

/-- The same failure, or alike results. -/
inductive Conversion.Alike : Conversion Value → Conversion Value → Prop
  | ok {v w : Value} (h : v.Alike w) : Alike (.ok v) (.ok w)
  | error (f : Failure) : Alike (.error f) (.error f)

/-- A float that is a whole number is alike to the integer. -/
theorem Value.Alike.of_whole {x : Float} {n : Int} (h : Number.Whole n (.ofFloat x)) :
    Value.Alike (.ofFloat x) (.ofInt n) := .number h.settle_eq

theorem whole_one : Number.Whole 1 (.ofFloat (Number.ofRatio false 1 1)) :=
  Number.whole_ofRatio (n := 1) (by decide)

theorem Conversion.Alike.refl (r : Conversion Value) : Conversion.Alike r r := by
  cases r with
  | ok v => exact .ok (.refl v)
  | error f => exact .error f

/-! ### Conversions -/

namespace Value.Alike

variable {v w : Value}

theorem typeName_eq (h : v.Alike w) : v.typeName = w.typeName := by
  cases h <;> rfl

theorem isNullish_eq (h : v.Alike w) : v.isNullish = w.isNullish := by
  cases h <;> rfl

theorem isNameKey_eq (h : v.Alike w) : Script.World.isNameKey v = Script.World.isNameKey w := by
  cases h <;> rfl

theorem isJoined_eq (h : v.Alike w) : Heap.isJoined v = Heap.isJoined w := by
  cases h <;> rfl

theorem number_settle (h : v.Alike w) (heap : Heap) : (heap.number v).settle = (heap.number w).settle := by
  cases h with
  | refl => rfl
  | number same => exact same

theorem text_eq (h : v.Alike w) (heap : Heap) : heap.text v = heap.text w := by
  cases h with
  | refl => rfl
  | number same =>
    unfold Heap.text
    cases heap.pathBound <;> simp only [Heap.textWithin, Number.render_congr same]

theorem truthy_eq (h : v.Alike w) : v.truthy = w.truthy := by
  cases h with
  | refl => rfl
  | number same => simp only [Value.truthy, Number.isZero_congr same, Number.isNaN_congr same]

theorem position?_eq (h : v.Alike w) : v.position? = w.position? := by
  cases h with
  | refl => rfl
  | @number x y same =>
    have rounded : x.rounded = y.rounded := by rw [← Number.rounded_settle, same, Number.rounded_settle]
    have whole : x.exact.toInt? = y.exact.toInt? := by rw [← Number.toInt?_settle, same, Number.toInt?_settle]
    simp only [Value.position?, rounded, whole]

end Value.Alike

/-! ### Operators -/

namespace Heap

/-- The operands of integer arithmetic, and its result, are whole numbers within the limit if they are whole
numbers at all.  Addition that joins texts is no arithmetic. -/
def Fits (h : Heap) (op : String) (a b : Value) : Prop :=
  match op with
  | "+" => (isJoined a || isJoined b) = false → Number.Fit (h.number a) (h.number b) (· + ·)
  | "-" => Number.Fit (h.number a) (h.number b) (· - ·)
  | "*" => Number.Fit (h.number a) (h.number b) (· * ·)
  | "/" => (h.number a).Fits ∧ (h.number b).Fits
  | _ => True

section

variable (h : Heap) {a a' b b' : Value} (ha : a.Alike a') (hb : b.Alike b')
include ha hb

theorem strictEquals_alike : a.strictEquals b = a'.strictEquals b' := by
  cases ha with
  | refl =>
    cases hb with
    | refl => rfl
    | number hb =>
      cases a with
      | number x => exact Number.eqv_congr rfl hb
      | _ => rfl
  | number ha =>
    cases hb with
    | refl =>
      cases b with
      | number y => exact Number.eqv_congr ha rfl
      | _ => rfl
    | number hb => exact Number.eqv_congr ha hb

theorem looseEquals_alike : h.looseEquals a b = h.looseEquals a' b' := by
  have numbers : (h.number a).eqv (h.number b) = (h.number a').eqv (h.number b') :=
    Number.eqv_congr (ha.number_settle h) (hb.number_settle h)
  have strictly := strictEquals_alike ha hb
  unfold looseEquals
  rw [ha.isNullish_eq, hb.isNullish_eq]
  congr 1
  cases ha with
  | refl =>
    cases hb with
    | refl => rfl
    | number hb => cases a <;> first | exact numbers | exact strictly
  | number ha =>
    cases hb with
    | refl => cases b <;> first | exact numbers | exact strictly
    | number hb => exact strictly

theorem add_alike (fits : (isJoined a || isJoined b) = false → Number.Fit (h.number a) (h.number b) (· + ·)) :
    h.add a b = h.add a' b' := by
  unfold add
  rw [ha.text_eq, hb.text_eq, ← ha.isJoined_eq, ← hb.isJoined_eq]
  by_cases joined : isJoined a || isJoined b
  · rw [if_pos joined, if_pos joined]
  · rw [if_neg joined, if_neg joined,
      Number.add_congr (ha.number_settle h) (hb.number_settle h) (fits (Bool.eq_false_iff.mpr joined))]

theorem compare_alike (c : Comparison) : h.compare c a b = h.compare c a' b' := by
  have left := ha.number_settle h
  have right := hb.number_settle h
  have ordered : c.numbers (h.number a) (h.number b) = c.numbers (h.number a') (h.number b') := by
    cases c with
    | less => exact Number.lt_congr left right
    | greater => exact Number.lt_congr right left
    | atMost => exact Number.le_congr left right
    | atLeast => exact Number.le_congr right left
  have compared : (do
      if ← ofNumeric (h.number a).isNaN then pure (.bool false)
      else if ← ofNumeric (h.number b).isNaN then pure (.bool false)
      else pure (.bool (c.numbers (h.number a) (h.number b))) : Conversion Value) = (do
      if ← ofNumeric (h.number a').isNaN then pure (.bool false)
      else if ← ofNumeric (h.number b').isNaN then pure (.bool false)
      else pure (.bool (c.numbers (h.number a') (h.number b')))) := by
    rw [ordered, Number.isNaN_congr left, Number.isNaN_congr right]
  -- Two texts are the same on both sides; all else is compared by number.
  cases ha with
  | refl =>
    cases hb with
    | refl => rfl
    | number hb => cases a <;> exact compared
  | number ha => exact compared

omit hb in
theorem int32_alike : h.int32 a = h.int32 a' := by
  rw [int32, Number.toInt32_congr (ha.number_settle h), int32]

omit hb in
theorem uint32_alike : h.uint32 a = h.uint32 a' := by
  rw [uint32, Number.toUInt32_congr (ha.number_settle h), uint32]

theorem hasProperty_alike (element : ∀ ref, b ≠ .array ref) : h.hasProperty a b = h.hasProperty a' b' := by
  have key := ha.text_eq h
  have container := hb.text_eq h
  cases hb with
  | refl =>
    cases b with
    | array ref => exact absurd rfl (element ref)
    | _ => simp only [hasProperty, key]
  | number hb => simp only [hasProperty, key, container]

theorem instanceOf_alike : h.instanceOf a b = h.instanceOf a' b' := by
  cases ha with
  | refl =>
    cases hb with
    | refl => rfl
    | number hb => rfl
  | number ha =>
    cases hb with
    | refl => cases b <;> rfl
    | number hb => rfl

theorem shift_alike : h.shiftLeft a b = h.shiftLeft a' b' ∧ h.shiftRight a b = h.shiftRight a' b' ∧
    h.shiftRightUnsigned a b = h.shiftRightUnsigned a' b' := by
  have distance : h.shiftDistance b = h.shiftDistance b' := by rw [shiftDistance, h.uint32_alike hb, shiftDistance]
  rw [shiftLeft, shiftRight, shiftRightUnsigned, h.int32_alike ha, h.uint32_alike ha, distance]
  exact ⟨rfl, rfl, rfl⟩

theorem binaryNamed?_alike {op : String} {f : Value → Value → Conversion Value} (named : h.binaryNamed? op = some f)
    (fits : h.Fits op a b) (power : op ≠ "**") (element : op = "in" → ∀ ref, b ≠ .array ref) :
    f a b = f a' b' := by
  have left := ha.number_settle h
  have right := hb.number_settle h
  unfold binaryNamed? at named
  split at named <;> first | contradiction | cases named
  · exact h.add_alike ha hb fits
  · rw [numeric, Number.sub_congr left right fits, numeric]
  · rw [numeric, Number.mul_congr left right fits, numeric]
  · rw [numeric, Number.div_congr left right fits.1 fits.2, numeric]
  · rw [numeric, Number.mod_congr left right, numeric]
  · exact congrArg yes (h.looseEquals_alike ha hb)
  · exact congrArg (fun same => yes !same) (h.looseEquals_alike ha hb)
  · exact congrArg yes (strictEquals_alike ha hb)
  · exact congrArg (fun same => yes !same) (strictEquals_alike ha hb)
  · exact h.compare_alike ha hb _
  · exact h.compare_alike ha hb _
  · exact h.compare_alike ha hb _
  · exact h.compare_alike ha hb _
  · rw [bitwise, h.int32_alike ha, h.int32_alike hb, bitwise]
  · rw [bitwise, h.int32_alike ha, h.int32_alike hb, bitwise]
  · rw [bitwise, h.int32_alike ha, h.int32_alike hb, bitwise]
  · exact (h.shift_alike ha hb).1
  · exact (h.shift_alike ha hb).2.1
  · exact (h.shift_alike ha hb).2.2
  · exact h.hasProperty_alike ha hb (element rfl)
  · exact h.instanceOf_alike ha hb

/-- No binary operator tells alike operands apart, but for powers and for the search for an element. -/
theorem binary_alike {op : String} (fits : h.Fits op a b) (power : op ≠ "**")
    (element : op = "in" → ∀ ref, b ≠ .array ref) : h.binary op a b = h.binary op a' b' := by
  unfold binary
  rw [Text.toString?_ofString, Option.bind_some]
  cases named : h.binaryNamed? op with
  | none => rfl
  | some f => exact h.binaryNamed?_alike ha hb named fits power element

omit hb in
theorem unaryNamed?_alike {op : String} {f : Value → Conversion Value} (named : h.unaryNamed? op = some f) :
    Conversion.Alike (f a) (f a') := by
  have same := ha.number_settle h
  unfold unaryNamed? at named
  split at named <;> cases named
  · simp only [ha.truthy_eq]
    exact .refl _
  · exact .ok (.number (Number.neg_congr same))
  · exact .ok (.number same)
  · simp only [h.int32_alike ha]
    exact .refl _
  · simp only [ha.typeName_eq]
    exact .refl _
  · exact .refl _

omit hb in
/-- What a unary operator makes of alike operands is alike. -/
theorem unary_alike (op : Text) : Conversion.Alike (h.unary op a) (h.unary op a') := by
  unfold unary
  cases named : op.toString?.bind h.unaryNamed? with
  | none => exact .refl _
  | some f =>
    obtain ⟨name, -, named⟩ := Option.bind_eq_some_iff.mp named
    exact h.unaryNamed?_alike ha named

end

/-- An integer is found among the elements of an array, a float never. -/
theorem hasProperty_whole (h : Heap) {x : Float} {n : Int} {ref : Nat} (element : 0 ≤ n ∧ n < (h.elements ref).size) :
    h.hasProperty (.ofInt n) (.array ref) = .ok (.bool true) ∧
      h.hasProperty (.ofFloat x) (.array ref) = .ok (.bool false) := by
  refine ⟨?_, rfl⟩
  simp [hasProperty, Value.ofInt, number, element]

theorem in_tells_one : ∃ (h : Heap) (a a' b : Value), a.Alike a' ∧ h.binary "in" a b ≠ h.binary "in" a' b := by
  refine ⟨{ arrays := #[#[.undefined, .undefined]] }, _, _, .array 0, .of_whole whole_one, fun same => ?_⟩
  have found := @hasProperty_whole { arrays := #[#[.undefined, .undefined]] } (Number.ofRatio false 1 1) 1 0 (by decide)
  have same := found.2.symm.trans (same.trans found.1)
  exact Bool.false_ne_true (Value.bool.inj (Except.ok.inj same))

end Heap

/-! ### Properties -/

namespace Script.World

variable (w : World) {a a' b b' : Value} (ha : a.Alike a') (hb : b.Alike b')
include ha hb

theorem member_alike (h : Heap) : member h a b = member h a' b' := by
  have key := hb.text_eq h
  have position := hb.position?_eq
  have name := hb.isNameKey_eq
  cases ha with
  | number => rfl
  | refl => cases a <;> simp only [member, key, position, name]

theorem getProperty_alike : w.getProperty a b = w.getProperty a' b' := by
  rw [getProperty, member_alike ha hb, getProperty]

theorem setProperty_alike (value : Value) : w.setProperty a b value = w.setProperty a' b' value := by
  have key := hb.text_eq w.heap
  have position := hb.position?_eq
  have object := ha.text_eq w.heap
  cases ha with
  | number => simp only [setProperty, refusedProperty, key, object]
  | refl => cases a <;> simp only [setProperty, refusedProperty, writtenPosition, key, position]

/-- **Main result.** Alike values are the same for every operator, conversion and access to a property: they have
the same results and the same errors, and an operator that gives back its operand gives back alike values. -/
theorem alike_indifferent :
    (∀ op : String, w.heap.Fits op a b → op ≠ "**" → (op = "in" → ∀ ref, b ≠ .array ref) →
      w.heap.binary op a b = w.heap.binary op a' b') ∧
    (∀ op : Text, Conversion.Alike (w.heap.unary op a) (w.heap.unary op a')) ∧
    a.truthy = a'.truthy ∧ a.typeName = a'.typeName ∧ w.heap.text a = w.heap.text a' ∧
    w.getProperty a b = w.getProperty a' b' ∧
    ∀ value, w.setProperty a b value = w.setProperty a' b' value :=
  ⟨fun _ fits power element => w.heap.binary_alike ha hb fits power element, w.heap.unary_alike ha, ha.truthy_eq,
    ha.typeName_eq, ha.text_eq w.heap, w.getProperty_alike ha hb, w.setProperty_alike ha hb⟩

omit ha hb in
theorem alike_indifferent_one :
    Value.Alike (.ofFloat (Number.ofRatio false 1 1)) (.ofInt 1) ∧
      ({} : World).heap.binary "-" (.ofFloat (Number.ofRatio false 1 1)) (.ofInt 2) =
        ({} : World).heap.binary "-" (.ofInt 1) (.ofInt 2) := by
  have one : Value.Alike (.ofFloat (Number.ofRatio false 1 1)) (.ofInt 1) := .of_whole whole_one
  have fits : ({} : World).heap.Fits "-" (.ofFloat (Number.ofRatio false 1 1)) (.ofInt 2) := by
    refine ⟨fun n hn => ?_, fun n hn => ?_, fun m n hm hn => ?_⟩
    · cases whole_one.settle_eq.symm.trans hn
      decide
    · cases hn
      decide
    · cases whole_one.settle_eq.symm.trans hm
      cases hn
      decide
  exact ⟨one, (alike_indifferent {} one (.refl (.ofInt 2))).1 "-" fits (by decide) (fun h => by contradiction)⟩

end Script.World

end ScopeExit
