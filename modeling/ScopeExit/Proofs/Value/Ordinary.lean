import ScopeExit.Value.Description
import ScopeExit.Value.Operator
/-!
What computing with values can fail with.

Conversions and operators fail for reasons that a script can cause: a number that is too large, a value
that contains itself, an operand of the wrong kind.  None of these is a breach of a contract, and none
asks to leave the program.  `Clean` says so of a failure with all that it suppresses, and `Mild` of
something that may fail.
-/
namespace ScopeExit

/-- All that a failure holds is ordinary. -/
def Failure.Clean (f : Failure) : Prop := ∀ x ∈ f.leaves, x.severity = .ordinary

/-- What may fail fails in a clean way. -/
def Mild {α : Type} (r : Except Failure α) : Prop := ∀ f, r = .error f → f.Clean

namespace Failure

theorem clean_single {x : Fault} (h : x.severity = .ordinary) : (single x).Clean := by
  intro y hy
  rw [leaves, List.mem_singleton] at hy
  rw [hy]
  exact h

@[simp] theorem clean_host (kind : HostClass) : (host kind).Clean := clean_single rfl

@[simp] theorem clean_typeError (message : Text) : (typeError message).Clean := clean_single rfl

theorem clean_ofNumberError (e : NumberError) : (ofNumberError e).Clean := by
  cases e <;> exact clean_single rfl

/-- A clean failure is ordinary as a whole. -/
theorem Clean.severity_eq {f : Failure} (h : f.Clean) : f.severity = .ordinary := by
  cases f with
  | single x => exact h x (by simp [leaves])
  | suppressing => rfl

theorem Clean.isException {f : Failure} (h : f.Clean) : f.isException = true := by
  simp [Failure.isException, h.severity_eq]

/-- A clean failure is no request to return. -/
theorem Clean.ne_forcedReturn {f : Failure} (h : f.Clean) (v : Value) : f ≠ single (.forcedReturn v) := by
  rintro rfl
  have hseverity : Severity.fatal = .ordinary := h.severity_eq
  contradiction

end Failure

/-! ### Combining computations -/

namespace Mild

variable {α γ : Type}

@[simp] theorem ok (x : α) : Mild (.ok x : Except Failure α) := by
  intro f h
  contradiction

@[simp] theorem pure (x : α) : Mild (Pure.pure x : Except Failure α) := ok x

theorem error {f : Failure} (h : f.Clean) : Mild (.error f : Except Failure α) := by
  intro g hg
  rw [← Except.error.inj hg]
  exact h

theorem clean {r : Except Failure α} (h : Mild r) {f : Failure} (e : r = .error f) : f.Clean := h f e

theorem bind {r : Except Failure α} {f : α → Except Failure γ} (h : Mild r)
    (hf : ∀ x, Mild (f x)) : Mild (r >>= f) := by
  cases r with
  | ok x => exact hf x
  | error e => exact error (h e rfl)

theorem map {r : Except Failure α} (f : α → γ) (h : Mild r) : Mild (f <$> r) := by
  cases r with
  | ok x => exact ok _
  | error e => exact error (h e rfl)

theorem exceptMap {r : Except Failure α} (f : α → γ) (h : Mild r) : Mild (r.map f) := h.map f

theorem mapM {xs : List α} {f : α → Except Failure γ} (h : ∀ x, Mild (f x)) :
    Mild (xs.mapM f) := by
  induction xs with
  | nil => exact ok _
  | cons x xs ih =>
    rw [List.mapM_cons]
    exact (h x).bind fun _ => ih.bind fun _ => ok _

/-- Either of two computations. -/
theorem ite {c : Prop} [Decidable c] {r s : Except Failure α} (hr : Mild r) (hs : Mild s) :
    Mild (if c then r else s) := by
  by_cases h : c
  · rw [if_pos h]; exact hr
  · rw [if_neg h]; exact hs

end Mild

theorem mild_ofNumeric {α : Type} (r : Except NumberError α) : Mild (ofNumeric r) := by
  cases r with
  | ok x => exact .ok x
  | error e => exact .error (Failure.clean_ofNumberError e)

/-! ### Conversions -/

namespace Heap

variable (h : Heap)

theorem mild_textWithin (fuel : Nat) (v : Value) : Mild (h.textWithin fuel v) := by
  induction fuel generalizing v with
  | zero =>
    cases v with
    | number n => exact mild_ofNumeric _
    | array | object => exact .error (Failure.clean_host _)
    | _ => exact .ok _
  | succ fuel ih =>
    cases v with
    | number n => exact mild_ofNumeric _
    | array ref =>
      exact Mild.bind (.mapM fun v => .ite (.pure _) (ih v)) fun _ => .pure _
    | object ref =>
      exact .ite ((ih _).bind fun _ => (ih _).bind fun _ => .pure _) (.ok _)
    | _ => exact .ok _

theorem mild_text (v : Value) : Mild (h.text v) := h.mild_textWithin _ v

theorem mild_joined (sep : Text) (ref : Nat) : Mild (h.joined sep ref) :=
  Mild.bind (.mapM fun v => .ite (.pure _) (h.mild_text v)) fun _ => .pure _

theorem mild_listing (v : Value) : Mild (h.listing v) := mild_ofNumeric _

theorem mild_inMessage (v : Value) : Mild (h.inMessage v) := mild_ofNumeric _

theorem mild_describe (v : Value) : Mild (h.describe v) := by
  cases v with
  | object ref =>
    simp only [describe]
    split
    · exact (h.mild_inMessage _).bind fun _ => (h.mild_inMessage _).bind fun _ => .pure _
    · exact h.mild_listing _
  | text t => exact .ok t
  | _ => exact h.mild_listing _

/-- Throwing a value is a clean failure, whether it succeeds or not. -/
theorem clean_thrown (v : Value) : (h.thrown v).Clean := by
  unfold thrown
  split
  · exact Failure.clean_single rfl
  · rename_i e
    exact (h.mild_describe v).clean e

end Heap

theorem Value.mild_truthy (v : Value) : Mild v.truthy := by
  cases v with
  | number n => exact .ite (.ok _) (mild_ofNumeric _)
  | _ => exact .ok _

theorem Value.mild_position? (v : Value) : Mild v.position? := by
  cases v with
  | number n =>
    simp only [position?]
    refine (mild_ofNumeric _).bind fun _ => ?_
    split
    · exact .pure _
    · split
      · exact .pure _
      · exact .pure _
  | text t =>
    simp only [position?]
    refine .ite ?_ (.ok _)
    split
    · exact .ok _
    · exact .error (Failure.clean_host _)
  | _ => exact .ok _

/-! ### Operators -/

namespace Heap

variable (h : Heap)

theorem mild_numeric (f : Number → Number → Except NumberError Number) (a b : Value) :
    Mild (h.numeric f a b) := (mild_ofNumeric _).bind fun _ => .pure _

theorem mild_add (a b : Value) : Mild (h.add a b) :=
  .ite ((h.mild_text a).bind fun _ => (h.mild_text b).bind fun _ => .pure _)
    ((mild_ofNumeric _).bind fun _ => .pure _)

theorem mild_compare (c : Comparison) (a b : Value) : Mild (h.compare c a b) := by
  unfold compare
  split
  · exact .ok _
  · exact (mild_ofNumeric _).bind fun _ => .ite (.pure _)
      ((mild_ofNumeric _).bind fun _ => .ite (.pure _) (.pure _))

theorem mild_bitwise (f : Nat → Nat → Nat) (a b : Value) : Mild (h.bitwise f a b) :=
  (mild_ofNumeric _).bind fun _ => (mild_ofNumeric _).bind fun _ => .pure _

theorem mild_shiftDistance (v : Value) : Mild (h.shiftDistance v) :=
  (mild_ofNumeric _).bind fun _ => .pure _

theorem mild_hasProperty (key container : Value) : Mild (h.hasProperty key container) := by
  cases container with
  | object ref => exact (h.mild_text key).bind fun _ => .pure _
  | array ref => exact .ok _
  | _ =>
    exact (h.mild_text key).bind fun _ => (h.mild_text _).bind fun _ =>
      .error (Failure.clean_typeError _)

theorem mild_instanceOf (value constructor : Value) : Mild (h.instanceOf value constructor) := by
  cases constructor with
  | function ref => cases value <;> exact .ok _
  | native n => cases value <;> exact .ok _
  | _ => exact .error (Failure.clean_typeError _)

theorem mild_binary (op : Text) (a b : Value) : Mild (h.binary op a b) := by
  unfold binary
  split
  · rename_i f hf
    obtain ⟨name, -, hf⟩ := Option.bind_eq_some_iff.mp hf
    revert hf
    unfold binaryNamed?
    split <;> intro hf <;> try contradiction
    all_goals obtain rfl := Option.some.inj hf
    · exact h.mild_add a b
    · exact h.mild_numeric _ a b
    · exact h.mild_numeric _ a b
    · exact h.mild_numeric _ a b
    · exact h.mild_numeric _ a b
    · exact h.mild_numeric _ a b
    · exact .ok _
    · exact .ok _
    · exact .ok _
    · exact .ok _
    · exact h.mild_compare _ a b
    · exact h.mild_compare _ a b
    · exact h.mild_compare _ a b
    · exact h.mild_compare _ a b
    · exact h.mild_bitwise _ a b
    · exact h.mild_bitwise _ a b
    · exact h.mild_bitwise _ a b
    · exact (mild_ofNumeric _).bind fun _ => (h.mild_shiftDistance b).bind fun _ => .pure _
    · exact (mild_ofNumeric _).bind fun _ => (h.mild_shiftDistance b).bind fun _ => .pure _
    · exact (mild_ofNumeric _).bind fun _ => (h.mild_shiftDistance b).bind fun _ => .pure _
    · exact h.mild_hasProperty a b
    · exact h.mild_instanceOf a b
  · exact .error (Failure.clean_typeError _)

theorem mild_unary (op : Text) (v : Value) : Mild (h.unary op v) := by
  unfold unary
  split
  · rename_i f hf
    obtain ⟨name, -, hf⟩ := Option.bind_eq_some_iff.mp hf
    revert hf
    unfold unaryNamed?
    split <;> intro hf <;> try contradiction
    all_goals obtain rfl := Option.some.inj hf
    · exact v.mild_truthy.bind fun _ => .pure _
    · exact .ok _
    · exact .ok _
    · exact (mild_ofNumeric _).bind fun _ => .pure _
    · exact .ok _
    · exact .ok _
  · exact .error (Failure.clean_typeError _)

end Heap

end ScopeExit
