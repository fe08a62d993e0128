import ScopeExit.Proofs.Value.Integer
import ScopeExit.Proofs.Value.Representation
import ScopeExit.Script.Outcome
/-!
The two equalities of scripts.

Equality without conversion compares what a value is: numbers count by the point of the number line that they stand
for, so that an integer equals a float exactly when both are the same rational number, and a reference counts by its
place.  `Value.identity?` is what is compared, and all laws of that equality come from `strictEquals_iff`.

Equality with conversion goes through four rules, and the rule for truth values starts over with two numbers.
`Heap.Compared` are these rules as they stand; that they end, and with which answer, is `compared_iff`.

**Main result.** `Heap.coherent`: both equalities are symmetric, the first is sameness and implies the second, both
agree on values of one group, `!=` and `!==` are their negations, and a switch tests the same way from either side.
-/
namespace ScopeExit

/-! ### Points of the number line -/

namespace Number

/-- What counts in an exact value: of an infinity the sign, of all else the rational number. -/
def Exact.point? : Exact → Option (Bool ⊕ ℚ)
  | .nan => none
  | .infinite s => some (.inl s)
  | .finite s m e => some (.inr (Exact.rational s m e))

theorem Exact.compare?_eq_iff (v w : Exact) :
    v.compare? w = some .eq ↔ ∃ p, v.point? = some p ∧ w.point? = some p := by
  cases v with
  | nan => simp [compare?, point?]
  | infinite s =>
    cases w with
    | infinite s' => cases s <;> cases s' <;> simp [compare?, point?]
    | nan => simp [compare?, point?]
    | finite => cases s <;> simp [compare?, point?]
  | finite s m e =>
    cases w with
    | finite s' m' e' =>
      simp only [Exact.compare?_finite, point?, Option.some_inj]
      constructor
      · intro h
        split at h
        · contradiction
        · split at h
          · next same => exact ⟨_, rfl, congrArg Sum.inr same.symm⟩
          · contradiction
      · rintro ⟨p, rfl, same⟩
        rw [Sum.inr.inj same, if_neg (lt_irrefl _), if_pos rfl]
    | nan => simp [compare?, point?]
    | infinite s' => cases s' <;> simp [compare?, point?]

/-- Numbers are equal if they stand for the same point. -/
theorem eqv_iff {x y : Number} : x.eqv y = true ↔ ∃ p, x.exact.point? = some p ∧ y.exact.point? = some p := by
  rw [eqv, beq_iff_eq, Exact.compare?_eq_iff]

theorem eqv_comm (x y : Number) : x.eqv y = y.eqv x := by
  rw [Bool.eq_iff_iff, eqv_iff, eqv_iff]
  exact exists_congr fun _ => and_comm

end Number

/-! ### Equality without conversion -/

/-- What equality without conversion compares. -/
inductive Identity where
  | undefined
  | null
  | bool (b : Bool)
  | number (point : Bool ⊕ ℚ)
  | text (t : Text)
  | array (ref : Nat)
  | object (ref : Nat)
  | function (ref : Nat)
  | native (id : Nat)
  | generator (ref : Nat)
  | promise (ref : Nat)

namespace Value

/-- What a value is; only what is no number has nothing to be compared by. -/
def identity? : Value → Option Identity
  | .undefined => some .undefined
  | .null => some .null
  | .bool b => some (.bool b)
  | .number x => x.exact.point?.map .number
  | .text t => some (.text t)
  | .array ref => some (.array ref)
  | .object ref => some (.object ref)
  | .function ref => some (.function ref)
  | .native n => some (.native n.id)
  | .generator ref => some (.generator ref)
  | .promise ref => some (.promise ref)

/-- The value that is not a number. -/
def IsNaN (v : Value) : Prop := ∃ x, v = .ofFloat x ∧ Number.Exact.ofFloat x = .nan

variable {a b c : Value}

theorem strictEquals_iff : a.strictEquals b = true ↔ ∃ k, a.identity? = some k ∧ b.identity? = some k := by
  cases a with
  | number x =>
    cases b with
    | number y =>
      simp only [strictEquals, Number.eqv_iff, identity?, Option.map_eq_some_iff]
      constructor
      · rintro ⟨p, left, right⟩
        exact ⟨_, ⟨p, left, rfl⟩, ⟨p, right, rfl⟩⟩
      · rintro ⟨_, ⟨p, left, rfl⟩, ⟨q, right, same⟩⟩
        exact ⟨p, left, Identity.number.inj same ▸ right⟩
    | _ => simp [strictEquals, identity?]
  | _ => cases b <;> simp [strictEquals, identity?] <;> exact eq_comm

theorem strictEquals_comm (a b : Value) : a.strictEquals b = b.strictEquals a := by
  rw [Bool.eq_iff_iff, strictEquals_iff, strictEquals_iff]
  exact exists_congr fun _ => and_comm

theorem strictEquals_trans (left : a.strictEquals b = true) (right : b.strictEquals c = true) :
    a.strictEquals c = true := by
  rw [strictEquals_iff] at left right ⊢
  obtain ⟨k, ha, hb⟩ := left
  obtain ⟨l, hb', hc⟩ := right
  cases hb.symm.trans hb'
  exact ⟨k, ha, hc⟩

theorem identity?_eq_none : a.identity? = none ↔ a.IsNaN := by
  cases a with
  | number x =>
    cases x with
    | int n => simp [identity?, IsNaN, ofFloat, Number.exact, Number.Exact.ofInt, Number.Exact.point?]
    | float x =>
      simp only [identity?, Number.exact, Option.map_eq_none_iff, IsNaN, ofFloat, number.injEq, Number.float.injEq,
        exists_eq_left']
      cases Number.Exact.ofFloat x <;> simp [Number.Exact.point?]
  | _ => simp [identity?, IsNaN, ofFloat]

/-- A value equals itself unless it is not a number. -/
theorem strictEquals_self : a.strictEquals a = true ↔ ¬a.IsNaN := by
  rw [strictEquals_iff, ← identity?_eq_none, ← ne_eq, Option.ne_none_iff_exists']
  simp only [and_self]

/-! ### Equality with conversion -/

/-- The groups of values that the rules of equality tell apart. -/
inductive Group where
  | nothing | bool | number | text | reference
  deriving DecidableEq

/-- The group of a value. -/
def group : Value → Group
  | .undefined | .null => .nothing
  | .bool _ => .bool
  | .number _ => .number
  | .text _ => .text
  | _ => .reference

/-- Values that are the same are of one group. -/
theorem group_eq_of_strictEquals (same : a.strictEquals b = true) : a.group = b.group := by
  cases a <;> cases b <;> first | rfl | exact absurd same Bool.false_ne_true

end Value

namespace Heap

open Value (Group)

/-- Two values count as numbers: a numeral beside a number. -/
def Mixed (a b : Value) : Prop :=
  a.group = .number ∧ b.group = .text ∨ a.group = .text ∧ b.group = .number

instance (a b : Value) : Decidable (Mixed a b) :=
  inferInstanceAs (Decidable (a.group = .number ∧ b.group = .text ∨ a.group = .text ∧ b.group = .number))

theorem mixed_comm {a b : Value} : Mixed a b ↔ Mixed b a := or_comm.trans (or_congr and_comm and_comm)

/-- The rules of equality with conversion, the first one that applies.  The answer for a truth value is the answer
for the numbers of both values. -/
inductive Compared (h : Heap) : Value → Value → Bool → Prop
  | nothing {a b : Value} (missing : a.group = .nothing ∨ b.group = .nothing) :
      Compared h a b (a.group = .nothing ∧ b.group = .nothing)
  | truth {a b : Value} {r : Bool} (present : ¬(a.group = .nothing ∨ b.group = .nothing))
      (either : a.group = .bool ∨ b.group = .bool)
      (numbers : Compared h (.number (h.number a)) (.number (h.number b)) r) : Compared h a b r
  | numeral {a b : Value} (present : ¬(a.group = .nothing ∨ b.group = .nothing))
      (neither : ¬(a.group = .bool ∨ b.group = .bool)) (mixed : Mixed a b) :
      Compared h a b ((h.number a).eqv (h.number b))
  | strict {a b : Value} (present : ¬(a.group = .nothing ∨ b.group = .nothing))
      (neither : ¬(a.group = .bool ∨ b.group = .bool)) (unmixed : ¬Mixed a b) :
      Compared h a b (a.strictEquals b)

variable (h : Heap) {a b : Value}

theorem looseEquals_of_nothing (missing : a.group = .nothing ∨ b.group = .nothing) :
    h.looseEquals a b = decide (a.group = .nothing ∧ b.group = .nothing) := by
  cases a <;> cases b <;> first | rfl | simp [Value.group] at missing

theorem looseEquals_of_present (present : ¬(a.group = .nothing ∨ b.group = .nothing)) :
    h.looseEquals a b =
      if (a.group = .bool ∨ b.group = .bool) ∨ Mixed a b then (h.number a).eqv (h.number b)
      else a.strictEquals b := by
  cases a <;> cases b <;> first | rfl | simp [Value.group] at present

theorem compared_numbers (x y : Number) : h.Compared (.number x) (.number y) (x.eqv y) :=
  .strict (by simp [Value.group]) (by simp [Value.group]) (by simp [Mixed, Value.group])

/-- The rules give one answer, and none of them goes on for ever: the numbers that a truth value is compared by are
compared at once. -/
theorem compared_iff {r : Bool} : h.Compared a b r ↔ r = h.looseEquals a b := by
  have numbers (x y : Number) : h.looseEquals (.number x) (.number y) = x.eqv y := rfl
  constructor
  · intro compared
    induction compared with
    | nothing missing => rw [h.looseEquals_of_nothing missing]
    | truth present either _ ih => rw [ih, numbers, h.looseEquals_of_present present, if_pos (.inl either)]
    | numeral present neither mixed => rw [h.looseEquals_of_present present, if_pos (.inr mixed)]
    | strict present neither unmixed =>
      rw [h.looseEquals_of_present present, if_neg (not_or.mpr ⟨neither, unmixed⟩)]
  · rintro rfl
    by_cases missing : a.group = .nothing ∨ b.group = .nothing
    · rw [h.looseEquals_of_nothing missing]
      exact .nothing missing
    rw [h.looseEquals_of_present missing]
    by_cases either : a.group = .bool ∨ b.group = .bool
    · rw [if_pos (.inl either)]
      exact .truth missing either (h.compared_numbers _ _)
    by_cases mixed : Mixed a b
    · rw [if_pos (.inr mixed)]
      exact .numeral missing either mixed
    · rw [if_neg (not_or.mpr ⟨either, mixed⟩)]
      exact .strict missing either mixed

theorem looseEquals_comm (a b : Value) : h.looseEquals a b = h.looseEquals b a := by
  by_cases missing : a.group = .nothing ∨ b.group = .nothing
  · rw [h.looseEquals_of_nothing missing, h.looseEquals_of_nothing missing.symm]
    exact decide_eq_decide.mpr and_comm
  · have swapped : (a.group = .bool ∨ b.group = .bool) ∨ Mixed a b ↔
        (b.group = .bool ∨ a.group = .bool) ∨ Mixed b a := or_congr or_comm mixed_comm
    rw [h.looseEquals_of_present missing, h.looseEquals_of_present (missing ∘ Or.symm), Number.eqv_comm,
      Value.strictEquals_comm]
    exact if_congr swapped rfl rfl

/-- Within one group nothing is converted to another one. -/
theorem looseEquals_eq_strictEquals (same : a.group = b.group) (present : a.group ≠ .nothing) :
    h.looseEquals a b = a.strictEquals b := by
  by_cases truth : a.group = .bool
  · -- Truth values become zero and one, and so stay apart.
    cases a <;> cases b <;> first | contradiction | skip
    next p q => cases p <;> cases q <;> rfl
  · have unmixed : ¬Mixed a b := by
      rintro (⟨left, right⟩ | ⟨left, right⟩) <;> rw [← same, left] at right <;> contradiction
    rw [h.looseEquals_of_present (by rw [← same, or_self]; exact present), if_neg]
    rw [← same, or_self]
    exact not_or.mpr ⟨truth, unmixed⟩

theorem looseEquals_of_strictEquals (same : a.strictEquals b = true) : h.looseEquals a b = true := by
  have group := Value.group_eq_of_strictEquals same
  by_cases missing : a.group = .nothing
  · rw [h.looseEquals_of_nothing (.inl missing), decide_eq_true_eq]
    exact ⟨missing, group.symm.trans missing⟩
  · rw [h.looseEquals_eq_strictEquals group missing, same]

/-- **The equalities of scripts are coherent.**  Their answers do not depend on the side on which an operand stands,
neither in an operator nor in a switch. -/
theorem coherent (h : Heap) (a b c : Value) :
    -- equality without conversion
    (a.strictEquals b = true ↔ ∃ k, a.identity? = some k ∧ b.identity? = some k) ∧
    a.strictEquals b = b.strictEquals a ∧
    (a.strictEquals b = true → b.strictEquals c = true → a.strictEquals c = true) ∧
    (a.strictEquals a = true ↔ ¬a.IsNaN) ∧
    -- equality with conversion
    (∀ r, h.Compared a b r ↔ r = h.looseEquals a b) ∧
    h.looseEquals a b = h.looseEquals b a ∧
    (a.strictEquals b = true → h.looseEquals a b = true) ∧
    (a.group = b.group → a.group ≠ .nothing → h.looseEquals a b = a.strictEquals b) ∧
    -- the operators
    h.binary "==" a b = .ok (.bool (h.looseEquals a b)) ∧ h.binary "!=" a b = .ok (.bool !h.looseEquals a b) ∧
    h.binary "===" a b = .ok (.bool (a.strictEquals b)) ∧ h.binary "!==" a b = .ok (.bool !a.strictEquals b) ∧
    -- the clauses of a switch
    ∀ (w : Script.World) (stack : Script.Stack) (clause : Node) (rest : List Node) (fallback : Option (List Node))
      (scope : Nat) (same : Bool),
      h.binary "===" a b = .ok (.bool same) ∨ h.binary "===" b a = .ok (.bool same) →
      w.onValue stack a (.switchTest b clause rest fallback scope) =
        if same then ⟨w, .complete .normal, .statements (Script.World.clausesStatements (clause :: rest)) scope :: stack⟩
        else w.testClauses stack b scope fallback rest := by
  have operator (x y : Value) : h.binary "===" x y = .ok (.bool (x.strictEquals y)) :=
    (h.binary_named rfl x y).trans rfl
  refine ⟨Value.strictEquals_iff, Value.strictEquals_comm a b, Value.strictEquals_trans, Value.strictEquals_self,
    fun _ => h.compared_iff, h.looseEquals_comm a b, h.looseEquals_of_strictEquals, h.looseEquals_eq_strictEquals,
    (h.binary_named rfl a b).trans rfl, (h.binary_named rfl a b).trans rfl, operator a b,
    (h.binary_named rfl a b).trans rfl, ?_⟩
  intro w stack clause rest fallback scope same tested
  have answer : b.strictEquals a = same := by
    rcases tested with tested | tested
    · rw [Value.strictEquals_comm]
      simpa [operator] using tested
    · simpa [operator] using tested
  rw [Script.World.onValue, answer]

/-- An integer and the float of the same value, on either side. -/
theorem coherent_one :
    (Value.ofFloat (Number.ofRatio false 1 1)).strictEquals (.ofInt 1) = true ∧
      ({} : Heap).looseEquals (.ofInt 1) (.ofFloat (Number.ofRatio false 1 1)) = true ∧
      ({} : Heap).Compared (.bool true) (.text "1") true := by
  have same : (Value.ofInt 1).strictEquals (.ofFloat (Number.ofRatio false 1 1)) = true := by
    rw [strictEquals_alike (.refl (.ofInt 1)) (.of_whole whole_one)]
    rfl
  obtain ⟨-, comm, -, -, -, -, implied, -⟩ := coherent {} (.ofInt 1) (.ofFloat (Number.ofRatio false 1 1)) .undefined
  obtain ⟨-, -, -, -, compared, -⟩ := coherent {} (.bool true) (.text "1") .undefined
  exact ⟨comm ▸ same, implied same, (compared true).mpr (by decide +kernel)⟩

end Heap

end ScopeExit
