import ScopeExit.Value
import ScopeExit.Tree.Node
/-!
The heap: the content of arrays, objects, functions and generators.

Places are handed out in order and never taken back, so a reference that exists stays good.  Values
come in from outside as data (`Heap.load`) and are shown to the outside as data (`Heap.picture`).
-/
namespace ScopeExit

/-- An object: its class and its properties in the order of their creation. -/
structure ObjectCell where
  className : Text := "Object"
  properties : List (Text × Value) := []
  deriving Inhabited

/-- A script function with the scope that it was made in. -/
structure Closure where
  name : Text
  params : List Node := []
  body : Node := .emptyNode
  scope : Nat := 0
  isAsync : Bool := false
  isGenerator : Bool := false
  deriving Inhabited

/-! ### Properties -/

/-- The value of a key. -/
def lookupKey (key : Text) : List (Text × Value) → Option Value
  | [] => none
  | (k, v) :: rest => if k = key then some v else lookupKey key rest

/-- The entries with a new value for a key; a new key comes last. -/
def insertKey (key : Text) (value : Value) : List (Text × Value) → List (Text × Value)
  | [] => [(key, value)]
  | (k, v) :: rest => if k = key then (k, value) :: rest else (k, v) :: insertKey key value rest

theorem lookupKey_insertKey_self (key : Text) (value : Value) (entries : List (Text × Value)) :
    lookupKey key (insertKey key value entries) = some value := by
  induction entries with
  | nil => simp [insertKey, lookupKey]
  | cons e rest ih =>
    obtain ⟨k, v⟩ := e
    by_cases h : k = key <;> simp [insertKey, lookupKey, h, ih]

theorem lookupKey_insertKey_of_ne {key other : Text} (h : other ≠ key) (value : Value)
    (entries : List (Text × Value)) :
    lookupKey other (insertKey key value entries) = lookupKey other entries := by
  induction entries with
  | nil => simp [insertKey, lookupKey, Ne.symm h]
  | cons e rest ih =>
    obtain ⟨k, v⟩ := e
    by_cases hk : k = key
    · subst hk; simp [insertKey, lookupKey, Ne.symm h]
    · by_cases ho : k = other
      · subst ho; simp [insertKey, lookupKey, hk]
      · simp [insertKey, lookupKey, hk, ho, ih]

/-- The content of all places. -/
structure Heap where
  arrays : Array (Array Value) := #[]
  objects : Array ObjectCell := #[]
  closures : Array Closure := #[]
  /-- The names of generators. -/
  generators : Array Text := #[]
  /-- The identity of the next built-in function. -/
  nextNative : Nat := 0
  /-- Objects that have come in under a name. -/
  named : List (Nat × Value) := []
  deriving Inhabited

namespace Heap

/-! ### Places -/

/-- The elements of an array. -/
def elements (h : Heap) (ref : Nat) : Array Value := h.arrays.getD ref #[]

/-- The content of an object. -/
def object (h : Heap) (ref : Nat) : ObjectCell := h.objects.getD ref {}

/-- A function.  A place that was never handed out holds one that does nothing. -/
def closure (h : Heap) (ref : Nat) : Closure :=
  h.closures.getD ref { name := "", body := { kind := .literal } }

/-- The name of a generator. -/
def generatorName (h : Heap) (ref : Nat) : Text := h.generators.getD ref ""

/-- A new array. -/
def newArray (h : Heap) (items : Array Value) : Value × Heap :=
  (.array h.arrays.size, { h with arrays := h.arrays.push items })

/-- A new object. -/
def newObject (h : Heap) (cell : ObjectCell) : Value × Heap :=
  (.object h.objects.size, { h with objects := h.objects.push cell })

/-- A new function. -/
def newClosure (h : Heap) (c : Closure) : Value × Heap :=
  (.function h.closures.size, { h with closures := h.closures.push c })

/-- A new generator. -/
def newGenerator (h : Heap) (name : Text) : Nat × Heap :=
  (h.generators.size, { h with generators := h.generators.push name })

/-- A new built-in function. -/
def newNative (h : Heap) (builtin : Builtin) : Value × Heap :=
  (.native ⟨h.nextNative, builtin⟩, { h with nextNative := h.nextNative + 1 })

/-- An array with other elements. -/
def modifyElements (h : Heap) (ref : Nat) (f : Array Value → Array Value) : Heap :=
  { h with arrays := h.arrays.modify ref f }

/-- An object with a new value for a property. -/
def setProperty (h : Heap) (ref : Nat) (key : Text) (value : Value) : Heap :=
  { h with objects :=
      h.objects.modify ref fun o => { o with properties := insertKey key value o.properties } }

/-- The value of a property. -/
def property? (h : Heap) (ref : Nat) (key : Text) : Option Value :=
  lookupKey key (h.object ref).properties

/-- A new error object. -/
def newError (h : Heap) (className message : Text) : Value × Heap :=
  h.newObject { className, properties := [("name", .text className), ("message", .text message)] }

/-- A new error object that suppresses another. -/
def newSuppressed (h : Heap) (error suppressed : Value) (message : Text) : Value × Heap :=
  h.newObject
    { className := suppressedErrorName
      properties := [("name", .text suppressedErrorName), ("message", .text message),
        ("error", error), ("suppressed", suppressed)] }

/-! ### Data going in -/

mutual

/-- The value of data.  Data with a name is loaded once. -/
def load : Datum → Heap → Value × Heap
  | .null, h => (.null, h)
  | .undefined, h => (.undefined, h)
  | .bool b, h => (.bool b, h)
  | .number n, h => (.number n, h)
  | .text t, h => (.text t, h)
  | .array items, h =>
    let (vs, h) := loadAll items h
    h.newArray vs.toArray
  | .object className properties, h =>
    let (es, h) := loadEntries properties h
    h.newObject { className, properties := es.foldl (fun acc e => insertKey e.1 e.2 acc) [] }
  | .function name _ isAsync isGenerator, h => h.newClosure { name, isAsync, isGenerator }
  | .native name, h => h.newNative (.named name)
  | .generator name, h =>
    let (ref, h) := h.newGenerator name
    (.generator ref, h)
  | .promise, h => (.null, h)
  | .cycle _, h => (.null, h)
  | .named key d, h =>
    match h.named.lookup key with
    | some v => (v, h)
    | none =>
      let (v, h) := load d h
      (v, { h with named := (key, v) :: h.named })

/-- The values of several data, from left to right. -/
def loadAll : List Datum → Heap → List Value × Heap
  | [], h => ([], h)
  | d :: ds, h =>
    let (v, h) := load d h
    let (vs, h) := loadAll ds h
    (v :: vs, h)

/-- The properties of an object, from left to right. -/
def loadEntries : List (Text × Datum) → Heap → List (Text × Value) × Heap
  | [], h => ([], h)
  | (k, d) :: ds, h =>
    let (v, h) := load d h
    let (vs, h) := loadEntries ds h
    ((k, v) :: vs, h)

end

/-! ### Values going out -/

/-- An array or an object that is open on the path from the root. -/
inductive Place where
  | array (ref : Nat)
  | object (ref : Nat)
  deriving DecidableEq

/-- More steps than any path without repetition has. -/
def pathBound (h : Heap) : Nat := h.arrays.size + h.objects.size + 1

/-- A value as data, below the places that are open. -/
def pictureBelow (h : Heap) : Nat → List Place → Value → Datum
  | _, _, .undefined => .undefined
  | _, _, .null => .null
  | _, _, .bool b => .bool b
  | _, _, .number n => .number n
  | _, _, .text t => .text t
  | _, _, .function ref =>
    let c := h.closure ref
    .function c.name (c.params.map Node.value) c.isAsync c.isGenerator
  | _, _, .native n => .native n.builtin.name
  | _, _, .generator ref => .generator (h.generatorName ref)
  | _, _, .promise _ => .promise
  | 0, _, .array _ => .cycle true
  | 0, _, .object _ => .cycle false
  | fuel + 1, above, .array ref =>
    if above.contains (.array ref) then .cycle true
    else .array ((h.elements ref).toList.map (pictureBelow h fuel (.array ref :: above)))
  | fuel + 1, above, .object ref =>
    if above.contains (.object ref) then .cycle false
    else
      let o := h.object ref
      .object o.className
        (o.properties.map fun (k, v) => (k, pictureBelow h fuel (.object ref :: above) v))

/-- A value as data. -/
def picture (h : Heap) (v : Value) : Datum := h.pictureBelow h.pathBound [] v

end Heap

end ScopeExit
