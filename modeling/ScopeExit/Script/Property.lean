import ScopeExit.Script.World
/-!
Names and properties of a running script.

A name is looked up from a scope outward.  The elements of arrays and texts are found by position, all
else by the text of the key; what is not there reads as `undefined`.
-/
namespace ScopeExit

/-- The name that a node holds. -/
def Node.name (n : Node) : Text := (n.value.inMessage).toOption.getD ""

namespace Script.World

/-! ### Names -/

/-- The name is bound nowhere. -/
def undefinedName (name : Text) : Failure :=
  .single (.script "ReferenceError" (Text.concat [name, " is not defined"]))

/-- The value of a name. -/
def lookup (w : World) (scope : Nat) (name : Text) : Except Failure Value :=
  match w.scopes.resolve? scope name with
  | none => .error (undefinedName name)
  | some owner => .ok ((w.scopes.binding? owner name).getD .undefined)

/-- The scope that binds a name which may be assigned. -/
def assignable (w : World) (scope : Nat) (name : Text) : Except Failure Nat :=
  match w.scopes.resolve? scope name with
  | none => .error (undefinedName name)
  | some owner =>
    if w.scopes.isConstant owner name then
      .error (.typeError "Assignment to constant variable.")
    else .ok owner

/-- Assigns to a name that is bound and not constant. -/
def assign (w : World) (scope : Nat) (name : Text) (value : Value) : Change Unit :=
  w.change (w.assignable scope name) fun w owner => ((), w.bind owner name value)

/-- The name of functions that have none. -/
def anonymous : Text := "<anonymous>"

/-- The name of the function that a node makes. -/
def functionName (node : Node) : Text :=
  match node.value with
  | .null => anonymous
  | _ => if node.name.isEmpty then anonymous else node.name

/-- A new function of a node, which remembers the scope. -/
def makeFunction (w : World) (node : Node) (scope : Nat) : Change Value :=
  match node.children with
  | [] => (.error (.host .index), w)
  | body :: _ =>
    let (v, heap) := w.heap.newClosure
      { name := functionName node, params := node.params, body, scope, isAsync := node.isAsync,
        isGenerator := node.isGenerator }
    (.ok v, { w with heap })

/-- Binds the functions among statements before the first of them runs.  A function without a body
ends it with a failure. -/
def hoist (w : World) (scope : Nat) : List Node → World × Option Failure
  | [] => (w, none)
  | s :: rest =>
    if s.kind = .function then
      match w.makeFunction s scope with
      | (.ok v, w) => (w.bind scope s.name v).hoist scope rest
      | (.error failure, w) => (w, some failure)
    else w.hoist scope rest

/-! ### Properties -/

/-- The text `name`, which is the only property of functions. -/
def isNameKey : Value → Bool
  | .text t => t == "name"
  | _ => false

/-- What a property holds: a value, or a built-in function that is made for the occasion. -/
inductive Member where
  | value (v : Value)
  | method (builtin : Builtin)

/-- A member of an array other than its elements. -/
def arrayMember (h : Heap) (ref : Nat) (name : Text) : Member :=
  if name == "length" then .value (.ofInt (h.elements ref).size)
  else if name == "push" then .method (.push ref)
  else if name == "join" then .method (.join ref)
  else .value .undefined

/-- A member of a text other than its characters. -/
def textMember (t name : Text) : Member :=
  .value (if name == "length" then .ofInt t.length else .undefined)

/-- A member of a generator. -/
def generatorMember (ref : Nat) (name : Text) : Member :=
  if name == "next" then .method (.resume ref .next)
  else if name == "return" then .method (.resume ref .return)
  else if name == "throw" then .method (.resume ref .throw)
  else .value .undefined

/-- The member of a value that a key means. -/
def member (h : Heap) (object key : Value) : Except Failure Member := do
  match object with
  | .undefined | .null =>
    throw (.typeError (Text.concat ["Cannot read properties of ", ← h.text object, " (reading '",
      ← h.text key, "')"]))
  | .array ref =>
    match ← key.position? with
    | some i => pure (.value ((h.elements ref).getD i .undefined))
    | none => pure (arrayMember h ref (← h.text key))
  | .text t =>
    match ← key.position? with
    | some i => pure (.value (((t.get? i).map Value.text).getD .undefined))
    | none => pure (textMember t (← h.text key))
  | .object ref => pure (.value ((h.property? ref (← h.text key)).getD .undefined))
  | .generator ref => pure (generatorMember ref (← h.text key))
  | .function ref =>
    pure (.value (if isNameKey key then .text (h.closure ref).name else .undefined))
  | .native n => pure (.value (if isNameKey key then .text n.builtin.name else .undefined))
  | _ => pure (.value .undefined)

/-- A built-in function made for the occasion. -/
def method (w : World) (builtin : Builtin) : Value × World :=
  let (v, heap) := w.heap.newNative builtin
  (v, { w with heap })

/-- Reads a property. -/
def getProperty (w : World) (object key : Value) : Change Value :=
  w.change (member w.heap object key) fun w m =>
    match m with
    | .value v => (v, w)
    | .method builtin => w.method builtin

/-- The elements of an array with a new one at a position; a gap before it is filled. -/
def putElement (items : Array Value) (i : Nat) (value : Value) : Array Value :=
  if i < items.size then items.setIfInBounds i value
  else (items ++ Array.replicate (i - items.size) Value.undefined).push value

/-- The most elements that an array may have. -/
def maxElements : Nat := 4294967295

/-- The position of an array of `size` elements that a key means for writing.  The number of missing
elements must be a machine word, and they must fit into memory. -/
def writtenPosition (w : World) (size : Nat) (key : Value) : Except Failure Nat := do
  match ← key.position? with
  | some i =>
    if i < maxElements then pure i
    else if i + 1 - size < Number.pow2 63 then throw (.host .memory)
    else throw (.host .overflow)
  | none =>
    throw (.typeError (Text.concat ["Cannot set array property '", ← w.heap.text key, "'"]))

/-- The failure of writing a property of what has none. -/
def refusedProperty (w : World) (object key : Value) : Except Failure Failure := do
  pure (.typeError (Text.concat ["Cannot set properties of ", ← w.heap.text object,
    " (setting '", ← w.heap.text key, "')"]))

/-- Writes a property. -/
def setProperty (w : World) (object key value : Value) : Change Unit :=
  match object with
  | .object ref =>
    w.change (w.heap.text key) fun w k => ((), { w with heap := w.heap.setProperty ref k value })
  | .array ref =>
    w.change (w.writtenPosition (w.heap.elements ref).size key) fun w i =>
      ((), { w with heap := w.heap.modifyElements ref fun items => putElement items i value })
  | _ =>
    match w.refusedProperty object key with
    | .ok failure | .error failure => (.error failure, w)

end Script.World

end ScopeExit
