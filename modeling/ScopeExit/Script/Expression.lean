import ScopeExit.Script.Statement
import ScopeExit.Value.Operator
/-!
The first step of every expression, and the use of the places that expressions assign to.

Operands are evaluated from left to right; the frame that waits for one knows the operands after it.
-/
namespace ScopeExit.Script.World

variable (w : World) (stack : Stack)

/-! ### Lists of operands -/

/-- Evaluates the parts of a template, or joins the texts that they have given. -/
def template (before : List Text) (rest : List Node) (scope : Nat) : Running :=
  match rest with
  | [] => ⟨w, .value (.text (Text.concat before.reverse)), stack⟩
  | part :: rest => ⟨w, .evaluate part scope, .templatePart before rest scope :: stack⟩

/-- Evaluates the arguments of a call, or calls. -/
def arguments (callee : Callee) (before : List Value) (rest : List Node) (scope : Nat) : Running :=
  match rest with
  | [] => w.call stack callee before.reverse
  | a :: rest => ⟨w, .evaluate a scope, .argument callee before rest scope :: stack⟩

/-- Evaluates the arguments of a constructor, or constructs. -/
def newArguments (constructor : Value) (before : List Value) (rest : List Node) (scope : Nat) :
    Running :=
  match rest with
  | [] => w.construct stack constructor before.reverse
  | a :: rest => ⟨w, .evaluate a scope, .newArgument constructor before rest scope :: stack⟩

/-- Evaluates the elements of an array, or makes the array. -/
def elements (before : List Value) (rest : List Node) (scope : Nat) : Running :=
  match rest with
  | [] =>
    let (v, heap) := w.heap.newArray before.reverse.toArray
    ⟨{ w with heap }, .value v, stack⟩
  | e :: rest => ⟨w, .evaluate e scope, .arrayElement before rest scope :: stack⟩

/-- Evaluates the properties of an object that is there already. -/
def properties (ref : Nat) (rest : List Node) (scope : Nat) : Running :=
  match rest with
  | [] => ⟨w, .value (.object ref), stack⟩
  | p :: rest =>
    w.evaluateChild (.objectProperty ref p.name rest scope :: stack) p 0 scope

/-- Evaluates the elements of a sequence; the last one counts. -/
def sequence (rest : List Node) (scope : Nat) (value : Value) : Running :=
  match rest with
  | [] => ⟨w, .value value, stack⟩
  | e :: rest => ⟨w, .evaluate e scope, .sequenceElement rest scope :: stack⟩

/-! ### Places -/

/-- What a place holds. -/
def readPlace (place : Place) : Change Value :=
  match place with
  | .name name scope => (w.lookup scope name, w)
  | .property object key => w.getProperty object key

/-- Puts a value into a place. -/
def writePlace (place : Place) (value : Value) : Change Unit :=
  match place with
  | .name name scope => w.assign scope name value
  | .property object key => w.setProperty object key value

/-- Puts a value into a place and gives a result. -/
def store (place : Place) (value result : Value) : Running :=
  perform stack (w.writePlace place value) fun w _ => ⟨w, .value result, stack⟩

/-- Adds one to a place or takes one away, and gives the value after it or before it. -/
def update (place : Place) (op : Text) (isLeading : Bool) : Running :=
  perform stack (w.readPlace place) fun w v =>
    let before := Value.number (w.heap.number v)
    w.attempt stack (w.heap.binary (if op == "++" then "+" else "-") before (.ofInt 1)) fun w after =>
      w.store stack place after (if isLeading then after else before)

/-- The assignments that keep what a place holds if it already decides the result. -/
def keepsCurrent? (op : Text) (current : Value) : Option (Conversion Bool) :=
  if op == "&&=" then some (current.truthy.map (!·))
  else if op == "||=" then some current.truthy
  else if op == "??=" then some (.ok !current.isNullish)
  else none

/-- Assigns to a place. -/
def assignTo (place : Place) (op : Option Text) (right : Node) (scope : Nat) : Running :=
  let evaluateRight (w : World) (frame : Frame) : Running :=
    ⟨w, .evaluate right scope, frame :: stack⟩
  if op == some (Text.ofString "=") then evaluateRight w (.assignValue place)
  else
    perform stack (w.readPlace place) fun w current =>
      match op.bind fun op => keepsCurrent? op current with
      | some keeps =>
        w.attempt stack keeps fun w keeps =>
          if keeps then ⟨w, .value current, stack⟩ else evaluateRight w (.assignValue place)
      | none => evaluateRight w (.assignCombined place op current)

/-- Combines the old value of a place with an operand, by the operator in front of the equals sign,
and puts the result there. -/
def assignCombined (place : Place) (op : Option Text) (current operand : Value) : Running :=
  match op with
  | none => ⟨w, .raise (.host .type), stack⟩
  | some op =>
    w.attempt stack (w.heap.binary ⟨op.codes.dropLast⟩ current operand) fun w v =>
      w.store stack place v v

/-- Does what there is to do with a place. -/
def usePlace (place : Place) (use : PlaceUse) : Running :=
  match use with
  | .update op isLeading => w.update stack place op isLeading
  | .assign op right scope => w.assignTo stack place op right scope

/-- The key of a member expression. -/
def memberKey (node : Node) : Value × World :=
  let (v, heap) := w.heap.load node.value
  (v, { w with heap })

/-- Finds the place that an expression denotes. -/
def findPlace (target : Node) (scope : Nat) (use : PlaceUse) : Running :=
  if target.kind = .identifier then w.usePlace stack (.name target.name scope) use
  else w.evaluateChild (.placeObject target scope use :: stack) target 0 scope

/-- Finds the place in an object. -/
def findPlaceIn (object : Value) (target : Node) (scope : Nat) (use : PlaceUse) : Running :=
  if target.kind = .member then
    let (key, w) := w.memberKey target
    w.usePlace stack (.property object key) use
  else w.evaluateChild (.placeKey object use :: stack) target 1 scope

/-! ### Callees -/

/-- Looks up a method and goes on with the arguments of its call. -/
def callMethod (object key : Value) (rest : List Node) (scope : Nat) : Running :=
  perform stack (w.getProperty object key) fun w function =>
    w.attempt stack (w.heap.text key) fun w name =>
      w.arguments stack { function, name } [] rest scope

/-- Finds the callee of a call. -/
def findCallee (callee : Node) (rest : List Node) (scope : Nat) : Running :=
  match callee.kind with
  | .member | .index =>
    w.evaluateChild (.calleeObject callee rest scope :: stack) callee 0 scope
  | kind =>
    let name := if kind = .identifier then callee.name else "expression"
    ⟨w, .evaluate callee scope, .calleeValue name rest scope :: stack⟩

/-- Finds the method of an object. -/
def findMethod (object : Value) (callee : Node) (rest : List Node) (scope : Nat) : Running :=
  if callee.kind = .member then
    let (key, w) := w.memberKey callee
    w.callMethod stack object key rest scope
  else w.evaluateChild (.calleeKey object rest scope :: stack) callee 1 scope

/-- Reads a property of an object. -/
def read (object key : Value) : Running :=
  perform stack (w.getProperty object key) fun w v => ⟨w, .value v, stack⟩

/-! ### Operators -/

/-- A logical operator whose left operand is known. -/
def logical (op : Text) (left : Value) (right : Option Node) (scope : Nat) : Running :=
  let decided : Conversion Bool :=
    if op == "&&" then left.truthy.map (!·)
    else if op == "||" then left.truthy
    else if op == "??" then .ok !left.isNullish
    else .ok false
  w.attempt stack decided fun w decided =>
    if decided then ⟨w, .value left, stack⟩
    else
      match right with
      | some right => ⟨w, .evaluate right scope, stack⟩
      | none => ⟨w, .raise (.host .index), stack⟩

/-- Starts a unary operator.  The kind of a name that is bound nowhere is known without a value. -/
def unary (node : Node) (scope : Nat) : Running :=
  match node.children with
  | [] => ⟨w, .raise (.host .index), stack⟩
  | operand :: _ =>
    if node.name == "typeof" && operand.kind = .identifier &&
        (w.scopes.resolve? scope operand.name).isNone then
      ⟨w, .value (.text "undefined"), stack⟩
    else if node.name == "delete" then ⟨w, .raise (.typeError "delete is not supported"), stack⟩
    else ⟨w, .evaluate operand scope, .unaryOperand node.name :: stack⟩

/-- The text that an operator is, if it is one. -/
def operatorText (node : Node) : Option Text :=
  match node.value with
  | .text t => some t
  | _ => none

/-- Starts an expression. -/
def evaluate (node : Node) (scope : Nat) : Running :=
  match node.kind with
  | .literal =>
    let (v, heap) := w.heap.load node.value
    ⟨{ w with heap }, .value v, stack⟩
  | .identifier => w.attempt stack (w.lookup scope node.name) fun w v => ⟨w, .value v, stack⟩
  | .functionExpression => perform stack (w.makeFunction node scope) fun w v => ⟨w, .value v, stack⟩
  | .template => w.template stack [] node.children scope
  | .binary =>
    match node.children with
    | left :: rest =>
      ⟨w, .evaluate left scope, .binaryLeft node.name rest.head? scope :: stack⟩
    | [] => ⟨w, .raise (.host .index), stack⟩
  | .logical =>
    w.evaluateChild (.logicalLeft node.name node.children[1]? scope :: stack) node 0 scope
  | .unary => w.unary stack node scope
  | .update =>
    match node.children with
    | target :: _ => w.findPlace stack target scope (.update node.name node.isLeading)
    | [] => ⟨w, .raise (.host .index), stack⟩
  | .assign =>
    match node.children with
    | [target, right] => w.findPlace stack target scope (.assign (operatorText node) right scope)
    | _ => ⟨w, .raise (.host .value), stack⟩
  | .call =>
    match node.children with
    | callee :: rest => w.findCallee stack callee rest scope
    | [] => ⟨w, .raise (.host .index), stack⟩
  | .member =>
    let (key, w) := w.memberKey node
    w.evaluateChild (.memberObject key :: stack) node 0 scope
  | .index => w.evaluateChild (.indexObject node.children[1]? scope :: stack) node 0 scope
  | .array => w.elements stack [] node.children scope
  | .object =>
    let (v, heap) := w.heap.newObject {}
    match v with
    | .object ref => { w with heap }.properties stack ref node.children scope
    | v => ⟨{ w with heap }, .value v, stack⟩
  | .new =>
    match node.children with
    | callee :: rest => ⟨w, .evaluate callee scope, .newCallee rest scope :: stack⟩
    | [] => ⟨w, .raise (.host .index), stack⟩
  | .await => w.evaluateChild (.awaitOperand :: stack) node 0 scope
  | .yield =>
    match node.child? 0 with
    | some operand => ⟨w, .evaluate operand scope, .yieldOperand :: stack⟩
    | none => ⟨w, .suspend (.yield .undefined), stack⟩
  | .conditional => w.evaluateChild (.conditionalTest node scope :: stack) node 0 scope
  | .sequence => w.sequence stack node.children scope .undefined
  | kind => ⟨w, .raise (.evaluator (.unhandledExpression kind)), stack⟩

end ScopeExit.Script.World
