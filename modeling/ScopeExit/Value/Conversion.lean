import ScopeExit.Failure
import ScopeExit.Heap
import ScopeExit.Number.Arithmetic
import ScopeExit.Number.Literal
/-!
Conversions of script values: to texts, numbers and truth values.

A conversion may fail: numbers have limits, and an array or an error that contains itself has no
text.
-/
namespace ScopeExit

/-- A conversion that may fail. -/
abbrev Conversion (α : Type) := Except Failure α

/-- The result of a numeric operation, or the failure that its absence means. -/
def ofNumeric {α : Type} : Except NumberError α → Conversion α
  | .ok x => .ok x
  | .error e => .error (.ofNumberError e)

/-- The ending of the names of error classes. -/
def errorSuffix : Text := "Error"

namespace ObjectCell

/-- Objects of a class whose name says so are errors. -/
def isError (o : ObjectCell) : Bool := o.className.endsWith errorSuffix

end ObjectCell

namespace Heap

/-- An error object. -/
def isError (h : Heap) : Value → Bool
  | .object ref => (h.object ref).isError
  | _ => false

/-- The text of a value.  Running out of steps means that the value contains itself. -/
def textWithin (h : Heap) : Nat → Value → Conversion Text
  | _, .text t => .ok t
  | _, .undefined => .ok "undefined"
  | _, .null => .ok "null"
  | _, .bool b => .ok (if b then "true" else "false")
  | _, .number n => ofNumeric n.render
  | _, .function ref =>
    .ok (Text.concat ["function ", (h.closure ref).name, "() \x7b [code] \x7d"])
  | _, .native n => .ok (Text.concat ["function ", n.builtin.name, "() \x7b [code] \x7d"])
  | _, .promise _ => .ok "[object Promise]"
  | _, .generator _ => .ok "[object Generator]"
  | 0, .array _ => .error (.host .recursion)
  | 0, .object _ => .error (.host .recursion)
  | fuel + 1, .array ref => do
    let texts ← (h.elements ref).toList.mapM fun v =>
      if v.isNullish then pure Text.empty else textWithin h fuel v
    pure (Text.join "," texts)
  | fuel + 1, .object ref =>
    let o := h.object ref
    if o.isError then do
      let name ← textWithin h fuel ((lookupKey "name" o.properties).getD (.text o.className))
      let message ← textWithin h fuel ((lookupKey "message" o.properties).getD (.text ""))
      pure (if message.isEmpty then name else Text.concat [name, ": ", message])
    else .ok "[object Object]"

/-- The text of a value. -/
def text (h : Heap) (v : Value) : Conversion Text := h.textWithin h.pathBound v

/-- The text of an element of an array inside the text of the array. -/
def elementText (h : Heap) (v : Value) : Conversion Text :=
  if v.isNullish then pure Text.empty else h.text v

/-- The elements of an array joined by a separator. -/
def joined (h : Heap) (sep : Text) (ref : Nat) : Conversion Text := do
  let texts ← (h.elements ref).toList.mapM h.elementText
  pure (Text.join sep texts)

end Heap

/-- The number that a text stands for; no number if it is no numeral, zero if it is blank. -/
def Text.toNumber (t : Text) : Number :=
  let t := t.strip
  if t.isEmpty then .int 0
  else
    match t.codes with
    | z :: l :: _ =>
      if z.val = '0'.toNat && l.val < 0x80 && (Number.baseOfLetter? (Char.ofNat l.val)).isSome then
        match Number.readInt? t with
        | some n => .int n
        | none => .float Number.notANumber
      else floatOrNaN t
    | _ => floatOrNaN t
where
  /-- The number of a decimal numeral. -/
  floatOrNaN (t : Text) : Number :=
    match Number.readFloat? t with
    | some x => Number.normalize (.float x)
    | none => .float Number.notANumber

namespace Heap

/-- The number of a value. -/
def number (h : Heap) : Value → Number
  | .bool b => .int (if b then 1 else 0)
  | .number n => n
  | .null => .int 0
  | .text t => t.toNumber
  | .array ref => if (h.elements ref).isEmpty then .int 0 else .float Number.notANumber
  | _ => .float Number.notANumber

end Heap

namespace Value

/-- The truth of a value: no value, zero, what is no number and the empty text are false. -/
def truthy : Value → Conversion Bool
  | .undefined | .null => .ok false
  | .bool b => .ok b
  | .number n => if n.isZero then .ok false else ofNumeric (n.isNaN.map (!·))
  | .text t => .ok !t.isEmpty
  | _ => .ok true

end Value

end ScopeExit
