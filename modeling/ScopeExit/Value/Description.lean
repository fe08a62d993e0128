import ScopeExit.ExitReason
import ScopeExit.Value.Conversion
/-!
How values, failures and exit reasons are described, and how a failure becomes a value.
-/
namespace ScopeExit

namespace Heap

/-- A value as listings show it. -/
def listing (h : Heap) (v : Value) : Conversion Text := ofNumeric (h.picture v).listing

/-- A value inside a message. -/
def inMessage (h : Heap) (v : Value) : Conversion Text := ofNumeric (h.picture v).inMessage

/-- A thrown value in one line: an object with a message is described by its name and message. -/
def describe (h : Heap) (v : Value) : Conversion Text :=
  match v with
  | .object ref =>
    match h.property? ref "message" with
    | some message => do
      let name := (h.property? ref "name").getD (.text (h.object ref).className)
      pure (Text.concat [← h.inMessage name, ": ", ← h.inMessage message])
    | none => h.listing v
  | .text t => .ok t
  | _ => h.listing v

/-- The failure of throwing a value.  A value without a description cannot be thrown. -/
def thrown (h : Heap) (v : Value) : Failure :=
  match h.describe v with
  | .ok _ => .single (.thrown v)
  | .error failure => failure

/-- The class and the wording of a fault in listings. -/
def faultListing (h : Heap) : Fault → Conversion Text
  | .thrown v => do pure (call "JSThrow" (← h.describe v))
  | .script name message => .ok (call "JSRuntimeError" (Text.concat [name, ": ", message]))
  | .contract error => .ok (call error.kind.name error.message)
  | .host kind message => .ok (call kind.name (message.getD ""))
  | .forcedReturn v => do pure (Text.concat ["ForcedReturn(", ← h.listing v, ")"])
  | .closing message => .ok (call "GeneratorExit" message)
  | .fatal message => .ok (call "BaseError" message)
where
  /-- A class with a quoted text. -/
  call (className message : Text) : Text := Text.concat [className, "(", message.quoted, ")"]

/-- A failure as listings show it. -/
def failureListing (h : Heap) : Failure → Conversion Text
  | .single fault => h.faultListing fault
  | .suppressing message _ _ => .ok (Text.concat ["SuppressedError(", message.quoted, ")"])

/-- An exit reason in one line. -/
def describeExit (h : Heap) : ExitReason → Conversion Text
  | .throwing (some failure) => do pure (Text.concat ["throw(", ← h.failureListing failure, ")"])
  | .throwing none => .ok "throw(None)"
  | .returning v => do pure (Text.concat ["return(", ← h.listing v, ")"])
  | reason =>
    match reason.label? with
    | some label =>
      .ok (if label.isEmpty then reason.kind.name
        else Text.concat [reason.kind.name, "(", label, ")"])
    | none => .ok reason.kind.name

/-- The wording of a fault that is no error of a script. -/
def faultMessage (h : Heap) : Fault → Text
  | .thrown v => (h.describe v).toOption.getD ""
  | .script name message => Text.concat [name, ": ", message]
  | .contract error => error.message
  | .host .key (some message) => message.quoted
  | .host _ message => message.getD ""
  | .forcedReturn v => (h.inMessage v).toOption.getD ""
  | .closing message | .fatal message => message

/-- The value that a script sees of a failure: the thrown value, or an error object. -/
def failureValue (h : Heap) : Failure → Value × Heap
  | .single (.thrown v) => (v, h)
  | .single (.script name message) => h.newError name message
  | .single fault => h.newError "Error" (h.faultMessage fault)
  | .suppressing message error suppressed =>
    let (error, h) := h.failureValue error
    let (suppressed, h) := h.failureValue suppressed
    h.newSuppressed error suppressed message

end Heap

/-- The position of an array that a key denotes: an integral number that is not negative, or a text
of digits.  A text of digits that have no decimal value denotes nothing that can be looked up. -/
def Value.position? : Value → Conversion (Option Nat)
  | .number n => do
    match (← ofNumeric n.rounded).toInt? with
    | none => pure none
    | some _ =>
      match n.exact.toInt? with
      | some i => pure (if 0 ≤ i then some i.toNat else none)
      | none => pure none
  | .text t =>
    if t.isDigits then
      match Number.readDecimalInt? t with
      | some i => .ok (some i.toNat)
      | none => .error (.host .value)
    else .ok none
  | _ => .ok none

end ScopeExit
