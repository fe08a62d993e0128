import ScopeExit.Failure
import ScopeExit.Number.Reading
/-!
Escape sequences of string and template literals.

A backslash and what follows it stand for one code point, or for nothing before a line break.  An
escape without a meaning of its own stands for what follows the backslash.
-/
namespace ScopeExit.Source

/-- The escapes of one letter. -/
def simpleEscape? : Char → Option Nat
  | 'n' => some 0x0A
  | 't' => some 0x09
  | 'r' => some 0x0D
  | 'b' => some 0x08
  | 'f' => some 0x0C
  | 'v' => some 0x0B
  | '0' => some 0x00
  | _ => none

/-- The code point of a hexadecimal number. -/
def hexCode (digits : Text) : Except Failure Text :=
  match Number.readHexInt? digits with
  | none => .error (.host .value)
  | some n =>
    if n < -Number.signBit || Number.signBit ≤ n then .error (.host .overflow)
    else if n < 0 then .error (.host .value)
    else
      match CodePoint.ofNat? n.toNat with
      | some c => .ok (Text.single c)
      | none => .error (.host .value)

/-- The digits of a `u` escape: in braces, or all that follows. -/
def unicodeDigits : List CodePoint → List CodePoint
  | c :: rest => if c.val = '\x7b'.toNat then rest.dropLast else c :: rest
  | [] => []

/-- The text that an escape sequence, backslash included, stands for. -/
def decodeEscape (t : Text) : Except Failure Text :=
  match t.codes.drop 1 with
  | [] => .ok .empty
  | head :: rest =>
    let c := if head.val < 0x80 then Char.ofNat head.val else '?'
    match rest, simpleEscape? c with
    | [], some n => .ok ⟨(CodePoint.ofNat? n).toList⟩
    | _, _ =>
      if c = 'x' && rest.length = 2 then hexCode ⟨rest⟩
      else if c = 'u' then hexCode ⟨unicodeDigits rest⟩
      else if c = '\r' || c = '\n' then .ok .empty
      else .ok ⟨head :: rest⟩

end ScopeExit.Source
