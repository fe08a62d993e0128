import ScopeExit.Failure
/-!
Source texts and their concrete syntax trees.

A tree covers the bytes of the text: every node has a type, a stretch of bytes and, where it plays a
part in its parent, the name of that part.  Tokens that only separate others are nodes too, but not
named ones.
-/
namespace ScopeExit

/-- The supported languages. -/
inductive Language where
  | javascript | typescript
  deriving DecidableEq, Inhabited

/-- The name of a language. -/
def Language.name : Language → String
  | .javascript => "javascript"
  | .typescript => "typescript"

/-- The language of a name. -/
def Language.ofName? (s : String) : Option Language :=
  [Language.javascript, .typescript].find? fun l => l.name == s

/-- The language of a name, or the failure of asking for one that is not supported. -/
def Language.find (name : String) : Except Failure Language :=
  match Language.ofName? name with
  | some l => .ok l
  | none =>
    .error (.single (.host .value
      (some (Text.concat ["Unsupported language for deterministic frontend: ", name]))))

/-- A source text as bytes. -/
structure Source where
  bytes : ByteArray
  /-- Where the lines start. -/
  lineStarts : List Nat

namespace Source

/-- The places right after a line feed, from the given place on. -/
def startsAfter (bytes : List UInt8) (place : Nat) : List Nat :=
  match bytes with
  | [] => []
  | b :: rest =>
    if b = 10 then (place + 1) :: startsAfter rest (place + 1) else startsAfter rest (place + 1)

/-- The source of a string. -/
def ofString (s : String) : Source :=
  let bytes := s.toUTF8
  { bytes, lineStarts := 0 :: startsAfter bytes.toList 0 }

/-- The line of a byte, counted from one, and its column. -/
def position (source : Source) (place : Nat) : Nat × Nat :=
  go source.lineStarts 0 0
where
  /-- Walks over the starts of lines up to the place. -/
  go : List Nat → Nat → Nat → Nat × Nat
    | [], line, start => (line, place - start)
    | s :: rest, line, start => if s ≤ place then go rest (line + 1) s else (line, place - start)

/-- The span of a stretch of bytes. -/
def span (source : Source) (start stop : Nat) : Span :=
  let (startLine, startCol) := source.position start
  let (endLine, endCol) := source.position stop
  ⟨startLine, startCol, endLine, endCol⟩

/-- The text of a stretch of bytes; none if it cuts a character. -/
def text? (source : Source) (start stop : Nat) : Option Text :=
  (String.fromUTF8? (source.bytes.extract start stop)).map Text.ofString

/-- The number of bytes. -/
def size (source : Source) : Nat := source.bytes.size

end Source

/-- A node of a concrete syntax tree. -/
structure SourceNode where
  type : String
  isNamed : Bool := true
  /-- The part that the node plays in its parent. -/
  field : Option String := none
  /-- The first byte. -/
  start : Nat
  /-- The byte after the last one. -/
  stop : Nat
  children : List SourceNode := []
  deriving Inhabited

namespace SourceNode

mutual

/-- The number of nodes on the longest path downward. -/
def height : SourceNode → Nat
  | ⟨_, _, _, _, _, children⟩ => heightOfAll children + 1

/-- The greatest height of several trees. -/
def heightOfAll : List SourceNode → Nat
  | [] => 0
  | n :: ns => max (height n) (heightOfAll ns)

end

/-- The first child that plays a part. -/
def part? (n : SourceNode) (field : String) : Option SourceNode :=
  n.children.find? fun c => c.field == some field

/-- All children that play a part. -/
def parts (n : SourceNode) (field : String) : List SourceNode :=
  n.children.filter fun c => c.field == some field

/-- A comment. -/
def isComment (n : SourceNode) : Bool := n.type == "comment"

/-- The named children without the comments. -/
def named (n : SourceNode) : List SourceNode :=
  n.children.filter fun c => c.isNamed && !c.isComment

/-- A child of the given type exists. -/
def hasToken (n : SourceNode) (type : String) : Bool := n.children.any fun c => c.type == type

end SourceNode

end ScopeExit
