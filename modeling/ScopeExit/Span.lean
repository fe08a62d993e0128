import ScopeExit.Text
/-!
Places in a source text.

Lines count from one, columns are bytes counted from zero, and the end of a span is exclusive.
-/
namespace ScopeExit

/-- A stretch of a source text. -/
structure Span where
  startLine : Int
  startCol : Int
  endLine : Int
  endCol : Int
  deriving DecidableEq

namespace Span

/-- The span of what has no place in a source text. -/
def unknown : Span := ⟨0, 0, 0, 0⟩

instance : Inhabited Span := ⟨unknown⟩

/-- No place in a source text. -/
def isUnknown (s : Span) : Bool := s == unknown

/-- A span as messages show it. -/
def render (s : Span) : Text :=
  if s.isUnknown then "<unknown>"
  else
    Text.concat [Text.ofInt s.startLine, ":", Text.ofInt s.startCol, "-",
      Text.ofInt s.endLine, ":", Text.ofInt s.endCol]

/-- What a message says about a place: nothing if it is unknown. -/
def suffix (s : Span) : Text :=
  if s.isUnknown then "" else Text.concat [" (at ", s.render, ")"]

end Span

end ScopeExit
