import ScopeExit.Tree.Node
/-!
Program trees as listings: one line per node, indented by two spaces for every level.

Parameters have no lines of their own; their names stand on the line of the function.  Texts are
quoted, so no text breaks a line.
-/
namespace ScopeExit.Node

/-- The parameters on the line of a function. -/
def paramsText (params : List Node) : Except NumberError (List Text) :=
  if params.isEmpty then .ok []
  else do
    let names ← params.mapM fun p => p.value.inMessage
    pure [Text.concat ["(", Text.join ", " names, ")"]]

/-- The line of a node. -/
def line (n : Node) : Except NumberError Text := do
  let flags := (if n.isAsync then [Text.ofString "async"] else []) ++
    (if n.isGenerator then [Text.ofString "generator"] else [])
  let value ← if n.value.isNull then pure [] else do pure [← n.value.listing]
  let label := match n.label with
    | some l => if l.isEmpty then [] else [Text.ofString "@" ++ l]
    | none => []
  let params ← paramsText n.params
  let base := Text.join " " (Text.ofString n.kind.listingName :: (flags ++ value ++ label ++ params))
  pure (if n.span.isUnknown then base else Text.concat [base, "  # ", n.span.render])

/-- The indentation of a level. -/
def indentation (level : Nat) : Text := Text.ofChars (List.replicate (2 * level) ' ')

mutual

/-- The lines of a subtree, in the order of the source. -/
def lines : Nat → Node → Except NumberError (List Text)
  | level, ⟨kind, value, label, params, children, a, g, l, span⟩ => do
    let first ← line ⟨kind, value, label, params, children, a, g, l, span⟩
    pure ((indentation level ++ first) :: (← linesOfAll (level + 1) children))

/-- The lines of several subtrees of one level. -/
def linesOfAll : Nat → List Node → Except NumberError (List Text)
  | _, [] => .ok []
  | level, n :: ns => do
    let first ← lines level n
    pure (first ++ (← linesOfAll level ns))

end

/-- The listing of a subtree whose root stands on the given level. -/
def dump (n : Node) (level : Nat := 0) : Except NumberError Text := do
  pure (Text.join "\n" (← lines level n))

end ScopeExit.Node
