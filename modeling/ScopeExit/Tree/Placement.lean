import ScopeExit.Tree.Transfers
/-!
The static check of a program: deferred actions and suspensions stand where they may.

An `await` needs an asynchronous function around it, or a module that allows it at its top level; a
`yield` needs a generator; no function is both.  A deferred action needs an asynchronous context if it
is asynchronous, must not be the whole body of a loop, must not contain another action without a
frame between them, and must not be left by a transfer of control.
-/
namespace ScopeExit.Node

/-- What the nearest enclosing function allows. -/
structure Context where
  isAsync : Bool
  isGenerator : Bool
  deriving DecidableEq

/-- A failure of the check at a node. -/
def misplaced {α : Type} (cause : PlacementError) (span : Span) : Except Failure α :=
  .error (.placement cause span)

/-- The statement that a loop repeats. -/
def repeated (kind : NodeKind) (children : List Node) : Except Failure Node :=
  match if kind = .doWhileLoop then children.head? else children.getLast? with
  | some body => .ok body
  | none => .error (.host .index)

/-- Statements that open a frame of their own. -/
def opensFrame (kind : NodeKind) : Bool :=
  kind.isLoop || kind.isFunction || kind == .block || kind == .switch

mutual

/-- A deferred action that is reached without entering a new frame. -/
def unframedDefer? : Node → Option Node
  | ⟨kind, value, label, params, children, a, g, l, span⟩ =>
    if kind = .defer then some ⟨kind, value, label, params, children, a, g, l, span⟩
    else if opensFrame kind then none
    else firstUnframedDefer? children

/-- The first such action of several subtrees. -/
def firstUnframedDefer? : List Node → Option Node
  | [] => none
  | n :: ns =>
    match unframedDefer? n with
    | some found => some found
    | none => firstUnframedDefer? ns

end

/-- The check of a deferred action by itself. -/
def checkDefer (context : Context) (isAsync : Bool) (span : Span) (children : List Node) :
    Except Failure Unit :=
  match children with
  | [] => .error (.host .index)
  | body :: _ =>
    if isAsync && !context.isAsync then misplaced .deferAwaitOutsideAsync span
    else
      match body.unframedDefer? with
      | some nested => misplaced .nestedDefer nested.span
      | none =>
        let transfers := body.escapingTransfers isAsync
        if transfers.isEmpty then .ok () else misplaced (.escapes transfers) span

/-- The check of a node that is no function, by itself. -/
def checkOwn (context : Context) (kind : NodeKind) (isAsync : Bool) (span : Span)
    (children : List Node) : Except Failure Unit :=
  if kind = .defer then checkDefer context isAsync span children
  else if kind.isLoop then do
    let body ← repeated kind children
    if body.kind = .defer then misplaced .unbracedLoopBody body.span
  else if kind = .await && !context.isAsync then misplaced .awaitOutsideAsync span
  else if kind = .yield && !context.isGenerator then misplaced .yieldOutsideGenerator span
  else .ok ()

mutual

/-- The deferred actions of a subtree in the order of the source, provided that all stands right. -/
def checked (context : Context) : Node → Except Failure (List Node)
  | ⟨kind, value, label, params, children, isAsync, isGenerator, l, span⟩ =>
    if kind.isFunction then
      if isAsync && isGenerator then misplaced .asyncGenerator span
      else do
        let inParams ← checkedAll ⟨isAsync, isGenerator⟩ params
        let inBody ← checkedAll ⟨isAsync, isGenerator⟩ children
        pure (inParams ++ inBody)
    else do
      checkOwn context kind isAsync span children
      let inside ← checkedAll context children
      pure (if kind = .defer then
        ⟨kind, value, label, params, children, isAsync, isGenerator, l, span⟩ :: inside else inside)

/-- The deferred actions of several subtrees. -/
def checkedAll (context : Context) : List Node → Except Failure (List Node)
  | [] => .ok []
  | n :: ns => do
    let first ← checked context n
    let rest ← checkedAll context ns
    pure (first ++ rest)

end

/-- The deferred actions of a program, or the first failure of the check. -/
def validate (program : Node) (allowTopLevelAwait : Bool) : Except Failure (List Node) :=
  checked ⟨allowTopLevelAwait, false⟩ program

end ScopeExit.Node
