import ScopeExit.Source.Concrete
/-!
The arguments of the command line.

An argument is an operand, a switch, or the separator after which all are operands.  A switch with
two dashes may be cut short as long as no other one starts the same way; switches with one dash may
be joined.  A value stands behind an equals sign, right behind a letter, or in the next argument.

The arguments are read from left to right, so asking for help wins over everything that is wrong
behind it.
-/
namespace ScopeExit.CommandLine

/-- The switches. -/
inductive Switch where
  | help | language | listOnly | checkOnly | noTopLevelAwait | trace | verbose
  deriving DecidableEq

/-- The long spellings of switches. -/
def longSwitches : List (String × Switch) := [
  ("--help", .help), ("--language", .language), ("--ir-only", .listOnly),
  ("--check-only", .checkOnly), ("--no-top-level-await", .noTopLevelAwait), ("--trace", .trace),
  ("--verbose", .verbose)]

/-- The letters of switches. -/
def shortSwitches : List (Char × Switch) := [('h', .help), ('l', .language), ('v', .verbose)]

/-- The switch of a letter. -/
def shortSwitch? (c : Char) : Option Switch := shortSwitches.lookup c

/-- A switch that needs a value. -/
def Switch.takesValue (s : Switch) : Bool := s == .language

/-- What an argument is. -/
inductive Argument where
  | operand (text : String)
  /-- Two dashes alone: no switch follows. -/
  | separator
  /-- A switch with what is attached to it. -/
  | switch (switch : Switch) (isLong : Bool) (attached : Option (List Char))
  | unknown
  /-- A spelling that fits several switches. -/
  | ambiguous

/-- The text before the first equals sign, and what follows the sign. -/
def splitAtEquals (chars : List Char) : List Char × Option (List Char) :=
  let (before, rest) := chars.span (· != '=')
  (before, match rest with
    | _ :: value => some value
    | [] => none)

/-- A decimal digit of any script. -/
def isDecimalDigit (c : Char) : Bool := (CodePoint.ofChar c).decimalValue?.isSome

/-- Nothing, or the end of the only line. -/
def isLineEnd (chars : List Char) : Bool := chars == [] || chars == ['\n']

/-- Characters that spell a negative number, in the digits of any script. -/
def isNegativeNumber : List Char → Bool
  | '-' :: rest =>
    let (whole, fraction) := rest.span isDecimalDigit
    match fraction with
    | '.' :: decimals =>
      let (digits, rest) := decimals.span isDecimalDigit
      !digits.isEmpty && isLineEnd rest
    | rest => !whole.isEmpty && isLineEnd rest
  | _ => false

/-- An argument that starts with two dashes. -/
def longArgument (chars : List Char) : Argument :=
  let (name, value) := splitAtEquals chars
  match longSwitches.find? fun s => s.1.toList == name with
  | some (_, s) => .switch s true value
  | none =>
    match longSwitches.filter fun s => name.isPrefixOf s.1.toList with
    | [(_, s)] => .switch s true value
    | [] => if chars.contains ' ' then .operand (String.ofList chars) else .unknown
    | _ => .ambiguous

/-- An argument that starts with one dash and goes on with something else. -/
def shortArgument (letter : Char) (rest : List Char) : Argument :=
  match shortSwitch? letter with
  | some s =>
    match rest with
    | [] => .switch s false none
    | '=' :: value => .switch s false (some value)
    | _ => .switch s false (some rest)
  | none =>
    let chars := '-' :: letter :: rest
    if isNegativeNumber chars || chars.contains ' ' then .operand (String.ofList chars)
    else .unknown

/-- What an argument is that does not stand behind the separator. -/
def Argument.ofString (s : String) : Argument :=
  match s.toList with
  | ['-', '-'] => .separator
  | '-' :: '-' :: rest => longArgument ('-' :: '-' :: rest)
  | '-' :: letter :: rest => shortArgument letter rest
  | _ => .operand s

/-- What the arguments are. -/
def Argument.ofStrings : List String → List Argument
  | [] => []
  | s :: rest =>
    match Argument.ofString s with
    | .separator => .separator :: rest.map .operand
    | a => a :: Argument.ofStrings rest

/-! ### What the arguments ask for -/

/-- A switch with its value, if it needs one. -/
inductive Setting where
  | plain (switch : Switch)
  | language (name : String)

/-- The settings of an argument, the last of which may wait for its value. -/
structure Settings where
  settings : List Setting
  /-- The value stands in the next argument. -/
  waits : Bool

/-- The settings of a switch without anything attached. -/
def Settings.alone (s : Switch) : Settings :=
  if s.takesValue then ⟨[], true⟩ else ⟨[.plain s], false⟩

/-- The settings of a switch of one letter with what is attached to it: its value, or more letters.
-/
def Settings.joined (s : Switch) : List Char → Option Settings
  | [] => some (.alone s)
  | c :: rest =>
    if s.takesValue then some ⟨[.language (String.ofList (c :: rest))], false⟩
    else do
      let next ← shortSwitch? c
      let others ← Settings.joined next rest
      pure { others with settings := .plain s :: others.settings }

/-- The settings of a switch; none if what is attached makes no sense. -/
def Settings.of? (s : Switch) (isLong : Bool) (attached : Option (List Char)) : Option Settings :=
  match attached with
  | none => some (.alone s)
  | some value =>
    if s.takesValue then some ⟨[.language (String.ofList value)], false⟩
    else if isLong || value.isEmpty then none
    else Settings.joined s value

/-- What the command line asks for when it runs a file. -/
structure Options where
  file : Option String := none
  language : Language := .javascript
  listOnly : Bool := false
  checkOnly : Bool := false
  topLevelAwait : Bool := true
  trace : Bool := false
  verbose : Bool := false
  /-- There are arguments that mean nothing. -/
  hasExtra : Bool := false

/-- What the command line asks for. -/
inductive Request where
  | help
  | misuse
  | run (file : String) (options : Options)

/-- The options after a setting; otherwise the request that it ends with. -/
def Options.apply (o : Options) : Setting → Except Request Options
  | .plain .help => .error .help
  | .plain .language => .error .misuse
  | .plain .listOnly => .ok { o with listOnly := true }
  | .plain .checkOnly => .ok { o with checkOnly := true }
  | .plain .noTopLevelAwait => .ok { o with topLevelAwait := false }
  | .plain .trace => .ok { o with trace := true }
  | .plain .verbose => .ok { o with verbose := true }
  | .language name =>
    match Language.ofName? name with
    | some language => .ok { o with language }
    | none => .error .misuse

/-- The options after the file has been named, or named once more. -/
def Options.operand (o : Options) (text : String) : Options :=
  if o.file.isNone then { o with file := some text } else { o with hasExtra := true }

/-- Reads the arguments from left to right. -/
def Options.read (o : Options) : List Argument → Except Request Options
  | [] => .ok o
  | .operand text :: .separator :: rest =>
    if o.file.isNone then (o.operand text).read rest
    else { o with hasExtra := true }.read rest
  | .operand text :: rest => (o.operand text).read rest
  | .separator :: rest =>
    if o.file.isNone && !rest.isEmpty then o.read rest else { o with hasExtra := true }.read rest
  | .unknown :: rest => { o with hasExtra := true }.read rest
  | .ambiguous :: _ => .error .misuse
  | .switch s isLong attached :: rest =>
    match Settings.of? s isLong attached with
    | none => .error .misuse
    | some ⟨settings, false⟩ => do (← settings.foldlM Options.apply o).read rest
    | some ⟨settings, true⟩ =>
      match rest with
      | .operand value :: rest => do
        (← (settings ++ [Setting.language value]).foldlM Options.apply o).read rest
      | _ => .error .misuse

/-- The arguments hold a spelling that fits several switches. -/
def hasAmbiguous (arguments : List Argument) : Bool :=
  arguments.any fun
    | .ambiguous => true
    | _ => false

/-- What the arguments of the command line ask for. -/
def Request.ofStrings (strings : List String) : Request :=
  let arguments := Argument.ofStrings strings
  if hasAmbiguous arguments then .misuse
  else
    match Options.read {} arguments with
    | .error request => request
    | .ok o =>
      match o.file with
      | some file => if o.hasExtra then .misuse else .run file o
      | none => .misuse

end ScopeExit.CommandLine
