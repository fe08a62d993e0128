import ScopeExit.Grammar.Lexeme
import ScopeExit.Source.Concrete
/-!
The ends of statements that no semicolon marks, and the question marks of choices.

A statement may end at the end of the text, before a closing brace, and at a line break unless the
text behind the break goes on with it.  The languages differ in what goes on with a statement and in
the part that comments play.  The search reads ahead; where it fails, the place at which it stopped
may still hold the question mark of a choice.
-/
namespace ScopeExit.Grammar

/-- A place in a text: the number of bytes in front of it, and the characters behind it. -/
structure Place where
  offset : Nat
  rest : List Char
  deriving Inhabited

/-- The place behind some characters. -/
def Place.after (p : Place) (s : Scanned) : Place := ⟨byteCount s.1 p.offset, s.2⟩

/-- Passes over characters of a class. -/
def passWhile (p : Char → Bool) : Nat → List Char → Place
  | offset, [] => ⟨offset, []⟩
  | offset, c :: rest => if p c then passWhile p (offset + c.utf8Size) rest else ⟨offset, c :: rest⟩

/-- A pass loses no text and counts what it passes. -/
theorem passWhile_eq (p : Char → Bool) (offset : Nat) (chars : List Char) :
    passWhile p offset chars = ⟨byteCount (chars.takeWhile p) offset, chars.dropWhile p⟩ := by
  induction chars generalizing offset with
  | nil => rfl
  | cons c rest ih => by_cases h : p c = true <;> simp [passWhile, h, byteCount, ih]

/-- The place behind characters of a class. -/
def Place.pass (p : Char → Bool) (here : Place) : Place := passWhile p here.offset here.rest

/-- The place behind one character, or the end. -/
def Place.next (here : Place) : Place :=
  match here.rest with
  | [] => here
  | c :: rest => ⟨here.offset + c.utf8Size, rest⟩

/-- The next character belongs to a class. -/
def Place.has (here : Place) (p : Char → Bool) : Bool := startsWith p here.rest

/-- A pass over a class stops where the class ends. -/
theorem has_pass (p : Char → Bool) (here : Place) : (here.pass p).has p = false := by
  obtain ⟨offset, chars⟩ := here
  simp only [Place.pass]
  induction chars generalizing offset with
  | nil => rfl
  | cons c rest ih =>
    by_cases h : p c = true
    · simpa [passWhile, h] using ih _
    · simp [passWhile, h, Place.has, startsWith]

/-- No text is left, as far as the search is concerned. -/
def Place.isEnd (here : Place) : Bool :=
  match here.rest with
  | [] => true
  | c :: _ => isNull c

/-! ### Comments on the way -/

/-- Where a pass over spaces and comments is. -/
inductive Passage where
  | between | lineComment | blockComment

/-- What a pass over spaces and comments came to. -/
inductive Passed where
  /-- A token follows, or a comment that spans lines ended. -/
  | clear
  /-- A comment ended on the line where it began. -/
  | sameLine
  /-- A slash follows that starts no comment. -/
  | slash
  deriving DecidableEq

/-- A place that a search has reached. -/
structure Reached where
  /-- A comment was passed over. -/
  sawComment : Bool
  place : Place

/-- Passes over spaces and comments.  Unless `throughout` is set, it ends behind a block comment that
no slash follows; `sawBreak` says that a block comment spanned lines. -/
def passComments (throughout : Bool) (sawComment sawBreak : Bool) :
    Passage → Nat → List Char → Passed × Reached
  | .between, offset, '/' :: '/' :: rest =>
    passComments throughout true sawBreak .lineComment (offset + 2) rest
  | .between, offset, '/' :: '*' :: rest =>
    passComments throughout sawComment sawBreak .blockComment (offset + 2) rest
  | .between, offset, '/' :: rest => (.slash, ⟨sawComment, offset + 1, rest⟩)
  | .between, offset, c :: rest =>
    if isSpace c then passComments throughout sawComment sawBreak .between (offset + c.utf8Size) rest
    else (.clear, ⟨sawComment, offset, c :: rest⟩)
  | .lineComment, offset, c :: rest =>
    if isNull c then (.clear, ⟨sawComment, offset, c :: rest⟩)
    else if isLineBreak c then
      passComments throughout sawComment sawBreak .between (offset + c.utf8Size) rest
    else passComments throughout sawComment sawBreak .lineComment (offset + c.utf8Size) rest
  | .blockComment, offset, '*' :: '/' :: rest =>
    if !throughout && !startsWith (· = '/') rest then
      (if sawBreak then .clear else .sameLine, ⟨true, offset + 2, rest⟩)
    else passComments throughout true sawBreak .between (offset + 2) rest
  | .blockComment, offset, c :: rest =>
    if isNull c then (.clear, ⟨sawComment, offset, c :: rest⟩)
    else
      passComments throughout sawComment (sawBreak || isLineBreak c) .blockComment
        (offset + c.utf8Size) rest
  | _, offset, [] => (.clear, ⟨sawComment, offset, []⟩)

/-- Passes over spaces and comments in the language with types: only a line feed ends a comment that
runs to the end of its line, and only such comments count as seen. -/
def passTypedComments (sawComment : Bool) : Passage → Nat → List Char → Passed × Reached
  | .between, offset, '/' :: '/' :: rest => passTypedComments true .lineComment (offset + 2) rest
  | .between, offset, '/' :: '*' :: rest => passTypedComments sawComment .blockComment (offset + 2) rest
  | .between, offset, '/' :: rest => (.slash, ⟨sawComment, offset + 1, rest⟩)
  | .between, offset, c :: rest =>
    if isSpace c then passTypedComments sawComment .between (offset + c.utf8Size) rest
    else (.clear, ⟨sawComment, offset, c :: rest⟩)
  | .lineComment, offset, c :: rest =>
    if isNull c then (.clear, ⟨sawComment, offset, c :: rest⟩)
    else if c = '\n' then passTypedComments sawComment .between (offset + 1) rest
    else passTypedComments sawComment .lineComment (offset + c.utf8Size) rest
  | .blockComment, offset, '*' :: '/' :: rest => passTypedComments sawComment .between (offset + 2) rest
  | .blockComment, offset, c :: rest =>
    if isNull c then (.clear, ⟨sawComment, offset, c :: rest⟩)
    else passTypedComments sawComment .blockComment (offset + c.utf8Size) rest
  | _, offset, [] => (.clear, ⟨sawComment, offset, []⟩)

/-! ### Ends of statements -/

/-- What a search for the end of a statement came to. -/
structure LineEnd where
  /-- The statement ends where the search began. -/
  found : Bool
  /-- Where the search stopped. -/
  reached : Reached

/-- The operator that a text goes on with.  A word that begins with its letters is none if letters
follow. -/
def wordEnd (sawComment : Bool) (here : Place) : LineEnd :=
  match here.rest with
  | 'i' :: 'n' :: rest =>
    let behind : Place := ⟨here.offset + 2, rest⟩
    if !behind.has isLetter then ⟨false, sawComment, behind⟩
    else if rest.take 8 == "stanceof".toList then
      let behind : Place := ⟨here.offset + 10, rest.drop 8⟩
      ⟨behind.has isLetter, sawComment, behind⟩
    else ⟨true, sawComment, behind⟩
  | _ => ⟨true, sawComment, here⟩

/-- The end of a statement before a sign that is an operator or starts a statement, as the character
behind it has it. -/
def signEnd (sawComment : Bool) (ends : Char → Bool) (here : Place) : LineEnd :=
  ⟨here.next.has ends, sawComment, here.next⟩

/-- The end of a statement before a token that no rule excludes: doubled signs, a negation and words
start a statement, single signs, a comparison and operators that are words do not. -/
def operatorEnd (r : Reached) : LineEnd :=
  if r.place.has (· = '+') then signEnd r.sawComment (· = '+') r.place
  else if r.place.has (· = '-') then signEnd r.sawComment (· = '-') r.place
  else if r.place.has (· = '!') then
    ⟨!r.place.next.has (· = '='), r.sawComment, r.place.next⟩
  else wordEnd r.sawComment r.place

/-- The characters that go on with a statement after a line break. -/
def continuations : List Char := "\x60,:;*%><=[(?^|&/".toList

/-- The end of a statement at a line break: `here` is the place behind the break. -/
def endAtBreak (sawComment : Bool) (here : Place) : LineEnd :=
  let (passed, r) := passComments true sawComment false .between here.offset here.rest
  if passed = .slash then ⟨false, r⟩
  else if r.place.has (continuations.contains ·) then ⟨false, r⟩
  else if r.place.has (· = '.') then signEnd r.sawComment isDigit r.place
  else operatorEnd r

/-- The end of a statement from the place behind its last token.  `operator` says that an operator may
follow; `fuel` bounds the number of characters on the line. -/
def endOfStatement (operator : Bool) : Nat → Bool → Place → LineEnd
  | 0, sawComment, here => ⟨false, sawComment, here⟩
  | fuel + 1, sawComment, here =>
    if here.isEnd then ⟨true, sawComment, here⟩
    else
      let (passed, r) :=
        if here.has (· = '/') then passComments false sawComment false .between here.offset here.rest
        else (.sameLine, ⟨sawComment, here⟩)
      if passed = .slash then ⟨false, r⟩
      else if passed = .clear && !operator && !r.place.has (fun c => c = ',' || c = '=') then ⟨true, r⟩
      else if r.place.has (· = '\x7d') then ⟨true, r⟩
      else if r.place.has isLineBreak then endAtBreak r.sawComment r.place.next
      else if r.place.has isSpace then endOfStatement operator fuel r.sawComment r.place.next
      else ⟨false, r⟩

/-- The characters that go on with a statement after a line break in the language with types. -/
def typedContinuations : List Char := "\x60,.;*%><=?^|&/:".toList

/-- The end of a statement at a line break in the language with types.  A bracket goes on with an
expression and not with a type; a brace goes on with the head of a function. -/
def endAtTypedBreak (operator signature : Bool) (here : Place) : LineEnd :=
  let (passed, r) := passTypedComments false .between here.offset here.rest
  if passed = .slash then ⟨false, r⟩
  else if r.place.has (typedContinuations.contains ·) then ⟨false, r⟩
  else if r.place.has (· = '\x7b') then ⟨!signature, r⟩
  else if r.place.has (fun c => c = '(' || c = '[') then ⟨!operator, r⟩
  else operatorEnd r

/-- The end of a statement from the place behind its last token in the language with types.  A brace
with a colon behind it closes a pattern, unless an operator may follow. -/
def endOfTypedStatement (operator signature : Bool) : Nat → List Char → LineEnd
  | offset, [] => ⟨true, false, offset, []⟩
  | offset, c :: rest =>
    if isNull c then ⟨true, false, offset, c :: rest⟩
    else if c = '\x7d' then
      let behind := passWhile isSpace (offset + 1) rest
      ⟨!behind.has (· = ':') || operator, false, behind⟩
    else if c = '\n' then endAtTypedBreak operator signature ⟨offset + 1, rest⟩
    else if isSpace c then endOfTypedStatement operator signature (offset + c.utf8Size) rest
    else ⟨false, false, offset, c :: rest⟩

/-- The end of a statement from the place behind its last token, in a text of at most `size`
characters. -/
def LineEnd.search (language : Language) (operator signature : Bool) (size : Nat) (here : Place) :
    LineEnd :=
  match language with
  | .javascript => endOfStatement operator (size + 1) false here
  | .typescript => endOfTypedStatement operator signature here.offset here.rest

/-! ### Choices -/

/-- The question mark at a place belongs to a choice: no second one and no member follows. -/
def isChoice (behind : Place) : Bool :=
  if behind.has (· = '?') then false
  else if behind.has (· = '.') then behind.next.has isDigit
  else true

/-- The question mark at a place belongs to a choice in the language with types, where it also marks
optional parts. -/
def isTypedChoice (behind : Place) : Bool :=
  let operand := behind.pass isSpace
  if behind.has (fun c => c = '?' || c = '.') then false
  else if operand.has (fun c => c = ':' || c = ')' || c = ',') then false
  else if operand.has (· = '.') then operand.next.has isDigit
  else true

/-- The places before and behind the question mark of a choice. -/
def questionMark? (language : Language) (here : Place) : Option (Place × Place) :=
  let mark := here.pass isSpace
  let choice := match language with
    | .javascript => isChoice mark.next
    | .typescript => isTypedChoice mark.next
  if mark.has (· = '?') && choice then some (mark, mark.next) else none

end ScopeExit.Grammar
