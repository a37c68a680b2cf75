/-
Text for a terminal.

A terminal takes some characters as instructions: controls, and sequences that an escape character starts. `plain` is what is
left of a text without them; of the controls it keeps the blanks. It reads from the left, and its state says what kind of
sequence is open. Control sequences end with their last character; strings end with an escape character (which starts the next
sequence), with a byte `9C` of the text in UTF-8, or, if they are commands to the system, with a bell. A sequence that does not
end takes all that follows. A blank interrupts a control sequence: it and what follows it is kept up to the next control, which
is where the sequence goes on, unless a character beyond ASCII came before.
-/

namespace XmlStore.Text.Terminal

/-- the sequence that is open -/
inductive Open where
  | none
  /-- after an escape character -/
  | escape
  /-- after an escape character and further ones, with one to come -/
  | escapeMore
  /-- a control sequence -/
  | control
  /-- the start of a control string: nothing but its start, parameters, or what comes after them -/
  | deviceStart
  | deviceParameters
  | deviceMore
  /-- a string that a byte `9C` ends -/
  | string
  /-- a command to the system -/
  | command
  deriving DecidableEq, Repr

/-- the sequence that is open, and whether text is shown: there is none open, or a blank has interrupted it -/
structure State where
  opened : Open
  showing : Bool
  deriving DecidableEq, Repr

def State.start : State := ⟨.none, true⟩

/-- a blank that is a control -/
def isControlBlank (c : Char) : Bool :=
  c == '\t' || c == '\n' || c == '\x0c' || c == '\r'

def isBetween (first last : Char) (c : Char) : Bool :=
  first ≤ c && c ≤ last

/-- a character that says more about a sequence before its end -/
def isMiddle (c : Char) : Bool := isBetween ' ' '/' c

/-- a character that gives a sequence its parameters -/
def isParameter (c : Char) : Bool := isBetween '0' '?' c

/-- a character that can end a control sequence -/
def isFinal (c : Char) : Bool := isBetween '@' '~' c

/-- what is open after a character that comes next to an escape character -/
def afterEscape (c : Char) : Open :=
  if isMiddle c then .escapeMore
  else if c = '[' then .control
  else if c = ']' then .command
  else if c = 'P' then .deviceStart
  else if c = 'X' ∨ c = '^' ∨ c = '_' then .string
  else if isBetween '0' '~' c then .none
  else .escape

/-- what is open after one more character, other than an escape character and the two that end everything -/
def goOn (opened : Open) (c : Char) : Open :=
  match opened with
  | .none => .none
  | .escape => afterEscape c
  | .escapeMore => if isBetween '0' '~' c then .none else .escapeMore
  | .control => if isFinal c then .none else .control
  | .deviceStart =>
    if isFinal c then .string
    else if isMiddle c then .deviceMore
    else if isParameter c then .deviceParameters
    else .deviceStart
  | .deviceParameters =>
    if isFinal c || isBetween '<' '?' c then .string
    else if isMiddle c then .deviceMore
    else .deviceParameters
  | .deviceMore => if isFinal c || isParameter c then .string else .deviceMore
  | .string => if (String.utf8EncodeChar c).contains 0x9C then .none else .string
  | .command => if c = '\x07' then .none else .command

/-- whether a blank is kept where a sequence is open -/
def keepsBlanks (opened : Open) : Bool :=
  match opened with
  | .none | .escape | .escapeMore | .control => true
  | _ => false

/-- whether a character stands for itself -/
def isShown (s : State) (c : Char) : Bool :=
  if s.showing then isControlBlank c || (' ' ≤ c && c ≠ '\x7f')
  else keepsBlanks s.opened && isControlBlank c

/-- the state after a character; an escape character starts anew and two others end everything -/
def next (s : State) (c : Char) : State :=
  if c = '\x1b' then ⟨.escape, false⟩
  else if c = '\x18' ∨ c = '\x1a' then .start
  else if isShown s c then
    if '\x7f' < c then .start else ⟨s.opened, true⟩
  else
    let opened := goOn s.opened c
    ⟨opened, opened = .none⟩

/-- what is left of a text -/
def plainFrom (s : State) : List Char → List Char
  | [] => []
  | c :: rest => if isShown s c then c :: plainFrom (next s c) rest else plainFrom (next s c) rest

/-- what is left of a text without what a terminal takes as instructions -/
def plain (text : String) : String :=
  String.ofList (plainFrom .start text.toList)

def bold (text : String) : String :=
  "\x1b[1m" ++ text ++ "\x1b[0m"

/-- a text in bold letters with a line below -/
def heading (text : String) : String :=
  "\x1b[1m\x1b[4m" ++ text ++ "\x1b[0m"

end XmlStore.Text.Terminal
