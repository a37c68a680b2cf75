/-
Reading arguments by the levels of a command line.

Arguments are taken from the left by `step`. The name of a command leads down to its level, and there is no way back up. After
`--` everything goes to the places of the level. A flag that asks for something else than a command stops the reading, and so
does a request for help.

What is wrong with an argument may come to light later than it is taken: an argument that stands alone is looked at when the
next one is taken on its level, or at the end. So help on a command can be had although something is wrong above it.
-/
import XmlStore.CommandLine.Level
import XmlStore.Text.Digits
import XmlStore.Text.Quoted

namespace XmlStore.CommandLine

/-- why arguments make no command -/
inductive UsageError where
  | unknownFlag (text : String)
  | repeatedFlag (name : String)
  | missingValue (name : String)
  | emptyValue (name : String)
  /-- a value for a flag that has none -/
  | needlessValue (name : String)
  | unexpectedArgument (text : String)
  | missingArgument (label : String)
  | invalidId (text : String)
  | missingCommand
  | unknownCommand (text : String)
  /-- two things that exclude each other -/
  | conflict (first second : String)
  deriving DecidableEq, Repr

def UsageError.message : UsageError → String
  | .unknownFlag text => "unknown flag " ++ Text.quote text
  | .repeatedFlag name => s!"--{name} is given more than once"
  | .missingValue name => s!"--{name} needs a value"
  | .emptyValue name => s!"the value of --{name} is empty"
  | .needlessValue name => s!"--{name} takes no value"
  | .unexpectedArgument text => "unexpected argument " ++ Text.quote text
  | .missingArgument label => s!"missing argument {label}"
  | .invalidId text => Text.quote text ++ " is no id"
  | .missingCommand => "missing command"
  | .unknownCommand text => "unknown command " ++ Text.quote text
  | .conflict first second => s!"{first} cannot be given together with {second}"

/-- what was given on one level -/
structure Given where
  level : Level
  /-- names of flags with their values, which are empty for switches -/
  flags : List (String × String)
  places : List String
  deriving Repr

namespace Given

def nothing (level : Level) : Given := ⟨level, [], []⟩

def value? (given : Given) (name : String) : Option String :=
  given.flags.lookup name

def has (given : Given) (name : String) : Bool :=
  (given.value? name).isSome

/-- the first required place for which nothing is given -/
def missingPlace? (given : Given) : Option Place :=
  (given.level.places.drop given.places.length).find? Place.required

end Given

/-- why reading ends without a command -/
inductive Stop where
  | usage (error : UsageError)
  /-- help is asked for on a level, below the given ones -/
  | help (above : List Level) (level : Level)
  | version
  deriving Repr

/-- what the next argument is taken for -/
inductive Mode where
  /-- a flag, a command or an argument for a place -/
  | anything
  | value (flag : Flag)
  /-- an argument for a place, whatever it looks like -/
  | place
  /-- a command that help is asked for -/
  | topic
  deriving DecidableEq, Repr

/-- a state of reading -/
structure Reading where
  mode : Mode
  given : Given
  /-- what is wrong with the last argument that stands alone on this level -/
  owed : Option UsageError
  /-- what was given on the levels above, the outermost first -/
  above : List Given
  /-- what is wrong above -/
  owedAbove : Option UsageError
  deriving Repr

/-- the unsigned number of 64 bits that an argument is -/
def readId? (text : String) : Option UInt64 :=
  (Text.readWord? text.toList).map UInt64.ofNat

namespace Reading

def start (level : Level) : Reading := ⟨.anything, .nothing level, none, [], none⟩

def level (r : Reading) : Level := r.given.level

/-- stops with an error -/
def refuse {α : Type} (error : UsageError) : Except Stop α :=
  .error (.usage error)

/-- stops with what is wrong on the level so far -/
def settle (r : Reading) : Except Stop Reading :=
  match r.owed with
  | some error => refuse error
  | none => .ok r

/-- stops with help on the level -/
def explain {α : Type} (r : Reading) : Except Stop α :=
  .error (.help (r.above.map Given.level) r.level)

/-- goes down to the level of a command -/
def enter (r : Reading) (level : Level) : Reading :=
  { r with given := .nothing level, owed := none, above := r.above ++ [r.given], owedAbove := r.owedAbove.or r.owed }

/-- what is wrong with a value for a flag -/
def valueError? (r : Reading) (flag : Flag) (value : String) : Option UsageError :=
  if r.given.has flag.name then some (.repeatedFlag flag.name)
  else match flag.effect with
    | .value _ false => if value.isEmpty then some (.emptyValue flag.name) else none
    | _ => none

/-- records a flag with its value; what is wrong with them comes to light later -/
def record (r : Reading) (flag : Flag) (value : String) : Reading :=
  { r with
    mode := .anything
    given := { r.given with flags := r.given.flags ++ [(flag.name, value)] }
    owed := r.valueError? flag value }

/-- takes a flag, with the value that is written together with it -/
def takeFlag (r : Reading) (flag : Flag) (attached : Option String) : Except Stop Reading := do
  let r ← r.settle
  match flag.effect, attached with
  | .value .., some value => (r.record flag value).settle
  | .value .., none => .ok { r with mode := .value flag }
  | _, some _ => refuse (.needlessValue flag.name)
  | .switch, none => (r.record flag "").settle
  | .help, none => r.explain
  | .version, none => .error .version

/-- takes a flag by its name, with a value after an equals sign if there is one -/
def takeName (r : Reading) (text : List Char) : Except Stop Reading :=
  let name := String.ofList (text.takeWhile (· ≠ '='))
  let attached := match text.dropWhile (· ≠ '=') with
    | [] => none
    | _ :: value => some (String.ofList value)
  match r.level.flags.find? (·.name = name) with
  | some flag => r.takeFlag flag attached
  | none => refuse (.unknownFlag ("--" ++ name))

/-- the value that is written right after a letter, with or without an equals sign -/
def attachedTo : List Char → Option String
  | [] => none
  | '=' :: value => some (String.ofList value)
  | value => some (String.ofList value)

/-- takes flags by their letters; the first one that has a value takes what is left for it -/
def takeLetters (r : Reading) : List Char → Except Stop Reading
  | [] => .ok r
  | c :: rest =>
    match r.level.flags.find? (·.letter = some c) with
    | none => refuse (.unknownFlag (String.ofList ['-', c]))
    | some flag =>
      match flag.effect with
      | .value .. => r.takeFlag flag (attachedTo rest)
      | _ => match r.takeFlag flag none with
        | .error stop => .error stop
        | .ok r => r.takeLetters rest

/-- takes an argument for the next place -/
def takePlace (r : Reading) (text : String) : Except Stop Reading := do
  let r ← r.settle
  match r.level.place? r.given.places.length with
  | none => refuse (if r.level.commands.isEmpty then .unexpectedArgument text else .unknownCommand text)
  | some place =>
    let owed := if place.isId && (readId? text).isNone then some (.invalidId text) else none
    .ok { r with given := { r.given with places := r.given.places ++ [text] }, owed }

/-- takes an argument where anything may stand -/
def takeAny (r : Reading) (text : String) : Except Stop Reading :=
  if r.level.isHelp text then .ok { r with mode := .topic }
  else match r.level.command? text, text.toList with
    | some level, _ => .ok (r.enter level)
    | none, ['-', '-'] => .ok { r with mode := .place }
    | none, '-' :: '-' :: name => r.takeName name
    | none, '-' :: c :: letters => r.takeLetters (c :: letters)
    | none, _ => r.takePlace text

/-- whether a text looks like a flag, and so cannot be the value of one -/
def looksLikeFlag (text : String) : Bool :=
  text.startsWith "-" && text ≠ "-"

def step (r : Reading) (text : String) : Except Stop Reading :=
  match r.mode with
  | .anything => r.takeAny text
  | .value flag => if looksLikeFlag text then refuse (.missingValue flag.name) else .ok (r.record flag text)
  | .place => r.takePlace text
  | .topic =>
    match r.level.topic? text with
    | some level => .ok (r.enter level)
    | none => refuse (.unknownCommand text)

/-- what was given on each level, the outermost first, if nothing is missing or wrong -/
def finish (r : Reading) : Except Stop (List Given) :=
  match r.mode with
  | .topic => r.explain
  | .value flag => refuse (.missingValue flag.name)
  | _ =>
    if ¬ r.level.commands.isEmpty then refuse .missingCommand
    else match r.owed.or r.owedAbove, (r.above ++ [r.given]).findSome? Given.missingPlace? with
      | some error, _ => refuse error
      | none, some place => refuse (.missingArgument place.label)
      | none, none => .ok (r.above ++ [r.given])

end Reading

/-- what the arguments give on each level, the outermost first -/
def readArguments (level : Level) (arguments : List String) : Except Stop (List Given) := do
  let r ← arguments.foldlM Reading.step (.start level)
  r.finish

end XmlStore.CommandLine
