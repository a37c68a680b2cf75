/-
Levels of a command line: what may be given where.

A level has flags, places for arguments, and commands, each of which is a level of its own. Some flags are taken over by the
commands below. A level with commands has one more of them, for help on the others.
-/

namespace XmlStore.CommandLine

/-- values of variables by their names -/
abbrev Environment := List (String × String)

/-- what a flag is good for -/
inductive Effect where
  /-- is given or not -/
  | switch
  /-- has a value, which may have to be more than nothing -/
  | value (label : String) (mayBeEmpty : Bool)
  /-- asks what may be given on its level -/
  | help
  /-- asks for the version of the program -/
  | version
  deriving DecidableEq, Repr

/-- a flag, given by its name after two hyphens or by its letter after one -/
structure Flag where
  name : String
  letter : Option Char := none
  effect : Effect
  about : String
  /-- where help lists it; of flags with one rank the letters and names decide -/
  rank : Nat
  /-- whether it may be given on the levels below too -/
  inherited : Bool := false
  /-- the variable of the environment that stands in for it -/
  standIn : Option String := none
  /-- the value that it has otherwise -/
  initial : Option String := none
  deriving DecidableEq, Repr

/-- a place for an argument -/
structure Place where
  label : String
  about : String := ""
  required : Bool := true
  /-- whether any further arguments belong here too -/
  repeated : Bool := false
  /-- whether the argument is an id -/
  isId : Bool := false
  deriving DecidableEq, Repr

/-- what may be given, from the name of a command on -/
structure Level where
  name : String
  about : String
  flags : List Flag
  places : List Place
  commands : List Level
  deriving Repr

/-- the command for help on other commands, which are named after it -/
def helpLevel : Level where
  name := "help"
  about := "Print this message or the help of the given subcommand(s)"
  flags := []
  places :=
    [{ label := "COMMAND", about := "Print help for the subcommand(s)", required := false, repeated := true }]
  commands := []

namespace Level

/-- the place of one argument more than `taken` -/
def place? (level : Level) (taken : Nat) : Option Place :=
  level.places[taken]?.or (level.places.getLast?.filter Place.repeated)

/-- the level of a command, with the flags that it takes over -/
def command? (level : Level) (name : String) : Option Level :=
  (level.commands.find? (·.name = name)).map fun command =>
    { command with flags := command.flags ++ level.flags.filter Flag.inherited }

/-- the commands of a level, with the one for help -/
def topics (level : Level) : List Level :=
  if level.commands.isEmpty then [] else level.commands ++ [helpLevel]

def isHelp (level : Level) (name : String) : Bool :=
  name = helpLevel.name && !level.commands.isEmpty

/-- the level that help can be asked for by a name -/
def topic? (level : Level) (name : String) : Option Level :=
  if level.isHelp name then some helpLevel else level.command? name

end Level

end XmlStore.CommandLine
