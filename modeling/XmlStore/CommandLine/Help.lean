/-
Help on a level of the command line.

Help says what the level is about, how it is used, and then lists commands, arguments and options, each with its description in
one column. The description of an option ends with the variable that stands in for it and the value that it has otherwise.

`styledHelp` is written for a terminal, with names in bold letters; `helpText` is what is left of it elsewhere. The value of a
variable is shown as it is, so it may hold instructions to a terminal as well, and even take away text that follows it.
-/
import XmlStore.CommandLine.Arguments
import XmlStore.CommandLine.Report
import XmlStore.Text.Basic
import XmlStore.Text.Terminal

namespace XmlStore.CommandLine

open Text.Terminal

def placeText (place : Place) : String :=
  (if place.required then "<" ++ place.label ++ ">" else "[" ++ place.label ++ "]") ++ if place.repeated then "..." else ""

def flagText (flag : Flag) : String :=
  let letter := match flag.letter with
    | some c => bold (String.ofList ['-', c]) ++ ", "
    | none => "    "
  let value := match flag.effect with
    | .value label _ => " <" ++ label ++ ">"
    | _ => ""
  letter ++ bold ("--" ++ flag.name) ++ value

/-- a value as help shows it: between quotes where it could be overlooked or misread -/
def shownValue (value : String) : String :=
  if value.isEmpty || value.toList.any Text.isBlank then Text.quote value else value

/-- what a flag is about, the variable that stands in for it, and its value without both -/
def flagAbout (environment : Environment) (flag : Flag) : String :=
  let about := if flag.about.isEmpty then [] else [flag.about]
  let standIn := flag.standIn.toList.map fun name =>
    "[env: " ++ name ++ "=" ++ (environment.lookup name).getD "" ++ "]"
  let initial := flag.initial.toList.map fun value => "[default: " ++ shownValue value ++ "]"
  " ".intercalate (about ++ standIn ++ initial)

/-- what the flags of one rank are listed by: the letter, small before capital, or else the name -/
def flagKey (flag : Flag) : String :=
  match flag.letter with
  | some c => String.ofList [c.toLower, if c.isLower then '0' else '1']
  | none => flag.name

/-- whether help lists a flag before another one -/
def listedBefore (first second : Flag) : Bool :=
  first.rank < second.rank || first.rank == second.rank && decide (flagKey first ≤ flagKey second)

/-- how a level is used, below the given ones -/
def usageText (above : List Level) (level : Level) : String :=
  let given := above.flatMap fun outer => outer.name :: (outer.places.filter Place.required).map placeText
  let flags := if level.flags.any fun flag => flag.effect ≠ .help && flag.effect ≠ .version then ["[OPTIONS]"] else []
  let command := if level.commands.isEmpty then [] else ["<COMMAND>"]
  heading "Usage:" ++ " " ++
    " ".intercalate (bold (" ".intercalate (given ++ [level.name])) :: flags ++ level.places.map placeText ++ command)

/-- a section of names with what they stand for, which all start in one column -/
def sectionText (title : String) (items : List (String × String)) : String :=
  let size (name : String) : Nat := (plain name).length
  let width := (items.map fun (name, _) => size name).foldl max 0
  let indent := String.ofList ('\n' :: List.replicate (width + 4) ' ')
  if items.isEmpty then ""
  else line "" ++ line (heading (title ++ ":")) ++ String.join (items.map fun (name, about) =>
    line ("  " ++ name ++ String.ofList (List.replicate (width - size name + 2) ' ') ++
      indent.intercalate (about.splitOn "\n")))

/-- help on a level, below the given ones, for a terminal -/
def styledHelp (environment : Environment) (above : List Level) (level : Level) : String :=
  line level.about ++ line "" ++ line (usageText above level)
    ++ sectionText "Commands" (level.topics.map fun command => (bold command.name, command.about))
    ++ sectionText "Arguments" (level.places.map fun place => (placeText place, place.about))
    ++ sectionText "Options" ((level.flags.mergeSort listedBefore).map fun flag =>
      (flagText flag, flagAbout environment flag))

/-- help on a level, below the given ones -/
def helpText (environment : Environment) (above : List Level) (level : Level) : String :=
  plain (styledHelp environment above level)

/-- the lines for arguments that make no command -/
def usageErrorText (error : UsageError) : String :=
  line ("error: " ++ error.message) ++ line "" ++ line "For more information, try '--help'."

end XmlStore.CommandLine
