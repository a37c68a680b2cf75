/-
Written paths.

A path is written as steps between slashes. Every step starts from a folder: one point stays there, two points go up, and any
other text goes to what has that name. A path that begins with a slash starts at the root, any other one at the directory that
is worked in. Steps are followed where they lead and never cancelled against each other, so `a/../b` needs a folder `a`.
-/

namespace XmlStore

/-- one step of a written path -/
inductive Step where
  | here
  | up
  | name (name : String)
  deriving DecidableEq, Repr

/-- the names on the way down to something from the directory; folders above it begin with `..` for each level, and what is
reached from the root begins with `/` -/
abbrev Path := List String

/-- a written path by its steps -/
structure Route where
  start : Path
  /-- all steps but the last -/
  above : List Step
  last : Step
  /-- whether slashes follow the last step, so that it has to lead to a folder -/
  closed : Bool
  deriving DecidableEq, Repr

/-- bytes that a written path may have -/
def maxPathSize : Nat := 4095

/-- bytes that a name may have -/
def maxNameSize : Nat := 255

/-- the step that a text between slashes stands for -/
def Step.ofText (text : List Char) : Step :=
  if text = ['.'] then .here
  else if text = ['.', '.'] then .up
  else .name (String.ofList text)

namespace Path

def root : Path := ["/"]

/-- whether a path leads up only, or to the root: there is always a folder -/
def isGiven (path : Path) : Bool :=
  path = root || path.all (· = "..")

/-- the folder above -/
def up (path : Path) : Path :=
  if path = root then root
  else if path.all (· = "..") then path ++ [".."]
  else path.dropLast

/-- what one step leads to -/
def after (path : Path) : Step → Path
  | .here => path
  | .up => path.up
  | .name name => path ++ [name]

/-- whether a path leads further down from a folder -/
def isBelow (path folder : Path) : Bool :=
  folder.isPrefixOf path && ((path.drop folder.length).head?.any fun name => name ≠ ".." && name ≠ "/")

def toText (path : Path) : String :=
  if path.head? = some "/" then "/" ++ "/".intercalate path.tail else "/".intercalate path

end Path

namespace Route

/-- the steps of a written path; without any it stays where it starts -/
def ofText (text : String) : Route :=
  let steps := ((text.toList.splitOn '/').filter (· ≠ [])).map Step.ofText
  ⟨if text.startsWith "/" then .root else [], steps.dropLast, steps.getLast?.getD .here, text.endsWith "/"⟩

/-- everything that a route comes by, up to its end -/
def stations (route : Route) : List Path :=
  ((route.above ++ [route.last]).foldl
    (fun (passed, path) step => (passed ++ [path.after step], path.after step)) ([], route.start)).1

end Route

/-- whether a text between slashes leads nowhere else -/
def isIdle (text : List Char) : Bool :=
  text = [] || text = ['.']

/-- the written path without its last step that leads elsewhere, which is the folder that a file stands in -/
def folderText (text : String) : String :=
  let above := ((text.toList.splitOn '/').reverse.dropWhile isIdle).drop 1 |>.dropWhile isIdle
  if ¬ above.isEmpty then String.ofList (['/'].intercalate above.reverse)
  else if text.startsWith "/" && (Route.ofText text).last ≠ .here then "/"
  else "."

end XmlStore
