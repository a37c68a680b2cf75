/-
The commands of the program, and how they are given.
-/
import XmlStore.CommandLine.Arguments
import XmlStore.Service.Operation

namespace XmlStore.CommandLine

open Service

/-- where content comes from -/
inductive Source where
  | inline (xml : String)
  | file (name : String)
  deriving DecidableEq, Repr

/-- something that the program can do -/
inductive Command where
  | create (title description : String) (content : Source)
  /-- prints a document, as it is stored or indented -/
  | print (key : Key) (stored : Bool)
  | list
  | modify (id : UInt64) (title description : Option String) (content : Option Source)
  | delete (id : UInt64)
  | deleteAll
  | count
  /-- tells whether the store can be reached -/
  | ping
  | node (id : UInt64) (json : Bool) (operation : NodeOperation)
  deriving DecidableEq, Repr

/-- a command on a store -/
structure Invocation where
  /-- the name of the store file -/
  store : String
  command : Command
  deriving DecidableEq, Repr

/-- the store file where none is named -/
def defaultStore : String := "xds-store.json"

/-- the variable of the environment that may name the store file -/
def storeVariable : String := "XDS_STORE"

def required (label : String) : Place := { label }

def idPlace : Place := { label := "ID", isId := true }

/-- a flag with a value, on one level -/
def valueFlag (rank : Nat) (name label : String) : Flag :=
  { name, effect := .value label true, about := "", rank }

def fileFlag (rank : Nat) (about : String) : Flag :=
  { name := "file", effect := .value "FILE" false, about, rank }

def descriptionFlag : Flag :=
  { valueFlag 1 "description" "DESCRIPTION" with letter := some 'd' }

/-- a flag that is given or not -/
def switch (rank : Nat) (name about : String) : Flag :=
  { name, effect := .switch, about, rank }

/-- a command that has no commands of its own -/
def leaf (name about : String) (places : List Place) (flags : List Flag) : Level :=
  ⟨name, about, flags, places, []⟩

/-- the commands on the nodes of a document -/
def nodeCommands : List Level :=
  let locator := required "LOCATOR"
  let name := required "NAME"
  [ leaf "exists" "Whether the locator matches anything" [locator] [],
    leaf "xml" "XML of all matches, concatenated" [locator] [],
    leaf "text" "Text of the first match" [locator] [],
    leaf "all-xml" "XML of each match" [locator] [],
    leaf "all-text" "Text of each match" [locator] [],
    leaf "attributes" "Attributes of the first match" [locator] [],
    leaf "structured" "One record per match, fields given as relative locators"
      [locator, { label := "FIELDS", repeated := true }] [],
    leaf "attribute" "One attribute of the first match" [locator, name] [],
    leaf "with-attribute" "Matches carrying an attribute (optionally with a value)"
      [locator, name, { label := "VALUE", required := false }] [],
    leaf "add" "Append XML as the last child of the first match" [required "PARENT", required "XML"] [],
    leaf "edit-text" "Replace the text of the first match" [locator, required "TEXT"] [],
    leaf "rename" "Rename the first match" [locator, name] [],
    leaf "add-attribute" "Set an attribute on the first match" [locator, name, required "VALUE"] [],
    leaf "remove-attribute" "Remove an attribute from the first match" [locator, name] [],
    leaf "delete" "Delete every match" [locator] [] ]

/-- the command on one document that has the commands on its nodes -/
def nodeLevel : Level where
  name := "node"
  about := "Read or edit nodes of one document"
  flags := [{ switch 0 "json" "Print the result as JSON" with inherited := true }]
  places := [{ idPlace with about := "Document id" }]
  commands := nodeCommands

/-- the flags of the program, most of which may be given anywhere -/
def programFlags : List Flag :=
  [ { name := "store", effect := .value "STORE" false, about := "Store file", rank := 0, inherited := true,
      standIn := some storeVariable, initial := some defaultStore },
    { name := "log", effect := .value "LOG" true, about := "Log filter (e.g. `debug`, `xds_db=trace`)", rank := 1,
      inherited := true, standIn := some "RUST_LOG", initial := some "warn" },
    { name := "help", letter := some 'h', effect := .help, about := "Print help", rank := 999, inherited := true },
    { name := "version", letter := some 'V', effect := .version, about := "Print version", rank := 999 } ]

/-- everything that the program may be given -/
def program : Level where
  name := "xds"
  about := "XML Document Store: keep XML documents and edit them node by node"
  flags := programFlags
  places := []
  commands :=
    [ leaf "create" "Store a new document"
        [required "TITLE", { label := "XML", about := "Inline XML content", required := false }]
        [fileFlag 0 "Read the content from a file", { descriptionFlag with initial := some "" }],
      leaf "show" "Print a document, indented" [{ idPlace with required := false }]
        [valueFlag 0 "title" "TITLE", switch 1 "raw" "Print the stored form instead of the indented one"],
      leaf "list" "List all documents" [] [],
      leaf "modify" "Change title, description or content" [idPlace]
        [valueFlag 0 "title" "TITLE", descriptionFlag, valueFlag 2 "xml" "XML", fileFlag 3 ""],
      leaf "delete" "Delete one document" [idPlace] [],
      leaf "delete-all" "Delete every document" [] [],
      leaf "count" "Number of stored documents" [] [],
      leaf "ping" "Check that the store is reachable" [] [],
      nodeLevel ]

/-- the source of content that is given inline or by the name of a file, but not both -/
def sourceOf (inline file : Option String) : Except UsageError (Option Source) :=
  match inline, file with
  | some _, some _ => .error (.conflict "XML" "--file")
  | some xml, none => .ok (some (.inline xml))
  | none, some name => .ok (some (.file name))
  | none, none => .ok none

def idAt (given : Given) (place : Nat) : Except UsageError UInt64 :=
  match given.places[place]? with
  | none => .error (.missingArgument idPlace.label)
  | some text =>
    match readId? text with
    | none => .error (.invalidId text)
    | some id => .ok id

/-- the operation that a command on nodes stands for -/
def nodeOperation (given : Given) : Except UsageError NodeOperation :=
  match given.level.name, given.places with
  | "exists", [locator] => .ok (.exist locator)
  | "xml", [locator] => .ok (.getXml locator)
  | "text", [locator] => .ok (.getText locator)
  | "all-xml", [locator] => .ok (.getAllXml locator)
  | "all-text", [locator] => .ok (.getAllText locator)
  | "attributes", [locator] => .ok (.getAttributes locator)
  | "structured", locator :: fields => .ok (.getStructured locator fields)
  | "attribute", [locator, name] => .ok (.getAttribute locator name)
  | "with-attribute", [locator, name] => .ok (.getWithAttribute locator name none)
  | "with-attribute", [locator, name, value] => .ok (.getWithAttribute locator name (some value))
  | "add", [parent, xml] => .ok (.addNode parent xml)
  | "edit-text", [locator, text] => .ok (.editText locator text)
  | "rename", [locator, name] => .ok (.rename locator name)
  | "add-attribute", [locator, name, value] => .ok (.addAttribute locator name value)
  | "remove-attribute", [locator, name] => .ok (.removeAttribute locator name)
  | "delete", [locator] => .ok (.delete locator)
  | name, _ => .error (.unknownCommand name)

namespace Command

def ofCreate (given : Given) : Except UsageError Command := do
  let description := (given.value? "description").getD ""
  match given.places with
  | [] => .error (.missingArgument "TITLE")
  | title :: xml =>
    match ← sourceOf xml.head? (given.value? "file") with
    | none => .error (.missingArgument "XML")
    | some content => .ok (.create title description content)

def ofShow (given : Given) : Except UsageError Command :=
  match given.places, given.value? "title" with
  | [], some title => .ok (.print (.title title) (given.has "raw"))
  | _ :: _, some _ => .error (.conflict "ID" "--title")
  | _, none => (idAt given 0).map fun id => .print (.id id) (given.has "raw")

def ofModify (given : Given) : Except UsageError Command := do
  let id ← idAt given 0
  let content ← sourceOf (given.value? "xml") (given.value? "file")
  return .modify id (given.value? "title") (given.value? "description") content

/-- the command that is given below the outermost level -/
def ofGiven : List Given → Except UsageError Command
  | [given] =>
    match given.level.name with
    | "create" => ofCreate given
    | "show" => ofShow given
    | "list" => .ok .list
    | "modify" => ofModify given
    | "delete" => (idAt given 0).map .delete
    | "delete-all" => .ok .deleteAll
    | "count" => .ok .count
    | "ping" => .ok .ping
    | name => .error (.unknownCommand name)
  | [document, below] => do
    let id ← idAt document 0
    let operation ← nodeOperation below
    return .node id (document.has "json" || below.has "json") operation
  | _ => .error .missingCommand

end Command

/-- the store file: the one named on the innermost level, else that of the environment, else the default. A level that names
none looks at the environment, which then must not name nothing. -/
def storeOf (environment : Environment) (given : List Given) : Except UsageError String :=
  let standIn := environment.lookup storeVariable
  if standIn = some "" ∧ given.any fun level => !level.has "store" then .error (.emptyValue "store")
  else .ok (((given.reverse.findSome? (·.value? "store")).or standIn).getD defaultStore)

def Invocation.ofArguments (environment : Environment) (arguments : List String) : Except Stop Invocation := do
  let given ← readArguments program arguments
  let store ← (storeOf environment given).mapError .usage
  let command ← (Command.ofGiven given.tail).mapError .usage
  return ⟨store, command⟩

end XmlStore.CommandLine
