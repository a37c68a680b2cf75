/-
Running commands on the files of a directory.

Every command is carried out on a store file at some time, and answers with an exit code and with what is printed: 0 when it worked,
1 when it failed, 2 when the arguments make no command or the store cannot be reached by `ping`, and 101 when the program was stopped.
-/
import XmlStore.CommandLine.Command
import XmlStore.CommandLine.Help
import XmlStore.Store.File

namespace XmlStore.CommandLine

open Service

/-- how a run ends -/
structure Response where
  code : UInt32
  /-- on standard output -/
  output : String
  /-- on standard error -/
  errors : String
  deriving DecidableEq, Repr

namespace Response

/-- the response to a command that worked -/
def done (output : String) : Response := ⟨0, output, ""⟩

/-- the response to a command that failed after some output -/
def failed (output : String) : Failure → Response
  | .store .overflow => ⟨101, output, line (StoreError.message .overflow)⟩
  | failure => ⟨1, output, failureText failure⟩

/-- the response for an outcome -/
def ofOutcome {α : Type} (words : α → String) : Outcome α → Response
  | .ok answer => done (words answer)
  | .error failure => failed "" failure

end Response

/-- a request on a store file, with the response for its outcome -/
def respond {α : Type} (store : FileStore) (words : α → String) (request : Request (Outcome α)) (d : Directory) :
    Response × Directory :=
  let (outcome, d) := request.run store.backend d
  (.ofOutcome words outcome, d)

/-- the text in a file of content -/
def contentOf (d : Directory) : Source → Except String String
  | .inline xml => .ok xml
  | .file name => (d.readText name).mapError FileFault.message

def runCreate (store : FileStore) (title description : String) (content : Source) (d : Directory) (now : UInt64) :
    Response × Directory :=
  respond store (fun id => yes s!"created document {id}") (createFrom title description (contentOf d content) now) d

def runPrint (store : FileStore) (key : Key) (stored : Bool) (d : Directory) : Response × Directory :=
  let request := match key with
    | .id id => get id
    | .title title => getByTitle title
  let (outcome, d) := request.run store.backend d
  match outcome with
  | .error failure => (.failed "" failure, d)
  | .ok row =>
    if stored then (.done (headingText row ++ line row.content), d)
    else
      let (outcome, d) := (pretty .default row.id).run store.backend d
      match outcome with
      | .error failure => (.failed (headingText row) failure, d)
      | .ok text => (.done (headingText row ++ text), d)

def runModify (store : FileStore) (id : UInt64) (title description : Option String) (content : Option Source)
    (d : Directory) (now : UInt64) : Response × Directory :=
  match content.mapM (contentOf d) with
  | .error reason => (.failed "" (.io reason), d)
  | .ok content => respond store (fun () => yes s!"modified document {id}") (modify id ⟨title, description, content⟩ now) d

def runNode (store : FileStore) (id : UInt64) (json : Bool) (operation : NodeOperation) (d : Directory) (now : UInt64) :
    Response × Directory :=
  let words := if json then fun output => line (outputJson output).pretty else outputText
  let (response, d) := respond store words (execute .default id operation now) d
  match Locator.parse operation.locatorText with
  | .ok _ => (response, d)
  | .error error =>
    ({ response with errors := unreadableText operation.locatorText error ++ response.errors }, d)

def Command.run (store : FileStore) (d : Directory) (now : UInt64) : Command → Response × Directory
  | .create title description content => runCreate store title description content d now
  | .print key stored => runPrint store key stored d
  | .list => respond store listText Service.list d
  | .modify id title description content => runModify store id title description content d now
  | .delete id =>
    respond store (fun removed => if removed then yes s!"deleted document {id}" else no s!"no document {id}")
      (deleteDocument id) d
  | .deleteAll => respond store (fun removed => yes s!"deleted {removed} document(s)") Service.deleteAll d
  | .count => respond store (fun number : Nat => line number.repr) Service.count d
  | .ping =>
    if store.isReachable d then (.done (yes ("store reachable at " ++ store.name)), d)
    else (⟨2, no ("store unreachable at " ++ store.name), ""⟩, d)
  | .node id json operation => runNode store id json operation d now

def programVersion : String := "0.1.0"

/-- the response where arguments make no command -/
def Stop.response (environment : Environment) : Stop → Response
  | .usage error => ⟨2, "", usageErrorText error⟩
  | .help above level => .done (helpText environment above level)
  | .version => .done (line (program.name ++ " " ++ programVersion))

def run (environment : Environment) (arguments : List String) (d : Directory) (now : UInt64) : Response × Directory :=
  match Invocation.ofArguments environment arguments with
  | .error stop => (stop.response environment, d)
  | .ok invocation => invocation.command.run ⟨invocation.store⟩ d now

end XmlStore.CommandLine
