/-
Many clients at one store.

A process is an operation under way on a connection of its own. In a `World` any number of them act on what the backend shares,
one statement at a time and in any order. An operation is finished with its last statement, or at once if it makes none; so the
finished ones stand in the order in which they are placed in a serial run.
-/
import XmlStore.Proofs.Store.Table
import XmlStore.Service.Editing

namespace XmlStore.Service

open Xml

/-- an operation of the service; those that write do so at the time `now` -/
inductive Task where
  | create (title description xml : String) (now : UInt64)
  | modify (id : UInt64) (patch : Patch) (now : UInt64)
  | delete (id : UInt64)
  | deleteAll
  | get (id : UInt64)
  | getByTitle (title : String)
  | list
  | count
  | pretty (id : UInt64)
  | nodeExists (id : UInt64) (target : Target)
  | getNodeXml (id : UInt64) (target : Target)
  | getNodeText (id : UInt64) (target : Target)
  | getAllXml (id : UInt64) (target : Target)
  | getAllTexts (id : UInt64) (target : Target)
  | getNodesCarrying (id : UInt64) (target : Target) (name : String) (value : Option String)
  | getAttributes (id : UInt64) (target : Target)
  | getAttribute (id : UInt64) (target : Target) (name : String)
  | getRecords (id : UInt64) (target : Target) (fields : List String)
  | addNode (id : UInt64) (parent : Target) (xml : String) (now : UInt64)
  | editText (id : UInt64) (target : Target) (text : String) (now : UInt64)
  | editName (id : UInt64) (target : Target) (name : String) (now : UInt64)
  | addAttribute (id : UInt64) (target : Target) (name value : String) (now : UInt64)
  | removeAttribute (id : UInt64) (target : Target) (name : String) (now : UInt64)
  | deleteNode (id : UInt64) (target : Target) (now : UInt64)
  deriving DecidableEq, Repr

namespace Task

abbrev Value : Task → Type
  | .create .. => UInt64
  | .modify .. => Unit
  | .delete _ => Bool
  | .deleteAll => Nat
  | .get _ => Row
  | .getByTitle _ => Row
  | .list => List RowSummary
  | .count => Nat
  | .pretty _ => String
  | .nodeExists .. => Bool
  | .getNodeXml .. => Lookup String
  | .getNodeText .. => Lookup String
  | .getAllXml .. => Lookup (List String)
  | .getAllTexts .. => Lookup (List String)
  | .getNodesCarrying .. => Lookup (List String)
  | .getAttributes .. => Lookup Record
  | .getAttribute .. => String
  | .getRecords .. => List Record
  | .addNode .. => Bool
  | .editText .. => Bool
  | .editName .. => Bool
  | .addAttribute .. => Bool
  | .removeAttribute .. => Bool
  | .deleteNode .. => Bool

def request (config : Config) : (task : Task) → Request (Outcome task.Value)
  | .create title description xml now => Service.create title description xml now
  | .modify id patch now => Service.modify id patch now
  | .delete id => Service.deleteDocument id
  | .deleteAll => Service.deleteAll
  | .get id => Service.get id
  | .getByTitle title => Service.getByTitle title
  | .list => Service.list
  | .count => Service.count
  | .pretty id => Service.pretty config id
  | .nodeExists id target => (Service.nodeExists id target).map .ok
  | .getNodeXml id target => Service.getNodeXml id target
  | .getNodeText id target => Service.getNodeText id target
  | .getAllXml id target => Service.getAllXml id target
  | .getAllTexts id target => Service.getAllTexts id target
  | .getNodesCarrying id target name value => Service.getNodesCarrying id target name value
  | .getAttributes id target => Service.getAttributes id target
  | .getAttribute id target name => Service.getAttribute id target name
  | .getRecords id target fields => Service.getRecords id target fields
  | .addNode id parent xml now => Service.addNode config id parent xml now
  | .editText id target text now => Service.editText config id target text now
  | .editName id target name now => Service.editName config id target name now
  | .addAttribute id target name value now => Service.addAttribute config id target name value now
  | .removeAttribute id target name now => Service.removeAttribute config id target name now
  | .deleteNode id target now => Service.deleteNode config id target now

end Task

/-- a finished operation -/
structure Entry where
  task : Task
  answer : Outcome task.Value

/-- whether an operation has given up because somebody else had changed the document -/
def Entry.conflicted (e : Entry) : Bool :=
  match e.answer with
  | .error (.concurrentModification _) => true
  | _ => false

/-- a statement that was made, and the reply to it -/
structure Exchange where
  statement : Statement
  reply : statement.Reply

/-- the operations that have not given up -/
def kept (entries : List Entry) : List Entry :=
  entries.filter fun e => !e.conflicted

/-- an operation under way, over connections `κ` -/
structure Process (κ : Type) where
  task : Task
  held : κ
  /-- the statements made so far -/
  past : List Exchange
  /-- the statement to be made next -/
  statement : Statement
  go : statement.Reply → Session (Outcome task.Value)

/-- clients at a store, over what is shared `σ` and connections `κ` -/
structure World (σ κ : Type) where
  shared : σ
  running : List (Process κ)
  /-- in the order of their last statements -/
  finished : List Entry

/-- what one client does next -/
inductive Action where
  /-- begins an operation: checks its arguments and opens a connection -/
  | start (task : Task)
  /-- the next statement of an operation under way -/
  | advance (i : Nat)
  deriving DecidableEq, Repr

namespace World

variable {σ κ : Type}

def initial (shared : σ) : World σ κ := ⟨shared, [], []⟩

/-- an operation after its last step, which goes on or has its answer -/
def settle (w : World σ κ) (task : Task) (held : κ) (past : List Exchange) :
    Session (Outcome task.Value) → World σ κ
  | .done answer => { w with finished := w.finished ++ [⟨task, answer⟩] }
  | .call statement go => { w with running := w.running ++ [⟨task, held, past, statement, go⟩] }

/-- one step of one client; there is none for an operation that is not under way -/
def step (backend : Backend σ κ) (config : Config) (w : World σ κ) : Action → World σ κ
  | .start task =>
    match task.request config with
    | .done answer => { w with finished := w.finished ++ [⟨task, answer⟩] }
    | .connect refused session =>
      match backend.connect w.shared with
      | .error error => { w with finished := w.finished ++ [⟨task, refused error⟩] }
      | .ok held => w.settle task held [] session
  | .advance i =>
    match w.running[i]? with
    | none => w
    | some p =>
      let (reply, shared, held) := backend.perform p.statement w.shared p.held
      let w := { w with shared, running := w.running.eraseIdx i }
      w.settle p.task held (p.past ++ [⟨p.statement, reply⟩]) (p.go reply)

def run (backend : Backend σ κ) (config : Config) (w : World σ κ) (actions : List Action) : World σ κ :=
  actions.foldl (step backend config) w

end World

/-- one operation after the other, each with nobody else acting -/
def serially {σ κ : Type} (backend : Backend σ κ) (config : Config) : List Task → σ → List Entry × σ
  | [], shared => ([], shared)
  | task :: rest, shared =>
    let (answer, shared) := (task.request config).run backend shared
    let (entries, shared) := serially backend config rest shared
    (⟨task, answer⟩ :: entries, shared)

end XmlStore.Service
