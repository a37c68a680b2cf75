/-
Operations as sequences of statements.

A session is what is done on one open connection: it ends with an answer, or makes a statement and goes on according to the
reply. A request answers at once, or opens a connection for a session; when that fails it has its answer for that case too.
Between any two statements of a session others may act on the store, so a session says nothing about the store itself; it is
run against a backend.
-/
import XmlStore.Service.Error
import XmlStore.Store.Statement

namespace XmlStore.Service

/-- what is done on an open connection, up to an answer -/
inductive Session (α : Type) where
  | done (answer : α)
  | call (statement : Statement) (go : statement.Reply → Session α)

/-- an operation as a whole -/
inductive Request (α : Type) where
  | done (answer : α)
  | connect (refused : StoreError → α) (session : Session α)

namespace Session

variable {α β σ κ : Type}

/-- goes on with the answer of a session -/
def andThen : Session α → (α → Session β) → Session β
  | .done answer, next => next answer
  | .call statement go, next => .call statement fun reply => (go reply).andThen next

def map (change : α → β) (session : Session α) : Session β :=
  session.andThen fun answer => .done (change answer)

/-- runs a session on a connection, with nobody else acting -/
def run (backend : Backend σ κ) : Session α → σ → κ → α × σ
  | .done answer, shared, _ => (answer, shared)
  | .call statement go, shared, held =>
    let (reply, shared, held) := backend.perform statement shared held
    (go reply).run backend shared held

end Session

namespace Request

variable {α β σ κ : Type}

def map (change : α → β) : Request α → Request β
  | .done answer => .done (change answer)
  | .connect refused session => .connect (fun error => change (refused error)) (session.map change)

/-- runs a request on a connection of its own, with nobody else acting -/
def run (backend : Backend σ κ) : Request α → σ → α × σ
  | .done answer, shared => (answer, shared)
  | .connect refused session, shared =>
    match backend.connect shared with
    | .error error => (refused error, shared)
    | .ok held => session.run backend shared held

end Request

/-- the answer of an operation that may fail -/
abbrev Outcome (α : Type) := Except Failure α

/-- one statement, with its error as a failure -/
def ask (statement : Statement) : Session (Outcome statement.Result) :=
  .call statement fun reply => .done (reply.mapError Failure.ofStore)

/-- opens a connection for a session; if that fails the operation does -/
def connecting {α : Type} (session : Session (Outcome α)) : Request (Outcome α) :=
  .connect (fun error => .error (.ofStore error)) session

/-- goes on with the answer of a session unless it failed -/
def Session.whenOk {α β : Type} (session : Session (Outcome α)) (next : α → Session (Outcome β)) :
    Session (Outcome β) :=
  session.andThen fun
    | .error failure => .done (.error failure)
    | .ok answer => next answer

end XmlStore.Service
