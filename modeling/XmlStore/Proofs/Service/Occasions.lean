/-
Operations on one document, by what they find.

An operation on the nodes of a document opens a connection, fetches the row, and writes it at most once. On a store in memory somebody
else may act in between, right before either statement; a file may fail to be written for reasons of its own. What is answered
depends on nothing but what is found: the row or a failure when it is fetched, and when it is written (`Occasion.fetched`,
`Occasion.atUpdate`), and whether the file can be written then (`Occasion.unsaved?`).

Main statements:
- `Occasion.run_load`: what reading operations make of the row that is fetched.
- `Occasion.run_mutate`: what editing operations make of it and of what is there when they write.
-/
import XmlStore.Proofs.Service.Connections
import XmlStore.Proofs.Service.Refinement
import XmlStore.Store.Interference

namespace XmlStore

/-- a store in a file that cannot be written at present -/
def FileStore.unwritten (store : FileStore) (reason : String) : Backend Directory Table where
  connect := store.load
  perform s d held := let (reply, held) := FileStore.performUnwritten (.io reason) s held; (reply, d, held)
  isReachable := store.isReachable

namespace TrappedMemory

/-- a trap waits for a kind of statement, whatever else there is about it -/
theorem spring_congr (m : TrappedMemory) {s s' : Statement} (kind : s.kind = s'.kind) : m.spring s = m.spring s' := by
  rw [spring, spring, kind]

/-- what is under an id in a store in memory, if that answers -/
def lookUp (m : TrappedMemory) (id : UInt64) : Except StoreError (Option Row) :=
  if m.memory.reachable then .ok (m.memory.table.byId id) else .error (.unavailable "memory store went offline")

/-- a fetch leaves the store as it is, but for what somebody else does before it -/
theorem perform_fetch (m : TrappedMemory) (id : UInt64) :
    m.perform (.fetchById id) = ((m.spring (.fetchById id)).lookUp id, m.spring (.fetchById id)) := by
  rw [lookUp]
  simp only [perform, Memory.perform]
  cases reachable : (m.spring (.fetchById id)).memory.reachable with
  | true => simp only [if_true, Table.perform, ← reachable]
  | false => rfl

end TrappedMemory

namespace Service

open Xml

/-- a store on which an operation is run once, with all that happens meanwhile -/
inductive Occasion where
  /-- in memory, where somebody else may act -/
  | memory (m : TrappedMemory)
  /-- in a file, which may fail to be written for a reason outside the directory -/
  | file (store : FileStore) (d : Directory) (reason : Option String)

namespace Occasion

variable {α : Type} {id : UInt64}

/-- what an operation answers -/
def run (request : Request α) : Occasion → α
  | .memory m => (request.run TrappedMemory.backend m).1
  | .file store d none => (request.run store.backend d).1
  | .file store d (some reason) => (request.run (store.unwritten reason) d).1

/-- what a fetch on a new connection finds under an id -/
def fetched (id : UInt64) : Occasion → Except StoreError (Option Row)
  | .memory m => do
    m.memory.connect
    (m.spring (.fetchById id)).lookUp id
  | .file store d _ => (store.load d).map fun t => t.byId id

/-- what an update after that finds there -/
def atUpdate (id : UInt64) : Occasion → Except StoreError (Option Row)
  | .memory m => ((m.spring (.fetchById id)).spring (.updateContent id "" none 0)).lookUp id
  | .file store d _ => (store.load d).map fun t => t.byId id

/-- why the file cannot be written after an update of the table, if it cannot -/
def unsaved? : Occasion → Option StoreError
  | .memory _ => none
  | .file _ _ (some reason) => some (.io reason)
  | .file store d none =>
    match store.save d .empty with
    | .error error => some error
    | .ok _ => none

end Occasion

/-- the row and the document in it that an operation goes on with after a fetch -/
def opened (id : UInt64) : Except StoreError (Option Row) → Outcome (Row × Document)
  | .error error => .error (.ofStore error)
  | .ok none => .error (.documentNotFound (.id id))
  | .ok (some row) => (readContent row.content).map fun d => (row, d)

/-- an operation goes on with a document if the row is there and can be read -/
theorem opened_eq_ok {id : UInt64} {found : Except StoreError (Option Row)} {row : Row} {d : Document} :
    opened id found = .ok (row, d) ↔ found = .ok (some row) ∧ Document.parse row.content = .ok d := by
  rcases found with error | (_ | there)
  · simp [opened]
  · simp [opened]
  · rw [opened, map_eq_ok]
    simp only [Except.ok.injEq, Option.some.injEq, Prod.mk.injEq, readContent, mapError_eq_ok]
    constructor
    · rintro ⟨d', read, rfl, rfl⟩
      exact ⟨rfl, read⟩
    · rintro ⟨rfl, read⟩
      exact ⟨d, read, rfl, rfl⟩

/-- what comes of writing the content of a row that was fetched, by what is there then and by why the file cannot be written -/
def writing (config : Config) (id : UInt64) (row : Row) (unsaved : Option StoreError) :
    Except StoreError (Option Row) → Outcome Bool
  | .error error => .error (.store error)
  | .ok none => .error (.documentNotFound (.id id))
  | .ok (some current) =>
    if config.optimisticConcurrency = true ∧ current.version ≠ row.version then .error (.concurrentModification id)
    else if (nextWord? current.version).isNone then .error (.store .overflow)
    else unsaved.elim (.ok true) fun error => .error (.store error)

namespace Occasion

variable {α β : Type} {occasion : Occasion} {id : UInt64}

/-! ## Any backend -/

section Backends

variable {σ κ : Type} {backend : Backend σ κ} {shared shared' : σ} {held held' : κ} {found : Except StoreError (Option Row)}

theorem run_map_session (session : Session α) (change : α → β) (backend : Backend σ κ) (shared : σ) (held : κ) :
    (session.map change).run backend shared held =
      (change (session.run backend shared held).1, (session.run backend shared held).2) := by
  induction session generalizing shared held with
  | done answer => rfl
  | call s go ih => exact ih _ _ _

theorem run_map_request (request : Request α) (change : α → β) (backend : Backend σ κ) (shared : σ) :
    (request.map change).run backend shared = (change (request.run backend shared).1, (request.run backend shared).2) := by
  cases request with
  | done answer => rfl
  | connect refused session =>
    simp only [Request.map, Request.run]
    cases backend.connect shared with
    | error error => rfl
    | ok held => exact run_map_session session change backend shared held

/-- the condition under which the service updates a row -/
def condition (config : Config) (row : Row) : Option UInt64 :=
  if config.optimisticConcurrency then some row.version else none

/-- an operation that ends with one more statement is told by what that is answered with, and leaves what that leaves -/
theorem run_last (s : Statement) :
    ((ask s).whenOk fun _ => .done (.ok true)).run backend shared held =
      (((backend.perform s shared held).1.mapError Failure.ofStore).map fun _ => true, (backend.perform s shared held).2.1) := by
  simp only [ask, Session.whenOk, Session.andThen, Session.run]
  cases (backend.perform s shared held).1 <;> rfl

/-- an operation that loads a row goes on with what it fetches -/
theorem run_loadRow (fetch : backend.perform (.fetchById id) shared held = (found, shared', held'))
    (next : Outcome (Row × Document) → Session α) :
    ((loadRow id).andThen next).run backend shared held = (next (opened id found)).run backend shared' held' := by
  simp only [loadRow, fetchRow, ask, Session.whenOk, Session.andThen, Session.run, fetch]
  rcases found with error | (_ | row)
  · rfl
  · rfl
  · rfl

/-- an editing operation goes on with what it has fetched to what it is answered when it writes -/
theorem run_editing (fetch : backend.perform (.fetchById id) shared held = (found, shared', held')) (config : Config)
    (target : Target) (edit : Edit) (now : UInt64) :
    ((editing config id target edit now).run backend shared held).1 =
      (opened id found).bind fun (row, d) => (edit.content target d).bind fun
        | none => .ok false
        | some content =>
          ((backend.perform (.updateContent id content (condition config row) now) shared' held').1.mapError Failure.ofStore).map
            fun _ => true := by
  rw [editing, Session.whenOk, run_loadRow fetch]
  cases opened id found with
  | error failure => rfl
  | ok loaded =>
    obtain ⟨row, d⟩ := loaded
    simp only [ok_bind]
    cases edit.content target d with
    | error failure => rfl
    | ok content =>
      cases content with
      | none => rfl
      | some content => exact congrArg Prod.fst (run_last _)

end Backends

/-! ## What statements find -/

/-- an update of a table by what is under the id -/
theorem update_writing (t : Table) (config : Config) (id : UInt64) (content : String) (row : Row) (now : UInt64) :
    (((t.perform (.updateContent id content (condition config row) now)).1.mapError Failure.ofStore).map fun _ => true) =
      writing config id row none (.ok (t.byId id)) := by
  cases found : t.byId id with
  | none =>
    rw [Table.updateContent_missing found]
    rfl
  | some current =>
    rw [writing, condition]
    by_cases conflict : config.optimisticConcurrency = true ∧ current.version ≠ row.version
    · rw [if_pos conflict, if_pos conflict.1, Table.updateContent_changed found conflict.2]
      rfl
    · rw [if_neg conflict, Table.updateContent_agreed found content]
      · cases nextWord? current.version <;> rfl
      · intro version given
        split at given
        · rename_i optimistic
          cases given
          exact (Decidable.not_not.1 fun other => conflict ⟨optimistic, other⟩).symm
        · cases given

/-- an update of a store in memory by what is there when somebody else has acted before it -/
theorem update_writing_memory (m : TrappedMemory) (config : Config) (id : UInt64) (content : String) (row : Row) (now : UInt64) :
    (((m.perform (.updateContent id content (condition config row) now)).1.mapError Failure.ofStore).map fun _ => true) =
      writing config id row none ((m.spring (.updateContent id "" none 0)).lookUp id) := by
  have springs : m.spring (.updateContent id content (condition config row) now) = m.spring (.updateContent id "" none 0) :=
    m.spring_congr rfl
  simp only [TrappedMemory.perform, springs, TrappedMemory.lookUp, Memory.perform]
  cases (m.spring (.updateContent id "" none 0)).memory.reachable with
  | true => exact update_writing _ config id content row now
  | false => rfl

/-- a table that has the row which was fetched takes the update, if there is a next version -/
theorem update_same {t : Table} (config : Config) {id : UInt64} (content : String) {row : Row} (found : t.byId id = some row)
    (now : UInt64) : (t.perform (.updateContent id content (condition config row) now)).1 =
      (nextWord? row.version).elim (.error .overflow) .ok := by
  apply Table.updateContent_agreed found
  intro version given
  unfold condition at given
  split at given <;> cases given
  rfl

/-- the row that was fetched is written if there is a next version and the file can be written -/
theorem writing_same (config : Config) (id : UInt64) (row : Row) (unsaved : Option StoreError) :
    writing config id row unsaved (.ok (some row)) =
      if (nextWord? row.version).isNone then .error (.store .overflow)
      else unsaved.elim (.ok true) fun error => .error (.store error) := by
  rw [writing, if_neg fun conflict => conflict.2 rfl]

/-- an update of a file by whether that can be written: the connection has the row that was fetched -/
theorem update_writing_file (store : FileStore) (d : Directory) {t : Table} (config : Config) {id : UInt64} (content : String)
    {row : Row} (found : t.byId id = some row) (now : UInt64) :
    (((store.perform (.updateContent id content (condition config row) now) d t).1.mapError Failure.ofStore).map fun _ => true) =
      writing config id row (unsaved? (.file store d none)) (.ok (some row)) := by
  have reply := update_same config content found now
  rw [writing_same, unsaved?]
  cases next : nextWord? row.version with
  | none =>
    rw [next] at reply
    rw [store.perform_of_error d reply]
    rfl
  | some version =>
    rw [next] at reply
    cases writable : store.save d .empty with
    | ok d₀ =>
      obtain ⟨d', saved⟩ :=
        FileStore.Writable.save ⟨d₀, writable⟩ (t.perform (.updateContent id content (condition config row) now)).2
      rw [store.perform_of_saved d reply rfl saved]
      rfl
    | error error =>
      rw [store.perform_of_unsaved d reply rfl ((FileStore.save_error_iff _).1 writable)]
      obtain ⟨reason, rfl⟩ := FileStore.save_error writable
      rfl

/-- an update while the file cannot be written for another reason -/
theorem update_writing_unwritten (store : FileStore) (d : Directory) (reason : String) {t : Table} (config : Config) {id : UInt64}
    (content : String) {row : Row} (found : t.byId id = some row) (now : UInt64) :
    (((FileStore.performUnwritten (.io reason) (.updateContent id content (condition config row) now) t).1.mapError
      Failure.ofStore).map fun _ => true) = writing config id row (unsaved? (.file store d (some reason))) (.ok (some row)) := by
  have reply := update_same config content found now
  rw [writing_same, unsaved?]
  unfold FileStore.performUnwritten
  generalize t.perform (.updateContent id content (condition config row) now) = performed at reply ⊢
  obtain ⟨reply', t'⟩ := performed
  cases next : nextWord? row.version with
  | none =>
    rw [next] at reply
    cases reply
    rfl
  | some version =>
    rw [next] at reply
    cases reply
    rfl

/-! ## What operations find -/

/-- how an operation begins: its connection is refused, or its fetch is answered with what is found, and so is an update of that row
after it -/
inductive Opens (occasion : Occasion) (id : UInt64) : Prop where
  | refused {error : StoreError} (found : occasion.fetched id = .error error)
    (runs : ∀ {α : Type} (session : Session (Outcome α)), occasion.run (connecting session) = .error (.ofStore error))
  | begun {σ κ : Type} (backend : Backend σ κ) (shared shared' : σ) (held held' : κ)
    (runs : ∀ {α : Type} (session : Session (Outcome α)), occasion.run (connecting session) = (session.run backend shared held).1)
    (fetch : backend.perform (.fetchById id) shared held = (occasion.fetched id, shared', held'))
    (update : ∀ config row content now, occasion.fetched id = .ok (some row) →
      (((backend.perform (.updateContent id content (condition config row) now) shared' held').1.mapError Failure.ofStore).map
        fun _ => true) = writing config id row occasion.unsaved? (occasion.atUpdate id))

theorem opens (occasion : Occasion) (id : UInt64) : occasion.Opens id := by
  cases occasion with
  | memory m =>
    cases reachable : m.memory.connect with
    | error error =>
      have found : fetched id (.memory m) = .error error := by simp [fetched, reachable]
      refine .refused found ?_
      intro α session
      simp [run, connecting, Request.run, TrappedMemory.backend, reachable]
    | ok held =>
      have found : fetched id (.memory m) = (m.spring (.fetchById id)).lookUp id := by simp [fetched, reachable]
      refine .begun TrappedMemory.backend m (m.spring (.fetchById id)) () () ?_ ?_ ?_
      · intro α session
        simp [run, connecting, Request.run, TrappedMemory.backend, reachable]
      · simp only [TrappedMemory.backend, m.perform_fetch, found]
      · intro config row content now _
        exact update_writing_memory _ config id content row now
  | file store d reason =>
    cases loaded : store.load d with
    | error error =>
      have found : fetched id (.file store d reason) = .error error := by simp [fetched, loaded]
      refine .refused found ?_
      intro α session
      cases reason <;> simp [run, connecting, Request.run, FileStore.backend, FileStore.unwritten, loaded]
    | ok t =>
      have found : fetched id (.file store d reason) = .ok (t.byId id) := by simp [fetched, loaded]
      cases reason with
      | none =>
        refine .begun store.backend d d t t ?_ (by rw [found]; rfl) ?_
        · intro α session
          simp [run, connecting, Request.run, FileStore.backend, loaded]
        · intro config row content now there
          have meets : atUpdate id (.file store d none) = .ok (some row) := there
          rw [found, Except.ok.injEq] at there
          rw [meets]
          exact update_writing_file store d config content there now
      | some reason =>
        refine .begun (store.unwritten reason) d d t t ?_ (by rw [found]; rfl) ?_
        · intro α session
          simp [run, connecting, Request.run, FileStore.unwritten, loaded]
        · intro config row content now there
          have meets : atUpdate id (.file store d (some reason)) = .ok (some row) := there
          rw [found, Except.ok.injEq] at there
          rw [meets]
          exact update_writing_unwritten store d reason config content there now

/-- a store that cannot be read is a failure of the store, and nothing else -/
theorem ofStore_of_fetched {error : StoreError} (h : occasion.fetched id = .error error) : Failure.ofStore error = .store error := by
  cases occasion with
  | memory m =>
    simp only [fetched, Memory.connect, TrappedMemory.lookUp] at h
    split at h
    · simp only [ok_bind'] at h
      split at h <;> cases h
      rfl
    · cases h
      rfl
  | file store d reason =>
    rcases FileStore.load_error (map_eq_error.1 h) with ⟨reason, rfl⟩ | rfl <;> rfl

theorem run_done (occasion : Occasion) (answer : α) : occasion.run (.done answer) = answer := by
  cases occasion with
  | memory m => rfl
  | file store d reason => cases reason <;> rfl

theorem run_map (occasion : Occasion) (request : Request α) (change : α → β) :
    occasion.run (request.map change) = change (occasion.run request) := by
  cases occasion with
  | memory m => exact congrArg Prod.fst (run_map_request request change _ m)
  | file store d reason => cases reason <;> exact congrArg Prod.fst (run_map_request request change _ d)

/-- **Reading operations** are told by what their fetch finds. -/
theorem run_load (occasion : Occasion) (id : UInt64) :
    occasion.run (load id) = (opened id (occasion.fetched id)).map Prod.snd := by
  rw [load]
  cases occasion.opens id with
  | refused found runs =>
    rw [runs, found]
    rfl
  | begun backend shared shared' held held' runs fetch update =>
    rw [runs, Session.map, run_loadRow fetch]
    rfl

/-- **Editing operations** are told by what their fetch finds and by what is there when they write. -/
theorem run_mutate (occasion : Occasion) (config : Config) (id : UInt64) (target : Target) (edit : Edit) (now : UInt64) :
    occasion.run (mutate config id target edit now) =
      (opened id (occasion.fetched id)).bind fun (row, d) => (edit.content target d).bind fun content =>
        if content.isNone then .ok false else writing config id row occasion.unsaved? (occasion.atUpdate id) := by
  rw [mutate_eq]
  cases occasion.opens id with
  | refused found runs =>
    rw [runs, found]
    rfl
  | begun backend shared shared' held held' runs fetch update =>
    rw [runs, run_editing fetch]
    cases found : occasion.fetched id with
    | error error => rfl
    | ok row =>
      cases row with
      | none => rfl
      | some row =>
        have written := fun content => update config row content now found
        simp only [opened]
        cases readContent row.content with
        | error failure => rfl
        | ok d =>
          simp only [ok_map, ok_bind]
          cases edit.content target d with
          | error failure => rfl
          | ok content =>
            cases content with
            | none => rfl
            | some content => exact written content

end Occasion

end Service

end XmlStore
