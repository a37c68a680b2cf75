/-
The times at which operations write.

A time is stored with the row that is written and answered with it, and nothing else depends on it. So an operation that writes at
another time, on a store whose rows were written at other times, has the same answer and leaves the same rows, but for the times in
them. What is left of everything when the times are taken away is written with all of them at 0 (`untimed`).

Main statements:
- `Table.perform_untimed`: statements, without times.
- `Call.request_untimed`: operations, without times.
-/
import XmlStore.Proofs.Service.Effects

namespace XmlStore

namespace Row

/-- the row without its times -/
def untimed (row : Row) : Row := { row with createdAt := 0, modifiedAt := 0 }

@[simp] theorem untimed_id (row : Row) : row.untimed.id = row.id := rfl

@[simp] theorem untimed_title (row : Row) : row.untimed.title = row.title := rfl

@[simp] theorem untimed_content (row : Row) : row.untimed.content = row.content := rfl

@[simp] theorem untimed_version (row : Row) : row.untimed.version = row.version := rfl

theorem touch_untimed (row : Row) (now : UInt64) : row.untimed.touch 0 = (row.touch now).map untimed := by
  rw [touch, touch, Option.map_map]
  rfl

end Row

theorem Patch.apply_untimed (patch : Patch) (row : Row) : patch.apply row.untimed = (patch.apply row).untimed := rfl

def RowSummary.untimed (summary : RowSummary) : RowSummary := { summary with modifiedAt := 0 }

def Stored.untimed (stored : Stored) : Stored := { stored with rows := stored.rows.map Row.untimed }

namespace Statement

/-- the statement without the times that it writes -/
def untimed : Statement → Statement
  | .fetchById id => .fetchById id
  | .fetchByTitle title => .fetchByTitle title
  | .fetchAll => .fetchAll
  | .insert row => .insert row.untimed
  | .updateContent id content expected _ => .updateContent id content expected 0
  | .updateFields id patch _ => .updateFields id patch 0
  | .delete id => .delete id
  | .deleteAll => .deleteAll
  | .count => .count

def forget : (s : Statement) → s.Result → s.untimed.Result
  | .fetchById _, row => row.map Row.untimed
  | .fetchByTitle _, row => row.map Row.untimed
  | .fetchAll, rows => rows.map Row.untimed
  | .insert _, id => id
  | .updateContent .., version => version
  | .updateFields .., version => version
  | .delete _, removed => removed
  | .deleteAll, number => number
  | .count, number => number

end Statement

/-! ## Statements -/

namespace Table

def untimed (t : Table) : Table := { t with rows := t.rows.map Row.untimed }

@[simp] theorem untimed_titles (t : Table) : t.untimed.titles = t.titles := rfl

@[simp] theorem untimed_lastId (t : Table) : t.untimed.lastId = t.lastId := rfl

@[simp] theorem byId_untimed (t : Table) (id : UInt64) : t.untimed.byId id = (t.byId id).map Row.untimed := by
  rw [byId, byId, untimed, List.find?_map]
  rfl

theorem byTitle_untimed (t : Table) (title : String) : t.untimed.byTitle title = (t.byTitle title).map Row.untimed := by
  rw [byTitle, byTitle, untimed_titles, Option.map_bind]
  congr 1
  funext id
  exact byId_untimed t id

theorem insertRow_untimed (row : Row) (rows : List Row) :
    insertRow row.untimed (rows.map Row.untimed) = (insertRow row rows).map Row.untimed := by
  induction rows with
  | nil => rfl
  | cons first rest ih =>
    simp only [insertRow, List.map_cons, Row.untimed_id, ih]
    split
    · rfl
    · split <;> rfl

theorem changeRow_untimed (id : UInt64) (row : Row) (rows : List Row) :
    changeRow id (fun _ => row.untimed) (rows.map Row.untimed) = (changeRow id (fun _ => row) rows).map Row.untimed := by
  rw [changeRow, changeRow, List.map_map, List.map_map]
  refine List.map_congr_left ?_
  intro other _
  exact (apply_ite Row.untimed (other.id = id) row other).symm

theorem insert_untimed (t : Table) (row : Row) :
    t.untimed.insert row.untimed = ((t.insert row).1, (t.insert row).2.untimed) := by
  rw [insert, insert, untimed_titles, untimed_lastId, Row.untimed_title]
  split
  · rfl
  · split
    · rfl
    · rename_i id _
      dsimp only [untimed]
      rw [← insertRow_untimed]
      rfl

theorem updateContent_untimed (t : Table) (id : UInt64) (content : String) (expected : Option UInt64) (now : UInt64) :
    t.untimed.updateContent id content expected 0 =
      ((t.updateContent id content expected now).1, (t.updateContent id content expected now).2.untimed) := by
  rw [updateContent, updateContent, byId_untimed]
  cases t.byId id with
  | none => rfl
  | some old =>
    dsimp only [Option.map_some, Row.untimed]
    cases expected.filter (· ≠ old.version) with
    | some expected => rfl
    | none =>
      dsimp only
      have touched := Row.touch_untimed { old with content } now
      dsimp only [Row.untimed] at touched
      rw [touched]
      cases Row.touch { old with content } now with
      | none => rfl
      | some row =>
        dsimp only [Option.map_some, untimed]
        rw [changeRow_untimed]
        rfl

theorem updateFields_untimed (t : Table) (id : UInt64) (patch : Patch) (now : UInt64) :
    t.untimed.updateFields id patch 0 = ((t.updateFields id patch now).1, (t.updateFields id patch now).2.untimed) := by
  rw [updateFields, updateFields, byId_untimed]
  cases t.byId id with
  | none => rfl
  | some old =>
    simp only [Option.map_some, untimed_titles]
    cases patch.title.filter fun title => ((t.titles.lookup title).filter (· ≠ id)).isSome with
    | some title => rfl
    | none =>
      simp only
      rw [Patch.apply_untimed, Row.touch_untimed _ now]
      cases (patch.apply old).touch now with
      | none => rfl
      | some row =>
        dsimp only [Option.map_some, untimed]
        rw [changeRow_untimed]
        rfl

theorem delete_untimed (t : Table) (id : UInt64) : t.untimed.delete id = ((t.delete id).1, (t.delete id).2.untimed) := by
  rw [delete, delete, byId_untimed]
  cases t.byId id with
  | none => rfl
  | some row => exact congrArg (fun rows => (true, (⟨rows, _, t.lastId⟩ : Table))) (List.filter_map ..)

/-- **A statement** on a table without times does what it does with them, without them. -/
theorem perform_untimed (t : Table) (s : Statement) :
    t.untimed.perform s.untimed = ((t.perform s).1.map s.forget, (t.perform s).2.untimed) := by
  have plain {α : Type} (answer : Except StoreError α) (t' : Table) : (answer, t') = (answer.map id, t') := by
    rw [Except.map_id]
    rfl
  cases s with
  | fetchById id => exact congrArg (fun row => (Except.ok row, t.untimed)) (byId_untimed t id)
  | fetchByTitle title => exact congrArg (fun row => (Except.ok row, t.untimed)) (byTitle_untimed t title)
  | fetchAll => rfl
  | insert row => exact (insert_untimed t row).trans (plain _ _)
  | updateContent id content expected now => exact (updateContent_untimed t id content expected now).trans (plain _ _)
  | updateFields id patch now => exact (updateFields_untimed t id patch now).trans (plain _ _)
  | delete id =>
    simp only [perform, Statement.untimed, delete_untimed]
    rfl
  | deleteAll =>
    simp only [perform, Statement.untimed, deleteAll, untimed, List.length_map]
    rfl
  | count =>
    simp only [perform, Statement.untimed, untimed, List.length_map]
    rfl

end Table

/-! ## Operations -/

namespace Memory

/-- the memory with no times in its rows -/
def untimed (m : Memory) : Memory := { m with table := m.table.untimed }

theorem perform_untimed (m : Memory) (s : Statement) :
    m.untimed.perform s.untimed = ((m.perform s).1.map s.forget, (m.perform s).2.untimed) := by
  unfold perform
  rw [show m.untimed.reachable = m.reachable from rfl]
  split
  · rw [show m.untimed.table = m.table.untimed from rfl, Table.perform_untimed]
    rfl
  · rfl

end Memory

namespace Service

open Xml

variable {α β γ δ : Type}

/-- whether a session makes the statements of another one without their times, and `forget` makes its answer of the answer of that -/
inductive Session.Untimed (forget : α → β) : Session α → Session β → Prop where
  | done (answer : α) : Untimed forget (.done answer) (.done (forget answer))
  | call (s : Statement) {go : s.Reply → Session α} {go' : s.untimed.Reply → Session β}
      (h : ∀ reply, Untimed forget (go reply) (go' (reply.map s.forget))) : Untimed forget (.call s go) (.call s.untimed go')

/-- whether a request is another one without its times -/
inductive Request.Untimed (forget : α → β) : Request α → Request β → Prop where
  | done (answer : α) : Untimed forget (.done answer) (.done (forget answer))
  | connect {refused : StoreError → α} {refused' : StoreError → β} {session : Session α} {session' : Session β}
      (hr : ∀ error, refused' error = forget (refused error)) (h : session.Untimed forget session') :
      Untimed forget (.connect refused session) (.connect refused' session')

namespace Session.Untimed

variable {forget : α → β} {forget' : γ → δ} {x : Session α} {y : Session β}

theorem run (h : x.Untimed forget y) (m : Memory) :
    y.run Memory.backend m.untimed () = (forget (x.run Memory.backend m ()).1, (x.run Memory.backend m ()).2.untimed) := by
  induction h generalizing m with
  | done answer => rfl
  | call s h ih =>
    simp only [Session.run, Memory.backend, Memory.perform_untimed]
    exact ih _ _

theorem andThen {next : α → Session γ} {next' : β → Session δ} (h : x.Untimed forget y)
    (hn : ∀ answer, (next answer).Untimed forget' (next' (forget answer))) : (x.andThen next).Untimed forget' (y.andThen next') := by
  induction h with
  | done answer => exact hn answer
  | call s h ih => exact .call s ih

theorem map {change : α → γ} {change' : β → δ} (h : x.Untimed forget y)
    (hc : ∀ answer, change' (forget answer) = forget' (change answer)) : (x.map change).Untimed forget' (y.map change') := by
  refine h.andThen ?_
  intro answer
  rw [hc]
  exact .done _

end Session.Untimed

namespace Request.Untimed

variable {forget : α → β} {forget' : γ → δ} {x : Request α} {y : Request β}

theorem run (h : x.Untimed forget y) (m : Memory) :
    y.run Memory.backend m.untimed = (forget (x.run Memory.backend m).1, (x.run Memory.backend m).2.untimed) := by
  cases h with
  | done answer => rfl
  | connect hr h =>
    have reached : m.untimed.reachable = m.reachable := rfl
    simp only [Request.run, Memory.backend, Memory.connect, reached]
    split
    · rename_i error _
      rw [hr]
    · exact h.run m

theorem map {change : α → γ} {change' : β → δ} (h : x.Untimed forget y)
    (hc : ∀ answer, change' (forget answer) = forget' (change answer)) : (x.map change).Untimed forget' (y.map change') := by
  cases h with
  | done answer =>
    rw [Request.map, Request.map, hc]
    exact .done _
  | connect hr h => exact .connect (fun error => by rw [hr, hc]) (h.map hc)

end Request.Untimed

theorem untimed_ask (s : Statement) : (ask s).Untimed (Except.map s.forget) (ask s.untimed) := by
  refine .call s ?_
  intro reply
  cases reply with
  | error error => exact .done _
  | ok result => exact .done _

theorem Session.Untimed.whenOk {f : α → β} {g : γ → δ} {x : Session (Outcome α)} {y : Session (Outcome β)}
    {next : α → Session (Outcome γ)} {next' : β → Session (Outcome δ)} (h : x.Untimed (Except.map f) y)
    (hn : ∀ answer, (next answer).Untimed (Except.map g) (next' (f answer))) :
    (x.whenOk next).Untimed (Except.map g) (y.whenOk next') := by
  refine h.andThen ?_
  intro answer
  cases answer with
  | error failure => exact .done (Except.error failure)
  | ok answer => exact hn answer

theorem untimed_connecting {f : α → β} {x : Session (Outcome α)} {y : Session (Outcome β)} (h : x.Untimed (Except.map f) y) :
    (connecting x).Untimed (Except.map f) (connecting y) :=
  .connect (fun _ => rfl) h

/-- a request whose answer has no times in it -/
theorem Request.Untimed.plain {x y : Request (Outcome α)} (h : x.Untimed (Except.map id) y) : x.Untimed id y := by
  rwa [Except.map_id] at h

theorem Request.Untimed.answer {x y : Request α} (h : x.Untimed id y) (change : α → γ) :
    (x.map change).Untimed id (y.map change) :=
  h.map fun _ => rfl

theorem untimed_fetchRow (key : UInt64) : (fetchRow key).Untimed (Except.map Row.untimed) (fetchRow key) := by
  refine (untimed_ask (.fetchById key)).whenOk ?_
  intro row
  cases row with
  | none => exact .done _
  | some row => exact .done (Except.ok row)

theorem untimed_loadRow (key : UInt64) :
    (loadRow key).Untimed (Except.map fun loaded : Row × Document => (loaded.1.untimed, loaded.2)) (loadRow key) := by
  refine (untimed_fetchRow key).whenOk ?_
  intro row
  rw [Row.untimed_content]
  have read (content : Outcome Document) : content.map (fun d => (row.untimed, d)) =
      (content.map fun d => (row, d)).map fun loaded : Row × Document => (loaded.1.untimed, loaded.2) := by
    cases content <;> rfl
  rw [read]
  exact .done _

theorem untimed_load (key : UInt64) : (load key).Untimed id (load key) := by
  refine (untimed_connecting ((untimed_loadRow key).map ?_)).plain
  intro answer
  cases answer <;> rfl

/-! ### Operations on documents -/

theorem untimed_create (title description xml : String) (now : UInt64) :
    (create title description xml now).Untimed id (create title description xml 0) := by
  unfold create
  split
  · exact .done _
  · exact (untimed_connecting (untimed_ask (.insert (.new title description _ now)))).plain

theorem untimed_modify (key : UInt64) (patch : Patch) (now : UInt64) :
    (modify key patch now).Untimed id (modify key patch 0) := by
  unfold modify
  split
  · exact .done _
  · refine (untimed_connecting ?_).plain
    split
    · exact (untimed_fetchRow key).whenOk fun _ => .done _
    · exact (untimed_ask (.updateFields key _ now)).whenOk fun _ => .done _

theorem untimed_getByTitle (title : String) : (getByTitle title).Untimed (Except.map Row.untimed) (getByTitle title) := by
  refine untimed_connecting ((untimed_ask (.fetchByTitle title)).whenOk ?_)
  intro row
  cases row with
  | none => exact .done _
  | some row => exact .done (Except.ok row)

theorem untimed_list : list.Untimed (Except.map (List.map RowSummary.untimed)) list := by
  refine untimed_connecting ((untimed_ask .fetchAll).whenOk ?_)
  intro rows
  have summaries : (rows.map Row.untimed).map Row.summary = (rows.map Row.summary).map RowSummary.untimed := by
    rw [List.map_map, List.map_map]
    rfl
  rw [show Statement.fetchAll.forget rows = rows.map Row.untimed from rfl, summaries]
  exact .done (Except.ok (rows.map Row.summary))

/-! ### Operations on nodes -/

theorem untimed_nodeExists (key : UInt64) (target : Target) : (nodeExists key target).Untimed id (nodeExists key target) :=
  (untimed_load key).answer _

theorem untimed_readLookup (key : UInt64) (target : Target) (read : List (Element Nat) → Lookup α) :
    (readLookup key target read).Untimed id (readLookup key target read) :=
  (untimed_load key).answer _

theorem untimed_readValue (key : UInt64) (target : Target) (read : Document → List (Element Nat) → Outcome α) :
    (readValue key target read).Untimed id (readValue key target read) :=
  (untimed_load key).answer _

theorem untimed_mutate (config : Config) (key : UInt64) (target : Target) (edit : Edit) (now : UInt64) :
    (mutate config key target edit now).Untimed id (mutate config key target edit 0) := by
  refine (untimed_connecting ((untimed_loadRow key).whenOk ?_)).plain
  rintro ⟨row, d⟩
  dsimp only
  split
  · exact .done _
  · exact .done _
  · exact (untimed_ask (.updateContent key _ _ now)).whenOk fun _ => .done _

theorem untimed_addNode (config : Config) (key : UInt64) (parent : Target) (xml : String) (now : UInt64) :
    (addNode config key parent xml now).Untimed id (addNode config key parent xml 0) := by
  unfold addNode
  split
  · exact .done _
  · exact untimed_mutate config key parent _ now

/-! ## All operations -/

namespace Task

/-- the operation without the time at which it writes -/
def untimed : Task → Task
  | .create title description xml _ => .create title description xml 0
  | .modify id patch _ => .modify id patch 0
  | .addNode id parent xml _ => .addNode id parent xml 0
  | .editText id target text _ => .editText id target text 0
  | .editName id target name _ => .editName id target name 0
  | .addAttribute id target name value _ => .addAttribute id target name value 0
  | .removeAttribute id target name _ => .removeAttribute id target name 0
  | .deleteNode id target _ => .deleteNode id target 0
  | task => task

def forget : (task : Task) → Outcome task.Value → Outcome task.untimed.Value
  | .get _, answer | .getByTitle _, answer => answer.map Row.untimed
  | .list, answer => answer.map (List.map RowSummary.untimed)
  | .create .., answer | .modify .., answer | .delete _, answer | .deleteAll, answer | .count, answer | .pretty _, answer
  | .nodeExists .., answer | .getNodeXml .., answer | .getNodeText .., answer | .getAllXml .., answer
  | .getAllTexts .., answer | .getNodesCarrying .., answer | .getAttributes .., answer | .getAttribute .., answer
  | .getRecords .., answer | .addNode .., answer | .editText .., answer | .editName .., answer | .addAttribute .., answer
  | .removeAttribute .., answer | .deleteNode .., answer => answer

theorem request_untimed (config : Config) (task : Task) :
    (task.request config).Untimed task.forget (task.untimed.request config) := by
  cases task with
  | create title description xml now => exact untimed_create title description xml now
  | modify id patch now => exact untimed_modify id patch now
  | delete id => exact (untimed_connecting (untimed_ask (.delete id))).plain
  | deleteAll => exact (untimed_connecting (untimed_ask .deleteAll)).plain
  | get id => exact untimed_connecting (untimed_fetchRow id)
  | getByTitle title => exact untimed_getByTitle title
  | list => exact untimed_list
  | count => exact (untimed_connecting (untimed_ask .count)).plain
  | pretty id => exact (untimed_load id).answer _
  | nodeExists id target => exact (untimed_nodeExists id target).answer _
  | getNodeXml id target => exact untimed_readLookup id target _
  | getNodeText id target => exact untimed_readLookup id target _
  | getAllXml id target => exact untimed_readLookup id target _
  | getAllTexts id target => exact untimed_readLookup id target _
  | getNodesCarrying id target name value => exact untimed_readLookup id target _
  | getAttributes id target => exact untimed_readValue id target _
  | getAttribute id target name => exact untimed_readValue id target _
  | getRecords id target fields => exact untimed_readValue id target _
  | addNode id parent xml now => exact untimed_addNode config id parent xml now
  | editText id target text now => exact untimed_mutate config id target _ now
  | editName id target name now => exact untimed_mutate config id target _ now
  | addAttribute id target name value now => exact untimed_mutate config id target _ now
  | removeAttribute id target name now => exact untimed_mutate config id target _ now
  | deleteNode id target now => exact untimed_mutate config id target _ now

end Task

theorem untimed_execute (config : Config) (key : UInt64) (operation : NodeOperation) (now : UInt64) :
    (execute config key operation now).Untimed id (execute config key operation 0) := by
  cases operation with
  | exist locator => exact (untimed_nodeExists key (.ofText locator)).answer fun found => Except.ok (Output.bool found)
  | getXml locator => exact (untimed_readLookup key _ _).answer _
  | getText locator => exact (untimed_readLookup key _ _).answer _
  | getAllXml locator => exact (untimed_readLookup key _ _).answer _
  | getAllText locator => exact (untimed_readLookup key _ _).answer _
  | getAttributes locator => exact (untimed_readValue key _ _).answer _
  | getStructured locator fields => exact (untimed_readValue key _ _).answer _
  | getAttribute locator name => exact (untimed_readValue key _ _).answer _
  | getWithAttribute locator name value => exact (untimed_readLookup key _ _).answer _
  | addNode parent xml => exact (untimed_addNode config key _ xml now).answer _
  | editText locator text => exact (untimed_mutate config key _ _ now).answer _
  | rename locator name => exact (untimed_mutate config key _ _ now).answer _
  | addAttribute locator name value => exact (untimed_mutate config key _ _ now).answer _
  | removeAttribute locator name => exact (untimed_mutate config key _ _ now).answer _
  | delete locator => exact (untimed_mutate config key _ _ now).answer _

namespace Call

/-- the call without the time at which it writes -/
def untimed : Call → Call
  | .direct task => .direct task.untimed
  | .execute id operation _ => .execute id operation 0
  | .createFrom title description file _ => .createFrom title description file 0

def forget : (call : Call) → Outcome call.Value → Outcome call.untimed.Value
  | .direct task, answer => task.forget answer
  | .execute .., answer | .createFrom .., answer => answer

/-- **Every operation** is what it is at another time, but for the times that it writes and that are in its answer. -/
theorem request_untimed (config : Config) (call : Call) :
    (call.request config).Untimed call.forget (call.untimed.request config) := by
  cases call with
  | direct task => exact task.request_untimed config
  | execute id operation now => exact untimed_execute config id operation now
  | createFrom title description file now =>
    cases file with
    | error reason => exact .done _
    | ok xml => exact untimed_create title description xml now

end Call

end Service

end XmlStore
