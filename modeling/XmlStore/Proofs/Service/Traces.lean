/-
What a failed statement leaves behind.

A connection to a file changes its own table first and then writes the file. So a statement can fail in two ways. If the table refuses
it, nothing has changed. If the file cannot be written, the directory is as it was, but the connection goes on with the table as it was
to be written: what comes later is answered from that table, and the next statement that can be written writes it.

Main statements:
- `Table.perform_eq_of_unseen`: whoever sees no difference between a table before and after a statement has the same table.
- `Stock.failed_traceless_iff`: when it is as if a failed statement had never been made.
-/
import XmlStore.Proofs.Service.Connections
import XmlStore.Proofs.Service.Interleaving

namespace XmlStore

namespace Table

variable {t : Table} {s : Statement}

/-! ## Tables that look alike -/

/-- a row that is written anew shows under its id, since its version is another one -/
theorem byId_ne_of_renewed {t' : Table} {id now : UInt64} {old : Row} (row : Row) (found : t.byId id = some old)
    (room : old.version.toNat + 1 < UInt64.size) (key : row.id = old.id) (version : row.version = old.version)
    (rows : t'.rows = changeRow id (fun _ => row.renewed now) t.rows) : t'.byId id ≠ t.byId id := by
  intro same
  have later : old.version < (row.renewed now).version := lt_of_nextWord? (nextWord?_eq_some.2 ⟨room, by rw [Row.renewed, version]⟩)
  rw [byId_renewed row found key rows, found, Option.some.injEq] at same
  rw [same] at later
  exact UInt64.lt_irrefl _ later

/-- **A statement that works is seen** in the rows, under an id or in the titles that are taken, unless it has left the table as it
was. -/
theorem perform_eq_of_unseen {result : s.Result} (works : (t.perform s).1 = .ok result) (rows : (t.perform s).2.rows = t.rows)
    (byId : ∀ id, (t.perform s).2.byId id = t.byId id)
    (free : ∀ title, ((t.perform s).2.titles.lookup title).isNone = (t.titles.lookup title).isNone) : (t.perform s).2 = t := by
  cases s with
  | insert row =>
    exfalso
    have taken := free row.title
    rw [perform] at works taken
    rcases t.insert_cases row with ⟨error, -, e⟩ | ⟨id, untaken, -, e⟩ <;> rw [e] at works taken
    · cases works
    · simp [untaken, lookup_putTitle] at taken
  | updateContent id content expected now =>
    exfalso
    rw [perform] at works
    rcases t.updateContent_cases id content expected now with ⟨error, e⟩ | ⟨old, there, room, e⟩
    · rw [e] at works
      cases works
    · exact byId_ne_of_renewed { old with content } there room rfl rfl (by rw [perform, e]) (byId id)
  | updateFields id patch now =>
    exfalso
    rw [perform] at works
    rcases t.updateFields_cases id patch now with ⟨error, -, e⟩ | ⟨old, there, room, -, e⟩
    · rw [e] at works
      cases works
    · exact byId_ne_of_renewed (patch.apply old) there room rfl rfl (by rw [perform, e]) (byId id)
  | delete id =>
    cases there : t.byId id with
    | none => simp only [perform, delete, there]
    | some old =>
      have gone : (t.perform (.delete id)).2.byId id = none := by
        simp only [perform, delete, there]
        exact (find?_filter_id t.rows id id).trans (if_pos rfl)
      rw [byId, there] at gone
      cases gone
  | deleteAll =>
    have none : t.rows = [] := rows.symm
    have untitled : t.titles = [] := by
      cases titles : t.titles with
      | nil => rfl
      | cons first rest =>
        have taken := free first.1
        rw [titles] at taken
        simp [perform, deleteAll] at taken
    obtain ⟨_, _, _⟩ := t
    cases none
    cases untitled
    rfl
  | _ => rfl

end Table

namespace Service

/-! ## What is seen on a connection -/

/-- what comes next on an open connection -/
inductive Event where
  /-- others change the directory that a file is in -/
  | others (change : Directory → Directory)
  /-- a statement is made; `refusal` is the reason if a file cannot be written at that time -/
  | statement (refusal : Option StoreError) (s : Statement)

namespace Stock

variable {stock : Stock} {held held' : Table}

/-- a store in a directory that others have changed -/
def disturbed (change : Directory → Directory) : Stock → Stock
  | .memory m => .memory m
  | .file store d => .file store (change d)

/-- the replies to all statements that are made, each with the store after it -/
def seen : List Event → Stock → Table → List (Exchange × Stock)
  | [], _, _ => []
  | .others change :: rest, stock, held => seen rest (stock.disturbed change) held
  | .statement refusal s :: rest, stock, held =>
    let (reply, stock, held) := stock.perform refusal s held
    (⟨s, reply⟩, stock) :: seen rest stock held

/-- whether it is all the same from now on which of two tables the connection holds: all replies, and the store after each -/
def Traceless (stock : Stock) (held held' : Table) : Prop :=
  ∀ later, seen later stock held' = seen later stock held

theorem Traceless.reply (h : stock.Traceless held held') (refusal : Option StoreError) (s : Statement) :
    (stock.perform refusal s held').1 = (stock.perform refusal s held).1 := by
  have same := h [.statement refusal s]
  simp only [seen, List.cons.injEq, Prod.mk.injEq, Exchange.mk.injEq, heq_eq_eq, true_and, and_true] at same
  exact same.1

theorem Traceless.disturbed (h : stock.Traceless held held') (change : Directory → Directory) :
    (stock.disturbed change).Traceless held held' :=
  fun later => h (.others change :: later)

/-! ## Failed statements -/

variable {store : FileStore} {d : Directory} {refusal : Option StoreError} {s : Statement}

/-- on a file that others leave alone, a statement that reads is answered by the table of the connection -/
theorem perform_reads (h : s.reads = true) : ((Stock.file store d).perform none s held).1 = (held.perform s).1 := by
  obtain ⟨result, reads, kept⟩ := held.perform_of_reads h
  have answers : (held.perform s).1 = .ok result := by rw [reads]
  simp only [perform, store.perform_of_kept d answers kept, answers]

/-- while a file cannot be written, whether a row is refused for its title tells whether that is taken -/
theorem perform_insert_refused_iff (store : FileStore) (d : Directory) (held : Table) (row : Row) :
    ((Stock.file store d).perform (some .serialization) (.insert row) held).1 = .error (.duplicateTitle row.title) ↔
      (held.titles.lookup row.title).isNone = false := by
  simp only [perform, FileStore.performUnwritten, Table.perform, Table.insert]
  cases held.titles.lookup row.title with
  | none => cases nextWord? held.lastId <;> simp [Statement.saves]
  | some id => simp

/-- a statement on a file that fails leaves the directory alone, and the connection with the table as it was to be written -/
theorem perform_failed {error : StoreError} (fails : ((Stock.file store d).perform refusal s held).1 = .error error) :
    ((Stock.file store d).perform refusal s held).2 = (.file store d, (held.perform s).2) := by
  cases refusal with
  | some reason =>
    simp only [perform, FileStore.performUnwritten]
    cases held.perform s with
    | mk reply table =>
      cases reply with
      | error => rfl
      | ok result => cases hs : s.saves result <;> simp only [hs, Bool.false_eq_true, if_false, if_true]
  | none =>
    simp only [perform] at fails ⊢
    cases reply : (held.perform s).1 with
    | error refused => rw [store.perform_of_error d reply, Table.perform_error reply]
    | ok result =>
      cases hs : s.saves result with
      | false =>
        rw [store.perform_of_kept d reply hs] at fails
        cases fails
      | true =>
        cases saved : store.save d (held.perform s).2 with
        | ok d' =>
          rw [store.perform_of_saved d reply hs saved] at fails
          cases fails
        | error reason => rw [store.perform_of_unsaved d reply hs saved]

/-- in memory a statement that fails leaves everything as it was -/
theorem perform_failed_memory {m : Memory} {error : StoreError}
    (fails : ((Stock.memory m).perform refusal s held).1 = .error error) :
    ((Stock.memory m).perform refusal s held).2 = (.memory m, held) := by
  simp only [perform, Memory.perform] at fails ⊢
  cases hr : m.reachable with
  | false => rfl
  | true =>
    simp only [hr, if_true] at fails ⊢
    rw [Table.perform_error fails]
    simp only [← hr]

/-- **What a failed statement leaves behind.** A statement on a file that has failed, whatever the reason, has left the directory as it
was, and the connection goes on with the table as that was to be written. So it is as if the statement had never been made, for
all replies and for the directory after each, just when it changes nothing in the table: that is so whenever the table has refused it. But
when the file could not be written, what has failed is there for every later statement on the connection, unless nothing was to be
changed. -/
theorem failed_traceless_iff {error : StoreError} (fails : ((Stock.file store d).perform refusal s held).1 = .error error) :
    ((Stock.file store d).perform refusal s held).2 = (.file store d, (held.perform s).2) ∧
      ((Stock.file store d).Traceless held (held.perform s).2 ↔ (held.perform s).2 = held) ∧
      ∀ refused, (held.perform s).1 = .error refused → (Stock.file store d).Traceless held (held.perform s).2 := by
  refine ⟨perform_failed fails, ⟨?_, ?_⟩, ?_⟩
  · intro traceless
    cases works : (held.perform s).1 with
    | error refused => exact Table.perform_error works
    | ok result =>
      -- what is read on the connection later shows the rows, and what is inserted then shows the titles
      have read : ∀ q : Statement, q.reads = true → ((held.perform s).2.perform q).1 = (held.perform q).1 := by
        intro q hq
        have same := traceless.reply none q
        rwa [perform_reads hq, perform_reads hq] at same
      refine Table.perform_eq_of_unseen works ?_ ?_ ?_
      · exact Except.ok.inj (read .fetchAll rfl)
      · intro id
        exact Except.ok.inj (read (.fetchById id) rfl)
      · intro title
        have same := traceless.reply (some .serialization) (.insert (.new title "" "" 0))
        have taken := perform_insert_refused_iff store d (held.perform s).2 (.new title "" "" 0)
        rw [same, perform_insert_refused_iff] at taken
        rw [Bool.eq_iff_iff, ← Bool.not_eq_false, ← Bool.not_eq_false]
        exact (not_congr taken).symm
  · intro same later
    rw [same]
  · intro refused h later
    rw [Table.perform_error h]

/-- a store in a folder that is not there, so that its file cannot be written -/
def homeless : Stock := .file ⟨"d/store.json"⟩ (Directory.empty "/home")

/-- the same once somebody has made the folder -/
def housed : Stock := homeless.disturbed fun d => (d.makeFolder "d").toOption.getD d

theorem failed_traceless_iff_homeless :
    let insert := Statement.insert (.new "a" "" "<a/>" 0)
    let fault := StoreError.io "No such file or directory (os error 2)"
    ((homeless.perform none insert .empty).1 = .error fault ∧ ¬ homeless.Traceless .empty (Table.empty.perform insert).2) ∧
      (homeless.perform none .deleteAll .empty).1 = .error fault ∧ homeless.Traceless .empty (Table.empty.perform .deleteAll).2 := by
  intro insert fault
  have inserting : (homeless.perform none insert .empty).1 = .error fault := by decide +kernel
  have clearing : (homeless.perform none .deleteAll .empty).1 = .error fault := by decide +kernel
  have changed : (Table.empty.perform insert).2 ≠ .empty := by decide
  refine ⟨⟨inserting, ?_⟩, clearing, ?_⟩
  · intro traceless
    exact changed ((failed_traceless_iff inserting).2.1.1 traceless)
  · exact (failed_traceless_iff clearing).2.1.2 rfl

/-- A row that could not be written is there for the connection: the same row is refused for its title when the folder has been made,
although the file does not hold it, and would have been added if it had not been tried before. -/
theorem failed_insert_traced :
    let insert := Statement.insert (.new "a" "" "<a/>" 0)
    let held := (homeless.perform none insert .empty).2.2
    homeless.connect = .ok .empty ∧
      (homeless.perform none insert .empty).1 = .error (.io "No such file or directory (os error 2)") ∧
      (homeless.perform none insert .empty).2.1 = homeless ∧
      (housed.perform none insert .empty).1 = .ok 1 ∧ (housed.perform none insert held).1 = .error (.duplicateTitle "a") ∧
      ¬ homeless.Traceless .empty held := by
  intro insert held
  have untried : (housed.perform none insert .empty).1 = .ok 1 := by decide +kernel
  have tried : (housed.perform none insert held).1 = .error (.duplicateTitle "a") := by decide +kernel
  refine ⟨by decide +kernel, by decide +kernel, by decide +kernel, untried, tried, ?_⟩
  intro traceless
  have same := (traceless.disturbed fun d => (d.makeFolder "d").toOption.getD d).reply none insert
  exact absurd (tried.symm.trans (same.trans untried)) (by simp)

end Stock

end Service

end XmlStore
