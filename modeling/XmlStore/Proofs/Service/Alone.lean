/-
Operations with nobody else acting.

An operation reads, and then makes one statement at most that writes; it ends with that, and fails if that fails
(`Session.Atomic`). So it leaves a store as it was, or as one statement leaves it. That holds of a store in memory and of one in a
file alike, where a statement can fail also because the file cannot be written.

What lasts of a store is its rows and its counter (`Stored`); the index is made from the rows.

Main statements:
- `Session.Atomic.run_table`, `Session.Atomic.run_file`: what an operation does to a table, and to a file that holds it.
- `Stock.run_alone`: what it comes to on a store of either kind.
- `Stock.run_atomic`: so the store is left as it was, or the operation has succeeded and written.
-/
import XmlStore.Proofs.Store.File
import XmlStore.Service.Editing
import XmlStore.Store.Memory

namespace XmlStore

/-! ## What lasts of a store -/

/-- what lasts of a table -/
structure Stored where
  rows : List Row
  lastId : UInt64
  deriving DecidableEq, Repr

def Statement.reads : Statement → Bool
  | .fetchById _ => true
  | .fetchByTitle _ => true
  | .fetchAll => true
  | .count => true
  | _ => false

namespace Table

variable {t : Table} {s : Statement}

/-- what lasts of a table: all but the index -/
def stored (t : Table) : Stored := ⟨t.rows, t.lastId⟩

theorem Same.stored {t t' : Table} (h : t.Same t') : t.stored = t'.stored := by
  rw [Table.stored, Table.stored, h.rows, h.lastId]

/-- a table by itself, as a store that always answers -/
def backend : Backend Table Unit where
  connect _ := .ok ()
  perform s t _ := let (reply, t) := t.perform s; (reply, t, ())
  isReachable _ := true

theorem perform_of_reads (t : Table) (h : s.reads = true) : ∃ result, t.perform s = (.ok result, t) ∧ s.saves result = false := by
  cases s with
  | fetchById id => exact ⟨t.byId id, rfl, rfl⟩
  | fetchByTitle title => exact ⟨t.byTitle title, rfl, rfl⟩
  | fetchAll => exact ⟨t.rows, rfl, rfl⟩
  | count => exact ⟨t.rows.length, rfl, rfl⟩
  | _ => cases h

/-- after a statement for which the file is not written the table is what it was -/
theorem perform_of_not_saves {result : s.Result} (h : (t.perform s).1 = .ok result) (hs : s.saves result = false) :
    (t.perform s).2 = t := by
  cases s with
  | delete id =>
    simp only [perform, delete, Except.ok.injEq] at h ⊢
    split at h
    · rfl
    · subst h
      cases hs
  | insert => cases hs
  | updateContent => cases hs
  | updateFields => cases hs
  | deleteAll => cases hs
  | _ => rfl

end Table

namespace FileStore

variable {t : Table} {s : Statement} (store : FileStore) (d : Directory)

/-! ## Statements on a file -/

theorem perform_of_error {error : StoreError} (h : (t.perform s).1 = .error error) :
    store.perform s d t = (.error error, d, t) := by
  have kept := Table.perform_error h
  cases hp : t.perform s with
  | mk reply t' =>
    rw [hp] at h kept
    simp only at h kept
    simp only [perform, hp, h, kept]

/-- the file is not written after a statement for which it need not be -/
theorem perform_of_kept {result : s.Result} (h : (t.perform s).1 = .ok result) (hs : s.saves result = false) :
    store.perform s d t = (.ok result, d, t) := by
  have kept := Table.perform_of_not_saves h hs
  cases hp : t.perform s with
  | mk reply t' =>
    rw [hp] at h kept
    simp only at h kept
    simp only [perform, hp, h, kept, hs, Bool.false_eq_true, if_false]

theorem perform_of_saved {result : s.Result} (h : (t.perform s).1 = .ok result) (hs : s.saves result = true) {d' : Directory}
    (saved : store.save d (t.perform s).2 = .ok d') : store.perform s d t = (.ok result, d', (t.perform s).2) := by
  cases hp : t.perform s with
  | mk reply t' =>
    rw [hp] at h saved
    simp only at h saved
    simp only [perform, hp, h, hs, if_true, saved]

theorem perform_of_unsaved {result : s.Result} (h : (t.perform s).1 = .ok result) (hs : s.saves result = true)
    {error : StoreError} (unsaved : store.save d (t.perform s).2 = .error error) :
    store.perform s d t = (.error error, d, (t.perform s).2) := by
  cases hp : t.perform s with
  | mk reply t' =>
    rw [hp] at h unsaved
    simp only at h unsaved
    simp only [perform, hp, h, hs, if_true, unsaved]

end FileStore

namespace Service

variable {α β : Type}

/-! ## Connections -/

/-- a store in memory after a statement that it has answered -/
def after (m : Memory) (s : Statement) : Memory :=
  { m with table := (m.table.perform s).2 }

theorem perform_backend {m : Memory} (hr : m.reachable = true) (s : Statement) (held : Unit) :
    Memory.backend.perform s m held = ((m.table.perform s).1, after m s, ()) := by
  simp [Memory.backend, Memory.perform, hr, after]

theorem run_call {m : Memory} (hr : m.reachable = true) (s : Statement) (go : s.Reply → Session α) :
    (Session.call s go).run Memory.backend m () = (go (m.table.perform s).1).run Memory.backend (after m s) () := by
  rw [Session.run, perform_backend hr]

theorem run_connect {m : Memory} (hr : m.reachable = true) (refused : StoreError → α) (session : Session α) :
    (Request.connect refused session).run Memory.backend m = session.run Memory.backend m () := by
  have opens : Memory.backend.connect m = .ok () := by simp [Memory.backend, Memory.connect, hr]
  rw [Request.run, opens]

theorem run_connect_file {store : FileStore} {d : Directory} {t : Table} (loaded : store.load d = .ok t)
    (refused : StoreError → α) (session : Session α) :
    (Request.connect refused session).run store.backend d = session.run store.backend d t := by
  rw [Request.run]
  simp only [FileStore.backend, loaded]

/-! ## Sessions that only read -/

namespace Session

/-- a session that makes no statement but such as read -/
inductive Reading : Session α → Prop where
  | done (answer : α) : Reading (.done answer)
  | call {s : Statement} {go : s.Reply → Session α} (h : s.reads = true) (next : ∀ reply, (go reply).Reading) :
    Reading (.call s go)

theorem Reading.andThen {session : Session α} {next : α → Session β} (h : session.Reading) (hn : ∀ a, (next a).Reading) :
    (session.andThen next).Reading := by
  induction h with
  | done answer => exact hn answer
  | call h _ ih => exact .call h ih

theorem Reading.map {session : Session α} (h : session.Reading) (change : α → β) : (session.map change).Reading :=
  h.andThen fun _ => .done _

theorem Reading.whenOk {session : Session (Outcome α)} {next : α → Session (Outcome β)} (h : session.Reading)
    (hn : ∀ a, (next a).Reading) : (session.whenOk next).Reading := by
  refine h.andThen ?_
  intro outcome
  cases outcome with
  | error failure => exact .done _
  | ok answer => exact hn answer

end Session

theorem reading_ask {s : Statement} (h : s.reads = true) : (ask s).Reading :=
  .call h fun _ => .done _

theorem reading_fetchRow (id : UInt64) : (fetchRow id).Reading := by
  refine (reading_ask rfl).whenOk ?_
  intro row
  cases row with
  | none => exact .done _
  | some row => exact .done _

theorem reading_loadRow (id : UInt64) : (loadRow id).Reading :=
  (reading_fetchRow id).whenOk fun _ => .done _

/-! ## Sessions that write at most once -/

namespace Session

/-- a session that reads and then ends, with an answer for which it need not have written, or with a statement that writes. If that
fails the session does, and if it works it has `written` -/
inductive Atomic (idle : Outcome α → Prop) (written : Stored → Stored → α → Prop) : Session (Outcome α) → Prop where
  | done {answer : Outcome α} (h : idle answer) : Atomic idle written (.done answer)
  | read {s : Statement} {go : s.Reply → Session (Outcome α)} (h : s.reads = true)
    (next : ∀ reply, Atomic idle written (go reply)) : Atomic idle written (.call s go)
  | write {s : Statement} {go : s.Reply → Session (Outcome α)}
    (fails : ∀ error, ∃ failure, go (.error error) = .done (.error failure))
    (keeps : ∀ result, s.saves result = false → ∃ value, go (.ok result) = .done (.ok value) ∧ idle (.ok value))
    (works : ∀ (t : Table) result, t.Consistent → (t.perform s).1 = .ok result → s.saves result = true →
      ∃ value, go (.ok result) = .done (.ok value) ∧ written t.stored (t.perform s).2.stored value) :
    Atomic idle written (.call s go)

variable {idle : Outcome α → Prop} {written : Stored → Stored → α → Prop} {session : Session (Outcome α)}

theorem Reading.atomic (h : session.Reading) (hi : ∀ answer, idle answer) : session.Atomic idle written := by
  induction h with
  | done answer => exact .done (hi answer)
  | call h _ ih => exact .read h ih

/-- a session that goes on after reading, unless that fails -/
theorem Reading.whenOk_atomic {first : Session (Outcome β)} {next : β → Session (Outcome α)} (h : first.Reading)
    (hi : ∀ failure, idle (.error failure)) (hn : ∀ b, (next b).Atomic idle written) :
    (first.whenOk next).Atomic idle written := by
  induction h with
  | done outcome =>
    cases outcome with
    | error failure => exact .done (hi failure)
    | ok b => exact hn b
  | call h _ ih => exact .read h ih

/-- a session with its answer changed -/
theorem Atomic.map {idle' : Outcome β → Prop} {written' : Stored → Stored → β → Prop} (h : session.Atomic idle written)
    {change : α → β} (hi : ∀ answer, idle answer → idle' (answer.map change))
    (hw : ∀ old new value, written old new value → written' old new (change value)) :
    (session.map fun answer => answer.map change).Atomic idle' written' := by
  induction h with
  | done h => exact .done (hi _ h)
  | read h _ ih => exact .read h ih
  | write fails keeps works =>
    refine .write ?_ ?_ ?_
    · intro error
      obtain ⟨failure, e⟩ := fails error
      exact ⟨failure, by rw [e]; rfl⟩
    · intro result hs
      obtain ⟨value, e, h⟩ := keeps result hs
      exact ⟨change value, by rw [e]; rfl, hi _ h⟩
    · intro t result hc hp hs
      obtain ⟨value, e, h⟩ := works t result hc hp hs
      exact ⟨change value, by rw [e]; rfl, hw _ _ _ h⟩

/-! ## Runs -/

theorem run_call_table (s : Statement) (go : s.Reply → Session α) (t : Table) :
    (Session.call s go).run Table.backend t () = (go (t.perform s).1).run Table.backend (t.perform s).2 () := rfl

theorem run_call_file (s : Statement) (go : s.Reply → Session α) (store : FileStore) (d : Directory) (t : Table) :
    (Session.call s go).run store.backend d t =
      (go (store.perform s d t).1).run store.backend (store.perform s d t).2.1 (store.perform s d t).2.2 := rfl

/-- **What an operation does to a table**: nothing, or it succeeds and has written. -/
theorem Atomic.run_table (h : session.Atomic idle written) (hi : ∀ failure, idle (.error failure)) {t : Table}
    (hc : t.Consistent) :
    (idle (session.run Table.backend t ()).1 ∧ (session.run Table.backend t ()).2 = t) ∨
      ∃ value, (session.run Table.backend t ()).1 = .ok value ∧
        written t.stored (session.run Table.backend t ()).2.stored value ∧ (session.run Table.backend t ()).2.Consistent := by
  induction h with
  | done h => exact Or.inl ⟨h, rfl⟩
  | read h _ ih =>
    obtain ⟨result, hp, -⟩ := t.perform_of_reads h
    rw [run_call_table, hp]
    exact ih _
  | @write s go fails keeps works =>
    rw [run_call_table]
    cases hr : (t.perform s).1 with
    | error error =>
      obtain ⟨failure, e⟩ := fails error
      rw [e, Table.perform_error hr]
      exact Or.inl ⟨hi failure, rfl⟩
    | ok result =>
      cases hs : s.saves result with
      | false =>
        obtain ⟨value, e, h⟩ := keeps result hs
        rw [e, Table.perform_of_not_saves hr hs]
        exact Or.inl ⟨h, rfl⟩
      | true =>
        obtain ⟨value, e, h⟩ := works t result hc hr hs
        rw [e]
        exact Or.inr ⟨value, rfl, h, hc.perform s⟩

/-- **What an operation does to a file**: what it does to the table in it, if it writes at all and the file can be written. -/
theorem Atomic.run_file (h : session.Atomic idle written) (hi : ∀ failure, idle (.error failure)) (store : FileStore)
    (d : Directory) {t : Table} (hc : t.Consistent) :
    let alone := session.run Table.backend t ()
    (idle alone.1 ∧ session.run store.backend d t = (alone.1, d) ∧ alone.2 = t) ∨
      ∃ value, alone.1 = .ok value ∧ written t.stored alone.2.stored value ∧ alone.2.Consistent ∧
        ((∃ d', store.save d alone.2 = .ok d' ∧ session.run store.backend d t = (.ok value, d')) ∨
          ∃ error failure, store.save d alone.2 = .error error ∧ session.run store.backend d t = (.error failure, d)) := by
  intro alone
  induction h with
  | done h => exact Or.inl ⟨h, rfl, rfl⟩
  | @read s go h _ ih =>
    obtain ⟨result, hp, hs⟩ := t.perform_of_reads h
    have read := store.perform_of_kept d (t := t) (by rw [hp]) hs
    simp only [alone, run_call_table, run_call_file, hp, read]
    exact ih _
  | @write s go fails keeps works =>
    cases hr : (t.perform s).1 with
    | error error =>
      obtain ⟨failure, e⟩ := fails error
      simp only [alone, run_call_table, run_call_file, store.perform_of_error d hr, hr, e, Table.perform_error hr]
      exact Or.inl ⟨hi failure, rfl, rfl⟩
    | ok result =>
      cases hs : s.saves result with
      | false =>
        obtain ⟨value, e, h⟩ := keeps result hs
        simp only [alone, run_call_table, run_call_file, store.perform_of_kept d hr hs, hr, e,
          Table.perform_of_not_saves hr hs]
        exact Or.inl ⟨h, rfl, rfl⟩
      | true =>
        obtain ⟨value, e, h⟩ := works t result hc hr hs
        have table : alone = (.ok value, (t.perform s).2) := by
          simp only [alone, run_call_table, hr, e]
          rfl
        rw [table]
        refine Or.inr ⟨value, rfl, h, hc.perform s, ?_⟩
        cases saved : store.save d (t.perform s).2 with
        | ok d' =>
          refine Or.inl ⟨d', rfl, ?_⟩
          rw [run_call_file, store.perform_of_saved d hr hs saved, e]
          rfl
        | error error =>
          obtain ⟨failure, e⟩ := fails error
          refine Or.inr ⟨error, failure, rfl, ?_⟩
          rw [run_call_file, store.perform_of_unsaved d hr hs saved, e]
          rfl

/-- a store in memory that answers does what its table does -/
theorem run_memory {m : Memory} (hr : m.reachable = true) (session : Session α) :
    session.run Memory.backend m () =
      ((session.run Table.backend m.table ()).1, { m with table := (session.run Table.backend m.table ()).2 }) := by
  induction session generalizing m with
  | done answer => rfl
  | call s go ih =>
    rw [run_call hr, run_call_table]
    exact ih _ hr

/-- the way in which an index is written makes no difference to any operation -/
theorem run_same {t t' : Table} (h : t.Same t') (session : Session α) :
    (session.run Table.backend t ()).1 = (session.run Table.backend t' ()).1 ∧
      (session.run Table.backend t ()).2.Same (session.run Table.backend t' ()).2 := by
  induction session generalizing t t' with
  | done answer => exact ⟨rfl, h⟩
  | call s go ih =>
    obtain ⟨reply, same⟩ := h.perform s
    rw [run_call_table, run_call_table, reply]
    exact ih _ same

end Session

/-! ## Stores of either kind -/

/-- an operation that checks its arguments and then opens a connection for such a session -/
def Request.Atomic (idle : Outcome α → Prop) (written : Stored → Stored → α → Prop) : Request (Outcome α) → Prop
  | .done answer => idle answer
  | .connect refused session => (∀ error, idle (refused error)) ∧ session.Atomic idle written

theorem Request.Atomic.map {idle : Outcome α → Prop} {written : Stored → Stored → α → Prop} {idle' : Outcome β → Prop}
    {written' : Stored → Stored → β → Prop} {request : Request (Outcome α)} (h : request.Atomic idle written) {change : α → β}
    (hi : ∀ answer, idle answer → idle' (answer.map change))
    (hw : ∀ old new value, written old new value → written' old new (change value)) :
    (request.map fun answer => answer.map change).Atomic idle' written' := by
  cases request with
  | done answer => exact hi answer h
  | connect refused session => exact ⟨fun error => hi _ (h.1 error), h.2.map hi hw⟩

/-- an operation that opens a connection for reading, if at all -/
def Request.Reads : Request α → Prop
  | .done _ => True
  | .connect _ session => session.Reading

theorem Request.Reads.map {request : Request α} (h : request.Reads) (change : α → β) : (request.map change).Reads := by
  cases request with
  | done answer => trivial
  | connect refused session => exact Session.Reading.map h change

theorem Request.Reads.atomic {idle : Outcome α → Prop} {written : Stored → Stored → α → Prop} {request : Request (Outcome α)}
    (h : request.Reads) (hi : ∀ answer, idle answer) : request.Atomic idle written := by
  cases request with
  | done answer => exact hi answer
  | connect refused session => exact ⟨fun error => hi _, Session.Reading.atomic h hi⟩

/-- a store of either kind, with all that it is kept in -/
inductive Stock where
  | memory (m : Memory)
  | file (store : FileStore) (d : Directory)
  deriving DecidableEq, Repr

namespace Stock

/-- runs an operation with nobody else acting -/
def run (request : Request α) : Stock → α × Stock
  | .memory m => let (answer, m) := request.run Memory.backend m; (answer, .memory m)
  | .file store d => let (answer, d) := request.run store.backend d; (answer, .file store d)

/-- the table of a store, if it can be read -/
def table? : Stock → Option Table
  | .memory m => some m.table
  | .file store d => (store.load d).toOption

/-- what lasts of a store, if it can be read -/
def stored? (s : Stock) : Option Stored := s.table?.map Table.stored

variable {idle : Outcome α → Prop} {written : Stored → Stored → α → Prop} {session : Session (Outcome α)} {s : Stock} {t : Table}

theorem stored?_of_table? (h : s.table? = some t) : s.stored? = some t.stored := by
  rw [stored?, h]
  rfl

/-- what a session on a connection of its own comes to: the connection is refused, or the file cannot be written, or the answer is that
of the table alone, which is left as it was or which has changed and stands where it stood -/
theorem run_alone (h : session.Atomic idle written) (hi : ∀ failure, idle (.error failure)) (refused : StoreError → Outcome α)
    (ht : s.table? = some t) (hc : t.Consistent) :
    let alone := session.run Table.backend t ()
    (∃ error, s.run (.connect refused session) = (refused error, s)) ∨
      (∃ failure, s.run (.connect refused session) = (.error failure, s)) ∨
      (idle alone.1 ∧ alone.2 = t ∧ s.run (.connect refused session) = (alone.1, s)) ∨
      ∃ value s' t', alone.1 = .ok value ∧ written t.stored alone.2.stored value ∧ alone.2.Consistent ∧
        s.run (.connect refused session) = (.ok value, s') ∧ s'.table? = some t' ∧ t'.Same alone.2 := by
  intro alone
  cases s with
  | memory m =>
    cases ht
    cases hr : m.reachable with
    | true =>
      rw [run, run_connect hr, Session.run_memory hr]
      rcases h.run_table hi hc with ⟨h, same⟩ | ⟨value, e, h, hc'⟩
      · exact Or.inr (Or.inr (Or.inl ⟨h, same, by rw [same]⟩))
      · exact Or.inr (Or.inr (Or.inr ⟨value, .memory { m with table := alone.2 }, _, e, h, hc', by rw [e], rfl, .refl _⟩))
    | false =>
      have refuses : (Request.connect refused session).run Memory.backend m =
          (refused (.unavailable "memory store is offline"), m) := by
        simp [Request.run, Memory.backend, Memory.connect, hr]
      rw [run, refuses]
      exact Or.inl ⟨_, rfl⟩
  | file store d =>
    rw [run, run_connect_file (toOption_eq_some.1 ht)]
    rcases h.run_file hi store d hc with ⟨h, e, same⟩ | ⟨value, answer, h, hc', ⟨d', saved, e⟩ | ⟨_, failure, -, e⟩⟩
    · rw [e]
      exact Or.inr (Or.inr (Or.inl ⟨h, same, rfl⟩))
    · obtain ⟨t', ht', same⟩ := FileStore.load_of_save saved hc'
      rw [e]
      exact Or.inr (Or.inr (Or.inr ⟨value, _, t', answer, h, hc', rfl, toOption_eq_some.2 ht', same⟩))
    · rw [e]
      exact Or.inr (Or.inl ⟨failure, rfl⟩)

/-- **What an operation does to a store**: it leaves it, whatever it is kept in, just as it was, or it succeeds and has written. -/
theorem run_atomic {request : Request (Outcome α)} (h : request.Atomic idle written) (hi : ∀ failure, idle (.error failure))
    (ht : s.table? = some t) (hc : t.Consistent) :
    (idle (s.run request).1 ∧ (s.run request).2 = s) ∨
      ∃ value t', (s.run request).1 = .ok value ∧ (s.run request).2.table? = some t' ∧ written t.stored t'.stored value ∧
        t'.Consistent := by
  cases request with
  | done answer => cases s <;> exact Or.inl ⟨h, rfl⟩
  | connect refused session =>
    obtain ⟨hrefused, hsession⟩ := h
    rcases run_alone hsession hi refused ht hc with
      ⟨error, e⟩ | ⟨failure, e⟩ | ⟨h, -, e⟩ | ⟨value, s', t', -, h, hc', e, ht', same⟩
    · rw [e]
      exact Or.inl ⟨hrefused error, rfl⟩
    · rw [e]
      exact Or.inl ⟨hi failure, rfl⟩
    · rw [e]
      exact Or.inl ⟨h, rfl⟩
    · rw [e]
      exact Or.inr ⟨value, t', rfl, ht', same.stored ▸ h, same.consistent hc'⟩

/-- an operation that has succeeded on a store has done what it does to the table alone -/
theorem run_connecting_ok (h : session.Atomic idle written) (hi : ∀ failure, idle (.error failure)) (ht : s.table? = some t)
    (hc : t.Consistent) {value : α} (ok : (s.run (connecting session)).1 = .ok value) :
    (session.run Table.backend t ()).1 = .ok value ∧
      ∃ t', (s.run (connecting session)).2.table? = some t' ∧ t'.Same (session.run Table.backend t ()).2 := by
  rw [connecting] at ok ⊢
  rcases run_alone h hi _ ht hc with
    ⟨error, e⟩ | ⟨failure, e⟩ | ⟨-, kept, e⟩ | ⟨value', s', t', answer, -, -, e, ht', same⟩
  · rw [e] at ok
    cases ok
  · rw [e] at ok
    cases ok
  · rw [e] at ok ⊢
    refine ⟨ok, t, ht, ?_⟩
    rw [kept]
    exact .refl t
  · rw [e] at ok ⊢
    exact ⟨answer.trans ok, t', ht', same⟩

end Stock

end Service

end XmlStore
