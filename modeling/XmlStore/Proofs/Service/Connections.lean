/-
Connections to a store of either kind.

A connection to a file holds the table that was read when it was opened, works on that and writes it back; one to memory works on the
table that all share. A file may also fail to be written for reasons outside the directory, such as a full disk, and at any time; then
the statement fails, although the table of the connection has changed.

Main statement:
- `Stock.perform_does`: what a statement on a connection does to the store and to the table that the connection works on.
-/
import XmlStore.Proofs.Service.Alone
import XmlStore.Proofs.Store.Loading

namespace XmlStore

/-- carries out a statement on an open connection while the file cannot be written -/
def FileStore.performUnwritten (error : StoreError) (s : Statement) (held : Table) : s.Reply × Table :=
  match held.perform s with
  | (.error error, table) => (.error error, table)
  | (.ok result, table) => if s.saves result then (.error error, table) else (.ok result, table)

namespace Table

variable {t t' : Table} {row : Row}

/-! ## Tables that are written and read -/

/-- a table as it is found where it was put: as it was, or made anew from its rows and its counter -/
def Kept (t t' : Table) : Prop := t' = t ∨ t' = ofRows t.lastId t.rows

theorem Kept.mem (h : t.Kept t') (hr : row ∈ t'.rows) : row ∈ t.rows := by
  rcases h with e | e
  · rwa [e] at hr
  · rw [e] at hr
    exact mem_ofRows hr

theorem Kept.same (h : t.Kept t') (hc : t.Consistent) : t'.Same t := by
  rcases h with e | e
  · rw [e]
    exact .refl t
  · rw [e]
    exact ofRows_same hc

end Table

namespace Service.Stock

variable {stock : Stock} {held t : Table}

/-! ## What a connection does -/

/-- opens a connection and tells the table that it holds; one to memory holds nothing, for which an empty table stands -/
def connect : Stock → Except StoreError Table
  | .memory m => m.connect.map fun _ => .empty
  | .file store d => store.load d

/-- the table that a connection works on -/
def acting : Stock → Table → Table
  | .memory m, _ => m.table
  | .file .., held => held

/-- carries out a statement on an open connection; `refusal` is the reason if a file cannot be written at present -/
def perform (refusal : Option StoreError) (s : Statement) (held : Table) : Stock → s.Reply × Stock × Table
  | .memory m =>
    let (reply, m) := m.perform s
    (reply, .memory m, held)
  | .file store d =>
    match refusal with
    | none =>
      let (reply, d, held) := store.perform s d held
      (reply, .file store d, held)
    | some error =>
      let (reply, held) := FileStore.performUnwritten error s held
      (reply, .file store d, held)

/-- a store in memory goes away or comes back -/
def setReachable (reachable : Bool) : Stock → Stock
  | .memory m => .memory { m with reachable }
  | .file store d => .file store d

@[simp] theorem table?_setReachable (stock : Stock) (reachable : Bool) : (stock.setReachable reachable).table? = stock.table? := by
  cases stock <;> rfl

@[simp] theorem acting_setReachable (stock : Stock) (reachable : Bool) (held : Table) :
    (stock.setReachable reachable).acting held = stock.acting held := by
  cases stock <;> rfl

/-- a new connection works on the table of the store -/
theorem acting_of_connect (ht : stock.table? = some t) (h : stock.connect = .ok held) : stock.acting held = t := by
  cases stock with
  | memory m => exact Option.some.inj ht
  | file store d =>
    have same := (toOption_eq_some.1 ht).symm.trans h
    cases same
    rfl

/-! ## What a statement comes to -/

/-- what a statement on a connection can do to the store, where `a` and `a'` are the tables that the connection works on before it
and after it -/
inductive Does (stock : Stock) (a : Table) (s : Statement) (reply : s.Reply) (stock' : Stock) (a' : Table) : Prop where
  /-- the store is away, the statement is refused, or the file could not be written -/
  | failed (error : StoreError) (fails : reply = .error error) (same : stock' = stock) (table : a' = a ∨ a' = (a.perform s).2)
  /-- there was nothing to write -/
  | read (result : s.Result) (answers : reply = .ok result) (works : (a.perform s).1 = .ok result)
    (idle : s.saves result = false) (same : stock' = stock) (table : a' = a)
  | written (result : s.Result) (answers : reply = .ok result) (works : (a.perform s).1 = .ok result)
    (table : a' = (a.perform s).2) (stored : ∃ t', stock'.table? = some t' ∧ a'.Kept t')

/-- while the file cannot be written, a statement that has changed the table of the connection fails -/
theorem performUnwritten_does (store : FileStore) (d : Directory) (error : StoreError) (s : Statement) (held : Table) :
    Does (.file store d) held s (FileStore.performUnwritten error s held).1 (.file store d)
      (FileStore.performUnwritten error s held).2 := by
  unfold FileStore.performUnwritten
  cases hp : held.perform s with
  | mk reply table =>
    have done : (held.perform s).2 = table := by rw [hp]
    cases reply with
    | error error => exact .failed error rfl rfl (Or.inr done.symm)
    | ok result =>
      have works : (held.perform s).1 = .ok result := by rw [hp]
      cases hs : s.saves result with
      | true =>
        simp only [hs, if_true]
        exact .failed error rfl rfl (Or.inr done.symm)
      | false =>
        simp only [hs, Bool.false_eq_true, if_false]
        exact .read result rfl works hs rfl (done.symm.trans (Table.perform_of_not_saves works hs))

/-- otherwise the file has been written if anything was to be -/
theorem perform_file_does (store : FileStore) (d : Directory) (s : Statement) (held : Table) :
    Does (.file store d) held s (store.perform s d held).1 (.file store (store.perform s d held).2.1)
      (store.perform s d held).2.2 := by
  cases reply : (held.perform s).1 with
  | error error =>
    rw [store.perform_of_error d reply]
    exact .failed error rfl rfl (Or.inl rfl)
  | ok result =>
    cases hs : s.saves result with
    | false =>
      rw [store.perform_of_kept d reply hs]
      exact .read result rfl reply hs rfl rfl
    | true =>
      cases saved : store.save d (held.perform s).2 with
      | error error =>
        rw [store.perform_of_unsaved d reply hs saved]
        exact .failed error rfl rfl (Or.inr rfl)
      | ok d' =>
        rw [store.perform_of_saved d reply hs saved]
        exact .written result rfl reply rfl ⟨_, toOption_eq_some.2 (FileStore.load_eq_of_save saved), Or.inr rfl⟩

theorem perform_memory_does (m : Memory) (s : Statement) :
    Does (.memory m) m.table s (m.perform s).1 (.memory (m.perform s).2) (m.perform s).2.table := by
  unfold Memory.perform
  cases hr : m.reachable with
  | false => exact .failed _ rfl rfl (Or.inl rfl)
  | true =>
    cases reply : (m.table.perform s).1 with
    | error error =>
      have kept : (m.table.perform s).2 = m.table := Table.perform_error reply
      simp only [if_true, reply, kept]
      exact .failed error rfl (by rw [← hr]) (Or.inl rfl)
    | ok result =>
      simp only [if_true, reply]
      exact .written result rfl reply rfl ⟨_, rfl, Or.inl rfl⟩

/-- **What a statement does** on a connection: it fails and leaves the store alone, or it reads, or what it makes of the table of the
connection is what the store holds. -/
theorem perform_does (stock : Stock) (refusal : Option StoreError) (s : Statement) (held : Table) :
    Does stock (stock.acting held) s (stock.perform refusal s held).1 (stock.perform refusal s held).2.1
      ((stock.perform refusal s held).2.1.acting (stock.perform refusal s held).2.2) := by
  cases stock with
  | memory m => exact perform_memory_does m s
  | file store d =>
    cases refusal with
    | none => exact perform_file_does store d s held
    | some error => exact performUnwritten_does store d error s held

end Service.Stock

end XmlStore
