/-
Ids and versions count on from whatever a file holds.

The counter of a store and the versions of its rows are words of 64 bits, and a file may hold any of them, up to the highest. A row that is
added takes the word after the counter, which has come by every id that is there or was given; and a row that is written again takes the
word after its version. Where there is no such word the program stops, so no number ever comes again.

Main statements:
- `Table.Passed.perform`: statements come by the ids that they give.
- `Desk.Ready.step_none`, `Desk.Ready.step_some`, `Desk.Ready.answers`: so do the uses of a store, one by one and in any number.
- `Desk.counts_on`: how ids and versions count on from those before, when any file has been loaded.
-/
import XmlStore.Proofs.Service.Identity

namespace XmlStore

/-- the row that a statement which is answered so has written again, and its version since then, if any -/
def Statement.renewed? : (s : Statement) → s.Reply → Option (UInt64 × UInt64)
  | .updateContent id _ _ _, .ok version => some (id, version)
  | .updateFields id _ _, .ok version => some (id, version)
  | _, _ => none

theorem Statement.renewed?_error (s : Statement) (error : StoreError) : s.renewed? (.error error) = none := by
  cases s <;> rfl

namespace Table

variable {t t' : Table} {ids : List UInt64} {s : Statement}

/-! ## Counters that have come by ids -/

/-- a table whose counter has come by the ids in it and by `ids` -/
structure Passed (ids : List UInt64) (t : Table) : Prop where
  counted : t.Counted
  given : ∀ id ∈ ids, id ≤ t.lastId

namespace Passed

theorem mono {ids' : List UInt64} (h : t.Passed ids) (part : ids' ⊆ ids) : t.Passed ids' :=
  ⟨h.counted, fun id hid => h.given id (part hid)⟩

theorem of_kept (h : t.Passed ids) (kept : t.Kept t') : t'.Passed ids := by
  rcases kept with rfl | rfl
  · exact h
  · have same : (ofRows t.lastId t.rows).lastId = t.lastId := lastId_ofRows h.counted
    exact ⟨counted_ofRows _ _, by rw [same]; exact h.given⟩

/-- **Statements come by the ids that they give.** -/
theorem perform (h : t.Passed ids) (s : Statement) :
    (t.perform s).2.Passed (ids ++ (s.given? (t.perform s).1).toList) := by
  refine ⟨h.counted.perform s, ?_⟩
  intro id hid
  rcases List.mem_append.1 hid with hid | hid
  · exact UInt64.le_trans (h.given id hid) (t.follows_perform s).lastId
  · cases t.perform_numbering s with
    | kept lastId same none =>
      rw [none] at hid
      cases hid
    | added id' next lastId new some =>
      rw [some, Option.toList_some, List.mem_singleton] at hid
      rw [hid, lastId]
      exact UInt64.le_refl _

end Passed

/-! ## What is given and answered -/

/-- the id that is given is the word after the counter, and its row is there -/
theorem insert_given {id : UInt64} (gives : s.given? (t.perform s).1 = some id) :
    nextWord? t.lastId = some id ∧ ∃ row, s = .insert row ∧ (t.perform s).2.rows = insertRow { row with id } t.rows := by
  cases s with
  | insert row =>
    rw [Table.perform] at gives ⊢
    rcases t.insert_cases row with ⟨error, -, e⟩ | ⟨_, -, next, e⟩ <;> rw [e] at gives ⊢
    · cases gives
    · cases gives
      exact ⟨next, row, rfl, rfl⟩
  | _ => cases gives

/-- the version that is answered is the word after the last one, and the row has it -/
theorem renewed_row {id version : UInt64} (renews : s.renewed? (t.perform s).1 = some (id, version)) :
    ∃ old row, t.byId id = some old ∧ (t.perform s).2.byId id = some row ∧ row.version = version ∧
      nextWord? old.version = some version := by
  cases s with
  | updateContent id' content expected now =>
    rw [Table.perform] at renews ⊢
    rcases t.updateContent_cases id' content expected now with ⟨error, e⟩ | ⟨old, found, room, e⟩ <;> rw [e] at renews ⊢
    · cases renews
    · cases renews
      exact ⟨old, _, found, byId_renewed { old with content } found rfl rfl, rfl, nextWord?_eq_some.2 ⟨room, rfl⟩⟩
  | updateFields id' patch now =>
    rw [Table.perform] at renews ⊢
    rcases t.updateFields_cases id' patch now with ⟨error, -, e⟩ | ⟨old, found, room, -, e⟩ <;> rw [e] at renews ⊢
    · cases renews
    · cases renews
      exact ⟨old, _, found, byId_renewed (patch.apply old) found rfl rfl, rfl, nextWord?_eq_some.2 ⟨room, rfl⟩⟩
  | _ => cases renews

end Table

namespace Service

open Table

/-! ## Statements in the course of uses -/

/-- a statement that was made on a connection, with the reply to it and the tables that the connection worked on before and after -/
structure Answer extends Exchange where
  before : Table
  after : Table

namespace Answer

variable {a : Answer} {earlier : List UInt64} {id version : UInt64}

/-- the id that was given, if any -/
def given? (a : Answer) : Option UInt64 := a.statement.given? a.reply

/-- the row that was written again, and its version since then, if any -/
def renewed? (a : Answer) : Option (UInt64 × UInt64) := a.statement.renewed? a.reply

/-- a row was added under an id above those of all rows and above the `earlier` ones, and no row has gone -/
structure Adds (a : Answer) (earlier : List UInt64) (id : UInt64) : Prop where
  row : ∃ row, a.statement = .insert row ∧ a.after.byId id = some { row with id }
  above : ∀ other ∈ a.before.rows, other.id < id
  later : ∀ other ∈ earlier, other < id
  kept : ∀ other ∈ a.before.rows, other ∈ a.after.rows

/-- a statement has failed, or the reply to it and the table after it are what it makes of the table before -/
def Performed (a : Answer) : Prop :=
  (∃ error, a.reply = .error error) ∨ a.before.perform a.statement = (a.reply, a.after)

theorem Performed.of_given (h : a.Performed) (gives : a.given? = some id) :
    a.before.perform a.statement = (a.reply, a.after) := by
  apply h.resolve_left
  rintro ⟨error, failed⟩
  rw [given?, failed, a.statement.given?_error] at gives
  cases gives

theorem Performed.of_renewed (h : a.Performed) (renews : a.renewed? = some (id, version)) :
    a.before.perform a.statement = (a.reply, a.after) := by
  apply h.resolve_left
  rintro ⟨error, failed⟩
  rw [renewed?, failed, a.statement.renewed?_error] at renews
  cases renews

/-- **An id that is given counts on** from all that the counter has come by. -/
theorem Performed.adds (h : a.Performed) (passed : a.before.Passed earlier) (gives : a.given? = some id) : a.Adds earlier id := by
  have does := h.of_given gives
  have next : a.statement.given? (a.before.perform a.statement).1 = some id := by rw [does]; exact gives
  obtain ⟨next, row, inserted, rows⟩ := insert_given next
  rw [does] at rows
  have above : ∀ other, other ≤ a.before.lastId → other < id := fun other le => UInt64.lt_of_le_of_lt le (lt_of_nextWord? next)
  have ids : ∀ other ∈ a.before.rows, other.id < id := fun other ho => above other.id (passed.counted other ho)
  refine ⟨⟨row, inserted, ?_⟩, ids, fun other ho => above other (passed.given other ho), ?_⟩
  · rw [byId, rows, find?_insertRow, if_pos rfl]
  · intro other ho
    rw [rows, insertRow_last ids]
    exact List.mem_append_left _ ho

/-- **A version that is answered counts on** from the last one of the row. -/
theorem Performed.renews (h : a.Performed) (renews : a.renewed? = some (id, version)) :
    ∃ old row, a.before.byId id = some old ∧ a.after.byId id = some row ∧ row.version = version ∧
      version.toNat = old.version.toNat + 1 := by
  have does := h.of_renewed renews
  have next : a.statement.renewed? (a.before.perform a.statement).1 = some (id, version) := by rw [does]; exact renews
  obtain ⟨old, row, found, there, same, next⟩ := renewed_row next
  rw [does] at there
  exact ⟨old, row, found, there, same, toNat_of_nextWord? next⟩

end Answer

namespace Desk

variable {desk : Desk} {a : Answer} {ids : List UInt64}

/-- the statement that is made by a use of a store, if any -/
def answer? (desk : Desk) : Use → Option Answer
  | .statement refusal s =>
    desk.held.map fun held =>
      let (reply, stock, after) := desk.stock.perform refusal s held
      ⟨⟨s, reply⟩, desk.stock.acting held, stock.acting after⟩
  | _ => none

/-- the statements that are made in the course of any number of uses -/
def answers : List Use → Desk → List Answer
  | [], _ => []
  | use :: rest, desk => (desk.answer? use).toList ++ answers rest (desk.step use).2

theorem answers_of_none {use : Use} (idle : desk.answer? use = none) (rest : List Use) :
    desk.answers (use :: rest) = (desk.step use).2.answers rest := by
  rw [answers, idle, Option.toList_none, List.nil_append]

theorem answers_of_some {use : Use} (made : desk.answer? use = some a) (rest : List Use) :
    desk.answers (use :: rest) = a :: (desk.step use).2.answers rest := by
  rw [answers, made, Option.toList_some, List.singleton_append]

theorem performed_of_answer? {use : Use} (made : desk.answer? use = some a) : a.Performed := by
  cases use with
  | statement refusal s =>
    obtain ⟨held, -, rfl⟩ := Option.map_eq_some_iff.1 made
    cases desk.stock.perform_does refusal s held with
    | failed error fails same table => exact Or.inl ⟨error, fails⟩
    | read result answers works idle same table =>
      have kept := Table.perform_of_not_saves works idle
      exact Or.inr (Prod.ext (works.trans answers.symm) (kept.trans table.symm))
    | written result answers works table stored => exact Or.inr (Prod.ext (works.trans answers.symm) table.symm)
  | _ => cases made

/-! ## What is kept by one use -/

/-- a store whose table, and the one that the open connection works on, have counters that have come by `ids` -/
structure Ready (ids : List UInt64) (desk : Desk) : Prop where
  stored : ∃ t, desk.stock.table? = some t ∧ t.Passed ids
  acting : ∀ held, desk.held = some held → (desk.stock.acting held).Passed ids

namespace Ready

/-- a store whose table stays, with a connection that works on it or has gone on, if there is one -/
theorem stays (h : desk.Ready ids) {desk' : Desk} (table : desk'.stock.table? = desk.stock.table?)
    (held : ∀ held, desk'.held = some held → (desk'.stock.acting held).Passed ids) : desk'.Ready ids := by
  obtain ⟨t, stored, passed⟩ := h.stored
  exact ⟨⟨t, table.trans stored, passed⟩, held⟩

/-- a statement goes on from what the connection works on, and leaves that in the store or leaves the store alone -/
theorem statement (h : desk.Ready ids) {held held' : Table} (opened : desk.held = some held) {s : Statement} {reply : s.Reply}
    {stock : Stock} (does : desk.stock.Does (desk.stock.acting held) s reply stock (stock.acting held')) :
    (Desk.mk stock (some held')).Ready (ids ++ (s.given? reply).toList) := by
  have before := h.acting held opened
  have performed := before.perform s
  cases does with
  | failed error fails same table =>
    subst fails same
    rw [s.given?_error, Option.toList_none, List.append_nil]
    refine h.stays rfl ?_
    rintro b ⟨⟩
    -- if the file could not be written the table of the connection has gone on all the same
    rcases table with e | e
    · rw [e]
      exact before
    · rw [e]
      exact performed.mono (List.subset_append_left _ _)
  | read result answers works idle same table =>
    subst answers same
    rw [given?_of_not_saves idle, Option.toList_none, List.append_nil]
    refine h.stays rfl ?_
    rintro b ⟨⟩
    rw [table]
    exact before
  | written result answers works table stored =>
    subst answers
    rw [works, ← table] at performed
    obtain ⟨t', there, kept⟩ := stored
    refine ⟨⟨t', there, performed.of_kept kept⟩, ?_⟩
    rintro b ⟨⟩
    exact performed

/-- a use without a statement gives nothing, and a new connection works on what is stored -/
theorem step_none (h : desk.Ready ids) {use : Use} (idle : desk.answer? use = none) : (desk.step use).2.Ready ids := by
  cases use with
  | connect =>
    obtain ⟨t, stored, passed⟩ := h.stored
    refine h.stays rfl ?_
    intro held opened
    have same : desk.stock.acting held = t := Stock.acting_of_connect stored (toOption_eq_some.1 opened)
    rw [step, same]
    exact passed
  | drop =>
    refine h.stays rfl ?_
    rintro held ⟨⟩
  | statement refusal s =>
    have closed : desk.held = none := Option.map_eq_none_iff.1 idle
    rw [step, closed]
    exact h
  | overwrite id content now =>
    obtain ⟨stock, held⟩ := desk
    cases stock with
    | memory m =>
      obtain ⟨t, stored, passed⟩ := h.stored
      obtain rfl : m.table = t := Option.some.inj stored
      have performed := passed.perform (.updateContent id content none now)
      have kept : ((m.overwrite id content now).2.table).Passed ids := performed.mono (List.subset_append_left _ _)
      exact ⟨⟨_, rfl, kept⟩, fun _ _ => kept⟩
    | file store d => exact h
  | setReachable reachable =>
    refine h.stays (desk.stock.table?_setReachable reachable) ?_
    intro held opened
    rw [step, Stock.acting_setReachable]
    exact h.acting held opened
  | reopen =>
    refine h.stays ?_ ?_
    · rw [step]
      cases desk.stock <;> rfl
    · rintro held ⟨⟩

/-- a statement finds what the connection works on -/
theorem before (h : desk.Ready ids) {use : Use} (made : desk.answer? use = some a) : a.before.Passed ids := by
  cases use with
  | statement refusal s =>
    obtain ⟨held, opened, rfl⟩ := Option.map_eq_some_iff.1 made
    exact h.acting held opened
  | _ => cases made

/-- **One use of a store** comes by the id that it gives. -/
theorem step_some (h : desk.Ready ids) {use : Use} (made : desk.answer? use = some a) :
    (desk.step use).2.Ready (ids ++ a.given?.toList) := by
  cases use with
  | statement refusal s =>
    obtain ⟨held, opened, rfl⟩ := Option.map_eq_some_iff.1 made
    rw [step, opened]
    exact h.statement opened (desk.stock.perform_does refusal s held)
  | _ => cases made

/-! ## Any number of uses -/

/-- **Up to any statement** the counter has come by all ids that were given. -/
theorem answers (h : desk.Ready ids) (uses : List Use) {i : Nat} (hit : (desk.answers uses)[i]? = some a) :
    a.before.Passed (ids ++ ((desk.answers uses).take i).filterMap Answer.given?) := by
  -- along the uses, where the ids that are given go over to `ids` one by one
  induction uses generalizing desk ids i with
  | nil => cases hit
  | cons use rest ih =>
    cases made : desk.answer? use with
    | none =>
      rw [answers_of_none made] at hit ⊢
      exact ih (h.step_none made) hit
    | some b =>
      rw [answers_of_some made] at hit ⊢
      cases i with
      | zero =>
        obtain rfl : b = a := Option.some.inj hit
        rw [List.take_zero, List.filterMap_nil, List.append_nil]
        exact h.before made
      | succ i =>
        have given (list : List Answer) :
            (b :: list).filterMap Answer.given? = b.given?.toList ++ list.filterMap Answer.given? := by
          rw [List.filterMap_cons]
          cases b.given? <;> rfl
        rw [List.take_succ_cons, given, ← List.append_assoc]
        exact ih (h.step_some made) hit

end Ready

theorem performed_of_mem (uses : List Use) (made : a ∈ desk.answers uses) : a.Performed := by
  induction uses generalizing desk with
  | nil => cases made
  | cons use rest ih =>
    rcases List.mem_append.1 made with first | later
    · exact performed_of_answer? (Option.mem_toList.1 first)
    · exact ih later

/-! ## From a file on -/

variable {store : FileStore} {d : Directory} {t : Table}

/-- a store in a file that has been loaded is ready, with the counter as the last id that was given -/
theorem ready_of_load (loaded : store.load d = .ok t) : (Desk.mk (.file store d) (some t)).Ready [t.lastId] := by
  have passed : t.Passed [t.lastId] := by
    refine ⟨FileStore.counted_of_load loaded, ?_⟩
    intro id hid
    rw [List.mem_singleton.1 hid]
    exact UInt64.le_refl _
  refine ⟨⟨t, toOption_eq_some.2 loaded, passed⟩, ?_⟩
  rintro held ⟨⟩
  exact passed

/-- **Ids and versions count on.** Whatever a file holds that is loaded, and whatever is done with the store from then on, over any
connections and with the file written or not: an id that is given is above the ids of all rows, the counter in the file and all ids that
were given before, and no row has gone for it; and a version that is answered is one more than the last one of the row. -/
theorem counts_on (loaded : store.load d = .ok t) (uses : List Use) :
    let answers := (Desk.mk (.file store d) (some t)).answers uses
    ∀ (i : Nat) (a : Answer), answers[i]? = some a →
      (∀ id, a.given? = some id → a.Adds (t.lastId :: (answers.take i).filterMap Answer.given?) id) ∧
      ∀ id version, a.renewed? = some (id, version) → ∃ old row, a.before.byId id = some old ∧ a.after.byId id = some row ∧
        row.version = version ∧ version.toNat = old.version.toNat + 1 := by
  intro answers i a hit
  have performed : a.Performed := performed_of_mem uses (List.mem_of_getElem? hit)
  refine ⟨?_, fun id version renews => performed.renews renews⟩
  intro id gives
  exact performed.adds ((ready_of_load loaded).answers uses hit) gives

/-- a row that is far ahead of the counter and has been written often, and one with id 0 -/
def aheadRow : String :=
  "[3,[[18446744073709551611,\"b\",\"\",\"<b/>\",18446744073709551613,0,0],[0,\"a\",\"\",\"<a/>\",2,0,0]]]"

/-- the last ids and versions, and one more of each; the file cannot be written once, and another store is opened in it -/
def lastWords : List Use :=
  let insert (title : String) (refusal : Option StoreError) : Use := .statement refusal (.insert (.new title "" "<c/>" 0))
  [insert "c" none, .statement none (.updateContent 18446744073709551611 "<e/>" none 0),
    .statement none (.updateFields 18446744073709551611 ⟨some "f", none, none⟩ 0),
    .statement none (.updateContent 18446744073709551611 "<g/>" none 0), insert "d" (some (.io "no space")),
    .statement none .deleteAll, .reopen, .connect, insert "c" none, insert "d" none, insert "e" none]

theorem counts_on_lastWords :
    let s := FileStore.givenText aheadRow
    let highest : UInt64 := 18446744073709551615
    ∃ t, s.1.load s.2 = .ok t ∧
      let answers := (Desk.mk (.file s.1 s.2) (some t)).answers lastWords
      answers.map Answer.given? = [some 18446744073709551612, none, none, none, none, none, some 18446744073709551614,
          some highest, none] ∧
        (∃ a, answers[7]? = some a ∧ a.given? = some highest ∧
          a.Adds (t.lastId :: (answers.take 7).filterMap Answer.given?) highest) ∧
        ∃ a old, answers[2]? = some a ∧ a.renewed? = some (18446744073709551611, highest) ∧
          a.before.byId 18446744073709551611 = some old ∧ highest.toNat = old.version.toNat + 1 := by
  intro s highest
  let t : Table := .ofRows 3
    [⟨18446744073709551611, "b", "", "<b/>", 18446744073709551613, 0, 0⟩, ⟨0, "a", "", "<a/>", 2, 0, 0⟩]
  have loaded : s.1.load s.2 = .ok t := by decide +kernel
  refine ⟨t, loaded, ?_⟩
  intro answers
  have counts := counts_on loaded lastWords
  refine ⟨by decide +kernel, ?_, ?_⟩
  · have given : answers[7]?.bind Answer.given? = some highest := by decide +kernel
    obtain ⟨a, hit, gives⟩ := Option.bind_eq_some_iff.1 given
    exact ⟨a, hit, gives, (counts 7 a hit).1 highest gives⟩
  · have renewed : answers[2]?.bind Answer.renewed? = some (18446744073709551611, highest) := by decide +kernel
    obtain ⟨a, hit, renews⟩ := Option.bind_eq_some_iff.1 renewed
    obtain ⟨old, row, found, -, -, one⟩ := (counts 2 a hit).2 _ _ renews
    exact ⟨a, old, hit, renews, found, one⟩

end Desk

end Service

end XmlStore
