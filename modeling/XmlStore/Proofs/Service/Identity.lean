/-
Ids are never given twice.

A store is used over one connection after the other, statement by statement. Rows come and go, statements fail, connections are
dropped, the store goes away and comes back, a file fails to be written and another service goes on in it. Through all of that each id
that is given is higher than those before it, since the counter lasts wherever the rows do; and where the row of an id is gone, none
will have that id again.

Main statements:
- `Desk.step_advances`, `Desk.run_advances`: what is kept by one use of a store and by any number of them.
- `Desk.run_ascending`: the ids that are given, from an empty store on.
-/
import XmlStore.Proofs.Service.Connections
import XmlStore.Proofs.Service.Interchange
import XmlStore.Proofs.Store.Counter

namespace XmlStore.Service

open Table

/-- a store, and the table that the open connection to it holds if there is one -/
structure Desk where
  stock : Stock
  held : Option Table
  deriving DecidableEq, Repr

/-- one use of a store -/
inductive Use where
  /-- opens a connection, in place of the one that is open -/
  | connect
  | drop
  /-- makes a statement; `refusal` is the reason if a file cannot be written at present -/
  | statement (refusal : Option StoreError) (s : Statement)
  /-- another writer replaces content in memory -/
  | overwrite (id : UInt64) (content : String) (now : UInt64)
  | setReachable (reachable : Bool)
  /-- another service goes on, with a new store in the same file -/
  | reopen
  deriving DecidableEq, Repr

namespace Stock

/-- another writer's new content for a row in memory -/
def overwrite (id : UInt64) (content : String) (now : UInt64) : Stock → Stock
  | .memory m => .memory (m.overwrite id content now).2
  | .file store d => .file store d

end Stock

/-- a statement after which no file is to be written has given no id -/
theorem given?_of_not_saves {s : Statement} {result : s.Result} (h : s.saves result = false) : s.given? (.ok result) = none := by
  cases s with
  | insert row => cases h
  | _ => rfl

namespace Desk

/-- the store after one use, and the id that was given if any; nothing can be stated without a connection -/
def step (desk : Desk) : Use → Option UInt64 × Desk
  | .connect => (none, { desk with held := desk.stock.connect.toOption })
  | .drop => (none, { desk with held := none })
  | .statement refusal s =>
    match desk.held with
    | none => (none, desk)
    | some held =>
      let (reply, stock, held) := desk.stock.perform refusal s held
      (s.given? reply, ⟨stock, some held⟩)
  | .overwrite id content now => (none, { desk with stock := desk.stock.overwrite id content now })
  | .setReachable reachable => (none, { desk with stock := desk.stock.setReachable reachable })
  | .reopen => (none, ⟨desk.stock.renewed, none⟩)

/-- the ids that are given in the course of any number of uses, and the store after them -/
def run : List Use → Desk → List UInt64 × Desk
  | [], desk => ([], desk)
  | use :: rest, desk =>
    let (given, desk) := desk.step use
    let (ids, desk) := run rest desk
    (given.toList ++ ids, desk)

def tables (desk : Desk) : List Table :=
  desk.stock.table?.toList ++ (desk.held.map desk.stock.acting).toList

/-- whether a row has an id, in the store or for the open connection -/
def Has (desk : Desk) (id : UInt64) : Prop :=
  ∃ t ∈ desk.tables, ∃ row ∈ t.rows, row.id = id

instance (desk : Desk) (id : UInt64) : Decidable (desk.Has id) :=
  inferInstanceAs (Decidable (∃ t ∈ desk.tables, ∃ row ∈ t.rows, row.id = id))

variable {desk desk' desk'' : Desk} {t t' t'' : Table} {ids ids' : List UInt64}

/-! ## What is kept -/

/-- a store with table `t` that has come from an empty one, and a connection that has gone on from it -/
structure Sound (t : Table) (desk : Desk) : Prop where
  stored : desk.stock.table? = some t
  numbered : t.Numbered
  acting : ∀ held, desk.held = some held → (desk.stock.acting held).Numbered ∧ t.Follows (desk.stock.acting held)

/-- a store that has come from another one while `ids` were given: they are above those that were given before, in ascending order, and
of the earlier ones none has come back -/
structure Advances (t t' : Table) (ids : List UInt64) (desk desk' : Desk) : Prop where
  counter : t.lastId ≤ t'.lastId
  ascending : ids.Pairwise (· < ·)
  above : ∀ id ∈ ids, t.lastId < id ∧ id ≤ t'.lastId
  present : ∀ id, id ≤ t.lastId → desk'.Has id → desk.Has id

theorem Advances.refl (t : Table) (desk : Desk) : Advances t t [] desk desk :=
  ⟨UInt64.le_refl _, List.Pairwise.nil, by simp, fun _ _ here => here⟩

theorem Advances.trans (h : Advances t t' ids desk desk') (h' : Advances t' t'' ids' desk' desk'') :
    Advances t t'' (ids ++ ids') desk desk'' where
  counter := UInt64.le_trans h.counter h'.counter
  ascending := by
    refine List.pairwise_append.2 ⟨h.ascending, h'.ascending, ?_⟩
    intro id hid id' hid'
    exact UInt64.lt_of_le_of_lt (h.above id hid).2 (h'.above id' hid').1
  above := by
    intro id hid
    rcases List.mem_append.1 hid with hid | hid
    · exact ⟨(h.above id hid).1, UInt64.le_trans (h.above id hid).2 h'.counter⟩
    · exact ⟨UInt64.lt_of_le_of_lt h.counter (h'.above id hid).1, (h'.above id hid).2⟩
  present := by
    intro id hid here
    exact h.present id hid (h'.present id (UInt64.le_trans hid h.counter) here)

theorem Sound.has_iff (h : desk.Sound t) {id : UInt64} :
    desk.Has id ↔ (∃ row ∈ t.rows, row.id = id) ∨
      ∃ held, desk.held = some held ∧ ∃ row ∈ (desk.stock.acting held).rows, row.id = id := by
  rw [Has, tables, h.stored]
  cases desk.held <;> simp

/-! ## What the tables of a store can become -/

/-- a table that has come from those of a store with table `t` -/
structure Yields (desk : Desk) (t b : Table) : Prop where
  numbered : b.Numbered
  follows : t.Follows b
  present : ∀ row ∈ b.rows, row.id ≤ t.lastId → desk.Has row.id

theorem Sound.yields_stored (h : desk.Sound t) : desk.Yields t t where
  numbered := h.numbered
  follows := .refl t
  present row hr _ := h.has_iff.2 (Or.inl ⟨row, hr, rfl⟩)

theorem Sound.yields_acting (h : desk.Sound t) {held : Table} (open' : desk.held = some held) :
    desk.Yields t (desk.stock.acting held) where
  numbered := (h.acting held open').1
  follows := (h.acting held open').2
  present row hr _ := h.has_iff.2 (Or.inr ⟨held, open', row, hr, rfl⟩)

namespace Yields

variable {b b' : Table}

theorem perform (h : desk.Yields t b) (s : Statement) : desk.Yields t (b.perform s).2 where
  numbered := h.numbered.perform s
  follows := h.follows.trans (b.follows_perform s)
  present := by
    intro row hr hid
    obtain ⟨old, ho, e⟩ := (b.follows_perform s).ids row hr (UInt64.le_trans hid h.follows.lastId)
    rw [← e]
    exact h.present old ho (e ▸ hid)

theorem of_kept (h : desk.Yields t b) (kept : b.Kept b') : desk.Yields t b' := by
  have same := kept.same h.numbered.consistent
  refine ⟨h.numbered.of_same same, h.follows.trans same.symm.follows, ?_⟩
  intro row hr
  exact h.present row (kept.mem hr)

end Yields

/-- a store whose tables have come from those of another one has gone on from it -/
theorem advances_of_yields (given : Option UInt64) (stored : desk'.stock.table? = some t') (ht : desk.Yields t t')
    (held : ∀ held, desk'.held = some held → desk.Yields t (desk'.stock.acting held) ∧ t'.Follows (desk'.stock.acting held))
    (above : ∀ id, given = some id → t.lastId < id ∧ id ≤ t'.lastId) :
    desk'.Sound t' ∧ Advances t t' given.toList desk desk' := by
  have sound : desk'.Sound t' := ⟨stored, ht.numbered, fun b hb => ⟨(held b hb).1.numbered, (held b hb).2⟩⟩
  refine ⟨sound, ht.follows.lastId, ?_, ?_, ?_⟩
  · cases given with
    | none => exact List.Pairwise.nil
    | some id => exact List.pairwise_singleton _ id
  · intro id hid
    exact above id (Option.mem_toList.1 hid)
  · intro id hid here
    rcases sound.has_iff.1 here with ⟨row, hr, rfl⟩ | ⟨b, hb, row, hr, rfl⟩
    · exact ht.present row hr hid
    · exact (held b hb).1.present row hr hid

/-- nothing is given while the table of a store stays -/
theorem Sound.stays (h : desk.Sound t) (stored : desk'.stock.table? = some t)
    (held : ∀ held, desk'.held = some held → desk.Yields t (desk'.stock.acting held)) :
    desk'.Sound t ∧ Advances t t [] desk desk' := by
  refine advances_of_yields none stored h.yields_stored ?_ ?_
  · intro b hb
    exact ⟨held b hb, (held b hb).follows⟩
  · intro id e
    cases e

/-! ## One use -/

/-- a statement fails or reads, and the store stays; or it has written, and what it gives is the next id -/
theorem advances_of_does (h : desk.Sound t) {held held' : Table} (open' : desk.held = some held) {s : Statement}
    {reply : s.Reply} {stock : Stock} (does : desk.stock.Does (desk.stock.acting held) s reply stock (stock.acting held')) :
    ∃ t', (Desk.mk stock (some held')).Sound t' ∧ Advances t t' (s.given? reply).toList desk ⟨stock, some held'⟩ := by
  have before := h.yields_acting open'
  have performed := before.perform s
  cases does with
  | failed error fails same table =>
    obtain rfl : stock = desk.stock := same
    obtain rfl : reply = .error error := fails
    rw [s.given?_error]
    refine ⟨t, h.stays h.stored ?_⟩
    intro b hb
    obtain rfl : held' = b := Option.some.inj hb
    rcases table with e | e
    · exact e ▸ before
    · exact e ▸ performed
  | read result answers works idle same table =>
    obtain rfl : stock = desk.stock := same
    obtain rfl : reply = .ok result := answers
    rw [given?_of_not_saves idle]
    refine ⟨t, h.stays h.stored ?_⟩
    intro b hb
    obtain rfl : held' = b := Option.some.inj hb
    exact table ▸ before
  | written result answers works table stored =>
    obtain rfl : reply = .ok result := answers
    obtain ⟨t', ht', kept⟩ := stored
    rw [table] at kept
    have same := kept.same performed.numbered.consistent
    refine ⟨t', advances_of_yields _ ht' (performed.of_kept kept) ?_ ?_⟩
    · intro b hb
      obtain rfl : held' = b := Option.some.inj hb
      rw [table]
      exact ⟨performed, same.follows⟩
    · intro id e
      have numbering := (desk.stock.acting held).perform_numbering s
      rw [works, e] at numbering
      cases numbering with
      | kept lastId ids none => cases none
      | added id next lastId ids some =>
        cases some
        rw [same.lastId, lastId]
        exact ⟨UInt64.lt_of_le_of_lt before.follows.lastId (lt_of_nextWord? next), UInt64.le_refl _⟩

/-- **One use of a store** gives a higher id than those before it, if any, and brings none of them back. -/
theorem step_advances (h : desk.Sound t) (use : Use) :
    ∃ t', (desk.step use).2.Sound t' ∧ Advances t t' (desk.step use).1.toList desk (desk.step use).2 := by
  cases use with
  | connect =>
    refine ⟨t, h.stays h.stored ?_⟩
    intro held opened
    rw [step] at opened ⊢
    rw [Stock.acting_of_connect h.stored (toOption_eq_some.1 opened)]
    exact h.yields_stored
  | drop =>
    refine ⟨t, h.stays h.stored ?_⟩
    intro held opened
    cases opened
  | statement refusal s =>
    cases open' : desk.held with
    | none =>
      rw [step, open']
      exact ⟨t, h.stays h.stored fun held opened => h.yields_acting opened⟩
    | some held =>
      rw [step, open']
      exact advances_of_does h open' (desk.stock.perform_does refusal s held)
  | overwrite id content now =>
    obtain ⟨stock, held⟩ := desk
    cases stock with
    | memory m =>
      obtain rfl : m.table = t := Option.some.inj h.stored
      have performed := h.yields_stored.perform (.updateContent id content none now)
      refine ⟨_, advances_of_yields none rfl performed ?_ ?_⟩
      · intro b hb
        exact ⟨performed, .refl _⟩
      · intro id e
        cases e
    | file store d => exact ⟨t, h.stays h.stored fun held opened => h.yields_acting opened⟩
  | setReachable reachable =>
    refine ⟨t, h.stays ?_ ?_⟩
    · rw [step, Stock.table?_setReachable]
      exact h.stored
    · intro held opened
      rw [step, Stock.acting_setReachable]
      exact h.yields_acting opened
  | reopen =>
    refine ⟨t, h.stays ?_ ?_⟩
    · rw [← h.stored, step]
      cases desk.stock <;> rfl
    · intro held opened
      cases opened

/-! ## Any number of uses -/

theorem run_advances (h : desk.Sound t) (uses : List Use) :
    ∃ t', (desk.run uses).2.Sound t' ∧ Advances t t' (desk.run uses).1 desk (desk.run uses).2 := by
  induction uses generalizing desk t with
  | nil => exact ⟨t, h, .refl t desk⟩
  | cons use rest ih =>
    obtain ⟨t', sound, first⟩ := step_advances h use
    obtain ⟨t'', last, others⟩ := ih sound
    exact ⟨t'', last, first.trans others⟩

/-- **Ids are never given twice.** Whatever is done with a store that was empty, over any connections, with the file written or not,
with rows that come and go and with new stores opened in the file, the ids that are given are in strictly ascending order; and once the
row of an id that was given is gone, from the store and for the connection that is open, no row ever has that id again. -/
theorem run_ascending (empty : desk.stock.table? = some .empty) (unused : desk.held = none) (earlier later : List Use) :
    ((desk.run earlier).1 ++ ((desk.run earlier).2.run later).1).Pairwise (· < ·) ∧
      ∀ id ∈ (desk.run earlier).1, ¬ (desk.run earlier).2.Has id → ¬ ((desk.run earlier).2.run later).2.Has id := by
  have start : desk.Sound .empty := by
    refine ⟨empty, numbered_empty, ?_⟩
    intro held opened
    rw [unused] at opened
    cases opened
  obtain ⟨t, sound, first⟩ := run_advances start earlier
  obtain ⟨t', -, second⟩ := run_advances sound later
  refine ⟨(first.trans second).ascending, ?_⟩
  intro id hid gone here
  exact gone (second.present id (first.above id hid).2 here)

/-- a store in a file that is not there yet -/
def absentDesk : Desk := ⟨.file ⟨"store.json"⟩ (Directory.empty "/home"), none⟩

/-- rows that are added and deleted, where a title is taken, the file cannot be written for a while and the highest rows go -/
def restlessUses : List Use :=
  let insert (title : String) (refusal : Option StoreError) : Use := .statement refusal (.insert (.new title "" "<a/>" 0))
  [.connect, insert "a" none, insert "a" none, insert "b" none, .statement none (.delete 2), .reopen, .connect,
    insert "c" (some (.io "no space")), insert "d" none, .statement none .deleteAll, .drop]

/-- a row that comes after all of those -/
def laterUses : List Use :=
  [.reopen, .connect, .statement none (.insert (.new "a" "" "<a/>" 0))]

theorem run_ascending_restlessUses :
    absentDesk.stock.table? = some .empty ∧ absentDesk.held = none ∧
      ((absentDesk.run restlessUses).1 = [1, 2, 4] ∧ ((absentDesk.run restlessUses).2.run laterUses).1 = [5] ∧
        4 ∈ (absentDesk.run restlessUses).1 ∧ ¬ (absentDesk.run restlessUses).2.Has 4) ∧
      ((absentDesk.run restlessUses).1 ++ ((absentDesk.run restlessUses).2.run laterUses).1).Pairwise (· < ·) ∧
      ¬ ((absentDesk.run restlessUses).2.run laterUses).2.Has 4 := by
  have empty : absentDesk.stock.table? = some .empty := by decide +kernel
  have seen : (absentDesk.run restlessUses).1 = [1, 2, 4] ∧ ((absentDesk.run restlessUses).2.run laterUses).1 = [5] ∧
      4 ∈ (absentDesk.run restlessUses).1 ∧ ¬ (absentDesk.run restlessUses).2.Has 4 := by
    decide +kernel
  obtain ⟨ascending, gone⟩ := run_ascending empty rfl restlessUses laterUses
  exact ⟨empty, rfl, seen, ascending, gone 4 seen.2.2.1 seen.2.2.2⟩

end Desk

end XmlStore.Service
