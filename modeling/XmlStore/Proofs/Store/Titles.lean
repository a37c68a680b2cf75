/-
Titles that are taken and titles that are free.

Whatever is done to a table that was empty at first, its rows are found under the ids that they carry, and the index names for every
title the id of the one row that has it. So a title is refused exactly when another row has it, and once the row that had it is gone
or has got another one, any row can have it. What else can end an insertion or an update is that there is no next id or version.

Main statements:
- `Table.Consistent.insert_error_iff`, `Table.Consistent.updateFields_error_iff`: when a title is refused.
- `Table.Consistent.free_of_frees`: which titles become free.
- `Table.titled_accesses`: what holds of the titles after anything that is done to a table.
-/
import XmlStore.Proofs.Store.Counter
import XmlStore.Store.Memory

namespace XmlStore

/-- whether a statement that works takes a row away or gives it another title -/
def Statement.Frees (row : Row) : Statement → Prop
  | .updateFields id patch _ => id = row.id ∧ ∃ title, patch.title = some title ∧ title ≠ row.title
  | .delete id => id = row.id
  | .deleteAll => True
  | _ => False

namespace Table

variable {t : Table} {id : UInt64} {title : String} {row old : Row} {patch : Patch} {now : UInt64}
  {error : StoreError}

/-! ## What a table can be asked -/

/-- whether any row can get a title, one that is added and each of those that are there, unless the program stops because there is no
next id or version -/
structure Takes (t : Table) (title : String) : Prop where
  insert : ∀ row, row.title = title → (t.perform (.insert row)).1 = (nextWord? t.lastId).elim (.error .overflow) .ok
  retitle : ∀ id old patch now, t.byId id = some old → patch.title = some title →
    (t.perform (.updateFields id patch now)).1 = (nextWord? old.version).elim (.error .overflow) .ok

/-- a table in which rows are found by their ids and their titles, and where a title is refused just when another row has it -/
structure Titled (t : Table) : Prop where
  /-- what stands under an id carries it, and the counter has come by it -/
  keys : ∀ id row, t.byId id = some row → row.id = id ∧ 1 ≤ id ∧ id ≤ t.lastId
  rows : ∀ row, row ∈ t.rows ↔ t.byId row.id = some row
  /-- the index has a title with an id just when the row of the id has the title -/
  index : ∀ title id, t.titles.lookup title = some id ↔ ∃ row, t.byId id = some row ∧ row.title = title
  distinct : ∀ row ∈ t.rows, ∀ row' ∈ t.rows, row.title = row'.title → row = row'
  fetched : ∀ title row, (t.perform (.fetchByTitle title)).1 = .ok (some row) ↔ row ∈ t.rows ∧ row.title = title
  inserted : ∀ row error, (t.perform (.insert row)).1 = .error error ↔
    (error = .duplicateTitle row.title ∧ ∃ other ∈ t.rows, other.title = row.title) ∨
      (error = .overflow ∧ nextWord? t.lastId = none ∧ ∀ other ∈ t.rows, other.title ≠ row.title)
  updated : ∀ id old patch now error, t.byId id = some old → ((t.perform (.updateFields id patch now)).1 = .error error ↔
    (∃ title, patch.title = some title ∧ error = .duplicateTitle title ∧ ∃ other ∈ t.rows, other.id ≠ id ∧ other.title = title) ∨
      (error = .overflow ∧ nextWord? old.version = none ∧
        ∀ title, patch.title = some title → ∀ other ∈ t.rows, other.id ≠ id → other.title ≠ title))
  freed : ∀ row ∈ t.rows, ∀ s result, s.Frees row → (t.perform s).1 = .ok result → (t.perform s).2.Takes row.title

namespace Consistent

/-! ## Rows by their ids and their titles -/

theorem byId_of_mem (h : t.Consistent) (hr : row ∈ t.rows) : t.byId row.id = some row := by
  cases found : t.byId row.id with
  | none => exact absurd (List.find?_eq_none.1 found row hr) (by simp)
  | some other => rw [h.ascending.eq_of_id (mem_of_byId found) hr (id_of_byId found)]

theorem lookup_eq_some (h : t.Consistent) : t.titles.lookup title = some id ↔ ∃ row, t.byId id = some row ∧ row.title = title := by
  rw [h.titles]
  constructor
  · rintro ⟨row, hr, e, rfl⟩
    exact ⟨row, h.byId_of_mem hr, e⟩
  · rintro ⟨row, found, e⟩
    exact ⟨row, mem_of_byId found, e, id_of_byId found⟩

theorem byTitle_eq_some (h : t.Consistent) : t.byTitle title = some row ↔ row ∈ t.rows ∧ row.title = title := by
  rw [byTitle, Option.bind_eq_some_iff]
  constructor
  · rintro ⟨id, hid, found⟩
    obtain ⟨other, ho, e⟩ := h.lookup_eq_some.1 hid
    obtain rfl : other = row := Option.some.inj (ho.symm.trans found)
    exact ⟨mem_of_byId found, e⟩
  · rintro ⟨hr, e⟩
    exact ⟨row.id, h.lookup_eq_some.2 ⟨row, h.byId_of_mem hr, e⟩, h.byId_of_mem hr⟩

/-! ## When a title is refused -/

/-- a row is not added just when another one has its title, or else there is no next id -/
theorem insert_error_iff (h : t.Consistent) : (t.perform (.insert row)).1 = .error error ↔
    (error = .duplicateTitle row.title ∧ ∃ other ∈ t.rows, other.title = row.title) ∨
      (error = .overflow ∧ nextWord? t.lastId = none ∧ ∀ other ∈ t.rows, other.title ≠ row.title) := by
  simp only [Table.perform, Table.insert]
  cases taken : t.titles.lookup row.title with
  | none =>
    have free : ∀ other ∈ t.rows, other.title ≠ row.title := by
      intro other ho e
      have named := (h.titles row.title other.id).2 ⟨other, ho, e, rfl⟩
      rw [taken] at named
      cases named
    have unrefused : ¬ (error = .duplicateTitle row.title ∧ ∃ other ∈ t.rows, other.title = row.title) :=
      fun refused => refused.2.elim fun other ho => free other ho.1 ho.2
    rw [or_iff_right unrefused]
    cases nextWord? t.lastId with
    | none =>
      rw [Except.error.injEq]
      exact ⟨fun stops => ⟨stops.symm, rfl, free⟩, fun stops => stops.1.symm⟩
    | some id =>
      constructor
      · intro e
        cases e
      · rintro ⟨-, e, -⟩
        cases e
  | some id =>
    obtain ⟨other, ho, e, -⟩ := (h.titles row.title id).1 taken
    rw [Except.error.injEq]
    constructor
    · intro same
      exact Or.inl ⟨same.symm, other, ho, e⟩
    · rintro (refused | ⟨-, -, free⟩)
      · exact refused.1.symm
      · exact absurd e (free other ho)

/-- the index names another row for a title just when another row has it -/
theorem taken_iff (h : t.Consistent) (title : String) (id : UInt64) :
    ((t.titles.lookup title).filter (· ≠ id)).isSome = true ↔ ∃ other ∈ t.rows, other.id ≠ id ∧ other.title = title := by
  rw [Option.isSome_iff_exists]
  simp only [Option.filter_eq_some_iff, h.titles, decide_eq_true_eq]
  constructor
  · rintro ⟨_, ⟨other, ho, e, rfl⟩, ne⟩
    exact ⟨other, ho, ne, e⟩
  · rintro ⟨other, ho, ne, e⟩
    exact ⟨other.id, ⟨other, ho, e, rfl⟩, ne⟩

/-- the fields of a row are not changed just when another row has the title that it is to get, or else there is no next version -/
theorem updateFields_error_iff (h : t.Consistent) (found : t.byId id = some old) :
    (t.perform (.updateFields id patch now)).1 = .error error ↔
      (∃ title, patch.title = some title ∧ error = .duplicateTitle title ∧
        ∃ other ∈ t.rows, other.id ≠ id ∧ other.title = title) ∨
      (error = .overflow ∧ nextWord? old.version = none ∧
        ∀ title, patch.title = some title → ∀ other ∈ t.rows, other.id ≠ id → other.title ≠ title) := by
  have refused : ∀ title, (patch.title.filter fun title => ((t.titles.lookup title).filter (· ≠ id)).isSome) = some title ↔
      patch.title = some title ∧ ∃ other ∈ t.rows, other.id ≠ id ∧ other.title = title := by
    intro title
    rw [Option.filter_eq_some_iff, h.taken_iff]
  simp only [Table.perform, Table.updateFields, found]
  split
  · rename_i title hit
    obtain ⟨given, other, ho, ne, same⟩ := (refused title).1 hit
    rw [Except.error.injEq]
    constructor
    · intro e
      exact Or.inl ⟨title, given, e.symm, other, ho, ne, same⟩
    · rintro (⟨title', given', e, -⟩ | ⟨-, -, free⟩)
      · rw [given, Option.some.injEq] at given'
        rw [e, given']
      · exact absurd same (free title given other ho ne)
  · rename_i unrefused
    have free : ∀ title, patch.title = some title → ∀ other ∈ t.rows, other.id ≠ id → other.title ≠ title := by
      intro title given other ho ne same
      rw [(refused title).2 ⟨given, other, ho, ne, same⟩] at unrefused
      cases unrefused
    have version : (patch.apply old).version = old.version := rfl
    rw [Row.touch, version]
    cases nextWord? old.version with
    | none =>
      simp only [Option.map_none, Except.error.injEq]
      constructor
      · intro stops
        exact Or.inr ⟨stops.symm, trivial, free⟩
      · rintro (⟨title, given, -, other, ho, ne, same⟩ | stops)
        · exact absurd same (free title given other ho ne)
        · exact stops.1.symm
    | some version =>
      constructor
      · intro e
        cases e
      · rintro (⟨title, given, -, other, ho, ne, same⟩ | ⟨-, e, -⟩)
        · exact absurd same (free title given other ho ne)
        · cases e

/-! ## Which titles become free -/

/-- a title that no row has can be taken by any -/
theorem takes (h : t.Consistent) (free : ∀ other ∈ t.rows, other.title ≠ title) : t.Takes title where
  insert := by
    intro row e
    have unnamed : t.titles.lookup row.title = none := by
      rw [e, Option.eq_none_iff_forall_ne_some]
      intro id taken
      obtain ⟨other, ho, same, -⟩ := (h.titles title id).1 taken
      exact free other ho same
    simp only [Table.perform, Table.insert, unnamed]
    cases nextWord? t.lastId <;> rfl
  retitle := by
    intro id old patch now found given
    have unnamed : ((t.titles.lookup title).filter (· ≠ id)).isSome = false := by
      rw [← Bool.not_eq_true, h.taken_iff]
      rintro ⟨other, ho, -, same⟩
      exact free other ho same
    have version : (patch.apply old).version = old.version := rfl
    simp only [Table.perform, Table.updateFields, found, given, Option.filter_some, unnamed, Row.touch, version]
    cases nextWord? old.version <;> rfl

/-- **A title becomes free** when its row is taken out or gets another one. -/
theorem free_of_frees (h : t.Consistent) (hr : row ∈ t.rows) {s : Statement} {result : s.Result} (frees : s.Frees row)
    (ok : (t.perform s).1 = .ok result) : ∀ other ∈ (t.perform s).2.rows, other.title ≠ row.title := by
  have there := h.byId_of_mem hr
  cases s with
  | updateFields id patch now =>
    obtain ⟨rfl, title, given, ne⟩ := frees
    obtain ⟨old, before, after, ha, -, -, -, e⟩ := h.updateFields_ok ok
    obtain rfl : old = row := h.ascending.eq_of_id (ha.mem.2 (Or.inl rfl)) hr ha.key
    have renamed : ((patch.apply old).renewed now).title = title := by simp [Row.renewed, Patch.apply, given]
    have key : ((patch.apply old).renewed now).id = old.id := rfl
    rw [e]
    intro other ho
    rcases (ha.replace key).mem.1 ho with rfl | ho
    · exact renamed.symm ▸ ne
    · exact h.free_of_around ha ho
  | delete id =>
    obtain rfl : id = row.id := frees
    simp only [Table.perform, Table.delete, there]
    intro other ho same
    have kept := List.mem_filter.1 ho
    rw [h.eq_of_title kept.1 hr same] at kept
    exact of_decide_eq_true kept.2 rfl
  | deleteAll => simp [Table.perform, Table.deleteAll]
  | _ => exact absurd frees id

end Consistent

/-- tables that have come from an empty one have their rows and titles in order -/
theorem Numbered.titled (h : t.Numbered) : t.Titled where
  keys := by
    intro id row found
    have hr := mem_of_byId found
    rw [← id_of_byId found]
    exact ⟨rfl, h.positive row hr, h.consistent.ids row hr⟩
  rows _ := ⟨h.consistent.byId_of_mem, mem_of_byId⟩
  index _ _ := h.consistent.lookup_eq_some
  distinct _ hr _ hr' := h.consistent.eq_of_title hr hr'
  fetched title row := by
    rw [← h.consistent.byTitle_eq_some]
    simp only [Table.perform, Except.ok.injEq]
  inserted _ _ := h.consistent.insert_error_iff
  updated _ _ _ _ _ := h.consistent.updateFields_error_iff
  freed _ hr s _ frees ok := (h.consistent.perform s).takes (h.consistent.free_of_frees hr frees ok)

/-! ## Anything done to a table -/

/-- something that is done to a table: a statement, or another writer's new content for a row -/
inductive Access where
  | statement (s : Statement)
  | overwrite (id : UInt64) (content : String) (now : UInt64)
  deriving DecidableEq, Repr

def Access.inserts : Access → Bool
  | .statement s => s.inserts
  | .overwrite .. => false

def access (t : Table) : Access → Table
  | .statement s => (t.perform s).2
  | .overwrite id content now => (Memory.overwrite ⟨t, true⟩ id content now).2.table

def accesses (t : Table) (list : List Access) : Table :=
  list.foldl access t

theorem step_numbered (h : t.Numbered) (a : Access) :
    (t.access a).Numbered ∧ (t.access a).lastId.toNat ≤ t.lastId.toNat + a.inserts.toNat := by
  cases a with
  | statement s => exact ⟨h.perform s, t.lastId_perform_le s⟩
  | overwrite id content now =>
    exact ⟨h.perform (.updateContent id content none now), t.lastId_perform_le (.updateContent id content none now)⟩

theorem run_numbered (h : t.Numbered) (list : List Access) :
    (t.accesses list).Numbered ∧ (t.accesses list).lastId.toNat ≤ t.lastId.toNat + list.countP Access.inserts := by
  induction list generalizing t with
  | nil => exact ⟨h, Nat.le_refl _⟩
  | cons a rest ih =>
    obtain ⟨numbered, step⟩ := step_numbered h a
    obtain ⟨last, run⟩ := ih numbered
    refine ⟨last, ?_⟩
    have count : (a :: rest).countP Access.inserts = a.inserts.toNat + rest.countP Access.inserts := by
      rw [List.countP_cons, Nat.add_comm]
      cases a.inserts <;> rfl
    calc ((t.access a).accesses rest).lastId.toNat
        ≤ (t.access a).lastId.toNat + rest.countP Access.inserts := run
      _ ≤ t.lastId.toNat + a.inserts.toNat + rest.countP Access.inserts := Nat.add_le_add_right step _
      _ = t.lastId.toNat + (a :: rest).countP Access.inserts := by rw [count, Nat.add_assoc]

/-- **Rows and titles are in order** after any statements, however they are answered, and any content of other writers, from an empty
table on: every id leads to the row that carries it, the index tells the titles of the rows and nothing else, no two rows have the same
title, and a title is refused exactly when another row has it. One that a row has lost can be taken again. There is a next id as long
as fewer rows were to be added than there are words for ids. -/
theorem titled_accesses (list : List Access) :
    (empty.accesses list).Titled ∧
      (list.countP Access.inserts + 1 < UInt64.size → (nextWord? (empty.accesses list).lastId).isSome = true) := by
  obtain ⟨numbered, lastId⟩ := run_numbered numbered_empty list
  refine ⟨numbered.titled, ?_⟩
  intro few
  have start : empty.lastId.toNat = 0 := rfl
  exact Option.isSome_iff_exists.2 ⟨_, nextWord?_eq_some.2 ⟨by omega, rfl⟩⟩

/-- rows that want the titles of others, get them when those are given up, and keep their own -/
def swappedTitles : List Access :=
  let retitled (title : String) : Patch := ⟨some title, none, none⟩
  [.statement (.insert (.new "a" "" "<a/>" 1)), .statement (.insert (.new "b" "" "<b/>" 2)),
    .statement (.insert (.new "a" "" "<c/>" 3)), .statement (.updateFields 1 (retitled "b") 4),
    .statement (.updateFields 1 (retitled "c") 5), .statement (.insert { Row.new "a" "" "<c/>" 6 with id := 1, version := 7 }),
    .statement (.delete 2), .overwrite 1 "<" 7, .statement (.updateFields 1 (retitled "b") 8),
    .statement (.updateFields 3 (retitled "a") 9)]

theorem titled_accesses_swappedTitles :
    swappedTitles.countP Access.inserts + 1 < UInt64.size ∧
      (empty.accesses swappedTitles).rows = [⟨1, "b", "", "<", 4, 1, 8⟩, ⟨3, "a", "", "<c/>", 8, 6, 9⟩] ∧
      (empty.accesses swappedTitles).Titled ∧ (nextWord? (empty.accesses swappedTitles).lastId).isSome = true := by
  have few : swappedTitles.countP Access.inserts + 1 < UInt64.size := by decide
  obtain ⟨titled, next⟩ := titled_accesses swappedTitles
  exact ⟨few, by decide +kernel, titled, next few⟩

end Table

end XmlStore
