/-
What statements do to a table.

A row is only ever replaced by one of the next version, and an id that was given never comes to stand for another row, for the counter
has come by every id in the table (`Table.Counted`). So whoever has read a row and finds the version that he read under its id finds
the very row (`Table.Later`).

Main statements:
- `Table.insert_cases`, `Table.updateContent_cases`, `Table.updateFields_cases`: how the statements that write come out.
- `Table.perform_change`: what a statement can do to a table; `Table.perform_error`: a statement that fails changes nothing.
- `Table.Counted.change`, `Table.Change.later`: what that does to the counter and to the rows of earlier tables.
- `Table.Later.same`: a row that is found again under its id with its version is the same.
-/
import XmlStore.Store.Table

namespace XmlStore

/-- the next word is one more -/
theorem toNat_of_nextWord? {n m : UInt64} (next : nextWord? n = some m) : m.toNat = n.toNat + 1 := by
  obtain ⟨room, rfl⟩ := nextWord?_eq_some.1 next
  rw [UInt64.toNat_add]
  exact Nat.mod_eq_of_lt room

theorem lt_of_nextWord? {n m : UInt64} (next : nextWord? n = some m) : n < m := by
  rw [UInt64.lt_iff_toNat_lt, toNat_of_nextWord? next]
  exact Nat.lt_succ_self _

namespace Statement

/-- the id that a statement which is answered so has given, if any -/
def given? : (s : Statement) → s.Reply → Option UInt64
  | .insert _, .ok id => some id
  | _, _ => none

theorem given?_error (s : Statement) (error : StoreError) : s.given? (.error error) = none := by
  cases s <;> rfl

end Statement

namespace Row

variable {row row' : Row} {now : UInt64}

/-- the row with the version after its own, written at a time -/
def renewed (row : Row) (now : UInt64) : Row :=
  { row with version := row.version + 1, modifiedAt := now }

theorem touch_eq_some : row.touch now = some row' ↔ row.version.toNat + 1 < UInt64.size ∧ row.renewed now = row' := by
  simp only [touch, renewed, Option.map_eq_some_iff, nextWord?_eq_some]
  constructor
  · rintro ⟨_, ⟨room, rfl⟩, rfl⟩
    exact ⟨room, rfl⟩
  · rintro ⟨room, rfl⟩
    exact ⟨_, ⟨room, rfl⟩, rfl⟩

theorem touch_eq_none : row.touch now = none ↔ ¬ row.version.toNat + 1 < UInt64.size := by
  rw [touch, Option.map_eq_none_iff, nextWord?_eq_none]

end Row

namespace Table

variable {t t' t'' : Table} {given : Option UInt64}

/-! ## Rows by their ids -/

theorem mem_of_byId {id : UInt64} {row : Row} (h : t.byId id = some row) : row ∈ t.rows :=
  List.mem_of_find?_eq_some h

theorem id_of_byId {id : UInt64} {row : Row} (h : t.byId id = some row) : row.id = id := by
  simpa using List.find?_some h

theorem find?_insertRow (row : Row) (rows : List Row) (id : UInt64) :
    (insertRow row rows).find? (·.id = id) = if row.id = id then some row else rows.find? (·.id = id) := by
  induction rows with
  | nil => by_cases h : row.id = id <;> simp [insertRow, h]
  | cons first rest ih =>
    rw [insertRow]
    split
    · by_cases h : row.id = id <;> simp [h]
    · split
      · rename_i _ he
        by_cases h : row.id = id
        · simp [h]
        · simp [h, ← he]
      · rename_i _ hne
        by_cases hf : first.id = id
        · simp [hf, show row.id ≠ id from fun h => hne (h.trans hf.symm)]
        · simp [hf, ih]

theorem mem_insertRow {row row' : Row} {rows : List Row} (h : row' ∈ insertRow row rows) : row' = row ∨ row' ∈ rows := by
  induction rows with
  | nil => simpa [insertRow] using h
  | cons first rest ih =>
    rw [insertRow] at h
    split at h
    · simpa using h
    · split at h
      · rcases List.mem_cons.1 h with h | h
        · exact Or.inl h
        · exact Or.inr (List.mem_cons_of_mem _ h)
      · rcases List.mem_cons.1 h with rfl | h
        · exact Or.inr List.mem_cons_self
        · exact (ih h).imp_right (List.mem_cons_of_mem _)

theorem find?_changeRow (rows : List Row) {id : UInt64} {row : Row} (hid : row.id = id) (id' : UInt64) :
    (changeRow id (fun _ => row) rows).find? (·.id = id') =
      if id' = id then (rows.find? (·.id = id)).map fun _ => row else rows.find? (·.id = id') := by
  induction rows with
  | nil => simp [changeRow]
  | cons first rest ih =>
    rw [changeRow] at ih
    rw [changeRow, List.map_cons]
    by_cases hf : first.id = id
    · by_cases h : id' = id
      · simp [hf, hid, h]
      · rw [if_pos hf, if_neg h]
        rw [if_neg h] at ih
        simp [hf, hid, Ne.symm h, ih]
    · rw [if_neg hf]
      by_cases h : id' = id
      · rw [if_pos h] at ih
        simp [hf, h, ← ih]
      · rw [if_neg h] at ih
        by_cases hf' : first.id = id'
        · simp [hf', h]
        · simp [hf', h, ih]

/-- a row that is replaced by one with its id leaves the new one under it -/
theorem byId_changeRow {id : UInt64} {old row : Row} (found : t.byId id = some old) (key : row.id = id)
    (rows : t'.rows = changeRow id (fun _ => row) t.rows) : t'.byId id = some row := by
  rw [byId] at found
  rw [byId, rows, find?_changeRow t.rows key, if_pos rfl, found, Option.map_some]

/-- a row that is written anew is found under its id -/
theorem byId_renewed {id now : UInt64} {old : Row} (row : Row) (found : t.byId id = some old) (key : row.id = old.id)
    (rows : t'.rows = changeRow id (fun _ => row.renewed now) t.rows) : t'.byId id = some (row.renewed now) :=
  byId_changeRow found (key.trans (id_of_byId found)) rows

theorem mem_changeRow {rows : List Row} {id : UInt64} {row row' : Row} (h : row' ∈ changeRow id (fun _ => row) rows) :
    row' = row ∨ row' ∈ rows := by
  obtain ⟨old, ho, rfl⟩ := List.mem_map.1 h
  split
  · exact Or.inl rfl
  · exact Or.inr ho

theorem find?_filter_id (rows : List Row) (id id' : UInt64) :
    (rows.filter (·.id ≠ id)).find? (·.id = id') = if id' = id then none else rows.find? (·.id = id') := by
  induction rows with
  | nil => simp
  | cons first rest ih =>
    rw [List.filter_cons]
    by_cases hf : first.id = id
    · rw [if_neg (by simpa using hf), ih]
      by_cases h : id' = id
      · simp [h]
      · simp [h, hf, Ne.symm h]
    · rw [if_pos (by simpa using hf), List.find?_cons, List.find?_cons, ih]
      by_cases h : id' = id
      · simp [h, hf]
      · simp [h]

/-! ## The statements that write -/

/-- a row is added under the word after the counter, or nothing is changed -/
theorem insert_cases (t : Table) (row : Row) :
    (∃ error, (error = .duplicateTitle row.title ∨ error = .overflow) ∧ t.insert row = (.error error, t)) ∨
      ∃ id, t.titles.lookup row.title = none ∧ nextWord? t.lastId = some id ∧
        t.insert row = (.ok id, ⟨insertRow { row with id } t.rows, putTitle row.title id t.titles, id⟩) := by
  cases free : t.titles.lookup row.title with
  | some taken => exact .inl ⟨_, .inl rfl, by rw [insert, free]⟩
  | none =>
    cases next : nextWord? t.lastId with
    | none => exact .inl ⟨_, .inr rfl, by rw [insert, free, next]⟩
    | some id => exact .inr ⟨id, rfl, rfl, by rw [insert, free, next]⟩

/-- the row is replaced by the next version of it with other content, or nothing is changed -/
theorem updateContent_cases (t : Table) (id : UInt64) (content : String) (expected : Option UInt64) (now : UInt64) :
    (∃ error, t.updateContent id content expected now = (.error error, t)) ∨
      ∃ old, t.byId id = some old ∧ old.version.toNat + 1 < UInt64.size ∧ t.updateContent id content expected now =
        (.ok (old.version + 1), { t with rows := changeRow id (fun _ => ({ old with content } : Row).renewed now) t.rows }) := by
  cases found : t.byId id with
  | none => exact .inl ⟨.missing id, by rw [updateContent, found]⟩
  | some old =>
    cases agreed : expected.filter (· ≠ old.version) with
    | some other => exact .inl ⟨.versionConflict id other old.version, by simp only [updateContent, found, agreed]⟩
    | none =>
      cases written : ({ old with content } : Row).touch now with
      | none => exact .inl ⟨.overflow, by simp only [updateContent, found, agreed, written]⟩
      | some row =>
        obtain ⟨room, rfl⟩ := Row.touch_eq_some.1 written
        exact .inr ⟨old, rfl, room, by simp only [updateContent, found, agreed, written]; rfl⟩

/-- the row is replaced by the next version of it with other fields, or nothing is changed -/
theorem updateFields_cases (t : Table) (id : UInt64) (patch : Patch) (now : UInt64) :
    (∃ error, (error = .missing id ∨ (∃ title, error = .duplicateTitle title) ∨ error = .overflow) ∧
        t.updateFields id patch now = (.error error, t)) ∨
      ∃ old, t.byId id = some old ∧ old.version.toNat + 1 < UInt64.size ∧
        (patch.title.filter fun title => ((t.titles.lookup title).filter (· ≠ id)).isSome) = none ∧
        t.updateFields id patch now = (.ok (old.version + 1),
          { t with
            rows := changeRow id (fun _ => (patch.apply old).renewed now) t.rows
            titles := if (patch.apply old).title = old.title then t.titles
              else putTitle (patch.apply old).title id (dropTitle old.title t.titles) }) := by
  cases found : t.byId id with
  | none => exact .inl ⟨_, .inl rfl, by rw [updateFields, found]⟩
  | some old =>
    cases fits : patch.title.filter fun title => ((t.titles.lookup title).filter (· ≠ id)).isSome with
    | some title => exact .inl ⟨_, .inr (.inl ⟨title, rfl⟩), by simp only [updateFields, found, fits]⟩
    | none =>
      cases written : (patch.apply old).touch now with
      | none => exact .inl ⟨_, .inr (.inr rfl), by simp only [updateFields, found, fits, written]⟩
      | some row =>
        obtain ⟨room, rfl⟩ := Row.touch_eq_some.1 written
        exact .inr ⟨old, rfl, room, rfl, by simp only [updateFields, found, fits, written]; rfl⟩

/-! ## What a statement can do -/

/-- what a statement that has given an id or none can do to a table -/
inductive Change (t t' : Table) (given : Option UInt64) : Prop where
  | kept (same : t' = t) (none : given = none)
  | added (row : Row) (rows : t'.rows = insertRow row t.rows) (next : nextWord? t.lastId = some row.id)
      (lastId : t'.lastId = row.id) (some : given = some row.id)
  | replaced (old row : Row) (found : t.byId old.id = some old) (rows : t'.rows = changeRow old.id (fun _ => row) t.rows)
      (id : row.id = old.id) (next : nextWord? old.version = some row.version) (lastId : t'.lastId = t.lastId)
      (none : given = none)
  | removed (rows : ∀ row ∈ t'.rows, row ∈ t.rows) (byId : ∀ id row, t'.byId id = some row → t.byId id = some row)
      (lastId : t'.lastId = t.lastId) (none : given = none)

theorem perform_change (t : Table) (s : Statement) : Change t (t.perform s).2 (s.given? (t.perform s).1) := by
  cases s with
  | insert row =>
    rcases t.insert_cases row with ⟨error, -, e⟩ | ⟨id, -, next, e⟩
    · rw [perform, e]
      exact .kept rfl rfl
    · rw [perform, e]
      exact .added { row with id } rfl next rfl rfl
  | updateContent id content expected now =>
    rcases t.updateContent_cases id content expected now with ⟨error, e⟩ | ⟨old, found, room, e⟩
    · rw [perform, e]
      exact .kept rfl rfl
    · obtain rfl : old.id = id := id_of_byId found
      rw [perform, e]
      exact .replaced old _ found rfl rfl (nextWord?_eq_some.2 ⟨room, rfl⟩) rfl rfl
  | updateFields id patch now =>
    rcases t.updateFields_cases id patch now with ⟨error, -, e⟩ | ⟨old, found, room, -, e⟩
    · rw [perform, e]
      exact .kept rfl rfl
    · obtain rfl : old.id = id := id_of_byId found
      rw [perform, e]
      exact .replaced old _ found rfl rfl (nextWord?_eq_some.2 ⟨room, rfl⟩) rfl rfl
  | delete id =>
    simp only [perform, delete]
    split
    · exact .kept rfl rfl
    · refine .removed (fun row hr => (List.mem_filter.1 hr).1) ?_ rfl rfl
      intro id' row hr
      rw [byId, find?_filter_id] at hr
      split at hr
      · simp at hr
      · exact hr
  | deleteAll => exact .removed (by simp [perform, deleteAll]) (by simp [perform, deleteAll, byId]) rfl rfl
  | _ => exact .kept rfl rfl

/-- a statement that fails changes nothing -/
theorem perform_error {s : Statement} {error : StoreError} (h : (t.perform s).1 = .error error) : (t.perform s).2 = t := by
  cases s with
  | insert row =>
    rw [perform] at h ⊢
    rcases t.insert_cases row with ⟨error, -, e⟩ | ⟨id, -, -, e⟩ <;> rw [e] at h ⊢
    cases h
  | updateContent id content expected now =>
    rw [perform] at h ⊢
    rcases t.updateContent_cases id content expected now with ⟨error, e⟩ | ⟨old, -, -, e⟩ <;> rw [e] at h ⊢
    cases h
  | updateFields id patch now =>
    rw [perform] at h ⊢
    rcases t.updateFields_cases id patch now with ⟨error, -, e⟩ | ⟨old, -, -, -, e⟩ <;> rw [e] at h ⊢
    cases h
  | _ => simp [perform] at h

/-! ## Updates on the condition of a version -/

theorem updateContent_missing {id : UInt64} (found : t.byId id = none) (content : String) (expected : Option UInt64)
    (now : UInt64) : t.perform (.updateContent id content expected now) = (.error (.missing id), t) := by
  simp [perform, updateContent, found]

theorem updateContent_changed {id expected : UInt64} {row : Row} (found : t.byId id = some row)
    (other : row.version ≠ expected) (content : String) (now : UInt64) :
    t.perform (.updateContent id content (some expected) now) = (.error (.versionConflict id expected row.version), t) := by
  simp [perform, updateContent, found, Option.filter, Ne.symm other]

/-- a row with the expected version is written if there is a next version, and else the program stops -/
theorem updateContent_agreed {id : UInt64} {row : Row} (found : t.byId id = some row) (content : String)
    {expected : Option UInt64} (agreed : ∀ version ∈ expected, version = row.version) (now : UInt64) :
    (t.perform (.updateContent id content expected now)).1 = (nextWord? row.version).elim (.error .overflow) .ok := by
  have none : expected.filter (· ≠ row.version) = .none := by
    rw [Option.filter_eq_none_iff]
    intro version given
    simp [agreed version given]
  simp only [perform, updateContent, found, none, Row.touch]
  cases nextWord? row.version <;> rfl

theorem updateContent_same {id : UInt64} {row : Row} (found : t.byId id = some row) (content : String) (now : UInt64) :
    (t.perform (.updateContent id content (some row.version) now)).1 = (nextWord? row.version).elim (.error .overflow) .ok :=
  updateContent_agreed found content (by simp) now

/-! ## The counter -/

/-- a table whose counter has come by all ids in it -/
def Counted (t : Table) : Prop := ∀ row ∈ t.rows, row.id ≤ t.lastId

theorem counted_empty : Counted empty := by
  simp [Counted, empty]

theorem Counted.change (h : t.Counted) (change : Change t t' given) : t'.Counted := by
  intro r hr
  cases change with
  | kept same => exact same ▸ h r (same ▸ hr)
  | added row rows next lastId =>
    rw [rows] at hr
    rw [lastId]
    rcases mem_insertRow hr with rfl | hr
    · exact UInt64.le_refl _
    · exact UInt64.le_trans (h r hr) (UInt64.le_of_lt (lt_of_nextWord? next))
  | replaced old row found rows id next lastId =>
    rw [rows] at hr
    rw [lastId]
    rcases mem_changeRow hr with rfl | hr
    · exact id ▸ h old (mem_of_byId found)
    · exact h r hr
  | removed rows byId lastId => exact lastId ▸ h r (rows r hr)

theorem Counted.perform (h : t.Counted) (s : Statement) : (t.perform s).2.Counted :=
  h.change (t.perform_change s)

/-! ## Earlier and later tables -/

/-- a table after other statements: under every id that had been given, there is what there was, or a row of a higher version
than before, or nothing -/
structure Later (t t' : Table) : Prop where
  lastId : t.lastId ≤ t'.lastId
  rows : ∀ id row, id ≤ t.lastId → t'.byId id = some row →
    t.byId id = some row ∨ ∃ old, t.byId id = some old ∧ old.version < row.version

theorem Later.refl (t : Table) : t.Later t :=
  ⟨UInt64.le_refl _, fun _ _ _ h => Or.inl h⟩

theorem Later.trans (h : t.Later t') (h' : t'.Later t'') : t.Later t'' := by
  refine ⟨UInt64.le_trans h.lastId h'.lastId, ?_⟩
  intro id row hid hr
  rcases h'.rows id row (UInt64.le_trans hid h.lastId) hr with hm | ⟨middle, hm, hv⟩
  · exact h.rows id row hid hm
  · rcases h.rows id middle hid hm with ho | ⟨old, ho, hv'⟩
    · exact Or.inr ⟨middle, ho, hv⟩
    · exact Or.inr ⟨old, ho, UInt64.lt_trans hv' hv⟩

theorem Change.later (change : Change t t' given) : t.Later t' := by
  cases change with
  | kept same => exact same ▸ Later.refl t
  | added row rows next lastId =>
    have above := lt_of_nextWord? next
    refine ⟨lastId ▸ UInt64.le_of_lt above, ?_⟩
    intro id' row' hid hr
    have other : row.id ≠ id' := fun e => UInt64.lt_irrefl _ (UInt64.lt_of_lt_of_le above (e ▸ hid))
    rw [byId, rows, find?_insertRow, if_neg other] at hr
    exact Or.inl hr
  | replaced old row found rows id next lastId =>
    refine ⟨lastId ▸ UInt64.le_refl _, ?_⟩
    intro id' row' _ hr
    rw [byId, rows, find?_changeRow _ id] at hr
    split at hr
    · rename_i he
      subst he
      rw [byId] at found
      rw [found, Option.map_some, Option.some.injEq] at hr
      subst hr
      exact Or.inr ⟨old, found, lt_of_nextWord? next⟩
    · exact Or.inl hr
  | removed rows byId lastId => exact ⟨lastId ▸ UInt64.le_refl _, fun id' row' _ hr => Or.inl (byId id' row' hr)⟩

/-- **The version tells the row.** Whoever has read a row and later finds its version under its id finds that very row. -/
theorem Later.same {id : UInt64} {row row' : Row} (h : t.Later t') (hr : t.byId id = some row) (hid : id ≤ t.lastId)
    (hr' : t'.byId id = some row') (hv : row'.version = row.version) : row' = row := by
  rcases h.rows id row' hid hr' with ho | ⟨old, ho, hlt⟩
  · rw [hr, Option.some.injEq] at ho
    exact ho.symm
  · rw [hr, Option.some.injEq] at ho
    subst ho
    rw [hv] at hlt
    exact absurd hlt (UInt64.lt_irrefl _)

end Table

end XmlStore
