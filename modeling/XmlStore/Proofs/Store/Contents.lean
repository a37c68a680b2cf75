/-
What stands in the rows of a table.

Content comes into a table with the statements that add or change rows, and is only shown by those that fetch them. So if each statement
brings in nothing but what may stand under the id that it names, nothing else ever stands there.

Main statement:
- `Table.Holds.perform`: statements that bring in what may be there keep it so, and show nothing else.
-/
import XmlStore.Proofs.Store.Table

namespace XmlStore

variable {allowed : UInt64 → String → Prop}

namespace Statement

/-- whether what a statement brings in is content that is allowed under its id; a row that is added may get any -/
def Brings (allowed : UInt64 → String → Prop) : Statement → Prop
  | .insert row => ∀ id, allowed id row.content
  | .updateContent id content _ _ => allowed id content
  | .updateFields id patch _ => ∀ content, patch.content = some content → allowed id content
  | _ => True

/-- whether the rows that a statement is answered with have content that is allowed -/
def Shows (allowed : UInt64 → String → Prop) : (s : Statement) → s.Reply → Prop
  | .fetchById _, .ok (some row) => allowed row.id row.content
  | .fetchByTitle _, .ok (some row) => allowed row.id row.content
  | .fetchAll, .ok rows => ∀ row ∈ rows, allowed row.id row.content
  | _, _ => True

theorem shows_error (s : Statement) (error : StoreError) : s.Shows allowed (.error error) := by
  cases s <;> trivial

end Statement

namespace Table

variable {t : Table}

/-- a table in which only such content stands as is allowed under the id of its row -/
def Holds (allowed : UInt64 → String → Prop) (t : Table) : Prop :=
  ∀ row ∈ t.rows, allowed row.id row.content

theorem holds_empty : empty.Holds allowed := by
  intro row hr
  cases hr

/-- a row with content that is allowed, in the place of another one with its id -/
theorem Holds.changeRow (h : t.Holds allowed) {id : UInt64} {row : Row} (new : allowed row.id row.content) :
    ∀ other ∈ changeRow id (fun _ => row) t.rows, allowed other.id other.content := by
  intro other ho
  rcases mem_changeRow ho with e | ho
  · exact e ▸ new
  · exact h other ho

/-- what is found by its title is in the table -/
theorem mem_of_byTitle {title : String} {row : Row} (h : t.byTitle title = some row) : row ∈ t.rows := by
  obtain ⟨id, -, found⟩ := Option.bind_eq_some_iff.1 h
  exact mem_of_byId found

/-- **Statements** that bring in nothing but what is allowed keep a table so, and show nothing else. -/
theorem Holds.perform (h : t.Holds allowed) {s : Statement} (brings : s.Brings allowed) :
    (t.perform s).2.Holds allowed ∧ s.Shows allowed (t.perform s).1 := by
  cases s with
  | fetchById id =>
    refine ⟨h, ?_⟩
    cases found : t.byId id with
    | none => simp only [Table.perform, found, Statement.Shows]
    | some row =>
      simp only [Table.perform, found]
      exact h row (mem_of_byId found)
  | fetchByTitle title =>
    refine ⟨h, ?_⟩
    cases found : t.byTitle title with
    | none => simp only [Table.perform, found, Statement.Shows]
    | some row =>
      simp only [Table.perform, found]
      exact h row (mem_of_byTitle found)
  | fetchAll => exact ⟨h, h⟩
  | insert row =>
    refine ⟨?_, trivial⟩
    rcases t.insert_cases row with ⟨error, -, e⟩ | ⟨id, -, -, e⟩ <;> rw [Table.perform, e]
    · exact h
    · intro other ho
      rcases mem_insertRow ho with same | ho
      · exact same ▸ brings id
      · exact h other ho
  | updateContent id content expected now =>
    refine ⟨?_, trivial⟩
    rcases t.updateContent_cases id content expected now with ⟨error, e⟩ | ⟨old, found, -, e⟩ <;> rw [Table.perform, e]
    · exact h
    · have key : old.id = id := id_of_byId found
      exact h.changeRow (show allowed old.id content from key ▸ brings)
  | updateFields id patch now =>
    refine ⟨?_, trivial⟩
    rcases t.updateFields_cases id patch now with ⟨error, -, e⟩ | ⟨old, found, -, -, e⟩ <;> rw [Table.perform, e]
    · exact h
    · have key : old.id = id := id_of_byId found
      have new : allowed old.id (patch.content.getD old.content) := by
        cases given : patch.content with
        | none => exact h old (mem_of_byId found)
        | some content => exact key ▸ brings content given
      exact h.changeRow new
  | delete id =>
    refine ⟨?_, trivial⟩
    simp only [Table.perform, Table.delete]
    split
    · exact h
    · intro row hr
      exact h row (List.mem_filter.1 hr).1
  | deleteAll =>
    refine ⟨?_, trivial⟩
    intro row hr
    cases hr
  | count => exact ⟨h, trivial⟩

end Table

end XmlStore
