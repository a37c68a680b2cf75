/-
The ids of rows and the counter that they come from.

Only a row that is added gets an id, and it gets the next one after the counter. Whatever else is done, the ids in a table are among
those that were in it before. So an id that the counter has passed belongs to the row that it was given to or to none: once no row has
it any more, none ever has (`Table.Follows`).

Main statements:
- `Table.perform_numbering`: what a statement does to the ids and the counter.
- `Table.Numbered.perform`, `Table.follows_perform`: what is kept by it.
-/
import XmlStore.Proofs.Store.Consistent

namespace XmlStore

namespace Statement

def inserts : Statement → Bool
  | .insert _ => true
  | _ => false

theorem inserts_of_given? {s : Statement} {reply : s.Reply} {id : UInt64} (gives : s.given? reply = some id) :
    s.inserts = true := by
  cases s with
  | insert row => rfl
  | _ => cases gives

end Statement

namespace Table

variable {t t' t'' : Table} {given : Option UInt64}

/-! ## One statement -/

/-- what a statement that has given an id or none can do to the ids and the counter of a table -/
inductive Numbering (t t' : Table) (given : Option UInt64) : Prop where
  | kept (lastId : t'.lastId = t.lastId) (ids : ∀ row ∈ t'.rows, ∃ old ∈ t.rows, old.id = row.id) (none : given = none)
  | added (id : UInt64) (next : nextWord? t.lastId = some id) (lastId : t'.lastId = id)
      (ids : ∀ row ∈ t'.rows, row.id = id ∨ ∃ old ∈ t.rows, old.id = row.id) (some : given = some id)

theorem Change.numbering (change : Change t t' given) : Numbering t t' given := by
  have same : ∀ row ∈ t.rows, ∃ old ∈ t.rows, old.id = row.id := fun row hr => ⟨row, hr, rfl⟩
  cases change with
  | kept kept none =>
    subst kept
    exact .kept rfl same none
  | added row rows next lastId some =>
    refine .added row.id next lastId ?_ some
    intro row' hr
    rcases mem_insertRow (rows ▸ hr) with e | hr
    · exact Or.inl (by rw [e])
    · exact Or.inr (same row' hr)
  | replaced old row found rows id next lastId none =>
    refine .kept lastId ?_ none
    intro row' hr
    rcases mem_changeRow (rows ▸ hr) with e | hr
    · exact ⟨old, mem_of_byId found, by rw [e, id]⟩
    · exact same row' hr
  | removed rows byId lastId none => exact .kept lastId (fun row hr => same row (rows row hr)) none

/-- **What a statement does to the ids**: it leaves them, takes some away, or adds the next one. -/
theorem perform_numbering (t : Table) (s : Statement) : Numbering t (t.perform s).2 (s.given? (t.perform s).1) :=
  (t.perform_change s).numbering

/-- the counter goes on by the rows that are to be added at most -/
theorem lastId_perform_le (t : Table) (s : Statement) :
    (t.perform s).2.lastId.toNat ≤ t.lastId.toNat + s.inserts.toNat := by
  cases t.perform_numbering s with
  | kept lastId => exact lastId ▸ Nat.le_add_right _ _
  | added id next lastId ids some =>
    exact Nat.le_of_eq (by rw [lastId, toNat_of_nextWord? next, Statement.inserts_of_given? some, Bool.toNat_true])

/-! ## Tables that are read -/

theorem lastId_load (t : Table) (row : Row) : (t.load row).lastId = if t.lastId ≤ row.id then row.id else t.lastId := rfl

theorem Counted.load (h : t.Counted) (row : Row) : (t.load row).Counted := by
  have passed : t.lastId ≤ (t.load row).lastId ∧ row.id ≤ (t.load row).lastId := by
    rw [lastId_load]
    split
    · rename_i le
      exact ⟨le, UInt64.le_refl _⟩
    · rename_i above
      exact ⟨UInt64.le_refl _, UInt64.le_of_lt (UInt64.not_le.1 above)⟩
  intro other ho
  rcases mem_insertRow ho with rfl | ho
  · exact passed.2
  · exact UInt64.le_trans (h other ho) passed.1

theorem counted_ofRows (lastId : UInt64) (rows : List Row) : (ofRows lastId rows).Counted := by
  have start : Counted ⟨[], [], lastId⟩ := by simp [Counted]
  rw [ofRows]
  generalize (⟨[], [], lastId⟩ : Table) = t at start ⊢
  induction rows generalizing t with
  | nil => exact start
  | cons first rest ih => exact ih _ (start.load first)

/-- a table made anew from rows that the counter has passed has that counter -/
theorem lastId_ofRows {lastId : UInt64} {rows : List Row} (h : ∀ row ∈ rows, row.id ≤ lastId) :
    (ofRows lastId rows).lastId = lastId := by
  have counter : lastId = (⟨[], [], lastId⟩ : Table).lastId := rfl
  rw [ofRows]
  generalize (⟨[], [], lastId⟩ : Table) = t at counter ⊢
  induction rows generalizing t with
  | nil => exact counter.symm
  | cons first rest ih =>
    obtain ⟨passed, others⟩ := List.forall_mem_cons.1 h
    refine ih others _ ?_
    rw [lastId_load]
    split
    · rename_i le
      exact UInt64.le_antisymm (counter ▸ le) passed
    · exact counter

/-! ## Tables that have come from an empty one -/

/-- a consistent table whose ids are positive -/
structure Numbered (t : Table) : Prop where
  consistent : t.Consistent
  positive : ∀ row ∈ t.rows, 1 ≤ row.id

theorem numbered_empty : Numbered empty :=
  ⟨consistent_empty, by simp [empty]⟩

namespace Numbered

theorem of_same (h : t.Numbered) (same : t'.Same t) : t'.Numbered where
  consistent := same.consistent h.consistent
  positive := by
    rw [same.rows]
    exact h.positive

/-- **Statements go on numbering** the rows that are added. -/
theorem perform (h : t.Numbered) (s : Statement) : (t.perform s).2.Numbered := by
  refine ⟨h.consistent.perform s, ?_⟩
  intro row hr
  cases t.perform_numbering s with
  | kept lastId ids =>
    obtain ⟨old, ho, e⟩ := ids row hr
    exact e ▸ h.positive old ho
  | added id next lastId ids =>
    rcases ids row hr with e | ⟨old, ho, e⟩
    · rw [e, UInt64.le_iff_toNat_le, toNat_of_nextWord? next]
      exact Nat.le_add_left 1 _
    · exact e ▸ h.positive old ho

end Numbered

/-! ## Earlier and later ids -/

/-- a table after other statements: the ids that the counter had passed are still those of rows that were there, or of none -/
structure Follows (t t' : Table) : Prop where
  lastId : t.lastId ≤ t'.lastId
  ids : ∀ row ∈ t'.rows, row.id ≤ t.lastId → ∃ old ∈ t.rows, old.id = row.id

theorem Follows.refl (t : Table) : t.Follows t :=
  ⟨UInt64.le_refl _, fun row hr _ => ⟨row, hr, rfl⟩⟩

theorem Follows.trans (h : t.Follows t') (h' : t'.Follows t'') : t.Follows t'' := by
  refine ⟨UInt64.le_trans h.lastId h'.lastId, ?_⟩
  intro row hr hid
  obtain ⟨middle, hm, e⟩ := h'.ids row hr (UInt64.le_trans hid h.lastId)
  obtain ⟨old, ho, e'⟩ := h.ids middle hm (e ▸ hid)
  exact ⟨old, ho, e'.trans e⟩

theorem Same.follows (h : t.Same t') : t.Follows t' := by
  refine ⟨h.lastId ▸ UInt64.le_refl _, ?_⟩
  intro row hr _
  exact ⟨row, h.rows ▸ hr, rfl⟩

theorem Same.symm (h : t.Same t') : t'.Same t :=
  ⟨h.rows.symm, h.lastId.symm, fun title => (h.titles title).symm⟩

/-- **Ids that were passed** are not given again by any statement. -/
theorem follows_perform (t : Table) (s : Statement) : t.Follows (t.perform s).2 := by
  cases t.perform_numbering s with
  | kept lastId ids => exact ⟨lastId ▸ UInt64.le_refl _, fun row hr _ => ids row hr⟩
  | added id next lastId ids =>
    have above := lt_of_nextWord? next
    refine ⟨lastId ▸ UInt64.le_of_lt above, ?_⟩
    intro row hr hid
    rcases ids row hr with e | there
    · exact absurd (UInt64.lt_of_lt_of_le above (e ▸ hid)) (UInt64.lt_irrefl _)
    · exact there

end Table

end XmlStore
