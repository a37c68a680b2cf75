/-
Tables whose index tells the truth.

In a consistent table the rows stand in ascending order of their ids, the counter has come by all of them, and the index gives for
every title the one row that has it. Statements keep all of this, so rows are only ever put at the end, replaced in their place or
taken out. Since the index is told by the rows, a table that is made anew from its rows and its
counter answers every statement as before (`Table.Same`).

Main statements:
- `Table.Consistent.perform`: statements keep a table consistent.
- `Table.Same.perform`: tables that differ only in how their index is written answer alike.
- `Table.ofRows_same`: the table made from the rows of a consistent one is the same.
-/
import XmlStore.Proofs.Store.Table

namespace XmlStore.Table

/-! ## The index -/

theorem lookup_dropTitle (title : String) (titles : List (String × UInt64)) (other : String) :
    (dropTitle title titles).lookup other = if other = title then none else titles.lookup other := by
  induction titles with
  | nil => simp [dropTitle]
  | cons first rest ih =>
    obtain ⟨key, id⟩ := first
    rw [dropTitle] at ih
    rw [dropTitle, List.filter_cons]
    by_cases hk : key = title
    · rw [if_neg (by simpa using hk), ih]
      by_cases ho : other = title
      · rw [if_pos ho, if_pos ho]
      · rw [if_neg ho, if_neg ho, List.lookup_cons, beq_false_of_ne fun e => ho (e.trans hk)]
    · rw [if_pos (by simpa using hk), List.lookup_cons, List.lookup_cons, ih]
      by_cases ho : other = title
      · rw [if_pos ho, if_pos ho, beq_false_of_ne fun e => hk (e.symm.trans ho)]
      · rw [if_neg ho, if_neg ho]

theorem lookup_putTitle (title : String) (id : UInt64) (titles : List (String × UInt64)) (other : String) :
    (putTitle title id titles).lookup other = if other = title then some id else titles.lookup other := by
  rw [putTitle, List.lookup_cons, lookup_dropTitle]
  by_cases ho : other = title
  · simp [ho]
  · rw [beq_false_of_ne ho, if_neg ho, if_neg ho]

/-! ## Rows in their order -/

def Ascending (rows : List Row) : Prop := rows.Pairwise fun a b => a.id < b.id

/-- the rows around the one of an id -/
structure Around (rows : List Row) (id : UInt64) (row : Row) (before after : List Row) : Prop where
  whole : rows = before ++ row :: after
  key : row.id = id
  others : ∀ other ∈ before ++ after, other.id ≠ id

theorem Ascending.eq_of_id {rows : List Row} (h : Ascending rows) {row row' : Row} (hr : row ∈ rows) (hr' : row' ∈ rows)
    (same : row.id = row'.id) : row = row' := by
  induction rows with
  | nil => exact absurd hr List.not_mem_nil
  | cons first rest ih =>
    obtain ⟨above, hrest⟩ := List.pairwise_cons.1 h
    rcases List.mem_cons.1 hr with first | later
    · rcases List.mem_cons.1 hr' with first' | later'
      · rw [first, first']
      · exact absurd (same ▸ first ▸ above row' later') (UInt64.lt_irrefl _)
    · rcases List.mem_cons.1 hr' with first' | later'
      · exact absurd (same ▸ first' ▸ above row later) (UInt64.lt_irrefl _)
      · exact ih hrest later later'

/-- the row of an id stands between rows of other ids -/
theorem Ascending.around {rows : List Row} (h : Ascending rows) {id : UInt64} {row : Row}
    (found : rows.find? (·.id = id) = some row) : ∃ before after, Around rows id row before after := by
  obtain ⟨hid, before, after, rfl, -⟩ := List.find?_eq_some_iff_append.1 found
  have hid : row.id = id := of_decide_eq_true hid
  refine ⟨before, after, rfl, hid, ?_⟩
  obtain ⟨-, hafter, hbefore⟩ := List.pairwise_append.1 h
  intro other ho e
  rcases List.mem_append.1 ho with ho | ho
  · have below := hbefore other ho row List.mem_cons_self
    exact UInt64.lt_irrefl _ ((e.trans hid.symm) ▸ below)
  · have above := (List.pairwise_cons.1 hafter).1 other ho
    exact UInt64.lt_irrefl _ ((e.trans hid.symm) ▸ above)

namespace Around

variable {rows before after : List Row} {id : UInt64} {old : Row}

theorem changeRow (h : Around rows id old before after) (row : Row) :
    Table.changeRow id (fun _ => row) rows = before ++ row :: after := by
  have kept : ∀ part : List Row, (∀ other ∈ part, other.id ≠ id) → Table.changeRow id (fun _ => row) part = part := by
    intro part others
    rw [Table.changeRow]
    refine (List.map_congr_left ?_).trans (List.map_id part)
    intro other ho
    exact if_neg (others other ho)
  have front := kept before fun other ho => h.others other (List.mem_append_left _ ho)
  have back := kept after fun other ho => h.others other (List.mem_append_right _ ho)
  rw [Table.changeRow] at front back
  rw [h.whole, Table.changeRow, List.map_append, List.map_cons, front, back, if_pos h.key]

theorem filter (h : Around rows id old before after) : rows.filter (·.id ≠ id) = before ++ after := by
  have kept : ∀ part : List Row, (∀ other ∈ part, other.id ≠ id) → part.filter (·.id ≠ id) = part := by
    intro part others
    refine List.filter_eq_self.2 ?_
    intro other ho
    exact decide_eq_true (others other ho)
  have front := kept before fun other ho => h.others other (List.mem_append_left _ ho)
  have back := kept after fun other ho => h.others other (List.mem_append_right _ ho)
  rw [h.whole, List.filter_append, List.filter_cons_of_neg (by simp [h.key]), front, back]

theorem mem (h : Around rows id old before after) {row : Row} : row ∈ rows ↔ row = old ∨ row ∈ before ++ after := by
  rw [h.whole, List.mem_append, List.mem_cons, List.mem_append]
  constructor
  · rintro (hr | hr | hr)
    · exact Or.inr (Or.inl hr)
    · exact Or.inl hr
    · exact Or.inr (Or.inr hr)
  · rintro (hr | hr | hr)
    · exact Or.inr (Or.inl hr)
    · exact Or.inl hr
    · exact Or.inr (Or.inr hr)

/-- another row in the same place -/
theorem replace (h : Around rows id old before after) {row : Row} (hid : row.id = id) :
    Around (before ++ row :: after) id row before after :=
  ⟨rfl, hid, h.others⟩

theorem ascending_replace (h : Around rows id old before after) (ha : Ascending rows) {row : Row} (hid : row.id = id) :
    Ascending (before ++ row :: after) := by
  have same : row.id = old.id := hid.trans h.key.symm
  rw [Ascending, h.whole, List.pairwise_append, List.pairwise_cons] at ha
  rw [Ascending, List.pairwise_append, List.pairwise_cons]
  obtain ⟨hbefore, ⟨above, hafter⟩, below⟩ := ha
  refine ⟨hbefore, ⟨fun other ho => same ▸ above other ho, hafter⟩, ?_⟩
  intro first hf other ho
  rcases List.mem_cons.1 ho with rfl | ho
  · exact same ▸ below first hf old List.mem_cons_self
  · exact below first hf other (List.mem_cons_of_mem _ ho)

theorem ascending_drop (h : Around rows id old before after) (ha : Ascending rows) : Ascending (before ++ after) := by
  rw [h.whole] at ha
  exact ha.sublist ((List.sublist_cons_self old after).append_left before)

end Around

/-- a row with the highest id goes to the end -/
theorem insertRow_last {rows : List Row} {row : Row} (h : ∀ other ∈ rows, other.id < row.id) :
    insertRow row rows = rows ++ [row] := by
  induction rows with
  | nil => rfl
  | cons first rest ih =>
    have above := h first List.mem_cons_self
    have notBelow : ¬ row.id < first.id := fun below => UInt64.lt_irrefl _ (UInt64.lt_trans above below)
    have notSame : ¬ row.id = first.id := fun same => UInt64.lt_irrefl _ (same ▸ above)
    rw [insertRow, if_neg notBelow, if_neg notSame, ih fun other ho => h other (List.mem_cons_of_mem _ ho)]
    rfl

/-! ## Consistent tables -/

/-- a table whose rows are in order, whose counter has come by all of them and whose index tells their titles -/
structure Consistent (t : Table) : Prop where
  ascending : Ascending t.rows
  ids : ∀ row ∈ t.rows, row.id ≤ t.lastId
  titles : ∀ title id, t.titles.lookup title = some id ↔ ∃ row ∈ t.rows, row.title = title ∧ row.id = id

theorem consistent_empty : empty.Consistent where
  ascending := List.Pairwise.nil
  ids := by simp [empty]
  titles := by simp [empty]

namespace Consistent

variable {t : Table}

theorem around (h : t.Consistent) {id : UInt64} {row : Row} (found : t.byId id = some row) :
    ∃ before after, Around t.rows id row before after :=
  h.ascending.around found

/-- no two rows have the same title -/
theorem eq_of_title (h : t.Consistent) {row row' : Row} (hr : row ∈ t.rows) (hr' : row' ∈ t.rows)
    (same : row.title = row'.title) : row = row' := by
  have first := (h.titles row.title row.id).2 ⟨row, hr, rfl, rfl⟩
  have second := (h.titles row.title row'.id).2 ⟨row', hr', same.symm, rfl⟩
  exact h.ascending.eq_of_id hr hr' (Option.some.inj (first.symm.trans second))

/-- a row in the place of another, with an index that tells its title in place of the other's -/
theorem replaced (h : t.Consistent) {id : UInt64} {old row : Row} {before after : List Row}
    (ha : Around t.rows id old before after) (hid : row.id = id) {titles : List (String × UInt64)}
    (ht : ∀ title, titles.lookup title =
      if title = row.title then some id else if title = old.title then none else t.titles.lookup title)
    (free : ∀ other ∈ before ++ after, other.title ≠ row.title) :
    Consistent ⟨before ++ row :: after, titles, t.lastId⟩ where
  ascending := ha.ascending_replace h.ascending hid
  ids := by
    intro other ho
    rcases (ha.replace hid).mem.1 ho with rfl | ho
    · exact hid ▸ ha.key ▸ h.ids old (ha.mem.2 (Or.inl rfl))
    · exact h.ids other (ha.mem.2 (Or.inr ho))
  titles := by
    intro title id'
    rw [ht]
    by_cases hnew : title = row.title
    · rw [if_pos hnew]
      constructor
      · intro e
        exact ⟨row, (ha.replace hid).mem.2 (Or.inl rfl), hnew.symm, hid.trans (Option.some.inj e)⟩
      · rintro ⟨other, ho, e, rfl⟩
        rcases (ha.replace hid).mem.1 ho with rfl | ho
        · rw [hid]
        · exact absurd (e.trans hnew) (free other ho)
    rw [if_neg hnew]
    by_cases hold : title = old.title
    · rw [if_pos hold]
      constructor
      · intro e
        cases e
      · rintro ⟨other, ho, e, -⟩
        rcases (ha.replace hid).mem.1 ho with rfl | ho
        · exact absurd e.symm hnew
        · have same := h.eq_of_title (ha.mem.2 (Or.inr ho)) (ha.mem.2 (Or.inl rfl)) (e.trans hold)
          exact absurd (same ▸ ha.key) (ha.others other ho)
    · rw [if_neg hold, h.titles]
      constructor
      · rintro ⟨other, ho, e, rfl⟩
        rcases ha.mem.1 ho with rfl | ho
        · exact absurd e.symm hold
        · exact ⟨other, (ha.replace hid).mem.2 (Or.inr ho), e, rfl⟩
      · rintro ⟨other, ho, e, rfl⟩
        rcases (ha.replace hid).mem.1 ho with rfl | ho
        · exact absurd e.symm hnew
        · exact ⟨other, ha.mem.2 (Or.inr ho), e, rfl⟩

/-- the index tells the title of every row, and no other row has it -/
theorem lookup_of_around (h : t.Consistent) {id : UInt64} {old : Row} {before after : List Row}
    (ha : Around t.rows id old before after) : t.titles.lookup old.title = some id :=
  (h.titles old.title id).2 ⟨old, ha.mem.2 (Or.inl rfl), rfl, ha.key⟩

theorem free_of_around (h : t.Consistent) {id : UInt64} {old : Row} {before after : List Row}
    (ha : Around t.rows id old before after) {other : Row} (ho : other ∈ before ++ after) : other.title ≠ old.title := by
  intro e
  have same := h.eq_of_title (ha.mem.2 (Or.inr ho)) (ha.mem.2 (Or.inl rfl)) e
  exact ha.others other ho (same ▸ ha.key)

/-- a row that keeps its title leaves the index as it is -/
theorem kept_title (h : t.Consistent) {id : UInt64} {old row : Row} {before after : List Row}
    (ha : Around t.rows id old before after) (hid : row.id = id) (same : row.title = old.title) :
    Consistent ⟨before ++ row :: after, t.titles, t.lastId⟩ := by
  refine h.replaced ha hid ?_ fun other ho => same ▸ h.free_of_around ha ho
  intro title
  by_cases hold : title = old.title
  · rw [if_pos (hold.trans same.symm), hold, h.lookup_of_around ha]
  · rw [if_neg fun e => hold (e.trans same), if_neg hold]

/-- a row after all others, with a title of its own -/
theorem append (h : t.Consistent) {row : Row} (above : ∀ other ∈ t.rows, other.id < row.id)
    (free : t.titles.lookup row.title = none) {lastId : UInt64} (later : t.lastId ≤ lastId) (hid : row.id ≤ lastId) :
    Consistent ⟨t.rows ++ [row], putTitle row.title row.id t.titles, lastId⟩ where
  ascending := by
    refine List.pairwise_append.2 ⟨h.ascending, List.pairwise_singleton _ _, ?_⟩
    intro other ho new hn
    exact List.mem_singleton.1 hn ▸ above other ho
  ids := by
    intro other ho
    rcases List.mem_append.1 ho with ho | ho
    · exact UInt64.le_trans (h.ids other ho) later
    · exact List.mem_singleton.1 ho ▸ hid
  titles := by
    intro title id
    rw [lookup_putTitle]
    by_cases ht : title = row.title
    · rw [if_pos ht]
      constructor
      · intro e
        exact ⟨row, List.mem_append_right _ (List.mem_singleton_self row), ht.symm, Option.some.inj e⟩
      · rintro ⟨other, ho, e, rfl⟩
        rcases List.mem_append.1 ho with ho | ho
        · have taken := (h.titles row.title other.id).2 ⟨other, ho, e.trans ht, rfl⟩
          rw [free] at taken
          cases taken
        · rw [List.mem_singleton.1 ho]
    · rw [if_neg ht, h.titles]
      constructor
      · rintro ⟨other, ho, e⟩
        exact ⟨other, List.mem_append_left _ ho, e⟩
      · rintro ⟨other, ho, e, he⟩
        rcases List.mem_append.1 ho with ho | ho
        · exact ⟨other, ho, e, he⟩
        · rw [List.mem_singleton.1 ho] at e
          exact absurd e.symm ht

/-! ## Statements -/

/-- the next id is above all others -/
theorem next_above (h : t.Consistent) {id : UInt64} (next : nextWord? t.lastId = some id) {row : Row} (hr : row ∈ t.rows) :
    row.id < id :=
  UInt64.lt_of_le_of_lt (h.ids row hr) (lt_of_nextWord? next)

/-- a row that is added goes to the end, under an id of its own -/
theorem insert_ok (h : t.Consistent) {row : Row} {id : UInt64} (hp : (t.perform (.insert row)).1 = .ok id) :
    nextWord? t.lastId = some id ∧ (t.perform (.insert row)).2 =
      ⟨t.rows ++ [{ row with id }], putTitle row.title id t.titles, id⟩ ∧ t.titles.lookup row.title = none := by
  rw [perform] at hp ⊢
  rcases t.insert_cases row with ⟨error, -, e⟩ | ⟨given, free, next, e⟩ <;> rw [e] at hp ⊢
  · cases hp
  · cases hp
    refine ⟨next, ?_, free⟩
    rw [insertRow_last]
    exact fun other ho => h.next_above next ho

/-- content is replaced in its row -/
theorem updateContent_ok (h : t.Consistent) {id version : UInt64} {content : String} {expected : Option UInt64} {now : UInt64}
    (hp : (t.perform (.updateContent id content expected now)).1 = .ok version) :
    ∃ old before after, Around t.rows id old before after ∧ old.version.toNat + 1 < UInt64.size ∧
      version = old.version + 1 ∧ (t.perform (.updateContent id content expected now)).2 =
        { t with rows := before ++ ({ old with content } : Row).renewed now :: after } := by
  rw [perform] at hp ⊢
  rcases t.updateContent_cases id content expected now with ⟨error, e⟩ | ⟨old, found, room, e⟩ <;> rw [e] at hp ⊢
  · cases hp
  · cases hp
    obtain ⟨before, after, ha⟩ := h.around found
    refine ⟨old, before, after, ha, room, rfl, ?_⟩
    rw [ha.changeRow]

/-- fields are replaced in their row, unless another row has the title -/
theorem updateFields_ok (h : t.Consistent) {id version : UInt64} {patch : Patch} {now : UInt64}
    (hp : (t.perform (.updateFields id patch now)).1 = .ok version) :
    ∃ old before after, Around t.rows id old before after ∧ old.version.toNat + 1 < UInt64.size ∧ version = old.version + 1 ∧
      (∀ other ∈ before ++ after, other.title ≠ (patch.apply old).title) ∧
      (t.perform (.updateFields id patch now)).2 =
        { t with
          rows := before ++ (patch.apply old).renewed now :: after
          titles := if (patch.apply old).title = old.title then t.titles
            else putTitle (patch.apply old).title id (dropTitle old.title t.titles) } := by
  rw [perform] at hp ⊢
  rcases t.updateFields_cases id patch now with ⟨error, -, e⟩ | ⟨old, found, room, fits, e⟩ <;> rw [e] at hp ⊢
  · cases hp
  · cases hp
    obtain ⟨before, after, ha⟩ := h.around found
    refine ⟨old, before, after, ha, room, rfl, ?_, by rw [ha.changeRow]⟩
    intro other ho same
    cases htitle : patch.title with
    | none => exact h.free_of_around ha ho (by rw [same, Patch.apply, htitle]; rfl)
    | some title =>
      have taken : t.titles.lookup title = some other.id := by
        refine (h.titles title other.id).2 ⟨other, ha.mem.2 (Or.inr ho), ?_, rfl⟩
        rw [same, Patch.apply, htitle]
        rfl
      rw [htitle, Option.filter_some, taken, Option.filter_some, if_pos (decide_eq_true (ha.others other ho))] at fits
      cases fits

/-- a row is taken out from between the others -/
theorem delete_ok (h : t.Consistent) {id : UInt64} (hp : (t.perform (.delete id)).1 = .ok true) :
    ∃ old before after, Around t.rows id old before after ∧ (t.perform (.delete id)).2 =
      { t with rows := before ++ after, titles := dropTitle old.title t.titles } := by
  simp only [Table.perform, Table.delete] at hp ⊢
  cases found : t.byId id with
  | none =>
    rw [found] at hp
    cases hp
  | some old =>
    obtain ⟨before, after, ha⟩ := h.around found
    refine ⟨old, before, after, ha, ?_⟩
    simp only [ha.filter]

theorem insert (h : t.Consistent) {row : Row} {id : UInt64} (hp : (t.perform (.insert row)).1 = .ok id) :
    (t.perform (.insert row)).2.Consistent := by
  obtain ⟨next, e, free⟩ := h.insert_ok hp
  have above : ∀ other ∈ t.rows, other.id < ({ row with id } : Row).id := fun other ho => h.next_above next ho
  rw [e]
  exact h.append above free (UInt64.le_of_lt (lt_of_nextWord? next)) (UInt64.le_refl _)

theorem updateFields (h : t.Consistent) {id version : UInt64} {patch : Patch} {now : UInt64}
    (hp : (t.perform (.updateFields id patch now)).1 = .ok version) :
    (t.perform (.updateFields id patch now)).2.Consistent := by
  obtain ⟨old, before, after, ha, -, -, free, e⟩ := h.updateFields_ok hp
  rw [e]
  by_cases same : (patch.apply old).title = old.title
  · simp only [same, if_true]
    exact h.kept_title ha ha.key same
  · simp only [same, if_false]
    have key : ((patch.apply old).renewed now).id = id := ha.key
    refine h.replaced ha key ?_ free
    intro title
    rw [lookup_putTitle, lookup_dropTitle]
    rfl

theorem delete (h : t.Consistent) {id : UInt64} (hp : (t.perform (.delete id)).1 = .ok true) :
    (t.perform (.delete id)).2.Consistent := by
  obtain ⟨old, before, after, ha, left⟩ := h.delete_ok hp
  rw [left]
  refine ⟨ha.ascending_drop h.ascending, fun other ho => h.ids other (ha.mem.2 (Or.inr ho)), ?_⟩
  intro title id'
  rw [lookup_dropTitle]
  by_cases ht : title = old.title
  · rw [if_pos ht]
    constructor
    · intro e
      cases e
    · rintro ⟨other, ho, e, -⟩
      exact absurd (e.trans ht) (h.free_of_around ha ho)
  · rw [if_neg ht, h.titles]
    constructor
    · rintro ⟨other, ho, e, he⟩
      rcases ha.mem.1 ho with rfl | ho
      · exact absurd e.symm ht
      · exact ⟨other, ho, e, he⟩
    · rintro ⟨other, ho, e⟩
      exact ⟨other, ha.mem.2 (Or.inr ho), e⟩

/-- **Statements keep a table consistent.** -/
theorem perform (h : t.Consistent) (s : Statement) : (t.perform s).2.Consistent := by
  cases hr : (t.perform s).1 with
  | error error => rwa [perform_error hr]
  | ok result =>
    cases s with
    | insert row => exact h.insert hr
    | updateContent id content expected now =>
      obtain ⟨old, before, after, ha, -, -, e⟩ := h.updateContent_ok hr
      rw [e]
      exact h.kept_title ha ha.key rfl
    | updateFields id patch now => exact h.updateFields hr
    | delete id =>
      cases result with
      | true => exact h.delete hr
      | false =>
        simp only [Table.perform, Table.delete] at hr ⊢
        split at hr
        · exact h
        · cases hr
    | deleteAll =>
      refine ⟨List.Pairwise.nil, ?_, ?_⟩
      · simp [Table.perform, Table.deleteAll]
      · simp [Table.perform, Table.deleteAll]
    | _ => exact h

end Consistent

/-! ## Tables with the same rows -/

/-- tables that differ only in how their index is written -/
structure Same (t t' : Table) : Prop where
  rows : t.rows = t'.rows
  lastId : t.lastId = t'.lastId
  titles : ∀ title, t.titles.lookup title = t'.titles.lookup title

theorem Same.refl (t : Table) : t.Same t := ⟨rfl, rfl, fun _ => rfl⟩

theorem Same.trans {t t' t'' : Table} (h : t.Same t') (h' : t'.Same t'') : t.Same t'' :=
  ⟨h.rows.trans h'.rows, h.lastId.trans h'.lastId, fun title => (h.titles title).trans (h'.titles title)⟩

theorem Same.consistent {t t' : Table} (h : t.Same t') (hc : t'.Consistent) : t.Consistent where
  ascending := h.rows ▸ hc.ascending
  ids := by
    rw [h.rows, h.lastId]
    exact hc.ids
  titles := by
    intro title id
    rw [h.titles, h.rows]
    exact hc.titles title id

/-- **The way the index is written** makes no difference to any statement. -/
theorem Same.perform {t t' : Table} (h : t.Same t') (s : Statement) :
    (t.perform s).1 = (t'.perform s).1 ∧ (t.perform s).2.Same (t'.perform s).2 := by
  obtain ⟨rows, titles, lastId⟩ := t
  obtain ⟨rows', titles', lastId'⟩ := t'
  obtain ⟨rfl, rfl, ht⟩ := h
  have sameById : ∀ id, byId ⟨rows, titles, lastId⟩ id = byId ⟨rows, titles', lastId⟩ id := fun _ => rfl
  cases s with
  | fetchById id => exact ⟨rfl, rfl, rfl, ht⟩
  | fetchByTitle title =>
    refine ⟨?_, rfl, rfl, ht⟩
    simp only [Table.perform, byTitle, ht title]
    rfl
  | fetchAll => exact ⟨rfl, rfl, rfl, ht⟩
  | insert row =>
    simp only [Table.perform, Table.insert, ht row.title]
    split
    · exact ⟨rfl, rfl, rfl, ht⟩
    · cases nextWord? lastId with
      | none => exact ⟨rfl, rfl, rfl, ht⟩
      | some id =>
        refine ⟨rfl, rfl, rfl, ?_⟩
        intro title
        simp only [lookup_putTitle, ht title]
  | updateContent id content expected now =>
    simp only [Table.perform, Table.updateContent, sameById]
    split
    · exact ⟨rfl, rfl, rfl, ht⟩
    · split
      · exact ⟨rfl, rfl, rfl, ht⟩
      · split
        · exact ⟨rfl, rfl, rfl, ht⟩
        · exact ⟨rfl, rfl, rfl, ht⟩
  | updateFields id patch now =>
    simp only [Table.perform, Table.updateFields, sameById, ht]
    split
    · exact ⟨rfl, rfl, rfl, ht⟩
    · split
      · exact ⟨rfl, rfl, rfl, ht⟩
      · split
        · exact ⟨rfl, rfl, rfl, ht⟩
        · refine ⟨rfl, rfl, rfl, ?_⟩
          intro title
          dsimp only
          split
          · exact ht title
          · simp only [lookup_putTitle, lookup_dropTitle, ht title]
  | delete id =>
    simp only [Table.perform, Table.delete, sameById]
    split
    · exact ⟨rfl, rfl, rfl, ht⟩
    · refine ⟨rfl, rfl, rfl, ?_⟩
      intro title
      simp only [lookup_dropTitle, ht title]
  | deleteAll => exact ⟨rfl, rfl, rfl, fun _ => rfl⟩
  | count => exact ⟨rfl, rfl, rfl, ht⟩

/-! ## Tables made from rows -/

theorem foldl_load {rows : List Row} {t : Table} (h : t.Consistent) (ha : Ascending (t.rows ++ rows))
    (ht : (t.rows ++ rows).Pairwise fun a b => a.title ≠ b.title) (hids : ∀ row ∈ rows, row.id ≤ t.lastId) :
    (rows.foldl load t).rows = t.rows ++ rows ∧ (rows.foldl load t).lastId = t.lastId ∧ (rows.foldl load t).Consistent := by
  induction rows generalizing t with
  | nil => exact ⟨(List.append_nil _).symm, rfl, h⟩
  | cons row rest ih =>
    have above : ∀ other ∈ t.rows, other.id < row.id := fun other ho =>
      (List.pairwise_append.1 ha).2.2 other ho row List.mem_cons_self
    have free : t.titles.lookup row.title = none := by
      cases taken : t.titles.lookup row.title with
      | none => rfl
      | some id =>
        obtain ⟨other, ho, e, -⟩ := (h.titles row.title id).1 taken
        exact absurd e ((List.pairwise_append.1 ht).2.2 other ho row List.mem_cons_self)
    have hid := hids row List.mem_cons_self
    have counter : max t.lastId row.id = t.lastId := by
      by_cases le : t.lastId ≤ row.id
      · exact (if_pos le).trans (UInt64.le_antisymm hid le)
      · exact if_neg le
    have loaded : t.load row = ⟨t.rows ++ [row], putTitle row.title row.id t.titles, t.lastId⟩ := by
      rw [load, insertRow_last above, counter]
    rw [List.append_cons] at ha ht
    rw [List.foldl_cons, loaded, List.append_cons t.rows row rest]
    exact ih (h.append above free (UInt64.le_refl _) hid) ha ht fun other ho => hids other (List.mem_cons_of_mem _ ho)

/-- **A table made anew** from the rows and the counter of a consistent one is the same. -/
theorem ofRows_same {t : Table} (h : t.Consistent) : (ofRows t.lastId t.rows).Same t := by
  have start : Consistent ⟨[], [], t.lastId⟩ := ⟨List.Pairwise.nil, by simp, by simp⟩
  have titles : t.rows.Pairwise fun a b => a.title ≠ b.title := by
    refine h.ascending.imp_of_mem ?_
    intro a b ha hb below e
    exact UInt64.lt_irrefl _ (h.eq_of_title ha hb e ▸ below)
  obtain ⟨rows, lastId, made⟩ := foldl_load start h.ascending titles h.ids
  refine ⟨rows, lastId, ?_⟩
  intro title
  apply Option.ext
  intro id
  have rows : (t.rows.foldl load ⟨[], [], t.lastId⟩).rows = t.rows := rows
  rw [ofRows, made.titles, h.titles, rows]

end XmlStore.Table
