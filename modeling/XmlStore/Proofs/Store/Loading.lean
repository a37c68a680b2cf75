/-
Tables that are loaded from a file.

A file lists rows, and a table is made by taking them in from the first to the last. A row takes the place of an earlier one with its id,
and in the index its id takes the place of that of an earlier one with its title; neither asks about the other. So an id leads to the last
row that has it, and a title to the id of the last row that has that. The table tells what is in the list as long as no two rows of it
share an id or a title. Where two do, one of them is lost, or is not found under the title that it has, or is found under a title that it
does not have.

Main statements:
- `Table.byId_ofRows`, `Table.lookup_ofRows`: where ids and titles lead to in a table made from rows.
- `Table.answers_ofRows_iff`: when such a table answers by its rows.
- `FileStore.answers_loaded_iff`: when the table that is loaded from a file does.
- `FileStore.not_answers_sharedId`: a file for which it does not.
-/
import XmlStore.Proofs.Outcomes
import XmlStore.Proofs.Store.Consistent
import XmlStore.Store.File

namespace XmlStore

namespace Table

variable {t : Table} {row : Row} {lastId : UInt64} {rows : List Row}

/-! ## Rows taken in one after the other -/

theorem mem_foldl_load (h : row ∈ (rows.foldl load t).rows) : row ∈ t.rows ∨ row ∈ rows := by
  induction rows generalizing t with
  | nil => exact Or.inl h
  | cons first rest ih =>
    rcases ih h with h | h
    · rcases mem_insertRow h with e | h
      · exact Or.inr (e ▸ List.mem_cons_self)
      · exact Or.inl h
    · exact Or.inr (List.mem_cons_of_mem _ h)

theorem mem_ofRows (h : row ∈ (ofRows lastId rows).rows) : row ∈ rows := by
  rcases mem_foldl_load h with h | h
  · exact absurd h List.not_mem_nil
  · exact h

theorem byId_foldl_load (rows : List Row) (t : Table) (id : UInt64) :
    (rows.foldl load t).byId id = (rows.reverse.find? (·.id = id)).or (t.byId id) := by
  induction rows generalizing t with
  | nil => rfl
  | cons first rest ih =>
    have loaded : (t.load first).byId id = if first.id = id then some first else t.byId id := find?_insertRow first t.rows id
    rw [List.foldl_cons, ih, loaded, List.reverse_cons, List.find?_append, Option.or_assoc]
    by_cases here : first.id = id <;> simp [here]

theorem lookup_foldl_load (rows : List Row) (t : Table) (title : String) :
    (rows.foldl load t).titles.lookup title =
      ((rows.reverse.find? (·.title = title)).map Row.id).or (t.titles.lookup title) := by
  induction rows generalizing t with
  | nil => rfl
  | cons first rest ih =>
    have loaded : (t.load first).titles.lookup title = if title = first.title then some first.id else t.titles.lookup title :=
      lookup_putTitle first.title first.id t.titles title
    rw [List.foldl_cons, ih, loaded, List.reverse_cons, List.find?_append, Option.map_or, Option.or_assoc]
    by_cases here : first.title = title
    · simp [here]
    · simp [here, Ne.symm here]

/-- **An id leads to the last row** that has it. -/
theorem byId_ofRows (lastId : UInt64) (rows : List Row) (id : UInt64) :
    (ofRows lastId rows).byId id = rows.reverse.find? (·.id = id) := by
  rw [ofRows, byId_foldl_load]
  exact Option.or_none

/-- **A title leads to the id of the last row** that has it. -/
theorem lookup_ofRows (lastId : UInt64) (rows : List Row) (title : String) :
    (ofRows lastId rows).titles.lookup title = (rows.reverse.find? (·.title = title)).map Row.id := by
  rw [ofRows, lookup_foldl_load]
  exact Option.or_none

/-! ## Rows that share nothing -/

/-- rows of which no two share an id or a title; the same row may be listed more than once -/
def Distinct (rows : List Row) : Prop :=
  ∀ row ∈ rows, ∀ other ∈ rows, row.id = other.id ∨ row.title = other.title → row = other

/-- a row that no other one is asked for with is found wherever it stands -/
theorem find?_eq_of_only {p : Row → Bool} (hr : row ∈ rows) (hp : p row = true)
    (only : ∀ other ∈ rows, p other = true → other = row) : rows.find? p = some row := by
  cases found : rows.find? p with
  | none => exact absurd hp (List.find?_eq_none.1 found row hr)
  | some other => rw [only other (List.mem_of_find?_eq_some found) (List.find?_some found)]

/-- a row that is the only one of its id is found under it -/
theorem byId_ofRows_of_mem (hr : row ∈ rows) (only : ∀ other ∈ rows, other.id = row.id → other = row) :
    (ofRows lastId rows).byId row.id = some row := by
  rw [byId_ofRows]
  refine find?_eq_of_only (List.mem_reverse.2 hr) (decide_eq_true rfl) ?_
  intro other ho same
  exact only other (List.mem_reverse.1 ho) (of_decide_eq_true same)

namespace Distinct

theorem byId (h : Distinct rows) (hr : row ∈ rows) : (ofRows lastId rows).byId row.id = some row :=
  byId_ofRows_of_mem hr fun other ho same => h other ho row hr (Or.inl same)

theorem mem_iff (h : Distinct rows) : row ∈ (ofRows lastId rows).rows ↔ row ∈ rows :=
  ⟨mem_ofRows, fun hr => mem_of_byId (h.byId hr)⟩

theorem lookup (h : Distinct rows) (hr : row ∈ rows) : (ofRows lastId rows).titles.lookup row.title = some row.id := by
  have found : rows.reverse.find? (·.title = row.title) = some row := by
    refine find?_eq_of_only (List.mem_reverse.2 hr) (decide_eq_true rfl) ?_
    intro other ho same
    exact h other (List.mem_reverse.1 ho) row hr (Or.inr (of_decide_eq_true same))
  rw [lookup_ofRows, found, Option.map_some]

theorem byTitle_eq_some (h : Distinct rows) {title : String} :
    (ofRows lastId rows).byTitle title = some row ↔ row ∈ rows ∧ row.title = title := by
  constructor
  · intro found
    obtain ⟨id, hid, hr⟩ := Option.bind_eq_some_iff.1 found
    rw [lookup_ofRows, Option.map_eq_some_iff] at hid
    obtain ⟨titled, last, rfl⟩ := hid
    have listed : titled ∈ rows := List.mem_reverse.1 (List.mem_of_find?_eq_some last)
    rw [h.byId listed, Option.some.injEq] at hr
    subst hr
    have same := List.find?_some last
    exact ⟨listed, of_decide_eq_true same⟩
  · rintro ⟨hr, rfl⟩
    rw [Table.byTitle, h.lookup hr, Option.bind_some, h.byId hr]

/-- a title is in the index just when a row has it -/
theorem lookup_isSome_iff {title : String} :
    ((ofRows lastId rows).titles.lookup title).isSome = true ↔ ∃ row ∈ rows, row.title = title := by
  rw [lookup_ofRows, Option.isSome_map, List.find?_isSome]
  simp

end Distinct

/-! ## Tables that answer by their rows -/

/-- what a table that was made from a list of rows should answer: every row of the list is there, is found under its id and its title,
and no other title is found or refused -/
structure Answers (t : Table) (rows : List Row) : Prop where
  titled : ∀ title row, (t.perform (.fetchByTitle title)).1 = .ok (some row) → row.title = title
  byId : ∀ row ∈ t.rows, (t.perform (.fetchById row.id)).1 = .ok (some row)
  byTitle : ∀ row ∈ t.rows, (t.perform (.fetchByTitle row.title)).1 = .ok (some row)
  whole : ∀ row ∈ rows, row ∈ t.rows
  refused : ∀ row, (t.perform (.insert row)).1 = .error (.duplicateTitle row.title) ↔ ∃ other ∈ t.rows, other.title = row.title

theorem Answers.distinct (h : t.Answers rows) : Distinct rows := by
  intro row hr other ho share
  rcases share with same | same
  · have found := h.byId row (h.whole row hr)
    rw [same, h.byId other (h.whole other ho)] at found
    exact (Option.some.inj (Except.ok.inj found)).symm
  · have found := h.byTitle row (h.whole row hr)
    rw [same, h.byTitle other (h.whole other ho)] at found
    exact (Option.some.inj (Except.ok.inj found)).symm

/-- a row is refused for its title just when the index has that -/
theorem insert_refused_iff (t : Table) (row : Row) :
    (t.perform (.insert row)).1 = .error (.duplicateTitle row.title) ↔ (t.titles.lookup row.title).isSome = true := by
  simp only [perform, insert]
  cases t.titles.lookup row.title with
  | none => cases nextWord? t.lastId <;> simp
  | some id => simp

theorem Distinct.answers (h : Distinct rows) (lastId : UInt64) : (ofRows lastId rows).Answers rows where
  titled title row found := (h.byTitle_eq_some.1 (Except.ok.inj found)).2
  byId row hr := congrArg Except.ok (h.byId (h.mem_iff.1 hr))
  byTitle row hr := congrArg Except.ok (h.byTitle_eq_some.2 ⟨h.mem_iff.1 hr, rfl⟩)
  whole row hr := h.mem_iff.2 hr
  refused row := by
    rw [insert_refused_iff, lookup_isSome_iff]
    exact exists_congr fun other => and_congr_left fun _ => h.mem_iff.symm

/-- **A table made from rows answers by them** exactly if no two of them share an id or a title. -/
theorem answers_ofRows_iff (lastId : UInt64) (rows : List Row) : (ofRows lastId rows).Answers rows ↔ Distinct rows :=
  ⟨Answers.distinct, fun h => h.answers lastId⟩

/-! ## What a file lists -/

def listOfFields (lastId rows : Json) : Option (UInt64 × List Row) := do
  let lastId ← lastId.word?
  let .array items := rows | none
  return (lastId, ← items.mapM Row.ofJson?)

/-- the counter and the rows that a value in a file lists -/
def listOfJson? : Json → Option (UInt64 × List Row)
  | .object members => do listOfFields (← Json.member? members "last_id") (← Json.member? members "documents")
  | .array [lastId, rows] => listOfFields lastId rows
  | _ => none

/-- the counter and the rows that the text of a store file lists -/
def listOfImage? (text : String) : Option (UInt64 × List Row) :=
  if text.toList.all Text.isBlank then some (0, []) else (Json.parse text).bind listOfJson?

theorem ofFields_eq (lastId rows : Json) :
    ofFields lastId rows = (listOfFields lastId rows).map fun list => ofRows list.1 list.2 := by
  unfold ofFields listOfFields
  cases lastId.word? with
  | none => rfl
  | some n =>
    cases rows with
    | array items => cases h : items.mapM Row.ofJson? <;> simp [h]
    | _ => rfl

theorem ofJson?_eq (j : Json) : ofJson? j = (listOfJson? j).map fun list => ofRows list.1 list.2 := by
  cases j with
  | object members =>
    simp only [ofJson?, listOfJson?]
    cases Json.member? members "last_id" with
    | none => rfl
    | some lastId =>
      cases Json.member? members "documents" with
      | none => rfl
      | some rows => exact ofFields_eq lastId rows
  | array items =>
    rcases items with _ | ⟨lastId, _ | ⟨rows, _ | _⟩⟩
    · rfl
    · rfl
    · exact ofFields_eq lastId rows
    · rfl
  | _ => rfl

/-- the table in a file is made from the rows that it lists -/
theorem ofImage?_eq (text : String) : ofImage? text = (listOfImage? text).map fun list => ofRows list.1 list.2 := by
  unfold ofImage? listOfImage?
  split
  · rfl
  · cases Json.parse text with
    | none => rfl
    | some j => exact ofJson?_eq j

end Table

namespace FileStore

open Table

variable {store : FileStore} {d : Directory} {t : Table} {text : String}

theorem ofImage?_of_load (read : d.readText store.name = .ok text) (loaded : store.load d = .ok t) : ofImage? text = some t := by
  have there : d.isThere store.name = true := by
    obtain ⟨found, e, -⟩ := bind_eq_ok.1 read
    rw [Directory.isThere, e]
    rfl
  rw [load, if_pos there, read] at loaded
  cases h : ofImage? text with
  | none => simp [h] at loaded
  | some table => simpa [h] using loaded

/-- **The table that is loaded from a file answers by the rows that the file lists** exactly if no two of them share an id or a title. -/
theorem answers_loaded_iff (read : d.readText store.name = .ok text) (loaded : store.load d = .ok t) :
    ∃ lastId rows, listOfImage? text = some (lastId, rows) ∧ (t.Answers rows ↔ Distinct rows) := by
  have made := ofImage?_of_load read loaded
  rw [ofImage?_eq, Option.map_eq_some_iff] at made
  obtain ⟨⟨lastId, rows⟩, listed, rfl⟩ := made
  exact ⟨lastId, rows, listed, answers_ofRows_iff lastId rows⟩

/-- a store in a file with a text that somebody else has written -/
def givenText (text : String) : FileStore × Directory :=
  ⟨⟨"store.json"⟩, (Directory.empty "/home/u").put ["store.json"] (.file (.text text))⟩

/-- rows in no order, and one of them twice -/
def repeatedRow : String :=
  "[3,[[7,\"b\",\"\",\"<b/>\",2,3,4],[2,\"a\",\"\",\"<a/>\",1,5,5],[7,\"b\",\"\",\"<b/>\",2,3,4]]]"

theorem answers_loaded_iff_repeatedRow :
    let s := givenText repeatedRow
    let rows : List Row := [⟨7, "b", "", "<b/>", 2, 3, 4⟩, ⟨2, "a", "", "<a/>", 1, 5, 5⟩, ⟨7, "b", "", "<b/>", 2, 3, 4⟩]
    s.2.readText s.1.name = .ok repeatedRow ∧ listOfImage? repeatedRow = some (3, rows) ∧
      ∃ t, s.1.load s.2 = .ok t ∧ t.Answers rows := by
  intro s rows
  have read : s.2.readText s.1.name = .ok repeatedRow := by decide +kernel
  have loaded : s.1.load s.2 = .ok (ofRows 3 rows) := by decide +kernel
  have known : listOfImage? repeatedRow = some (3, rows) := by decide +kernel
  obtain ⟨lastId, listed, e, answers⟩ := answers_loaded_iff read loaded
  obtain ⟨rfl, rfl⟩ := Prod.mk.inj (Option.some.inj (known.symm.trans e))
  have distinct : Distinct rows := by unfold Distinct; decide
  exact ⟨read, known, _, loaded, answers.2 distinct⟩

/-- two rows with the same id and other titles -/
def sharedId : String :=
  "[1,[[1,\"a\",\"\",\"<a/>\",1,0,0],[1,\"b\",\"\",\"<b/>\",1,0,0]]]"

/-- The first of two rows with one id is lost, and the second is found under the title of the first. -/
theorem not_answers_sharedId :
    let s := givenText sharedId
    let rows : List Row := [⟨1, "a", "", "<a/>", 1, 0, 0⟩, ⟨1, "b", "", "<b/>", 1, 0, 0⟩]
    s.2.readText s.1.name = .ok sharedId ∧ listOfImage? sharedId = some (1, rows) ∧
      ∃ t, s.1.load s.2 = .ok t ∧ t.rows = [⟨1, "b", "", "<b/>", 1, 0, 0⟩] ∧
        (t.perform (.fetchByTitle "a")).1 = .ok (some ⟨1, "b", "", "<b/>", 1, 0, 0⟩) ∧ ¬ t.Answers rows := by
  intro s rows
  have found : ((ofRows 1 rows).perform (.fetchByTitle "a")).1 = .ok (some ⟨1, "b", "", "<b/>", 1, 0, 0⟩) := by decide +kernel
  refine ⟨by decide +kernel, by decide +kernel, ofRows 1 rows, by decide +kernel, by decide +kernel, found, ?_⟩
  intro answers
  exact absurd (answers.titled _ _ found) (by decide)

end FileStore

end XmlStore
