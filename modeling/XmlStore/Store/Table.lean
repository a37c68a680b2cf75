/-
The table of a store: its rows, the index of their titles, and the last id that was given.

Rows stand in ascending order of their ids. Titles are looked up in the index alone, and ids are never given twice: the counter
goes on from the last id even when rows are deleted. Where it cannot go on, and where the version of a row cannot, the program stops;
nobody sees the table after that.
-/
import XmlStore.Store.Statement

namespace XmlStore

/-- rows, title index and id counter -/
structure Table where
  /-- in ascending order of ids -/
  rows : List Row
  /-- titles with the ids of the rows that have them -/
  titles : List (String × UInt64)
  lastId : UInt64
  deriving DecidableEq, Repr

namespace Table

def empty : Table := ⟨[], [], 0⟩

/-- the rows with one more in its place, which takes that of a row with its id -/
def insertRow (row : Row) : List Row → List Row
  | [] => [row]
  | first :: rest =>
    if row.id < first.id then row :: first :: rest
    else if row.id = first.id then row :: rest
    else first :: insertRow row rest

/-- the rows with the one of an id changed -/
def changeRow (id : UInt64) (change : Row → Row) (rows : List Row) : List Row :=
  rows.map fun row => if row.id = id then change row else row

/-- the index without a title -/
def dropTitle (title : String) (titles : List (String × UInt64)) : List (String × UInt64) :=
  titles.filter (·.1 ≠ title)

/-- the index with a title that belongs to an id, and to no other -/
def putTitle (title : String) (id : UInt64) (titles : List (String × UInt64)) : List (String × UInt64) :=
  (title, id) :: dropTitle title titles

/-- takes in a row with the id that it has -/
def load (table : Table) (row : Row) : Table :=
  ⟨insertRow row table.rows, putTitle row.title row.id table.titles, max table.lastId row.id⟩

/-- the table with the given rows, taken in from the first to the last -/
def ofRows (lastId : UInt64) (rows : List Row) : Table :=
  rows.foldl load ⟨[], [], lastId⟩

def byId (table : Table) (id : UInt64) : Option Row :=
  table.rows.find? (·.id = id)

/-- the row that the index gives for a title -/
def byTitle (table : Table) (title : String) : Option Row :=
  (table.titles.lookup title).bind table.byId

/-- adds a row under the next id, unless its title is taken or there is no next id -/
def insert (table : Table) (row : Row) : Except StoreError UInt64 × Table :=
  match table.titles.lookup row.title with
  | some _ => (.error (.duplicateTitle row.title), table)
  | none =>
    match nextWord? table.lastId with
    | none => (.error .overflow, table)
    | some id => (.ok id, ⟨insertRow { row with id } table.rows, putTitle row.title id table.titles, id⟩)

/-- replaces the content of a row, if it has the expected version when one is given -/
def updateContent (table : Table) (id : UInt64) (content : String) (expected : Option UInt64) (now : UInt64) :
    Except StoreError UInt64 × Table :=
  match table.byId id with
  | none => (.error (.missing id), table)
  | some row =>
    match expected.filter (· ≠ row.version) with
    | some expected => (.error (.versionConflict id expected row.version), table)
    | none =>
      match { row with content }.touch now with
      | none => (.error .overflow, table)
      | some row => (.ok row.version, { table with rows := changeRow id (fun _ => row) table.rows })

/-- changes fields of a row, unless it would get a title that another row has -/
def updateFields (table : Table) (id : UInt64) (patch : Patch) (now : UInt64) : Except StoreError UInt64 × Table :=
  match table.byId id with
  | none => (.error (.missing id), table)
  | some old =>
    match patch.title.filter fun title => ((table.titles.lookup title).filter (· ≠ id)).isSome with
    | some title => (.error (.duplicateTitle title), table)
    | none =>
      match (patch.apply old).touch now with
      | none => (.error .overflow, table)
      | some row =>
        let titles :=
          if row.title = old.title then table.titles else putTitle row.title id (dropTitle old.title table.titles)
        (.ok row.version, { table with rows := changeRow id (fun _ => row) table.rows, titles })

/-- removes a row and the title that it has, and tells whether there was one -/
def delete (table : Table) (id : UInt64) : Bool × Table :=
  match table.byId id with
  | none => (false, table)
  | some row =>
    (true, { table with rows := table.rows.filter (·.id ≠ id), titles := dropTitle row.title table.titles })

/-- removes every row, and tells how many there were; the counter stays -/
def deleteAll (table : Table) : Nat × Table :=
  (table.rows.length, { table with rows := [], titles := [] })

def perform (table : Table) : (s : Statement) → s.Reply × Table
  | .fetchById id => (.ok (table.byId id), table)
  | .fetchByTitle title => (.ok (table.byTitle title), table)
  | .fetchAll => (.ok table.rows, table)
  | .insert row => table.insert row
  | .updateContent id content expected now => table.updateContent id content expected now
  | .updateFields id patch now => table.updateFields id patch now
  | .delete id => let (removed, table) := table.delete id; (.ok removed, table)
  | .deleteAll => let (removed, table) := table.deleteAll; (.ok removed, table)
  | .count => (.ok table.rows.length, table)

end Table

end XmlStore
