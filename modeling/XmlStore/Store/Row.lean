/-
The rows of a store.

A row is a document as it is kept: an id given by the store, a title that no other row has, a description, the content as text,
a version that grows by one with every write, and the times of its making and of the last write. Ids, versions and times are words
of 64 bits. There is no id and no version after the highest word: a program that comes there stops.
-/

namespace XmlStore

/-- a document as it is kept -/
structure Row where
  id : UInt64
  title : String
  description : String
  content : String
  /-- 1 when the row is new, one more after every write -/
  version : UInt64
  createdAt : UInt64
  /-- the time of the last write, or else of the making -/
  modifiedAt : UInt64
  deriving DecidableEq, Repr, Inhabited

/-- a row without its content, as it is listed -/
structure RowSummary where
  id : UInt64
  title : String
  description : String
  version : UInt64
  modifiedAt : UInt64
  deriving DecidableEq, Repr

/-- new values for some of the fields that can be edited -/
structure Patch where
  title : Option String
  description : Option String
  content : Option String
  deriving DecidableEq, Repr

/-- the word after another one, unless that is the highest -/
def nextWord? (n : UInt64) : Option UInt64 :=
  if n.toNat + 1 < UInt64.size then some (n + 1) else none

theorem nextWord?_eq_some {n m : UInt64} : nextWord? n = some m ↔ n.toNat + 1 < UInt64.size ∧ n + 1 = m := by
  rw [nextWord?, Option.ite_none_right_eq_some, Option.some.injEq]

theorem nextWord?_eq_none {n : UInt64} : nextWord? n = none ↔ ¬ n.toNat + 1 < UInt64.size := by
  rw [nextWord?, ite_eq_right_iff]
  simp

namespace Row

/-- a row to be inserted, which has no id yet -/
def new (title description content : String) (now : UInt64) : Row :=
  ⟨0, title, description, content, 1, now, now⟩

/-- the row after a write, if there is a next version -/
def touch (row : Row) (now : UInt64) : Option Row :=
  (nextWord? row.version).map fun version => { row with version, modifiedAt := now }

def summary (row : Row) : RowSummary :=
  ⟨row.id, row.title, row.description, row.version, row.modifiedAt⟩

end Row

namespace Patch

def isEmpty (patch : Patch) : Bool :=
  patch.title.isNone && patch.description.isNone && patch.content.isNone

/-- the row with the given fields replaced -/
def apply (patch : Patch) (row : Row) : Row :=
  { row with
    title := patch.title.getD row.title
    description := patch.description.getD row.description
    content := patch.content.getD row.content }

end Patch

end XmlStore
