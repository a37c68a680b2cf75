/-
The text of a store file.

A file holds the id counter and the rows of a table as one JSON object; the title index is made anew from the rows. Reading
asks for every field and takes no number but unsigned ones of 64 bits, passes over members that it does not know, and accepts
a list of the values in order in place of an object.
-/
import XmlStore.Json.Printer
import XmlStore.Json.Reader
import XmlStore.Store.Table
import XmlStore.Text.Basic

namespace XmlStore

namespace Row

/-- the row as it stands in a file -/
def toJson (row : Row) : Json :=
  .object [("id", .ofNat row.id.toNat), ("title", .string row.title), ("description", .string row.description),
    ("content", .string row.content), ("version", .ofNat row.version.toNat), ("created_at", .ofNat row.createdAt.toNat),
    ("modified_at", .ofNat row.modifiedAt.toNat)]

/-- a row with the given values of its fields, in the order in which they are written -/
def ofFields (id title description content version created modified : Json) : Option Row := do
  let id ← id.word?
  let title ← title.string?
  let description ← description.string?
  let content ← content.string?
  let version ← version.word?
  let createdAt ← created.word?
  let modifiedAt ← modified.word?
  return { id, title, description, content, version, createdAt, modifiedAt }

/-- the row that a value in a file stands for -/
def ofJson? : Json → Option Row
  | .object members => do
    ofFields (← Json.member? members "id") (← Json.member? members "title") (← Json.member? members "description")
      (← Json.member? members "content") (← Json.member? members "version") (← Json.member? members "created_at")
      (← Json.member? members "modified_at")
  | .array [id, title, description, content, version, created, modified] =>
    ofFields id title description content version created modified
  | _ => none

end Row

namespace Table

/-- the counter and the rows of a table as they stand in a file -/
def toJson (table : Table) : Json :=
  .object [("last_id", .ofNat table.lastId.toNat), ("documents", .array (table.rows.map Row.toJson))]

/-- the table with the given values for the counter and the rows -/
def ofFields (lastId rows : Json) : Option Table := do
  let lastId ← lastId.word?
  let .array items := rows | none
  let rows ← items.mapM Row.ofJson?
  return ofRows lastId rows

/-- the table that a value in a file stands for -/
def ofJson? : Json → Option Table
  | .object members => do ofFields (← Json.member? members "last_id") (← Json.member? members "documents")
  | .array [lastId, rows] => ofFields lastId rows
  | _ => none

/-- the text of a store file -/
def image (table : Table) : String :=
  table.toJson.pretty

/-- the table that the text of a store file stands for; a text of blanks stands for a table without rows -/
def ofImage? (text : String) : Option Table :=
  if text.toList.all Text.isBlank then some empty else (Json.parse text).bind ofJson?

end Table

end XmlStore
