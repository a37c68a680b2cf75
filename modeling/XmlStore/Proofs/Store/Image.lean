/-
Store files that are written and read again.

A file holds the rows and the counter of a table and not its index. What is read from it is made anew from these.

Main statement:
- `Table.ofImage?_image`: what the text of a file is read as.
-/
import XmlStore.Proofs.Json.Rereading
import XmlStore.Store.Image

namespace XmlStore

open Json

/-- a word of 64 bits is read as it was written -/
theorem Json.word?_ofNat (n : UInt64) : (ofNat n.toNat).word? = some n := by
  have digits : (Nat.toDigits 10 n.toNat).all Char.isDigit = true := by
    rw [List.all_eq_true]
    exact fun c hc => Nat.isDigit_of_mem_toDigits (by decide) (by decide) hc
  have value : Nat.ofDigitChars 10 (Nat.toDigits 10 n.toNat) 0 = n.toNat := Nat.ofDigitChars_toDigits (by decide) (by decide)
  simp only [ofNat, word?, Nat.toList_repr, digits, value, if_true, UInt64.toNat_lt_size, UInt64.ofNat_toNat]

/-- an object is not written as a text of blanks -/
theorem Json.pretty_object_not_blank (members : List (String × Json)) :
    (Json.object members).pretty.toList.all Text.isBlank = false := by
  have first : Text.isBlank '{' = false := by decide
  obtain ⟨s, e⟩ : ∃ s, (Json.object members).pretty.toList = '{' :: s := by
    rcases members with _ | ⟨member, rest⟩
    · exact ⟨_, String.toList_ofList⟩
    · exact ⟨_, String.toList_ofList⟩
  rw [e, List.all_cons, first, Bool.false_and]

namespace Row

theorem plain_toJson (row : Row) : row.toJson.Plain :=
  ⟨plain_ofNat _, trivial, trivial, trivial, plain_ofNat _, plain_ofNat _, plain_ofNat _, trivial⟩

theorem ofJson?_toJson (row : Row) : ofJson? row.toJson = some row := by
  simp [ofJson?, toJson, Json.member?, ofFields, word?_ofNat, Json.string?]

end Row

namespace Table

theorem plain_toJson (t : Table) : t.toJson.Plain := by
  refine ⟨plain_ofNat _, plainItems_iff.2 ?_, trivial⟩
  intro item hi
  obtain ⟨row, -, rfl⟩ := List.mem_map.1 hi
  exact row.plain_toJson

theorem ofJson?_toJson (t : Table) : ofJson? t.toJson = some (ofRows t.lastId t.rows) := by
  have rows : (t.rows.map Row.toJson).mapM Row.ofJson? = some t.rows := by
    induction t.rows with
    | nil => rfl
    | cons row rest ih => simp [Row.ofJson?_toJson, ih]
  simp [ofJson?, toJson, Json.member?, ofFields, word?_ofNat, rows]

/-- **What is written to a file** is read as the table made anew from its rows and its counter. -/
theorem ofImage?_image (t : Table) : ofImage? t.image = some (ofRows t.lastId t.rows) := by
  have shown : t.image.toList.all Text.isBlank = false := pretty_object_not_blank _
  rw [ofImage?, shown, image, parse_pretty t.plain_toJson]
  exact ofJson?_toJson t

end Table

end XmlStore
