/-
What the program prints for the outcome of a command.
-/
import XmlStore.Json.Printer
import XmlStore.Service.Operation

namespace XmlStore.CommandLine

open Service

def line (text : String) : String :=
  text ++ "\n"

/-- a line that says that something was done or holds -/
def yes (text : String) : String :=
  line ("✓ " ++ text)

/-- a line that says that there is nothing -/
def no (text : String) : String :=
  line ("✗ " ++ text)

/-- items with their numbers from 1 on, each put in words -/
def numbered {α : Type} (words : Nat → α → String) (items : List α) : String :=
  String.join ((items.zipIdx 1).map fun (item, n) => words n item)

/-- the lines for a lookup, where `empty` says that there is no value -/
def lookupText {α : Type} (empty : String) (words : α → String) : Lookup α → String
  | .found value => words value
  | .empty => no empty
  | .notFound => no "no match"

/-- a name and its value, behind an indent -/
def pairText (indent : String) (pair : String × String) : String :=
  line (indent ++ pair.1 ++ " = " ++ pair.2)

/-- the lines for what an operation answers with -/
def outputText : Output → String
  | .bool answer => if answer then yes "yes" else no "no match"
  | .value answer => line answer
  | .text answer => lookupText "(empty)" line answer
  | .list answer => lookupText "(none pass the filter)" (numbered fun n item => line s!"[{n}] {item}") answer
  | .attributes answer => lookupText "(no attributes)" (fun record => String.join (record.map (pairText ""))) answer
  | .records answer =>
    numbered (fun n record => line s!"#{n}" ++ String.join (record.map (pairText "  "))) answer

def lookupJson {α : Type} (json : α → Json) : Lookup α → Json
  | .found value => .object [("Found", json value)]
  | .empty => .string "Empty"
  | .notFound => .string "NotFound"

def recordJson (record : Record) : Json :=
  .object (record.map fun (name, value) => (name, .string value))

def outputJson : Output → Json
  | .bool answer => .object [("Bool", .bool answer)]
  | .text answer => .object [("Text", lookupJson .string answer)]
  | .list answer => .object [("List", lookupJson (fun items => .array (items.map .string)) answer)]
  | .attributes answer => .object [("Attributes", lookupJson recordJson answer)]
  | .records answer => .object [("Records", .array (answer.map recordJson))]
  | .value answer => .object [("Value", .string answer)]

/-- a text behind as many spaces as fill it up to a width -/
def alignRight (width : Nat) (text : String) : String :=
  String.ofList (List.replicate (width - text.length) ' ') ++ text

/-- the line for a document in a list -/
def summaryText (row : RowSummary) : String :=
  line s!"{alignRight 5 row.id.toNat.repr}  {row.title}  v{row.version}  {row.description}"

/-- the lines for all documents -/
def listText : List RowSummary → String
  | [] => line "(no documents)"
  | rows => String.join (rows.map summaryText)

def headingText (row : Row) : String :=
  line s!"#{row.id} {row.title}  v{row.version}" ++ if row.description.isEmpty then "" else line row.description

/-- the warning about a locator that cannot be read -/
def unreadableText (locator : String) (error : LocatorError) : String :=
  line ("! locator " ++ Text.quote locator ++ s!" does not parse ({error.message}); it matches nothing")

def failureText (failure : Failure) : String :=
  line ("error: " ++ failure.message)

end XmlStore.CommandLine
