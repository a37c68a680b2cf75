/-
Reading nodes of a stored document.

Every reading loads the document and looks at the elements that the target picks out, in document order. Readings that answer
with a lookup say that nothing was found also when the store fails; those that must have a value fail with it.
-/
import XmlStore.Locator.Parser
import XmlStore.Service.Documents
import XmlStore.Xml.Select

namespace XmlStore.Service

open Xml

/-- what a reading found -/
inductive Lookup (α : Type) where
  | found (value : α)
  /-- nodes match, but there is no value -/
  | empty
  /-- no node matches -/
  | notFound
  deriving DecidableEq, Repr

namespace Lookup

variable {α β : Type}

def isFound : Lookup α → Bool
  | .found _ => true
  | _ => false

def value? : Lookup α → Option α
  | .found value => some value
  | _ => none

def map (change : α → β) : Lookup α → Lookup β
  | .found value => .found (change value)
  | .empty => .empty
  | .notFound => .notFound

end Lookup

/-- values under names, each name once and in ascending order -/
abbrev Record := List (String × String)

namespace Record

/-- the record with a value under a name, which takes the place of the one that is there -/
def insert (name value : String) : Record → Record
  | [] => [(name, value)]
  | (key, old) :: rest =>
    if name < key then (name, value) :: (key, old) :: rest
    else if name = key then (name, value) :: rest
    else (key, old) :: Record.insert name value rest

/-- the record of the given pairs, the last of each name -/
def ofPairs (pairs : List (String × String)) : Record :=
  pairs.foldl (fun record (name, value) => record.insert name value) []

end Record

/-- the elements that a target picks out of a document -/
def Target.select (target : Target) (d : Document) : List (Element Nat) :=
  match target with
  | .locator path => d.select path
  | .unreadable _ => []

/-- a lookup that finds nothing where there is no element -/
def lookupIn {α : Type} (hits : List (Element Nat)) (read : Element Nat → List (Element Nat) → Lookup α) : Lookup α :=
  match hits with
  | [] => .notFound
  | first :: rest => read first rest

def elementXml (e : Element Nat) : String :=
  e.toForest.xml

def elementText (e : Element Nat) : String :=
  e.children.text

/-- the compact forms of all elements, one after the other -/
def joinedXml (hits : List (Element Nat)) : Lookup String :=
  lookupIn hits fun first rest => .found (String.join ((first :: rest).map elementXml))

def firstText (hits : List (Element Nat)) : Lookup String :=
  lookupIn hits fun first _ => if (elementText first).isEmpty then .empty else .found (elementText first)

def allXml (hits : List (Element Nat)) : Lookup (List String) :=
  lookupIn hits fun first rest => .found ((first :: rest).map elementXml)

def allTexts (hits : List (Element Nat)) : Lookup (List String) :=
  lookupIn hits fun first rest => .found ((first :: rest).map elementText)

/-- whether an element has an attribute, with the value if one is given -/
def carries (name : String) (value : Option String) (e : Element Nat) : Bool :=
  match e.attributes.get? name, value with
  | some actual, some expected => actual == expected
  | some _, none => true
  | none, _ => false

/-- the compact form of each element that has an attribute -/
def xmlCarrying (name : String) (value : Option String) (hits : List (Element Nat)) : Lookup (List String) :=
  lookupIn hits fun first rest =>
    match ((first :: rest).filter (carries name value)).map elementXml with
    | [] => .empty
    | kept => .found kept

def firstAttributes (target : Target) (hits : List (Element Nat)) : Outcome (Lookup Record) :=
  match hits with
  | [] => .error (.nodeNotFound target)
  | first :: _ => .ok (if first.attributes.isEmpty then .empty else .found (.ofPairs first.attributes))

def firstAttribute (target : Target) (name : String) (hits : List (Element Nat)) : Outcome String :=
  match hits.head?.bind fun first => first.attributes.get? name with
  | some value => .ok value
  | none => .error (.attributeNotFound target name)

/-- the string value of what a field picks out first from an element -/
def fieldText? (d : Document) (e : Element Nat) (field : String) : Option String := do
  let locator ← (Locator.parse field).toOption
  let first ← (d.selectFrom e.mark locator).head?
  return elementText first

/-- the fields of an element that pick out anything, under their own texts -/
def recordOf (d : Document) (fields : List String) (e : Element Nat) : Record :=
  .ofPairs (fields.filterMap fun field => (fieldText? d e field).map fun value => (field, value))

def records (d : Document) (target : Target) (fields : List String) (hits : List (Element Nat)) :
    Outcome (List Record) :=
  match hits with
  | [] => .error (.noMatches target)
  | hits => .ok (hits.map (recordOf d fields))

/-- a reading that finds nothing when the store fails -/
def readLookup {α : Type} (id : UInt64) (target : Target) (read : List (Element Nat) → Lookup α) :
    Request (Outcome (Lookup α)) :=
  (load id).map fun
    | .ok d => .ok (read (target.select d))
    | .error (.store _) => .ok .notFound
    | .error failure => .error failure

/-- a reading that fails when the store does -/
def readValue {α : Type} (id : UInt64) (target : Target) (read : Document → List (Element Nat) → Outcome α) :
    Request (Outcome α) :=
  (load id).map fun outcome => outcome.bind fun d => read d (target.select d)

/-- whether the target picks out anything; a failure counts as no -/
def nodeExists (id : UInt64) (target : Target) : Request Bool :=
  (load id).map fun
    | .ok d => !(target.select d).isEmpty
    | .error _ => false

/-- the compact forms of all matches, one after the other -/
def getNodeXml (id : UInt64) (target : Target) : Request (Outcome (Lookup String)) :=
  readLookup id target joinedXml

def getNodeText (id : UInt64) (target : Target) : Request (Outcome (Lookup String)) :=
  readLookup id target firstText

def getAllXml (id : UInt64) (target : Target) : Request (Outcome (Lookup (List String))) :=
  readLookup id target allXml

def getAllTexts (id : UInt64) (target : Target) : Request (Outcome (Lookup (List String))) :=
  readLookup id target allTexts

/-- the compact form of each match that has an attribute, with the value if one is given -/
def getNodesCarrying (id : UInt64) (target : Target) (name : String) (value : Option String) :
    Request (Outcome (Lookup (List String))) :=
  readLookup id target (xmlCarrying name value)

def getAttributes (id : UInt64) (target : Target) : Request (Outcome (Lookup Record)) :=
  readValue id target fun _ hits => firstAttributes target hits

def getAttribute (id : UInt64) (target : Target) (name : String) : Request (Outcome String) :=
  readValue id target fun _ hits => firstAttribute target name hits

def getRecords (id : UInt64) (target : Target) (fields : List String) : Request (Outcome (List Record)) :=
  readValue id target fun d hits => records d target fields hits

end XmlStore.Service
