/-
What reading operations answer.

All readings of one state of a store look at the same nodes, those that the target picks out of the document, and so what one of them
answers tells about the others. They differ in how they say that there is nothing: no node, a node without a value, no document
and a store that fails are never taken for one another, but for the plain question whether there is a node.

Main statements:
- `Readings.agree_of`: what the readings of a document have to do with each other.
- `Occasion.readings_agree`: what they answer on every occasion.
-/
import XmlStore.Proofs.Service.Occasions

namespace XmlStore.Service

open Xml

/-- what all reading operations answer -/
structure Readings where
  exist : Bool
  xml : Outcome (Lookup String)
  text : Outcome (Lookup String)
  allXml : Outcome (Lookup (List String))
  allTexts : Outcome (Lookup (List String))
  carrying : Outcome (Lookup (List String))
  attributes : Outcome (Lookup Record)
  attributeValue : Outcome String
  records : Outcome (List Record)
  deriving DecidableEq, Repr

/-- the answers of all of them on one occasion -/
def Occasion.readings (id : UInt64) (target : Target) (name : String) (value : Option String) (fields : List String)
    (occasion : Occasion) : Readings where
  exist := occasion.run (nodeExists id target)
  xml := occasion.run (getNodeXml id target)
  text := occasion.run (getNodeText id target)
  allXml := occasion.run (getAllXml id target)
  allTexts := occasion.run (getAllTexts id target)
  carrying := occasion.run (getNodesCarrying id target name value)
  attributes := occasion.run (getAttributes id target)
  attributeValue := occasion.run (getAttribute id target name)
  records := occasion.run (getRecords id target fields)

namespace Readings

/-- there is no document that can be read -/
def failed (failure : Failure) : Readings :=
  ⟨false, .error failure, .error failure, .error failure, .error failure, .error failure, .error failure, .error failure,
    .error failure⟩

/-- the store fails -/
def away (error : StoreError) : Readings :=
  ⟨false, .ok .notFound, .ok .notFound, .ok .notFound, .ok .notFound, .ok .notFound, .error (.store error),
    .error (.store error), .error (.store error)⟩

/-- the readings of a document, or of what has come instead of one -/
def ofLoaded (target : Target) (name : String) (value : Option String) (fields : List String) : Outcome Document → Readings
  | .ok d =>
    let hits := target.select d
    ⟨!hits.isEmpty, .ok (joinedXml hits), .ok (firstText hits), .ok (Service.allXml hits), .ok (Service.allTexts hits),
      .ok (xmlCarrying name value hits), firstAttributes target hits, firstAttribute target name hits,
      Service.records d target fields hits⟩
  | .error (.store error) => away error
  | .error failure => failed failure

/-- readings that agree on a list of hits -/
structure Agree (target : Target) (name : String) (value : Option String) (hits : List (Element Nat)) (r : Readings) : Prop where
  exist : r.exist = true ↔ hits ≠ []
  /-- the compact form of each hit, in their order -/
  allXml : r.allXml = .ok (if hits = [] then .notFound else .found (hits.map elementXml))
  /-- the string value of each hit -/
  allTexts : r.allTexts = .ok (if hits = [] then .notFound else .found (hits.map elementText))
  /-- one text of all compact forms -/
  xml : r.xml = r.allXml.map fun forms => forms.map String.join
  textNone : r.text = .ok .notFound ↔ hits = []
  /-- the first of the string values, if there is anything in it -/
  text : ∀ first rest, r.allTexts = .ok (.found (first :: rest)) → r.text = .ok (if first = "" then .empty else .found first)
  carryingNone : r.carrying = .ok .notFound ↔ hits = []
  carryingEmpty : r.carrying = .ok .empty ↔ hits ≠ [] ∧ ∀ e ∈ hits, carries name value e = false
  /-- some of the compact forms -/
  carrying : ∀ forms, r.carrying = .ok (.found forms) → forms ≠ [] ∧ forms = (hits.filter (carries name value)).map elementXml
  attributesNone : r.attributes = .error (.nodeNotFound target) ↔ hits = []
  attributesEmpty : r.attributes = .ok .empty ↔ ∃ first, hits.head? = some first ∧ first.attributes = []
  attributes : ∀ record, r.attributes = .ok (.found record) ↔
    ∃ first, hits.head? = some first ∧ first.attributes ≠ [] ∧ record = .ofPairs first.attributes
  attributeValueNone : r.attributeValue = .error (.attributeNotFound target name) ↔
    ∀ first, hits.head? = some first → first.attributes.get? name = none
  attributeValue : ∀ given, r.attributeValue = .ok given ↔ ∃ first, hits.head? = some first ∧ first.attributes.get? name = some given
  recordsNone : r.records = .error (.noMatches target) ↔ hits = []
  records : hits ≠ [] → ∃ list, r.records = .ok list ∧ list.length = hits.length

variable {target : Target} {name : String} {value : Option String} {fields : List String}

theorem firstText_cons (first : Element Nat) (rest : List (Element Nat)) :
    firstText (first :: rest) = if elementText first = "" then .empty else .found (elementText first) := by
  simp only [firstText, lookupIn, String.isEmpty_iff]

/-- of the hits those that carry an attribute, with nothing left when none does -/
theorem xmlCarrying_cons (first : Element Nat) (rest : List (Element Nat)) :
    xmlCarrying name value (first :: rest) =
      if (first :: rest).filter (carries name value) = [] then .empty
      else .found (((first :: rest).filter (carries name value)).map elementXml) := by
  simp only [xmlCarrying, lookupIn]
  cases (first :: rest).filter (carries name value) <;> rfl

theorem firstAttributes_cons (first : Element Nat) (rest : List (Element Nat)) :
    firstAttributes target (first :: rest) =
      .ok (if first.attributes = [] then .empty else .found (.ofPairs first.attributes)) := by
  simp only [firstAttributes, List.isEmpty_iff]

theorem firstAttribute_cons (first : Element Nat) (rest : List (Element Nat)) :
    firstAttribute target name (first :: rest) =
      match first.attributes.get? name with
      | some given => .ok given
      | none => .error (.attributeNotFound target name) := rfl

/-- **The readings of a document agree** on what the target picks out of it. -/
theorem agree_of (d : Document) : (ofLoaded target name value fields (.ok d)).Agree target name value (target.select d) := by
  simp only [ofLoaded]
  generalize target.select d = hits
  cases hits with
  | nil =>
    constructor <;> simp [joinedXml, firstText, Service.allXml, Service.allTexts, xmlCarrying, lookupIn, firstAttributes,
      firstAttribute, Service.records, Lookup.map]
  | cons first rest =>
    constructor
    case exist => simp
    case allXml => rfl
    case allTexts => rfl
    case xml => rfl
    case textNone =>
      rw [firstText_cons]
      split <;> simp
    case text =>
      rintro _ _ ⟨⟩
      rw [firstText_cons]
    case carryingNone =>
      rw [xmlCarrying_cons]
      split <;> simp
    case carryingEmpty =>
      rw [xmlCarrying_cons]
      split <;> simp_all
    case carrying =>
      rw [xmlCarrying_cons]
      intro forms h
      split at h
      · cases h
      · rename_i some
        cases h
        exact ⟨by simpa using some, rfl⟩
    case attributesNone => simp [firstAttributes_cons]
    case attributesEmpty =>
      rw [firstAttributes_cons]
      split <;> simp_all
    case attributes =>
      intro record
      rw [firstAttributes_cons]
      split <;> simp_all [eq_comm]
    case attributeValueNone =>
      rw [firstAttribute_cons]
      cases given : first.attributes.get? name <;> simp [given]
    case attributeValue =>
      intro value
      rw [firstAttribute_cons]
      cases given : first.attributes.get? name <;> simp [given]
    case recordsNone => simp [Service.records]
    case records =>
      intro _
      exact ⟨_, rfl, by simp⟩

end Readings

namespace Occasion

theorem readings_eq (id : UInt64) (target : Target) (name : String) (value : Option String) (fields : List String)
    (occasion : Occasion) : occasion.readings id target name value fields =
      .ofLoaded target name value fields ((opened id (occasion.fetched id)).map Prod.snd) := by
  simp only [readings, nodeExists, getNodeXml, getNodeText, getAllXml, getAllTexts, getNodesCarrying, getAttributes, getAttribute,
    getRecords, readLookup, readValue, run_map, run_load]
  cases (opened id (occasion.fetched id)).map Prod.snd with
  | ok d => rfl
  | error failure => cases failure <;> rfl

/-- **What reading operations answer** on every occasion: if there is a document they agree on one list of hits, in document order and
empty for a locator that cannot be read; if there is none, or if it cannot be read, all but one fail with that; and if the store fails
those that look something up find nothing, and those that must have a value fail. -/
theorem readings_agree (id : UInt64) (target : Target) (name : String) (value : Option String) (fields : List String)
    (occasion : Occasion) :
    match occasion.fetched id with
    | .error error => occasion.readings id target name value fields = .away error
    | .ok none => occasion.readings id target name value fields = .failed (.documentNotFound (.id id))
    | .ok (some row) =>
      match Document.parse row.content with
      | .error e => occasion.readings id target name value fields = .failed (.invalidXml e)
      | .ok d =>
        (occasion.readings id target name value fields).Agree target name value (target.select d) ∧
          (target.select d).Sublist d.attached.allElements ∧ ∀ error, target = .unreadable error → target.select d = [] := by
  rw [readings_eq]
  cases found : occasion.fetched id with
  | error error =>
    simp only [opened, occasion.ofStore_of_fetched found]
    rfl
  | ok row =>
    cases row with
    | none => rfl
    | some row =>
      simp only [opened, readContent]
      cases read : Document.parse row.content with
      | error e => rfl
      | ok d =>
        refine ⟨Readings.agree_of d, target.select_sublist read, ?_⟩
        rintro error rfl
        rfl

end Occasion

end XmlStore.Service
