/-
Records of fields.

A record has its names in ascending order, each once. The record that a reading makes of an element depends on its field locators;
where these are relative they look at nothing but the subtree, so the element's own text decides the record, and what surrounds the
element in its document does not matter.

Main statements:
- `Record.ascending_ofPairs`, `Record.mem_ofPairs`: what a record holds that is made of pairs.
- `describes_recordOf`: what the record of an element says.
- `Occasion.records_local`: relative locators and records of relative fields are decided by an element's own text.
-/
import Mathlib.Data.List.Induction
import Mathlib.Data.List.Sort
import XmlStore.Proofs.Service.Occasions
import XmlStore.Proofs.Xml.Locality

namespace XmlStore.Service

open Xml

/-! ## Names and values -/

namespace Record

/-- each name once, in ascending order -/
def Ascending (record : Record) : Prop :=
  (record.map Prod.fst).Pairwise (· < ·)

variable {record : Record} {name value : String}

theorem mem_insert (h : record.Ascending) {entry : String × String} :
    entry ∈ record.insert name value ↔ entry = (name, value) ∨ (entry.1 ≠ name ∧ entry ∈ record) := by
  induction record with
  | nil => simp [insert]
  | cons first rest ih =>
    obtain ⟨key, old⟩ := first
    have later : ∀ entry ∈ rest, key < entry.1 := fun entry he =>
      (List.pairwise_cons.1 h).1 entry.1 (List.mem_map_of_mem he)
    rw [insert]
    split
    · rename_i before
      have others : ∀ entry ∈ (key, old) :: rest, entry.1 ≠ name := by
        intro entry he same
        have greater : name < entry.1 := by
          rcases List.mem_cons.1 he with rfl | he
          · exact before
          · exact String.lt_trans before (later entry he)
        rw [same] at greater
        exact String.lt_irrefl name greater
      rw [List.mem_cons]
      exact or_congr_right ⟨fun he => ⟨others entry he, he⟩, And.right⟩
    · split
      · rename_i same
        subst same
        have others : ∀ entry ∈ rest, entry.1 ≠ name := fun entry he same =>
          String.lt_irrefl name (same ▸ later entry he)
        rw [List.mem_cons, List.mem_cons]
        refine or_congr_right ⟨fun he => ⟨others entry he, Or.inr he⟩, ?_⟩
        rintro ⟨other, rfl | he⟩
        · exact absurd rfl other
        · exact he
      · rename_i other
        rw [List.mem_cons, List.mem_cons, ih (List.pairwise_cons.1 h).2]
        constructor
        · rintro (rfl | rfl | ⟨he, hr⟩)
          · exact Or.inr ⟨Ne.symm other, Or.inl rfl⟩
          · exact Or.inl rfl
          · exact Or.inr ⟨he, Or.inr hr⟩
        · rintro (rfl | ⟨he, rfl | hr⟩)
          · exact Or.inr (Or.inl rfl)
          · exact Or.inl rfl
          · exact Or.inr (Or.inr ⟨he, hr⟩)

theorem Ascending.insert (h : record.Ascending) (name value : String) : (record.insert name value).Ascending := by
  induction record with
  | nil => simp [Record.insert, Ascending]
  | cons first rest ih =>
    obtain ⟨key, old⟩ := first
    obtain ⟨later, rest_ascending⟩ := List.pairwise_cons.1 h
    rw [Record.insert]
    split
    · rename_i before
      refine List.pairwise_cons.2 ⟨?_, h⟩
      intro other ho
      rcases List.mem_cons.1 ho with rfl | ho
      · exact before
      · exact String.lt_trans before (later other ho)
    · split
      · rename_i same
        subst same
        exact h
      · rename_i notBefore other
        refine List.pairwise_cons.2 ⟨?_, ih rest_ascending⟩
        intro found hf
        obtain ⟨entry, he, rfl⟩ := List.mem_map.1 hf
        rcases (mem_insert rest_ascending).1 he with rfl | ⟨-, he⟩
        · exact Std.lt_of_le_of_ne (String.not_lt.1 notBefore) (Ne.symm other)
        · exact later _ (List.mem_map_of_mem he)

theorem ofPairs_append (pairs : List (String × String)) (name value : String) :
    ofPairs (pairs ++ [(name, value)]) = (ofPairs pairs).insert name value := by
  rw [ofPairs, List.foldl_append]
  rfl

theorem ascending_ofPairs (pairs : List (String × String)) : (ofPairs pairs).Ascending := by
  induction pairs using List.reverseRecOn with
  | nil => exact List.Pairwise.nil
  | append_singleton pairs last ih =>
    rw [ofPairs_append]
    exact ih.insert _ _

/-- a record made of pairs holds just these, if no name is given two values -/
theorem mem_ofPairs {pairs : List (String × String)}
    (single : ∀ name value value', (name, value) ∈ pairs → (name, value') ∈ pairs → value = value') {entry : String × String} :
    entry ∈ ofPairs pairs ↔ entry ∈ pairs := by
  induction pairs using List.reverseRecOn with
  | nil => exact Iff.rfl
  | append_singleton pairs last ih =>
    obtain ⟨name, value⟩ := last
    have before : entry ∈ ofPairs pairs ↔ entry ∈ pairs :=
      ih fun name value value' h h' => single name value value' (List.mem_append_left _ h) (List.mem_append_left _ h')
    rw [ofPairs_append, mem_insert (ascending_ofPairs pairs), before, List.mem_append, List.mem_singleton]
    constructor
    · rintro (rfl | ⟨-, he⟩)
      · exact Or.inr rfl
      · exact Or.inl he
    · rintro (he | rfl)
      · by_cases same : entry.1 = name
        · have value_eq : entry.2 = value :=
            single name _ _ (List.mem_append_left _ (same ▸ he)) (List.mem_append_right _ List.mem_cons_self)
          exact Or.inl (Prod.ext same value_eq)
        · exact Or.inr ⟨same, he⟩
      · exact Or.inl rfl

end Record

/-! ## Records of elements -/

/-- the record of the root that a text has as a document -/
def recordOfXml? (fields : List String) (xml : String) : Option Record := do
  let own ← (Document.parse xml).toOption
  let root ← own.root?
  return recordOf own fields root

/-- a field that holds no locator but a relative one -/
def RelativeField (field : String) : Prop :=
  ∀ l, Locator.parse field = .ok l → l.relative = true

/-- what a record of relative fields says of an element -/
structure Describes (d : Document) (fields : List String) (e : Element Nat) (record : Record) : Prop where
  /-- the element's own text decides it -/
  own : recordOfXml? fields (elementXml e) = some record
  ascending : record.Ascending
  /-- the fields that pick out something, with the text of what they pick out first -/
  entry : ∀ field value, (field, value) ∈ record ↔ field ∈ fields ∧ ∃ l first rest, Locator.parse field = .ok l ∧
    d.selectFrom e.mark l = first :: rest ∧ value = elementText first

theorem fieldText?_eq_some {d : Document} {e : Element Nat} {field value : String} :
    fieldText? d e field = some value ↔ ∃ l first rest, Locator.parse field = .ok l ∧ d.selectFrom e.mark l = first :: rest ∧
      value = elementText first := by
  unfold fieldText?
  cases parsed : Locator.parse field with
  | error error => simp [Except.toOption]
  | ok l =>
    cases hits : d.selectFrom e.mark l with
    | nil => simp [Except.toOption, hits]
    | cons first rest => simp [Except.toOption, hits, eq_comm]

theorem mem_recordOf {d : Document} {fields : List String} {e : Element Nat} {field value : String} :
    (field, value) ∈ recordOf d fields e ↔ field ∈ fields ∧ fieldText? d e field = some value := by
  have paired : ∀ name given, (name, given) ∈ fields.filterMap (fun field => (fieldText? d e field).map fun value => (field, value)) ↔
      name ∈ fields ∧ fieldText? d e name = some given := by
    intro name given
    simp only [List.mem_filterMap, Option.map_eq_some_iff, Prod.mk.injEq]
    constructor
    · rintro ⟨_, hf, _, found, rfl, rfl⟩
      exact ⟨hf, found⟩
    · rintro ⟨hf, found⟩
      exact ⟨name, hf, given, found, rfl, rfl⟩
  rw [recordOf, Record.mem_ofPairs, paired]
  intro name given given' h h'
  exact Option.some.inj (((paired name given).1 h).2.symm.trans ((paired name given').1 h').2)

section Own

variable {text : String} {d : Document} {e : Element Nat}

/-- relative locators have the same hits in the own document of an element, by their compact forms and by their string values -/
theorem hits_own (h : Document.parse text = .ok d) (he : e ∈ d.attached.allElements) :
    ∃ own root, Document.parse (d.nodeXml e.mark) = .ok own ∧ own.root? = some root ∧ ∀ l : Locator, l.relative = true →
      (d.selectFrom e.mark l).map elementXml = (own.selectFrom root.mark l).map elementXml ∧
        (d.selectFrom e.mark l).map elementText = (own.selectFrom root.mark l).map elementText := by
  obtain ⟨own, root, change, parsed, isRoot, same⟩ := Document.selectFrom_own h he
  refine ⟨own, root, parsed, isRoot, ?_⟩
  intro l relative
  rw [same l relative, List.map_map, List.map_map]
  constructor
  · exact List.map_congr_left fun m _ => (m.xml_renewed change).symm
  · exact List.map_congr_left fun m _ => (m.children.text_renewed change).symm

/-- **The record of an element** of relative fields is decided by its own text. -/
theorem describes_recordOf (h : Document.parse text = .ok d) (he : e ∈ d.attached.allElements) {fields : List String}
    (relative : ∀ field ∈ fields, RelativeField field) : Describes d fields e (recordOf d fields e) where
  own := by
    obtain ⟨own, root, parsed, isRoot, same⟩ := hits_own h he
    have agree : ∀ field ∈ fields, fieldText? own root field = fieldText? d e field := by
      intro field hf
      unfold fieldText?
      cases read : Locator.parse field with
      | error error => rfl
      | ok l =>
        have texts := (same l (relative field hf l read)).2
        have first : (d.selectFrom e.mark l).head?.map elementText = (own.selectFrom root.mark l).head?.map elementText := by
          rw [← List.head?_map, ← List.head?_map, texts]
        simpa [Except.toOption, Option.map_eq_bind, Function.comp_def] using first.symm
    have records : recordOf own fields root = recordOf d fields e := by
      rw [recordOf, recordOf]
      congr 1
      exact List.filterMap_congr fun field hf => by rw [agree field hf]
    rw [Document.nodeXml_of_mem (Document.Built.parse h).numbered he] at parsed
    simp [recordOfXml?, elementXml, parsed, Except.toOption, isRoot, records]
  ascending := Record.ascending_ofPairs _
  entry field value := mem_recordOf.trans (and_congr_right fun _ => fieldText?_eq_some)

end Own

namespace Occasion

theorem run_getRecords (occasion : Occasion) (id : UInt64) (target : Target) (fields : List String) :
    occasion.run (getRecords id target fields) =
      ((opened id (occasion.fetched id)).map Prod.snd).bind fun d => records d target fields (target.select d) := by
  rw [getRecords, readValue, run_map, run_load]

/-- **Relative locators are local.** In every document that can be read, the compact form of each element is read as a document, and
from the root of that one every relative locator has the same hits, by their compact forms and by their string values, as from the
element. So on every occasion where such a document is found, the records of relative fields are one for each match, and each is decided
by the match's own text: the text of the first hit of a field, under each field that has a hit. -/
theorem records_local {text : String} {d : Document} (h : Document.parse text = .ok d) :
    (∀ c ∈ d.attached.allElements, ∃ own root, Document.parse (d.nodeXml c.mark) = .ok own ∧ own.root? = some root ∧
      ∀ l : Locator, l.relative = true →
        (d.selectFrom c.mark l).map elementXml = (own.selectFrom root.mark l).map elementXml ∧
          (d.selectFrom c.mark l).map elementText = (own.selectFrom root.mark l).map elementText) ∧
      ∀ (occasion : Occasion) (id : UInt64) (row : Row) (target : Target) (fields : List String),
        occasion.fetched id = .ok (some row) → row.content = text → (∀ field ∈ fields, RelativeField field) →
          (target.select d = [] → occasion.run (getRecords id target fields) = .error (.noMatches target)) ∧
            (target.select d ≠ [] → ∃ list, occasion.run (getRecords id target fields) = .ok list ∧
              List.Forall₂ (Describes d fields) (target.select d) list) := by
  refine ⟨fun c hc => hits_own h hc, ?_⟩
  rintro occasion id row target fields found rfl relative
  have run : occasion.run (getRecords id target fields) = records d target fields (target.select d) := by
    rw [run_getRecords, found]
    simp [opened, readContent, h]
  have described : List.Forall₂ (Describes d fields) (target.select d) ((target.select d).map (recordOf d fields)) := by
    rw [List.forall₂_map_right_iff, List.forall₂_same]
    exact fun e he => describes_recordOf h ((target.select_sublist h).subset he) relative
  rw [run]
  constructor
  · intro none
    rw [none]
    rfl
  · intro some
    refine ⟨_, ?_, described⟩
    obtain ⟨first, rest, hits⟩ := List.exists_cons_of_ne_nil some
    rw [hits]
    rfl

/-- a document with two elements that are written alike, with something else between them -/
def twinRow : Row :=
  ⟨1, "twins", "", "<r><b><t>x</t><t>y<u/>z</t></b><t/><b><t>x</t><t>y<u/>z</t></b></r>", 1, 0, 0⟩

/-- a store of that document in memory -/
def twins : Occasion :=
  .memory ⟨⟨⟨[twinRow], [("twins", 1)], 1⟩, true⟩, none⟩

theorem records_local_twins :
    let second : Forest Unit := .element () "t" [] (.leaf () .text "y" (.element () "u" [] .nil (.leaf () .text "z" .nil))) .nil
    let inner : Forest Unit := .element () "t" [] (.leaf () .text "x" .nil) second
    let d := Document.ofForest
      (.element () "r" [] (.element () "b" [] inner (.element () "t" [] .nil (.element () "b" [] inner .nil))) .nil)
    let target : Target := .locator ⟨false, [⟨.descendant, "b", []⟩]⟩
    let fields := ["t[2]", "t//u", "c", "["]
    Document.parse twinRow.content = .ok d ∧ twins.fetched 1 = .ok (some twinRow) ∧ (∀ field ∈ fields, RelativeField field) ∧
      target.select d ≠ [] ∧
      (∃ list, twins.run (getRecords 1 target fields) = .ok list ∧ List.Forall₂ (Describes d fields) (target.select d) list) ∧
      twins.run (getRecords 1 target fields) = .ok [[("t//u", ""), ("t[2]", "yz")], [("t//u", ""), ("t[2]", "yz")]] := by
  intro second inner d target fields
  have read : Document.parse twinRow.content = .ok d := by decide +kernel
  have found : twins.fetched 1 = .ok (some twinRow) := by decide +kernel
  have relative : ∀ field ∈ fields, RelativeField field := by
    have parsed : ∀ field ∈ fields, ((Locator.parse field).toOption.map Locator.relative).getD true = true := by decide +kernel
    intro field hf l hl
    have here := parsed field hf
    rw [hl] at here
    exact here
  have hit : target.select d ≠ [] := by decide +kernel
  exact ⟨read, found, relative, hit, ((records_local read).2 twins 1 twinRow target fields found rfl relative).2 hit,
    by decide +kernel⟩

end Occasion

end XmlStore.Service
