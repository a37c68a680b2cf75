/-
A renamed element has moved.

With nobody else acting, an element that is given another name is no longer there under its locator, and is there under the locator with
the new name in the last segment, with the text and the attributes that it had. For that the one locator must pick out that element alone
and the other nothing, no predicate may count places, and no earlier segment may ask for the new name: otherwise an element that stands
above others could be passed then where it was not before.

Main statement:
- `Stock.editName_moves`: what is found under the two locators after a renaming that has worked.
-/
import XmlStore.Proofs.Service.ReadBack
import XmlStore.Proofs.Xml.Renaming

namespace XmlStore.Service

open Xml

/-- **A renaming moves an element** from its locator to the one with the new name, and keeps its text and its attributes. -/
theorem Stock.editName_moves (s : Stock) (config : Config) (id : UInt64) (relative : Bool) (earlier : List Segment) (last : Segment)
    (name : String) (now : UInt64) (d : Document) (e : Element Nat) (unplaced : Locator.Unplaced ⟨relative, earlier ++ [last]⟩)
    (literal : last.name ≠ "*") (other : name ≠ last.name) (free : ∀ segment ∈ earlier, segment.name ≠ name)
    (loaded : (s.run (load id)).1 = .ok d) (hits : d.select ⟨relative, earlier ++ [last]⟩ = [e])
    (none : d.select ⟨relative, earlier ++ [{ last with name }]⟩ = [])
    (ok : (s.run (editName config id (.locator ⟨relative, earlier ++ [last]⟩) name now)).1 = .ok true) :
    let old : Target := .locator ⟨relative, earlier ++ [last]⟩
    let new : Target := .locator ⟨relative, earlier ++ [{ last with name }]⟩
    let after := (s.run (editName config id old name now)).2
    after.run (nodeExists id old) = (false, after) ∧
      (∃ d' e', after.run (load id) = (.ok d', after) ∧ new.select d' = [e'] ∧ e'.name = name) ∧
      (after.run (getNodeText id new)).1 = (s.run (getNodeText id old)).1 ∧
      (after.run (getAttributes id new)).1 = (s.run (getAttributes id old)).1 := by
  intro old new after
  obtain ⟨row, offers⟩ := offers_of_load loaded
  have found : old.select d = [e] := hits
  have edits : (Mutation.editName name).edit = .ok (.rename name) := rfl
  have shows : (Mutation.editName name).Shows := trivial
  let d' := Document.ofForest (d.attached.modify e.mark fun e => { e with name }).erase.joinTexts
  obtain ⟨-, -, row', (left : after.Offers id row' d')⟩ := offers.edited found shows edits ok
  obtain ⟨(gone : old.select d' = []), e', (moved : new.select d' = [e']), alike⟩ :=
    Document.select_renamed (Document.Built.parse offers.document).numbered unplaced literal other free hits none
  refine ⟨?_, ⟨d', e', left.run_load, moved, alike.name⟩, ?_, ?_⟩
  · rw [left.run_nodeExists, gone]
    rfl
  · have text : elementText e' = elementText e := alike.text
    rw [getNodeText, getNodeText, left.run_readLookup, offers.run_readLookup, moved, found, Readings.firstText_cons,
      Readings.firstText_cons, text]
  · have attributes : e'.attributes = e.attributes := alike.attributes
    rw [left.run_getAttributes moved, offers.run_getAttributes found, attributes]

/-- a store with a document in which an element stands above another one of its name -/
def layeredStock : Stock :=
  ((Stock.memory .empty).respond .default (.direct (.create "t" "" "<r><b k='1'>x<c><b/>y</c></b></r>" 1))).after

theorem Stock.editName_moves_above :
    let earlier : List Segment := [⟨.descendant, "*", []⟩]
    let last : Segment := ⟨.descendant, "b", [.hasAttribute "k"]⟩
    let old : Target := .locator ⟨false, earlier ++ [last]⟩
    let new : Target := .locator ⟨false, earlier ++ [{ last with name := "d" }]⟩
    let after := (layeredStock.run (editName .default 1 old "d" 2)).2
    (layeredStock.run (editName .default 1 old "d" 2)).1 = .ok true ∧
      after.stored? = some ⟨[⟨1, "t", "", "<r><d k=\"1\">x<c><b/>y</c></d></r>", 2, 1, 2⟩], 1⟩ ∧
      after.run (nodeExists 1 old) = (false, after) ∧
      (∃ d' e', after.run (load 1) = (.ok d', after) ∧ new.select d' = [e'] ∧ e'.name = "d") ∧
      (after.run (getNodeText 1 new)).1 = (layeredStock.run (getNodeText 1 old)).1 ∧
      (after.run (getAttributes 1 new)).1 = (layeredStock.run (getAttributes 1 old)).1 := by
  intro earlier last old new after
  let below : Forest Nat := .leaf 3 .text "x" (.element 4 "c" [] (.element 5 "b" [] .nil (.leaf 6 .text "y" .nil)) .nil)
  let d : Document := ⟨.element 1 "r" [] (.element 2 "b" [("k", "1")] below .nil) .nil, .nil, 7⟩
  have unplaced : Locator.Unplaced ⟨false, earlier ++ [last]⟩ := by
    simp [earlier, last, Locator.Unplaced, Segment.Unplaced, Predicate.Unplaced]
  have free : ∀ segment ∈ earlier, segment.name ≠ "d" := by decide +kernel
  have loaded : (layeredStock.run (load 1)).1 = .ok d := by decide +kernel
  have hits : d.select ⟨false, earlier ++ [last]⟩ = [⟨2, "b", [("k", "1")], below⟩] := by decide +kernel
  have none : d.select ⟨false, earlier ++ [{ last with name := "d" }]⟩ = [] := by decide +kernel
  have ok : (layeredStock.run (editName .default 1 old "d" 2)).1 = .ok true := by decide +kernel
  have moved := layeredStock.editName_moves .default 1 false earlier last "d" 2 d _ unplaced (by decide) (by decide) free loaded hits
    none ok
  exact ⟨ok, by decide +kernel, moved⟩

end XmlStore.Service
