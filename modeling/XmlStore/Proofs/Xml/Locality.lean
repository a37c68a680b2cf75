/-
Elements as documents of their own.

The compact form of an element of a document that was read is the text of a document with that element as its root. Below the root
stands what stands below the element, with adjacent texts joined and numbers given anew, so relative locators pick out the same there,
whatever surrounds the element in the document that it comes from.

Main statements:
- `Forest.number_joinTexts`, `Document.select_reread`: what segments and locators pick out from content that is written and read again.
- `Document.selectFrom_own`: what relative locators pick out from an element, they pick out from the root of its own document.
-/
import XmlStore.Proofs.Xml.Ends
import XmlStore.Proofs.Xml.RoundTrip

namespace XmlStore.Xml

namespace Forest

variable {ι κ : Type}

theorem render_mapMarks (change : ι → κ) (f : Forest ι) : (f.mapMarks change).render = f.render := by
  rw [← render_erase, erase_mapMarks, render_erase]

theorem text_mapMarks (change : ι → κ) (f : Forest ι) : (f.mapMarks change).text = f.text := by
  induction f with
  | nil => rfl
  | leaf mark kind value next ih => rw [mapMarks, text, text, ih]
  | element mark name attributes children next ihc ihn => rw [mapMarks, text, text, ihc, ihn]

theorem NoBlanks.of_mem {f : Forest ι} (h : f.NoBlanks) {n : Node ι} (hn : n ∈ f.nodes) : n.toForest.NoBlanks := by
  induction f with
  | nil => exact absurd hn List.not_mem_nil
  | leaf mark kind value next ih =>
    rcases mem_nodes_leaf.1 hn with rfl | hn
    · exact ⟨h.1, trivial⟩
    · exact ih h.2 hn
  | element mark name attributes children next ihc ihn =>
    rcases mem_nodes_element.1 hn with rfl | hn | hn
    · exact ⟨h.1, trivial⟩
    · exact ihc h.1 hn
    · exact ihn h.2 hn

/-- the forest with adjacent texts joined and with other marks -/
def renewed (change : ι → κ) (f : Forest ι) : Forest κ :=
  f.joinTexts.mapMarks change

theorem text_renewed (change : ι → κ) (f : Forest ι) : (f.renewed change).text = f.text := by
  rw [renewed, text_mapMarks, text_joinTexts]

/-- content in which adjacent texts are joined and numbers are given anew; segments pick out the same there -/
theorem number_joinTexts [DecidableEq ι] {f : Forest ι} (hf : f.marks.Nodup) (first : Nat) :
    ∃ change : ι → Nat, f.erase.joinTexts.number first = f.renewed change ∧ ∀ segments,
      (f.renewed change).picked segments = (f.picked segments).map (Element.recast change (renewed change)) := by
  have distinct : f.joinTexts.marks.Nodup := f.marks_joinTexts.nodup hf
  let change : ι → Nat := fun m => first + f.joinTexts.marks.idxOf m
  have apart : ∀ m ∈ f.joinTexts.marks, ∀ n ∈ f.joinTexts.marks, change m = change n → m = n := by
    intro m hm n _ same
    exact (List.idxOf_inj hm).1 (Nat.add_left_cancel same)
  refine ⟨change, ?_, fun segments => ?_⟩
  · rw [← erase_joinTexts, number_erase distinct]
    rfl
  · rw [renewed, (recasts_mapMarks change).picked distinct apart,
      recasts_joinTexts.picked hf (fun _ _ _ _ same => same), List.map_map]
    rfl

end Forest

/-- an element that has the name, the attributes and the string value of another -/
structure Element.Alike {ι κ : Type} (e : Element ι) (e' : Element κ) : Prop where
  name : e'.name = e.name
  attributes : e'.attributes = e.attributes
  text : e'.children.text = e.children.text

theorem Element.alike_renewed {ι κ : Type} (change : ι → κ) (e : Element ι) :
    e.Alike (e.recast change (Forest.renewed change)) :=
  ⟨rfl, rfl, e.children.text_renewed change⟩

/-- an element with other marks and adjacent texts below it joined has the same compact form -/
theorem Element.xml_renewed {ι κ : Type} (change : ι → κ) (e : Element ι) :
    (e.recast change (Forest.renewed change)).toForest.xml = e.toForest.xml := by
  have renewed : (e.recast change (Forest.renewed change)).toForest = e.toForest.joinTexts.mapMarks change := rfl
  rw [Forest.xml, Forest.xml, renewed, Forest.render_mapMarks, Forest.render_joinTexts]

namespace Document

/-- from content that is written and read again the same elements are picked out -/
theorem select_reread {f : Forest Nat} (hf : f.marks.Nodup) :
    ∃ change : Nat → Nat, ∀ l : Locator,
      (ofForest f.erase.joinTexts).select l = (f.picked l.segments).map (Element.recast change (Forest.renewed change)) := by
  obtain ⟨change, renewed, picked⟩ := Forest.number_joinTexts hf 1
  refine ⟨change, fun l => ?_⟩
  have content : (ofForest f.erase.joinTexts).attached = f.renewed change := renewed
  rw [select_eq_picked (numbered_ofForest _), content, picked]

variable {d : Document} {c : Element Nat}

theorem nodeXml_of_mem (h : d.Numbered) (hc : c ∈ d.attached.allElements) : d.nodeXml c.mark = c.toForest.xml := by
  have here : Node.element c ∈ d.attached.nodes := Forest.mem_allElements.1 hc
  have known : c.mark ∈ d.marks := List.mem_append_left _ (Forest.mem_marks_of_mem here)
  have found : d.find? c.mark = some (.element c) := h.find?_of_mem (Or.inl here)
  rw [nodeXml, subtree, if_neg (h.ne_top known), found]
  rfl

/-- the compact form of an element is the text of a document with that element as its root -/
theorem parse_element {text : String} (h : parse text = .ok d) (hc : c ∈ d.attached.allElements) :
    parse (d.nodeXml c.mark) = .ok (ofForest (.element () c.name c.attributes c.children.erase.joinTexts .nil)) := by
  have here : Node.element c ∈ d.attached.nodes := Forest.mem_allElements.1 hc
  have wellFormed : c.toForest.erase.WellFormed :=
    (Forest.wellFormed_erase _).2 ((Built.parse h).wellFormed.attached.of_mem here)
  have noBlanks : c.toForest.erase.NoBlanks := (Forest.noBlanks_erase _).2 ((noBlanks_of_parse h).of_mem here)
  have read : readForest .document c.toForest.erase.xml = .ok c.toForest.erase.joinTexts := by
    rw [readForest_render wellFormed trivial (by rfl), Forest.dropBlanks_of_noBlanks (Forest.noBlanks_joinTexts noBlanks)]
  rw [nodeXml_of_mem (Built.parse h).numbered hc, parse, Forest.xml, ← Forest.render_erase, ← Forest.xml, read]
  rfl

/-- **Relative locators look at nothing but the subtree.** From the root of an element's own document they pick out what they pick out
from the element, with other numbers and with adjacent texts joined. -/
theorem selectFrom_own {text : String} (h : parse text = .ok d) (hc : c ∈ d.attached.allElements) :
    ∃ (own : Document) (root : Element Nat) (change : Nat → Nat), parse (d.nodeXml c.mark) = .ok own ∧ own.root? = some root ∧
      ∀ l : Locator, l.relative = true →
        own.selectFrom root.mark l = (d.selectFrom c.mark l).map (Element.recast change (Forest.renewed change)) := by
  have numbered := (Built.parse h).numbered
  have here : Node.element c ∈ d.attached.nodes := Forest.mem_allElements.1 hc
  have distinct : c.children.marks.Nodup := Forest.nodup_children numbered.attached here
  obtain ⟨change, renewed, picked⟩ := Forest.number_joinTexts distinct 2
  let own := ofForest (.element () c.name c.attributes c.children.erase.joinTexts .nil)
  let root : Element Nat := ⟨1, c.name, c.attributes, c.children.renewed change⟩
  have attached : own.attached = root.toForest := by
    have content : own.attached = .element 1 c.name c.attributes (c.children.erase.joinTexts.number 2) .nil := rfl
    rw [content, renewed]
    rfl
  refine ⟨own, root, change, parse_element h hc, by rw [root?, attached]; rfl, ?_⟩
  intro l relative
  have ownNumbered : own.Numbered := numbered_ofForest _
  have rootHere : Node.element root ∈ own.attached.nodes := by rw [attached]; exact List.mem_cons_self
  have above : d.selectFrom c.mark l = c.children.picked l.segments := by
    have below : d.children c.mark = c.children := numbered.children_of_mem (Or.inl here)
    rw [selectFrom_eq_picked numbered (attached_of_mem hc), if_pos relative, below]
  have alone : own.selectFrom root.mark l = (c.children.renewed change).picked l.segments := by
    have below : own.children root.mark = c.children.renewed change := ownNumbered.children_of_mem (Or.inl rootHere)
    rw [selectFrom_eq_picked ownNumbered (attached_of_mem (Forest.mem_allElements.2 rootHere)), if_pos relative, below]
  rw [alone, above, picked]

end Document

end XmlStore.Xml
