/-
What edits make of a document that was read.

Every edit changes one element of the text or takes one node out of it, whatever node it names and wherever that is
(`EditsTo.attached`). So outside all elements there are never more than comments and the root that was read, and the root is lost
only if it is taken out itself (`Forest.Rooted`). That is all that a document has to be for its text to be read again.

Main statements:
- `Forest.Rooted.modify`, `Forest.Rooted.remove`: what one edit leaves outside all elements.
- `Document.rooted_of_edits`: what any edits leave there.
- `Document.parse_xml_of_rooted`: what the text is read as, with and without the root.
-/
import Mathlib.Logic.Relation
import XmlStore.Proofs.Xml.Preservation
import XmlStore.Proofs.Xml.Rereading

namespace XmlStore.Xml

namespace Forest

variable {ι : Type}

/-! ## The first text among siblings -/

/-- the siblings with the given text in place of the first text or CDATA, or after all others if there is none; the empty text
only takes that one out -/
def withText (fresh : ι) (text : String) : Forest ι → Forest ι
  | .nil => if text.isEmpty then .nil else .leaf fresh .text text .nil
  | .leaf mark kind value next =>
    if kind.isText then (if text.isEmpty then next else .leaf mark .text text next)
    else .leaf mark kind value (next.withText fresh text)
  | .element mark name attributes children next => .element mark name attributes children (next.withText fresh text)

theorem withText_of_none {f : Forest ι} (h : f.firstText? = none) (fresh : ι) (text : String) :
    f.withText fresh text = if text.isEmpty then f else f.append (.leaf fresh .text text .nil) := by
  induction f with
  | nil => rfl
  | leaf mark kind value next ih =>
    rw [firstText?] at h
    split at h
    · cases h
    · rename_i hk
      rw [withText, if_neg hk, ih h]
      split <;> rfl
  | element mark name attributes children next _ ihn =>
    rw [withText, ihn h]
    split <;> rfl

theorem mem_marks_of_firstText? {f : Forest ι} {mark : ι} (h : f.firstText? = some mark) : mark ∈ f.marks := by
  induction f with
  | nil => cases h
  | leaf i kind value next ih =>
    rw [firstText?] at h
    rw [marks_leaf, List.mem_cons]
    split at h
    · exact Or.inl (Option.some.inj h).symm
    · exact Or.inr (ih h)
  | element i name attributes children next _ ihn =>
    rw [marks_element, List.mem_cons, List.mem_append]
    exact Or.inr (Or.inr (ihn h))

section Marked

variable [DecidableEq ι]

theorem remove_firstText {f : Forest ι} (hf : f.marks.Nodup) {mark : ι} (h : f.firstText? = some mark) (fresh : ι)
    {text : String} (ht : text.isEmpty = true) : f.remove mark = f.withText fresh text := by
  induction f with
  | nil => cases h
  | leaf i kind value next ih =>
    rw [firstText?] at h
    rw [marks_leaf, List.nodup_cons] at hf
    by_cases hk : kind.isText = true
    · rw [if_pos hk, Option.some.injEq] at h
      rw [remove, if_pos h, withText, if_pos hk, if_pos ht]
    · rw [if_neg hk] at h
      have other : i ≠ mark := fun e => hf.1 (e ▸ mem_marks_of_firstText? h)
      rw [remove, if_neg other, withText, if_neg hk, ih hf.2 h]
  | element i name attributes children next _ ihn =>
    have apart := apart hf
    have beside : mark ∈ next.marks := mem_marks_of_firstText? h
    have other : i ≠ mark := fun e => apart.notBeside (e ▸ beside)
    rw [remove, if_neg other, withText, ihn apart.beside h, remove_of_notMem fun hc => apart.disjoint _ hc beside]

theorem setLeaf_firstText {f : Forest ι} (hf : f.marks.Nodup) {mark : ι} (h : f.firstText? = some mark) (fresh : ι)
    {text : String} (ht : text.isEmpty = false) : f.setLeaf mark text = f.withText fresh text := by
  have shown : ¬ text.isEmpty = true := by simp [ht]
  induction f with
  | nil => cases h
  | leaf i kind value next ih =>
    rw [firstText?] at h
    rw [marks_leaf, List.nodup_cons] at hf
    by_cases hk : kind.isText = true
    · rw [if_pos hk, Option.some.injEq] at h
      rw [setLeaf, if_pos h, withText, if_pos hk, if_neg shown]
    · rw [if_neg hk] at h
      have other : i ≠ mark := fun e => hf.1 (e ▸ mem_marks_of_firstText? h)
      rw [setLeaf, if_neg other, withText, if_neg hk, ih hf.2 h]
  | element i name attributes children next _ ihn =>
    have apart := apart hf
    have beside : mark ∈ next.marks := mem_marks_of_firstText? h
    rw [setLeaf, withText, ihn apart.beside h, (actsAt_setLeaf mark text).away fun hc => apart.disjoint _ hc beside]

theorem modify_congr {f : Forest ι} {mark : ι} {change change' : Element ι → Element ι}
    (h : ∀ e, .element e ∈ f.nodes → e.mark = mark → change e = change' e) : f.modify mark change = f.modify mark change' := by
  induction f with
  | nil => rfl
  | leaf i kind value next ih =>
    rw [modify, modify, ih fun e he => h e (mem_nodes_leaf.2 (Or.inr he))]
  | element i name attributes children next ihc ihn =>
    rw [modify, modify]
    by_cases hi : i = mark
    · rw [if_pos hi, if_pos hi, h _ (mem_nodes_element.2 (Or.inl rfl)) hi]
    · rw [if_neg hi, if_neg hi, ihc fun e he => h e (mem_nodes_element.2 (Or.inr (Or.inl he))),
        ihn fun e he => h e (mem_nodes_element.2 (Or.inr (Or.inr he)))]

theorem modify_self (f : Forest ι) (mark : ι) : (f.modify mark fun e => e) = f := by
  induction f with
  | nil => rfl
  | leaf i kind value next ih => rw [modify, ih]
  | element i name attributes children next ihc ihn => rw [modify, ihc, ihn, ite_self]

theorem nodup_remove {f : Forest ι} (hf : f.marks.Nodup) (mark : ι) : (f.remove mark).marks.Nodup := by
  by_cases known : mark ∈ f.marks
  · obtain ⟨n, hn, rfl⟩ := mem_marks.1 known
    exact (List.nodup_append.1 ((marks_remove hf hn).nodup_iff.1 hf)).1
  · rwa [remove_of_notMem known]

theorem notMem_remove {f : Forest ι} (hf : f.marks.Nodup) (mark : ι) : mark ∉ (f.remove mark).marks := by
  by_cases known : mark ∈ f.marks
  · obtain ⟨n, hn, rfl⟩ := mem_marks.1 known
    have split := (marks_remove hf hn).nodup_iff.1 hf
    intro left
    refine (List.nodup_append.1 split).2.2 _ left _ ?_ rfl
    rw [Node.marks_toForest]
    exact List.mem_cons_self
  · rwa [remove_of_notMem known]

theorem mem_of_mem_remove {f : Forest ι} (hf : f.marks.Nodup) {mark m : ι} (h : m ∈ (f.remove mark).marks) : m ∈ f.marks := by
  by_cases known : mark ∈ f.marks
  · obtain ⟨n, hn, rfl⟩ := mem_marks.1 known
    exact (marks_remove hf hn).mem_iff.2 (List.mem_append_left _ h)
  · rwa [remove_of_notMem known] at h

end Marked

/-! ## Outside all elements -/

/-- the marks of the elements that are in no other -/
def roots (f : Forest ι) : List ι :=
  f.elements.map Element.mark

@[simp] theorem roots_nil : (nil : Forest ι).roots = [] := rfl

@[simp] theorem roots_leaf (mark : ι) (kind : LeafKind) (value : String) (next : Forest ι) :
    (leaf mark kind value next).roots = next.roots := rfl

@[simp] theorem roots_element (mark : ι) (name : String) (attributes : Attributes) (children next : Forest ι) :
    (element mark name attributes children next).roots = mark :: next.roots := rfl

theorem mem_marks_of_mem_roots {f : Forest ι} {mark : ι} (h : mark ∈ f.roots) : mark ∈ f.marks := by
  obtain ⟨e, he, rfl⟩ := List.mem_map.1 h
  exact mem_marks_of_mem (n := .element e) (mem_nodes_of_mem_siblings (mem_elements.1 he))

section Marked

variable [DecidableEq ι] {mark : ι}

theorem bare_modify {f : Forest ι} (h : f.Bare) (change : Element ι → Element ι) : (f.modify mark change).Bare := by
  induction f with
  | nil => exact h
  | leaf i kind value next ih =>
    cases kind with
    | text => exact ⟨h.1, ih h.2⟩
    | cdata => exact h
    | comment => exact ih h
  | element i name attributes children next _ ihn =>
    rw [modify]
    split
    · exact h
    · exact ihn h

theorem bare_remove {f : Forest ι} (h : f.Bare) : (f.remove mark).Bare := by
  induction f with
  | nil => exact h
  | leaf i kind value next ih =>
    rw [remove]
    cases kind with
    | text =>
      split
      · exact h.2
      · exact ⟨h.1, ih h.2⟩
    | cdata => exact absurd h id
    | comment =>
      split
      · exact h
      · exact ih h
  | element i name attributes children next _ ihn =>
    rw [remove]
    split
    · exact h
    · exact ihn h

theorem roots_modify (f : Forest ι) (change : Element ι → Element ι) : (f.modify mark change).roots = f.roots := by
  induction f with
  | nil => rfl
  | leaf i kind value next ih => exact ih
  | element i name attributes children next _ ihn =>
    rw [modify]
    by_cases hi : i = mark
    · rw [if_pos hi, roots_element, roots_element]
    · rw [if_neg hi, roots_element, roots_element, ihn]

theorem roots_remove {f : Forest ι} (hf : f.marks.Nodup) : (f.remove mark).roots = f.roots.filter (· ≠ mark) := by
  induction f with
  | nil => rfl
  | leaf i kind value next ih =>
    rw [marks_leaf, List.nodup_cons] at hf
    rw [remove]
    by_cases hi : i = mark
    · have apart : ∀ m ∈ next.roots, decide (m ≠ mark) = true := by
        intro m hm
        exact decide_eq_true fun e => hf.1 (hi ▸ e ▸ mem_marks_of_mem_roots hm)
      rw [if_pos hi, roots_leaf, List.filter_eq_self.2 apart]
    · rw [if_neg hi, roots_leaf, roots_leaf, ih hf.2]
  | element i name attributes children next _ ihn =>
    have apart := apart hf
    rw [remove]
    by_cases hi : i = mark
    · have others : ∀ m ∈ next.roots, decide (m ≠ mark) = true := by
        intro m hm
        exact decide_eq_true fun e => apart.notBeside (hi ▸ e ▸ mem_marks_of_mem_roots hm)
      rw [if_pos hi, roots_element, List.filter_cons_of_neg (by simpa using hi), List.filter_eq_self.2 others]
    · rw [if_neg hi, roots_element, roots_element, List.filter_cons_of_pos (by simpa using hi), ihn apart.beside]

theorem modify_of_roots_nil {f : Forest ι} (h : f.roots = []) (change : Element ι → Element ι) : f.modify mark change = f := by
  induction f with
  | nil => rfl
  | leaf i kind value next ih => rw [modify, ih h]
  | element => cases h

end Marked

/-- what a document keeps outside all elements: comments, and its root as long as it is not lost -/
structure Rooted (root : ι) (f : Forest ι) : Prop where
  bare : f.Bare
  roots : f.roots = [root] ∨ (f.roots = [] ∧ root ∉ f.marks)

namespace Rooted

variable {root : ι} {f : Forest ι}

theorem roots_of_mem (h : f.Rooted root) (hr : root ∈ f.marks) : f.roots = [root] :=
  h.roots.resolve_right fun lost => lost.2 hr

theorem roots_of_notMem (h : f.Rooted root) (hr : root ∉ f.marks) : f.roots = [] := by
  rcases h.roots with kept | lost
  · exact absurd (mem_marks_of_mem_roots (kept ▸ List.mem_singleton_self root)) hr
  · exact lost.1

variable [DecidableEq ι] {mark : ι}

theorem modify (h : f.Rooted root) (change : Element ι → Element ι) : (f.modify mark change).Rooted root := by
  refine ⟨bare_modify h.bare change, ?_⟩
  rcases h.roots with kept | lost
  · exact Or.inl ((roots_modify f change).trans kept)
  · rw [modify_of_roots_nil lost.1]
    exact Or.inr lost

theorem remove (h : f.Rooted root) (hf : f.marks.Nodup) : (f.remove mark).Rooted root := by
  refine ⟨bare_remove h.bare, ?_⟩
  rw [roots_remove hf]
  rcases h.roots with kept | lost
  · rw [kept]
    by_cases hm : root = mark
    · subst hm
      exact Or.inr ⟨by simp, notMem_remove hf root⟩
    · exact Or.inl (by simp [hm])
  · rw [lost.1]
    exact Or.inr ⟨rfl, fun left => lost.2 (mem_of_mem_remove hf left)⟩

end Rooted

theorem roots_erase_length (f : Forest ι) : f.erase.elements.length = f.roots.length := by
  induction f with
  | nil => rfl
  | leaf mark kind value next ih => exact ih
  | element mark name attributes children next _ ihn => exact congrArg (· + 1) ihn

theorem bare_erase (f : Forest ι) : f.erase.Bare ↔ f.Bare := by
  induction f with
  | nil => exact Iff.rfl
  | leaf mark kind value next ih => cases kind <;> simp only [erase, Bare, ih]
  | element mark name attributes children next _ ihn => exact ihn

end Forest

namespace Document

/-! ## Edits -/

/-- what a document becomes by one edit that is not refused; what is added was read, and maybe edited, before -/
inductive EditsTo (d : Document) : Document → Prop where
  | rename {d' : Document} {id : Nat} {name : String} (h : d.rename id name = .ok d') : EditsTo d d'
  | setText {d' : Document} {id : Nat} {text : String} (h : d.setText id text = .ok d') : EditsTo d d'
  | setAttribute {d' : Document} {id : Nat} {name value : String} (h : d.setAttribute id name value = .ok d') : EditsTo d d'
  | removeAttribute {d' : Document} {id : Nat} {name : String} {removed : Bool}
      (h : d.removeAttribute id name = .ok (d', removed)) : EditsTo d d'
  | appendFragment {d' fragment : Document} {id : Nat} {added : List Nat} (hf : Built fragment)
      (h : d.appendFragment id fragment = .ok (d', added)) : EditsTo d d'
  | detach (id : Nat) : EditsTo d (d.detach id).1

variable {d d' : Document}

theorem EditsTo.built (hd : d.Built) (h : d.EditsTo d') : d'.Built := by
  cases h with
  | rename h => exact .rename hd h
  | setText h => exact .setText hd h
  | setAttribute h => exact .setAttribute hd h
  | removeAttribute h => exact .removeAttribute hd h
  | appendFragment hf h => exact .appendFragment hd hf h
  | detach id => exact .detach hd id

theorem built_of_edits (hd : d.Built) (h : Relation.ReflTransGen EditsTo d d') : d'.Built := by
  induction h with
  | refl => exact hd
  | tail _ h ih => exact h.built ih

/-- an operation below an element changes that element in the text, if it is there, and nothing else -/
theorem Numbered.attached_below (h : d.Numbered) {id mark : Nat} {e : Element Nat} (he : d.element? id = some e)
    (hm : mark ∈ e.children.marks) {op : Forest Nat → Forest Nat} (hop : Forest.ActsAt mark op) :
    op d.attached = d.attached.modify id fun e => { e with children := op e.children } := by
  have inside : ∀ {f : Forest Nat}, .element e ∈ f.nodes → mark ∈ f.marks := by
    intro f hf
    obtain ⟨n, hn, rfl⟩ := Forest.mem_marks.1 hm
    exact Forest.mem_marks_of_mem (Forest.mem_nodes_of_mem_children hf hn)
  obtain ⟨rfl, ⟨ha, -⟩ | ⟨hd, away⟩⟩ := h.mem_of_element? he
  · exact hop.below h.attached ha hm
  · rw [Forest.modify_of_notMem away, hop.away fun ha => h.disjoint ha (inside hd)]

theorem Numbered.nodup_children (h : d.Numbered) {id : Nat} {e : Element Nat} (he : d.element? id = some e) :
    e.children.marks.Nodup := by
  obtain ⟨-, ⟨ha, -⟩ | ⟨hd, -⟩⟩ := h.mem_of_element? he
  · exact Forest.nodup_children h.attached ha
  · exact Forest.nodup_children h.detached hd

/-- a change at a number is one of the element that has the number -/
theorem Numbered.modify_congr (h : d.Numbered) {id : Nat} {e : Element Nat} (he : d.element? id = some e)
    {change change' : Element Nat → Element Nat} (same : change e = change' e) :
    d.attached.modify id change = d.attached.modify id change' := by
  refine Forest.modify_congr ?_
  rintro e' he' rfl
  have found : d.find? e'.mark = some (.element e') := h.find?_of_mem (Or.inl he')
  rw [element?, found] at he
  cases he
  exact same

/-- setting a text changes one element of the document's text by the first text in it -/
theorem Numbered.attached_setText (h : d.Numbered) {id : Nat} {text : String} (hd : d.setText id text = .ok d') :
    d'.attached = d.attached.modify id fun e => { e with children := e.children.withText d.next text } := by
  simp only [Document.setText, bind_eq_ok] at hd
  obtain ⟨_, -, e, hreq, hd⟩ := hd
  have found := element?_of_requireElement hreq
  have below := h.nodup_children found
  cases hfirst : e.children.firstText? with
  | some old =>
    have inside := Forest.mem_marks_of_firstText? hfirst
    cases hempty : text.isEmpty with
    | true =>
      simp only [hfirst, hempty, pure_ok, Except.ok.injEq] at hd
      subst hd
      rw [h.attached_detach, h.attached_below found inside (Forest.actsAt_remove old)]
      exact h.modify_congr found (by rw [Forest.remove_firstText below hfirst d.next hempty])
    | false =>
      simp only [hfirst, hempty, pure_ok, Except.ok.injEq] at hd
      subst hd
      calc d.attached.setLeaf old text
        _ = d.attached.modify id fun e => { e with children := e.children.setLeaf old text } :=
          h.attached_below found inside (Forest.actsAt_setLeaf old text)
        _ = d.attached.modify id fun e => { e with children := e.children.withText d.next text } :=
          h.modify_congr found (by rw [Forest.setLeaf_firstText below hfirst d.next hempty])
  | none =>
    have added := Forest.withText_of_none hfirst d.next text
    cases hempty : text.isEmpty with
    | true =>
      simp only [hfirst, hempty, pure_ok, Except.ok.injEq] at hd
      subst hd
      calc d.attached
        _ = d.attached.modify id fun e => e := (Forest.modify_self _ _).symm
        _ = d.attached.modify id fun e => { e with children := e.children.withText d.next text } :=
          h.modify_congr found (by rw [added, if_pos hempty])
    | false =>
      simp only [hfirst, hempty, pure_ok, Except.ok.injEq] at hd
      subst hd
      exact h.modify_congr found (by rw [added, hempty]; rfl)

/-- **What an edit does to the text of a document**: it changes one element or takes one node out. -/
theorem EditsTo.attached (hd : d.Numbered) (h : d.EditsTo d') :
    (∃ id change, d'.attached = d.attached.modify id change) ∨ ∃ id, d'.attached = d.attached.remove id := by
  cases h with
  | rename h =>
    simp only [Document.rename, bind_eq_ok, pure_ok, Except.ok.injEq] at h
    obtain ⟨_, -, _, -, rfl⟩ := h
    exact Or.inl ⟨_, _, rfl⟩
  | setText h => exact Or.inl ⟨_, _, hd.attached_setText h⟩
  | setAttribute h =>
    simp only [Document.setAttribute, bind_eq_ok, pure_ok, Except.ok.injEq] at h
    obtain ⟨_, -, _, -, _, -, rfl⟩ := h
    exact Or.inl ⟨_, _, rfl⟩
  | removeAttribute h =>
    simp only [Document.removeAttribute, bind_eq_ok, pure_ok, Except.ok.injEq, Prod.mk.injEq] at h
    obtain ⟨_, -, rfl, -⟩ := h
    exact Or.inl ⟨_, _, rfl⟩
  | appendFragment _ h =>
    simp only [Document.appendFragment, bind_eq_ok, pure_ok, Except.ok.injEq, Prod.mk.injEq] at h
    obtain ⟨_, -, rfl, -⟩ := h
    exact Or.inl ⟨_, _, rfl⟩
  | detach id => exact Or.inr ⟨id, hd.attached_detach id⟩

/-! ## Edited documents read again -/

/-- a document that was read has one root, and nothing else outside it but comments -/
theorem rooted_of_parse {text : String} (h : parse text = .ok d) :
    ∃ root, d.root? = some root ∧ d.attached.Rooted root.mark := by
  obtain ⟨f, hf, rfl⟩ := map_eq_ok.1 h
  obtain ⟨-, -, hbare, hs⟩ := readForest_sound hf
  have bare : (ofForest f).attached.Bare := by
    rw [← Forest.bare_erase, ofForest, Forest.erase_number]
    exact hbare rfl
  have one : (ofForest f).attached.roots.length = 1 := by
    rw [← Forest.roots_erase_length, ofForest, Forest.erase_number]
    exact hs
  rw [Forest.roots, List.length_map, List.length_eq_one_iff] at one
  obtain ⟨root, only⟩ := one
  refine ⟨root, by rw [root?, only]; rfl, bare, Or.inl ?_⟩
  rw [Forest.roots, only, List.map_singleton]

theorem EditsTo.rooted (hd : d.Numbered) (h : d.EditsTo d') {root : Nat} (hr : d.attached.Rooted root) :
    d'.attached.Rooted root := by
  rcases h.attached hd with ⟨id, change, e⟩ | ⟨id, e⟩
  · rw [e]
    exact hr.modify change
  · rw [e]
    exact hr.remove hd.attached

/-- **Edits leave nothing outside all elements** but comments, and the root or nothing. -/
theorem rooted_of_edits (hd : d.Built) (h : Relation.ReflTransGen EditsTo d d') {root : Nat} (hr : d.attached.Rooted root) :
    d'.attached.Rooted root := by
  induction h with
  | refl => exact hr
  | tail before h ih => exact h.rooted (built_of_edits hd before).numbered ih

/-- **What an edited document is read as** again: itself with adjacent texts joined and blank ones dropped as long as it has its
root, and nothing afterwards. -/
theorem parse_xml_of_rooted {f : Forest Nat} (hw : f.WellFormed) {root : Nat} (hr : f.Rooted root) :
    parse f.xml = if root ∈ f.marks then .ok (ofForest f.erase.joinTexts.dropBlanks) else .error .noRootElement := by
  have wellFormed := (Forest.wellFormed_erase f).2 hw
  have bare := (Forest.bare_erase f).2 hr.bare
  have outside := Forest.roots_erase_length f
  have written : f.xml = f.erase.xml := by rw [Forest.xml, Forest.xml, Forest.render_erase]
  rw [parse, written]
  by_cases kept : root ∈ f.marks
  · have one : Shape.document.Admits f.erase.elements.length := by
      rw [outside, hr.roots_of_mem kept]
      rfl
    rw [if_pos kept, readForest_render wellFormed bare one]
    rfl
  · have none : f.erase.joinTexts.dropBlanks.elements = [] := by
      rw [← List.length_eq_zero_iff, Forest.length_elements_dropBlanks, Forest.length_elements_joinTexts, outside,
        hr.roots_of_notMem kept]
      rfl
    rw [if_neg kept, readForest, Forest.xml, String.toList_ofList, dropMark_render bare, run_render wellFormed (Or.inr bare)]
    simp [checkShape, none]

end Document

end XmlStore.Xml
