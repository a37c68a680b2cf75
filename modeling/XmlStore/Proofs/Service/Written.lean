/-
What the service writes, and what it refuses.

Content is written after it was read, or after an edit of what was read, so it can be read again; and then it is written the same
again, unless the edit has put in a text that is only blanks, which is left out whenever content is read (`Xml.Normal`). What is refused
as XML is told by the arguments of an operation and not by the document: the one thing that can go wrong with that is that the root
is deleted.

Main statements:
- `normal_of_normalize`, `Mutation.normal_of_content`: what is written is in normal form.
- `Mutation.blames_of_content`: what an edit of nodes is refused for.
-/
import XmlStore.Proofs.Service.Refinement
import XmlStore.Proofs.Xml.RoundTrip

namespace XmlStore

namespace Xml

/-- content in normal form: what is read from it is written just so -/
def Normal (content : String) : Prop := ∃ d, Document.parse content = .ok d ∧ d.xml = content

namespace Document

variable {d : Document}

theorem mem_roots_of_root? {root : Element Nat} (h : d.root? = some root) : root.mark ∈ d.attached.roots := by
  obtain ⟨others, elements⟩ : ∃ others, d.attached.elements = root :: others := List.head?_eq_some_iff.1 h
  simp [Forest.roots, elements]

/-- a document that was read has its root -/
theorem root_of_parse {text : String} (h : parse text = .ok d) : ∃ root, d.attached.Rooted root ∧ root ∈ d.attached.marks := by
  obtain ⟨root, first, rooted⟩ := rooted_of_parse h
  exact ⟨root.mark, rooted, Forest.mem_marks_of_mem_roots (mem_roots_of_root? first)⟩

/-- a document with its root and without blank texts is written in normal form -/
theorem normal_xml (hw : d.attached.WellFormed) {root : Nat} (hr : d.attached.Rooted root) (here : root ∈ d.attached.marks)
    (hb : d.attached.NoBlanks) : Normal d.xml := by
  have kept : d.attached.erase.joinTexts.dropBlanks = d.attached.erase.joinTexts :=
    Forest.dropBlanks_of_noBlanks (Forest.noBlanks_joinTexts ((Forest.noBlanks_erase _).2 hb))
  have reread : parse d.xml = .ok d.joined := by
    rw [xml, parse_xml_of_rooted hw hr, if_pos here, kept]
    rfl
  exact ⟨d.joined, reread, xml_joined d⟩

theorem normal_of_parse {text : String} (h : parse text = .ok d) : Normal d.xml := by
  obtain ⟨root, rooted, here⟩ := root_of_parse h
  exact normal_xml (Built.parse h).wellFormed.attached rooted here (noBlanks_of_parse h)

/-- an element of a document is found by its number -/
theorem requireElement_of_mem (h : d.Numbered) {e : Element Nat} (he : e ∈ d.attached.allElements) :
    d.requireElement e.mark = .ok e := by
  have found : d.find? e.mark = some (.element e) := h.find?_of_mem (Or.inl (Forest.mem_allElements.1 he))
  rw [requireElement, element?, found]
  rfl

end Document

end Xml

namespace Service

open Xml

/-! ## Whole documents -/

/-- content that is stored as a whole is in normal form -/
theorem normal_of_normalize {xml content : String} (h : normalize xml = .ok content) : Normal content := by
  obtain ⟨d, read, rfl⟩ := map_eq_ok.1 h
  exact Document.normal_of_parse (mapError_eq_ok.1 read)

/-- and it is refused just when it cannot be read -/
theorem parse_of_normalize_error {xml : String} {failure : Failure} (h : normalize xml = .error failure) :
    ∃ e, failure = .invalidXml e ∧ Document.parse xml = .error e := by
  obtain ⟨e, read, rfl⟩ := mapError_eq_error.1 (map_eq_error.1 h)
  exact ⟨e, rfl, read⟩

/-! ## Edits of nodes -/

/-- an edit is refused as such, or because the edited document could not be read -/
theorem Edit.content_eq_error {edit : Edit} {target : Target} {d : Document} {failure : Failure}
    (h : edit.content target d = .error failure) :
    ∃ first rest e, target.select d = first :: rest ∧ failure = .invalidXml e ∧
      (edit.apply d first.mark (rest.map Element.mark) = .error e ∨
        ∃ edited, edit.apply d first.mark (rest.map Element.mark) = .ok (some edited) ∧ Document.parse edited.xml = .error e) := by
  unfold Edit.content at h
  cases found : target.select d with
  | nil =>
    rw [found] at h
    cases h
  | cons first rest =>
    simp only [found, List.map_cons, bind_eq_error] at h
    rcases h with refused | ⟨outcome, applied, h⟩
    · obtain ⟨e, cause, rfl⟩ := mapError_eq_error.1 refused
      exact ⟨first, rest, e, rfl, rfl, Or.inl cause⟩
    · cases outcome with
      | none => cases h
      | some edited =>
        simp only [bind_eq_error, pure_ok, reduceCtorEq, and_false, exists_false, or_false] at h
        obtain ⟨e, unread, rfl⟩ := mapError_eq_error.1 h
        exact ⟨first, rest, e, rfl, rfl, Or.inr ⟨edited, mapError_eq_ok.1 applied, unread⟩⟩

namespace Mutation

variable {mutation : Mutation} {text : String} {d edited : Document} {edit : Edit} {first : Element Nat}
  {rest : List (Element Nat)} {target : Target}

/-- **What an edit writes** is in normal form, unless a blank text was asked for. -/
theorem normal_of_content (hd : Document.parse text = .ok d) (shows : mutation.Shows) (he : mutation.edit = .ok edit)
    {content : String} (h : edit.content target d = .ok (some content)) : Normal content := by
  obtain ⟨first, rest, edited, again, hits, applied, reread, rfl⟩ := Edit.content_eq_some h
  obtain ⟨root, rooted, -⟩ := Document.root_of_parse hd
  obtain ⟨wellFormed, rooted⟩ := rooted_apply hd he applied rooted
  have hit : first ∈ d.attached.allElements := (hits ▸ target.select_sublist hd).subset List.mem_cons_self
  have noBlanks : edited.attached.NoBlanks := by
    rw [← Forest.noBlanks_erase, Edit.attached_apply (Document.Built.parse hd).numbered applied]
    exact noBlanks_of_makes hd shows (makes_tree hd hit he applied)
  -- what is written was read before, so it has its root
  have here : root ∈ edited.attached.marks := by
    rw [Document.xml, Document.parse_xml_of_rooted wellFormed rooted] at reread
    split at reread
    · assumption
    · cases reread
  exact Document.normal_xml wellFormed rooted here noBlanks

/-! ## What is refused -/

/-- what an operation can be refused for as XML, whatever the document is: what is wrong with its arguments, or that the root would be
gone -/
def Blames (e : XmlError) : Mutation → Prop
  | .addNode xml => Document.parseFragment xml = .error e
  | .editText text => checkChars .text text.toList = .error e
  | .editName name => checkName name = .error e
  | .addAttribute name value => checkName name = .error e ∨ checkChars .attributeValue value.toList = .error e
  | .removeAttribute _ => False
  | .deleteNode => e = .noRootElement

theorem blames_of_edit {failure : Failure} (h : mutation.edit = .error failure) :
    ∃ e, failure = .invalidXml e ∧ mutation.Blames e := by
  cases mutation with
  | addNode xml =>
    cases read : Document.parseFragment xml with
    | ok fragment =>
      rw [edit, read] at h
      cases h
    | error e =>
      rw [edit, read] at h
      cases h
      exact ⟨e, rfl, read⟩
  | _ => cases h

/-- an edit of an element is refused for its arguments alone -/
theorem blames_of_apply (h : d.Numbered) (hit : first ∈ d.attached.allElements) (he : mutation.edit = .ok edit) {rest : List Nat}
    {e : XmlError} (refused : edit.apply d first.mark rest = .error e) : mutation.Blames e := by
  have found := Document.requireElement_of_mem h hit
  cases mutation with
  | addNode xml =>
    obtain ⟨fragment, -, rfl⟩ := map_eq_ok.1 he
    simp [Edit.apply, Document.appendFragment, found] at refused
  | editText text =>
    cases he
    have refused := map_eq_error.1 refused
    simp only [Document.setText, found, bind_eq_error, Except.ok.injEq] at refused
    rcases refused with refused | ⟨_, -, none | ⟨e, rfl, none⟩⟩
    · exact refused
    · cases none
    · split at none <;> cases none
  | editName name =>
    cases he
    have refused := map_eq_error.1 refused
    simp only [Document.rename, found, bind_eq_error] at refused
    rcases refused with refused | ⟨_, -, none | ⟨_, -, none⟩⟩
    · exact refused
    · cases none
    · cases none
  | addAttribute name value =>
    cases he
    have refused := map_eq_error.1 refused
    simp only [Document.setAttribute, found, bind_eq_error] at refused
    rcases refused with refused | ⟨_, -, refused | ⟨_, -, none | ⟨_, -, none⟩⟩⟩
    · exact Or.inl refused
    · exact Or.inr refused
    · cases none
    · cases none
  | removeAttribute name =>
    cases he
    simp [Edit.apply, Document.removeAttribute, found] at refused
  | deleteNode =>
    cases he
    cases refused

/-- the root is lost only by a deletion -/
theorem eq_deleteNode_of_lost (hd : Document.parse text = .ok d) (he : mutation.edit = .ok edit) {first : Nat} {rest : List Nat}
    (h : edit.apply d first rest = .ok (some edited)) {root : Nat} (hr : d.attached.Rooted root) (there : root ∈ d.attached.marks)
    (lost : root ∉ edited.attached.marks) : mutation = .deleteNode := by
  have numbered := (Document.Built.parse hd).numbered
  have roots : (edit.tree d first rest).roots = if edit = .delete ∧ root ∈ first :: rest then [] else [root] :=
    Edit.roots_tree numbered (hr.roots_of_mem there)
  rw [← Edit.attached_apply numbered h, (rooted_apply hd he h hr).2.roots_of_notMem lost] at roots
  split at roots
  · rename_i deleted
    obtain ⟨rfl, -⟩ := deleted
    cases mutation with
    | addNode xml =>
      obtain ⟨fragment, -, e⟩ := map_eq_ok.1 he
      cases e
    | deleteNode => rfl
    | _ => cases he
  · cases roots

/-- **What an edit of nodes is refused for** is told by its arguments, or the root was to be deleted. -/
theorem blames_of_content (hd : Document.parse text = .ok d) (he : mutation.edit = .ok edit) {failure : Failure}
    (h : edit.content target d = .error failure) : ∃ e, failure = .invalidXml e ∧ mutation.Blames e := by
  obtain ⟨first, rest, e, hits, rfl, cause⟩ := Edit.content_eq_error h
  have hit : first ∈ d.attached.allElements := (hits ▸ target.select_sublist hd).subset List.mem_cons_self
  refine ⟨e, rfl, ?_⟩
  rcases cause with refused | ⟨edited, applied, unread⟩
  · exact blames_of_apply (Document.Built.parse hd).numbered hit he refused
  · obtain ⟨root, rooted, there⟩ := Document.root_of_parse hd
    obtain ⟨wellFormed, outermost⟩ := rooted_apply hd he applied rooted
    rw [Document.xml, Document.parse_xml_of_rooted wellFormed outermost] at unread
    split at unread
    · cases unread
    · rename_i lost
      cases unread
      rw [eq_deleteNode_of_lost hd he applied rooted there lost]
      rfl

end Mutation

end Service

end XmlStore
