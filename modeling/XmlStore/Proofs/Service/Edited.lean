/-
What the edits of stored documents make of a tree.

An edit that is carried out is a sequence of single edits of the document that was loaded, so what holds after any such sequence
holds of what is to be written: it is well formed, and it is read again if it still has its root. All edits but a deletion keep
that.

Main statements:
- `Edit.attached_apply`: the tree after an edit, as a change of the tree before it.
- `reread_after_edits`: edits never make a document that cannot be read again, unless they lose its root, and only a deletion of
  the root does.
-/
import XmlStore.Proofs.Xml.Edits
import XmlStore.Service.Editing

namespace XmlStore.Service

open Xml

/-- the tree after an edit on its matches, of which `first` is the first -/
def Edit.tree (d : Document) (first : Nat) (rest : List Nat) : Edit → Forest Nat
  | .add fragment => d.attached.modify first fun e =>
    { e with children := e.children.append (fragment.attached.erase.number d.next) }
  | .setText text => d.attached.modify first fun e => { e with children := e.children.withText d.next text }
  | .rename name => d.attached.modify first fun e => { e with name }
  | .setAttribute name value => d.attached.modify first fun e => { e with attributes := e.attributes.set name value }
  | .removeAttribute name => d.attached.modify first fun e => { e with attributes := e.attributes.remove name }
  | .delete => (first :: rest).foldl (fun f id => f.remove id) d.attached

variable {d edited : Document} {edit : Edit} {first : Nat} {rest : List Nat}

/-- nodes taken out of a document one after the other are taken out of its tree -/
theorem attached_detachAll (h : d.Numbered) (ids : List Nat) :
    (ids.foldl (fun d id => (d.detach id).1) d).attached = ids.foldl (fun f id => f.remove id) d.attached := by
  induction ids generalizing d with
  | nil => rfl
  | cons id ids ih =>
    rw [List.foldl_cons, List.foldl_cons, ih (h.detach id), h.attached_detach]

theorem edits_detachAll (d : Document) (ids : List Nat) :
    Relation.ReflTransGen Document.EditsTo d (ids.foldl (fun d id => (d.detach id).1) d) := by
  induction ids generalizing d with
  | nil => exact .refl
  | cons id ids ih => exact .head (.detach id) (ih _)

/-- **An edit that is carried out** changes the tree as it says. -/
theorem Edit.attached_apply (hd : d.Numbered) (h : edit.apply d first rest = .ok (some edited)) :
    edited.attached = edit.tree d first rest := by
  cases edit with
  | add fragment =>
    obtain ⟨⟨_, _⟩, h, e⟩ := map_eq_ok.1 h
    cases e
    simp only [Document.appendFragment, bind_eq_ok, pure_ok, Except.ok.injEq, Prod.mk.injEq] at h
    obtain ⟨_, -, rfl, -⟩ := h
    rfl
  | setText text =>
    obtain ⟨_, h, e⟩ := map_eq_ok.1 h
    cases e
    exact hd.attached_setText h
  | rename name =>
    obtain ⟨_, h, e⟩ := map_eq_ok.1 h
    cases e
    simp only [Document.rename, bind_eq_ok, pure_ok, Except.ok.injEq] at h
    obtain ⟨_, -, _, -, rfl⟩ := h
    rfl
  | setAttribute name value =>
    obtain ⟨_, h, e⟩ := map_eq_ok.1 h
    cases e
    simp only [Document.setAttribute, bind_eq_ok, pure_ok, Except.ok.injEq] at h
    obtain ⟨_, -, _, -, _, -, rfl⟩ := h
    rfl
  | removeAttribute name =>
    obtain ⟨⟨_, removed⟩, h, e⟩ := map_eq_ok.1 h
    cases removed with
    | false => cases e
    | true =>
      cases e
      simp only [Document.removeAttribute, bind_eq_ok, pure_ok, Except.ok.injEq, Prod.mk.injEq] at h
      obtain ⟨_, -, rfl, -⟩ := h
      rfl
  | delete =>
    cases h
    exact attached_detachAll hd _

/-- an edit that is carried out is made of single ones -/
theorem Edit.edits_apply (hf : ∀ fragment, edit = .add fragment → fragment.Built)
    (h : edit.apply d first rest = .ok (some edited)) : Relation.ReflTransGen Document.EditsTo d edited := by
  cases edit with
  | add fragment =>
    obtain ⟨⟨_, _⟩, h, e⟩ := map_eq_ok.1 h
    cases e
    exact .single (.appendFragment (hf _ rfl) h)
  | setText text =>
    obtain ⟨_, h, e⟩ := map_eq_ok.1 h
    cases e
    exact .single (.setText h)
  | rename name =>
    obtain ⟨_, h, e⟩ := map_eq_ok.1 h
    cases e
    exact .single (.rename h)
  | setAttribute name value =>
    obtain ⟨_, h, e⟩ := map_eq_ok.1 h
    cases e
    exact .single (.setAttribute h)
  | removeAttribute name =>
    obtain ⟨⟨_, removed⟩, h, e⟩ := map_eq_ok.1 h
    cases removed with
    | false => cases e
    | true =>
      cases e
      exact .single (.removeAttribute h)
  | delete =>
    cases h
    exact edits_detachAll d _

theorem roots_removeAll {f : Forest Nat} (hf : f.marks.Nodup) (ids : List Nat) :
    (ids.foldl (fun f id => f.remove id) f).roots = f.roots.filter (· ∉ ids) := by
  induction ids generalizing f with
  | nil =>
    refine (List.filter_eq_self.2 ?_).symm
    intro m _
    exact decide_eq_true List.not_mem_nil
  | cons id ids ih =>
    rw [List.foldl_cons, ih (Forest.nodup_remove hf id), Forest.roots_remove hf, List.filter_filter]
    refine List.filter_congr ?_
    intro m _
    rw [← Bool.decide_and]
    exact decide_eq_decide.2 (by rw [List.mem_cons, not_or, and_comm])

/-- the root stands outside all elements after an edit, unless it was deleted -/
theorem Edit.roots_tree (hd : d.Numbered) {root : Nat} (kept : d.attached.roots = [root]) :
    (edit.tree d first rest).roots = if edit = .delete ∧ root ∈ first :: rest then [] else [root] := by
  cases edit with
  | delete =>
    rw [tree, roots_removeAll hd.attached, kept]
    by_cases hit : root ∈ first :: rest
    · rw [if_pos ⟨rfl, hit⟩, List.filter_eq_nil_iff]
      intro m hm out
      exact of_decide_eq_true out (List.mem_singleton.1 hm ▸ hit)
    · rw [if_neg fun deleted => hit deleted.2, List.filter_eq_self]
      intro m hm
      exact decide_eq_true (List.mem_singleton.1 hm ▸ hit)
  | _ =>
    rw [if_neg fun deleted => nomatch deleted.1]
    exact (Forest.roots_modify _ _).trans kept

/-- **Edits make nothing that cannot be read again**, unless they lose the root. After any edits of a document that was read,
whatever nodes they name, all names are names, attributes are distinct and all characters are those of XML, in what is attached
and in what was taken out. If the root is still attached, the text is read as the attached tree with adjacent texts joined and
blank ones left out, and otherwise no root is found. So what an edit of a stored document would write is refused for that reason
only, and only if the root is among the nodes to delete. -/
theorem reread_after_edits {text : String} {start : Document} (h : Document.parse text = .ok start) :
    ∃ root, start.root? = some root ∧
      (∀ d, Relation.ReflTransGen Document.EditsTo start d →
        d.WellFormed ∧
          Document.parse d.xml =
            if root.mark ∈ d.attached.marks then .ok (.ofForest d.attached.erase.joinTexts.dropBlanks)
            else .error .noRootElement) ∧
      ∀ (edit : Edit) (first : Nat) (rest : List Nat) (edited : Document) (failure : Failure),
        (∀ fragment, edit = .add fragment → ∃ xml, Document.parseFragment xml = .ok fragment) →
        edit.apply start first rest = .ok (some edited) →
        (readContent edited.xml = .error failure ↔
          failure = .invalidXml .noRootElement ∧ edit = .delete ∧ root.mark ∈ first :: rest) := by
  have built : start.Built := .parse h
  obtain ⟨root, hroot, rooted⟩ := Document.rooted_of_parse h
  have kept : start.attached.roots = [root.mark] := by
    obtain ⟨others, hl⟩ : ∃ others, start.attached.elements = root :: others := List.head?_eq_some_iff.1 hroot
    have present : root.mark ∈ start.attached.roots := by simp [Forest.roots, hl]
    exact rooted.roots_of_mem (Forest.mem_marks_of_mem_roots present)
  have reread : ∀ d, Relation.ReflTransGen Document.EditsTo start d →
      d.WellFormed ∧ Document.parse d.xml =
        if root.mark ∈ d.attached.marks then .ok (.ofForest d.attached.erase.joinTexts.dropBlanks)
        else .error .noRootElement := by
    intro d hd
    have wellFormed := (Document.built_of_edits built hd).wellFormed
    exact ⟨wellFormed, Document.parse_xml_of_rooted wellFormed.attached (Document.rooted_of_edits built hd rooted)⟩
  refine ⟨root, hroot, reread, ?_⟩
  intro edit first rest edited failure hfragment hedit
  have edits : Relation.ReflTransGen Document.EditsTo start edited := by
    apply Edit.edits_apply _ hedit
    intro fragment e
    obtain ⟨_, hx⟩ := hfragment fragment e
    exact .parseFragment hx
  have after := Document.rooted_of_edits built edits rooted
  -- the root is lost exactly if it is among the nodes that a deletion takes out
  have lost : root.mark ∉ edited.attached.marks ↔ edit = .delete ∧ root.mark ∈ first :: rest := by
    have left : (edit.tree start first rest).roots = if edit = .delete ∧ root.mark ∈ first :: rest then [] else [root.mark] :=
      Edit.roots_tree built.numbered kept
    rw [← Edit.attached_apply built.numbered hedit] at left
    constructor
    · intro gone
      rw [after.roots_of_notMem gone] at left
      split at left
      · assumption
      · cases left
    · intro deleted here
      rw [after.roots_of_mem here, if_pos deleted] at left
      cases left
  rw [readContent, (reread edited edits).2, ← lost]
  by_cases here : root.mark ∈ edited.attached.marks
  · simp [here]
  · simp [here, eq_comm]

/-- a document before any edits -/
def simpleDocument : Document :=
  .ofForest (.leaf () .comment "n" (.element () "a" [("k", "1")] (.leaf () .text "x" (.element () "b" []
    (.leaf () .text "y" .nil) .nil)) .nil))

/-- that document with a blank text in it, a copy of itself added to its root, a text taken out and another one added -/
def nestedDocument : Document :=
  ((((simpleDocument.mapForests (·.setLeaf 5 " ")).appendNodes 2 simpleDocument.attached.erase).detach 3).1.appendNodes 2
    (.leaf () .text "&" .nil))

theorem reread_after_edits_nested :
    Document.parse "<!--n--><a k='1'>x<b>y</b></a>" = .ok simpleDocument ∧
      Relation.ReflTransGen Document.EditsTo simpleDocument nestedDocument ∧ nestedDocument.WellFormed ∧
      nestedDocument.xml = "<!--n--><a k=\"1\"><b> </b><!--n--><a k=\"1\">x<b>y</b></a>&amp;</a>" ∧
      Document.parse nestedDocument.xml = .ok (.ofForest nestedDocument.attached.erase.joinTexts.dropBlanks) ∧
      Document.parse (nestedDocument.detach 2).1.xml = .error .noRootElement ∧
      ∃ edited, Edit.delete.apply simpleDocument 4 [2] = .ok (some edited) ∧
        readContent edited.xml = .error (.invalidXml .noRootElement) := by
  have read : Document.parse "<!--n--><a k='1'>x<b>y</b></a>" = .ok simpleDocument := by decide +kernel
  have edits : Relation.ReflTransGen Document.EditsTo simpleDocument nestedDocument := by
    have blanked : simpleDocument.setText 4 " " = .ok (simpleDocument.mapForests (·.setLeaf 5 " ")) := by decide +kernel
    have copied : (simpleDocument.mapForests (·.setLeaf 5 " ")).appendFragment 2 simpleDocument =
        .ok ((simpleDocument.mapForests (·.setLeaf 5 " ")).appendNodes 2 simpleDocument.attached.erase, [6, 7]) := by
      decide +kernel
    have added : (((simpleDocument.mapForests (·.setLeaf 5 " ")).appendNodes 2 simpleDocument.attached.erase).detach 3).1.setText
        2 "&" = .ok nestedDocument := by decide +kernel
    exact .tail (.tail (.tail (.single (.setText blanked)) (.appendFragment (.parse read) copied)) (.detach 3)) (.setText added)
  obtain ⟨root, hroot, reread, guard⟩ := reread_after_edits read
  obtain rfl : simpleDocument.root?.get (by decide +kernel) = root := by simp [hroot]
  obtain ⟨wellFormed, again⟩ := reread nestedDocument edits
  have gone := (reread (nestedDocument.detach 2).1 (edits.tail (.detach 2))).2
  rw [if_pos (by decide +kernel)] at again
  rw [if_neg (by decide +kernel)] at gone
  refine ⟨read, edits, wellFormed, by decide +kernel, again, gone, _, rfl, ?_⟩
  exact (guard .delete 4 [2] _ _ (by simp) rfl).2 ⟨rfl, rfl, by decide +kernel⟩

end XmlStore.Service
