/-
Documents that are read and then edited.

`Document.Built` holds of what any sequence of edits makes of a document that was read; edits that are refused change nothing and
need no mention. In such a document no number is given twice, attached or taken out (`Document.Numbered`).

Main statements:
- `Document.Built.induct`: what an edit comes to, and so what is to be shown for all sequences of them.
- `Document.Built.numbered`: the numbers of a built document are distinct, and below the next one to be given.
- `Document.Numbered.find?_of_mem`: so each node is found under its number.
-/
import XmlStore.Proofs.Outcomes
import XmlStore.Proofs.Xml.Marks
import XmlStore.Xml.Edit

namespace XmlStore.Xml.Document

/-- what any sequence of edits makes of a document that was read; what is added may have been made in the same way -/
inductive Built : Document → Prop where
  | parse {text : String} {d : Document} (h : parse text = .ok d) : Built d
  | parseFragment {text : String} {d : Document} (h : parseFragment text = .ok d) : Built d
  | rename {d d' : Document} {id : Nat} {name : String} (hd : Built d) (h : d.rename id name = .ok d') : Built d'
  | setText {d d' : Document} {id : Nat} {text : String} (hd : Built d) (h : d.setText id text = .ok d') : Built d'
  | setAttribute {d d' : Document} {id : Nat} {name value : String} (hd : Built d)
      (h : d.setAttribute id name value = .ok d') : Built d'
  | removeAttribute {d d' : Document} {id : Nat} {name : String} {removed : Bool} (hd : Built d)
      (h : d.removeAttribute id name = .ok (d', removed)) : Built d'
  | appendFragment {d d' fragment : Document} {id : Nat} {added : List Nat} (hd : Built d) (hf : Built fragment)
      (h : d.appendFragment id fragment = .ok (d', added)) : Built d'
  | detach {d : Document} (hd : Built d) (id : Nat) : Built (d.detach id).1

/-- the numbers of all nodes, attached or taken out -/
def marks (d : Document) : List Nat :=
  d.attached.marks ++ d.detached.marks

/-- no number is given twice, that of the document itself to no node, and none that is still to be given -/
structure Numbered (d : Document) : Prop where
  nodup : d.marks.Nodup
  given : ∀ m ∈ d.marks, 0 < m ∧ m < d.next
  next : 0 < d.next

variable {d d' : Document}

/-! ## Nodes by their numbers -/

theorem element?_of_requireElement {id : Nat} {e : Element Nat} (h : d.requireElement id = .ok e) : d.element? id = some e := by
  unfold requireElement at h
  split at h
  · rename_i hf
    simp only [Except.ok.injEq] at h
    rw [hf, h]
  · simp at h

/-! ## What an edit comes to -/

/-- what a document becomes by any edit: an element is changed but for what is in it, a leaf gets another value, an element gets more
nodes, a node is taken out, or nothing happens -/
inductive Becomes (d : Document) : Document → Prop where
  | changed (id : Nat) {change : Element Nat → Element Nat} (kept : ∀ e, (change e).children = e.children) :
      Becomes d (d.modify id change)
  | rewritten (id : Nat) (value : String) : Becomes d (d.mapForests (·.setLeaf id value))
  | extended {id : Nat} {e : Element Nat} (found : d.element? id = some e) (nodes : Forest Unit) : Becomes d (d.appendNodes id nodes)
  | detached (id : Nat) : Becomes d (d.detach id).1
  | same : Becomes d d

theorem becomes_setText {id : Nat} {text : String} (h : d.setText id text = .ok d') : d.Becomes d' := by
  simp only [setText, bind_eq_ok] at h
  obtain ⟨_, -, e, found, h⟩ := h
  split at h
  · cases h
    exact .detached _
  · cases h
    exact .rewritten _ text
  · cases h
    exact .same
  · cases h
    exact .extended (element?_of_requireElement found) _

/-- what holds of every document that is read, and is kept whatever a document becomes, holds of every document that was read and
edited -/
theorem Built.induct {P : Document → Prop} (read : ∀ f, P (ofForest f)) (step : ∀ {d d'}, P d → d.Becomes d' → P d')
    (h : d.Built) : P d := by
  induction h with
  | parse h =>
    obtain ⟨f, -, rfl⟩ := map_eq_ok.1 h
    exact read f
  | parseFragment h =>
    obtain ⟨f, -, rfl⟩ := map_eq_ok.1 h
    exact read f
  | rename _ h ih =>
    simp only [Document.rename, bind_eq_ok, pure_ok, Except.ok.injEq] at h
    obtain ⟨_, -, _, -, rfl⟩ := h
    exact step ih (.changed _ fun _ => rfl)
  | setText _ h ih => exact step ih (becomes_setText h)
  | setAttribute _ h ih =>
    simp only [Document.setAttribute, bind_eq_ok, pure_ok, Except.ok.injEq] at h
    obtain ⟨_, -, _, -, _, -, rfl⟩ := h
    exact step ih (.changed _ fun _ => rfl)
  | removeAttribute _ h ih =>
    simp only [Document.removeAttribute, bind_eq_ok, pure_ok, Except.ok.injEq, Prod.mk.injEq] at h
    obtain ⟨_, -, rfl, -⟩ := h
    exact step ih (.changed _ fun _ => rfl)
  | appendFragment _ _ h ih _ =>
    simp only [Document.appendFragment, bind_eq_ok, pure_ok, Except.ok.injEq, Prod.mk.injEq] at h
    obtain ⟨_, found, rfl, -⟩ := h
    exact step ih (.extended (element?_of_requireElement found) _)
  | detach _ id ih => exact step ih (.detached id)

namespace Numbered

theorem attached (h : d.Numbered) : d.attached.marks.Nodup := (List.nodup_append.1 h.nodup).1

theorem detached (h : d.Numbered) : d.detached.marks.Nodup := (List.nodup_append.1 h.nodup).2.1

theorem disjoint (h : d.Numbered) {m : Nat} (ha : m ∈ d.attached.marks) : m ∉ d.detached.marks := fun hd =>
  (List.nodup_append.1 h.nodup).2.2 m ha m hd rfl

theorem ne_top (h : d.Numbered) {m : Nat} (hm : m ∈ d.marks) : m ≠ top := Nat.ne_of_gt (h.given m hm).1

/-- a node that is found is attached or taken out, but not both -/
theorem mem_of_find? (h : d.Numbered) {id : Nat} {n : Node Nat} (hf : d.find? id = some n) :
    n.mark = id ∧ ((n ∈ d.attached.nodes ∧ id ∉ d.detached.marks) ∨ (n ∈ d.detached.nodes ∧ id ∉ d.attached.marks)) := by
  unfold find? at hf
  cases ha : d.attached.find? id with
  | some m =>
    rw [ha, Option.some_or, Option.some.injEq] at hf
    subst hf
    obtain ⟨hm, rfl⟩ := Forest.mem_of_find? ha
    exact ⟨rfl, Or.inl ⟨hm, h.disjoint (Forest.mem_marks_of_mem hm)⟩⟩
  | none =>
    rw [ha, Option.none_or] at hf
    obtain ⟨hm, rfl⟩ := Forest.mem_of_find? hf
    exact ⟨rfl, Or.inr ⟨hm, fun hn => h.disjoint hn (Forest.mem_marks_of_mem hm)⟩⟩

theorem mem_of_element? (h : d.Numbered) {id : Nat} {e : Element Nat} (he : d.element? id = some e) :
    e.mark = id ∧ ((.element e ∈ d.attached.nodes ∧ id ∉ d.detached.marks) ∨
      (.element e ∈ d.detached.nodes ∧ id ∉ d.attached.marks)) := by
  obtain ⟨n, hf, hn⟩ := Option.bind_eq_some_iff.1 he
  cases n with
  | leaf => simp [Node.element?] at hn
  | element e' =>
    simp only [Node.element?, Option.some.injEq] at hn
    exact hn ▸ h.mem_of_find? hf

/-- a node of either part is found under its number -/
theorem find?_of_mem (h : d.Numbered) {n : Node Nat} (hn : n ∈ d.attached.nodes ∨ n ∈ d.detached.nodes) :
    d.find? n.mark = some n := by
  rw [find?]
  rcases hn with hn | hn
  · rw [Forest.find?_of_mem h.attached hn, Option.some_or]
  · have other : n.mark ∉ d.attached.marks := fun ha => h.disjoint ha (Forest.mem_marks_of_mem hn)
    rw [Forest.find?_eq_none other, Option.none_or, Forest.find?_of_mem h.detached hn]

theorem element?_of_mem (h : d.Numbered) {e : Element Nat} (there : .element e ∈ d.attached.nodes ∨ .element e ∈ d.detached.nodes) :
    d.element? e.mark = some e := by
  rw [element?, show e.mark = (Node.element e).mark from rfl, h.find?_of_mem there]
  rfl

theorem children_of_mem (h : d.Numbered) {n : Node Nat} (hn : n ∈ d.attached.nodes ∨ n ∈ d.detached.nodes) :
    d.children n.mark = n.children := by
  have known : n.mark ∈ d.marks := List.mem_append.2 (hn.imp Forest.mem_marks_of_mem Forest.mem_marks_of_mem)
  rw [children, if_neg (h.ne_top known), h.find?_of_mem hn]
  rfl

/-- what is below a number: the whole text, what a node holds, or nothing -/
theorem children_cases (h : d.Numbered) (p : Nat) :
    (p = top ∧ d.children p = d.attached) ∨
      (∃ n, (n ∈ d.attached.nodes ∨ n ∈ d.detached.nodes) ∧ n.mark = p ∧ d.children p = n.children) ∨ d.children p = .nil := by
  rw [children]
  split
  · rename_i hp
    exact Or.inl ⟨hp, rfl⟩
  · cases hf : d.find? p with
    | none => exact Or.inr (Or.inr rfl)
    | some n =>
      obtain ⟨e, hn⟩ := h.mem_of_find? hf
      exact Or.inr (Or.inl ⟨n, hn.imp And.left And.left, e, rfl⟩)

/-- what is below a number is in one of the two parts -/
theorem mem_nodes_below (h : d.Numbered) {p : Nat} {n : Node Nat} (hn : n ∈ (d.children p).nodes) :
    n ∈ d.attached.nodes ∨ n ∈ d.detached.nodes := by
  rcases h.children_cases p with ⟨-, e⟩ | ⟨m, hm, -, e⟩ | e
  · exact Or.inl (e ▸ hn)
  · rw [e] at hn
    exact hm.imp (Forest.mem_nodes_of_mem_children · hn) (Forest.mem_nodes_of_mem_children · hn)
  · rw [e] at hn
    exact absurd hn List.not_mem_nil

theorem mem_marks_below (h : d.Numbered) {p m : Nat} (hm : m ∈ (d.children p).marks) : m ∈ d.marks := by
  obtain ⟨n, hn, rfl⟩ := Forest.mem_marks.1 hm
  exact List.mem_append.2 ((h.mem_nodes_below hn).imp Forest.mem_marks_of_mem Forest.mem_marks_of_mem)

/-- and each node of it is known by its own number -/
theorem children_of_children (h : d.Numbered) (p : Nat) : ∀ m ∈ (d.children p).nodes, d.children m.mark = m.children :=
  fun _ hm => h.children_of_mem (h.mem_nodes_below hm)

/-! ## What edits do to the numbers -/

theorem of_perm (h : d.Numbered) (hp : d'.marks.Perm d.marks) (hn : d'.next = d.next) : d'.Numbered :=
  ⟨hp.nodup_iff.2 h.nodup, fun m hm => hn ▸ h.given m (hp.mem_iff.1 hm), hn ▸ h.next⟩

theorem mapForests (h : d.Numbered) {change : Forest Nat → Forest Nat} (hc : ∀ f, (change f).marks = f.marks) :
    (d.mapForests change).Numbered := by
  refine h.of_perm ?_ rfl
  rw [marks, Document.mapForests, hc, hc]
  exact List.Perm.refl _

theorem marks_appendNodes (h : d.Numbered) {id : Nat} {e : Element Nat} (he : d.element? id = some e) (nodes : Forest Unit) :
    (d.appendNodes id nodes).marks.Perm (d.marks ++ List.range' d.next nodes.size) := by
  obtain ⟨rfl, hm⟩ := h.mem_of_element? he
  rw [← Forest.marks_number nodes d.next]
  simp only [marks, appendNodes, modify, Document.mapForests]
  rcases hm with ⟨ha, hd⟩ | ⟨hd, ha⟩
  · rw [Forest.modify_of_notMem hd]
    refine ((Forest.marks_modify_append h.attached ha _).append_right _).trans ?_
    rw [List.append_assoc, List.append_assoc]
    exact List.perm_append_comm.append_left _
  · rw [Forest.modify_of_notMem ha, List.append_assoc]
    exact (Forest.marks_modify_append h.detached hd _).append_left _

theorem appendNodes (h : d.Numbered) {id : Nat} {e : Element Nat} (he : d.element? id = some e) (nodes : Forest Unit) :
    (d.appendNodes id nodes).Numbered := by
  have perm := h.marks_appendNodes he nodes
  refine ⟨perm.nodup_iff.2 (List.nodup_append.2 ⟨h.nodup, List.nodup_range', ?_⟩), ?_, ?_⟩
  · intro m hm m' hm' e
    have old := (h.given m hm).2
    have new := List.mem_range'_1.1 hm'
    omega
  · intro m hm
    rcases List.mem_append.1 (perm.mem_iff.1 hm) with hm | hm
    · exact ⟨(h.given m hm).1, Nat.lt_add_right _ (h.given m hm).2⟩
    · have new := List.mem_range'_1.1 hm
      exact ⟨Nat.lt_of_lt_of_le h.next new.1, new.2⟩
  · exact Nat.lt_add_right _ h.next

/-- a node that is below something leaves the part where it is for the end of what was taken out -/
theorem detach_of_parent? (h : d.Numbered) {id p : Nat} (above : d.parent? id = some p) :
    ∃ n : Node Nat, n.mark = id ∧
      ((n ∈ d.attached.nodes ∧ (d.detach id).1 =
          { d with attached := d.attached.remove id, detached := d.detached.append n.toForest }) ∨
        (n ∈ d.detached.nodes ∧ (d.detach id).1 = { d with detached := (d.detached.remove id).append n.toForest })) := by
  obtain ⟨n, hn, rfl⟩ : ∃ n, (n ∈ d.attached.nodes ∨ n ∈ d.detached.nodes) ∧ n.mark = id := by
    have found := above
    rw [parent?, Option.or_eq_some_iff] at found
    rcases found with found | ⟨-, found⟩
    · obtain ⟨n, hn, e⟩ := Forest.mem_marks.1 (Forest.mem_of_parent? found)
      exact ⟨n, Or.inl hn, e⟩
    · obtain ⟨n, hn, e⟩ := Forest.mem_marks.1 (Forest.mem_of_parent? found)
      exact ⟨n, Or.inr hn, e⟩
  have known : n.mark ∈ d.marks := List.mem_append.2 (hn.imp Forest.mem_marks_of_mem Forest.mem_marks_of_mem)
  have whole : d.subtree n.mark = n.toForest := by
    rw [subtree, if_neg (h.ne_top known), h.find?_of_mem hn]
    rfl
  refine ⟨n, rfl, ?_⟩
  rw [Document.detach, above]
  rcases hn with hn | hn
  · have other := h.disjoint (Forest.mem_marks_of_mem hn)
    exact Or.inl ⟨hn, by simp only [whole, Forest.remove_of_notMem other]⟩
  · have other : n.mark ∉ d.attached.marks := fun ha => h.disjoint ha (Forest.mem_marks_of_mem hn)
    exact Or.inr ⟨hn, by simp only [whole, Forest.remove_of_notMem other]⟩

/-- what taking a node out comes to: nothing, if it is below nothing, or it leaves the part where it is -/
theorem detach_cases (h : d.Numbered) (id : Nat) :
    ((d.detach id).1 = d ∧ id ∉ d.attached.marks) ∨
      ∃ n : Node Nat, n.mark = id ∧
        ((n ∈ d.attached.nodes ∧ (d.detach id).1 =
            { d with attached := d.attached.remove id, detached := d.detached.append n.toForest }) ∨
          (n ∈ d.detached.nodes ∧ (d.detach id).1 = { d with detached := (d.detached.remove id).append n.toForest })) := by
  cases hp : d.parent? id with
  | none =>
    refine Or.inl ⟨by rw [Document.detach, hp], ?_⟩
    intro attached
    obtain ⟨p, found⟩ := Forest.parent?_of_mem attached top
    rw [parent?, found, Option.some_or] at hp
    cases hp
  | some p => exact Or.inr (h.detach_of_parent? hp)

theorem marks_detach (h : d.Numbered) (id : Nat) : (d.detach id).1.marks.Perm d.marks := by
  rcases h.detach_cases id with ⟨same, -⟩ | ⟨n, rfl, ⟨hn, moved⟩ | ⟨hn, moved⟩⟩
  · rw [same]
  · rw [moved]
    simp only [marks, Forest.marks_append]
    refine List.Perm.trans ?_ ((Forest.marks_remove h.attached hn).symm.append_right _)
    rw [List.append_assoc]
    exact List.perm_append_comm.append_left _
  · rw [moved]
    simp only [marks, Forest.marks_append]
    exact (Forest.marks_remove h.detached hn).symm.append_left _

/-- whatever is taken out, the text loses it and nothing else -/
theorem attached_detach (h : d.Numbered) (id : Nat) : (d.detach id).1.attached = d.attached.remove id := by
  rcases h.detach_cases id with ⟨same, absent⟩ | ⟨n, rfl, ⟨hn, moved⟩ | ⟨hn, moved⟩⟩
  · rw [same, Forest.remove_of_notMem absent]
  · rw [moved]
  · rw [moved, Forest.remove_of_notMem fun ha => h.disjoint ha (Forest.mem_marks_of_mem hn)]

theorem detach (h : d.Numbered) (id : Nat) : (d.detach id).1.Numbered := by
  refine h.of_perm (h.marks_detach id) ?_
  unfold Document.detach
  split <;> rfl

end Numbered

/-- what is read is numbered from 1 on -/
theorem numbered_ofForest (f : Forest Unit) : (ofForest f).Numbered := by
  have all : (ofForest f).marks = List.range' 1 f.size := by
    rw [marks, ofForest, Forest.marks_number, Forest.marks_nil, List.append_nil]
  refine ⟨all ▸ List.nodup_range', ?_, Nat.succ_pos _⟩
  intro m hm
  rw [all, List.mem_range'_1] at hm
  exact ⟨hm.1, by simp only [ofForest]; omega⟩

theorem Becomes.numbered (h : d.Becomes d') (hd : d.Numbered) : d'.Numbered := by
  cases h with
  | changed id kept => exact hd.mapForests (Forest.marks_modify kept)
  | rewritten id value => exact hd.mapForests (Forest.marks_setLeaf id value)
  | extended found nodes => exact hd.appendNodes found nodes
  | detached id => exact hd.detach id
  | same => exact hd

/-- **No number is given twice**, whatever edits are made. -/
theorem Built.numbered (h : d.Built) : d.Numbered :=
  h.induct numbered_ofForest fun hd step => step.numbered hd

end XmlStore.Xml.Document
