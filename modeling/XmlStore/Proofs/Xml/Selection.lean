/-
What locators pick out.

A locator stands for chains of nodes: each segment leads from one node to another that it leaves of the child elements of one
parent, which is the node before or, by the descendant axis, anything below that. Evaluation goes from one set of nodes to the
next and puts each in document order; what it comes to is the ends of all chains, in document order and each once.

Main statements:
- `Document.mem_stepFrom`: what one segment reaches from one node.
- `Document.walk_eq`: what segments reach one after the other from several nodes.
- `Document.selectFrom_eq`: in every document that was read and edited, a locator picks out the ends of its chains.
-/
import Mathlib.Logic.Relation
import XmlStore.Proofs.Xml.Built
import XmlStore.Xml.Select

namespace XmlStore.Xml

/-! ## Groups -/

section Groups

variable {ι : Type}

theorem mem_of_mem_applyPredicate {group : List (Element ι)} {predicate : Predicate} {e : Element ι}
    (h : e ∈ applyPredicate group predicate) : e ∈ group := by
  unfold applyPredicate at h
  split at h
  · exact absurd h List.not_mem_nil
  · rw [Option.mem_toList] at h
    exact List.mem_of_getElem? h
  · exact (List.mem_filter.1 h).1
  · exact (List.mem_filter.1 h).1

theorem mem_of_mem_applySegment {segment : Segment} {group : List (Element ι)} {e : Element ι}
    (h : e ∈ applySegment segment group) : e ∈ group := by
  have keeps : ∀ (predicates : List Predicate) (l : List (Element ι)), e ∈ predicates.foldl applyPredicate l → e ∈ l := by
    intro predicates
    induction predicates with
    | nil => exact fun _ h => h
    | cons predicate predicates ih => exact fun l h => mem_of_mem_applyPredicate (ih _ h)
  exact (List.mem_filter.1 (keeps _ _ h)).1

theorem applySegment_nil (segment : Segment) : applySegment segment ([] : List (Element ι)) = [] := by
  cases h : applySegment segment ([] : List (Element ι)) with
  | nil => rfl
  | cons e rest =>
    have : e ∈ applySegment segment ([] : List (Element ι)) := h ▸ List.mem_cons_self
    exact absurd (mem_of_mem_applySegment this) List.not_mem_nil

theorem mem_allElements_of_mem_elements {f : Forest ι} {e : Element ι} (h : e ∈ f.elements) : e ∈ f.allElements :=
  Forest.mem_allElements.2 (Forest.mem_nodes_of_mem_siblings (Forest.mem_elements.1 h))

theorem mem_allElements_of_mem_children {f : Forest ι} {e m : Element ι} (hm : m ∈ f.allElements)
    (he : e ∈ m.children.allElements) : e ∈ f.allElements :=
  Forest.mem_allElements.2
    (Forest.mem_nodes_of_mem_children (n := .element m) (Forest.mem_allElements.1 hm) (Forest.mem_allElements.1 he))

/-- a segment reaches nothing but elements of the forest -/
theorem mem_allElements_of_mem_stepFrom {f : Forest ι} {segment : Segment} {e : Element ι} (h : e ∈ stepFrom segment f) :
    e ∈ f.allElements := by
  obtain ⟨group, hg, he⟩ := List.mem_flatMap.1 h
  have he := mem_of_mem_applySegment he
  cases ha : segment.axis with
  | child =>
    rw [ha, groups, List.mem_singleton] at hg
    exact mem_allElements_of_mem_elements (hg ▸ he)
  | descendant =>
    rw [ha, groups, List.mem_cons, List.mem_map] at hg
    rcases hg with rfl | ⟨m, hm, rfl⟩
    · exact mem_allElements_of_mem_elements he
    · exact mem_allElements_of_mem_children hm (mem_allElements_of_mem_elements he)

end Groups

namespace Document

/-! ## Chains -/

/-- the second node is directly below the first -/
def IsChild (d : Document) (p c : Nat) : Prop :=
  c ∈ (d.children p).siblings.map Node.mark

/-- a segment leads from a node to an element: that is left of the child elements of a parent, which is the node or, by the
descendant axis, the node or anything below it -/
def Leads (d : Document) (segment : Segment) (n : Nat) (e : Element Nat) : Prop :=
  ∃ p, (match segment.axis with
    | .child => p = n
    | .descendant => Relation.ReflTransGen d.IsChild n p) ∧ e ∈ applySegment segment (d.children p).elements

/-- segments lead one after the other from a node to an element -/
inductive Chain (d : Document) : Nat → List Segment → Element Nat → Prop where
  | last {n : Nat} {segment : Segment} {e : Element Nat} (h : d.Leads segment n e) : Chain d n [segment] e
  | cons {n : Nat} {segment : Segment} {segments : List Segment} {middle e : Element Nat} (h : d.Leads segment n middle)
      (rest : Chain d middle.mark segments e) : Chain d n (segment :: segments) e

open Classical in
/-- the attached elements of which something holds, in document order -/
noncomputable def attachedWhere (d : Document) (P : Element Nat → Prop) : List (Element Nat) :=
  d.attached.allElements.filter (P ·)

/-- a node of the text, or the document itself -/
def Attached (d : Document) (n : Nat) : Prop :=
  n = top ∨ n ∈ d.attached.marks

variable {d : Document}

theorem mem_attachedWhere {P : Element Nat → Prop} {e : Element Nat} :
    e ∈ d.attachedWhere P ↔ e ∈ d.attached.allElements ∧ P e := by
  simp [attachedWhere]

theorem attachedWhere_congr {P Q : Element Nat → Prop} (h : ∀ e, P e ↔ Q e) : d.attachedWhere P = d.attachedWhere Q := by
  rw [funext fun e => propext (h e)]

/-! ## What is below a node -/

/-- what is below an attached node is attached -/
theorem attached_of_children (h : d.Numbered) {n : Nat} (hn : d.Attached n) {m : Node Nat} (hm : m ∈ (d.children n).nodes) :
    m ∈ d.attached.nodes := by
  rcases hn with rfl | hn
  · exact hm
  · obtain ⟨node, hnode, rfl⟩ := Forest.mem_marks.1 hn
    rw [h.children_of_mem (Or.inl hnode)] at hm
    exact Forest.mem_nodes_of_mem_children hnode hm

/-- every node of a forest is below the node that the outermost ones are directly below -/
theorem transGen_of_mem {f : Forest Nat} (hf : ∀ m ∈ f.nodes, d.children m.mark = m.children) {n : Nat}
    (hn : ∀ m ∈ f.siblings, d.IsChild n m.mark) {m : Node Nat} (hm : m ∈ f.nodes) :
    Relation.TransGen d.IsChild n m.mark := by
  induction f generalizing n with
  | nil => exact absurd hm List.not_mem_nil
  | leaf mark kind value next ih =>
    rcases Forest.mem_nodes_leaf.1 hm with rfl | hm
    · exact .single (hn _ List.mem_cons_self)
    · exact ih (fun m hm => hf m (Forest.mem_nodes_leaf.2 (Or.inr hm))) (fun m hm => hn m (List.mem_cons_of_mem _ hm)) hm
  | element mark name attributes children next ihc ihn =>
    have first : d.IsChild n mark := hn _ List.mem_cons_self
    rcases Forest.mem_nodes_element.1 hm with rfl | hm | hm
    · exact .single first
    · have below : d.children mark = children := hf (.element ⟨mark, name, attributes, children⟩) List.mem_cons_self
      refine .head first (ihc (fun m hm => hf m (Forest.mem_nodes_element.2 (Or.inr (Or.inl hm)))) ?_ hm)
      intro m hm
      rw [IsChild, below]
      exact List.mem_map_of_mem hm
    · exact ihn (fun m hm => hf m (Forest.mem_nodes_element.2 (Or.inr (Or.inr hm))))
        (fun m hm => hn m (List.mem_cons_of_mem _ hm)) hm

theorem transGen_children (h : d.Numbered) {n : Nat} {m : Node Nat} (hm : m ∈ (d.children n).nodes) :
    Relation.TransGen d.IsChild n m.mark :=
  transGen_of_mem (h.children_of_children n) (fun _ hm => List.mem_map_of_mem hm) hm

/-- **What is below** a node are the nodes that its forest holds. -/
theorem reflTransGen_iff (h : d.Numbered) {n p : Nat} :
    Relation.ReflTransGen d.IsChild n p ↔ p = n ∨ ∃ m ∈ (d.children n).nodes, m.mark = p := by
  constructor
  · intro hp
    induction hp with
    | refl => exact Or.inl rfl
    | tail _ hc ih =>
      right
      obtain ⟨m, hm, rfl⟩ := List.mem_map.1 hc
      rcases ih with rfl | ⟨q, hq, rfl⟩
      · exact ⟨m, Forest.mem_nodes_of_mem_siblings hm, rfl⟩
      · rw [h.children_of_children n q hq] at hm
        exact ⟨m, Forest.mem_nodes_of_mem_children hq (Forest.mem_nodes_of_mem_siblings hm), rfl⟩
  · rintro (rfl | ⟨m, hm, rfl⟩)
    · exact .refl
    · exact (transGen_children h hm).to_reflTransGen

/-! ## One segment -/

/-- **What one segment reaches** from a node is what it leads to. -/
theorem mem_stepFrom (h : d.Numbered) {n : Nat} {segment : Segment} {e : Element Nat} :
    e ∈ stepFrom segment (d.children n) ↔ d.Leads segment n e := by
  unfold stepFrom groups Leads
  cases segment.axis with
  | child => simp
  | descendant =>
    simp only [List.flatMap_cons, List.mem_append, List.mem_flatMap, List.mem_map]
    constructor
    · rintro (he | ⟨_, ⟨f, hf, rfl⟩, he⟩)
      · exact ⟨n, .refl, he⟩
      · have hm := Forest.mem_allElements.1 hf
        refine ⟨f.mark, (reflTransGen_iff h).2 (Or.inr ⟨_, hm, rfl⟩), ?_⟩
        rw [show d.children f.mark = f.children from h.children_of_children n _ hm]
        exact he
    · rintro ⟨p, hp, he⟩
      rcases (reflTransGen_iff h).1 hp with rfl | ⟨m, hm, rfl⟩
      · exact Or.inl he
      · rw [h.children_of_children n _ hm] at he
        cases m with
        | leaf =>
          -- a leaf has no child elements, so nothing can be left of them
          rw [show (Node.leaf _ _ _ : Node Nat).children.elements = [] from rfl, applySegment_nil] at he
          exact absurd he List.not_mem_nil
        | element f => exact Or.inr ⟨_, ⟨f, Forest.mem_allElements.2 hm, rfl⟩, he⟩

/-- where a segment leads from a node is below that node -/
theorem Leads.below (h : d.Numbered) {n : Nat} {segment : Segment} {e : Element Nat}
    (hl : d.Leads segment n e) : Node.element e ∈ (d.children n).nodes :=
  Forest.mem_allElements.1 (mem_allElements_of_mem_stepFrom ((mem_stepFrom h).2 hl))

/-! ## The order of all elements -/

theorem mem_orderedElements {e : Element Nat} :
    e ∈ d.orderedElements ↔ e ∈ d.attached.allElements ∨ e ∈ d.detached.allElements := by
  rw [orderedElements, List.mem_append, List.mem_mergeSort]

theorem Numbered.nodup_orderedElements (h : d.Numbered) : (d.orderedElements.map Element.mark).Nodup := by
  have perm : d.orderedElements.Perm (d.attached.allElements ++ d.detached.allElements) :=
    (List.mergeSort_perm _ _).append_left _
  rw [(perm.map Element.mark).nodup_iff, List.map_append]
  exact (d.attached.sublist_marks_allElements.append d.detached.sublist_marks_allElements).nodup h.nodup

/-- elements that were taken out stand in the order of their numbers -/
theorem Numbered.pairwise_detached (h : d.Numbered) :
    (d.detached.allElements.mergeSort (·.mark ≤ ·.mark)).Pairwise fun e f => e.mark < f.mark := by
  have perm : (d.detached.allElements.mergeSort (·.mark ≤ ·.mark)).Perm d.detached.allElements := List.mergeSort_perm _ _
  have apart := (perm.map Element.mark).nodup_iff.2 (d.detached.sublist_marks_allElements.nodup h.detached)
  have rising : (d.detached.allElements.mergeSort (·.mark ≤ ·.mark)).Pairwise fun e f => decide (e.mark ≤ f.mark) = true :=
    List.pairwise_mergeSort (by simpa using fun _ _ _ => Nat.le_trans) (by simpa using fun _ _ => Nat.le_total _ _) _
  refine ((List.pairwise_map.1 apart).and rising).imp ?_
  intro e f ordered
  exact Nat.lt_of_le_of_ne (of_decide_eq_true ordered.2) ordered.1

/-- elements are known by their numbers -/
theorem Numbered.eq_of_mark_eq (h : d.Numbered) {e f : Element Nat} (he : e ∈ d.orderedElements) (hf : f ∈ d.orderedElements)
    (same : e.mark = f.mark) : e = f := by
  have found {e : Element Nat} (he : e ∈ d.orderedElements) : d.find? e.mark = some (.element e) :=
    h.find?_of_mem ((mem_orderedElements.1 he).imp Forest.mem_allElements.1 Forest.mem_allElements.1)
  have both := found he
  rw [same, found hf] at both
  cases both
  rfl

theorem inOrder_eq_filter (h : d.Numbered) {found : List (Element Nat)} (hf : ∀ e ∈ found, e ∈ d.orderedElements) :
    d.inOrder found = d.orderedElements.filter (· ∈ found) := by
  refine List.filter_congr ?_
  intro e he
  rw [Bool.eq_iff_iff, List.any_eq_true, decide_eq_true_iff]
  constructor
  · intro marked
    obtain ⟨f, hfound, hm⟩ := marked
    exact h.eq_of_mark_eq (hf f hfound) he (by simpa using hm) ▸ hfound
  · intro hfound
    exact ⟨e, hfound, by simp⟩

/-- attached elements in document order, each once -/
theorem inOrder_eq (h : d.Numbered) {found : List (Element Nat)} (hf : ∀ e ∈ found, e ∈ d.attached.allElements) :
    d.inOrder found = d.attachedWhere (· ∈ found) := by
  have none : (d.detached.allElements.mergeSort (·.mark ≤ ·.mark)).filter (· ∈ found) = [] := by
    rw [List.filter_eq_nil_iff]
    intro e he hfound
    have attached := Forest.mem_marks_of_mem (Forest.mem_allElements.1 (hf e (of_decide_eq_true hfound)))
    exact h.disjoint attached (Forest.mem_marks_of_mem (Forest.mem_allElements.1 (List.mem_mergeSort.1 he)))
  rw [inOrder_eq_filter h fun e he => mem_orderedElements.2 (Or.inl (hf e he)), orderedElements, List.filter_append, none,
    List.append_nil]
  exact List.filter_congr fun e _ => by congr

/-! ## All segments -/

/-- what one segment reaches from several attached nodes -/
theorem advance_eq (h : d.Numbered) {ids : List Nat} (hids : ∀ n ∈ ids, d.Attached n) (segment : Segment) :
    d.advance segment (ids.map d.children) = d.attachedWhere fun e => ∃ n ∈ ids, d.Leads segment n e := by
  have reached : ∀ e, e ∈ (ids.map d.children).flatMap (stepFrom segment) ↔ ∃ n ∈ ids, d.Leads segment n e := by
    intro e
    simp only [List.mem_flatMap, List.mem_map]
    constructor
    · rintro ⟨_, ⟨n, hn, rfl⟩, he⟩
      exact ⟨n, hn, (mem_stepFrom h).1 he⟩
    · rintro ⟨n, hn, hl⟩
      exact ⟨_, ⟨n, hn, rfl⟩, (mem_stepFrom h).2 hl⟩
  rw [advance, inOrder_eq h fun e he => ?_]
  · exact attachedWhere_congr reached
  · obtain ⟨n, hn, hl⟩ := (reached e).1 he
    exact Forest.mem_allElements.2 (attached_of_children h (hids n hn) (hl.below h))

theorem chain_cons {n : Nat} {segment next : Segment} {segments : List Segment} {e : Element Nat} :
    d.Chain n (segment :: next :: segments) e ↔
      ∃ middle, d.Leads segment n middle ∧ d.Chain middle.mark (next :: segments) e := by
  constructor
  · intro hc
    cases hc with
    | cons hl rest => exact ⟨_, hl, rest⟩
  · exact fun ⟨_, hl, rest⟩ => .cons hl rest

theorem chain_singleton {n : Nat} {segment : Segment} {e : Element Nat} : d.Chain n [segment] e ↔ d.Leads segment n e := by
  constructor
  · intro hc
    cases hc with
    | last hl => exact hl
    | cons _ rest => cases rest
  · exact .last

/-- where a segment leads from an attached node is attached -/
theorem Leads.attached (h : d.Numbered) {n : Nat} (hn : d.Attached n) {segment : Segment} {e : Element Nat}
    (hl : d.Leads segment n e) : e ∈ d.attached.allElements :=
  Forest.mem_allElements.2 (attached_of_children h hn (hl.below h))

theorem attached_of_mem {e : Element Nat} (he : e ∈ d.attached.allElements) : d.Attached e.mark :=
  Or.inr (Forest.mem_marks_of_mem (Forest.mem_allElements.1 he))

/-- **What segments reach** one after the other from attached nodes are the ends of the chains from these. -/
theorem walk_eq (h : d.Numbered) {ids : List Nat} (hids : ∀ n ∈ ids, d.Attached n) (segment : Segment)
    (segments : List Segment) :
    d.walk (ids.map d.children) (segment :: segments) =
      d.attachedWhere fun e => ∃ n ∈ ids, d.Chain n (segment :: segments) e := by
  induction segments generalizing ids segment with
  | nil =>
    rw [walk, advance_eq h hids]
    exact attachedWhere_congr fun e => exists_congr fun n => and_congr_right fun _ => chain_singleton.symm
  | cons next segments ih =>
    have reached : ∀ e, e ∈ d.advance segment (ids.map d.children) ↔
        e ∈ d.attached.allElements ∧ ∃ n ∈ ids, d.Leads segment n e := fun e => by
      rw [advance_eq h hids, mem_attachedWhere]
    -- the nodes reached are given by their numbers again
    have numbers : (d.advance segment (ids.map d.children)).map Element.children =
        ((d.advance segment (ids.map d.children)).map Element.mark).map d.children := by
      rw [List.map_map]
      refine List.map_congr_left ?_
      intro e he
      exact (h.children_of_mem (Or.inl (Forest.mem_allElements.1 ((reached e).1 he).1))).symm
    have attached : ∀ n ∈ (d.advance segment (ids.map d.children)).map Element.mark, d.Attached n := by
      intro n hn
      obtain ⟨e, he, rfl⟩ := List.mem_map.1 hn
      exact attached_of_mem ((reached e).1 he).1
    rw [walk, numbers, ih attached]
    · refine attachedWhere_congr fun e => ⟨?_, ?_⟩
      · rintro ⟨n, hn, hc⟩
        obtain ⟨middle, hm, rfl⟩ := List.mem_map.1 hn
        obtain ⟨-, n, hn, hl⟩ := (reached middle).1 hm
        exact ⟨n, hn, .cons hl hc⟩
      · rintro ⟨n, hn, hc⟩
        obtain ⟨middle, hl, rest⟩ := chain_cons.1 hc
        exact ⟨middle.mark, List.mem_map_of_mem ((reached middle).2 ⟨hl.attached h (hids n hn), n, hn, hl⟩), rest⟩
    · simp

/-- the end of a chain from an attached node is attached, and below that node -/
theorem Chain.ends (h : d.Numbered) {n : Nat} {segments : List Segment} {e : Element Nat} (hc : d.Chain n segments e)
    (hn : d.Attached n) : e ∈ d.attached.allElements ∧ Relation.TransGen d.IsChild n e.mark := by
  induction hc with
  | last hl => exact ⟨hl.attached h hn, transGen_children h (hl.below h)⟩
  | cons hl _ ih =>
    obtain ⟨he, below⟩ := ih (attached_of_mem (hl.attached h hn))
    exact ⟨he, (transGen_children h (hl.below h)).trans below⟩

/-- **Locators pick out the ends of their chains.** In a document that was read and then edited, from an attached node, a locator
picks out in document order the attached elements to which its segments lead, each once; and wherever they lead is such an element,
and below the node that they start from. -/
theorem selectFrom_eq (hb : d.Built) {context : Nat} (hn : d.Attached context) {l : Locator} (hl : l.segments ≠ []) :
    let start := if l.relative then context else top
    d.selectFrom context l = d.attachedWhere (d.Chain start l.segments) ∧
      ((d.selectFrom context l).map Element.mark).Nodup ∧
      ∀ e, d.Chain start l.segments e → e ∈ d.attached.allElements ∧ Relation.TransGen d.IsChild start e.mark := by
  intro start
  have h := hb.numbered
  have attached : d.Attached start := by
    unfold start
    split
    · exact hn
    · exact Or.inl rfl
  have from_start : (if l.relative then d.children context else d.attached) = d.children start := by
    unfold start
    split <;> rfl
  obtain ⟨segment, segments, e⟩ := List.exists_cons_of_ne_nil hl
  have found : d.selectFrom context l = d.attachedWhere (d.Chain start l.segments) := by
    have only : ∀ n ∈ [start], d.Attached n := by simpa using attached
    have walked := walk_eq h only segment segments
    rw [selectFrom, from_start, e]
    rw [List.map_singleton] at walked
    rw [walked]
    exact attachedWhere_congr fun e => by simp
  refine ⟨found, ?_, fun e hc => hc.ends h attached⟩
  rw [found, attachedWhere]
  have once := (d.attached.sublist_marks_allElements).nodup h.attached
  exact (List.filter_sublist.map _).nodup once

/-- whatever is walked to stands in document order, each element once -/
theorem walk_sublist (d : Document) (reached : List (Forest Nat)) (segments : List Segment) :
    (d.walk reached segments).Sublist d.orderedElements := by
  induction segments generalizing reached with
  | nil => exact List.nil_sublist _
  | cons segment rest ih =>
    cases rest with
    | nil => exact List.filter_sublist
    | cons next rest => exact ih _

/-- two lists, of which the first one is in the second -/
def nestedLists : Forest Unit :=
  .element () "r" [] (.element () "s" [] (.element () "b" [] .nil .nil) (.element () "b" [] .nil (.element () "b" [] .nil .nil))) .nil

/-- a document in which an element has got its number after those that come later -/
def lateElement : Document :=
  (ofForest nestedLists).appendNodes 2 (.element () "b" [] .nil .nil)

/-- the second of each list: the late element comes first -/
theorem selectFrom_eq_lateElement :
    let l : Locator := ⟨true, [⟨.descendant, "b", [.position 2]⟩]⟩
    lateElement.Built ∧ lateElement.Attached 1 ∧ l.segments ≠ [] ∧
      (lateElement.selectFrom 1 l).map Element.mark = [6, 5] ∧
      lateElement.selectFrom 1 l = lateElement.attachedWhere (lateElement.Chain 1 l.segments) := by
  intro l
  have read : parse "<r><s><b/></s><b/><b/></r>" = .ok (ofForest nestedLists) := by decide +kernel
  have fragment : parseFragment "<b/>" = .ok (ofForest (.element () "b" [] .nil .nil)) := by decide +kernel
  have added : (ofForest nestedLists).appendFragment 2 (ofForest (.element () "b" [] .nil .nil)) = .ok (lateElement, [6]) := by
    decide +kernel
  have built : lateElement.Built := .appendFragment (.parse read) (.parseFragment fragment) added
  have attached : lateElement.Attached 1 := Or.inr (by decide +kernel)
  exact ⟨built, attached, by simp [l], by decide +kernel, (selectFrom_eq built attached (l := l) (by simp [l])).1⟩

end Document

end XmlStore.Xml
