/-
Picking out elements in an arena.

In an arena, what a segment reaches is sorted by ranks and then by numbers, and what comes twice stands side by side after that. In a
document it is filtered from one list of all elements. That list is in the order of the ranks, so both come to the same.

Main statements:
- `Document.Numbered.pairwise_mayPrecede`: the list of all elements is in the order of their ranks and numbers.
- `Document.Numbered.selectFrom_arena`: what a locator picks out in the row of a document.
-/
import XmlStore.Proofs.Xml.Traversal

namespace XmlStore.Xml

namespace Arena

/-! ## The order of ranks and numbers -/

/-- one of two numbers comes before the other one -/
def Precedes (order : List Nat) (n m : Nat) : Prop :=
  mayPrecede order n m = true ∧ n ≠ m

variable {order : List Nat} {n m : Nat}

theorem mayPrecede_iff : mayPrecede order n m = true ↔
    order.getD n unranked < order.getD m unranked ∨ (order.getD n unranked = order.getD m unranked ∧ n ≤ m) := by
  simp [mayPrecede]

theorem mayPrecede_trans (order : List Nat) (n m k : Nat) (h : mayPrecede order n m = true) (h' : mayPrecede order m k = true) :
    mayPrecede order n k = true := by
  rw [mayPrecede_iff] at h h' ⊢
  omega

theorem mayPrecede_total (order : List Nat) (n m : Nat) : (mayPrecede order n m || mayPrecede order m n) = true := by
  rw [Bool.or_eq_true, mayPrecede_iff, mayPrecede_iff]
  omega

theorem mayPrecede_antisymm (h : mayPrecede order n m = true) (h' : mayPrecede order m n = true) : n = m := by
  rw [mayPrecede_iff] at h h'
  omega

theorem mem_squeeze {l : List Nat} : m ∈ squeeze l ↔ m ∈ l := by
  fun_induction squeeze l with
  | case1 => rfl
  | case2 => rfl
  | case3 id rest ih => simp [ih]
  | case4 id next rest different ih => rw [List.mem_cons, ih, ← List.mem_cons]

/-- what is the same stands side by side when it is sorted, so nothing is left twice -/
theorem pairwise_squeeze {l : List Nat} (sorted : l.Pairwise fun n m => mayPrecede order n m = true) :
    (squeeze l).Pairwise (Precedes order) := by
  fun_induction squeeze l with
  | case1 => exact .nil
  | case2 id => exact List.pairwise_singleton _ _
  | case3 id rest ih => exact ih (List.pairwise_cons.1 sorted).2
  | case4 id next rest different ih =>
    obtain ⟨before, sorted⟩ := List.pairwise_cons.1 sorted
    refine List.pairwise_cons.2 ⟨fun m hm => ?_, ih sorted⟩
    have hm := mem_squeeze.1 hm
    refine ⟨before m hm, ?_⟩
    rintro rfl
    -- then it is not before what comes next, but this is before it
    rcases List.mem_cons.1 hm with same | later
    · exact different same
    · exact different (mayPrecede_antisymm (before next List.mem_cons_self) ((List.pairwise_cons.1 sorted).1 _ later))

end Arena

namespace Document

variable {d : Document}

/-! ## Ranks in the row of a document -/

theorem Numbered.rank_attached (h : d.Numbered) {r id : Nat} (there : (top :: d.attached.marks)[r]? = some id) :
    d.arena.documentOrder.getD id Arena.unranked = r := by
  have content : d.arena.selfAndDescendants top = top :: d.attached.marks := h.selfAndDescendants_arena top
  have given : id < d.arena.nodes.length := by
    rw [h.represents.size]
    rcases List.mem_cons.1 (List.mem_of_getElem? there) with rfl | known
    · exact h.next
    · exact (h.given id (List.mem_append_left _ known)).2
  rw [List.getD_eq_getElem?_getD, Arena.getElem?_documentOrder ?_ (content ▸ there) given, Option.getD_some]
  rw [content]
  exact List.nodup_cons.2 ⟨h.notMem_below top, h.attached⟩

theorem Numbered.rank_detached (h : d.Numbered) {id : Nat} (out : id ∈ d.detached.marks) :
    d.arena.documentOrder.getD id Arena.unranked = Arena.unranked := by
  have content : d.arena.selfAndDescendants top = top :: d.attached.marks := h.selfAndDescendants_arena top
  have known := h.given id (List.mem_append_right _ out)
  have absent : id ∉ d.arena.selfAndDescendants top := by
    rw [content, List.mem_cons, not_or]
    exact ⟨Nat.ne_of_gt known.1, fun attached => h.disjoint attached out⟩
  rw [List.getD_eq_getElem?_getD, Arena.getElem?_documentOrder_of_notMem absent (h.represents.size ▸ known.2), Option.getD_some]

/-- **The list of all elements** is in the order of their ranks, and of their numbers where they have none. -/
theorem Numbered.pairwise_mayPrecede (h : d.Numbered) (few : d.next ≤ Arena.unranked) :
    (d.orderedElements.map Element.mark).Pairwise (Arena.Precedes d.arena.documentOrder) := by
  have sorted : (d.orderedElements.map Element.mark).Pairwise fun n m => Arena.mayPrecede d.arena.documentOrder n m = true := by
    have room : d.attached.size < d.next := h.size_children_lt top
    have standing : (top :: d.attached.marks).Pairwise fun n m => Arena.mayPrecede d.arena.documentOrder n m = true := by
      rw [List.pairwise_iff_getElem]
      intro i j hi hj lt
      rw [Arena.mayPrecede_iff, h.rank_attached (List.getElem?_eq_getElem hi), h.rank_attached (List.getElem?_eq_getElem hj)]
      exact Or.inl lt
    have out {e : Element Nat} (he : e ∈ d.detached.allElements.mergeSort (·.mark ≤ ·.mark)) :
        d.arena.documentOrder.getD e.mark Arena.unranked = Arena.unranked :=
      h.rank_detached (Forest.mem_marks_of_mem (Forest.mem_allElements.1 (List.mem_mergeSort.1 he)))
    rw [orderedElements, List.map_append, List.pairwise_append]
    refine ⟨standing.sublist (d.attached.sublist_marks_allElements.cons top), ?_, ?_⟩
    · rw [List.pairwise_map]
      refine h.pairwise_detached.imp_of_mem fun he hf lt => ?_
      rw [Arena.mayPrecede_iff, out he, out hf]
      exact Or.inr ⟨rfl, Nat.le_of_lt lt⟩
    · intro n hn m hm
      obtain ⟨f, hf, rfl⟩ := List.mem_map.1 hm
      obtain ⟨r, hr, rfl⟩ := List.getElem_of_mem (List.mem_cons_of_mem top (d.attached.sublist_marks_allElements.subset hn))
      rw [Arena.mayPrecede_iff, h.rank_attached (List.getElem?_eq_getElem hr), out hf]
      rw [List.length_cons, Forest.length_marks] at hr
      omega
  exact sorted.and h.nodup_orderedElements

/-- so sorting elements by ranks and numbers leaves them in the order of that list, each once -/
theorem Numbered.squeeze_mergeSort (h : d.Numbered) (few : d.next ≤ Arena.unranked) {found : List (Element Nat)}
    (known : ∀ e ∈ found, e ∈ d.orderedElements) :
    Arena.squeeze ((found.map Element.mark).mergeSort (Arena.mayPrecede d.arena.documentOrder)) =
      (d.inOrder found).map Element.mark := by
  have merged : ((found.map Element.mark).mergeSort (Arena.mayPrecede d.arena.documentOrder)).Pairwise fun n m =>
      Arena.mayPrecede d.arena.documentOrder n m = true :=
    List.pairwise_mergeSort (Arena.mayPrecede_trans d.arena.documentOrder) (Arena.mayPrecede_total d.arena.documentOrder) _
  have sorted := Arena.pairwise_squeeze merged
  have standing : ((d.inOrder found).map Element.mark).Pairwise (Arena.Precedes d.arena.documentOrder) :=
    (h.pairwise_mayPrecede few).sublist (List.filter_sublist.map Element.mark)
  refine List.Perm.eq_of_pairwise (fun _ _ _ _ before after => Arena.mayPrecede_antisymm before.1 after.1) sorted standing ?_
  refine (List.perm_ext_iff_of_nodup (sorted.imp And.right) (standing.imp And.right)).2 fun m => ?_
  rw [Arena.mem_squeeze, List.mem_mergeSort, inOrder_eq_filter h known, List.mem_map, List.mem_map]
  refine exists_congr fun e => and_congr_left fun _ => ?_
  rw [List.mem_filter, decide_eq_true_iff]
  exact ⟨fun he => ⟨known e he, he⟩, And.right⟩

/-! ## Segments in the row of a document -/

theorem Numbered.attributes_arena (h : d.Numbered) (id : Nat) :
    d.arena.attributes id = ((d.element? id).map Element.attributes).getD [] := by
  rw [Arena.attributes, h.kind_arena, kind, element?]
  cases d.find? id with
  | none => rfl
  | some n => cases n <;> rfl

theorem Numbered.applyPredicate_arena (h : d.Numbered) {group : List (Element Nat)} (known : ∀ e ∈ group, d.element? e.mark = some e)
    (predicate : Predicate) :
    d.arena.applyPredicate (group.map Element.mark) predicate = (applyPredicate group predicate).map Element.mark := by
  have attributes {e : Element Nat} (he : e ∈ group) : d.arena.attributes e.mark = e.attributes := by
    rw [h.attributes_arena, known e he]
    rfl
  cases predicate with
  | position place =>
    cases place with
    | zero => rfl
    | succ place =>
      rw [Arena.applyPredicate, applyPredicate, List.getElem?_map]
      cases group[place]? <;> rfl
  | hasAttribute name =>
    rw [Arena.applyPredicate, applyPredicate, List.filter_map]
    refine congrArg _ (List.filter_congr fun e he => ?_)
    rw [Function.comp_apply, attributes he]
  | attributeEquals name literal =>
    rw [Arena.applyPredicate, applyPredicate, List.filter_map]
    refine congrArg _ (List.filter_congr fun e he => ?_)
    rw [Function.comp_apply, attributes he]

theorem Numbered.step_arena (h : d.Numbered) (segment : Segment) (p : Nat) :
    d.arena.step segment p = (applySegment segment (d.children p).elements).map Element.mark := by
  have known : ∀ e ∈ (d.children p).elements, d.element? e.mark = some e := fun e he =>
    h.element?_of_mem (h.mem_nodes_below (Forest.mem_nodes_of_mem_siblings (Forest.mem_elements.1 he)))
  have predicates : ∀ (l : List Predicate) (group : List (Element Nat)), (∀ e ∈ group, d.element? e.mark = some e) →
      l.foldl d.arena.applyPredicate (group.map Element.mark) = (l.foldl applyPredicate group).map Element.mark := by
    intro l
    induction l with
    | nil => exact fun _ _ => rfl
    | cons predicate l ih =>
      intro group known
      rw [List.foldl_cons, List.foldl_cons, h.applyPredicate_arena known]
      exact ih _ fun e he => known e (mem_of_mem_applyPredicate he)
  have named : ((d.children p).elements.map Element.mark).filter (fun id => (d.arena.name? id).any segment.matchesName) =
      ((d.children p).elements.filter fun e => segment.matchesName e.name).map Element.mark := by
    rw [List.filter_map]
    refine congrArg _ (List.filter_congr fun e he => ?_)
    rw [Function.comp_apply, h.name?_arena, known e he]
    rfl
  rw [Arena.step, h.childElements_arena, named, predicates _ _ fun e he => known e (List.mem_filter.1 he).1]
  rfl

/-- what a segment reaches from a node, before it is sorted -/
theorem Numbered.stepFrom_arena (h : d.Numbered) (segment : Segment) (id : Nat) :
    (d.arena.parents id segment.axis).flatMap (d.arena.step segment) =
      (stepFrom segment (d.children id)).map Element.mark := by
  rw [stepFrom]
  cases segment.axis with
  | child => rw [Arena.parents, groups, List.flatMap_singleton, List.flatMap_singleton, h.step_arena]
  | descendant =>
    -- leaves are gone through too, but there is nothing below them
    have below : ∀ l : List (Node Nat), (∀ n ∈ l, d.children n.mark = n.children) →
        (l.map Node.mark).flatMap (d.arena.step segment) =
          ((l.filterMap Node.element?).flatMap fun e => applySegment segment e.children.elements).map Element.mark := by
      intro l known
      induction l with
      | nil => rfl
      | cons n l ih =>
        rw [List.map_cons, List.flatMap_cons, h.step_arena, known n List.mem_cons_self, ih fun m hm => known m (List.mem_cons_of_mem n hm)]
        cases n with
        | leaf i kind value =>
          rw [show (Node.leaf i kind value : Node Nat).children.elements = [] from rfl, applySegment_nil]
          rfl
        | element e =>
          rw [List.filterMap_cons_some (show (Node.element e).element? = some e from rfl), List.flatMap_cons, List.map_append]
          rfl
    rw [Arena.parents, h.selfAndDescendants_arena, groups, List.flatMap_cons, List.flatMap_cons, List.map_append, h.step_arena,
      Forest.marks, below _ (h.children_of_children id), List.flatMap_map, Forest.allElements]

theorem Numbered.advance_arena (h : d.Numbered) (few : d.next ≤ Arena.unranked) (ids : List Nat) (segment : Segment) :
    d.arena.advance d.arena.documentOrder ids segment = (d.advance segment (ids.map d.children)).map Element.mark := by
  have known : ∀ e ∈ (ids.map d.children).flatMap (stepFrom segment), e ∈ d.orderedElements := by
    intro e he
    obtain ⟨_, hf, he⟩ := List.mem_flatMap.1 he
    obtain ⟨id, -, rfl⟩ := List.mem_map.1 hf
    have there := h.mem_nodes_below (Forest.mem_allElements.1 (mem_allElements_of_mem_stepFrom he))
    exact mem_orderedElements.2 (there.imp Forest.mem_allElements.2 Forest.mem_allElements.2)
  have found : ids.flatMap (fun id => (d.arena.parents id segment.axis).flatMap (d.arena.step segment)) =
      ((ids.map d.children).flatMap (stepFrom segment)).map Element.mark := by
    rw [List.flatMap_map, List.map_flatMap]
    exact List.flatMap_congr fun id _ => h.stepFrom_arena segment id
  rw [Arena.advance, found, h.squeeze_mergeSort few known, advance]

theorem Numbered.walk_arena (h : d.Numbered) (few : d.next ≤ Arena.unranked) (ids : List Nat) (segment : Segment)
    (segments : List Segment) :
    (segment :: segments).foldl (d.arena.advance d.arena.documentOrder) ids =
      (d.walk (ids.map d.children) (segment :: segments)).map Element.mark := by
  induction segments generalizing ids segment with
  | nil => rw [List.foldl_cons, List.foldl_nil, h.advance_arena few, walk]
  | cons next segments ih =>
    -- the elements reached are known by their numbers again
    have again : ((d.advance segment (ids.map d.children)).map Element.mark).map d.children =
        (d.advance segment (ids.map d.children)).map Element.children := by
      rw [List.map_map]
      refine List.map_congr_left fun e he => ?_
      have listed := mem_orderedElements.1 (List.mem_filter.1 he).1
      exact h.children_of_mem (listed.imp Forest.mem_allElements.1 Forest.mem_allElements.1)
    rw [List.foldl_cons, h.advance_arena few, ih, again]
    rfl

/-- **What a locator picks out** in the row of a document are the elements that it picks out in the document, in the same order. -/
theorem Numbered.selectFrom_arena (h : d.Numbered) (few : d.next ≤ Arena.unranked) (context : Nat) (l : Locator) :
    d.arena.selectFrom context l = (d.selectFrom context l).map Element.mark := by
  have start : (if l.relative then d.children context else d.attached) = d.children (if l.relative then context else top) := by
    split <;> rfl
  rw [Arena.selectFrom, selectFrom, start]
  cases l.segments with
  | nil => rfl
  | cons segment segments => exact h.walk_arena few [_] segment segments

theorem Numbered.select_arena (h : d.Numbered) (few : d.next ≤ Arena.unranked) (l : Locator) :
    d.arena.select l = (d.select l).map Element.mark :=
  h.selectFrom_arena few top l

end Document

end XmlStore.Xml
