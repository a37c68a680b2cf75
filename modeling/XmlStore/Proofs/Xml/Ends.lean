/-
What locators pick out, told by content.

The ends of segments in a forest (`Forest.ends`) are reached by going from elements to what is below them, without looking anything up
by number. A locator picks out the ends of its segments below the node where it starts, in document order (`Forest.picked`). So
a change that puts another element in the place of every one (`Replaces`) does so with what a locator picks out, if the segments do
not see a difference. They see none where names and attributes are kept (`Recasts`): taking marks off, giving others, and joining
texts are such changes.

Main statements:
- `Document.walk_eq_filter`: what segments reach from any nodes are their ends, in the order of all elements.
- `Document.selectFrom_eq_picked`: what a locator picks out is decided by what is below the node where it starts.
- `Replaces.ends`, `Replaces.picked`: a change that segments overlook keeps the ends of the segments, and their order.
- `Document.select_eq_nil_iff`: whether a locator picks out anything is decided by content, without the marks.
- `Forest.number_erase`: numbering content anew gives other marks and changes nothing else.
-/
import Mathlib.Data.List.Nodup
import XmlStore.Proofs.Xml.Changes
import XmlStore.Proofs.Xml.Selection

namespace XmlStore

/-- the name of the attribute that a predicate asks for, if it asks for one -/
def Predicate.attribute? : Predicate → Option String
  | .position _ => none
  | .hasAttribute name => some name
  | .attributeEquals name _ => some name

namespace Xml

variable {ι κ : Type}

namespace Forest

theorem allElements_element (mark : ι) (name : String) (attributes : Attributes) (children next : Forest ι) :
    (element mark name attributes children next).allElements =
      ⟨mark, name, attributes, children⟩ :: (children.allElements ++ next.allElements) := by
  simp [allElements, nodes, Node.element?]

/-! ## Ends of segments -/

/-- the elements that segments lead to one after the other -/
def ends : Forest ι → List Segment → List (Element ι)
  | _, [] => []
  | f, [segment] => stepFrom segment f
  | f, segment :: rest => (stepFrom segment f).flatMap fun e => e.children.ends rest

/-- the ends of segments in document order, each once -/
def picked [DecidableEq ι] (f : Forest ι) (segments : List Segment) : List (Element ι) :=
  f.allElements.filter (· ∈ f.ends segments)

theorem ends_cons (f : Forest ι) (segment next : Segment) (rest : List Segment) :
    f.ends (segment :: next :: rest) = (stepFrom segment f).flatMap fun e => e.children.ends (next :: rest) := rfl

theorem ends_cons_concat (f : Forest ι) (segment : Segment) (rest : List Segment) (last : Segment) :
    f.ends (segment :: (rest ++ [last])) = (stepFrom segment f).flatMap fun e => e.children.ends (rest ++ [last]) := by
  cases rest <;> rfl

theorem mem_allElements_of_mem_ends {f : Forest ι} {segments : List Segment} {e : Element ι} (h : e ∈ f.ends segments) :
    e ∈ f.allElements := by
  induction segments generalizing f with
  | nil => exact absurd h List.not_mem_nil
  | cons segment rest ih =>
    cases rest with
    | nil => exact mem_allElements_of_mem_stepFrom h
    | cons next rest =>
      obtain ⟨m, hm, he⟩ := List.mem_flatMap.1 h
      exact mem_allElements_of_mem_children (mem_allElements_of_mem_stepFrom hm) (ih he)

theorem mem_picked [DecidableEq ι] {f : Forest ι} {segments : List Segment} {e : Element ι} :
    e ∈ f.picked segments ↔ e ∈ f.ends segments := by
  rw [picked, List.mem_filter, decide_eq_true_iff]
  exact ⟨And.right, fun h => ⟨mem_allElements_of_mem_ends h, h⟩⟩

/-- below an element stand some of the elements of the forest, in their order -/
theorem sublist_allElements {f : Forest ι} {e : Element ι} (he : e ∈ f.allElements) :
    e.children.allElements.Sublist f.allElements := by
  have nodes : e.children.nodes.Sublist f.nodes := by
    have he := mem_allElements.1 he
    induction f with
    | nil => exact absurd he List.not_mem_nil
    | leaf mark kind value next ih =>
      rcases mem_nodes_leaf.1 he with he | he
      · cases he
      · exact (ih (mem_allElements.2 he) he).cons _
    | element mark name attributes children next ihc ihn =>
      rcases mem_nodes_element.1 he with he | he | he
      · cases he
        exact (List.sublist_append_left _ _).cons _
      · exact ((ihc (mem_allElements.2 he) he).trans (List.sublist_append_left _ _)).cons _
      · exact ((ihn (mem_allElements.2 he) he).trans (List.sublist_append_right _ _)).cons _
  exact nodes.filterMap _

end Forest

/-! ## Locators -/

/-- a list keeps of a longer one what it has of it, if nothing else is to be kept -/
theorem filter_eq_of_sublist {α : Type} {short long : List α} (h : short.Sublist long) (hl : long.Nodup) {keeps : α → Bool}
    (hk : ∀ a ∈ long, keeps a = true → a ∈ short) : long.filter keeps = short.filter keeps := by
  have same : ∀ a, a ∈ short.filter keeps ↔ a ∈ long.filter keeps := by
    intro a
    rw [List.mem_filter, List.mem_filter]
    exact ⟨fun ha => ⟨h.subset ha.1, ha.2⟩, fun ha => ⟨hk a ha.1 ha.2, ha.2⟩⟩
  have perm := (List.perm_ext_iff_of_nodup ((h.nodup hl).filter _) (hl.filter _)).2 same
  exact ((h.filter keeps).eq_of_length perm.length_eq).symm

namespace Document

variable {d : Document}

theorem mem_orderedElements_of_mem_children {m e : Element Nat} (hm : m ∈ d.orderedElements) (he : e ∈ m.children.allElements) :
    e ∈ d.orderedElements := by
  rcases mem_orderedElements.1 hm with hm | hm
  · exact mem_orderedElements.2 (Or.inl (mem_allElements_of_mem_children hm he))
  · exact mem_orderedElements.2 (Or.inr (mem_allElements_of_mem_children hm he))

/-- **What segments reach** from any nodes are their ends below these, in the order of all elements and each once. -/
theorem walk_eq_filter (h : d.Numbered) {reached : List (Forest Nat)}
    (known : ∀ f ∈ reached, ∀ e ∈ f.allElements, e ∈ d.orderedElements) (segments : List Segment) :
    d.walk reached segments = d.orderedElements.filter (· ∈ reached.flatMap fun f => f.ends segments) := by
  induction segments generalizing reached with
  | nil => simp [walk, Forest.ends]
  | cons segment rest ih =>
    have found : ∀ e ∈ reached.flatMap (stepFrom segment), e ∈ d.orderedElements := by
      intro e he
      obtain ⟨f, hf, he⟩ := List.mem_flatMap.1 he
      exact known f hf e (mem_allElements_of_mem_stepFrom he)
    have advanced : d.advance segment reached = d.orderedElements.filter (· ∈ reached.flatMap (stepFrom segment)) :=
      inOrder_eq_filter h found
    cases rest with
    | nil => exact advanced
    | cons next rest =>
      have mem : ∀ m, m ∈ d.advance segment reached ↔ m ∈ reached.flatMap (stepFrom segment) := by
        intro m
        rw [advanced, List.mem_filter, decide_eq_true_iff]
        exact ⟨And.right, fun hm => ⟨found m hm, hm⟩⟩
      have below : ∀ f ∈ (d.advance segment reached).map Element.children, ∀ e ∈ f.allElements, e ∈ d.orderedElements := by
        intro f hf e he
        obtain ⟨m, hm, rfl⟩ := List.mem_map.1 hf
        exact mem_orderedElements_of_mem_children (found m ((mem m).1 hm)) he
      have ends : ∀ e, e ∈ ((d.advance segment reached).map Element.children).flatMap (fun f => f.ends (next :: rest)) ↔
          e ∈ reached.flatMap fun f => f.ends (segment :: next :: rest) := by
        intro e
        simp only [Forest.ends_cons, List.mem_flatMap, List.mem_map, exists_exists_and_eq_and, mem]
        constructor
        · intro beyond
          obtain ⟨m, ⟨f, hf, hm⟩, he⟩ := beyond
          exact ⟨f, hf, m, hm, he⟩
        · intro through
          obtain ⟨f, hf, m, hm, he⟩ := through
          exact ⟨m, ⟨f, hf, hm⟩, he⟩
      have onwards :
          d.walk reached (segment :: next :: rest) = d.walk ((d.advance segment reached).map Element.children) (next :: rest) := rfl
      rw [onwards, ih below]
      exact List.filter_congr fun e _ => decide_eq_decide.2 (ends e)

/-- **What a locator picks out** from an attached node are the ends of its segments below the node where it starts. -/
theorem selectFrom_eq_picked (h : d.Numbered) {n : Nat} (hn : d.Attached n) (l : Locator) :
    d.selectFrom n l = (if l.relative then d.children n else d.attached).picked l.segments := by
  have start : ∀ f : Forest Nat, f.allElements.Sublist d.attached.allElements → d.walk [f] l.segments = f.picked l.segments := by
    intro f inside
    have listed : f.allElements.Sublist d.orderedElements := inside.trans (List.sublist_append_left _ _)
    have known : ∀ g ∈ [f], ∀ e ∈ g.allElements, e ∈ d.orderedElements := by
      intro g hg e he
      rw [List.mem_singleton.1 hg] at he
      exact listed.subset he
    rw [walk_eq_filter h known, List.flatMap_singleton]
    exact filter_eq_of_sublist listed (h.nodup_orderedElements.of_map _)
      fun e _ he => Forest.mem_allElements_of_mem_ends (of_decide_eq_true he)
  have below : (d.children n).allElements.Sublist d.attached.allElements := by
    rcases hn with rfl | hn
    · exact List.Sublist.refl _
    · obtain ⟨node, hnode, rfl⟩ := Forest.mem_marks.1 hn
      rw [h.children_of_mem (Or.inl hnode)]
      cases node with
      | leaf => exact List.nil_sublist _
      | element e => exact Forest.sublist_allElements (Forest.mem_allElements.2 hnode)
  rw [selectFrom]
  split
  · exact start _ below
  · exact start _ (List.Sublist.refl _)

theorem select_eq_picked (h : d.Numbered) (l : Locator) : d.select l = d.attached.picked l.segments := by
  rw [select, selectFrom_eq_picked h (Or.inl rfl)]
  split <;> rfl

end Document

/-! ## Changes that keep all elements in their places -/

/-- a change of content that puts an element in the place of every element, and changes what is below that likewise -/
structure Replaces (replace : Element ι → Element κ) (change : Forest ι → Forest κ) : Prop where
  elements : ∀ f, (change f).elements = f.elements.map replace
  allElements : ∀ f, (change f).allElements = f.allElements.map replace
  children : ∀ e, (replace e).children = change e.children

/-- a segment that tells no element from the one in its place: their names pass its name test alike, and the attributes that it asks
for are the same -/
structure Overlooks (segment : Segment) (replace : Element ι → Element κ) : Prop where
  names : ∀ e, segment.matchesName (replace e).name = segment.matchesName e.name
  attributes : ∀ predicate ∈ segment.predicates, ∀ asked ∈ predicate.attribute?, ∀ e,
    (replace e).attributes.get? asked = e.attributes.get? asked

variable {replace : Element ι → Element κ} {mark : ι → κ} {change : Forest ι → Forest κ}

theorem applyPredicate_map {predicate : Predicate}
    (same : ∀ asked ∈ predicate.attribute?, ∀ e, (replace e).attributes.get? asked = e.attributes.get? asked)
    (group : List (Element ι)) : applyPredicate (group.map replace) predicate = (applyPredicate group predicate).map replace := by
  cases predicate with
  | position place =>
    cases place with
    | zero => rfl
    | succ place =>
      rw [applyPredicate, applyPredicate, List.getElem?_map]
      cases group[place]? <;> rfl
  | hasAttribute name =>
    rw [applyPredicate, applyPredicate, List.filter_map]
    congr 1
    exact List.filter_congr fun e _ => congrArg Option.isSome (same name rfl e)
  | attributeEquals name literal =>
    rw [applyPredicate, applyPredicate, List.filter_map]
    congr 1
    exact List.filter_congr fun e _ => congrArg (· == some (Predicate.literalValue literal)) (same name rfl e)

theorem Overlooks.applySegment {segment : Segment} (blind : Overlooks segment replace) (group : List (Element ι)) :
    applySegment segment (group.map replace) = (applySegment segment group).map replace := by
  have predicates : ∀ predicates ⊆ segment.predicates, ∀ group : List (Element ι),
      predicates.foldl applyPredicate (group.map replace) = (predicates.foldl applyPredicate group).map replace := by
    intro predicates
    induction predicates with
    | nil => exact fun _ _ => rfl
    | cons predicate rest ih =>
      intro asked group
      rw [List.foldl_cons, List.foldl_cons, applyPredicate_map (blind.attributes predicate (asked List.mem_cons_self)),
        ih (List.subset_of_cons_subset asked)]
  rw [Xml.applySegment, Xml.applySegment, List.filter_map, predicates _ (List.Subset.refl _)]
  congr 2
  exact List.filter_congr fun e _ => blind.names e

namespace Replaces

/-- a change is told by what it does to the first of the siblings -/
theorem of_cases (nil : change .nil = .nil)
    (leaf : ∀ mark kind value next, (change (.leaf mark kind value next)).elements = (change next).elements ∧
      (change (.leaf mark kind value next)).allElements = (change next).allElements)
    (element : ∀ mark name attributes children next, change (.element mark name attributes children next) =
      let e := replace ⟨mark, name, attributes, children⟩
      .element e.mark e.name e.attributes e.children (change next))
    (children : ∀ e, (replace e).children = change e.children) : Replaces replace change where
  elements f := by
    induction f with
    | nil =>
      rw [nil]
      rfl
    | leaf mark kind value next ih =>
      rw [(leaf mark kind value next).1, ih]
      rfl
    | element mark name attributes below next _ ihn =>
      rw [element, Forest.elements_element, Forest.elements_element, ihn]
      rfl
  allElements f := by
    induction f with
    | nil =>
      rw [nil]
      rfl
    | leaf mark kind value next ih =>
      rw [(leaf mark kind value next).2, ih]
      rfl
    | element mark name attributes below next ihc ihn =>
      rw [element, Forest.allElements_element, Forest.allElements_element, children, ihc, ihn, List.map_cons, List.map_append,
        ← children]
  children := children

theorem stepFrom (h : Replaces replace change) {segment : Segment} (blind : Overlooks segment replace) (f : Forest ι) :
    stepFrom segment (change f) = (stepFrom segment f).map replace := by
  have same : groups (change f) segment.axis = (groups f segment.axis).map (List.map replace) := by
    cases segment.axis with
    | child => simp [groups, h.elements]
    | descendant =>
      simp only [groups, h.elements, h.allElements, List.map_cons, List.map_map]
      congr 1
      refine List.map_congr_left fun e _ => ?_
      rw [Function.comp_apply, h.children, h.elements]
      rfl
  rw [Xml.stepFrom, Xml.stepFrom, same, List.flatMap_map, List.map_flatMap]
  exact List.flatMap_congr fun group _ => blind.applySegment group

/-- **The ends of segments** are replaced as all elements are, if the segments overlook it. -/
theorem ends (h : Replaces replace change) {segments : List Segment} (blind : ∀ segment ∈ segments, Overlooks segment replace)
    (f : Forest ι) : (change f).ends segments = (f.ends segments).map replace := by
  induction segments generalizing f with
  | nil => rfl
  | cons segment rest ih =>
    have first := h.stepFrom (blind segment List.mem_cons_self) f
    cases rest with
    | nil => exact first
    | cons next rest =>
      rw [Forest.ends_cons, Forest.ends_cons, first, List.flatMap_map, List.map_flatMap]
      refine List.flatMap_congr fun e _ => ?_
      rw [h.children]
      exact ih (fun segment hs => blind segment (List.mem_cons_of_mem _ hs)) e.children

/-- **What segments pick out** is replaced likewise and keeps its order, if different elements are replaced by different ones. -/
theorem picked [DecidableEq ι] [DecidableEq κ] (h : Replaces replace change) {f : Forest ι} (hf : f.marks.Nodup)
    (apart : ∀ m ∈ f.allElements, ∀ n ∈ f.allElements, replace m = replace n → m.mark = n.mark) {segments : List Segment}
    (blind : ∀ segment ∈ segments, Overlooks segment replace) :
    (change f).picked segments = (f.picked segments).map replace := by
  rw [Forest.picked, Forest.picked, h.allElements, h.ends blind, List.filter_map]
  congr 1
  refine List.filter_congr ?_
  intro e he
  refine decide_eq_decide.2 ⟨?_, List.mem_map_of_mem⟩
  intro found
  obtain ⟨e', he', same⟩ := List.mem_map.1 found
  have he'' := Forest.mem_allElements_of_mem_ends he'
  exact Forest.eq_of_mark_eq hf he'' he (apart e' he'' e he same) ▸ he'

end Replaces

/-- an element with another mark, and with what is below it changed -/
def Element.recast (mark : ι → κ) (change : Forest ι → Forest κ) (e : Element ι) : Element κ :=
  ⟨mark e.mark, e.name, e.attributes, change e.children⟩

/-- a change that keeps all elements in their places, with their names and attributes -/
structure Recasts (mark : ι → κ) (change : Forest ι → Forest κ) : Prop where
  elements : ∀ f, (change f).elements = f.elements.map (Element.recast mark change)
  allElements : ∀ f, (change f).allElements = f.allElements.map (Element.recast mark change)

theorem Replaces.recasts (h : Replaces (Element.recast mark change) change) : Recasts mark change :=
  ⟨h.elements, h.allElements⟩

theorem overlooks_recast (segment : Segment) : Overlooks segment (Element.recast mark change) :=
  ⟨fun _ => rfl, fun _ _ _ _ _ => rfl⟩

namespace Recasts

theorem replaces (h : Recasts mark change) : Replaces (Element.recast mark change) change :=
  ⟨h.elements, h.allElements, fun _ => rfl⟩

/-- **The ends of segments** are kept. -/
theorem ends (h : Recasts mark change) (segments : List Segment) (f : Forest ι) :
    (change f).ends segments = (f.ends segments).map (Element.recast mark change) :=
  h.replaces.ends (fun segment _ => overlooks_recast segment) f

/-- **What segments pick out** is kept, with its order, if different marks become different. -/
theorem picked [DecidableEq ι] [DecidableEq κ] (h : Recasts mark change) {f : Forest ι} (hf : f.marks.Nodup)
    (apart : ∀ m ∈ f.marks, ∀ n ∈ f.marks, mark m = mark n → m = n) (segments : List Segment) :
    (change f).picked segments = (f.picked segments).map (Element.recast mark change) := by
  refine h.replaces.picked hf ?_ fun segment _ => overlooks_recast segment
  intro m hm n hn same
  have known : ∀ e ∈ f.allElements, e.mark ∈ f.marks := fun e he => Forest.mem_marks_of_mem (Forest.mem_allElements.1 he)
  exact apart _ (known m hm) _ (known n hn) (congrArg Element.mark same)

end Recasts

/-! ## Marks taken off -/

theorem recasts_erase : Recasts (fun _ : ι => ()) Forest.erase :=
  (Replaces.of_cases rfl (fun _ _ _ _ => ⟨rfl, rfl⟩) (fun _ _ _ _ _ => rfl) fun _ => rfl).recasts

/-- whether a locator picks out anything is decided by content alone -/
theorem Document.select_eq_nil_iff {d : Document} (h : d.Numbered) (l : Locator) :
    d.select l = [] ↔ d.attached.erase.ends l.segments = [] := by
  rw [select_eq_picked h, recasts_erase.ends, List.map_eq_nil_iff, List.eq_nil_iff_forall_not_mem, List.eq_nil_iff_forall_not_mem]
  exact forall_congr' fun e => not_congr Forest.mem_picked

/-! ## Texts joined -/

theorem Forest.allElements_prependText (f : Forest ι) (mark : ι) (value : String) :
    (f.prependText mark value).allElements = f.allElements := by
  rcases prependText_cases f mark value with ⟨i, more, next, rfl, e⟩ | ⟨_, e⟩ <;> rw [e] <;> rfl

theorem recasts_joinTexts : Recasts id (Forest.joinTexts : Forest ι → Forest ι) := by
  refine (Replaces.of_cases rfl ?_ (fun _ _ _ _ _ => rfl) fun _ => rfl).recasts
  intro mark kind value next
  cases kind with
  | text => exact ⟨Forest.elements_prependText _ mark value, Forest.allElements_prependText _ mark value⟩
  | cdata => exact ⟨rfl, rfl⟩
  | comment => exact ⟨rfl, rfl⟩

namespace Forest

theorem marks_joinTexts (f : Forest ι) : f.joinTexts.marks.Sublist f.marks := by
  induction f with
  | nil => exact List.Sublist.refl _
  | leaf mark kind value next ih =>
    cases kind with
    | text =>
      rw [joinTexts, marks_leaf]
      rcases prependText_cases next.joinTexts mark value with ⟨i, more, rest, joined, e⟩ | ⟨_, e⟩
      · rw [joined, marks_leaf] at ih
        rw [e, marks_leaf]
        exact ((List.sublist_cons_self i rest.marks).trans ih).cons_cons mark
      · rw [e]
        exact ih.cons_cons mark
    | cdata => exact ih.cons_cons mark
    | comment => exact ih.cons_cons mark
  | element mark name attributes children next ihc ihn =>
    rw [joinTexts, marks_element, marks_element]
    exact (ihc.append ihn).cons_cons mark

theorem erase_joinTexts (f : Forest ι) : f.joinTexts.erase = f.erase.joinTexts := by
  have prepended : ∀ (g : Forest ι) (mark : ι) (value : String),
      (g.prependText mark value).erase = g.erase.prependText () value := by
    intro g mark value
    rcases prependText_cases g mark value with ⟨i, more, next, rfl, e⟩ | ⟨hs, e⟩
    · rw [e]; rfl
    · have starts : g.erase.startsWithText = g.startsWithText := by
        cases g with
        | nil => rfl
        | leaf i kind given next => cases kind <;> rfl
        | element => rfl
      rw [e, prependText_of_not_text (starts.trans hs)]
      rfl
  induction f with
  | nil => rfl
  | leaf mark kind value next ih =>
    cases kind with
    | text => rw [joinTexts, prepended, ih]; rfl
    | cdata => simp only [joinTexts, erase, ih]
    | comment => simp only [joinTexts, erase, ih]
  | element mark name attributes children next ihc ihn => simp only [joinTexts, erase, ihc, ihn]

theorem text_joinTexts (f : Forest ι) : f.joinTexts.text = f.text := by
  induction f with
  | nil => rfl
  | leaf mark kind value next ih =>
    cases kind with
    | text =>
      rw [joinTexts, text, ← ih]
      rcases prependText_cases next.joinTexts mark value with ⟨i, more, rest, joined, e⟩ | ⟨_, e⟩
      · rw [e, joined]
        simp [text, LeafKind.isText, String.append_assoc]
      · rw [e]
        rfl
    | cdata => simp only [joinTexts, text, ih]
    | comment => simp only [joinTexts, text, ih]
  | element mark name attributes children next ihc ihn => simp only [joinTexts, text, ihc, ihn]

/-! ## Other marks -/

/-- the forest with other marks -/
def mapMarks (change : ι → κ) : Forest ι → Forest κ
  | .nil => .nil
  | .leaf mark kind value next => .leaf (change mark) kind value (next.mapMarks change)
  | .element mark name attributes children next =>
    .element (change mark) name attributes (children.mapMarks change) (next.mapMarks change)

variable (change : ι → κ)

theorem marks_mapMarks (f : Forest ι) : (f.mapMarks change).marks = f.marks.map change := by
  induction f with
  | nil => rfl
  | leaf mark kind value next ih => rw [mapMarks, marks_leaf, marks_leaf, ih, List.map_cons]
  | element mark name attributes children next ihc ihn =>
    rw [mapMarks, marks_element, marks_element, ihc, ihn, List.map_cons, List.map_append]

theorem erase_mapMarks (f : Forest ι) : (f.mapMarks change).erase = f.erase := by
  induction f with
  | nil => rfl
  | leaf mark kind value next ih => rw [mapMarks, erase, ih]; rfl
  | element mark name attributes children next ihc ihn => rw [mapMarks, erase, ihc, ihn]; rfl

/-- content and marks are all there is -/
theorem eq_of_erase_eq {f g : Forest ι} (content : f.erase = g.erase) (marks : f.marks = g.marks) : f = g := by
  induction f generalizing g with
  | nil => cases g <;> simp_all [erase]
  | leaf mark kind value next ih =>
    cases g with
    | leaf mark' kind' value' next' =>
      simp only [erase, leaf.injEq, true_and] at content
      simp only [marks_leaf, List.cons.injEq] at marks
      obtain ⟨rfl, rfl, content⟩ := content
      rw [marks.1, ih content marks.2]
    | nil => cases content
    | element => cases content
  | element mark name attributes children next ihc ihn =>
    cases g with
    | element mark' name' attributes' children' next' =>
      simp only [erase, element.injEq, true_and] at content
      obtain ⟨rfl, rfl, below, beside⟩ := content
      have size : children.marks.length = children'.marks.length := by
        rw [length_marks, length_marks, ← size_erase, below, size_erase]
      simp only [marks_element, List.cons.injEq] at marks
      obtain ⟨here, there⟩ := List.append_inj marks.2 size
      rw [marks.1, ihc below here, ihn beside there]
    | nil => cases content
    | leaf => cases content

/-- **Numbering anew** gives other marks and changes nothing else. -/
theorem number_erase [DecidableEq ι] {f : Forest ι} (hf : f.marks.Nodup) (first : Nat) :
    f.erase.number first = f.mapMarks fun m => first + f.marks.idxOf m := by
  refine eq_of_erase_eq ?_ ?_
  · rw [erase_number, erase_mapMarks]
  · rw [marks_number, marks_mapMarks, size_erase, ← length_marks]
    refine List.ext_getElem (by simp) ?_
    intro i hi _
    simp [hf.idxOf_getElem]

end Forest

theorem recasts_mapMarks (change : ι → κ) : Recasts change (Forest.mapMarks change) :=
  (Replaces.of_cases rfl (fun _ _ _ _ => ⟨rfl, rfl⟩) (fun _ _ _ _ _ => rfl) fun _ => rfl).recasts

end Xml

end XmlStore
