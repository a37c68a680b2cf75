/-
What is built from events, as a forest and as an arena.

An assembly keeps the open elements apart from what is finished around them. An arena cannot: an element that is open stands in it like
any other, and only the stack tells that more will go below it. So at every moment it is the row of the document that there would be
if all open elements ended here (`Assembly.closed`), and the stack has the numbers of these elements in it. A node that is added goes
below the innermost of them, which is last in document order; so its number, which is the next free one, is just the one that it has in
that document.

Main statements:
- `Assembly.feed_building`: an event does to both what it does to one of them.
- `Document.parse_arena`, `Document.parseFragment_arena`: a text is read as the row of the document that it stands for.
-/
import XmlStore.Proofs.Xml.Relinking
import XmlStore.Proofs.Xml.Shapes
import XmlStore.Xml.Building

namespace XmlStore.Xml

open Text

namespace Assembly

/-! ## Open elements -/

/-- all that was read, if the open elements ended here -/
def closed : Forest Unit → List OpenElement → Forest Unit
  | here, [] => here
  | here, outer :: around => closed (outer.before.append (.element () outer.name outer.attributes here .nil)) around

/-- the number that the first node inside the innermost open element gets -/
def first : List OpenElement → Nat
  | [] => 1
  | outer :: around => first around + outer.before.size + 1

/-- the numbers of the open elements -/
def numbers : List OpenElement → List Nat
  | [] => []
  | outer :: around => (first around + outer.before.size) :: numbers around

/-- the document that there would be, as a row of nodes, and the open elements in it -/
def building (s : Assembly) : Building :=
  ⟨(Document.ofForest (closed s.here s.around)).arena, numbers s.around⟩

variable {here here' g : Forest Unit} {outer : OpenElement} {around : List OpenElement} {s : Assembly}

theorem size_closed (here : Forest Unit) (around : List OpenElement) : (closed here around).size + 1 = first around + here.size := by
  induction around generalizing here with
  | nil => exact Nat.add_comm _ _
  | cons outer around ih =>
    rw [closed, ih, Forest.size_append, first, Forest.size, Forest.size]
    omega

/-- the innermost open element, with what is finished in it, after what is finished before it -/
theorem number_innermost (outer : OpenElement) (here : Forest Unit) (first : Nat) :
    (outer.before.append (.element () outer.name outer.attributes here .nil)).number first =
      (outer.before.number first).append
        (.element (first + outer.before.size) outer.name outer.attributes (here.number (first + outer.before.size + 1)) .nil) :=
  Forest.number_append _ _ _

/-- what is done at a mark inside the innermost open element is done to what is finished there -/
theorem actsAt_closed {mark : Nat} {op : Forest Nat → Forest Nat} (h : Forest.ActsAt mark op) (inside : first around ≤ mark)
    (acts : op (here.number (first around)) = here'.number (first around)) :
    op ((closed here around).number 1) = (closed here' around).number 1 := by
  induction around generalizing here here' with
  | nil => exact acts
  | cons outer around ih =>
    rw [first] at inside acts
    refine ih (by omega) ?_
    have before : mark ∉ (outer.before.number (first around)).marks := by
      rw [Forest.marks_number, List.mem_range'_1]
      omega
    have other : first around + outer.before.size ≠ mark := by omega
    rw [number_innermost, number_innermost, h.append before, h.element _ _ _ _ other, acts, h.nil]

theorem mem_closed {n : Node Nat} (hn : n ∈ (here.number (first around)).nodes) : n ∈ ((closed here around).number 1).nodes := by
  induction around generalizing here with
  | nil => exact hn
  | cons outer around ih =>
    refine ih ?_
    rw [number_innermost, Forest.nodes_append, List.mem_append]
    exact Or.inr (Forest.mem_nodes_element.2 (Or.inr (Or.inl hn)))

/-- the innermost open element has the number that the stack says -/
theorem element?_innermost (here : Forest Unit) (outer : OpenElement) (around : List OpenElement) :
    (Document.ofForest (closed here (outer :: around))).element? (first around + outer.before.size) =
      some ⟨first around + outer.before.size, outer.name, outer.attributes, here.number (first around + outer.before.size + 1)⟩ := by
  let e : Element Nat :=
    ⟨first around + outer.before.size, outer.name, outer.attributes, here.number (first around + outer.before.size + 1)⟩
  have there : .element e ∈
      ((outer.before.append (.element () outer.name outer.attributes here .nil)).number (first around)).nodes := by
    rw [number_innermost, Forest.nodes_append, List.mem_append]
    exact Or.inr (Forest.mem_nodes_element.2 (Or.inl rfl))
  have inside := mem_closed there
  exact (Document.numbered_ofForest _).element?_of_mem (e := e) (Or.inl inside)

/-- nodes below the innermost open element come last -/
theorem appendNodes_closed (here g : Forest Unit) (outer : OpenElement) (around : List OpenElement) :
    (Document.ofForest (closed here (outer :: around))).appendNodes (first around + outer.before.size) g =
      Document.ofForest (closed (here.append g) (outer :: around)) := by
  have before := size_closed here (outer :: around)
  have after := size_closed (here.append g) (outer :: around)
  rw [Forest.size_append] at after
  have next : (closed here (outer :: around)).size + 1 + g.size = (closed (here.append g) (outer :: around)).size + 1 := by omega
  have room : first around + outer.before.size + 1 + here.size = (closed here (outer :: around)).size + 1 := by
    rw [before, first]
  let change : Element Nat → Element Nat := fun e =>
    { e with children := e.children.append (g.number ((closed here (outer :: around)).size + 1)) }
  have innermost : ((outer.before.append (.element () outer.name outer.attributes here .nil)).number (first around)).modify
        (first around + outer.before.size) change =
      (outer.before.append (.element () outer.name outer.attributes (here.append g) .nil)).number (first around) := by
    have before : first around + outer.before.size ∉ (outer.before.number (first around)).marks := by
      rw [Forest.marks_number, List.mem_range'_1]
      omega
    rw [number_innermost, number_innermost, (Forest.actsAt_modify _ _).append before, Forest.modify, if_pos rfl, Forest.number_append,
      room]
  have attached : ((closed here (outer :: around)).number 1).modify (first around + outer.before.size) change =
      (closed (here.append g) (outer :: around)).number 1 := by
    have around := actsAt_closed (Forest.actsAt_modify _ _) (Nat.le_add_right _ _) innermost
    exact around
  rw [Document.appendNodes, Document.modify, Document.mapForests, Document.ofForest, Document.ofForest, ← attached, ← next]
  rfl

/-! ## One event -/

/-- the row of a document that grew outermost -/
theorem eq_arena_ofForest_append {a : Arena} {f : Forest Unit} (grown : (Document.ofForest f).arena.Grown a Document.top g) :
    a = (Document.ofForest (f.append g)).arena := by
  have h := Document.gapless_ofForest f
  have r := h.represents
  have size : (f.append g).size + 1 = f.size + 1 + g.size := by
    rw [Forest.size_append]
    omega
  have given : (Document.ofForest f).arena.nodes.length = f.size + 1 := r.size
  have below := grown.below
  rw [given] at below
  have attached : (Document.ofForest (f.append g)).attached =
      (Document.ofForest f).attached.append (g.number (f.size + 1)) := by
    rw [Document.ofForest, Forest.number_append, Nat.add_comm 1]
    rfl
  refine Arena.Represents.eq_arena ⟨?_, ?_, ?_, trivial⟩ (Document.gapless_ofForest _)
  · rw [grown.size, given, ← size]
    rfl
  · rw [grown.above, r.topmost, Option.map_some, given, attached, Forest.outermost_append]
  · rw [attached]
    refine Arena.Holds.append (r.attached.congr fun m hm => grown.same m (r.attached.given hm) ?_) below
    exact h.ne_top (List.mem_append_left _ hm)

/-- **What is added below the innermost open element** stands where it would if all open elements ended there. -/
theorem grow_building {a : Arena} (grown : s.building.arena.Grown a s.building.parent g) :
    a = (Document.ofForest (closed (s.here.append g) s.around)).arena := by
  obtain ⟨here, around⟩ := s
  cases around with
  | nil => exact eq_arena_ofForest_append grown
  | cons outer around =>
    have h := Document.gapless_ofForest (closed here (outer :: around))
    have found := element?_innermost here outer around
    have represents := h.represents.grow h.toNumbered found grown
    rw [represents.eq_arena (Document.Becomes.gapless (.extended found g) h), appendNodes_closed]

theorem parent_lt (s : Assembly) : s.building.parent < s.building.arena.nodes.length := by
  obtain ⟨here, around⟩ := s
  have h := Document.gapless_ofForest (closed here around)
  have size : (building ⟨here, around⟩).arena.nodes.length = (Document.ofForest (closed here around)).next := h.represents.size
  rw [size]
  cases around with
  | nil => exact h.next
  | cons outer around => exact h.lt_next (element?_innermost here outer around)

theorem add_leaf_building (s : Assembly) (kind : LeafKind) (value : String) :
    s.building.add (.leaf kind value) = (s.add (.leaf () kind value .nil)).building :=
  congrArg (Building.mk · (numbers s.around)) (grow_building (.leaf (parent_lt s) kind value))

theorem add_element_building (s : Assembly) (name : String) (attributes : Attributes) :
    s.building.add (.element name attributes) = (s.add (.element () name attributes .nil .nil)).building :=
  congrArg (Building.mk · (numbers s.around)) (grow_building (.element (parent_lt s) (.refl _ _)))

theorem checkInside_building (shape : Shape) (s : Assembly) : s.building.checkInside shape = checkInside shape s := by
  obtain ⟨here, around⟩ := s
  cases around <;> simp [Building.checkInside, checkInside, building, numbers]

/-- **An event does to the row** what it does to the assembly. -/
theorem feed_building (shape : Shape) (s : Assembly) (event : Event) :
    s.building.feed shape event = (s.feed shape event).map building := by
  cases event with
  | startTag name rest =>
    rw [Building.feed, feed]
    cases readAttributes name rest with
    | error e => rfl
    | ok attributes =>
      have inside : (building ⟨.nil, ⟨name, attributes, s.here⟩ :: s.around⟩).arena =
          (Document.ofForest (closed (s.here.append (.element () name attributes .nil .nil)) s.around)).arena := rfl
      have number : s.building.arena.nodes.length = first s.around + s.here.size := by
        rw [← size_closed]
        exact (Document.gapless_ofForest (closed s.here s.around)).represents.size
      have grown : s.building.arena.Grown (s.building.arena.pushChild s.building.parent (.element name attributes)).2 s.building.parent
          (.element () name attributes .nil .nil) := .element (parent_lt s) (.refl _ _)
      have pushed := grow_building grown
      simp only [ok_bind', pure_ok, ok_map, Arena.pushChild] at pushed ⊢
      rw [pushed, number, ← inside]
      rfl
  | emptyTag name rest =>
    rw [Building.feed, feed]
    cases readAttributes name rest with
    | error e => rfl
    | ok attributes => exact congrArg Except.ok (s.add_element_building name attributes)
  | endTag name =>
    obtain ⟨here, around⟩ := s
    cases around with
    | nil => rfl
    | cons outer around => rfl
  | text raw =>
    rw [Building.feed, feed, addText, checkInside_building]
    cases resolve raw with
    | error fault => rfl
    | ok value =>
      simp only [ok_mapError, ok_bind']
      cases checkChars .text value with
      | error e => rfl
      | ok _ =>
        simp only [ok_bind']
        by_cases blank : value.all isBlank = true
        · rw [if_pos blank, if_pos blank]
          rfl
        · rw [if_neg blank, if_neg blank]
          cases checkInside shape s with
          | error e => rfl
          | ok _ => exact congrArg Except.ok (s.add_leaf_building .text _)
  | cdata value =>
    rw [Building.feed, feed, checkInside_building]
    cases checkInside shape s with
    | error e => rfl
    | ok _ =>
      simp only [ok_bind']
      cases checkChars .cdata value with
      | error e => rfl
      | ok _ => exact congrArg Except.ok (s.add_leaf_building .cdata _)
  | comment value =>
    rw [Building.feed, feed]
    cases checkChars .comment value with
    | error e => rfl
    | ok _ => exact congrArg Except.ok (s.add_leaf_building .comment _)
  | skipped => rfl

/-- the open elements have their names in the row -/
theorem names_building (here : Forest Unit) (around : List OpenElement) :
    (numbers around).filterMap (Document.ofForest (closed here around)).arena.name? = around.map OpenElement.name := by
  induction around generalizing here with
  | nil => rfl
  | cons outer around ih =>
    have h := Document.numbered_ofForest (closed here (outer :: around))
    have found := element?_innermost here outer around
    have name : (Document.ofForest (closed here (outer :: around))).arena.name? (first around + outer.before.size) =
        some outer.name := by
      rw [h.name?_arena, found]
      rfl
    rw [numbers, List.filterMap_cons_some name, List.map_cons]
    exact congrArg _ (ih _)

theorem finish_building (s : Assembly) : s.building.finish = s.finish.map fun f => (Document.ofForest f).arena := by
  obtain ⟨here, around⟩ := s
  cases around with
  | nil => rfl
  | cons outer around =>
    have names := names_building here (outer :: around)
    rw [Building.finish, finish, if_neg (by simp [building, numbers]), if_neg (by simp), List.filterMap_reverse]
    exact congrArg (fun names => Except.error (XmlError.unclosedElements names.reverse)) names

end Assembly

/-! ## Reading -/

/-- what a reader has put together, as an arena -/
def Reader.building (r : Reader) : Scanner × Building :=
  (r.scanner, r.assembly.building)

theorem Reader.step_building (shape : Shape) (r : Reader) (c : Char) :
    Building.step shape r.building c = (r.step shape c).map Reader.building := by
  rw [Building.step, Reader.step, Reader.building]
  cases r.scanner.step c with
  | error e => rfl
  | ok next =>
    obtain ⟨scanner, event⟩ := next
    cases event with
    | none => rfl
    | some event =>
      simp only [ok_bind', r.assembly.feed_building shape event]
      cases r.assembly.feed shape event <;> rfl

namespace Arena

theorem build_eq (shape : Shape) (text : String) :
    build shape text = (Reader.run shape (dropMark text.toList)).map fun f => (Document.ofForest f).arena := by
  have start : (Scanner.initial, Building.initial) = Reader.initial.building := rfl
  rw [build, Reader.run, start, foldlM_map Reader.building (Reader.step_building shape)]
  cases (dropMark text.toList).foldlM (Reader.step shape) Reader.initial with
  | error e => rfl
  | ok r =>
    simp only [ok_map, ok_bind, ok_bind', Reader.building, Reader.finish]
    cases r.scanner.finish with
    | error e => rfl
    | ok event =>
      simp only [ok_bind', r.assembly.feed_building shape event]
      cases r.assembly.feed shape event with
      | error e => rfl
      | ok s => exact s.finish_building

end Arena

namespace Document

/-- **A text is read** as the row of the document that it stands for, or refused for the same reason. -/
theorem parse_arena (text : String) : Arena.parse text = (parse text).map arena := by
  rw [Arena.parse, parse, readForest, Arena.build_eq]
  cases Reader.run .document (dropMark text.toList) with
  | error e => rfl
  | ok f =>
    have h := numbered_ofForest f
    have names {e : Element Nat} (he : e ∈ (ofForest f).attached.elements) : (ofForest f).arena.name? e.mark = some e.name := by
      have there := Forest.mem_nodes_of_mem_siblings (Forest.mem_elements.1 he)
      rw [h.name?_arena, h.element?_of_mem (Or.inl there)]
      rfl
    have listed : (ofForest f).arena.childElements top = (ofForest f).attached.elements.map Element.mark := h.childElements_arena top
    simp only [ok_map, ok_bind', listed, checkShape, elements_ofForest]
    cases outermost : (ofForest f).attached.elements with
    | nil => rfl
    | cons root rest =>
      cases rest with
      | nil => rfl
      | cons second rest =>
        have name : (ofForest f).arena.name? second.mark = some second.name := names (by simp [outermost])
        simp only [List.map_cons, name]
        rfl

theorem parseFragment_arena (text : String) : Arena.parseFragment text = (parseFragment text).map arena := by
  rw [Arena.parseFragment, parseFragment, readForest, Arena.build_eq]
  cases Reader.run .fragment (dropMark text.toList) with
  | error e => rfl
  | ok f =>
    simp only [ok_map, ok_bind', (numbered_ofForest f).root?_arena, checkShape, elements_ofForest, root?]
    cases (ofForest f).attached.elements <;> rfl

end Document

end XmlStore.Xml
