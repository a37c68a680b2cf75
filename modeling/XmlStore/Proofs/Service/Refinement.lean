/-
Edits of stored documents are edits of trees.

An operation that edits nodes goes from the stored text to numbered nodes, changes some of them, writes the whole content again and
stores it if that can be read. What comes of it is told here of trees without numbers: the content read from the new text is that
read from the old one with one element changed as the operation says, or with all hits pruned, and with adjacent texts joined.

Main statements:
- `Mutation.makes_tree`: what an edit makes of the tree.
- `Mutation.refines`: what is read from a stored document after an operation that has worked.
-/
import XmlStore.Proofs.Service.Edited
import XmlStore.Proofs.Service.Framing
import XmlStore.Proofs.Xml.Changes
import XmlStore.Proofs.Xml.Selection

namespace XmlStore.Service

open Xml

/-! ## What is hit and what is written -/

/-- what a target picks out of a document that was read stands in it, in document order -/
theorem Target.select_sublist {text : String} {d : Document} (h : Document.parse text = .ok d) (target : Target) :
    (target.select d).Sublist d.attached.allElements := by
  have attached : d.orderedElements = d.attached.allElements := by
    obtain ⟨f, -, rfl⟩ := map_eq_ok.1 h
    simp [Document.orderedElements, Document.ofForest, Forest.allElements, Forest.nodes]
  cases target with
  | locator path => exact attached ▸ d.walk_sublist _ _
  | unreadable error => exact List.nil_sublist _

/-- what is to be written is the text of the edited document, which can be read -/
theorem Edit.content_eq_some {edit : Edit} {target : Target} {d : Document} {content : String}
    (h : edit.content target d = .ok (some content)) :
    ∃ first rest edited again, target.select d = first :: rest ∧
      edit.apply d first.mark (rest.map Element.mark) = .ok (some edited) ∧ Document.parse edited.xml = .ok again ∧
      content = edited.xml := by
  unfold Edit.content at h
  cases found : target.select d with
  | nil =>
    rw [found] at h
    cases h
  | cons first rest =>
    simp only [found, List.map_cons, bind_eq_ok] at h
    obtain ⟨outcome, applied, h⟩ := h
    cases outcome with
    | none => cases h
    | some edited =>
      simp only [bind_eq_ok, pure_ok, Except.ok.injEq, Option.some.injEq] at h
      obtain ⟨again, reread, rfl⟩ := h
      exact ⟨first, rest, edited, again, rfl, mapError_eq_ok.1 applied, mapError_eq_ok.1 reread, rfl⟩

/-! ## What the operations do to trees -/

/-- an operation that edits nodes -/
inductive Mutation where
  | addNode (xml : String)
  | editText (text : String)
  | editName (name : String)
  | addAttribute (name value : String)
  | removeAttribute (name : String)
  | deleteNode
  deriving DecidableEq, Repr

namespace Mutation

/-- the operation on the nodes that a target picks out of a document -/
def request (config : Config) (id : UInt64) (target : Target) (now : UInt64) : Mutation → Request (Outcome Bool)
  | .addNode xml => Service.addNode config id target xml now
  | .editText text => Service.editText config id target text now
  | .editName name => Service.editName config id target name now
  | .addAttribute name value => Service.addAttribute config id target name value now
  | .removeAttribute name => Service.removeAttribute config id target name now
  | .deleteNode => Service.deleteNode config id target now

/-- whether an operation adds no text that is only blanks -/
def Shows : Mutation → Prop
  | .editText text => text.isEmpty = true ∨ text.toList.all Text.isBlank = false
  | _ => True

/-- what an operation is to make of the content of a document, by its hits, of which `first` is the first: one element is changed, or
all hits are pruned, and everything else is as before -/
def Makes (mutation : Mutation) (d : Document) (first : Element Nat) (rest : List (Element Nat)) (tree : Forest Unit) : Prop :=
  match mutation with
  | .addNode xml => ∃ fragment, Document.parseFragment xml = .ok (.ofForest fragment) ∧
    d.attached.ChangedAt first.mark (fun e e' => e' = { e with children := e.children.append fragment }) tree
  | .editText text => d.attached.ChangedAt first.mark
    (fun e e' => e.children.TextSet text e'.children ∧ e' = { e with children := e'.children }) tree
  | .editName name => d.attached.ChangedAt first.mark (fun e e' => e' = { e with name }) tree
  | .addAttribute name value => d.attached.ChangedAt first.mark
    (fun e e' => e.attributes.SetTo name value e'.attributes ∧ e' = { e with attributes := e'.attributes }) tree
  | .removeAttribute name => d.attached.ChangedAt first.mark
    (fun e e' => e.attributes.TakenOut name e'.attributes ∧ e' = { e with attributes := e'.attributes }) tree
  | .deleteNode => tree = d.attached.prune fun mark => decide (mark ∈ (first :: rest).map Element.mark)

/-- whether a stored text stands for what an operation is to make of another: there are hits, in document order, and what is read
afterwards is what it makes of what was read before, with adjacent texts joined -/
def Refines (mutation : Mutation) (target : Target) (before after : String) : Prop :=
  ∃ d first rest tree, Document.parse before = .ok d ∧ target.select d = first :: rest ∧
    (first :: rest).Sublist d.attached.allElements ∧ mutation.Makes d first rest tree ∧
    Document.parse after = .ok (.ofForest tree.joinTexts)

/-- the edit that an operation carries out, if its arguments can be read -/
def edit : Mutation → Outcome Edit
  | .addNode xml => ((Document.parseFragment xml).mapError .invalidXml).map .add
  | .editText text => .ok (.setText text)
  | .editName name => .ok (.rename name)
  | .addAttribute name value => .ok (.setAttribute name value)
  | .removeAttribute name => .ok (.removeAttribute name)
  | .deleteNode => .ok .delete

theorem request_eq (mutation : Mutation) (config : Config) (id : UInt64) (target : Target) (now : UInt64) :
    mutation.request config id target now =
      match mutation.edit with
      | .error failure => .done (.error failure)
      | .ok edit => mutate config id target edit now := by
  cases mutation with
  | addNode xml =>
    rw [request, Service.addNode, edit]
    cases Document.parseFragment xml <;> rfl
  | _ => rfl

/-- what is added to a document was read as a fragment -/
theorem parseFragment_of_edit {mutation : Mutation} {fragment : Document} (h : mutation.edit = .ok (.add fragment)) :
    ∃ xml, mutation = .addNode xml ∧ Document.parseFragment xml = .ok fragment := by
  cases mutation with
  | addNode xml =>
    obtain ⟨_, hx, e⟩ := map_eq_ok.1 h
    cases e
    exact ⟨xml, rfl, mapError_eq_ok.1 hx⟩
  | _ => cases h

variable {mutation : Mutation} {d edited : Document} {edit : Edit} {first : Element Nat} {rest : List (Element Nat)}

/-- **What an edit makes of a tree** is what its operation is to make of it. -/
theorem makes_tree {before : String} (hd : Document.parse before = .ok d) (hfirst : first ∈ d.attached.allElements)
    (he : mutation.edit = .ok edit) (h : edit.apply d first.mark (rest.map Element.mark) = .ok (some edited)) :
    mutation.Makes d first rest (edit.tree d first.mark (rest.map Element.mark)).erase := by
  have built : d.Built := .parse hd
  have once := built.numbered.attached
  have there := Forest.mem_allElements.1 hfirst
  cases mutation with
  | addNode xml =>
    obtain ⟨fragment, hx, e⟩ := map_eq_ok.1 he
    subst e
    have read := mapError_eq_ok.1 hx
    obtain ⟨f, -, rfl⟩ := map_eq_ok.1 read
    refine ⟨f, read, Forest.changedAt_modify once there ?_⟩
    simp only [Element.erase, Forest.erase_append, Forest.erase_number, Document.ofForest]
  | editText text =>
    cases he
    refine Forest.changedAt_modify once there ?_
    simp only [Element.erase, Forest.erase_withText]
    exact ⟨Forest.textSet_withText _ text, trivial⟩
  | editName name =>
    cases he
    exact Forest.changedAt_modify once there rfl
  | addAttribute name value =>
    cases he
    exact Forest.changedAt_modify once there ⟨Attributes.setTo_set _ name value, rfl⟩
  | removeAttribute name =>
    cases he
    refine Forest.changedAt_modify once there ⟨?_, rfl⟩
    have wellFormed := built.wellFormed.attached.of_mem there
    obtain ⟨⟨_, removed⟩, h, e⟩ := map_eq_ok.1 h
    simp only [Document.removeAttribute, bind_eq_ok, pure_ok, Except.ok.injEq, Prod.mk.injEq] at h
    obtain ⟨e', required, -, found⟩ := h
    have same : d.element? first.mark = some first := by
      rw [Document.element?, show d.find? first.mark = some (.element first) from built.numbered.find?_of_mem (Or.inl there)]
      rfl
    rw [Document.element?_of_requireElement required] at same
    cases same
    refine Attributes.takenOut_remove wellFormed.2.1.distinct ?_
    cases removed with
    | true => exact found
    | false => cases e
  | deleteNode =>
    cases he
    rw [Makes, List.map_cons]
    exact Forest.erase_removeAll once _

/-- no blank text comes of it, unless one is asked for -/
theorem noBlanks_of_makes {before : String} (hd : Document.parse before = .ok d) (shows : mutation.Shows) {tree : Forest Unit}
    (h : mutation.Makes d first rest tree) : tree.NoBlanks := by
  have blanks := Document.noBlanks_of_parse hd
  cases mutation with
  | addNode xml =>
    obtain ⟨fragment, hx, h⟩ := h
    obtain ⟨f, hf, same⟩ := map_eq_ok.1 hx
    have read : fragment = f := by
      have erased := congrArg (fun d : Document => d.attached.erase) same
      simpa [Document.ofForest, Forest.erase_number] using erased.symm
    refine h.noBlanks blanks ?_
    rintro e _ rfl below
    exact Forest.noBlanks_append.2 ⟨below, read ▸ (readForest_sound hf).2.1⟩
  | editText text =>
    refine h.noBlanks blanks ?_
    rintro e e' ⟨⟨before, kind, given, after, whole, -, -, new⟩ | ⟨-, new⟩, -⟩ below
    · rw [whole, Forest.noBlanks_append] at below
      rw [new, Forest.noBlanks_append]
      refine ⟨below.1, ?_⟩
      split
      · exact below.2.2
      · rename_i notEmpty
        exact ⟨fun _ => shows.resolve_left notEmpty, below.2.2⟩
    · rw [new]
      split
      · exact below
      · rename_i notEmpty
        exact Forest.noBlanks_append.2 ⟨below, fun _ => shows.resolve_left notEmpty, trivial⟩
  | editName name =>
    refine h.noBlanks blanks ?_
    rintro e _ rfl below
    exact below
  | addAttribute name value =>
    refine h.noBlanks blanks ?_
    rintro e e' ⟨-, same⟩ below
    rw [same]
    exact below
  | removeAttribute name =>
    refine h.noBlanks blanks ?_
    rintro e e' ⟨-, same⟩ below
    rw [same]
    exact below
  | deleteNode =>
    rw [Makes] at h
    subst h
    exact Forest.noBlanks_prune blanks _

/-! ## From text to text -/

/-- what is added to a document was read before, so an edit is made of single ones -/
theorem edits_apply (he : mutation.edit = .ok edit) {first : Nat} {rest : List Nat}
    (h : edit.apply d first rest = .ok (some edited)) : Relation.ReflTransGen Document.EditsTo d edited := by
  apply Edit.edits_apply _ h
  rintro fragment rfl
  obtain ⟨_, -, hx⟩ := parseFragment_of_edit he
  exact .parseFragment hx

/-- an edited document is well formed, and nothing but the root and comments is outermost in it -/
theorem rooted_apply {text : String} (hd : Document.parse text = .ok d) (he : mutation.edit = .ok edit) {first : Nat}
    {rest : List Nat} (h : edit.apply d first rest = .ok (some edited)) {root : Nat} (hr : d.attached.Rooted root) :
    edited.attached.WellFormed ∧ edited.attached.Rooted root := by
  have built : d.Built := .parse hd
  have edits := edits_apply he h
  exact ⟨(Document.built_of_edits built edits).wellFormed.attached, Document.rooted_of_edits built edits hr⟩

/-- **What is written for a document** is read as the tree that the edit makes of it, with adjacent texts joined. -/
theorem parse_of_content {target : Target} {before content : String} (hd : Document.parse before = .ok d)
    (shows : mutation.Shows) (he : mutation.edit = .ok edit) (h : edit.content target d = .ok (some content)) :
    ∃ first rest, target.select d = first :: rest ∧
      let tree := edit.tree d first.mark (rest.map Element.mark)
      mutation.Makes d first rest tree.erase ∧ tree.marks.Nodup ∧ Document.parse content = .ok (.ofForest tree.erase.joinTexts) := by
  obtain ⟨first, rest, edited, again, hits, applied, reread, rfl⟩ := Edit.content_eq_some h
  have inside : first ∈ d.attached.allElements := (hits ▸ target.select_sublist hd).subset List.mem_cons_self
  have makes := makes_tree hd inside he applied
  have tree := Edit.attached_apply (Document.Built.parse hd).numbered applied
  have once := (Document.built_of_edits (.parse hd) (edits_apply he applied)).numbered.attached
  obtain ⟨root, -, rooted⟩ := Document.rooted_of_parse hd
  obtain ⟨wellFormed, outermost⟩ := rooted_apply hd he applied rooted
  have read := Document.parse_xml_of_rooted wellFormed outermost
  have kept := Forest.dropBlanks_of_noBlanks (Forest.noBlanks_joinTexts (noBlanks_of_makes hd shows makes))
  refine ⟨first, rest, hits, makes, tree ▸ once, ?_⟩
  rw [tree] at read
  rw [Document.xml, tree, read] at reread ⊢
  -- what was read again before it was written has kept the root
  split at reread
  · rename_i here
    rw [if_pos here, kept]
  · cases reread

/-- what is written for a document stands for what the operation is to make of it -/
theorem refines_of_content {target : Target} {before content : String} (hd : Document.parse before = .ok d)
    (shows : mutation.Shows) (he : mutation.edit = .ok edit) (h : edit.content target d = .ok (some content)) :
    mutation.Refines target before content := by
  obtain ⟨first, rest, hits, makes, -, read⟩ := parse_of_content hd shows he h
  exact ⟨d, first, rest, _, hd, hits, hits ▸ target.select_sublist hd, makes, read⟩

end Mutation

/-! ## On a store -/

/-- how an edit goes on with an open connection -/
def editing (config : Config) (id : UInt64) (target : Target) (edit : Edit) (now : UInt64) : Session (Outcome Bool) :=
  (loadRow id).whenOk fun (row, d) =>
    match edit.content target d with
    | .error failure => .done (.error failure)
    | .ok none => .done (.ok false)
    | .ok (some content) =>
      let expected := if config.optimisticConcurrency then some row.version else none
      (ask (.updateContent id content expected now)).whenOk fun _ => .done (.ok true)

theorem mutate_eq (config : Config) (id : UInt64) (target : Target) (edit : Edit) (now : UInt64) :
    mutate config id target edit now = connecting (editing config id target edit now) := rfl

/-- an edit that works has written what the edit makes of the document that was there -/
theorem editing_run_table {config : Config} {id : UInt64} {target : Target} {edit : Edit} {now : UInt64} {t : Table}
    (h : ((editing config id target edit now).run Table.backend t ()).1 = .ok true) :
    ∃ row d content expected version, t.byId id = some row ∧ Document.parse row.content = .ok d ∧
      edit.content target d = .ok (some content) ∧ (t.perform (.updateContent id content expected now)).1 = .ok version ∧
      ((editing config id target edit now).run Table.backend t ()).2 = (t.perform (.updateContent id content expected now)).2 := by
  have fetched : (t.perform (.fetchById id)) = (.ok (t.byId id), t) := rfl
  simp only [editing, loadRow, fetchRow, ask, Session.whenOk, Session.andThen, Session.run_call_table, fetched,
    ok_mapError] at h ⊢
  cases found : t.byId id with
  | none =>
    rw [found] at h
    cases h
  | some row =>
    simp only [found, Session.andThen] at h ⊢
    cases read : readContent row.content with
    | error failure =>
      rw [read] at h
      cases h
    | ok d =>
      simp only [read, ok_map] at h ⊢
      cases made : edit.content target d with
      | error failure =>
        rw [made] at h
        cases h
      | ok content =>
        cases content with
        | none =>
          rw [made] at h
          cases h
        | some content =>
          simp only [made, Session.run_call_table] at h ⊢
          cases replied : (t.perform (.updateContent id content
              (if config.optimisticConcurrency then some row.version else none) now)).1 with
          | error error =>
            rw [replied] at h
            cases h
          | ok version => exact ⟨row, d, content, _, version, rfl, mapError_eq_ok.1 read, made, replied, rfl⟩

/-- **Edits of stored documents are edits of trees.** When an operation that edits nodes says that it has, of whatever document in
whatever store, one row has got its next version, in which nothing but the content is another; and what is read from that is what was
read before with one element changed as the operation says and everything else as it was, or without all that was hit, and with
adjacent texts joined. -/
theorem Mutation.refines {s : Stock} (h : s.Reached) (config : Config) (id : UInt64) (target : Target) (mutation : Mutation)
    (shows : mutation.Shows) (now : UInt64) (ok : (s.run (mutation.request config id target now)).1 = .ok true) :
    ∃ old new, s.stored? = some old ∧ (s.run (mutation.request config id target now)).2.stored? = some new ∧
      Rewritten id (fun row row' => Recontented row row' ∧ mutation.Refines target row.content row'.content) now old new := by
  obtain ⟨t, ht, hc⟩ := h.sound
  rw [mutation.request_eq] at ok ⊢
  cases he : mutation.edit with
  | error failure =>
    rw [he] at ok
    cases s <;> cases ok
  | ok edit =>
    simp only [he, mutate_eq] at ok ⊢
    have atomic : EffectAtomic (Task.effect? (.deleteNode id target now)) (connecting (editing config id target edit now)) :=
      mutate_atomic (fun _ => rfl) rfl rfl config target edit
    obtain ⟨answer, t', ht', same⟩ := Stock.run_connecting_ok atomic.2 (fun _ => rfl) ht hc ok
    obtain ⟨row, d, content, expected, version, found, read, made, replied, left⟩ := editing_run_table answer
    obtain ⟨old, before, after, ha, room, -, e⟩ := hc.updateContent_ok replied
    obtain rfl : old = row :=
      hc.ascending.eq_of_id (ha.mem.2 (Or.inl rfl)) (Table.mem_of_byId found) (ha.key.trans (Table.id_of_byId found).symm)
    refine ⟨t.stored, t'.stored, Stock.stored?_of_table? ht, Stock.stored?_of_table? ht', ?_⟩
    rw [same.stored, left, e]
    have refines := Mutation.refines_of_content read shows he made
    exact rewritten ha room { old with content } rfl rfl rfl ⟨⟨rfl, rfl⟩, refines⟩ t.titles

/-- a store with a document in which an element stands in another one of the same name, between texts -/
def nestedStock : Stock :=
  ((Stock.memory .empty).respond .default (.direct (.create "t" "" "<a>x<b>y<b/></b>z<c/></a>" 1))).after

theorem Mutation.refines_nestedHits :
    let target : Target := .locator ⟨false, [⟨.descendant, "b", []⟩]⟩
    let run := nestedStock.run (Mutation.deleteNode.request .default 1 target 2)
    nestedStock.Reached ∧ Mutation.deleteNode.Shows ∧ run.1 = .ok true ∧
      run.2.stored? = some ⟨[⟨1, "t", "", "<a>xz<c/></a>", 2, 1, 2⟩], 1⟩ ∧
      ∃ old new, nestedStock.stored? = some old ∧ run.2.stored? = some new ∧
        Rewritten 1 (fun row row' => Recontented row row' ∧ Mutation.deleteNode.Refines target row.content row'.content) 2 old
          new := by
  intro target run
  have reached : nestedStock.Reached := Stock.Reached.memory.call .default _
  have ok : run.1 = .ok true := by decide +kernel
  exact ⟨reached, trivial, ok, by decide +kernel, Mutation.refines reached .default 1 target .deleteNode trivial 2 ok⟩

end XmlStore.Service
