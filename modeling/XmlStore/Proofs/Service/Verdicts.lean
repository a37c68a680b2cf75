/-
What edits of nodes are answered.

Much can be wrong with an edit at once: the fragment that it is to add, the store, the document, the locator, a new name or text. Each
of these is looked at by itself in `Mutation.rulings`, with the answer that it calls for, and the first that applies is the answer.
The order is that in which the document is needed: a fragment is read before anything is looked up, a new name or text is looked at when
there is a node to give it to, and others matter last, when the row is written.

Main statements:
- `Mutation.content_eq`: what becomes of an edit between its two statements.
- `Mutation.run_eq_verdict`: every edit is answered by the first ruling that applies.
-/
import XmlStore.Proofs.Service.Occasions
import XmlStore.Proofs.Service.Written

namespace XmlStore.Service

open Xml

def errorOf {ε α : Type} : Except ε α → Option ε
  | .error error => some error
  | .ok _ => none

/-! ## What an operation finds -/

namespace Occasion

def row? (id : UInt64) (occasion : Occasion) : Option Row :=
  (occasion.fetched id).toOption.join

/-- the document in that row -/
def document? (id : UInt64) (occasion : Occasion) : Option Document :=
  (occasion.row? id).bind fun row => (Document.parse row.content).toOption

/-- the nodes that a target picks out of that document -/
def hits (id : UInt64) (target : Target) (occasion : Occasion) : List (Element Nat) :=
  (occasion.document? id).elim [] target.select

/-- why the row cannot be written: the store fails, or the row is gone, or it must not and has another version, or that was the highest,
for which the program stops, or the file cannot be written -/
def writeFailure? (config : Config) (id : UInt64) (occasion : Occasion) : Option Failure :=
  match occasion.atUpdate id with
  | .error error => some (.store error)
  | .ok none => some (.documentNotFound (.id id))
  | .ok (some current) =>
    if config.optimisticConcurrency = true ∧ (occasion.row? id).any (·.version ≠ current.version) then
      some (.concurrentModification id)
    else if (nextWord? current.version).isNone then some (.store .overflow)
    else occasion.unsaved?.map .store

end Occasion

/-! ## What is wrong with an edit -/

namespace Mutation

/-- why a fragment cannot be added -/
def fragmentError? : Mutation → Option XmlError
  | .addNode xml => errorOf (Document.parseFragment xml)
  | _ => none

/-- whether there is nothing to be changed at some hits: there are none, or the first has no such attribute -/
def idleOn (hits : List (Element Nat)) (mutation : Mutation) : Bool :=
  match hits, mutation with
  | [], _ => true
  | first :: _, .removeAttribute name => (first.attributes.get? name).isNone
  | _, _ => false

/-- why a name cannot be given -/
def nameError? (name : String) : Option XmlError :=
  if isName name then none else some (.invalidName name)

/-- why a text cannot be put somewhere: the first character that XML does not have -/
def charError? (place : Place) (text : String) : Option XmlError :=
  (text.toList.find? (!isXmlChar ·)).map (.invalidChar · place)

/-- what is wrong with the new name, text or value of an edit; the name is looked at first -/
def argumentError? : Mutation → Option XmlError
  | .editText text => charError? .text text
  | .editName name => nameError? name
  | .addAttribute name value => (nameError? name).or (charError? .attributeValue value)
  | _ => none

/-- whether the root is among the nodes to be deleted -/
def losesRoot (d : Document) (hits : List (Element Nat)) (mutation : Mutation) : Bool :=
  mutation = .deleteNode && d.root?.any fun root => hits.any (·.mark = root.mark)

/-- all that decides what an edit is answered, from the first to the last -/
def rulings (config : Config) (id : UInt64) (target : Target) (occasion : Occasion) (mutation : Mutation) :
    List (Option (Outcome Bool)) :=
  let hits := occasion.hits id target
  [mutation.fragmentError?.map fun e => .error (.invalidXml e),
    (errorOf (occasion.fetched id)).map fun error => .error (.store error),
    if (occasion.row? id).isNone then some (.error (.documentNotFound (.id id))) else none,
    (occasion.row? id).bind fun row => (errorOf (Document.parse row.content)).map fun e => .error (.invalidXml e),
    if mutation.idleOn hits then some (.ok false) else none,
    mutation.argumentError?.map fun e => .error (.invalidXml e),
    if (occasion.document? id).any fun d => mutation.losesRoot d hits then some (.error (.invalidXml .noRootElement)) else none,
    (occasion.writeFailure? config id).map .error]

/-- the answer of the first ruling that applies; otherwise the document is changed -/
def verdict (config : Config) (id : UInt64) (target : Target) (occasion : Occasion) (mutation : Mutation) : Outcome Bool :=
  ((mutation.rulings config id target occasion).findSome? fun ruling => ruling).getD (.ok true)

/-! ## Between the statements -/

variable {mutation : Mutation} {text : String} {d edited : Document} {edit : Edit} {first : Element Nat}
  {rest : List (Element Nat)} {target : Target}

theorem any_eq_isSome_get? (attributes : Attributes) (name : String) :
    attributes.any (·.1 == name) = (attributes.get? name).isSome := by
  rw [Bool.eq_iff_iff, Attributes.get?, List.lookup_isSome_iff, List.any_eq_true]
  exact exists_congr fun p => and_congr_right fun _ => by rw [beq_iff_eq, beq_iff_eq, eq_comm]

theorem checkName_eq (name : String) : errorOf (checkName name) = nameError? name := by
  unfold checkName nameError?
  split <;> rfl

theorem checkChars_eq (place : Place) (text : String) : errorOf (checkChars place text.toList) = charError? place text := by
  unfold checkChars charError?
  cases text.toList.find? (!isXmlChar ·) <;> rfl

/-- an edit that is not begun is one of a fragment that cannot be read -/
theorem fragmentError?_of_refused {failure : Failure} (he : mutation.edit = .error failure) :
    ∃ e, failure = .invalidXml e ∧ mutation.fragmentError? = some e := by
  cases mutation with
  | addNode xml =>
    obtain ⟨e, unread, rfl⟩ := mapError_eq_error.1 (map_eq_error.1 he)
    refine ⟨e, rfl, ?_⟩
    rw [fragmentError?, unread]
    rfl
  | _ => cases he

theorem fragmentError?_of_edit (he : mutation.edit = .ok edit) : mutation.fragmentError? = none := by
  cases mutation with
  | addNode xml =>
    obtain ⟨fragment, read, -⟩ := map_eq_ok.1 he
    rw [fragmentError?, mapError_eq_ok.1 read]
    rfl
  | _ => rfl

/-- what an edit of an element is refused for, and whether anything is to be done -/
theorem apply_eq (rest : List (Element Nat)) (h : d.Numbered) (hit : first ∈ d.attached.allElements)
    (he : mutation.edit = .ok edit) (others : List Nat) :
    (edit.apply d first.mark others).map Option.isNone =
      if mutation.idleOn (first :: rest) then .ok true
      else match mutation.argumentError? with
        | some e => .error e
        | none => .ok false := by
  have found := Document.requireElement_of_mem h hit
  cases mutation with
  | addNode xml =>
    obtain ⟨fragment, -, rfl⟩ := map_eq_ok.1 he
    simp [Edit.apply, Document.appendFragment, found, argumentError?, idleOn]
  | editText text =>
    cases he
    simp only [Edit.apply, Document.setText, argumentError?, ← checkChars_eq]
    cases checkChars .text text.toList with
    | error e => rfl
    | ok _ =>
      simp only [found, ok_bind', errorOf, idleOn]
      split <;> rfl
  | editName name =>
    cases he
    simp only [Edit.apply, Document.rename, argumentError?, ← checkName_eq]
    cases checkName name with
    | error e => rfl
    | ok _ =>
      simp only [found, ok_bind', errorOf, idleOn]
      rfl
  | addAttribute name value =>
    cases he
    simp only [Edit.apply, Document.setAttribute, argumentError?, ← checkName_eq, ← checkChars_eq]
    cases checkName name with
    | error e => rfl
    | ok _ =>
      cases checkChars .attributeValue value.toList with
      | error e => rfl
      | ok _ =>
        simp only [found, ok_bind', errorOf, idleOn]
        rfl
  | removeAttribute name =>
    cases he
    simp only [Edit.apply, Document.removeAttribute, found, ok_bind', any_eq_isSome_get?, argumentError?, idleOn]
    rcases Option.eq_none_or_eq_some (first.attributes.get? name) with given | ⟨value, given⟩ <;> simp [given]
  | deleteNode =>
    cases he
    rfl

theorem losesRoot_iff {root : Element Nat} (hroot : d.root? = some root) (hits : List (Element Nat)) :
    mutation.losesRoot d hits = true ↔ mutation = .deleteNode ∧ root.mark ∈ hits.map Element.mark := by
  simp [losesRoot, hroot]

theorem eq_delete_iff (he : mutation.edit = .ok edit) : edit = .delete ↔ mutation = .deleteNode := by
  cases mutation with
  | addNode xml =>
    obtain ⟨fragment, -, rfl⟩ := map_eq_ok.1 he
    simp
  | _ =>
    cases he
    simp

/-- an edited document can be read again, unless it has lost its root -/
theorem reread_eq (hd : Document.parse text = .ok d) (he : mutation.edit = .ok edit)
    (applied : edit.apply d first.mark (rest.map Element.mark) = .ok (some edited)) :
    errorOf (Document.parse edited.xml) = if mutation.losesRoot d (first :: rest) then some .noRootElement else none := by
  obtain ⟨root, hroot, rooted⟩ := Document.rooted_of_parse hd
  have numbered := (Document.Built.parse hd).numbered
  have kept := rooted.roots_of_mem (Forest.mem_marks_of_mem_roots (Document.mem_roots_of_root? hroot))
  have roots : edited.attached.roots =
      if edit = .delete ∧ root.mark ∈ first.mark :: rest.map Element.mark then [] else [root.mark] := by
    rw [Edit.attached_apply numbered applied]
    exact Edit.roots_tree numbered kept
  obtain ⟨wellFormed, outermost⟩ := rooted_apply hd he applied rooted
  have lost : mutation.losesRoot d (first :: rest) = true ↔ root.mark ∉ edited.attached.marks := by
    rw [losesRoot_iff hroot, ← eq_delete_iff he, List.map_cons]
    constructor
    · intro deleted here
      rw [if_pos deleted, outermost.roots_of_mem here] at roots
      cases roots
    · intro gone
      refine Decidable.byContradiction fun spared => gone (Forest.mem_marks_of_mem_roots ?_)
      rw [roots, if_neg spared]
      exact List.mem_singleton_self _
  rw [Document.xml, Document.parse_xml_of_rooted wellFormed outermost]
  by_cases here : root.mark ∈ edited.attached.marks
  · rw [if_pos here, if_neg fun h => lost.1 h here]
    rfl
  · rw [if_neg here, if_pos (lost.2 here)]
    rfl

/-- **Between the two statements** an edit comes to nothing, is refused for its arguments or for the root, or is to be written. -/
theorem content_eq (target : Target) (hd : Document.parse text = .ok d) (he : mutation.edit = .ok edit) :
    (edit.content target d).map Option.isNone =
      if mutation.idleOn (target.select d) then .ok true
      else match mutation.argumentError? with
        | some e => .error (.invalidXml e)
        | none => if mutation.losesRoot d (target.select d) then .error (.invalidXml .noRootElement) else .ok false := by
  unfold Edit.content
  cases hits : target.select d with
  | nil => rfl
  | cons first rest =>
    have hit : first ∈ d.attached.allElements := (hits ▸ target.select_sublist hd).subset List.mem_cons_self
    have applied := apply_eq rest (Document.Built.parse hd).numbered hit he (rest.map Element.mark)
    simp only [List.map_cons]
    by_cases idle : mutation.idleOn (first :: rest) = true
    · rw [if_pos idle] at applied ⊢
      obtain ⟨edited?, outcome, isNone⟩ := map_eq_ok.1 applied
      rw [outcome, Option.isNone_iff_eq_none.1 isNone]
      rfl
    · rw [if_neg idle] at applied ⊢
      cases argument : mutation.argumentError? with
      | some e =>
        rw [argument] at applied
        rw [map_eq_error.1 applied]
        rfl
      | none =>
        rw [argument] at applied
        obtain ⟨edited?, outcome, isSome⟩ := map_eq_ok.1 applied
        obtain ⟨edited, rfl⟩ := Option.isSome_iff_exists.1 (Option.isNone_eq_false_iff.1 isSome)
        have reread := reread_eq hd he outcome
        simp only [outcome, ok_mapError, ok_bind', readContent]
        cases read : Document.parse edited.xml with
        | error e =>
          rw [read] at reread
          split at reread
          · rename_i lost
            cases reread
            rw [if_pos lost]
            rfl
          · cases reread
        | ok again =>
          rw [read] at reread
          split at reread
          · cases reread
          · rename_i kept
            rw [if_neg kept]
            rfl

/-! ## Answers -/

variable {config : Config} {id : UInt64} {occasion : Occasion}

/-- what comes of the second statement -/
theorem writing_eq {row : Row} (there : occasion.row? id = some row) :
    writing config id row occasion.unsaved? (occasion.atUpdate id) = ((occasion.writeFailure? config id).map .error).getD (.ok true) := by
  unfold Occasion.writeFailure?
  rw [there]
  rcases occasion.atUpdate id with error | (_ | current)
  · rfl
  · rfl
  · simp only [writing, Option.any_some, decide_eq_true_eq, ne_comm]
    split
    · rfl
    · split
      · rfl
      · cases occasion.unsaved? <;> rfl

theorem row?_of_fetched {row : Option Row} (found : occasion.fetched id = .ok row) : occasion.row? id = row := by
  rw [Occasion.row?, found]
  rfl

/-- what comes of both, when the row is there and can be read -/
theorem verdict_of_read {row : Row} (found : occasion.fetched id = .ok (some row)) (hd : Document.parse row.content = .ok d)
    (he : mutation.edit = .ok edit) :
    mutation.verdict config id target occasion = (edit.content target d).bind fun content =>
      if content.isNone then .ok false else writing config id row occasion.unsaved? (occasion.atUpdate id) := by
  have there := row?_of_fetched found
  have document : occasion.document? id = some d := by rw [Occasion.document?, there, Option.bind_some, hd]; rfl
  have hits : occasion.hits id target = target.select d := by rw [Occasion.hits, document]; rfl
  have between := content_eq target hd he
  simp only [verdict, rulings, fragmentError?_of_edit he, found, there, document, hits, hd, errorOf, Option.bind_some,
    Option.any_some]
  by_cases idle : mutation.idleOn (target.select d) = true
  · rw [if_pos idle] at between
    obtain ⟨content, made, isNone⟩ := map_eq_ok.1 between
    simp only [made, ok_bind, isNone, idle, if_true]
    rfl
  · rw [if_neg idle] at between
    cases argument : mutation.argumentError? with
    | some e =>
      rw [argument] at between
      rw [map_eq_error.1 between, if_neg idle]
      rfl
    | none =>
      rw [argument] at between
      by_cases lost : mutation.losesRoot d (target.select d) = true
      · simp only [lost, if_true] at between
        rw [map_eq_error.1 between, if_neg idle, if_pos lost]
        rfl
      · simp only [lost] at between
        obtain ⟨content, made, isNone⟩ := map_eq_ok.1 between
        rw [made, if_neg idle, if_neg lost, ok_bind, isNone, writing_eq there]
        cases occasion.writeFailure? config id <;> rfl

/-- **Every edit of nodes** is answered by the first ruling that applies: for all stores and whatever others do to them meanwhile, all
documents, targets and arguments, with optimistic concurrency or without. -/
theorem run_eq_verdict (mutation : Mutation) (config : Config) (id : UInt64) (target : Target) (now : UInt64)
    (occasion : Occasion) : occasion.run (mutation.request config id target now) = mutation.verdict config id target occasion := by
  rw [mutation.request_eq]
  cases he : mutation.edit with
  | error failure =>
    obtain ⟨e, rfl, fragment⟩ := fragmentError?_of_refused he
    simp only [occasion.run_done, verdict, rulings, fragment]
    rfl
  | ok edit =>
    have fragment := fragmentError?_of_edit he
    simp only [occasion.run_mutate]
    cases found : occasion.fetched id with
    | error error =>
      simp only [verdict, rulings, fragment, found, opened, errorOf, occasion.ofStore_of_fetched found]
      rfl
    | ok row =>
      cases row with
      | none =>
        have missing := row?_of_fetched found
        simp only [verdict, rulings, fragment, found, opened, errorOf, missing]
        rfl
      | some row =>
        cases read : Document.parse row.content with
        | error e =>
          have there := row?_of_fetched found
          simp only [verdict, rulings, fragment, found, opened, errorOf, there, readContent, Option.bind_some, read]
          rfl
        | ok d =>
          rw [verdict_of_read found read he]
          simp only [opened, readContent, read]
          rfl

end Mutation

end XmlStore.Service
