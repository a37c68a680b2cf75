/-
Content is well formed at rest.

Whatever clients do at a store through the service, in whatever order and whether or not their edits are refused on changed documents,
everything that is stored can be read as a document. So no operation ever fails because of what is stored: if it fails for XML, then
for what is wrong with its own arguments, or because it would have deleted a root.

Main statements:
- `Call.request_upholds`: what every operation brings in and how it can fail, whatever may be stored.
- `Scene.run_wellFormed`: what is stored and how operations fail, after anything that clients do.
-/
import XmlStore.Proofs.Service.Clients
import XmlStore.Proofs.Service.Written

namespace XmlStore.Service

open Xml

/-! ## What operations bring with them -/

/-- the edit of nodes that an operation is, if it is one: the document, the nodes and the change -/
def Task.mutation? : Task → Option (UInt64 × Target × Mutation)
  | .addNode id parent xml _ => some (id, parent, .addNode xml)
  | .editText id target text _ => some (id, target, .editText text)
  | .editName id target name _ => some (id, target, .editName name)
  | .addAttribute id target name value _ => some (id, target, .addAttribute name value)
  | .removeAttribute id target name _ => some (id, target, .removeAttribute name)
  | .deleteNode id target _ => some (id, target, .deleteNode)
  | _ => none

/-- the change that an operation on nodes makes, if it makes one -/
def NodeOperation.mutation? : NodeOperation → Option Mutation
  | .addNode _ xml => some (.addNode xml)
  | .editText _ text => some (.editText text)
  | .rename _ name => some (.editName name)
  | .addAttribute _ name value => some (.addAttribute name value)
  | .removeAttribute _ name => some (.removeAttribute name)
  | .delete _ => some .deleteNode
  | _ => none

namespace Call

/-- the edit of nodes that a call is, if it is one -/
def mutation? : Call → Option (UInt64 × Target × Mutation)
  | .direct task => task.mutation?
  | .execute id operation _ => operation.mutation?.map fun mutation => (id, .ofText operation.locatorText, mutation)
  | .createFrom .. => none

/-- the content of a whole document that a call brings with it, if any -/
def content? : Call → Option String
  | .direct (.create _ _ xml _) => some xml
  | .direct (.modify _ patch _) => patch.content
  | .createFrom _ _ (.ok xml) _ => some xml
  | _ => none

/-- what a call can fail with as XML, whatever is stored: the content that it brings with it cannot be read, or its edit is refused -/
def Blames (call : Call) (e : XmlError) : Prop :=
  (∃ xml, call.content? = some xml ∧ Document.parse xml = .error e) ∨
    ∃ id target mutation, call.mutation? = some (id, target, mutation) ∧ mutation.Blames e

/-- what is asked of the content that is allowed for a call to keep to it: it can be read, and what the call writes is allowed -/
structure Admits (allowed : UInt64 → String → Prop) (call : Call) : Prop where
  readable : ∀ id content, allowed id content → ∃ d, Document.parse content = .ok d
  whole : ∀ xml content, call.content? = some xml → normalize xml = .ok content → ∀ id, allowed id content
  edited : ∀ id target mutation edit text d content, call.mutation? = some (id, target, mutation) → mutation.edit = .ok edit →
    Document.parse text = .ok d → edit.content target d = .ok (some content) → allowed id content

end Call

/-! ## Answers -/

section

variable {α β : Type} {blames : XmlError → Prop}

/-- an answer that fails as XML only with what is to blame -/
def Blamed (blames : XmlError → Prop) (answer : Outcome α) : Prop := ∀ e, answer = .error (.invalidXml e) → blames e

theorem blamed_ok (value : α) : Blamed blames (.ok value) := by
  intro e h
  cases h

theorem Blamed.error {failure : Failure} (h : Blamed blames (.error failure : Outcome α)) :
    Blamed blames (.error failure : Outcome β) := by
  intro e he
  apply h e
  rw [Except.error.inj he]

theorem Blamed.map {answer : Outcome α} (h : Blamed blames answer) (change : α → β) : Blamed blames (answer.map change) := by
  intro e he
  exact h e (map_eq_error.1 he)

theorem Blamed.bind {answer : Outcome α} (h : Blamed blames answer) {next : α → Outcome β} (hn : ∀ a, Blamed blames (next a)) :
    Blamed blames (answer.bind next) := by
  intro e he
  rcases bind_eq_error.1 he with he | ⟨a, -, he⟩
  · exact h e he
  · exact hn a e he

/-- no failure of a store is one of XML -/
theorem blamed_ofStore (reply : Except StoreError α) : Blamed blames (reply.mapError Failure.ofStore) := by
  intro e he
  obtain ⟨error, -, same⟩ := mapError_eq_error.1 he
  cases error <;> cases same

/-- what can be read is -/
theorem blamed_readContent {content : String} (h : ∃ d, Document.parse content = .ok d) : Blamed blames (readContent content) := by
  obtain ⟨d, hd⟩ := h
  rw [readContent, hd]
  exact blamed_ok d

theorem blamed_error {failure : Failure} (h : ∀ e, failure ≠ .invalidXml e) : Blamed blames (.error failure : Outcome α) := by
  intro e he
  exact absurd (Except.error.inj he) (h e)

theorem blamed_invalidXml {e : XmlError} (h : blames e) : Blamed blames (.error (.invalidXml e) : Outcome α) := by
  intro e' he
  cases he
  exact h

/-! ## Operations that read -/

variable {allowed : UInt64 → String → Prop}

/-- if no connection can be opened, that is no failure of XML -/
theorem upholds_connecting {session : Session (Outcome α)} (h : session.Upholds allowed (Blamed blames)) :
    (connecting session).Upholds allowed (Blamed blames) :=
  ⟨fun error => blamed_ofStore (.error error), h⟩

variable (blames)

theorem upholds_single {s : Statement} (brings : s.Brings allowed) : (ask s).Upholds allowed (Blamed blames) :=
  upholds_ask brings fun reply _ => blamed_ofStore reply

theorem upholds_fetchRow (id : UInt64) : (fetchRow id).Upholds allowed
    fun answer => Blamed blames answer ∧ ∀ row, answer = .ok row → allowed row.id row.content := by
  refine Session.Upholds.whenOk
    (P := fun answer => Blamed blames answer ∧ ∀ row, answer = .ok (some row) → allowed row.id row.content)
    (upholds_ask (s := .fetchById id) trivial ?_) ?_ ?_
  · intro reply shown
    refine ⟨blamed_ofStore reply, ?_⟩
    intro row e
    rw [mapError_eq_ok.1 e] at shown
    exact shown
  · intro failure h
    refine ⟨h.1.error, ?_⟩
    intro row e
    cases e
  · intro found h
    cases found with
    | none =>
      refine .done ⟨blamed_error nofun, ?_⟩
      intro row e
      cases e
    | some row =>
      refine .done ⟨blamed_ok row, ?_⟩
      intro row' e
      cases e
      exact h.2 row rfl

section

variable (readable : ∀ id content, allowed id content → ∃ d, Document.parse content = .ok d)
include readable

theorem upholds_loadRow (id : UInt64) : (loadRow id).Upholds allowed
    fun answer => Blamed blames answer ∧ ∀ row d, answer = .ok (row, d) → Document.parse row.content = .ok d := by
  refine (upholds_fetchRow blames id).whenOk ?_ ?_
  · intro failure h
    refine ⟨h.1.error, ?_⟩
    intro row d e
    cases e
  · intro row h
    refine .done ⟨(blamed_readContent (readable _ _ (h.2 row rfl))).map _, ?_⟩
    intro row' d e
    obtain ⟨d', read, same⟩ := map_eq_ok.1 e
    cases same
    exact mapError_eq_ok.1 read

theorem upholds_load (id : UInt64) : (load id).Upholds allowed (Blamed blames) :=
  ⟨fun error => blamed_ofStore (α := Document) (.error error), (upholds_loadRow blames readable id).map fun _ h => h.1.map _⟩

theorem upholds_nodeExists (id : UInt64) (target : Target) : (nodeExists id target).Upholds allowed fun _ => True :=
  (upholds_load (fun _ => True) readable id).map fun _ _ => trivial

theorem upholds_readLookup (id : UInt64) (target : Target) (read : List (Element Nat) → Lookup α) :
    (readLookup id target read).Upholds allowed (Blamed blames) := by
  refine (upholds_load blames readable id).map ?_
  intro answer h
  split
  · exact blamed_ok _
  · exact blamed_ok _
  · exact h.error

theorem upholds_readValue (id : UInt64) (target : Target) {read : Document → List (Element Nat) → Outcome α}
    (hr : ∀ d hits, Blamed blames (read d hits)) : (readValue id target read).Upholds allowed (Blamed blames) := by
  refine (upholds_load blames readable id).map ?_
  intro answer h
  exact h.bind fun d => hr d (target.select d)

end

theorem upholds_getByTitle (title : String) : (getByTitle title).Upholds allowed (Blamed blames) := by
  apply upholds_connecting
  refine (upholds_single blames (s := .fetchByTitle title) trivial).whenOk (fun _ h => h.error) ?_
  intro found _
  cases found with
  | none => exact .done (blamed_error nofun)
  | some row => exact .done (blamed_ok row)

theorem upholds_list : list.Upholds allowed (Blamed blames) := by
  apply upholds_connecting
  refine (upholds_single blames (s := .fetchAll) trivial).whenOk (fun _ h => h.error) ?_
  intro rows _
  exact .done (blamed_ok _)

theorem blamed_firstAttributes (target : Target) (hits : List (Element Nat)) : Blamed blames (firstAttributes target hits) := by
  cases hits with
  | nil => exact blamed_error nofun
  | cons first rest => exact blamed_ok _

theorem blamed_firstAttribute (target : Target) (name : String) (hits : List (Element Nat)) :
    Blamed blames (firstAttribute target name hits) := by
  unfold firstAttribute
  split
  · exact blamed_ok _
  · exact blamed_error nofun

theorem blamed_records (d : Document) (target : Target) (fields : List String) (hits : List (Element Nat)) :
    Blamed blames (records d target fields hits) := by
  cases hits with
  | nil => exact blamed_error nofun
  | cons first rest => exact blamed_ok _

end

/-! ## Operations that write -/

namespace Call.Admits

variable {allowed : UInt64 → String → Prop} {call : Call} (h : call.Admits allowed)
include h

/-- an operation that stores a new document -/
theorem upholds_create {xml : String} (given : call.content? = some xml) (title description : String) (now : UInt64) :
    (create title description xml now).Upholds allowed (Blamed call.Blames) := by
  unfold create
  cases made : normalize xml with
  | error failure =>
    obtain ⟨e, rfl, unread⟩ := parse_of_normalize_error made
    exact blamed_invalidXml (Or.inl ⟨xml, given, unread⟩)
  | ok content =>
    have brings : (Statement.insert (.new title description content now)).Brings allowed := h.whole xml content given made
    exact upholds_connecting (upholds_single _ brings)

/-- an operation that changes a document as a whole -/
theorem upholds_modify {id : UInt64} {patch : Patch} (given : call.content? = patch.content) (now : UInt64) :
    (modify id patch now).Upholds allowed (Blamed call.Blames) := by
  unfold modify
  cases made : patch.content.mapM normalize with
  | error failure =>
    cases whole : patch.content with
    | none =>
      rw [whole] at made
      cases made
    | some xml =>
      rw [whole, Option.mapM_some] at made
      obtain ⟨e, rfl, unread⟩ := parse_of_normalize_error (map_eq_error.1 made)
      exact blamed_invalidXml (Or.inl ⟨xml, given.trans whole, unread⟩)
  | ok content =>
    have brings : (Statement.updateFields id { patch with content } now).Brings allowed := by
      intro compact e
      cases whole : patch.content with
      | none =>
        rw [whole] at made
        cases made
        cases e
      | some xml =>
        rw [whole, Option.mapM_some] at made
        obtain ⟨_, normal, rfl⟩ := map_eq_ok.1 made
        cases e
        exact h.whole xml compact (given.trans whole) normal id
    apply upholds_connecting
    split
    · refine (upholds_fetchRow _ id).whenOk (fun _ h => h.1.error) ?_
      intro row _
      exact .done (blamed_ok _)
    · refine (upholds_single _ brings).whenOk (fun _ h => h.error) ?_
      intro version _
      exact .done (blamed_ok _)

/-- **An edit of nodes** of what can be read writes what is allowed, and fails only for its arguments or for the root. -/
theorem upholds_mutation {id : UInt64} {target : Target} {mutation : Mutation}
    (is : call.mutation? = some (id, target, mutation)) (config : Config) (now : UInt64) :
    (mutation.request config id target now).Upholds allowed (Blamed call.Blames) := by
  have blamed : ∀ {e}, mutation.Blames e → call.Blames e := fun cause => Or.inr ⟨id, target, mutation, is, cause⟩
  rw [mutation.request_eq]
  cases he : mutation.edit with
  | error failure =>
    obtain ⟨e, rfl, cause⟩ := Mutation.blames_of_edit he
    exact blamed_invalidXml (blamed cause)
  | ok edit =>
    simp only [mutate_eq]
    apply upholds_connecting
    refine (upholds_loadRow _ h.readable id).whenOk (fun _ h => h.1.error) ?_
    intro loaded read
    obtain ⟨row, d⟩ := loaded
    have hd : Document.parse row.content = .ok d := read.2 row d rfl
    dsimp only
    cases made : edit.content target d with
    | error failure =>
      obtain ⟨e, rfl, cause⟩ := Mutation.blames_of_content hd he made
      exact .done (blamed_invalidXml (blamed cause))
    | ok written =>
      cases written with
      | none => exact .done (blamed_ok _)
      | some content =>
        have new : allowed id content := h.edited id target mutation edit row.content d content is he hd made
        have brings : ∀ expected, (Statement.updateContent id content expected now).Brings allowed := fun _ => new
        refine (upholds_single _ (brings _)).whenOk (fun _ h => h.error) ?_
        intro version _
        exact .done (blamed_ok _)

end Call.Admits

/-! ## All operations -/

/-- an operation whose answer is passed on in another form -/
theorem upholds_answering {α : Type} {blames : XmlError → Prop} {allowed : UInt64 → String → Prop} {output : α → Output}
    {request : Request (Outcome α)} (h : request.Upholds allowed (Blamed blames)) :
    (answering output request).Upholds allowed (Blamed blames) :=
  h.map fun _ ha => ha.map output

theorem upholds_task {allowed : UInt64 → String → Prop} (task : Task) (h : (Call.direct task).Admits allowed) (config : Config) :
    (task.request config).Upholds allowed (Blamed (Call.direct task).Blames) := by
  have readable := h.readable
  cases task with
  | create title description xml now => exact h.upholds_create rfl title description now
  | modify id patch now => exact h.upholds_modify rfl now
  | delete id => exact upholds_connecting (upholds_single _ (s := .delete id) trivial)
  | deleteAll => exact upholds_connecting (upholds_single _ (s := .deleteAll) trivial)
  | get id => exact upholds_connecting ((upholds_fetchRow _ id).mono fun _ ha => ha.1)
  | getByTitle title => exact upholds_getByTitle _ title
  | list => exact upholds_list _
  | count => exact upholds_connecting (upholds_single _ (s := .count) trivial)
  | pretty id => exact (upholds_load _ readable id).map fun _ ha => ha.map _
  | nodeExists id target => exact (upholds_nodeExists readable id target).map fun _ _ => blamed_ok _
  | getNodeXml id target => exact upholds_readLookup _ readable id target _
  | getNodeText id target => exact upholds_readLookup _ readable id target _
  | getAllXml id target => exact upholds_readLookup _ readable id target _
  | getAllTexts id target => exact upholds_readLookup _ readable id target _
  | getNodesCarrying id target name value => exact upholds_readLookup _ readable id target _
  | getAttributes id target => exact upholds_readValue _ readable id target fun _ => blamed_firstAttributes _ target
  | getAttribute id target name => exact upholds_readValue _ readable id target fun _ => blamed_firstAttribute _ target name
  | getRecords id target fields => exact upholds_readValue _ readable id target fun d => blamed_records _ d target fields
  | addNode id parent xml now => exact h.upholds_mutation rfl config now
  | editText id target text now => exact h.upholds_mutation rfl config now
  | editName id target name now => exact h.upholds_mutation rfl config now
  | addAttribute id target name value now => exact h.upholds_mutation rfl config now
  | removeAttribute id target name now => exact h.upholds_mutation rfl config now
  | deleteNode id target now => exact h.upholds_mutation rfl config now

theorem upholds_execute {allowed : UInt64 → String → Prop} (id : UInt64) (operation : NodeOperation)
    (now : UInt64) (h : (Call.execute id operation now).Admits allowed) (config : Config) :
    (execute config id operation now).Upholds allowed (Blamed (Call.execute id operation now).Blames) := by
  have readable := h.readable
  cases operation with
  | exist locator => exact (upholds_nodeExists readable id _).map fun _ _ => blamed_ok _
  | getXml locator => exact upholds_answering (upholds_readLookup _ readable id _ _)
  | getText locator => exact upholds_answering (upholds_readLookup _ readable id _ _)
  | getAllXml locator => exact upholds_answering (upholds_readLookup _ readable id _ _)
  | getAllText locator => exact upholds_answering (upholds_readLookup _ readable id _ _)
  | getAttributes locator =>
    exact upholds_answering (upholds_readValue _ readable id _ fun _ => blamed_firstAttributes _ _)
  | getStructured locator fields =>
    exact upholds_answering (upholds_readValue _ readable id _ fun d => blamed_records _ d _ fields)
  | getAttribute locator name =>
    exact upholds_answering (upholds_readValue _ readable id _ fun _ => blamed_firstAttribute _ _ name)
  | getWithAttribute locator name value => exact upholds_answering (upholds_readLookup _ readable id _ _)
  | addNode parent xml => exact upholds_answering (h.upholds_mutation rfl config now)
  | editText locator text => exact upholds_answering (h.upholds_mutation rfl config now)
  | rename locator name => exact upholds_answering (h.upholds_mutation rfl config now)
  | addAttribute locator name value => exact upholds_answering (h.upholds_mutation rfl config now)
  | removeAttribute locator name => exact upholds_answering (h.upholds_mutation rfl config now)
  | delete locator => exact upholds_answering (h.upholds_mutation rfl config now)

/-- **Every operation**, as long as it is shown nothing but what is allowed, brings in nothing else, and fails as XML only for what is
wrong with its own arguments, or for the root. -/
theorem Call.request_upholds {allowed : UInt64 → String → Prop} {call : Call} (h : call.Admits allowed) (config : Config) :
    (call.request config).Upholds allowed (Blamed call.Blames) := by
  cases call with
  | direct task => exact upholds_task task h config
  | execute id operation now => exact upholds_execute id operation now h config
  | createFrom title description file now =>
    cases file with
    | error reason => exact blamed_error nofun
    | ok xml => exact h.upholds_create rfl title description now

/-! ## Content that can be read -/

/-- what operations write can be read: a whole document was read before, and an edited one is read again before it is stored -/
theorem Call.admits_readable (call : Call) : call.Admits fun _ content => ∃ d, Document.parse content = .ok d where
  readable _ _ read := read
  whole := by
    intro xml content _ normal _
    obtain ⟨d, read, -⟩ := normal_of_normalize normal
    exact ⟨d, read⟩
  edited := by
    intro id target mutation edit text d content _ _ _ written
    obtain ⟨_, _, edited, again, _, _, reread, rfl⟩ := Edit.content_eq_some written
    exact ⟨again, reread⟩

/-- the failure that an operation has ended in, if it has -/
def Report.failure? (report : Report) : Option Failure :=
  match report.answer with
  | .error failure => some failure
  | .ok _ => none

namespace Scene

/-- **Content is well formed at rest.** After anything that any number of clients do at a store that was empty, a statement at a time
and in any order, with edits refused on changed documents or not, everything that is stored can be read as a document. And an operation
that has failed for XML has done so for what was wrong with its own arguments, or because it would have deleted the root, whatever was
stored. -/
theorem run_wellFormed {stock : Stock} (empty : stock.table? = some .empty) (happenings : List Happening) :
    (∃ t, ((initial stock).run happenings).stock.table? = some t ∧ ∀ row ∈ t.rows, ∃ d, Document.parse row.content = .ok d) ∧
      ∀ report ∈ ((initial stock).run happenings).reports, ∀ e, report.answer = .error (.invalidXml e) → report.call.Blames e := by
  have sound : Sound (fun _ content => ∃ d, Document.parse content = .ok d) (fun call => Blamed call.Blames)
      ((initial stock).run happenings) := by
    apply run_initial_sound empty
    intro config call _
    exact Call.request_upholds call.admits_readable config
  exact ⟨sound.stored, sound.reports⟩

/-- two clients who edit a document that both have read, the later one whatever has become of it, and a third who asks for the root to
be deleted -/
def lateWriter : List Happening :=
  let root : Target := .locator ⟨false, [⟨.child, "a", []⟩]⟩
  let child : Target := .locator ⟨false, [⟨.child, "a", []⟩, ⟨.child, "b", []⟩]⟩
  [.begin .default (.direct (.create "t" "" "<a>x<b/></a>" 5)), .advance 0 none,
    .begin .default (.direct (.deleteNode 1 child 6)), .begin ⟨false, 2⟩ (.direct (.editText 1 root "y" 7)),
    .advance 0 none, .advance 0 none, .advance 0 none, .advance 0 none,
    .begin .default (.direct (.deleteNode 1 root 8)), .advance 0 none]

theorem run_wellFormed_lateWriter :
    let scene := (initial (.memory .empty)).run lateWriter
    (Stock.memory .empty).table? = some .empty ∧ scene.stock.stored? = some ⟨[⟨1, "t", "", "<a>y<b/></a>", 3, 5, 7⟩], 1⟩ ∧
      scene.reports.map Report.failure? = [none, none, none, some (.invalidXml .noRootElement)] ∧
      (∃ t, scene.stock.table? = some t ∧ ∀ row ∈ t.rows, ∃ d, Document.parse row.content = .ok d) ∧
      ∀ report ∈ scene.reports, ∀ e, report.answer = .error (.invalidXml e) → report.call.Blames e := by
  refine ⟨rfl, by decide +kernel, by decide +kernel, ?_⟩
  exact run_wellFormed rfl lateWriter

end Scene

end XmlStore.Service
