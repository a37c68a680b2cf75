/-
What statements the operations make.

An operation makes one statement at most, unless it edits nodes: then it fetches a row, and may update that row afterwards on the
condition that it is still of the version that was fetched.

Main statement:
- `Task.request_guarded`: this holds of every operation, with optimistic concurrency.
-/
import XmlStore.Proofs.Outcomes
import XmlStore.Proofs.Service.Interleaving

namespace XmlStore

/-- whether an operation can begin with a statement, for it replaces no content before it has fetched any -/
def Statement.Begins : Statement → Prop
  | .updateContent .. => False
  | _ => True

namespace Service

open Xml

/-- an answer that gives up because somebody else had changed the document -/
def Conflict {α : Type} (answer : Outcome α) : Prop :=
  ∃ id, answer = .error (.concurrentModification id)

theorem Entry.conflicted_iff (e : Entry) : e.conflicted = true ↔ Conflict e.answer := by
  unfold conflicted Conflict
  split
  · rename_i id h
    simp [h]
  · rename_i h
    simpa using h

namespace Session

variable {α β : Type}

/-- a session of one statement, with what holds of its answer if that statement works -/
def Single (P : α → Prop) : Session α → Prop
  | .done _ => False
  | .call s go =>
    s.Begins ∧ ∀ reply, ∃ answer, go reply = .done answer ∧ ((∃ value, reply = .ok value) → P answer)

theorem Single.imp {P Q : α → Prop} {session : Session α} (h : session.Single P) (hf : ∀ answer, P answer → Q answer) :
    session.Single Q := by
  cases session with
  | done => exact h
  | call s go =>
    refine ⟨h.1, ?_⟩
    intro reply
    obtain ⟨answer, ha, hp⟩ := h.2 reply
    exact ⟨answer, ha, fun hr => hf answer (hp hr)⟩

theorem Single.map {P : α → Prop} {Q : β → Prop} {f : α → β} {session : Session α} (h : session.Single P)
    (hf : ∀ answer, P answer → Q (f answer)) : (session.map f).Single Q := by
  cases session with
  | done => exact h
  | call s go =>
    refine ⟨h.1, ?_⟩
    intro reply
    obtain ⟨answer, ha, hp⟩ := h.2 reply
    exact ⟨f answer, by simp only [ha, andThen], fun hr => hf answer (hp hr)⟩

/-- goes on without a statement of its own -/
theorem Single.whenOk {P : Outcome α → Prop} {Q : Outcome β → Prop} {session : Session (Outcome α)}
    {next : α → Session (Outcome β)} (h : session.Single P) (hf : ∀ failure, P (.error failure) → Q (.error failure))
    (hn : ∀ value, ∃ answer, next value = .done answer ∧ Q answer) : (session.whenOk next).Single Q := by
  cases session with
  | done => exact absurd h id
  | call s go =>
    refine ⟨h.1, ?_⟩
    intro reply
    obtain ⟨answer, ha, hp⟩ := h.2 reply
    simp only [ha, andThen]
    cases answer with
    | error failure => exact ⟨_, rfl, fun hr => hf failure (hp hr)⟩
    | ok value =>
      obtain ⟨answer, hv, hq⟩ := hn value
      exact ⟨answer, hv, fun _ => hq⟩

/-- a session that ends after one statement, and gives up only if that fails, or that fetches a row and then updates it at most, as
long as it is of the version that was fetched -/
inductive Guarded : Session (Outcome α) → Prop where
  | single {session : Session (Outcome α)} (h : session.Single fun answer => ¬ Conflict answer) : Guarded session
  | edit (id : UInt64) (go : Statement.Reply (.fetchById id) → Session (Outcome α))
      (absent : ∃ answer, go (.ok none) = .done answer)
      (present : ∀ row, (∃ answer, go (.ok (some row)) = .done answer) ∨
        ∃ content now back, go (.ok (some row)) = .call (.updateContent id content (some row.version) now) back ∧
          (∀ version, ∃ answer, back (.ok version) = .done answer ∧ ¬ Conflict answer) ∧
          (∃ answer, back (.error .overflow) = .done answer ∧ ¬ Conflict answer) ∧
          back (.error (.missing id)) = go (.ok none) ∧
          ∀ expected found, ∃ answer, back (.error (.versionConflict id expected found)) = .done answer ∧ Conflict answer) :
      Guarded (.call (.fetchById id) go)

end Session

theorem single_ask (s : Statement) (h : s.Begins) : (ask s).Single fun answer => ∃ value, answer = .ok value :=
  ⟨h, fun reply => ⟨reply.mapError Failure.ofStore, rfl, fun ⟨value, hv⟩ => ⟨value, by rw [hv]; rfl⟩⟩⟩

theorem single_fetchRow (id : UInt64) : (fetchRow id).Single fun answer => ¬ Conflict answer := by
  refine (single_ask (.fetchById id) trivial).whenOk (fun failure h => ?_) fun row => ?_
  · obtain ⟨_, h⟩ := h
    simp at h
  · cases row with
    | none => exact ⟨_, rfl, by simp [Conflict]⟩
    | some row => exact ⟨_, rfl, by simp [Conflict]⟩

theorem not_conflict_ok {α : Type} (value : α) : ¬ Conflict (.ok value : Outcome α) := by
  simp [Conflict]

theorem not_conflict_of_ok {α : Type} (answer : Outcome α) : (∃ value, answer = .ok value) → ¬ Conflict answer := by
  rintro ⟨value, rfl⟩
  exact not_conflict_ok value

theorem not_conflict_error {α β : Type} (failure : Failure) (h : ¬ Conflict (.error failure : Outcome α)) :
    ¬ Conflict (.error failure : Outcome β) := by
  simpa [Conflict] using h

theorem not_conflict_mapError {α ε : Type} {x : Except ε α} {f : ε → Failure} (h : ∀ e id, f e ≠ .concurrentModification id) :
    ¬ Conflict (x.mapError f) := by
  rintro ⟨id, hx⟩
  cases x with
  | ok a => simp at hx
  | error e => simp [h] at hx

theorem not_conflict_map {α β : Type} {x : Outcome α} {f : α → β} (h : ¬ Conflict x) : ¬ Conflict (x.map f) := by
  rintro ⟨id, hx⟩
  cases x with
  | ok a => simp [Except.map] at hx
  | error e =>
    simp only [Except.map, Except.error.injEq] at hx
    exact h ⟨id, by rw [hx]⟩

theorem not_conflict_bind {α β : Type} {x : Outcome α} {f : α → Outcome β} (h : ¬ Conflict x) (hf : ∀ a, ¬ Conflict (f a)) :
    ¬ Conflict (x.bind f) := by
  cases x with
  | ok a => exact hf a
  | error e =>
    rintro ⟨id, hx⟩
    exact h ⟨id, by simpa [Except.bind] using hx⟩

theorem not_conflict_readContent (content : String) : ¬ Conflict (readContent content) :=
  not_conflict_mapError fun _ _ => by simp

theorem not_conflict_firstAttributes (target : Target) (hits : List (Element Nat)) :
    ¬ Conflict (firstAttributes target hits) := by
  unfold firstAttributes
  split <;> simp [Conflict]

theorem not_conflict_firstAttribute (target : Target) (name : String) (hits : List (Element Nat)) :
    ¬ Conflict (firstAttribute target name hits) := by
  unfold firstAttribute
  split <;> simp [Conflict]

theorem not_conflict_records (d : Document) (target : Target) (fields : List String) (hits : List (Element Nat)) :
    ¬ Conflict (records d target fields hits) := by
  unfold records
  split <;> simp [Conflict]

theorem single_loadRow (id : UInt64) : (loadRow id).Single fun answer => ¬ Conflict answer := by
  refine (single_fetchRow id).whenOk (fun failure h => ?_) fun row => ⟨_, rfl, ?_⟩
  · rintro ⟨i, hi⟩
    simp only [Except.error.injEq] at hi
    exact h ⟨i, by rw [hi]⟩
  · exact not_conflict_map (not_conflict_readContent row.content)

namespace Request

variable {α β : Type}

/-- a request with such a session, if it opens a connection at all -/
def Guarded : Request (Outcome α) → Prop
  | .done _ => True
  | .connect _ session => session.Guarded

/-- a request with a session of one statement -/
def Single (P : α → Prop) : Request α → Prop
  | .done _ => True
  | .connect _ session => session.Single P

theorem Single.map {P : α → Prop} {Q : β → Prop} {f : α → β} {request : Request α} (h : request.Single P)
    (hf : ∀ answer, P answer → Q (f answer)) : (request.map f).Single Q := by
  cases request with
  | done => trivial
  | connect => exact Session.Single.map h hf

theorem Single.guarded {request : Request (Outcome α)} (h : request.Single fun answer => ¬ Conflict answer) :
    request.Guarded := by
  cases request with
  | done => trivial
  | connect => exact .single h

end Request

theorem single_load (id : UInt64) : (load id).Single fun answer => ¬ Conflict answer :=
  Session.Single.map (single_loadRow id) fun _ h => not_conflict_map h

theorem single_nodeExists (id : UInt64) (target : Target) : (Service.nodeExists id target).Single fun _ => True :=
  (single_load id).map fun _ _ => trivial

theorem guarded_readLookup {α : Type} (id : UInt64) (target : Target) (read : List (Element Nat) → Lookup α) :
    (readLookup id target read).Guarded := by
  refine ((single_load id).map ?_).guarded
  intro answer h
  split
  · simp [Conflict]
  · simp [Conflict]
  · rintro ⟨i, hi⟩
    simp only [Except.error.injEq] at hi
    exact h ⟨i, by rw [hi]⟩

theorem guarded_readValue {α : Type} (id : UInt64) (target : Target) {read : Document → List (Element Nat) → Outcome α}
    (h : ∀ d hits, ¬ Conflict (read d hits)) : (readValue id target read).Guarded :=
  Request.Single.guarded ((single_load id).map (Q := fun answer => ¬ Conflict answer) fun _ ha =>
    not_conflict_bind ha fun d => h d (target.select d))

theorem guarded_mutate {config : Config} (hc : config.optimisticConcurrency = true) (id : UInt64) (target : Target)
    (edit : Edit) (now : UInt64) : (mutate config id target edit now).Guarded := by
  obtain ⟨optimistic, indent⟩ := config
  obtain rfl : optimistic = true := hc
  refine Session.Guarded.edit id _ ⟨_, rfl⟩ ?_
  intro row
  simp only [Session.andThen, ok_mapError]
  cases readContent row.content with
  | error failure => exact Or.inl ⟨_, rfl⟩
  | ok d =>
    simp only [ok_map]
    cases edit.content target d with
    | error failure => exact Or.inl ⟨_, rfl⟩
    | ok content =>
      cases content with
      | none => exact Or.inl ⟨_, rfl⟩
      | some content =>
        refine Or.inr ⟨content, now, _, rfl, fun version => ⟨_, rfl, not_conflict_ok true⟩, ⟨_, rfl, ?_⟩, rfl, ?_⟩
        · rintro ⟨other, e⟩
          cases e
        · exact fun expected found => ⟨_, rfl, id, rfl⟩

/-- **Every operation** makes one statement at most, or updates a row that it has fetched before. -/
theorem Task.request_guarded {config : Config} (hc : config.optimisticConcurrency = true) (task : Task) :
    (task.request config).Guarded := by
  cases task with
  | create title description xml now =>
    simp only [request, Service.create]
    split
    · trivial
    · exact .single ((single_ask (.insert (.new title description _ now)) trivial).imp not_conflict_of_ok)
  | modify id patch now =>
    simp only [request, Service.modify]
    split
    · trivial
    · refine .single ?_
      split
      · exact (single_fetchRow id).whenOk not_conflict_error fun _ => ⟨_, rfl, not_conflict_ok ()⟩
      · exact (single_ask (.updateFields id _ now) trivial).whenOk (fun _ h => absurd h (by simp))
          fun _ => ⟨_, rfl, not_conflict_ok ()⟩
  | delete id => exact .single ((single_ask (.delete id) trivial).imp not_conflict_of_ok)
  | deleteAll => exact .single ((single_ask .deleteAll trivial).imp not_conflict_of_ok)
  | get id => exact .single (single_fetchRow id)
  | getByTitle title =>
    refine .single ((single_ask (.fetchByTitle title) trivial).whenOk (fun _ h => absurd h (by simp)) ?_)
    intro row
    cases row with
    | none => exact ⟨_, rfl, by simp [Conflict]⟩
    | some row => exact ⟨_, rfl, not_conflict_ok row⟩
  | list =>
    exact .single ((single_ask .fetchAll trivial).whenOk (fun _ h => absurd h (by simp))
      fun rows => ⟨_, rfl, not_conflict_ok _⟩)
  | count => exact .single ((single_ask .count trivial).imp not_conflict_of_ok)
  | pretty id =>
    exact Request.Single.guarded ((single_load id).map (Q := fun answer => ¬ Conflict answer) fun _ h => not_conflict_map h)
  | nodeExists id target =>
    exact Request.Single.guarded ((single_nodeExists id target).map fun found _ => not_conflict_ok found)
  | getNodeXml id target => exact guarded_readLookup id target _
  | getNodeText id target => exact guarded_readLookup id target _
  | getAllXml id target => exact guarded_readLookup id target _
  | getAllTexts id target => exact guarded_readLookup id target _
  | getNodesCarrying id target name value => exact guarded_readLookup id target _
  | getAttributes id target => exact guarded_readValue id target fun _ hits => not_conflict_firstAttributes target hits
  | getAttribute id target name => exact guarded_readValue id target fun _ hits => not_conflict_firstAttribute target name hits
  | getRecords id target fields => exact guarded_readValue id target fun d hits => not_conflict_records d target fields hits
  | addNode id parent xml now =>
    simp only [request, Service.addNode]
    split
    · trivial
    · exact guarded_mutate hc id parent _ now
  | editText id target text now => exact guarded_mutate hc id target _ now
  | editName id target name now => exact guarded_mutate hc id target _ now
  | addAttribute id target name value now => exact guarded_mutate hc id target _ now
  | removeAttribute id target name now => exact guarded_mutate hc id target _ now
  | deleteNode id target now => exact guarded_mutate hc id target _ now

end Service

end XmlStore
