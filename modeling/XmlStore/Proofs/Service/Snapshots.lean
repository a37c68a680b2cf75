/-
Operations on a table of their own.

A connection to a file holds the table that was in the file when it was opened, and nobody else changes that table. So an operation
reads from one and the same table until it makes its last statement, and if that writes, the file is replaced by what the statement
makes of that table, whatever has been written to the file meanwhile. An update finds the version that was fetched, so no operation
ever gives up.

Main statements:
- `Task.request_closes`: this is how every operation goes on.
- `Session.Closes.turn`: what the next statement of an operation under way comes to, told by what the operation does alone.
-/
import XmlStore.Proofs.Service.Alone
import XmlStore.Proofs.Service.Guarded

namespace XmlStore

/-- whether an error says that a row has been changed by somebody else -/
def StoreError.conflicts : StoreError → Bool
  | .versionConflict .. => true
  | _ => false

/-- only an update on the condition of a version finds another one -/
theorem Table.conflicts_perform {t : Table} {s : Statement} {error : StoreError} (h : (t.perform s).1 = .error error)
    (other : s.kind ≠ .updateContent) : error.conflicts = false := by
  cases s with
  | insert row =>
    rw [perform] at h
    rcases t.insert_cases row with ⟨error, refused, e⟩ | ⟨id, -, -, e⟩ <;> rw [e] at h <;> cases h
    rcases refused with rfl | rfl <;> rfl
  | updateFields id patch now =>
    rw [perform] at h
    rcases t.updateFields_cases id patch now with ⟨error, refused, e⟩ | ⟨old, -, -, -, e⟩ <;> rw [e] at h <;> cases h
    rcases refused with rfl | ⟨title, rfl⟩ | rfl <;> rfl
  | updateContent id content expected now => exact absurd rfl other
  | _ => cases h

/-- whether a statement on a connection with such a table is to write the file -/
def Table.writes (t : Table) (s : Statement) : Bool :=
  match (t.perform s).1 with
  | .ok result => s.saves result
  | .error _ => false

/-- what goes wrong with a file is no conflict -/
theorem FileStore.conflicts_load {store : FileStore} {d : Directory} {error : StoreError} (h : store.load d = .error error) :
    error.conflicts = false := by
  rcases load_error h with ⟨reason, rfl⟩ | rfl <;> rfl

theorem FileStore.conflicts_save {store : FileStore} {d : Directory} {t : Table} {error : StoreError}
    (h : store.save d t = .error error) : error.conflicts = false := by
  obtain ⟨reason, rfl⟩ := save_error h
  rfl

namespace Service

open Xml

variable {α β : Type} {t : Table}

theorem not_conflict_ofStore {error : StoreError} (h : error.conflicts = false) :
    ¬ Conflict (.error (.ofStore error) : Outcome α) := by
  rintro ⟨id, e⟩
  cases error <;> simp_all [Failure.ofStore, StoreError.conflicts]

/-- an edit of a document is refused for what the document becomes -/
theorem not_conflict_content (edit : Edit) (target : Target) (d : Document) : ¬ Conflict (edit.content target d) := by
  unfold Edit.content
  split
  · exact not_conflict_ok none
  · refine not_conflict_bind (not_conflict_mapError fun _ _ => by simp) ?_
    intro edited
    cases edited with
    | none => exact not_conflict_ok none
    | some edited => exact not_conflict_bind (not_conflict_readContent edited.xml) fun _ => not_conflict_ok (some edited.xml)

theorem not_conflict_normalize (xml : String) : ¬ Conflict (normalize xml) :=
  not_conflict_map (not_conflict_readContent xml)

theorem not_conflict_mapM_normalize (content : Option String) : ¬ Conflict (content.mapM normalize) := by
  cases content with
  | none => exact not_conflict_ok none
  | some xml => exact not_conflict_bind (not_conflict_normalize xml) fun content => not_conflict_ok (some content)

/-! ## How operations go on -/

/-- how a session goes on over a table that nobody else changes: it reads, and ends with an answer or with one more statement, and then
it fails just when that does; and it never gives up -/
inductive Session.Closes (t : Table) : Session (Outcome α) → Prop where
  | done {answer : Outcome α} (calm : ¬ Conflict answer) : Closes t (.done answer)
  | read {s : Statement} {go : s.Reply → Session (Outcome α)} (h : s.reads = true) (next : Closes t (go (t.perform s).1)) :
    Closes t (.call s go)
  | last {s : Statement} {go : s.Reply → Session (Outcome α)}
    (calm : ∀ error, (t.perform s).1 = .error error → error.conflicts = false)
    (fails : ∀ error, go (.error error) = .done (.error (.ofStore error)))
    (works : ∀ result, ∃ value, go (.ok result) = .done (.ok value)) : Closes t (.call s go)

/-- an operation with such a session, which does not give up either when no connection can be opened -/
def Request.Closes (t : Table) : Request (Outcome α) → Prop
  | .done answer => ¬ Conflict answer
  | .connect refused session => (∀ error, error.conflicts = false → ¬ Conflict (refused error)) ∧ session.Closes t

theorem closes_connecting {session : Session (Outcome α)} (h : session.Closes t) : (connecting session).Closes t :=
  ⟨fun _ => not_conflict_ofStore, h⟩

/-- an operation of one statement -/
theorem closes_ask {s : Statement} (other : s.kind ≠ .updateContent) : (ask s).Closes t :=
  .last (fun _ h => Table.conflicts_perform h other) (fun _ => rfl) fun result => ⟨result, rfl⟩

/-- an operation that makes something of the row that it fetches -/
theorem closes_fetchRow (id : UInt64) (f : Row → α) : ((fetchRow id).whenOk fun row => .done (.ok (f row))).Closes t := by
  refine .read rfl ?_
  rw [show (t.perform (.fetchById id)).1 = .ok (t.byId id) from rfl]
  cases t.byId id with
  | none => exact .done (by simp [Conflict])
  | some row => exact .done (not_conflict_ok (f row))

/-- an operation that makes something of a document that it loads -/
theorem closes_load (id : UInt64) {f : Outcome Document → Outcome α}
    (hf : ∀ outcome, ¬ Conflict outcome → ¬ Conflict (f outcome)) : ((load id).map f).Closes t := by
  refine ⟨fun error h => hf _ (not_conflict_ofStore h), .read rfl ?_⟩
  rw [show (t.perform (.fetchById id)).1 = .ok (t.byId id) from rfl]
  cases t.byId id with
  | none => exact .done (hf _ (by simp [Conflict, Except.map]))
  | some row => exact .done (hf _ (not_conflict_map (not_conflict_map (not_conflict_readContent row.content))))

theorem closes_readLookup (id : UInt64) (target : Target) (read : List (Element Nat) → Lookup α) :
    (readLookup id target read).Closes t := by
  refine closes_load id ?_
  intro outcome h
  split
  · exact not_conflict_ok _
  · exact not_conflict_ok _
  · exact not_conflict_error _ h

theorem closes_readValue (id : UInt64) (target : Target) {read : Document → List (Element Nat) → Outcome α}
    (h : ∀ d hits, ¬ Conflict (read d hits)) : (readValue id target read).Closes t :=
  closes_load id fun _ calm => not_conflict_bind calm fun d => h d (target.select d)

/-- an edit finds the version that it has fetched -/
theorem closes_mutate (config : Config) (id : UInt64) (target : Target) (edit : Edit) (now : UInt64) :
    (mutate config id target edit now).Closes t := by
  refine closes_connecting (.read rfl ?_)
  rw [show (t.perform (.fetchById id)).1 = .ok (t.byId id) from rfl]
  cases found : t.byId id with
  | none => exact .done (by simp [Conflict])
  | some row =>
    simp only [Session.andThen, ok_mapError]
    cases read : readContent row.content with
    | error failure =>
      have calm := not_conflict_readContent row.content
      rw [read] at calm
      exact .done (not_conflict_error failure calm)
    | ok d =>
      simp only [ok_map]
      cases made : edit.content target d with
      | error failure =>
        have calm := not_conflict_content edit target d
        rw [made] at calm
        exact .done (not_conflict_error failure calm)
      | ok content =>
        cases content with
        | none => exact .done (not_conflict_ok false)
        | some content =>
          refine .last ?_ (fun _ => rfl) fun _ => ⟨true, rfl⟩
          intro error h
          rw [Table.updateContent_agreed found content (by split <;> simp) now] at h
          cases next : nextWord? row.version with
          | none =>
            rw [next] at h
            cases h
            rfl
          | some version =>
            rw [next] at h
            cases h

/-- **How every operation goes on** over a table that nobody else changes. -/
theorem Task.request_closes (config : Config) (task : Task) (t : Table) : (task.request config).Closes t := by
  cases task with
  | create title description xml now =>
    simp only [request, Service.create]
    cases content : normalize xml with
    | error failure =>
      have calm := not_conflict_normalize xml
      rw [content] at calm
      exact not_conflict_error failure calm
    | ok content => exact closes_connecting (closes_ask (by simp [Statement.kind]))
  | modify id patch now =>
    simp only [request, Service.modify]
    cases content : patch.content.mapM normalize with
    | error failure =>
      have calm := not_conflict_mapM_normalize patch.content
      rw [content] at calm
      exact not_conflict_error failure calm
    | ok content =>
      refine closes_connecting ?_
      split
      · exact closes_fetchRow id fun _ => ()
      · refine .last (fun _ h => Table.conflicts_perform h (by simp [Statement.kind])) (fun _ => rfl) ?_
        intro version
        exact ⟨(), rfl⟩
  | delete id => exact closes_connecting (closes_ask (by simp [Statement.kind]))
  | deleteAll => exact closes_connecting (closes_ask (by simp [Statement.kind]))
  | get id =>
    refine closes_connecting (.read rfl ?_)
    rw [show (t.perform (.fetchById id)).1 = .ok (t.byId id) from rfl]
    cases t.byId id with
    | none => exact .done (by simp [Conflict])
    | some row => exact .done (not_conflict_ok row)
  | getByTitle title =>
    refine closes_connecting (.read rfl ?_)
    rw [show (t.perform (.fetchByTitle title)).1 = .ok (t.byTitle title) from rfl]
    cases t.byTitle title with
    | none => exact .done (by simp [Conflict])
    | some row => exact .done (not_conflict_ok row)
  | list => exact closes_connecting (.read rfl (.done (not_conflict_ok _)))
  | count => exact closes_connecting (closes_ask (by simp [Statement.kind]))
  | pretty id => exact closes_load id fun _ h => not_conflict_map h
  | nodeExists id target =>
    refine ⟨fun _ _ => not_conflict_ok false, .read rfl ?_⟩
    rw [show (t.perform (.fetchById id)).1 = .ok (t.byId id) from rfl]
    cases t.byId id with
    | none => exact .done (not_conflict_ok _)
    | some row => exact .done (not_conflict_ok _)
  | getNodeXml id target => exact closes_readLookup id target _
  | getNodeText id target => exact closes_readLookup id target _
  | getAllXml id target => exact closes_readLookup id target _
  | getAllTexts id target => exact closes_readLookup id target _
  | getNodesCarrying id target name value => exact closes_readLookup id target _
  | getAttributes id target => exact closes_readValue id target fun _ hits => not_conflict_firstAttributes target hits
  | getAttribute id target name => exact closes_readValue id target fun _ hits => not_conflict_firstAttribute target name hits
  | getRecords id target fields => exact closes_readValue id target fun d hits => not_conflict_records d target fields hits
  | addNode id parent xml now =>
    simp only [request, Service.addNode]
    split
    · exact fun h => by simp [Conflict] at h
    · exact closes_mutate config id parent _ now
  | editText id target text now => exact closes_mutate config id target _ now
  | editName id target name now => exact closes_mutate config id target _ now
  | addAttribute id target name value now => exact closes_mutate config id target _ now
  | removeAttribute id target name now => exact closes_mutate config id target _ now
  | deleteNode id target now => exact closes_mutate config id target _ now

/-! ## Operations under way on a file -/

/-- what the next statement of a session on a file comes to -/
inductive Session.Turn (store : FileStore) (d : Directory) (t : Table) (s : Statement) (go : s.Reply → Session (Outcome α)) : Prop where
  /-- it reads, and the session goes on -/
  | onward {s' : Statement} {go' : s'.Reply → Session (Outcome α)} (next : go (store.perform s d t).1 = .call s' go')
    (kept : (store.perform s d t).2 = (d, t)) (closes : (Session.call s' go').Closes t)
    (alone : ∀ d₀, (Session.call s go).run store.backend d₀ t = (Session.call s' go').run store.backend d₀ t)
  /-- it ends the session, which leaves the file -/
  | idle {answer : Outcome α} (next : go (store.perform s d t).1 = .done answer) (kept : (store.perform s d t).2.1 = d)
    (calm : ¬ Conflict answer)
    (alone : ∀ value, answer = .ok value → ∀ d₀, (Session.call s go).run store.backend d₀ t = (answer, d₀))
  /-- it ends the session, which has replaced the file by what becomes of its own table -/
  | wrote {value : α} (next : go (store.perform s d t).1 = .done (.ok value)) (writes : t.writes s = true)
    (saved : store.save d (t.perform s).2 = .ok (store.perform s d t).2.1)
    (alone : ∀ d₀ d₁, store.save d₀ (t.perform s).2 = .ok d₁ → (Session.call s go).run store.backend d₀ t = (.ok value, d₁))

theorem Session.Closes.turn {s : Statement} {go : s.Reply → Session (Outcome α)} (h : (Session.call s go).Closes t)
    (store : FileStore) (d : Directory) : Session.Turn store d t s go := by
  cases h with
  | read reads next =>
    obtain ⟨result, answered, saves⟩ := t.perform_of_reads reads
    have reply : (t.perform s).1 = .ok result := by rw [answered]
    have performed := fun d₀ => store.perform_of_kept d₀ reply saves
    have alone : ∀ d₀, (Session.call s go).run store.backend d₀ t = (go (.ok result)).run store.backend d₀ t := by
      intro d₀
      rw [Session.run_call_file, performed]
    rw [reply] at next
    cases after : go (.ok result) with
    | done answer =>
      rw [after] at next alone
      cases next with
      | done calm => exact .idle (by rw [performed]; exact after) (by rw [performed]) calm fun _ _ => alone
    | call s' go' =>
      rw [after] at next alone
      exact .onward (by rw [performed]; exact after) (by rw [performed]) next alone
  | last calm fails works =>
    cases reply : (t.perform s).1 with
    | error error =>
      have performed := store.perform_of_error d reply
      refine .idle (by rw [performed]; exact fails error) (by rw [performed]) (not_conflict_ofStore (calm error reply)) ?_
      intro value failed
      cases failed
    | ok result =>
      obtain ⟨value, answers⟩ := works result
      cases saves : s.saves result with
      | false =>
        have performed := fun d₀ => store.perform_of_kept d₀ reply saves
        refine .idle (by rw [performed]; exact answers) (by rw [performed]) (not_conflict_ok value) ?_
        intro _ _ d₀
        rw [Session.run_call_file, performed, answers]
        rfl
      | true =>
        cases saved : store.save d (t.perform s).2 with
        | error error =>
          have performed := store.perform_of_unsaved d reply saves saved
          refine .idle (by rw [performed]; exact fails error) (by rw [performed])
            (not_conflict_ofStore (FileStore.conflicts_save saved)) ?_
          intro value failed
          cases failed
        | ok d' =>
          have performed := store.perform_of_saved d reply saves saved
          refine .wrote (by rw [performed]; exact answers) (by rw [Table.writes, reply]; exact saves)
            (by rw [performed]; exact saved) ?_
          intro d₀ d₁ again
          rw [Session.run_call_file, store.perform_of_saved d₀ reply saves again, answers]
          rfl

/-- a session on a connection of its own leaves the directory, or it writes what one statement makes of the table -/
theorem Session.Closes.run_file {session : Session (Outcome α)} (h : session.Closes t) (store : FileStore) (d : Directory) :
    (session.run store.backend d t).2 = d ∨ ∃ s, store.save d (t.perform s).2 = .ok (session.run store.backend d t).2 := by
  induction session with
  | done answer => exact Or.inl rfl
  | call s go ih =>
    rw [Session.run_call_file]
    cases h.turn store d with
    | onward next kept closes =>
      rw [kept]
      exact ih _ (next ▸ closes)
    | idle next kept =>
      rw [next]
      exact Or.inl kept
    | wrote next writes saved =>
      rw [next]
      exact Or.inr ⟨s, saved⟩

end Service

end XmlStore
