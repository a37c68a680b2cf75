/-
Handles on one file.

A handle lets one operation at a time act on its store and knows nothing of other handles on the same file. Each operation loads the
whole table when its connection is opened, and replaces the whole file when it writes. So what is in the file is always what a serial
run of some of the operations has left; the others, though they were acknowledged, are those that a write of an older table has
covered. Nobody ever gives up, for the version of a row is looked up in the table that was loaded.

No operation is lost, and no id is given twice, as long as every write finds in the file the table that its connection has loaded. The
operations are then placed in a serial run one by one: those that write where they have written, and those that read where they have
loaded the table.

Main statements:
- `World.step_stepped`: all that a step can do.
- `World.Stepped.layered`, `World.Stepped.ordered`: what every step keeps, and what is kept by a step that writes nothing older.
- `World.run_handles`: every run.
-/
import Mathlib.Data.List.Permutation
import XmlStore.Proofs.Service.Serializability
import XmlStore.Proofs.Service.Snapshots

namespace XmlStore.Service

/-- whether an operation was acknowledged: it has not failed -/
def Entry.acknowledged (e : Entry) : Bool :=
  match e.answer with
  | .ok _ => true
  | .error _ => false

/-- the operations that were acknowledged -/
def acknowledged (entries : List Entry) : List Entry :=
  entries.filter Entry.acknowledged

/-- the id of the document that an operation has created -/
def Entry.created? : Entry → Option UInt64
  | ⟨.create .., .ok id⟩ => some id
  | _ => none

namespace World

/-- whether a step leaves the file alone, or finds in it the table that the connection has loaded -/
def current (store : FileStore) (w : World Directory Table) : Action → Bool
  | .start _ => true
  | .advance i => w.running[i]?.all fun p => !p.held.writes p.statement || decide (store.load w.shared = .ok p.held)

/-- whether that is so for every one of the steps -/
def undisturbed (store : FileStore) (config : Config) (w : World Directory Table) : List Action → Bool
  | [] => true
  | action :: rest => w.current store action && (w.step store.backend config action).undisturbed store config rest

end World

variable {store : FileStore} {config : Config} {d d' : Directory}

/-! ## Operations under way -/

/-- an operation under way on a file: it goes on as it does alone on any directory with its table, and in the way of all operations -/
structure Process.OnFile (store : FileStore) (config : Config) (p : Process Table) : Prop where
  alone : ∀ d₀, store.load d₀ = .ok p.held →
    (p.task.request config).run store.backend d₀ = (Session.call p.statement p.go).run store.backend d₀ p.held
  closes : (Session.call p.statement p.go).Closes p.held

namespace World

variable {w w' : World Directory Table} {action : Action}

/-- all that a step can do -/
inductive Stepped (store : FileStore) (config : Config) (w : World Directory Table) : Action → World Directory Table → Prop where
  | still (action : Action) : Stepped store config w action w
  /-- an operation has its answer when it begins -/
  | answered (task : Task) (answer : Outcome task.Value) (calm : ¬ Conflict answer)
    (alone : (task.request config).run store.backend w.shared = (answer, w.shared)) :
    Stepped store config w (.start task) { w with finished := w.finished ++ [⟨task, answer⟩] }
  /-- an operation opens its connection -/
  | opened (p : Process Table) (onFile : p.OnFile store config) (loaded : store.load w.shared = .ok p.held) :
    Stepped store config w (.start p.task) { w with running := w.running ++ [p] }
  /-- an operation has read and goes on -/
  | onward (i : Nat) (p p' : Process Table) (hp : w.running[i]? = some p) (held : p'.held = p.held)
    (onFile : p'.OnFile store config) : Stepped store config w (.advance i) ⟨w.shared, w.running.eraseIdx i ++ [p'], w.finished⟩
  /-- an operation ends and leaves the file -/
  | ended (i : Nat) (p : Process Table) (hp : w.running[i]? = some p) (answer : Outcome p.task.Value) (calm : ¬ Conflict answer)
    (alone : ∀ value, answer = .ok value →
      ∀ d₀, store.load d₀ = .ok p.held → (p.task.request config).run store.backend d₀ = (answer, d₀)) :
    Stepped store config w (.advance i) ⟨w.shared, w.running.eraseIdx i, w.finished ++ [⟨p.task, answer⟩]⟩
  /-- an operation ends and has replaced the file -/
  | wrote (i : Nat) (p : Process Table) (hp : w.running[i]? = some p) (value : p.task.Value) (t : Table) (d' : Directory)
    (older : p.held.writes p.statement = true) (saved : store.save w.shared t = .ok d')
    (alone : ∀ d₀ d₁, store.load d₀ = .ok p.held → store.save d₀ t = .ok d₁ →
      (p.task.request config).run store.backend d₀ = (.ok value, d₁)) :
    Stepped store config w (.advance i) ⟨d', w.running.eraseIdx i, w.finished ++ [⟨p.task, .ok value⟩]⟩

theorem start_stepped (task : Task) : Stepped store config w (.start task) (w.step store.backend config (.start task)) := by
  cases request : task.request config with
  | done answer =>
    have calm : ¬ Conflict answer := by
      have closes := task.request_closes config .empty
      rwa [request] at closes
    simp only [step, request]
    exact .answered task answer calm (by rw [request]; rfl)
  | connect refused session =>
    have closes : ∀ t, (Request.connect refused session).Closes t := fun t => request ▸ task.request_closes config t
    cases loaded : store.load w.shared with
    | error error =>
      have fails : store.backend.connect w.shared = .error error := loaded
      simp only [step, request, fails]
      refine .answered task (refused error) ((closes .empty).1 error (FileStore.conflicts_load loaded)) ?_
      simp only [request, Request.run, fails]
    | ok held =>
      have opens : store.backend.connect w.shared = .ok held := loaded
      have alone := fun d₀ (h : store.load d₀ = .ok held) => run_connect_file h refused session
      cases session with
      | done answer =>
        simp only [step, request, opens, settle]
        have calm : ¬ Conflict answer := by
          cases (closes held).2 with
          | done calm => exact calm
        exact .answered task answer calm (by rw [request, alone _ loaded]; rfl)
      | call s go =>
        simp only [step, request, opens, settle]
        exact .opened ⟨task, held, [], s, go⟩ ⟨fun d₀ h => by rw [request, alone d₀ h], (closes held).2⟩ loaded

/-- **Every step** does one of these. -/
theorem step_stepped (h : ∀ p ∈ w.running, p.OnFile store config) (action : Action) :
    Stepped store config w action (w.step store.backend config action) := by
  cases action with
  | start task => exact start_stepped task
  | advance i =>
    cases hp : w.running[i]? with
    | none =>
      simp only [step, hp]
      exact .still _
    | some p =>
      have onFile := h p (List.mem_of_getElem? hp)
      have performs : store.backend.perform p.statement w.shared p.held = store.perform p.statement w.shared p.held := rfl
      simp only [step, hp, performs]
      cases onFile.closes.turn store w.shared with
      | @onward s' go' next kept closes alone =>
        simp only [next, kept, settle]
        refine .onward i p ⟨p.task, p.held, _, s', go'⟩ hp rfl ⟨?_, closes⟩
        intro d₀ loaded
        rw [onFile.alone d₀ loaded, alone]
      | idle next kept calm alone =>
        rw [next, kept]
        refine .ended i p hp _ calm ?_
        intro value ok d₀ loaded
        rw [onFile.alone d₀ loaded, alone value ok]
      | wrote next older saved alone =>
        rw [next]
        refine .wrote i p hp _ _ _ older saved ?_
        intro d₀ d₁ loaded again
        rw [onFile.alone d₀ loaded, alone d₀ d₁ again]

end World

/-! ## Serial runs -/

/-- a serial run of finished operations in which each has the answer that it got, and which leaves a directory -/
structure Leaves (store : FileStore) (config : Config) (d : Directory) (line : List Entry) (d' : Directory) : Prop where
  run : serially store.backend config (line.map Entry.task) d = (line, d')
  /-- what is written next does not depend on what was written -/
  again : ∀ t, store.save d' t = store.save d t

theorem leaves_nil : Leaves store config d [] d :=
  ⟨rfl, fun _ => rfl⟩

namespace Leaves

variable {line before after : List Entry} {d₀ d₁ : Directory} {task : Task} {answer : Outcome task.Value} {t : Table}

/-- one more operation at the end, which leaves the directory -/
theorem read (h : Leaves store config d line d') (alone : (task.request config).run store.backend d' = (answer, d')) :
    Leaves store config d (line ++ [⟨task, answer⟩]) d' := by
  refine ⟨?_, h.again⟩
  rw [List.map_append]
  exact serially_append h.run alone

/-- one more operation at the end, which writes -/
theorem write (h : Leaves store config d line d₀) (alone : (task.request config).run store.backend d₀ = (answer, d₁))
    (saved : store.save d₀ t = .ok d₁) : Leaves store config d (line ++ [⟨task, answer⟩]) d₁ := by
  refine ⟨?_, fun t' => (FileStore.save_again saved t').trans (h.again t')⟩
  rw [List.map_append]
  exact serially_append h.run alone

/-- one more operation at any place, which leaves the directory that it finds there -/
theorem insert (h : Leaves store config d before d₀) (whole : Leaves store config d (before ++ after) d')
    (alone : (task.request config).run store.backend d₀ = (answer, d₀)) :
    Leaves store config d (before ++ ⟨task, answer⟩ :: after) d' := by
  refine ⟨?_, whole.again⟩
  have run := whole.run
  rw [List.map_append, serially_append_tasks h.run, Prod.mk.injEq] at run
  have rest : serially store.backend config (after.map Entry.task) d₀ = (after, d') :=
    Prod.ext (List.append_cancel_left run.1) run.2
  rw [List.map_append, serially_append_tasks h.run]
  simp only [List.map_cons, serially, alone, rest]

end Leaves

theorem acknowledged_append_error {entries : List Entry} (task : Task) (failure : Failure) :
    acknowledged (entries ++ [⟨task, .error failure⟩]) = acknowledged entries := by
  simp [acknowledged, Entry.acknowledged]

theorem acknowledged_append_ok {entries : List Entry} (task : Task) (value : task.Value) :
    acknowledged (entries ++ [⟨task, .ok value⟩]) = acknowledged entries ++ [⟨task, .ok value⟩] := by
  simp [acknowledged, Entry.acknowledged]

/-- a directory that some of the operations that were acknowledged leave in a serial run -/
def Traced (store : FileStore) (config : Config) (d : Directory) (finished : List Entry) (d' : Directory) : Prop :=
  ∃ line, line.Sublist (acknowledged finished) ∧ Leaves store config d line d'

theorem Traced.more {finished : List Entry} (h : Traced store config d finished d') (more : List Entry) :
    Traced store config d (finished ++ more) d' := by
  obtain ⟨line, sub, leaves⟩ := h
  refine ⟨line, sub.trans ?_, leaves⟩
  rw [acknowledged, acknowledged, List.filter_append]
  exact List.sublist_append_left _ _

theorem Traced.wrote {finished : List Entry} {d₀ d₁ : Directory} {task : Task} {value : task.Value} {t : Table}
    (h : Traced store config d finished d₀) (alone : (task.request config).run store.backend d₀ = (.ok value, d₁))
    (saved : store.save d₀ t = .ok d₁) : Traced store config d (finished ++ [⟨task, .ok value⟩]) d₁ := by
  obtain ⟨line, sub, leaves⟩ := h
  refine ⟨line ++ [⟨task, .ok value⟩], ?_, leaves.write alone saved⟩
  rw [acknowledged_append_ok]
  exact sub.append (.refl _)

namespace World

variable {w w' : World Directory Table} {action : Action}

/-! ## Every step -/

/-- what holds of handles on a file: nobody has given up, and what is in the file, and what an operation under way has loaded from it,
is what a serial run of some of the operations has left -/
structure Layered (store : FileStore) (config : Config) (d : Directory) (w : World Directory Table) : Prop where
  calm : ∀ e ∈ w.finished, e.conflicted = false
  onFile : ∀ p ∈ w.running, p.OnFile store config
  loaded : ∀ p ∈ w.running, ∃ d₀, store.load d₀ = .ok p.held ∧ Traced store config d w.finished d₀
  left : Traced store config d w.finished w.shared

theorem layered_initial : (initial d).Layered store config d where
  calm := by simp [initial]
  onFile := by simp [initial]
  loaded := by simp [initial]
  left := ⟨[], List.nil_sublist _, leaves_nil⟩

theorem calm_append {finished : List Entry} (h : ∀ e ∈ finished, e.conflicted = false) {task : Task} {answer : Outcome task.Value}
    (calm : ¬ Conflict answer) : ∀ e ∈ finished ++ [⟨task, answer⟩], e.conflicted = false := by
  intro e he
  rcases List.mem_append.1 he with he | he
  · exact h e he
  · rw [List.mem_singleton.1 he, ← Bool.not_eq_true, Entry.conflicted_iff]
    exact calm

/-- what operations under way have loaded is what it was when others end -/
theorem Layered.loaded_more (h : w.Layered store config d) {running : List (Process Table)}
    (others : ∀ p ∈ running, p ∈ w.running) (more : List Entry) :
    ∀ p ∈ running, ∃ d₀, store.load d₀ = .ok p.held ∧ Traced store config d (w.finished ++ more) d₀ := by
  intro p hp
  obtain ⟨d₀, loaded, traced⟩ := h.loaded p (others p hp)
  exact ⟨d₀, loaded, traced.more more⟩

/-- **Every step** keeps this, also one that writes an older table: it covers the operations since then. -/
theorem Stepped.layered (h : w.Layered store config d) (step : Stepped store config w action w') : w'.Layered store config d := by
  cases step with
  | still => exact h
  | answered task answer calm alone =>
    exact ⟨calm_append h.calm calm, h.onFile, h.loaded_more (fun _ hq => hq) _, h.left.more _⟩
  | opened p onFile loaded =>
    refine ⟨h.calm, ?_, ?_, h.left⟩
    · exact List.forall_mem_append.2 ⟨h.onFile, List.forall_mem_singleton.2 onFile⟩
    · exact List.forall_mem_append.2 ⟨h.loaded, List.forall_mem_singleton.2 ⟨w.shared, loaded, h.left⟩⟩
  | onward i p p' hp held onFile =>
    have others := fun q (hq : q ∈ w.running.eraseIdx i) => List.mem_of_mem_eraseIdx hq
    refine ⟨h.calm, ?_, ?_, h.left⟩
    · exact List.forall_mem_append.2 ⟨fun q hq => h.onFile q (others q hq), List.forall_mem_singleton.2 onFile⟩
    · refine List.forall_mem_append.2 ⟨fun q hq => h.loaded q (others q hq), List.forall_mem_singleton.2 ?_⟩
      rw [held]
      exact h.loaded p (List.mem_of_getElem? hp)
  | ended i p hp answer calm alone =>
    have others := fun q (hq : q ∈ w.running.eraseIdx i) => List.mem_of_mem_eraseIdx hq
    exact ⟨calm_append h.calm calm, fun q hq => h.onFile q (others q hq), h.loaded_more others _, h.left.more _⟩
  | wrote i p hp value t d' older saved alone =>
    have others := fun q (hq : q ∈ w.running.eraseIdx i) => List.mem_of_mem_eraseIdx hq
    refine ⟨calm_append h.calm (not_conflict_ok value), fun q hq => h.onFile q (others q hq), h.loaded_more others _, ?_⟩
    -- the file would have been written so from the directory that was loaded as well
    obtain ⟨d₀, loaded, line, sub, leaves⟩ := h.loaded p (List.mem_of_getElem? hp)
    obtain ⟨_, _, now⟩ := h.left
    have again : store.save d₀ t = .ok d' := by
      calc store.save d₀ t = store.save d t := leaves.again t
        _ = store.save w.shared t := (now.again t).symm
        _ = .ok d' := saved
    exact Traced.wrote ⟨line, sub, leaves⟩ (alone d₀ d' loaded again) again

theorem run_layered (h : w.Layered store config d) (actions : List Action) :
    (w.run store.backend config actions).Layered store config d := by
  induction actions generalizing w with
  | nil => exact h
  | cons action rest ih => exact ih ((step_stepped h.onFile action).layered h)

/-! ## Steps that write nothing older -/

/-- a table that was in the file after some first operations of a serial run -/
def LoadedIn (store : FileStore) (config : Config) (d : Directory) (order : List Entry) (t : Table) : Prop :=
  ∃ before d₀, before <+: order ∧ Leaves store config d before d₀ ∧ store.load d₀ = .ok t

theorem LoadedIn.more {order : List Entry} {t : Table} (h : LoadedIn store config d order t) (more : List Entry) :
    LoadedIn store config d (order ++ more) t := by
  obtain ⟨before, d₀, first, leaves, loaded⟩ := h
  exact ⟨before, d₀, first.trans (List.prefix_append _ _), leaves, loaded⟩

/-- an operation that leaves the directory is placed where it has loaded its table; what others have loaded was there before or after it -/
theorem LoadedIn.insert {before after : List Entry} {d₀ : Directory} {task : Task} {answer : Outcome task.Value} {t : Table}
    (placed : Leaves store config d before d₀) (alone : (task.request config).run store.backend d₀ = (answer, d₀))
    (h : LoadedIn store config d (before ++ after) t) : LoadedIn store config d (before ++ ⟨task, answer⟩ :: after) t := by
  obtain ⟨first, d₁, sub, leaves, loaded⟩ := h
  rcases List.prefix_or_prefix_of_prefix sub (List.prefix_append before after) with earlier | ⟨between, rfl⟩
  · exact ⟨first, d₁, earlier.trans (List.prefix_append _ _), leaves, loaded⟩
  · refine ⟨before ++ ⟨task, answer⟩ :: between, d₁, ?_, placed.insert leaves alone, loaded⟩
    rw [List.prefix_append_right_inj] at sub ⊢
    exact List.cons_prefix_cons.2 ⟨rfl, sub⟩

/-- a serial run of all operations that were acknowledged, in which every operation under way has loaded what it works on -/
structure Ordered (store : FileStore) (config : Config) (d : Directory) (w : World Directory Table) (order : List Entry) : Prop where
  perm : order.Perm (acknowledged w.finished)
  left : Leaves store config d order w.shared
  loaded : ∀ p ∈ w.running, LoadedIn store config d order p.held

theorem ordered_initial : (initial d).Ordered store config d [] :=
  ⟨.refl _, leaves_nil, by simp [initial]⟩

/-- **A step that writes nothing older** keeps such a run: an operation that writes comes last, one that reads comes where it has loaded
the table. -/
theorem Stepped.ordered {order : List Entry} (h : w.Ordered store config d order) (current : w.current store action = true)
    (step : Stepped store config w action w') : ∃ order', w'.Ordered store config d order' := by
  cases step with
  | still => exact ⟨order, h⟩
  | answered task answer calm alone =>
    cases answer with
    | error failure => exact ⟨order, (acknowledged_append_error task failure).symm ▸ h.perm, h.left, h.loaded⟩
    | ok value =>
      refine ⟨order ++ [⟨task, .ok value⟩], ?_, h.left.read alone, fun q hq => (h.loaded q hq).more _⟩
      exact (acknowledged_append_ok task value).symm ▸ h.perm.append_right _
  | opened p onFile loaded =>
    refine ⟨order, h.perm, h.left, List.forall_mem_append.2 ⟨h.loaded, List.forall_mem_singleton.2 ?_⟩⟩
    exact ⟨order, w.shared, List.prefix_refl _, h.left, loaded⟩
  | onward i p p' hp held onFile =>
    have others := fun q (hq : q ∈ w.running.eraseIdx i) => h.loaded q (List.mem_of_mem_eraseIdx hq)
    refine ⟨order, h.perm, h.left, List.forall_mem_append.2 ⟨others, List.forall_mem_singleton.2 ?_⟩⟩
    rw [held]
    exact h.loaded p (List.mem_of_getElem? hp)
  | ended i p hp answer calm alone =>
    have others := fun q (hq : q ∈ w.running.eraseIdx i) => h.loaded q (List.mem_of_mem_eraseIdx hq)
    cases answer with
    | error failure => exact ⟨order, (acknowledged_append_error p.task failure).symm ▸ h.perm, h.left, others⟩
    | ok value =>
      obtain ⟨before, d₀, ⟨after, rfl⟩, leaves, loaded⟩ := h.loaded p (List.mem_of_getElem? hp)
      have reads := alone value rfl d₀ loaded
      refine ⟨before ++ ⟨p.task, .ok value⟩ :: after, ?_, leaves.insert h.left reads, fun q hq => (others q hq).insert leaves reads⟩
      rw [acknowledged_append_ok]
      exact List.perm_middle.trans ((h.perm.cons _).trans (List.perm_append_singleton _ _).symm)
  | wrote i p hp value t d' older saved alone =>
    have loaded : store.load w.shared = .ok p.held := by
      simpa [World.current, hp, older] using current
    refine ⟨order ++ [⟨p.task, .ok value⟩], ?_, h.left.write (alone _ _ loaded saved) saved, ?_⟩
    · exact (acknowledged_append_ok p.task value).symm ▸ h.perm.append_right _
    · exact fun q hq => (h.loaded q (List.mem_of_mem_eraseIdx hq)).more _

theorem run_ordered {order : List Entry} (layered : w.Layered store config d) (h : w.Ordered store config d order)
    {actions : List Action} (current : w.undisturbed store config actions = true) :
    ∃ order', (w.run store.backend config actions).Ordered store config d order' := by
  induction actions generalizing w order with
  | nil => exact ⟨order, h⟩
  | cons action rest ih =>
    simp only [undisturbed, Bool.and_eq_true] at current
    have step := step_stepped layered.onFile action
    obtain ⟨order', next⟩ := step.ordered h current.1
    exact ih (step.layered layered) next current.2

end World

/-! ## Ids in serial runs -/

section Ids

variable {t : Table} {s : Statement}

theorem lastId_of_saved (loaded : store.load d = .ok t) (saved : store.save d (t.perform s).2 = .ok d') :
    ∃ t', store.load d' = .ok t' ∧ t'.lastId = (t.perform s).2.lastId :=
  ⟨_, FileStore.load_eq_of_save saved, Table.lastId_ofRows ((FileStore.counted_of_load loaded).perform s)⟩

/-- an operation alone does not take the counter back -/
theorem Task.run_lastId (config : Config) (task : Task) (loaded : store.load d = .ok t) :
    ∃ t', store.load ((task.request config).run store.backend d).2 = .ok t' ∧ t.lastId ≤ t'.lastId := by
  have closes := task.request_closes config t
  cases request : task.request config with
  | done answer => exact ⟨t, loaded, UInt64.le_refl _⟩
  | connect refused session =>
    rw [request] at closes
    rw [run_connect_file loaded]
    rcases closes.2.run_file store d with kept | ⟨s, saved⟩
    · exact ⟨t, by rw [kept, loaded], UInt64.le_refl _⟩
    · obtain ⟨t', loaded', lastId⟩ := lastId_of_saved loaded saved
      exact ⟨t', loaded', lastId ▸ (t.follows_perform s).lastId⟩

/-- a row that is added alone gets the next id -/
theorem run_insert (row : Row) (loaded : store.load d = .ok t) {id : UInt64}
    (works : ((connecting (ask (.insert row))).run store.backend d).1 = .ok id) :
    t.lastId < id ∧ ∃ t', store.load ((connecting (ask (.insert row))).run store.backend d).2 = .ok t' ∧ t'.lastId = id := by
  rw [connecting, run_connect_file loaded, ask, Session.run_call_file] at works ⊢
  cases reply : (t.perform (.insert row)).1 with
  | error error =>
    rw [store.perform_of_error d reply] at works
    cases works
  | ok given =>
    cases saved : store.save d (t.perform (.insert row)).2 with
    | error error =>
      rw [store.perform_of_unsaved d reply rfl saved] at works
      cases works
    | ok d' =>
      rw [store.perform_of_saved d reply rfl saved] at works ⊢
      cases works
      have numbering := t.perform_numbering (.insert row)
      rw [reply] at numbering
      cases numbering with
      | kept lastId ids none => cases none
      | added id' next lastId ids some =>
        obtain rfl : id = id' := Option.some.inj some
        obtain ⟨t', loaded', same⟩ := lastId_of_saved loaded saved
        exact ⟨lt_of_nextWord? next, t', loaded', same.trans lastId⟩

/-- an operation that creates a document alone gives it the next id -/
theorem Task.run_created? (task : Task) (loaded : store.load d = .ok t) {id : UInt64}
    (created : Entry.created? ⟨task, ((task.request config).run store.backend d).1⟩ = some id) :
    t.lastId < id ∧ ∃ t', store.load ((task.request config).run store.backend d).2 = .ok t' ∧ t'.lastId = id := by
  cases task with
  | create title description xml now =>
    simp only [Task.request, Service.create] at created ⊢
    cases content : normalize xml with
    | error failure =>
      rw [content] at created
      cases created
    | ok content' =>
      rw [content] at created
      simp only at created ⊢
      refine run_insert _ loaded ?_
      cases answer : ((connecting (ask (.insert (.new title description content' now)))).run store.backend d).1 with
      | error failure =>
        rw [answer] at created
        cases created
      | ok given =>
        rw [answer] at created
        cases created
        rfl
  | _ => cases created

/-- while the file cannot be read nothing is created -/
theorem Task.run_unreadable (config : Config) (task : Task) {error : StoreError} (refused : store.load d = .error error) :
    ((task.request config).run store.backend d).2 = d ∧
      Entry.created? ⟨task, ((task.request config).run store.backend d).1⟩ = none := by
  have fails : store.backend.connect d = .error error := refused
  constructor
  · cases request : task.request config with
    | done answer => rfl
    | connect refused session => simp only [Request.run, fails]
  · cases task with
    | create title description xml now =>
      simp only [Task.request, Service.create]
      cases normalize xml with
      | error failure => rfl
      | ok content =>
        simp only [connecting, Request.run, fails]
        rfl
    | _ => rfl

/-- **Ids in a serial run** ascend from the counter. -/
theorem serially_created (tasks : List Task) :
    ((serially store.backend config tasks d).1.filterMap Entry.created?).Pairwise (· < ·) ∧
      ∀ t, store.load d = .ok t → ∀ id ∈ (serially store.backend config tasks d).1.filterMap Entry.created?, t.lastId < id := by
  induction tasks generalizing d with
  | nil => exact ⟨.nil, by simp [serially]⟩
  | cons task rest ih =>
    simp only [serially]
    cases loaded : store.load d with
    | error error =>
      obtain ⟨kept, none⟩ := task.run_unreadable config loaded
      rw [List.filterMap_cons_none none, kept]
      refine ⟨ih.1, ?_⟩
      rintro _ ⟨⟩
    | ok t =>
      obtain ⟨t', loaded', below⟩ := task.run_lastId config loaded
      obtain ⟨ascending, beyond⟩ := @ih ((task.request config).run store.backend d).2
      have beyond := beyond t' loaded'
      cases created : Entry.created? ⟨task, ((task.request config).run store.backend d).1⟩ with
      | none =>
        rw [List.filterMap_cons_none created]
        refine ⟨ascending, ?_⟩
        rintro _ ⟨⟩ id hid
        exact UInt64.lt_of_le_of_lt below (beyond id hid)
      | some id =>
        rw [List.filterMap_cons_some created]
        obtain ⟨next, t'', loaded'', lastId⟩ := task.run_created? loaded created
        obtain rfl : t'' = t' := Except.ok.inj (loaded''.symm.trans loaded')
        rw [lastId] at beyond
        refine ⟨List.pairwise_cons.2 ⟨beyond, ascending⟩, ?_⟩
        rintro _ ⟨⟩ other ho
        rcases List.mem_cons.1 ho with rfl | ho
        · exact next
        · exact UInt64.lt_trans next (beyond other ho)

end Ids

/-! ## Whole runs -/

theorem filterMap_acknowledged (entries : List Entry) :
    (acknowledged entries).filterMap Entry.created? = entries.filterMap Entry.created? := by
  rw [acknowledged, List.filterMap_filter]
  congr 1
  funext e
  obtain ⟨task, answer⟩ := e
  cases answer with
  | ok value => rfl
  | error failure => cases task <;> rfl

namespace World

/-- **Handles on one file.** However the steps of any operations come one after the other, no operation gives up, and the file is what a
serial run of some of the acknowledged operations leaves. If every write finds in the file the table that its connection has loaded,
it is what all of them leave in some order, and no id is given twice. -/
theorem run_handles (store : FileStore) (config : Config) (d : Directory) (actions : List Action) :
    let w := (initial d).run store.backend config actions
    (∀ e ∈ w.finished, e.conflicted = false) ∧
      (∃ line, line.Sublist (acknowledged w.finished) ∧
        serially store.backend config (line.map Entry.task) d = (line, w.shared)) ∧
      ((initial d).undisturbed store config actions = true →
        (∃ order, order.Perm (acknowledged w.finished) ∧
          serially store.backend config (order.map Entry.task) d = (order, w.shared)) ∧
        (w.finished.filterMap Entry.created?).Nodup) := by
  intro w
  have layered : w.Layered store config d := run_layered layered_initial actions
  obtain ⟨line, sub, leaves⟩ := layered.left
  refine ⟨layered.calm, ⟨line, sub, leaves.run⟩, ?_⟩
  intro current
  obtain ⟨order, ordered⟩ := run_ordered layered_initial ordered_initial current
  refine ⟨⟨order, ordered.perm, ordered.left.run⟩, ?_⟩
  have ascending : ((serially store.backend config (order.map Entry.task) d).1.filterMap Entry.created?).Pairwise (· < ·) :=
    (serially_created _).1
  rw [ordered.left.run] at ascending
  rw [← filterMap_acknowledged, ← (ordered.perm.filterMap _).nodup_iff]
  exact ascending.imp UInt64.ne_of_lt

/-- a store in a directory with nothing in it -/
def bareStore : FileStore × Directory := ⟨⟨"store.json"⟩, .empty "/home"⟩

/-- one handle counts the documents in the file as it was before the other has written -/
def lateReader : List Action := [.start (.create "t" "" "<a/>" 1), .start .count, .advance 0, .advance 0]

theorem run_handles_lateReader :
    let w := (initial bareStore.2).run bareStore.1.backend .default lateReader
    (initial bareStore.2).undisturbed bareStore.1 .default lateReader = true ∧
      (acknowledged w.finished).map Entry.task = [.create "t" "" "<a/>" 1, .count] ∧
      (∃ order, order.Perm (acknowledged w.finished) ∧
        serially bareStore.1.backend .default (order.map Entry.task) bareStore.2 = (order, w.shared)) ∧
      (w.finished.filterMap Entry.created?).Nodup := by
  intro w
  have current : (initial bareStore.2).undisturbed bareStore.1 .default lateReader = true := by decide +kernel
  obtain ⟨-, -, complete⟩ := run_handles bareStore.1 .default bareStore.2 lateReader
  exact ⟨current, by decide +kernel, complete current⟩

/-- each of two handles adds a document to the file as it was at first -/
def twoCreators : List Action :=
  [.start (.create "a" "" "<a/>" 1), .start (.create "b" "" "<b/>" 2), .advance 0, .advance 0]

/-- a store with one document, in a file that somebody else has written -/
def givenStore : FileStore × Directory :=
  ⟨bareStore.1, bareStore.2.put ["store.json"] (.file (.text "[1,[[1,\"t\",\"\",\"<a>x</a>\",1,0,0]]]"))⟩

/-- each of two handles edits the document as it was at first -/
def earlyEditors : List Action :=
  let root : Target := .locator ⟨false, [⟨.child, "a", []⟩]⟩
  [.start (.editText 1 root "y" 1), .start (.editName 1 root "b" 2), .advance 0, .advance 0, .advance 0, .advance 0]

/-- Two documents that are added to the same table get the same id, and the file is what no serial run leaves; and an edit of a row that
has been edited since it was fetched does not give up, and what the other has written is lost. All of these are acknowledged. -/
theorem acknowledged_lost :
    let w := (initial bareStore.2).run bareStore.1.backend .default twoCreators
    let w' := (initial givenStore.2).run givenStore.1.backend .default earlyEditors
    ((acknowledged w.finished).map Entry.task = [.create "a" "" "<a/>" 1, .create "b" "" "<b/>" 2] ∧
        w.finished.filterMap Entry.created? = [1, 1] ∧
        ∀ order : List Task, order.Perm ((acknowledged w.finished).map Entry.task) →
          (serially bareStore.1.backend .default order bareStore.2).2 ≠ w.shared) ∧
      (acknowledged w'.finished).length = 2 ∧ w'.finished.map Entry.conflicted = [false, false] ∧
      (givenStore.1.load w'.shared).toOption.map Table.stored = some ⟨[⟨1, "t", "", "<b>x</b>", 2, 0, 2⟩], 1⟩ := by
  intro w w'
  have tasks : (acknowledged w.finished).map Entry.task = [.create "a" "" "<a/>" 1, .create "b" "" "<b/>" 2] := by decide +kernel
  refine ⟨⟨tasks, by decide +kernel, ?_⟩, by decide +kernel, by decide +kernel, by decide +kernel⟩
  rw [tasks]
  intro order perm
  rcases List.perm_pair.1 perm with rfl | rfl
  · decide +kernel
  · decide +kernel

end World

end XmlStore.Service
