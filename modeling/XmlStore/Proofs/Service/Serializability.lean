/-
No update is lost.

With optimistic concurrency, clients that act on a store in memory in any order leave what a serial run leaves: the finished
operations are run again one after the other, in the order of their last statements, and each gets the answer that it got. Those
that gave up on a changed document are left out, for they have changed nothing.

What carries this is that a process that has fetched a row and is about to update it finds under the id that very row, or one of
a higher version, or none (`Process.Sound`).

Main statements:
- `World.step_sound`: what every step keeps.
- `World.run_serializable`: every run is equivalent to a serial one, and every update that works replaces the row that was fetched.
-/
import XmlStore.Proofs.Service.Alone
import XmlStore.Proofs.Service.Guarded

namespace XmlStore.Service

/-! ## Serial runs -/

section Serial

variable {σ κ : Type} {backend : Backend σ κ} {config : Config}

theorem serially_append_tasks {tasks : List Task} {shared middle : σ} {entries : List Entry}
    (h : serially backend config tasks shared = (entries, middle)) (more : List Task) :
    serially backend config (tasks ++ more) shared =
      (entries ++ (serially backend config more middle).1, (serially backend config more middle).2) := by
  induction tasks generalizing shared entries with
  | nil =>
    simp only [serially, Prod.mk.injEq] at h
    obtain ⟨rfl, rfl⟩ := h
    rfl
  | cons first rest ih =>
    simp only [serially, Prod.mk.injEq] at h
    obtain ⟨rfl, hm⟩ := h
    simp only [List.cons_append, serially, ih (Prod.ext rfl hm)]

theorem serially_append {tasks : List Task} {shared middle last : σ} {entries : List Entry} {task : Task}
    {answer : Outcome task.Value} (h : serially backend config tasks shared = (entries, middle))
    (hrun : (task.request config).run backend middle = (answer, last)) :
    serially backend config (tasks ++ [task]) shared = (entries ++ [⟨task, answer⟩], last) := by
  rw [serially_append_tasks h]
  simp only [serially, hrun]

theorem kept_append_conflict {entries : List Entry} {task : Task} {answer : Outcome task.Value} (h : Conflict answer) :
    kept (entries ++ [⟨task, answer⟩]) = kept entries := by
  have given_up : Entry.conflicted ⟨task, answer⟩ = true := (Entry.conflicted_iff _).2 h
  simp [kept, List.filter_append, given_up]

theorem kept_append_other {entries : List Entry} {task : Task} {answer : Outcome task.Value} (h : ¬ Conflict answer) :
    kept (entries ++ [⟨task, answer⟩]) = kept entries ++ [⟨task, answer⟩] := by
  have stands : Entry.conflicted ⟨task, answer⟩ = false := by
    rw [← Bool.not_eq_true, Entry.conflicted_iff]
    exact h
  simp [kept, List.filter_append, stands]

end Serial

/-! ## What holds of operations under way -/

variable {config : Config}

/-- a table that has come from one in which a row was found -/
def Seen (id : UInt64) (row : Row) (t : Table) : Prop :=
  ∃ before : Table, before.byId id = some row ∧ id ≤ before.lastId ∧ before.Later t

theorem Seen.later {id : UInt64} {row : Row} {t t' : Table} (h : Seen id row t) (hl : t.Later t') : Seen id row t' := by
  obtain ⟨before, hb, hid, hlater⟩ := h
  exact ⟨before, hb, hid, hlater.trans hl⟩

/-- what holds of an operation under way: it has made no statement, or it has fetched a row that it is about to update -/
inductive Process.Sound (config : Config) (t : Table) : Process Unit → Prop where
  | fresh (task : Task) (refused : StoreError → Outcome task.Value) (s : Statement)
      (go : s.Reply → Session (Outcome task.Value)) (request : task.request config = .connect refused (.call s go)) :
      Process.Sound config t ⟨task, (), [], s, go⟩
  | fetched (task : Task) (refused : StoreError → Outcome task.Value) (id : UInt64)
      (go : Statement.Reply (.fetchById id) → Session (Outcome task.Value))
      (request : task.request config = .connect refused (.call (.fetchById id) go)) (row : Row) (content : String) (now : UInt64)
      (back : Statement.Reply (.updateContent id content (some row.version) now) → Session (Outcome task.Value))
      (next : go (.ok (some row)) = .call (.updateContent id content (some row.version) now) back)
      (absent : ∃ answer, go (.ok none) = .done answer)
      (works : ∀ version, ∃ answer, back (.ok version) = .done answer ∧ ¬ Conflict answer)
      (stops : ∃ answer, back (.error .overflow) = .done answer ∧ ¬ Conflict answer)
      (gone : back (.error (.missing id)) = go (.ok none))
      (changed : ∀ expected found, ∃ answer,
        back (.error (.versionConflict id expected found)) = .done answer ∧ Conflict answer)
      (seen : Seen id row t) :
      Process.Sound config t
        ⟨task, (), [⟨.fetchById id, .ok (some row)⟩], .updateContent id content (some row.version) now, back⟩

theorem Process.Sound.later {t t' : Table} {p : Process Unit} (h : p.Sound config t) (hl : t.Later t') :
    p.Sound config t' := by
  cases h with
  | fresh task refused s go request => exact .fresh task refused s go request
  | fetched task refused id go request row content now back next absent works stops gone changed seen =>
    exact .fetched task refused id go request row content now back next absent works stops gone changed (seen.later hl)

/-- what holds of clients at a store in memory -/
structure World.Sound (config : Config) (w : World Memory Unit) : Prop where
  reachable : w.shared.reachable = true
  counted : w.shared.table.Counted
  running : ∀ p ∈ w.running, p.Sound config w.shared.table
  serial : serially Memory.backend config ((kept w.finished).map Entry.task) .empty = (kept w.finished, w.shared)

/-- an operation that has its place in the serial run: alone it would have had this answer and this effect, unless it gave up,
and then it has had no effect -/
structure Placed (config : Config) (before after : Memory) (task : Task) (answer : Outcome task.Value) : Prop where
  conflicted : Conflict answer → after = before
  alone : ¬ Conflict answer → (task.request config).run Memory.backend before = (answer, after)

namespace World

theorem serial_placed {before after : Memory} {finished : List Entry} {task : Task} {answer : Outcome task.Value}
    (h : serially Memory.backend config ((kept finished).map Entry.task) .empty = (kept finished, before))
    (hp : Placed config before after task answer) :
    serially Memory.backend config ((kept (finished ++ [⟨task, answer⟩])).map Entry.task) .empty =
      (kept (finished ++ [⟨task, answer⟩]), after) := by
  by_cases hc : Conflict answer
  · rw [kept_append_conflict hc, hp.conflicted hc]
    exact h
  · rw [kept_append_other hc, List.map_append]
    exact serially_append h (hp.alone hc)

end World

/-! ## One statement -/

namespace Process

variable {m : Memory} {p : Process Unit}

/-- how an operation under way may go on: its next statement is its last and gives it its place in the serial run, or it is the fetch
before an update -/
def Turns (config : Config) (m : Memory) (p : Process Unit) : Prop :=
  (∃ answer, p.go (m.table.perform p.statement).1 = .done answer ∧ Placed config m (after m p.statement) p.task answer) ∨
    ∃ s go, p.go (m.table.perform p.statement).1 = .call s go ∧ after m p.statement = m ∧
      Process.Sound config m.table ⟨p.task, (), p.past ++ [⟨p.statement, (m.table.perform p.statement).1⟩], s, go⟩

section Turn

variable {task : Task} {refused : StoreError → Outcome task.Value}

theorem turns_single {s : Statement} {go : s.Reply → Session (Outcome task.Value)}
    (request : task.request config = .connect refused (.call s go))
    (single : (Session.call s go).Single fun answer => ¬ Conflict answer) (hr : m.reachable = true) :
    Turns config m ⟨task, (), [], s, go⟩ := by
  left
  obtain ⟨answer, ha, hno⟩ := single.2 (m.table.perform s).1
  refine ⟨answer, ha, ?_, ?_⟩
  · intro conflict
    cases hp : (m.table.perform s).1 with
    | ok value => exact absurd conflict (hno ⟨value, hp⟩)
    | error error => rw [after, Table.perform_error hp]
  · intro _
    rw [request, run_connect hr, run_call hr, ha]
    rfl

variable {id : UInt64} {go : Statement.Reply (.fetchById id) → Session (Outcome task.Value)}

/-- what an operation that begins with a fetch does alone is decided by what it fetches -/
theorem run_fetch (request : task.request config = .connect refused (.call (.fetchById id) go)) (hr : m.reachable = true) :
    (task.request config).run Memory.backend m = (go (.ok (m.table.byId id))).run Memory.backend m () := by
  rw [request, run_connect hr, run_call hr]
  rfl

theorem turns_fresh {s : Statement} {go : s.Reply → Session (Outcome task.Value)}
    (request : task.request config = .connect refused (.call s go)) (guarded : (Session.call s go).Guarded)
    (hr : m.reachable = true) (counted : m.table.Counted) : Turns config m ⟨task, (), [], s, go⟩ := by
  cases guarded with
  | single single => exact turns_single request single hr
  | edit id go absent present =>
    have alone := run_fetch request hr
    have same : after m (.fetchById id) = m := rfl
    have fetch : (m.table.perform (.fetchById id)).1 = .ok (m.table.byId id) := rfl
    simp only [Turns, fetch, same]
    cases found : m.table.byId id with
    | none =>
      rw [found] at alone
      obtain ⟨answer, ha⟩ := absent
      exact Or.inl ⟨answer, ha, fun _ => rfl, fun _ => by rw [alone, ha]; rfl⟩
    | some row =>
      rw [found] at alone
      rcases present row with ⟨answer, ha⟩ | ⟨content, now, back, next, works, stops, gone, changed⟩
      · exact Or.inl ⟨answer, ha, fun _ => rfl, fun _ => by rw [alone, ha]; rfl⟩
      · have given : id ≤ m.table.lastId := Table.id_of_byId found ▸ counted row (Table.mem_of_byId found)
        have seen : Seen id row m.table := ⟨m.table, found, given, .refl _⟩
        exact Or.inr ⟨_, back, next, trivial,
          .fetched task refused id go request row content now back next absent works stops gone changed seen⟩

/-- **An update** finds the row that was fetched, or none, or one of another version, and then it gives up. -/
theorem turns_update (request : task.request config = .connect refused (.call (.fetchById id) go)) {row : Row} {content : String}
    {now : UInt64} {back : Statement.Reply (.updateContent id content (some row.version) now) → Session (Outcome task.Value)}
    (next : go (.ok (some row)) = .call (.updateContent id content (some row.version) now) back)
    (absent : ∃ answer, go (.ok none) = .done answer)
    (works : ∀ version, ∃ answer, back (.ok version) = .done answer ∧ ¬ Conflict answer)
    (stops : ∃ answer, back (.error .overflow) = .done answer ∧ ¬ Conflict answer)
    (gone : back (.error (.missing id)) = go (.ok none))
    (changed : ∀ expected found, ∃ answer,
      back (.error (.versionConflict id expected found)) = .done answer ∧ Conflict answer)
    (seen : Seen id row m.table) (past : List Exchange) (hr : m.reachable = true) :
    Turns config m ⟨task, (), past, .updateContent id content (some row.version) now, back⟩ := by
  left
  have alone := run_fetch request hr
  cases found : m.table.byId id with
  | none =>
    rw [found] at alone
    have missing := Table.updateContent_missing found content (some row.version) now
    obtain ⟨answer, ha⟩ := absent
    refine ⟨answer, by rw [missing]; exact gone.trans ha, fun _ => by rw [after, missing], ?_⟩
    intro _
    rw [alone, ha, after, missing]
    rfl
  | some current =>
    rw [found] at alone
    by_cases version : current.version = row.version
    · obtain ⟨before, hb, given, later⟩ := seen
      obtain rfl : current = row := later.same hb given found version
      have updated := Table.updateContent_same found content now
      -- the row is written, or the program stops, here and in the serial run alike
      obtain ⟨answer, ha, hno⟩ : ∃ answer,
          back ((nextWord? current.version).elim (.error .overflow) .ok) = .done answer ∧ ¬ Conflict answer := by
        cases nextWord? current.version with
        | none => exact stops
        | some version => exact works version
      refine ⟨answer, by rw [updated]; exact ha, fun conflict => absurd conflict hno, ?_⟩
      intro _
      rw [alone, next, run_call hr, updated, ha]
      rfl
    · have conflict := Table.updateContent_changed found version content now
      obtain ⟨answer, ha, given_up⟩ := changed row.version current.version
      exact ⟨answer, by rw [conflict]; exact ha, fun _ => by rw [after, conflict], fun h => absurd given_up h⟩

end Turn

/-- **The next statement** of an operation under way is its last, or the fetch before an update. -/
theorem Sound.turns (hc : config.optimisticConcurrency = true) (h : p.Sound config m.table) (hr : m.reachable = true)
    (counted : m.table.Counted) : Turns config m p := by
  cases h with
  | fresh task refused s go request =>
    have guarded := task.request_guarded hc
    rw [request] at guarded
    exact turns_fresh request guarded hr counted
  | fetched task refused id go request row content now back next absent works stops gone changed seen =>
    exact turns_update request next absent works stops gone changed seen _ hr

/-- an update that works replaces the row that was fetched -/
theorem Sound.update (hc : config.optimisticConcurrency = true) {t : Table} (h : p.Sound config t) {id : UInt64}
    {content : String} {expected : Option UInt64} {now version : UInt64}
    (hs : p.statement = .updateContent id content expected now)
    (works : (t.perform (.updateContent id content expected now)).1 = .ok version) :
    ∃ row, p.past = [⟨.fetchById id, .ok (some row)⟩] ∧ expected = some row.version ∧ t.byId id = some row := by
  cases h with
  | fresh task refused s go request =>
    have guarded := task.request_guarded hc
    rw [request] at guarded
    cases guarded with
    | single hb =>
      have begins := hb.1
      rw [show s = .updateContent id content expected now from hs] at begins
      exact False.elim begins
    | edit => cases hs
  | fetched task refused id' go request row content' now' back next absent works' stops gone changed seen =>
    simp only [Statement.updateContent.injEq] at hs
    obtain ⟨rfl, rfl, rfl, rfl⟩ := hs
    refine ⟨row, rfl, rfl, ?_⟩
    obtain ⟨before, hb, hid, later⟩ := seen
    cases found : t.byId id' with
    | none =>
      rw [Table.updateContent_missing found] at works
      cases works
    | some current =>
      by_cases same : current.version = row.version
      · rw [later.same hb hid found same]
      · rw [Table.updateContent_changed found same] at works
        cases works

end Process

namespace World

variable {w : World Memory Unit}

/-! ## One step -/

/-- a world with an operation finished -/
theorem Sound.finish (h : w.Sound config) {after : Memory} {running : List (Process Unit)} {task : Task}
    {answer : Outcome task.Value} (hr : after.reachable = true) (counted : after.table.Counted)
    (hp : ∀ p ∈ running, p.Sound config after.table) (placed : Placed config w.shared after task answer) :
    Sound config ⟨after, running, w.finished ++ [⟨task, answer⟩]⟩ :=
  ⟨hr, counted, hp, serial_placed h.serial placed⟩

theorem start_sound (hc : config.optimisticConcurrency = true) (h : w.Sound config) (task : Task) :
    (w.step Memory.backend config (.start task)).Sound config := by
  have guarded := task.request_guarded hc
  cases request : task.request config with
  | done answer =>
    simp only [step, request]
    exact h.finish h.reachable h.counted h.running ⟨fun _ => rfl, fun _ => by rw [request]; rfl⟩
  | connect refused session =>
    have opens : Memory.backend.connect w.shared = .ok () := by
      simp [Memory.backend, Memory.connect, h.reachable]
    rw [request] at guarded
    cases session with
    | done answer => cases guarded with | single hs => exact absurd hs id
    | call s go =>
      simp only [step, request, opens, settle]
      refine ⟨h.reachable, h.counted, ?_, h.serial⟩
      intro p hp
      rcases List.mem_append.1 hp with hp | hp
      · exact h.running p hp
      · rw [List.mem_singleton.1 hp]
        exact .fresh task refused s go request

theorem step_advance (h : w.shared.reachable = true) {i : Nat} {p : Process Unit} (hp : w.running[i]? = some p) :
    w.step Memory.backend config (.advance i) =
      settle ⟨after w.shared p.statement, w.running.eraseIdx i, w.finished⟩
        p.task () (p.past ++ [⟨p.statement, (w.shared.table.perform p.statement).1⟩])
        (p.go (w.shared.table.perform p.statement).1) := by
  simp only [step, hp, perform_backend h]

theorem advance_sound (hc : config.optimisticConcurrency = true) (h : w.Sound config) (i : Nat) :
    (w.step Memory.backend config (.advance i)).Sound config := by
  cases hp : w.running[i]? with
  | none =>
    simp only [step, hp]
    exact h
  | some p =>
    rw [step_advance h.reachable hp]
    have sound := h.running p (List.mem_of_getElem? hp)
    have change := w.shared.table.perform_change p.statement
    have others : ∀ q ∈ w.running.eraseIdx i, q.Sound config (after w.shared p.statement).table := fun q hq =>
      (h.running q (List.mem_of_mem_eraseIdx hq)).later change.later
    rcases sound.turns hc h.reachable h.counted with ⟨answer, ha, placed⟩ | ⟨s, go, ha, same, next⟩
    · rw [ha]
      exact h.finish h.reachable (h.counted.change change) others placed
    · rw [ha, same]
      rw [same] at others
      refine ⟨h.reachable, h.counted, ?_, h.serial⟩
      intro q hq
      rcases List.mem_append.1 hq with hq | hq
      · exact others q hq
      · rw [List.mem_singleton.1 hq]
        exact next

/-- **Every step** of any client keeps what holds of the world. -/
theorem step_sound (hc : config.optimisticConcurrency = true) (h : w.Sound config) (action : Action) :
    (w.step Memory.backend config action).Sound config := by
  cases action with
  | start task => exact start_sound hc h task
  | advance i => exact advance_sound hc h i

theorem sound_initial : (initial Memory.empty).Sound config :=
  ⟨rfl, Table.counted_empty, by simp [initial], rfl⟩

theorem run_sound (hc : config.optimisticConcurrency = true) (h : w.Sound config) (actions : List Action) :
    (w.run Memory.backend config actions).Sound config := by
  induction actions generalizing w with
  | nil => exact h
  | cons action rest ih => exact ih (step_sound hc h action)

/-! ## Whole runs -/

/-- **No update is lost.** However the statements of any operations come one after the other, at every moment the rows and all
answers are those of a serial run of the finished operations, in the order of their last statements, without those that gave up;
and an update that is about to work replaces the very row that was fetched for it. -/
theorem run_serializable (hc : config.optimisticConcurrency = true) (actions : List Action) :
    let w := (initial Memory.empty).run Memory.backend config actions
    serially Memory.backend config ((kept w.finished).map Entry.task) .empty = (kept w.finished, w.shared) ∧
      ∀ p ∈ w.running, ∀ id content expected now version, p.statement = .updateContent id content expected now →
        (w.shared.perform (.updateContent id content expected now)).1 = .ok version →
          ∃ row, p.past = [⟨.fetchById id, .ok (some row)⟩] ∧ expected = some row.version ∧
            w.shared.table.byId id = some row := by
  intro w
  have sound : w.Sound config := run_sound hc sound_initial actions
  refine ⟨sound.serial, ?_⟩
  intro p hp id content expected now version update works
  have works' : (w.shared.table.perform (.updateContent id content expected now)).1 = .ok version := by
    simpa only [Memory.perform, sound.reachable, if_true] using works
  exact (sound.running p hp).update hc update works'

/-- two clients at one document, each of which has fetched it before the other writes -/
def twoEditors : List Action :=
  let root : Target := .locator ⟨false, [⟨.child, "a", []⟩]⟩
  [.start (.create "t" "" "<a>x</a>" 1), .advance 0, .start (.editText 1 root "y" 2), .start (.editName 1 root "b" 3), .advance 0,
    .advance 0, .advance 0, .advance 0]

theorem run_serializable_twoEditors :
    let w := (initial Memory.empty).run Memory.backend .default twoEditors
    w.finished.map Entry.conflicted = [false, false, true] ∧ w.shared.table.rows = [⟨1, "t", "", "<a>y</a>", 2, 1, 2⟩] ∧
      serially Memory.backend .default ((kept w.finished).map Entry.task) .empty = (kept w.finished, w.shared) :=
  ⟨by decide +kernel, by decide +kernel, (run_serializable rfl twoEditors).1⟩

end World

end XmlStore.Service
