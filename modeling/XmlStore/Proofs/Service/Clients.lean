/-
What any number of clients keep up together.

Clients carry out operations at one store of either kind, a statement at a time and in any order; the store may go away and come back,
and a file may fail to be written. If each operation, as long as it is shown only what may be stored, brings in only what may be stored
and ends in an answer that it may have (`Session.Upholds`), then in whatever order they go on nothing else is ever stored, and none of
them has another answer.

Main statements:
- `Stock.Holds.perform_holds`: what one statement on a connection keeps.
- `Scene.step_sound`, `Scene.run_sound`: what one step of a client keeps, and any number of them.
-/
import XmlStore.Proofs.Service.Connections
import XmlStore.Proofs.Service.Effects
import XmlStore.Proofs.Store.Contents

namespace XmlStore.Service

variable {α β : Type} {allowed : UInt64 → String → Prop}

/-! ## Operations -/

namespace Session

/-- a session that brings in only content that is allowed, and then has an answer with `Q`, as long as it is shown nothing else -/
inductive Upholds (allowed : UInt64 → String → Prop) (Q : α → Prop) : Session α → Prop where
  | done {answer : α} (h : Q answer) : Upholds allowed Q (.done answer)
  | call {s : Statement} {go : s.Reply → Session α} (brings : s.Brings allowed)
    (next : ∀ reply, s.Shows allowed reply → Upholds allowed Q (go reply)) : Upholds allowed Q (.call s go)

variable {P : α → Prop} {Q : β → Prop} {session : Session α}

theorem Upholds.andThen {next : α → Session β} (h : session.Upholds allowed P)
    (hn : ∀ answer, P answer → (next answer).Upholds allowed Q) : (session.andThen next).Upholds allowed Q := by
  induction h with
  | done h => exact hn _ h
  | call brings _ ih => exact .call brings ih

theorem Upholds.mono {Q : α → Prop} (h : session.Upholds allowed P) (hq : ∀ answer, P answer → Q answer) :
    session.Upholds allowed Q := by
  induction h with
  | done h => exact .done (hq _ h)
  | call brings _ ih => exact .call brings ih

theorem Upholds.map {change : α → β} (h : session.Upholds allowed P) (hc : ∀ answer, P answer → Q (change answer)) :
    (session.map change).Upholds allowed Q :=
  h.andThen fun answer ha => .done (hc answer ha)

theorem Upholds.whenOk {P : Outcome α → Prop} {Q : Outcome β → Prop} {session : Session (Outcome α)}
    {next : α → Session (Outcome β)} (h : session.Upholds allowed P) (fails : ∀ failure, P (.error failure) → Q (.error failure))
    (works : ∀ value, P (.ok value) → (next value).Upholds allowed Q) : (session.whenOk next).Upholds allowed Q := by
  apply h.andThen
  intro answer ha
  cases answer with
  | error failure => exact .done (fails failure ha)
  | ok value => exact works value ha

end Session

/-- an operation that ends at once, or opens a connection for such a session -/
def Request.Upholds (allowed : UInt64 → String → Prop) (Q : α → Prop) : Request α → Prop
  | .done answer => Q answer
  | .connect refused session => (∀ error, Q (refused error)) ∧ session.Upholds allowed Q

theorem Request.Upholds.map {P : α → Prop} {Q : β → Prop} {request : Request α} {change : α → β}
    (h : request.Upholds allowed P) (hc : ∀ answer, P answer → Q (change answer)) : (request.map change).Upholds allowed Q := by
  cases request with
  | done answer => exact hc answer h
  | connect refused session => exact ⟨fun error => hc _ (h.1 error), h.2.map hc⟩

/-- a single statement that brings in nothing but what is allowed -/
theorem upholds_ask {s : Statement} {Q : Outcome s.Result → Prop} (brings : s.Brings allowed)
    (h : ∀ reply, s.Shows allowed reply → Q (reply.mapError Failure.ofStore)) : (ask s).Upholds allowed Q :=
  .call brings fun reply shown => .done (h reply shown)

/-! ## Stores -/

namespace Stock

variable {stock : Stock} {held : Table}

/-- a store that can be read and holds nothing but what is allowed -/
def Holds (allowed : UInt64 → String → Prop) (stock : Stock) : Prop :=
  ∃ t, stock.table? = some t ∧ t.Holds allowed

theorem Holds.acting (h : stock.Holds allowed) (hh : held.Holds allowed) : (stock.acting held).Holds allowed := by
  cases stock with
  | memory m =>
    obtain ⟨t, ht, holds⟩ := h
    cases ht
    exact holds
  | file store d => exact hh

theorem Holds.connect (h : stock.Holds allowed) (opened : stock.connect = .ok held) : held.Holds allowed := by
  obtain ⟨t, ht, holds⟩ := h
  cases stock with
  | memory m =>
    obtain ⟨_, -, rfl⟩ := map_eq_ok.1 opened
    exact Table.holds_empty
  | file store d =>
    have same := (toOption_eq_some.1 ht).symm.trans opened
    cases same
    exact holds

/-- what a connection holds after a statement is what it works on, or nothing of its own -/
theorem held_perform (stock : Stock) (refusal : Option StoreError) (s : Statement) (held : Table) :
    (stock.perform refusal s held).2.2 = held ∨
      (stock.perform refusal s held).2.2 = (stock.perform refusal s held).2.1.acting (stock.perform refusal s held).2.2 := by
  cases stock with
  | memory m => exact Or.inl rfl
  | file store d => cases refusal <;> exact Or.inr rfl

/-- **A statement on a connection** that brings in nothing but what is allowed keeps the store so, and shows nothing else. -/
theorem Holds.perform_holds (h : stock.Holds allowed) (hh : held.Holds allowed) (refusal : Option StoreError) {s : Statement}
    (brings : s.Brings allowed) :
    s.Shows allowed (stock.perform refusal s held).1 ∧ (stock.perform refusal s held).2.1.Holds allowed ∧
      (stock.perform refusal s held).2.2.Holds allowed := by
  obtain ⟨performed, shown⟩ := (h.acting hh).perform brings
  have does := stock.perform_does refusal s held
  have last := stock.held_perform refusal s held
  have after : s.Shows allowed (stock.perform refusal s held).1 ∧ (stock.perform refusal s held).2.1.Holds allowed ∧
      ((stock.perform refusal s held).2.1.acting (stock.perform refusal s held).2.2).Holds allowed := by
    cases does with
    | failed error fails same table =>
      refine ⟨?_, ?_, ?_⟩
      · rw [fails]
        exact s.shows_error error
      · rw [same]
        exact h
      · rcases table with e | e
        · rw [e]
          exact h.acting hh
        · rw [e]
          exact performed
    | read result answers works idle same table =>
      refine ⟨?_, ?_, ?_⟩
      · rw [answers, ← works]
        exact shown
      · rw [same]
        exact h
      · rw [table]
        exact h.acting hh
    | written result answers works table stored =>
      obtain ⟨t', ht', kept⟩ := stored
      rw [table] at kept ⊢
      refine ⟨?_, ⟨t', ht', fun row hr => performed row (kept.mem hr)⟩, performed⟩
      rw [answers, ← works]
      exact shown
  refine ⟨after.1, after.2.1, ?_⟩
  rcases last with e | e
  · rw [e]
    exact hh
  · rw [e]
    exact after.2.2

theorem Holds.setReachable (h : stock.Holds allowed) (reachable : Bool) : (stock.setReachable reachable).Holds allowed := by
  rw [Holds, table?_setReachable]
  exact h

end Stock

/-! ## Clients -/

/-- an operation under way, with the table that its connection holds -/
structure Dialogue where
  call : Call
  held : Table
  /-- the statement to be made next -/
  statement : Statement
  go : statement.Reply → Session (Outcome call.Value)

/-- an operation that has its answer -/
structure Report where
  call : Call
  answer : Outcome call.Value

/-- clients at a store -/
structure Scene where
  stock : Stock
  running : List Dialogue
  reports : List Report

/-- what happens next -/
inductive Happening where
  /-- somebody begins an operation, with a service that is configured in some way -/
  | begin (config : Config) (call : Call)
  /-- an operation under way makes its next statement; `refusal` is the reason if a file cannot be written at present -/
  | advance (i : Nat) (refusal : Option StoreError)
  | setReachable (reachable : Bool)
  deriving DecidableEq, Repr

namespace Scene

def initial (stock : Stock) : Scene := ⟨stock, [], []⟩

/-- an operation after its last statement, which goes on or has its answer -/
def settle (scene : Scene) (call : Call) (held : Table) : Session (Outcome call.Value) → Scene
  | .done answer => { scene with reports := scene.reports ++ [⟨call, answer⟩] }
  | .call statement go => { scene with running := scene.running ++ [⟨call, held, statement, go⟩] }

/-- what comes of it; nothing for an operation that is not under way -/
def step (scene : Scene) : Happening → Scene
  | .begin config call =>
    match call.request config with
    | .done answer => { scene with reports := scene.reports ++ [⟨call, answer⟩] }
    | .connect refused session =>
      match scene.stock.connect with
      | .error error => { scene with reports := scene.reports ++ [⟨call, refused error⟩] }
      | .ok held => scene.settle call held session
  | .advance i refusal =>
    match scene.running[i]? with
    | none => scene
    | some p =>
      let (reply, stock, held) := scene.stock.perform refusal p.statement p.held
      { scene with stock, running := scene.running.eraseIdx i }.settle p.call held (p.go reply)
  | .setReachable reachable => { scene with stock := scene.stock.setReachable reachable }

def run (scene : Scene) (happenings : List Happening) : Scene :=
  happenings.foldl step scene

end Scene

/-! ## What is kept -/

/-- which answers each operation may have -/
abbrev Expected := (call : Call) → Outcome call.Value → Prop

/-- an operation under way that goes on bringing in nothing but what is allowed, and has an answer that it may have -/
structure Dialogue.Sound (allowed : UInt64 → String → Prop) (expected : Expected) (p : Dialogue) : Prop where
  held : p.held.Holds allowed
  brings : p.statement.Brings allowed
  next : ∀ reply, p.statement.Shows allowed reply → (p.go reply).Upholds allowed (expected p.call)

namespace Scene

/-- nothing but what is allowed is stored or will be, and every answer is one that was to be expected -/
structure Sound (allowed : UInt64 → String → Prop) (expected : Expected) (scene : Scene) : Prop where
  stored : scene.stock.Holds allowed
  running : ∀ p ∈ scene.running, p.Sound allowed expected
  reports : ∀ report ∈ scene.reports, expected report.call report.answer

variable {expected : Expected} {scene : Scene}

theorem Sound.report (h : scene.Sound allowed expected) {call : Call} {answer : Outcome call.Value}
    (ha : expected call answer) : Sound allowed expected { scene with reports := scene.reports ++ [⟨call, answer⟩] } where
  stored := h.stored
  running := h.running
  reports := by
    intro report hr
    rcases List.mem_append.1 hr with hr | hr
    · exact h.reports report hr
    · rw [List.mem_singleton.1 hr]
      exact ha

theorem Sound.settle (h : scene.Sound allowed expected) {call : Call} {held : Table} (hh : held.Holds allowed)
    {session : Session (Outcome call.Value)} (hs : session.Upholds allowed (expected call)) :
    (scene.settle call held session).Sound allowed expected := by
  cases hs with
  | done ha => exact h.report ha
  | call brings next =>
    refine ⟨h.stored, ?_, h.reports⟩
    intro p hp
    rcases List.mem_append.1 hp with hp | hp
    · exact h.running p hp
    · rw [List.mem_singleton.1 hp]
      exact ⟨hh, brings, next⟩

/-- **One step of a client** keeps what is stored, and what is to be answered. -/
theorem step_sound (h : scene.Sound allowed expected) (happening : Happening)
    (begins : ∀ config call, happening = .begin config call → (call.request config).Upholds allowed (expected call)) :
    (scene.step happening).Sound allowed expected := by
  cases happening with
  | begin config call =>
    have upholds := begins config call rfl
    rw [step]
    cases hr : call.request config with
    | done answer =>
      rw [hr] at upholds
      exact h.report upholds
    | connect refused session =>
      rw [hr] at upholds
      cases opened : scene.stock.connect with
      | error error => exact h.report (upholds.1 error)
      | ok held => exact h.settle (h.stored.connect opened) upholds.2
  | advance i refusal =>
    rw [step]
    cases at' : scene.running[i]? with
    | none => exact h
    | some p =>
      have hp := h.running p (List.mem_of_getElem? at')
      obtain ⟨shown, stored, held⟩ := h.stored.perform_holds hp.held refusal hp.brings
      have others : Sound allowed expected
          { scene with
            stock := (scene.stock.perform refusal p.statement p.held).2.1
            running := scene.running.eraseIdx i } := by
        refine ⟨stored, ?_, h.reports⟩
        intro q hq
        exact h.running q (List.mem_of_mem_eraseIdx hq)
      exact others.settle held (hp.next _ shown)
  | setReachable reachable => exact ⟨h.stored.setReachable reachable, h.running, h.reports⟩

/-- **Any number of clients** that each bring in nothing but what is allowed, as long as they are shown nothing else, keep everything
that is stored so, in whatever order they go on. -/
theorem run_sound (h : scene.Sound allowed expected) (happenings : List Happening)
    (begins : ∀ config call, .begin config call ∈ happenings → (call.request config).Upholds allowed (expected call)) :
    (scene.run happenings).Sound allowed expected := by
  induction happenings generalizing scene with
  | nil => exact h
  | cons happening rest ih =>
    have first : (scene.step happening).Sound allowed expected := by
      apply step_sound h
      intro config call e
      exact begins config call (e ▸ List.mem_cons_self)
    apply ih first
    intro config call hc
    exact begins config call (List.mem_cons_of_mem _ hc)

/-- so it is from an empty store on -/
theorem run_initial_sound {stock : Stock} (empty : stock.table? = some .empty) (happenings : List Happening)
    (begins : ∀ config call, .begin config call ∈ happenings → (call.request config).Upholds allowed (expected call)) :
    ((initial stock).run happenings).Sound allowed expected := by
  have start : (initial stock).Sound allowed expected :=
    ⟨⟨.empty, empty, Table.holds_empty⟩, by simp [initial], by simp [initial]⟩
  exact run_sound start happenings begins

end Scene

end XmlStore.Service
