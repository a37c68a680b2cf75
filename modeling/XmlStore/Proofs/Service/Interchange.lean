/-
A store in a file does what a store in memory does.

Every operation on a file reads it anew, and writes it anew if it changes anything. A new store in the same file, opened at any time,
goes on with what was written last. So nobody can tell from the answers, or from the rows and the counter after any step, whether the
store is kept in a file or in memory, as long as the file can be read and written. Where the clock shows other times, other times are
stored and answered, and nothing else changes.

Main statements:
- `Stock.Alike.respond`: one operation on both.
- `Stock.runs_untimed`: operations in memory at other times.
- `Stock.turns_shown`: any number of operations on both.
-/
import XmlStore.Proofs.Service.Framing
import XmlStore.Proofs.Service.Times

namespace XmlStore.Service

variable {α : Type}

/-! ## One operation on both -/

/-- an operation does the same to a file and to memory that hold the same table -/
theorem run_interchanged {idle : Outcome α → Prop} {written : Stored → Stored → α → Prop} {request : Request (Outcome α)}
    (h : request.Atomic idle written) (hi : ∀ failure, idle (.error failure)) {store : FileStore} {d : Directory}
    (writable : store.Writable d) {t : Table} (loaded : store.load d = .ok t) {m : Memory} (same : t.Same m.table)
    (hc : t.Consistent) (hr : m.reachable = true) :
    ∃ answer d' t' table, request.run store.backend d = (answer, d') ∧
      request.run Memory.backend m = (answer, { m with table }) ∧ store.Writable d' ∧ store.load d' = .ok t' ∧ t'.Same table := by
  cases request with
  | done answer => exact ⟨answer, d, t, m.table, rfl, rfl, writable, loaded, same⟩
  | connect refused session =>
    obtain ⟨answers, tables⟩ := Session.run_same same session
    rw [run_connect_file loaded, run_connect hr, Session.run_memory hr, ← answers]
    rcases h.2.run_file hi store d hc with ⟨-, e, kept⟩ | ⟨value, answer, -, hc', ⟨d', saved, e⟩ | ⟨error, _, unsaved, -⟩⟩
    · rw [kept] at tables
      exact ⟨_, d, t, _, e, rfl, writable, loaded, tables⟩
    · obtain ⟨t', ht', read⟩ := FileStore.load_of_save saved hc'
      exact ⟨_, d', t', _, answer ▸ e, rfl, FileStore.writable_of_save saved, ht', read.trans tables⟩
    · obtain ⟨d', saved⟩ := writable.save (session.run Table.backend t ()).2
      rw [unsaved] at saved
      cases saved

namespace Stock

/-- a file that can be written and a memory that answers, which hold the same table -/
structure Alike (store : FileStore) (d : Directory) (m : Memory) : Prop where
  reachable : m.reachable = true
  writable : store.Writable d
  loaded : ∃ t, store.load d = .ok t ∧ t.Same m.table
  sound : (Stock.memory m).Sound

theorem Alike.stored {store : FileStore} {d : Directory} {m : Memory} (h : Alike store d m) :
    (Stock.file store d).stored? = (Stock.memory m).stored? := by
  obtain ⟨t, ht, same⟩ := h.loaded
  rw [stored?, stored?, table?, table?, ht]
  exact congrArg some same.stored

/-- **One operation** is answered alike and leaves both alike. -/
theorem Alike.respond {store : FileStore} {d : Directory} {m : Memory} (h : Alike store d m) (config : Config) (call : Call) :
    ∃ answer d' m', (Stock.file store d).respond config call = ⟨call, answer, .file store d, .file store d'⟩ ∧
      (Stock.memory m).respond config call = ⟨call, answer, .memory m, .memory m'⟩ ∧ Alike store d' m' := by
  obtain ⟨t, ht, same⟩ := h.loaded
  have sound := (respond_framed h.sound config call).2
  obtain ⟨held, e, hc⟩ := h.sound
  obtain rfl : m.table = held := Option.some.inj e
  obtain ⟨answer, d', t', table, onFile, inMemory, writable, ht', same'⟩ :=
    run_interchanged (call.request_atomic config) call.effect?_error h.writable ht same (same.consistent hc)
      h.reachable
  have file : (Stock.file store d).respond config call = ⟨call, answer, .file store d, .file store d'⟩ := by
    simp only [Stock.respond, run, onFile]
  have memory : (Stock.memory m).respond config call = ⟨call, answer, .memory m, .memory { m with table }⟩ := by
    simp only [Stock.respond, run, inMemory]
  rw [memory] at sound
  exact ⟨answer, d', _, file, memory, h.reachable, writable, ⟨t', ht', same'⟩, sound⟩

end Stock

/-! ## Any number of operations -/

/-- what is seen of an operation: the answer, and the rows and the counter after it -/
structure Shown where
  call : Call
  answer : Outcome call.Value
  stored : Option Stored

/-- what is seen of an operation that was carried out -/
def Response.shown (r : Response) : Shown := ⟨r.call, r.answer, r.after.stored?⟩

/-- what is seen of an operation, without times -/
def Shown.untimed (shown : Shown) : Shown :=
  ⟨shown.call.untimed, shown.call.forget shown.answer, shown.stored.map Stored.untimed⟩

/-- what happens next at a store in a file -/
inductive Turn where
  /-- another service goes on, with a new store in the same file -/
  | renew
  | step (config : Config) (call : Call)
  deriving DecidableEq, Repr

/-- the operation of a turn, if it is one -/
def Turn.step? : Turn → Option (Config × Call)
  | .renew => none
  | .step config call => some (config, call)

def Turn.untimed : Turn → Turn
  | .renew => .renew
  | .step config call => .step config call.untimed

/-- turns that are the same without times have the same operations without times -/
theorem Turn.step?_untimed (turn : Turn) : turn.untimed.step? = turn.step?.map (Prod.map id Call.untimed) := by
  cases turn <;> rfl

namespace Stock

/-- a new store in the same file; what is in memory stays there -/
def renewed : Stock → Stock
  | .memory m => .memory m
  | .file store d => .file ⟨store.name⟩ d

/-- the responses to operations one after the other, with new stores opened between them -/
def turns : List Turn → Stock → List Response
  | [], _ => []
  | .renew :: rest, s => turns rest s.renewed
  | .step config call :: rest, s => s.respond config call :: turns rest (s.respond config call).after

theorem Alike.turns {store : FileStore} {d : Directory} {m : Memory} (h : Alike store d m) (turns : List Turn) :
    ((Stock.file store d).turns turns).map Response.shown =
      ((Stock.memory m).runs (turns.filterMap Turn.step?)).1.map Response.shown := by
  induction turns generalizing d m with
  | nil => rfl
  | cons turn rest ih =>
    cases turn with
    | renew => exact ih h
    | step config call =>
      have steps : (Turn.step config call :: rest).filterMap Turn.step? = (config, call) :: rest.filterMap Turn.step? := rfl
      rw [steps, Stock.turns, Stock.runs]
      obtain ⟨answer, d', m', file, memory, alike⟩ := h.respond config call
      rw [file, memory, List.map_cons, List.map_cons, Response.shown, Response.shown, alike.stored]
      exact congrArg _ (ih alike)

theorem respond_untimed (m : Memory) (config : Config) (call : Call) :
    ∃ m', ((memory m).respond config call).after = .memory m' ∧
      ((memory m.untimed).respond config call.untimed).after = .memory m'.untimed ∧
      ((memory m.untimed).respond config call.untimed).shown = ((memory m).respond config call).shown.untimed := by
  have e := (call.request_untimed config).run m
  refine ⟨((call.request config).run Memory.backend m).2, rfl, ?_, ?_⟩
  · exact congrArg (fun answered => Stock.memory answered.2) e
  · exact congrArg (fun answered => (⟨call.untimed, answered.1, (memory answered.2).stored?⟩ : Shown)) e

/-- operations on rows without times, which write none, show what they would show with times but for those -/
theorem runs_untimed (m : Memory) (steps : List (Config × Call)) :
    ((memory m.untimed).runs (steps.map (Prod.map id Call.untimed))).1.map Response.shown =
      (((memory m).runs steps).1.map Response.shown).map Shown.untimed := by
  induction steps generalizing m with
  | nil => rfl
  | cons step rest ih =>
    obtain ⟨config, call⟩ := step
    obtain ⟨m', after, untimed, shown⟩ := respond_untimed m config call
    rw [List.map_cons, Prod.map_apply, runs, runs, List.map_cons, List.map_cons, List.map_cons]
    refine List.cons_eq_cons.2 ⟨shown, ?_⟩
    exact untimed ▸ after ▸ ih m'

/-- **A file and memory are interchangeable.** Operations on a store whose file is not there yet, with a new store opened in that file
wherever one likes, have the answers and leave the rows and the counter that they have and leave on a store in memory, as long as the
file can be written. When the operations in memory are made at other times, the answers and the rows differ in their times alone. -/
theorem turns_shown {store : FileStore} {d : Directory} (absent : d.isThere store.name = false) (writable : store.Writable d)
    (turns : List Turn) :
    let onFile := ((Stock.file store d).turns turns).map Response.shown
    let inMemory := fun turns : List Turn => ((Stock.memory .empty).runs (turns.filterMap Turn.step?)).1.map Response.shown
    onFile = inMemory turns ∧
      ∀ others : List Turn, others.map Turn.untimed = turns.map Turn.untimed →
        onFile.map Shown.untimed = (inMemory others).map Shown.untimed := by
  intro onFile inMemory
  have start : Alike store d .empty :=
    ⟨rfl, writable, ⟨.empty, FileStore.load_of_absent absent, .refl _⟩, Reached.memory.sound⟩
  have same : onFile = inMemory turns := start.turns turns
  refine ⟨same, ?_⟩
  intro others untimed
  have without (turns : List Turn) : (inMemory turns).map Shown.untimed =
      ((Stock.memory .empty).runs ((turns.map Turn.untimed).filterMap Turn.step?)).1.map Response.shown := by
    have steps : (turns.map Turn.untimed).filterMap Turn.step? = (turns.filterMap Turn.step?).map (Prod.map id Call.untimed) := by
      rw [List.map_filterMap, List.filterMap_map]
      exact congrArg (List.filterMap · turns) (funext fun turn => turn.step?_untimed)
    rw [steps]
    exact (runs_untimed .empty (turns.filterMap Turn.step?)).symm
  calc onFile.map Shown.untimed
    _ = (inMemory turns).map Shown.untimed := by rw [same]
    _ = ((Stock.memory .empty).runs ((turns.map Turn.untimed).filterMap Turn.step?)).1.map Response.shown := without turns
    _ = ((Stock.memory .empty).runs ((others.map Turn.untimed).filterMap Turn.step?)).1.map Response.shown := by rw [untimed]
    _ = (inMemory others).map Shown.untimed := (without others).symm

/-- documents that come and go, with another service in between, from a time on -/
def renewedTurns (now : UInt64) : List Turn :=
  let config := Config.default
  [.step config (.direct (.create "t\n\"" "" "<a>x</a>" now)), .step config (.direct (.create "u" "" "<b/>" (now + 1))), .renew,
    .step config (.direct (.delete 2)), .step config (.direct (.modify 1 ⟨some "u", none, none⟩ (now + 2))), .renew,
    .step config (.direct (.create "u" "" "<c/>" (now + 3))), .step config (.direct (.create "t\n\"" "é" "<c/>" (now + 4))),
    .step config (.direct (.get 1))]

theorem turns_shown_renewedTurns :
    let store : FileStore := ⟨"store.json"⟩
    let d := Directory.empty "/home"
    let onFile := ((Stock.file store d).turns (renewedTurns 1)).map Response.shown
    let inMemory := ((Stock.memory .empty).runs ((renewedTurns 9).filterMap Turn.step?)).1.map Response.shown
    d.isThere store.name = false ∧ store.Writable d ∧ (renewedTurns 9).map Turn.untimed = (renewedTurns 1).map Turn.untimed ∧
      onFile.map Shown.stored =
        [some ⟨[⟨1, "t\n\"", "", "<a>x</a>", 1, 1, 1⟩], 1⟩,
          some ⟨[⟨1, "t\n\"", "", "<a>x</a>", 1, 1, 1⟩, ⟨2, "u", "", "<b/>", 1, 2, 2⟩], 2⟩,
          some ⟨[⟨1, "t\n\"", "", "<a>x</a>", 1, 1, 1⟩], 2⟩, some ⟨[⟨1, "u", "", "<a>x</a>", 2, 1, 3⟩], 2⟩,
          some ⟨[⟨1, "u", "", "<a>x</a>", 2, 1, 3⟩], 2⟩,
          some ⟨[⟨1, "u", "", "<a>x</a>", 2, 1, 3⟩, ⟨3, "t\n\"", "é", "<c/>", 1, 5, 5⟩], 3⟩,
          some ⟨[⟨1, "u", "", "<a>x</a>", 2, 1, 3⟩, ⟨3, "t\n\"", "é", "<c/>", 1, 5, 5⟩], 3⟩] ∧
      onFile ≠ inMemory ∧ onFile.map Shown.untimed = inMemory.map Shown.untimed := by
  have absent : (Directory.empty "/home").isThere "store.json" = false := by decide +kernel
  have saved : (FileStore.save ⟨"store.json"⟩ (Directory.empty "/home") .empty).toOption.isSome = true := by decide +kernel
  have writable : FileStore.Writable ⟨"store.json"⟩ (Directory.empty "/home") := by
    obtain ⟨d', e⟩ := Option.isSome_iff_exists.1 saved
    exact ⟨d', toOption_eq_some.1 e⟩
  have untimed : (renewedTurns 9).map Turn.untimed = (renewedTurns 1).map Turn.untimed := by decide +kernel
  obtain ⟨same, others⟩ := turns_shown absent writable (renewedTurns 1)
  have rows : (((Stock.memory .empty).runs ((renewedTurns 1).filterMap Turn.step?)).1.map Response.shown).map Shown.stored ≠
      (((Stock.memory .empty).runs ((renewedTurns 9).filterMap Turn.step?)).1.map Response.shown).map Shown.stored := by
    decide +kernel
  refine ⟨absent, writable, untimed, ?_, ?_, others (renewedTurns 9) untimed⟩
  · rw [same]
    decide +kernel
  · rw [same]
    exact fun e => rows (congrArg (List.map Shown.stored) e)

end Stock

end XmlStore.Service
