/-
Operations that fail leave everything as it was, and those that work change what they say.

Whatever the store and however it has come to be what it is, an operation with nobody else acting leaves the store with all that it is
kept in just as it was, unless its answer tells an effect; and then the rows and the counter are changed by that effect alone. So the
version of a row counts the writes to it.

Main statements:
- `Stock.Reached.sound`: what holds of every store that operations have led to.
- `Stock.respond_framed`: one operation; `Stock.Reached.runs_framed`: any number of them, with the versions of rows.
-/
import XmlStore.Proofs.Service.Effects

namespace XmlStore

/-- the version of the row of an id, or else the one that it will begin with -/
def Stored.versionOf (stored : Stored) (id : UInt64) : Nat :=
  (stored.rows.find? (·.id = id)).elim 1 fun row => row.version.toNat

namespace Service

open Table

/-! ## Runs -/

/-- an operation that was carried out: the answer to it, and the store before and after it -/
structure Response where
  call : Call
  answer : Outcome call.Value
  before : Stock
  after : Stock

namespace Response

def effect? (r : Response) : Option Effect := r.call.effect? r.answer

def rewrites (id : UInt64) (r : Response) : Bool := r.effect?.any (Effect.rewrites id)

/-- whether an operation has left its store, whatever that is kept in, just as it was, or has changed the rows and the counter as its
answer tells -/
def Framed (r : Response) : Prop :=
  match r.effect? with
  | none => r.after = r.before
  | some effect => ∃ old new, r.before.stored? = some old ∧ r.after.stored? = some new ∧ effect.Holds old new

end Response

namespace Stock

/-- carries out an operation with nobody else acting -/
def respond (s : Stock) (config : Config) (call : Call) : Response :=
  let (answer, after) := s.run (call.request config)
  ⟨call, answer, s, after⟩

def runs : List (Config × Call) → Stock → List Response × Stock
  | [], s => ([], s)
  | (config, call) :: rest, s =>
    let response := s.respond config call
    let (responses, last) := runs rest response.after
    (response :: responses, last)

/-- a store that operations and statements have led to, from an empty one or a file that is not there, with others acting between
them: statements may be made one by one, on a file by those who have read it earlier -/
inductive Reached : Stock → Prop where
  | memory : Reached (.memory .empty)
  | file (store : FileStore) (d : Directory) (absent : d.isThere store.name = false) : Reached (.file store d)
  | call {s : Stock} (h : Reached s) (config : Config) (call : Call) : Reached (s.respond config call).after
  | away {m : Memory} (h : Reached (.memory m)) (reachable : Bool) : Reached (.memory { m with reachable })
  | statement {m : Memory} (h : Reached (.memory m)) (s : Statement) : Reached (.memory { m with table := (m.table.perform s).2 })
  | save {store : FileStore} {d past d' : Directory} {t : Table} (h : Reached (.file store d)) (before : Reached (.file store past))
    (read : store.load past = .ok t) (s : Statement) (saved : store.save d (t.perform s).2 = .ok d') : Reached (.file store d')

/-! ## One operation -/

/-- what holds of a store that operations have led to -/
def Sound (s : Stock) : Prop := ∃ t, s.table? = some t ∧ t.Consistent

/-- **One operation** leaves its store just as it was, or does what its answer tells. -/
theorem respond_framed {s : Stock} (h : s.Sound) (config : Config) (call : Call) :
    (s.respond config call).Framed ∧ (s.respond config call).after.Sound := by
  obtain ⟨t, ht, hc⟩ := h
  rcases s.run_atomic (call.request_atomic config) call.effect?_error ht hc with
    ⟨idle, same⟩ | ⟨value, t', e, ht', ⟨effect, told, holds⟩, hc'⟩
  · have none : (s.respond config call).effect? = none := idle
    refine ⟨?_, t, ?_, hc⟩
    · rw [Response.Framed, none]
      exact same
    · rw [show (s.respond config call).after = s from same]
      exact ht
  · have some : (s.respond config call).effect? = some effect := by
      rw [← told, ← e]
      rfl
    refine ⟨?_, t', ht', hc'⟩
    rw [Response.Framed, some]
    exact ⟨t.stored, t'.stored, stored?_of_table? ht, stored?_of_table? ht', holds⟩

theorem Reached.sound {s : Stock} (h : s.Reached) : s.Sound := by
  induction h with
  | memory => exact ⟨.empty, rfl, consistent_empty⟩
  | file store d absent => exact ⟨.empty, toOption_eq_some.2 (FileStore.load_of_absent absent), consistent_empty⟩
  | call h config call ih => exact (respond_framed ih config call).2
  | away h reachable ih =>
    obtain ⟨t, ht, hc⟩ := ih
    exact ⟨t, ht, hc⟩
  | statement h s ih =>
    obtain ⟨t, ht, hc⟩ := ih
    cases ht
    exact ⟨_, rfl, hc.perform s⟩
  | save h before read s saved ih ihBefore =>
    obtain ⟨t₀, ht, hc⟩ := ihBefore
    have same := (toOption_eq_some.1 ht).symm.trans read
    cases same
    have kept := hc.perform s
    obtain ⟨t', ht', same⟩ := FileStore.load_of_save saved kept
    exact ⟨t', toOption_eq_some.2 ht', same.consistent kept⟩

end Stock

/-! ## Versions -/

/-- how often the row of an id was replaced -/
def writesTo (id : UInt64) (responses : List Response) : Nat := responses.countP (Response.rewrites id)

theorem writesTo_append (id : UInt64) (past : List Response) (r : Response) :
    writesTo id (past ++ [r]) = writesTo id past + (r.rewrites id).toNat := by
  rw [writesTo, writesTo, List.countP_append, List.countP_singleton]
  cases r.rewrites id <;> rfl

theorem Response.rewrites_eq {r : Response} {effect : Effect} (h : r.effect? = some effect) (id : UInt64) :
    r.rewrites id = effect.rewrites id := by
  rw [rewrites, h]
  rfl

/-- what the responses of a run tell of the versions in it: ids that are not yet given have not been written to -/
structure Counted (start : Stored) (past : List Response) (now : Stored) : Prop where
  grown : start.lastId ≤ now.lastId
  ids : ∀ row ∈ now.rows, row.id ≤ now.lastId
  unused : ∀ id, now.lastId < id → writesTo id past = 0
  versions : ∀ row ∈ now.rows, row.version.toNat = start.versionOf row.id + writesTo row.id past

namespace Counted

variable {start now new : Stored} {past : List Response} {r : Response}

theorem initial (h : start.rows.Pairwise fun a b => a.id < b.id) (ids : ∀ row ∈ start.rows, row.id ≤ start.lastId) :
    Counted start [] start := by
  refine ⟨UInt64.le_refl _, ids, fun _ _ => rfl, ?_⟩
  intro row hr
  cases found : start.rows.find? (·.id = row.id) with
  | none => exact absurd (List.find?_eq_none.1 found row hr) (by simp)
  | some other =>
    have key : other.id = row.id := by simpa using List.find?_some found
    have same : other = row := Ascending.eq_of_id h (List.mem_of_find?_eq_some found) hr key
    rw [Stored.versionOf, found, same]
    rfl

/-- an operation that replaces no row, and may take some out -/
theorem kept (h : Counted start past now) (none : ∀ id, r.rewrites id = false) (rows : ∀ row ∈ new.rows, row ∈ now.rows)
    (lastId : new.lastId = now.lastId) : Counted start (past ++ [r]) new := by
  have same : ∀ id, writesTo id (past ++ [r]) = writesTo id past := by
    intro id
    rw [writesTo_append, none]
    rfl
  refine ⟨lastId ▸ h.grown, fun row hr => lastId ▸ h.ids row (rows row hr), ?_, ?_⟩
  · intro id hid
    rw [same]
    exact h.unused id (lastId ▸ hid)
  · intro row hr
    rw [same]
    exact h.versions row (rows row hr)

theorem rewritten (h : Counted start past now) {id time : UInt64} {changed : Row → Row → Prop}
    (hr : Rewritten id changed time now new)
    (one : ∀ id', r.rewrites id' = decide (id = id')) : Counted start (past ++ [r]) new := by
  obtain ⟨⟨row, row', before, after, ha, rows, hid, version, -⟩, lastId⟩ := hr
  have given : id ≤ now.lastId := ha.key ▸ h.ids row (ha.mem.2 (Or.inl rfl))
  refine ⟨lastId ▸ h.grown, ?_, ?_, ?_⟩
  · intro other ho
    rw [lastId]
    rw [rows] at ho
    rcases (ha.replace hid).mem.1 ho with rfl | ho
    · exact hid ▸ given
    · exact h.ids other (ha.mem.2 (Or.inr ho))
  · intro id' hid'
    rw [lastId] at hid'
    have other : id ≠ id' := fun e => UInt64.lt_irrefl _ (UInt64.lt_of_le_of_lt (e ▸ given) hid')
    rw [writesTo_append, one, decide_eq_false other, h.unused id' hid']
    rfl
  · intro other ho
    rw [rows] at ho
    rw [writesTo_append, one]
    rcases (ha.replace hid).mem.1 ho with rfl | ho
    · have before := h.versions row (ha.mem.2 (Or.inl rfl))
      rw [hid, decide_eq_true rfl, version, before, ha.key]
      rfl
    · rw [decide_eq_false (ha.others other ho).symm]
      exact h.versions other (ha.mem.2 (Or.inr ho))

theorem added (h : Counted start past now) (starts : ∀ row ∈ start.rows, row.id ≤ start.lastId) {id : UInt64}
    {title description xml : String} {time : UInt64} (ha : Added id title description xml time now new)
    (none : ∀ id, r.rewrites id = false) :
    Counted start (past ++ [r]) new := by
  obtain ⟨⟨content, -, rows⟩, next, lastId⟩ := ha
  have above : now.lastId < id := by
    rw [UInt64.lt_iff_toNat_lt]
    omega
  have same : ∀ id, writesTo id (past ++ [r]) = writesTo id past := by
    intro id
    rw [writesTo_append, none]
    rfl
  refine ⟨?_, ?_, ?_, ?_⟩
  · rw [lastId]
    exact UInt64.le_trans h.grown (UInt64.le_of_lt above)
  · intro row hr
    rw [lastId]
    rw [rows] at hr
    rcases List.mem_append.1 hr with hr | hr
    · exact UInt64.le_trans (h.ids row hr) (UInt64.le_of_lt above)
    · rw [List.mem_singleton.1 hr]
      exact UInt64.le_refl _
  · intro id' hid
    rw [lastId] at hid
    rw [same]
    exact h.unused id' (UInt64.lt_trans above hid)
  · intro row hr
    rw [rows] at hr
    rw [same]
    rcases List.mem_append.1 hr with hr | hr
    · exact h.versions row hr
    · -- the id is above all that were given, so its row was neither there at the start nor written to
      have absent : start.rows.find? (·.id = id) = Option.none := by
        refine List.find?_eq_none.2 ?_
        intro other ho e
        have below := UInt64.le_trans (starts other ho) h.grown
        rw [of_decide_eq_true e] at below
        exact UInt64.lt_irrefl _ (UInt64.lt_of_le_of_lt below above)
      rw [List.mem_singleton.1 hr, h.unused id above, Stored.versionOf, absent]
      rfl

/-- **The versions** go on counting the writes with every operation. -/
theorem respond (h : Counted start past now) (starts : ∀ row ∈ start.rows, row.id ≤ start.lastId) (framed : r.Framed)
    (hnow : r.before.stored? = some now) : ∃ new, r.after.stored? = some new ∧ Counted start (past ++ [r]) new := by
  unfold Response.Framed at framed
  cases told : r.effect? with
  | none =>
    rw [told] at framed
    rw [framed]
    refine ⟨now, hnow, h.kept ?_ (fun _ hr => hr) rfl⟩
    intro id
    rw [Response.rewrites, told]
    rfl
  | some effect =>
    rw [told] at framed
    obtain ⟨old, new, hold, hnew, holds⟩ := framed
    obtain rfl : now = old := Option.some.inj (hnow.symm.trans hold)
    have rewrites := Response.rewrites_eq told
    refine ⟨new, hnew, ?_⟩
    cases effect with
    | added id title description xml time => exact h.added starts holds rewrites
    | modified id patch time => exact h.rewritten holds rewrites
    | edited id time => exact h.rewritten holds rewrites
    | deleted id =>
      obtain ⟨⟨row, before, after, ha, rows⟩, lastId⟩ := holds
      exact h.kept rewrites (fun other ho => ha.mem.2 (Or.inr (rows ▸ ho))) lastId
    | cleared number =>
      obtain ⟨-, rfl⟩ := holds
      exact h.kept rewrites (by simp) rfl

end Counted

/-! ## Any number of operations -/

namespace Stock

theorem Sound.runs {s : Stock} (h : s.Sound) (steps : List (Config × Call)) {start now : Stored} {past : List Response}
    (hnow : s.stored? = some now) (hc : Counted start past now) (starts : ∀ row ∈ start.rows, row.id ≤ start.lastId) :
    (∀ r ∈ (s.runs steps).1, r.Framed) ∧
      ∃ new, (s.runs steps).2.stored? = some new ∧ Counted start (past ++ (s.runs steps).1) new := by
  induction steps generalizing s now past with
  | nil => exact ⟨by simp [Stock.runs], now, hnow, by simpa [Stock.runs] using hc⟩
  | cons step rest ih =>
    obtain ⟨config, call⟩ := step
    obtain ⟨framed, sound⟩ := respond_framed h config call
    obtain ⟨middle, hm, counted⟩ := hc.respond starts framed hnow
    obtain ⟨others, last⟩ := ih sound hm counted
    refine ⟨?_, ?_⟩
    · intro r hr
      rcases List.mem_cons.1 hr with rfl | hr
      · exact framed
      · exact others r hr
    · rw [List.append_assoc] at last
      exact last

/-- **Operations are atomic and do only what they say.** In whatever state a store is that operations have led to, each of any number
of operations leaves it just as it was, when it fails, answers that there was nothing to do or only reads, and otherwise adds, replaces
or takes out just the rows that its answer tells. So the version of a row is what it was before, or 1 for a row that was added since,
and one more for every operation that has replaced the row. -/
theorem Reached.runs_framed {s : Stock} (h : s.Reached) (steps : List (Config × Call)) :
    (∀ r ∈ (s.runs steps).1, r.Framed) ∧
      ∃ old new, s.stored? = some old ∧ (s.runs steps).2.stored? = some new ∧
        ∀ row ∈ new.rows, row.version.toNat = old.versionOf row.id + writesTo row.id (s.runs steps).1 := by
  obtain ⟨t, ht, hc⟩ := h.sound
  have stored := stored?_of_table? ht
  obtain ⟨framed, new, hnew, counted⟩ := h.sound.runs steps stored (.initial hc.ascending hc.ids) hc.ids
  rw [List.nil_append] at counted
  exact ⟨framed, t.stored, new, stored, hnew, counted.versions⟩

/-- operations of which some work, and others have nothing to do or would take a title twice or the root away -/
def mixedSteps : List (Config × Call) :=
  let root : Target := .locator ⟨false, [⟨.child, "a", []⟩]⟩
  let calls : List Call := [.direct (.create "t" "" "<a>x</a>" 1), .direct (.create "t" "" "<b/>" 2), .direct (.editText 1 root "y" 3),
    .direct (.deleteNode 1 root 4), .execute 1 (.addAttribute "/a" "k" "v") 5, .direct (.removeAttribute 1 root "n" 6),
    .direct (.modify 1 ⟨some "u", none, none⟩ 7)]
  calls.map fun call => (.default, call)

theorem Reached.runs_framed_mixedSteps :
    let (responses, last) := (Stock.memory .empty).runs mixedSteps
    responses.map Response.effect? = [some (.added 1 "t" "" "<a>x</a>" 1), none, some (.edited 1 3), none, some (.edited 1 5), none,
        some (.modified 1 ⟨some "u", none, none⟩ 7)] ∧
      last.stored? = some ⟨[⟨1, "u", "", "<a k=\"v\">y</a>", 4, 1, 7⟩], 1⟩ ∧ (Stock.memory .empty).Reached ∧
      (∀ r ∈ responses, r.Framed) ∧
      ∃ old new, (Stock.memory .empty).stored? = some old ∧ last.stored? = some new ∧
        ∀ row ∈ new.rows, row.version.toNat = old.versionOf row.id + writesTo row.id responses :=
  ⟨by decide +kernel, by decide +kernel, .memory, Reached.memory.runs_framed mixedSteps⟩

end Stock

end Service

end XmlStore
