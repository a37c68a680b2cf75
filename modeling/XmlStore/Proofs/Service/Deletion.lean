/-
Deleting all that a locator picks out.

Deletion takes out every hit with what is below it, and stores what is left if that can be read again. With nobody else acting it is
complete: the locator picks out nothing from the document that is stored then, so there is no node any more and nothing left to be
deleted. It cannot take out the root, and then takes out nothing. All this is so of a store of either kind, whatever is in it.

Main statements:
- `Stock.run_eq`: a store of either kind is one backend.
- `Stock.Offers.run_refused`, `Stock.Offers.run_idle`, `Stock.Offers.run_written`: what an edit comes to on it, and what it leaves.
- `Stock.deleteNode_complete`: after a deletion that has worked nothing is left to be deleted, and the root stays.
-/
import XmlStore.Proofs.Service.Verdicts
import XmlStore.Proofs.Xml.Pruning

namespace XmlStore

namespace Table

variable {t t' : Table} {id : UInt64} {row : Row}

/-- the row that an update has written is found where the table was put -/
theorem Kept.byId_updateContent {content : String} {expected : Option UInt64} {now version : UInt64}
    (found : t.byId id = some row) (h : (t.perform (.updateContent id content expected now)).1 = .ok version)
    (kept : (t.perform (.updateContent id content expected now)).2.Kept t') :
    t'.byId id = some (({ row with content } : Row).renewed now) := by
  have rowId := id_of_byId found
  have hid : (({ row with content } : Row).renewed now).id = id := rowId
  have rows : (t.perform (.updateContent id content expected now)).2.rows =
      changeRow id (fun _ => ({ row with content } : Row).renewed now) t.rows := by
    rw [perform] at h ⊢
    rcases t.updateContent_cases id content expected now with ⟨error, e⟩ | ⟨old, there, -, e⟩ <;> rw [e] at h ⊢
    · cases h
    · obtain rfl : row = old := Option.some.inj (found.symm.trans there)
      rfl
  rcases kept with rfl | rfl
  · exact byId_changeRow found hid rows
  · rw [rows, ← hid]
    refine byId_ofRows_of_mem ?_ ?_
    · rw [hid]
      exact List.mem_map.2 ⟨row, mem_of_byId found, if_pos rowId⟩
    · intro other ho same
      obtain ⟨old, -, rfl⟩ := List.mem_map.1 ho
      split
      · rfl
      · rename_i away
        rw [if_neg away] at same
        exact absurd same away

end Table

namespace Service

open Xml

variable {α : Type}

namespace Stock

/-! ## One backend -/

/-- a store of either kind, with nobody else acting and every file written that can be -/
def backend : Backend Stock Table where
  connect := Stock.connect
  perform s stock held := stock.perform none s held
  isReachable
    | .memory m => m.reachable
    | .file store d => store.isReachable d

theorem run_session_memory (session : Session α) (m : Memory) (held : Table) :
    session.run Stock.backend (.memory m) held =
      ((session.run Memory.backend m ()).1, .memory (session.run Memory.backend m ()).2) := by
  induction session generalizing m with
  | done answer => rfl
  | call s go ih => exact ih _ _

theorem run_session_file (session : Session α) (store : FileStore) (d : Directory) (held : Table) :
    session.run Stock.backend (.file store d) held =
      ((session.run store.backend d held).1, .file store (session.run store.backend d held).2) := by
  induction session generalizing d held with
  | done answer => rfl
  | call s go ih => exact ih _ _ _

/-- **A store of either kind** runs operations as one backend does. -/
theorem run_eq (request : Request α) (s : Stock) : s.run request = request.run Stock.backend s := by
  cases request with
  | done answer => cases s <;> rfl
  | connect refused session =>
    cases s with
    | memory m =>
      simp only [run, Request.run, Memory.backend, Stock.backend, Stock.connect]
      cases m.connect with
      | error error => rfl
      | ok held => exact (run_session_memory session m .empty).symm
    | file store d =>
      simp only [run, Request.run, FileStore.backend, Stock.backend, Stock.connect]
      cases store.load d with
      | error error => rfl
      | ok held => exact (run_session_file session store d held).symm

/-! ## On an open connection -/

variable {s : Stock} {t held : Table} {id : UInt64}

/-- a store that can be connected to has a table -/
theorem exists_table (h : s.connect = .ok held) : ∃ t, s.table? = some t := by
  cases s with
  | memory m => exact ⟨m.table, rfl⟩
  | file store d => exact ⟨held, toOption_eq_some.2 h⟩

theorem run_connecting (h : s.connect = .ok held) (session : Session (Outcome α)) :
    s.run (connecting session) = session.run Stock.backend s held := by
  have opens : Stock.backend.connect s = .ok held := h
  rw [run_eq, connecting, Request.run, opens]

theorem connect_of_ok {session : Session (Outcome α)} {answer : α} (ok : (s.run (connecting session)).1 = .ok answer) :
    ∃ held, s.connect = .ok held := by
  cases h : s.connect with
  | ok held => exact ⟨held, rfl⟩
  | error error =>
    have refused : Stock.backend.connect s = .error error := h
    rw [run_eq, connecting, Request.run, refused] at ok
    cases ok

theorem run_map {β : Type} (s : Stock) (request : Request α) (change : α → β) :
    s.run (request.map change) = (change (s.run request).1, (s.run request).2) := by
  rw [run_eq, run_eq, Occasion.run_map_request]

theorem perform_fetch (h : s.connect = .ok held) (ht : s.table? = some t) (id : UInt64) :
    Stock.backend.perform (.fetchById id) s held = (.ok (t.byId id), s, held) := by
  cases s with
  | memory m =>
    obtain ⟨table, reachable⟩ := m
    cases ht
    cases reachable with
    | true => rfl
    | false => cases h
  | file store d =>
    have same := (toOption_eq_some.1 ht).symm.trans h
    cases same
    exact congrArg (fun r => (r.1, Stock.file store r.2.1, r.2.2)) (store.perform_of_kept d (s := .fetchById id) rfl rfl)

/-- an update that has worked left a store that can be connected to, with the new row under the id -/
theorem updated_row (h : s.connect = .ok held) (ht : s.table? = some t) {row : Row} (found : t.byId id = some row)
    {content : String} {expected : Option UInt64} {now version : UInt64}
    (ok : (Stock.backend.perform (.updateContent id content expected now) s held).1 = .ok version) :
    let s' := (Stock.backend.perform (.updateContent id content expected now) s held).2.1
    ∃ held' t', s'.connect = .ok held' ∧ s'.table? = some t' ∧
      t'.byId id = some (({ row with content } : Row).renewed now) := by
  intro s'
  have does := s.perform_does none (.updateContent id content expected now) held
  rw [acting_of_connect ht h] at does
  cases does with
  | failed error fails => exact absurd (fails.symm.trans ok) (by simp)
  | read result answers works idle => cases idle
  | written result answers works table stored =>
    obtain ⟨t', ht', kept⟩ := stored
    rw [table] at kept
    have connects : ∃ held', s'.connect = .ok held' := by
      cases s with
      | memory m =>
        obtain ⟨table, reachable⟩ := m
        cases reachable with
        | true => exact ⟨held, h⟩
        | false => cases h
      | file store d => exact ⟨t', toOption_eq_some.1 ht'⟩
    obtain ⟨held', connects⟩ := connects
    exact ⟨held', t', connects, ht', Table.Kept.byId_updateContent found works kept⟩

/-! ## On a stored document -/

/-- a store that can be connected to, with a document in the row of an id -/
structure Offers (s : Stock) (id : UInt64) (row : Row) (d : Document) : Prop where
  stored : ∃ held t, s.connect = .ok held ∧ s.table? = some t ∧ t.byId id = some row
  document : Document.parse row.content = .ok d

/-- an operation that loads a document goes on with what the store offers, or it fails -/
theorem offers_of_opened {row : Row} {d : Document} (h : s.connect = .ok held) (ht : s.table? = some t)
    (there : opened id (.ok (t.byId id)) = .ok (row, d)) : s.Offers id row d := by
  obtain ⟨found, read⟩ := opened_eq_ok.1 there
  exact ⟨⟨held, t, h, ht, Except.ok.inj found⟩, read⟩

theorem run_loadRow (h : s.connect = .ok held) (ht : s.table? = some t) (next : Outcome (Row × Document) → Session (Outcome α)) :
    s.run (connecting ((loadRow id).andThen next)) = (next (opened id (.ok (t.byId id)))).run Stock.backend s held := by
  rw [run_connecting h, Occasion.run_loadRow (perform_fetch h ht id)]

theorem offers_of_load {d : Document} (ok : (s.run (load id)).1 = .ok d) : ∃ row, s.Offers id row d := by
  obtain ⟨held, h⟩ := connect_of_ok ok
  obtain ⟨t, ht⟩ := exists_table h
  rw [load, Session.map, run_loadRow h ht] at ok
  obtain ⟨⟨row, _⟩, there, rfl⟩ := map_eq_ok.1 ok
  exact ⟨row, offers_of_opened h ht there⟩

theorem offers_of_mutate {config : Config} {target : Target} {edit : Edit} {now : UInt64} {changed : Bool}
    (ok : (s.run (mutate config id target edit now)).1 = .ok changed) : ∃ row d, s.Offers id row d := by
  obtain ⟨held, h⟩ := connect_of_ok ok
  obtain ⟨t, ht⟩ := exists_table h
  rw [mutate, Session.whenOk, run_loadRow h ht] at ok
  cases there : opened id (.ok (t.byId id)) with
  | ok loaded => exact ⟨loaded.1, loaded.2, offers_of_opened h ht there⟩
  | error failure =>
    rw [there] at ok
    cases ok

namespace Offers

variable {row : Row} {d : Document} (offers : s.Offers id row d)

include offers

/-- what an operation on a stored document does after it has loaded that -/
theorem run_session (next : Outcome (Row × Document) → Session (Outcome α)) :
    ∃ held t, s.connect = .ok held ∧ s.table? = some t ∧ t.byId id = some row ∧
      s.run (connecting ((loadRow id).andThen next)) = (next (.ok (row, d))).run Stock.backend s held := by
  obtain ⟨held, t, h, ht, found⟩ := offers.stored
  have there : opened id (.ok (t.byId id)) = .ok (row, d) := opened_eq_ok.2 ⟨by rw [found], offers.document⟩
  exact ⟨held, t, h, ht, found, by rw [run_loadRow h ht, there]⟩

theorem run_load : s.run (load id) = (.ok d, s) := by
  obtain ⟨held, t, -, -, -, run⟩ := offers.run_session fun outcome => .done (outcome.map Prod.snd)
  exact run

variable {config : Config} {target : Target} {edit : Edit} {now : UInt64}

/-- an edit that is refused leaves the store as it is -/
theorem run_refused {failure : Failure} (made : edit.content target d = .error failure) :
    s.run (mutate config id target edit now) = (.error failure, s) := by
  obtain ⟨held, t, -, -, -, run⟩ := offers.run_session _
  rw [mutate, Session.whenOk, run]
  simp only [made]
  rfl

/-- an edit that has nothing to do leaves the store as it is -/
theorem run_idle (made : edit.content target d = .ok none) : s.run (mutate config id target edit now) = (.ok false, s) := by
  obtain ⟨held, t, -, -, -, run⟩ := offers.run_session _
  rw [mutate, Session.whenOk, run]
  simp only [made]
  rfl

/-- after an edit that has worked the store offers what it has written -/
theorem run_written {content : String} {d' : Document} (made : edit.content target d = .ok (some content))
    (read : Document.parse content = .ok d') (ok : (s.run (mutate config id target edit now)).1 = .ok true) :
    (s.run (mutate config id target edit now)).2.Offers id (({ row with content } : Row).renewed now) d' := by
  obtain ⟨held, t, h, ht, found, run⟩ := offers.run_session _
  rw [mutate, Session.whenOk, run] at ok ⊢
  simp only [made] at ok ⊢
  rw [Occasion.run_last] at ok ⊢
  obtain ⟨version, written, -⟩ := map_eq_ok.1 ok
  obtain ⟨held', t', h', ht', found'⟩ := updated_row h ht found (mapError_eq_ok.1 written)
  exact ⟨⟨held', t', h', ht', found'⟩, read⟩

end Offers

end Stock

/-! ## Deletion -/

def Target.Unplaced : Target → Prop
  | .locator path => path.Unplaced
  | .unreadable _ => True

theorem Target.select_prune {d : Document} (hd : d.Numbered) {target : Target} (h : target.Unplaced) :
    target.select (.ofForest (d.attached.prune fun m => decide (m ∈ (target.select d).map Element.mark)).joinTexts) = [] := by
  cases target with
  | locator path => exact Document.select_prune hd h
  | unreadable error => rfl

variable {text content : String} {d : Document} {target : Target}

/-- from what a deletion has written, its target picks out nothing -/
theorem select_deleted (hd : Document.parse text = .ok d) (h : target.Unplaced)
    (made : Edit.delete.content target d = .ok (some content)) :
    ∃ d', Document.parse content = .ok d' ∧ target.select d' = [] := by
  have refines : Mutation.deleteNode.Refines target text content := Mutation.refines_of_content hd trivial rfl made
  obtain ⟨d₁, first, rest, tree, read, hits, -, pruned, after⟩ := refines
  obtain rfl : d = d₁ := Except.ok.inj (hd.symm.trans read)
  refine ⟨_, after, ?_⟩
  rw [Mutation.Makes, ← hits] at pruned
  rw [pruned]
  exact target.select_prune (Document.Built.parse hd).numbered h

/-- where the target picks out nothing, there is nothing to write -/
theorem Edit.content_of_none (edit : Edit) (none : target.select d = []) : edit.content target d = .ok .none := by
  rw [Edit.content, none]
  rfl

/-- the root is not deleted -/
theorem delete_root (hd : Document.parse text = .ok d) {root : Element Nat} (hroot : d.root? = some root)
    (hit : root ∈ target.select d) : Edit.delete.content target d = .error (.invalidXml .noRootElement) := by
  have edits : Mutation.deleteNode.edit = .ok .delete := rfl
  have between := Mutation.content_eq target hd edits
  have lost : Mutation.deleteNode.losesRoot d (target.select d) = true :=
    (Mutation.losesRoot_iff hroot _).2 ⟨rfl, List.mem_map_of_mem hit⟩
  have busy : Mutation.deleteNode.idleOn (target.select d) = false := by
    obtain ⟨first, rest, hits⟩ := List.exists_cons_of_ne_nil (List.ne_nil_of_mem hit)
    rw [hits]
    rfl
  rw [busy, lost] at between
  exact map_eq_error.1 between

/-- **Deletion is complete when it can be.** With nobody else acting, a deletion that has worked leaves a document from which its
target, if that counts no places, picks out nothing: there is no such node any more, and a second deletion has nothing to do and
writes nothing. And whatever the target, if the root is among the nodes to be deleted, the deletion is refused for that, and the store
is left just as it was. -/
theorem Stock.deleteNode_complete (s : Stock) (config : Config) (id : UInt64) (target : Target) (now : UInt64) :
    (target.Unplaced → (s.run (deleteNode config id target now)).1 = .ok true →
      let after := (s.run (deleteNode config id target now)).2
      (∃ d, after.run (load id) = (.ok d, after) ∧ target.select d = []) ∧
        (after.run (nodeExists id target)).1 = false ∧
        ∀ (again : Config) (later : UInt64), after.run (deleteNode again id target later) = (.ok false, after)) ∧
      ∀ d root, (s.run (load id)).1 = .ok d → d.root? = some root → root ∈ target.select d →
        s.run (deleteNode config id target now) = (.error (.invalidXml .noRootElement), s) := by
  constructor
  · intro unplaced ok after
    obtain ⟨row, d, offers⟩ := offers_of_mutate ok
    obtain ⟨content, made⟩ : ∃ content, Edit.delete.content target d = .ok (some content) := by
      cases made : Edit.delete.content target d with
      | error failure =>
        rw [deleteNode, offers.run_refused made] at ok
        cases ok
      | ok content =>
        cases content with
        | none =>
          rw [deleteNode, offers.run_idle made] at ok
          cases ok
        | some content => exact ⟨content, rfl⟩
    obtain ⟨d', read, none⟩ := select_deleted offers.document unplaced made
    have offers' : after.Offers id (({ row with content } : Row).renewed now) d' := offers.run_written made read ok
    refine ⟨⟨d', offers'.run_load, none⟩, ?_, fun again later => offers'.run_idle (Edit.content_of_none _ none)⟩
    rw [nodeExists, run_map, offers'.run_load]
    simp [none]
  · intro d root loaded hroot hit
    obtain ⟨row, offers⟩ := offers_of_load loaded
    exact offers.run_refused (delete_root offers.document hroot hit)

theorem Stock.deleteNode_complete_nestedHits :
    let nested : Target := .locator ⟨false, [⟨.descendant, "b", []⟩]⟩
    let root : Target := .locator ⟨false, [⟨.child, "a", [.position 1]⟩]⟩
    let after := (nestedStock.run (deleteNode .default 1 nested 5)).2
    nested.Unplaced ∧ (nestedStock.run (deleteNode .default 1 nested 5)).1 = .ok true ∧
      after.stored? = some ⟨[⟨1, "t", "", "<a>xz<c/></a>", 2, 1, 5⟩], 1⟩ ∧
      (after.run (nodeExists 1 nested)).1 = false ∧
      (∀ (again : Config) (later : UInt64), after.run (deleteNode again 1 nested later) = (.ok false, after)) ∧
      nestedStock.run (deleteNode .default 1 root 6) = (.error (.invalidXml .noRootElement), nestedStock) := by
  intro nested root after
  have unplaced : nested.Unplaced := by simp [nested, Target.Unplaced, Locator.Unplaced, Segment.Unplaced]
  have ok : (nestedStock.run (deleteNode .default 1 nested 5)).1 = .ok true := by decide +kernel
  obtain ⟨-, gone, idle⟩ := (nestedStock.deleteNode_complete .default 1 nested 5).1 unplaced ok
  let text : Forest Unit := .element () "b" [] (.leaf () .text "y" (.element () "b" [] .nil .nil))
    (.leaf () .text "z" (.element () "c" [] .nil .nil))
  have loaded : (nestedStock.run (load 1)).1 = .ok (.ofForest (.element () "a" [] (.leaf () .text "x" text) .nil)) := by
    decide +kernel
  have refused := (nestedStock.deleteNode_complete .default 1 root 6).2 _ _ loaded rfl (by decide +kernel)
  exact ⟨unplaced, ok, by decide +kernel, gone, idle, refused⟩

/-- where places are counted, what stood second may come to stand first -/
example :
    let stock := ((Stock.memory .empty).respond .default (.direct (.create "t" "" "<a><b/><b/></a>" 0))).after
    let first : Target := .locator ⟨false, [⟨.descendant, "b", [.position 1]⟩]⟩
    let after := stock.run (deleteNode .default 1 first 1)
    after.1 = .ok true ∧ (after.2.run (nodeExists 1 first)).1 = true := by
  decide +kernel

end Service

end XmlStore
