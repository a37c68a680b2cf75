/-
What is left when an edit has worked.

With nobody else acting, an edit that has worked has found a document in which its target picks out something. What is found afterwards is
the tree that the edit makes of it, written and read again, whatever kind of store it is in. Such a store can be written once more, so the
next edit that has something to write works too, as long as there is a next version.

Main statements:
- `Stock.Offers.run_readLookup`, `Stock.Offers.run_readValue`: readings of a stored document.
- `Stock.Offers.run_writes`: what an edit with something to write comes to on a store that can be written.
- `Stock.Offers.edited`: what an edit that has worked leaves.
-/
import XmlStore.Proofs.Service.Deletion
import XmlStore.Proofs.Service.Readings

namespace XmlStore.Service

open Xml

/-! ## Whether there is something to write -/

namespace Mutation

variable {mutation : Mutation} {text : String} {d : Document} {edit : Edit} {target : Target}

end Mutation

namespace Stock

variable {α : Type} {s : Stock} {held t : Table} {id : UInt64} {row : Row} {d : Document}

/-! ## Stores that can be written -/

/-- a store that can be written, which one in memory always can -/
def Writable : Stock → Prop
  | .memory _ => True
  | .file store d => store.Writable d

/-- a store that an update has worked on can be written again -/
theorem writable_of_update {content : String} {expected : Option UInt64} {now version : UInt64}
    (ok : (Stock.backend.perform (.updateContent id content expected now) s held).1 = .ok version) :
    (Stock.backend.perform (.updateContent id content expected now) s held).2.1.Writable := by
  cases s with
  | memory m => exact trivial
  | file store d =>
    have performed : (store.perform (.updateContent id content expected now) d held).1 = .ok version := ok
    cases reply : (held.perform (.updateContent id content expected now)).1 with
    | error error =>
      rw [store.perform_of_error d reply] at performed
      cases performed
    | ok result =>
      cases saved : store.save d (held.perform (.updateContent id content expected now)).2 with
      | error error =>
        rw [store.perform_of_unsaved d reply rfl saved] at performed
        cases performed
      | ok d' =>
        have left := congrArg (·.2.1) (store.perform_of_saved d reply rfl saved)
        show store.Writable (store.perform (.updateContent id content expected now) d held).2.1
        rw [left]
        exact FileStore.writable_of_save saved

/-! ## On a stored document -/

variable {config : Config} {target : Target} {edit : Edit} {now : UInt64}

namespace Offers

variable (offers : s.Offers id row d)

include offers

theorem run_readLookup (target : Target) (read : List (Element Nat) → Lookup α) :
    s.run (readLookup id target read) = (.ok (read (target.select d)), s) := by
  rw [readLookup, run_map, offers.run_load]

theorem run_readValue (target : Target) (read : Document → List (Element Nat) → Outcome α) :
    s.run (readValue id target read) = (read d (target.select d), s) := by
  rw [readValue, run_map, offers.run_load]
  rfl

theorem run_nodeExists (target : Target) : s.run (nodeExists id target) = (!(target.select d).isEmpty, s) := by
  rw [nodeExists, run_map, offers.run_load]

/-- an edit that has worked had something to write -/
theorem exists_content (ok : (s.run (mutate config id target edit now)).1 = .ok true) :
    ∃ content, edit.content target d = .ok (some content) := by
  cases made : edit.content target d with
  | error failure =>
    rw [offers.run_refused made] at ok
    cases ok
  | ok content =>
    cases content with
    | none =>
      rw [offers.run_idle made] at ok
      cases ok
    | some content => exact ⟨content, rfl⟩

/-- and it leaves a store that can be written -/
theorem writable (ok : (s.run (mutate config id target edit now)).1 = .ok true) :
    (s.run (mutate config id target edit now)).2.Writable := by
  obtain ⟨content, made⟩ := offers.exists_content ok
  obtain ⟨held, t, -, -, -, run⟩ := offers.run_session _
  rw [mutate, Session.whenOk, run] at ok ⊢
  simp only [made] at ok ⊢
  rw [Occasion.run_last] at ok ⊢
  obtain ⟨version, written, -⟩ := map_eq_ok.1 ok
  exact writable_of_update (mapError_eq_ok.1 written)

variable {mutation : Mutation} {first : Element Nat} {rest : List (Element Nat)}

/-- **What an edit that has worked leaves** is the tree that it makes of the document that was there, written and read again. -/
theorem edited (hits : target.select d = first :: rest) (shows : mutation.Shows) (he : mutation.edit = .ok edit)
    (ok : (s.run (mutate config id target edit now)).1 = .ok true) :
    let tree := edit.tree d first.mark (rest.map Element.mark)
    let after := (s.run (mutate config id target edit now)).2
    tree.marks.Nodup ∧ after.Writable ∧ ∃ row', after.Offers id row' (.ofForest tree.erase.joinTexts) := by
  obtain ⟨content, made⟩ := offers.exists_content ok
  obtain ⟨first', rest', hits', -, once, read⟩ := Mutation.parse_of_content offers.document shows he made
  obtain ⟨rfl, rfl⟩ := List.cons.inj (hits.symm.trans hits')
  exact ⟨once, offers.writable ok, _, offers.run_written made read ok⟩

end Offers

/-- an edit that has worked was carried out on a document in which its target picks out something -/
theorem exists_hit (ok : (s.run (mutate config id target edit now)).1 = .ok true) :
    ∃ row d first rest, s.Offers id row d ∧ target.select d = first :: rest := by
  obtain ⟨row, d, offers⟩ := offers_of_mutate ok
  obtain ⟨content, made⟩ := offers.exists_content ok
  obtain ⟨first, rest, _, _, hits, -⟩ := Edit.content_eq_some made
  exact ⟨row, d, first, rest, offers, hits⟩

end Stock

end XmlStore.Service
