/-
Statements: what a store can be asked on an open connection, and backends, which answer them.

A backend opens a connection and carries out statements on it. A statement may change both what all who use the store share and what
the connection holds; a connection that is no longer used leaves nothing behind.
-/
import XmlStore.Store.Error
import XmlStore.Store.Row

namespace XmlStore

/-- one request on a connection -/
inductive Statement where
  | fetchById (id : UInt64)
  | fetchByTitle (title : String)
  | fetchAll
  /-- adds a row, whatever its id -/
  | insert (row : Row)
  /-- replaces the content, if the row still has the expected version when one is given -/
  | updateContent (id : UInt64) (content : String) (expected : Option UInt64) (now : UInt64)
  | updateFields (id : UInt64) (patch : Patch) (now : UInt64)
  | delete (id : UInt64)
  | deleteAll
  | count
  deriving DecidableEq, Repr

namespace Statement

/-- what a statement that works is answered with -/
abbrev Result : Statement → Type
  | .fetchById _ => Option Row
  | .fetchByTitle _ => Option Row
  | .fetchAll => List Row
  | .insert _ => UInt64
  | .updateContent .. => UInt64
  | .updateFields .. => UInt64
  | .delete _ => Bool
  | .deleteAll => Nat
  | .count => Nat

/-- the answer to a statement -/
abbrev Reply (s : Statement) : Type := Except StoreError s.Result

inductive Kind where
  | fetchById
  | fetchByTitle
  | fetchAll
  | insert
  | updateContent
  | updateFields
  | delete
  | deleteAll
  | count
  deriving DecidableEq, Repr

def kind : Statement → Kind
  | .fetchById _ => .fetchById
  | .fetchByTitle _ => .fetchByTitle
  | .fetchAll => .fetchAll
  | .insert _ => .insert
  | .updateContent .. => .updateContent
  | .updateFields .. => .updateFields
  | .delete _ => .delete
  | .deleteAll => .deleteAll
  | .count => .count

end Statement

/-- a kind of store, over shared states `σ` and connections `κ` -/
structure Backend (σ κ : Type) where
  connect : σ → Except StoreError κ
  perform : (s : Statement) → σ → κ → s.Reply × σ × κ
  /-- whether the store answers at present -/
  isReachable : σ → Bool

end XmlStore
