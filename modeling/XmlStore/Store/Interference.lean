/-
Interference: what somebody else does to a store in memory while a connection to it is open.

A trap waits for the next statement of one kind and does its action right before that statement, once.
-/
import XmlStore.Store.Memory

namespace XmlStore

/-- something that somebody else does -/
inductive Interference where
  /-- takes the store away -/
  | goOffline
  | overwrite (id : UInt64) (content : String) (now : UInt64)
  /-- deletes a row over a connection of its own -/
  | delete (id : UInt64)
  deriving DecidableEq, Repr

/-- the store after somebody else has acted on it -/
def Interference.act (memory : Memory) : Interference → Memory
  | .goOffline => { memory with reachable := false }
  | .overwrite id content now => (memory.overwrite id content now).2
  | .delete id => (memory.perform (.delete id)).2

/-- a store in memory with at most one trap set -/
structure TrappedMemory where
  memory : Memory
  /-- the kind of statement to wait for, and what happens before it -/
  trap : Option (Statement.Kind × Interference)
  deriving DecidableEq, Repr

namespace TrappedMemory

/-- lets the trap go off if it waits for the statement -/
def spring (m : TrappedMemory) (s : Statement) : TrappedMemory :=
  match m.trap with
  | none => m
  | some (kind, interference) => if kind = s.kind then ⟨interference.act m.memory, none⟩ else m

/-- carries out a statement, after what a trap does before it -/
def perform (m : TrappedMemory) (s : Statement) : s.Reply × TrappedMemory :=
  let m := m.spring s
  let (reply, memory) := m.memory.perform s
  (reply, { m with memory })

def backend : Backend TrappedMemory Unit where
  connect m := m.memory.connect
  perform s m _ := let (reply, m) := m.perform s; (reply, m, ())
  isReachable m := m.memory.reachable

end TrappedMemory

end XmlStore
