/-
A store in memory, which can go away and come back.

Every statement works on the shared table at once. While the store is away it opens no connection and refuses statements on
those that are open.
-/
import XmlStore.Store.Table

namespace XmlStore

/-- a table, and whether the store answers -/
structure Memory where
  table : Table
  reachable : Bool
  deriving DecidableEq, Repr

namespace Memory

def empty : Memory := ⟨.empty, true⟩

def perform (memory : Memory) (s : Statement) : s.Reply × Memory :=
  if memory.reachable then
    let (reply, table) := memory.table.perform s
    (reply, { memory with table })
  else (.error (.unavailable "memory store went offline"), memory)

/-- opens a connection, which holds nothing of its own -/
def connect (memory : Memory) : Except StoreError Unit :=
  if memory.reachable then .ok () else .error (.unavailable "memory store is offline")

/-- replaces the content of a row as another writer would, whether or not the store answers -/
def overwrite (memory : Memory) (id : UInt64) (content : String) (now : UInt64) : Except StoreError UInt64 × Memory :=
  let (reply, table) := memory.table.updateContent id content none now
  (reply, { memory with table })

def backend : Backend Memory Unit where
  connect := connect
  perform s memory _ := let (reply, memory) := memory.perform s; (reply, memory, ())
  isReachable := Memory.reachable

end Memory

end XmlStore
