/-
What each operation does to a store, told by its answer.

The answer to an operation tells its effect: none if it failed, read or found nothing to do; otherwise a row that was added, replaced
by its next version or taken out, or all of them gone. What an effect says of the rows and the counter is said once for each kind
(`Effect.Holds`); the operations that edit nodes share one.

Main statement:
- `Call.request_atomic`: every operation has the effect that its answer tells, and none before it succeeds.
-/
import XmlStore.Proofs.Service.Alone
import XmlStore.Proofs.Service.Interleaving
import XmlStore.Service.Operation

namespace XmlStore.Service

open Xml Table

/-! ## Effects -/

/-- what an operation has done -/
inductive Effect where
  | added (id : UInt64) (title description xml : String) (now : UInt64)
  /-- fields of a row were replaced -/
  | modified (id : UInt64) (patch : Patch) (now : UInt64)
  /-- nodes in the content of a row were edited -/
  | edited (id : UInt64) (now : UInt64)
  | deleted (id : UInt64)
  | cleared (number : Nat)
  deriving DecidableEq, Repr

/-- a row of the first version comes after all others, under the next id -/
structure Added (id : UInt64) (title description xml : String) (now : UInt64) (old new : Stored) : Prop where
  rows : ∃ content, normalize xml = .ok content ∧ new.rows = old.rows ++ [⟨id, title, description, content, 1, now, now⟩]
  next : id.toNat = old.lastId.toNat + 1
  lastId : new.lastId = id

/-- one row is replaced by the next version of it, changed as told, and everything else is as before -/
structure Rewritten (id : UInt64) (changed : Row → Row → Prop) (now : UInt64) (old new : Stored) : Prop where
  rows : ∃ row row' before after, Around old.rows id row before after ∧ new.rows = before ++ row' :: after ∧ row'.id = id ∧
    row'.version.toNat = row.version.toNat + 1 ∧ row'.createdAt = row.createdAt ∧ row'.modifiedAt = now ∧ changed row row'
  lastId : new.lastId = old.lastId

/-- a row is taken out, and everything else is as before -/
structure Dropped (id : UInt64) (old new : Stored) : Prop where
  rows : ∃ row before after, Around old.rows id row before after ∧ new.rows = before ++ after
  lastId : new.lastId = old.lastId

/-- the fields of a patch are replaced, with new content in its compact form, and no others -/
structure Patched (patch : Patch) (row row' : Row) : Prop where
  title : row'.title = patch.title.getD row.title
  description : row'.description = patch.description.getD row.description
  content : match patch.content with
    | none => row'.content = row.content
    | some xml => normalize xml = .ok row'.content

/-- at most the content is replaced -/
structure Recontented (row row' : Row) : Prop where
  title : row'.title = row.title
  description : row'.description = row.description

namespace Effect

/-- what an effect makes of the rows and the counter -/
def Holds : Effect → Stored → Stored → Prop
  | .added id title description xml now, old, new => Added id title description xml now old new
  | .modified id patch now, old, new => Rewritten id (Patched patch) now old new
  | .edited id now, old, new => Rewritten id Recontented now old new
  | .deleted id, old, new => Dropped id old new
  | .cleared number, old, new => number = old.rows.length ∧ new = ⟨[], old.lastId⟩

/-- whether an effect is that the row of an id was replaced -/
def rewrites (id : UInt64) : Effect → Bool
  | .modified id' .. => id' = id
  | .edited id' _ => id' = id
  | _ => false

end Effect

namespace Task

/-- what an operation that was answered so has done, if anything -/
def effect? : (task : Task) → Outcome task.Value → Option Effect
  | .create title description xml now, .ok id => some (.added id title description xml now)
  | .modify id patch now, .ok _ => if patch.isEmpty then none else some (.modified id patch now)
  | .delete id, .ok true => some (.deleted id)
  | .deleteAll, .ok number => some (.cleared number)
  | .addNode id _ _ now, .ok true => some (.edited id now)
  | .editText id _ _ now, .ok true => some (.edited id now)
  | .editName id _ _ now, .ok true => some (.edited id now)
  | .addAttribute id _ _ _ now, .ok true => some (.edited id now)
  | .removeAttribute id _ _ now, .ok true => some (.edited id now)
  | .deleteNode id _ now, .ok true => some (.edited id now)
  | _, _ => none

theorem effect?_error (task : Task) (failure : Failure) : task.effect? (.error failure) = none := by
  cases task <;> rfl

end Task

/-! ## Calls -/

/-- an operation as it is called on a service; what it writes it writes at the time `now` -/
inductive Call where
  | direct (task : Task)
  /-- an operation on nodes that is given as a value -/
  | execute (id : UInt64) (operation : NodeOperation) (now : UInt64)
  /-- creates a document from a file, given by the outcome of reading that -/
  | createFrom (title description : String) (file : Except String String) (now : UInt64)
  deriving DecidableEq, Repr

namespace Call

abbrev Value : Call → Type
  | .direct task => task.Value
  | .execute .. => Output
  | .createFrom .. => UInt64

def request (config : Config) : (call : Call) → Request (Outcome call.Value)
  | .direct task => task.request config
  | .execute id operation now => Service.execute config id operation now
  | .createFrom title description file now => Service.createFrom title description file now

/-- what a call that was answered so has done, if anything -/
def effect? : (call : Call) → Outcome call.Value → Option Effect
  | .direct task, answer => task.effect? answer
  | .execute id operation now, .ok (.bool true) => if operation.isMutation then some (.edited id now) else none
  | .createFrom title description (.ok xml) now, .ok id => some (.added id title description xml now)
  | _, _ => none

theorem effect?_error (call : Call) (failure : Failure) : call.effect? (.error failure) = none := by
  cases call with
  | direct task => exact task.effect?_error failure
  | execute id operation now => rfl
  | createFrom title description file now => cases file <;> rfl

theorem effect?_execute_of_reads {operation : NodeOperation} (h : operation.isMutation = false) (id now : UInt64)
    (answer : Outcome Output) : effect? (.execute id operation now) answer = none := by
  cases answer with
  | error failure => rfl
  | ok output =>
    cases output with
    | bool found =>
      cases found with
      | true => exact if_neg (by simp [h])
      | false => rfl
    | _ => rfl

end Call

/-! ## Operations that read -/

theorem reads_load (id : UInt64) : (load id).Reads :=
  (reading_loadRow id).map _

theorem reads_nodeExists (id : UInt64) (target : Target) : (nodeExists id target).Reads :=
  (reads_load id).map _

theorem reads_readLookup {α : Type} (id : UInt64) (target : Target) (read : List (Element Nat) → Lookup α) :
    (readLookup id target read).Reads :=
  (reads_load id).map _

theorem reads_readValue {α : Type} (id : UInt64) (target : Target) (read : Document → List (Element Nat) → Outcome α) :
    (readValue id target read).Reads :=
  (reads_load id).map _

theorem reads_getByTitle (title : String) : (getByTitle title).Reads := by
  refine (reading_ask rfl).whenOk ?_
  intro row
  cases row with
  | none => exact .done _
  | some row => exact .done _

theorem reads_list : list.Reads :=
  (reading_ask rfl).whenOk fun _ => .done _

/-- an operation on nodes that is no mutation only reads -/
theorem reads_execute {operation : NodeOperation} (h : operation.isMutation = false) (config : Config) (id now : UInt64) :
    (execute config id operation now).Reads := by
  cases operation with
  | exist locator => exact (reads_nodeExists id _).map _
  | getXml locator => exact (reads_readLookup id _ _).map _
  | getText locator => exact (reads_readLookup id _ _).map _
  | getAllXml locator => exact (reads_readLookup id _ _).map _
  | getAllText locator => exact (reads_readLookup id _ _).map _
  | getAttributes locator => exact (reads_readValue id _ _).map _
  | getStructured locator fields => exact (reads_readValue id _ _).map _
  | getAttribute locator name => exact (reads_readValue id _ _).map _
  | getWithAttribute locator name value => exact (reads_readLookup id _ _).map _
  | addNode parent xml => cases h
  | editText locator text => cases h
  | rename locator name => cases h
  | addAttribute locator name value => cases h
  | removeAttribute locator name => cases h
  | delete locator => cases h

/-! ## Operations that write -/

/-- whether an operation has the effect that its answer tells -/
abbrev EffectAtomic {α : Type} (effect? : Outcome α → Option Effect) (request : Request (Outcome α)) : Prop :=
  request.Atomic (fun answer => effect? answer = none)
    fun old new value => ∃ effect, effect? (.ok value) = some effect ∧ effect.Holds old new

/-- the next version of a row, in its place -/
theorem rewritten {t : Table} {id now : UInt64} {old : Row} {before after : List Row} (ha : Around t.rows id old before after)
    (room : old.version.toNat + 1 < UInt64.size) (row : Row) (hid : row.id = old.id) (hv : row.version = old.version)
    (made : row.createdAt = old.createdAt) {changed : Row → Row → Prop} (hc : changed old (row.renewed now))
    (titles : List (String × UInt64)) :
    Rewritten id changed now t.stored (Table.stored ⟨before ++ row.renewed now :: after, titles, t.lastId⟩) := by
  have next : (row.renewed now).version.toNat = old.version.toNat + 1 := by
    rw [Row.renewed, hv]
    exact toNat_of_nextWord? (nextWord?_eq_some.2 ⟨room, rfl⟩)
  exact ⟨⟨old, row.renewed now, before, after, ha, rfl, hid.trans ha.key, next, made, rfl, hc⟩, rfl⟩

theorem create_atomic {effect? : Outcome UInt64 → Option Effect} {title description xml : String} {now : UInt64}
    (fails : ∀ failure, effect? (.error failure) = none)
    (works : ∀ id, effect? (.ok id) = some (.added id title description xml now)) :
    EffectAtomic effect? (create title description xml now) := by
  unfold create
  split
  · exact fails _
  · rename_i content normal
    refine ⟨fun _ => fails _, .write (fun _ => ⟨_, rfl⟩) (fun _ hs => by cases hs) ?_⟩
    intro t id hc hp _
    obtain ⟨next, e, -⟩ := hc.insert_ok hp
    refine ⟨_, rfl, _, works _, ?_⟩
    rw [e]
    exact ⟨⟨content, normal, rfl⟩, toNat_of_nextWord? next, rfl⟩

/-- the patch that a patch with its content brought into compact form stands for -/
theorem patched_of_normalize {patch : Patch} {content : Option String} (h : patch.content.mapM normalize = .ok content)
    (row : Row) (now : UInt64) : Patched patch row ((({ patch with content } : Patch).apply row).renewed now) := by
  refine ⟨rfl, rfl, ?_⟩
  cases given : patch.content with
  | none =>
    rw [given] at h
    cases h
    rfl
  | some xml =>
    rw [given, Option.mapM_some] at h
    obtain ⟨compact, normal, rfl⟩ := map_eq_ok.1 h
    exact normal

/-- a patch is empty just when it is with its content brought into compact form -/
theorem isEmpty_of_normalize {patch : Patch} {content : Option String} (h : patch.content.mapM normalize = .ok content) :
    ({ patch with content } : Patch).isEmpty = patch.isEmpty := by
  have same : content.isNone = patch.content.isNone := by
    cases given : patch.content with
    | none =>
      rw [given] at h
      cases h
      rfl
    | some xml =>
      rw [given, Option.mapM_some] at h
      obtain ⟨compact, -, rfl⟩ := map_eq_ok.1 h
      rfl
  rw [Patch.isEmpty, Patch.isEmpty, same]

theorem modify_atomic (id : UInt64) (patch : Patch) (now : UInt64) :
    EffectAtomic (Task.effect? (.modify id patch now)) (modify id patch now) := by
  have fails : ∀ failure, Task.effect? (.modify id patch now) (.error failure) = none := fun _ => rfl
  unfold modify
  split
  · exact fails _
  · rename_i content normal
    refine ⟨fun _ => fails _, ?_⟩
    split
    · rename_i isEmpty
      rw [isEmpty_of_normalize normal] at isEmpty
      refine Session.Reading.whenOk_atomic (reading_fetchRow id) fails ?_
      intro row
      exact .done (if_pos isEmpty)
    · rename_i notEmpty
      rw [isEmpty_of_normalize normal] at notEmpty
      refine .write (fun _ => ⟨_, rfl⟩) (fun _ hs => by cases hs) ?_
      intro t version hc hp _
      obtain ⟨old, before, after, ha, room, -, -, e⟩ := hc.updateFields_ok hp
      refine ⟨(), rfl, .modified id patch now, if_neg notEmpty, ?_⟩
      rw [e]
      exact rewritten ha room (Patch.apply { patch with content } old) rfl rfl rfl (patched_of_normalize normal old now) _

theorem delete_atomic (id : UInt64) : EffectAtomic (Task.effect? (.delete id)) (deleteDocument id) := by
  refine ⟨fun _ => rfl, .write (fun _ => ⟨_, rfl⟩) ?_ ?_⟩
  · intro result hs
    exact ⟨false, by rw [show result = false from hs]; rfl, rfl⟩
  · intro t result hc hp hs
    obtain rfl : result = true := hs
    obtain ⟨old, before, after, ha, e⟩ := hc.delete_ok hp
    refine ⟨true, rfl, _, rfl, ?_⟩
    rw [e]
    exact ⟨⟨old, before, after, ha, rfl⟩, rfl⟩

theorem deleteAll_atomic : EffectAtomic (Task.effect? .deleteAll) deleteAll := by
  refine ⟨fun _ => rfl, .write (fun _ => ⟨_, rfl⟩) (fun _ hs => by cases hs) ?_⟩
  intro t number hc hp _
  cases hp
  refine ⟨t.rows.length, rfl, .cleared t.rows.length, rfl, ?_⟩
  exact And.intro rfl rfl

/-- an edit of nodes replaces the content of one row at most -/
theorem mutate_atomic {effect? : Outcome Bool → Option Effect} {id now : UInt64} (fails : ∀ failure, effect? (.error failure) = none)
    (idles : effect? (.ok false) = none) (works : effect? (.ok true) = some (.edited id now)) (config : Config) (target : Target)
    (edit : Edit) : EffectAtomic effect? (mutate config id target edit now) := by
  refine ⟨fun _ => fails _, (reading_loadRow id).whenOk_atomic fails ?_⟩
  rintro ⟨row, d⟩
  dsimp only
  split
  · exact .done (fails _)
  · exact .done idles
  · rename_i content _
    refine .write (fun _ => ⟨_, rfl⟩) (fun _ hs => by cases hs) ?_
    intro t version hc hp _
    obtain ⟨old, before, after, ha, room, -, e⟩ := hc.updateContent_ok hp
    refine ⟨true, rfl, _, works, ?_⟩
    rw [e]
    exact rewritten ha room { old with content } rfl rfl rfl ⟨rfl, rfl⟩ t.titles

theorem addNode_atomic {effect? : Outcome Bool → Option Effect} {id now : UInt64}
    (fails : ∀ failure, effect? (.error failure) = none) (idles : effect? (.ok false) = none)
    (works : effect? (.ok true) = some (.edited id now)) (config : Config) (parent : Target) (xml : String) :
    EffectAtomic effect? (addNode config id parent xml now) := by
  unfold addNode
  split
  · exact fails _
  · exact mutate_atomic fails idles works config parent _

/-- an operation whose answer is passed on in another form -/
theorem EffectAtomic.answering {α : Type} {output : α → Output} {effect? : Outcome Output → Option Effect}
    {request : Request (Outcome α)} (h : EffectAtomic (fun answer => effect? (answer.map output)) request) :
    EffectAtomic effect? (answering output request) :=
  h.map (fun _ idle => idle) fun _ _ _ written => written

/-! ## All operations -/

theorem Task.request_atomic (config : Config) (task : Task) : EffectAtomic task.effect? (task.request config) := by
  have fails := task.effect?_error
  cases task with
  | create title description xml now => exact create_atomic fails fun _ => rfl
  | modify id patch now => exact modify_atomic id patch now
  | delete id => exact delete_atomic id
  | deleteAll => exact deleteAll_atomic
  | get id => exact Request.Reads.atomic (reading_fetchRow id) fun _ => rfl
  | getByTitle title => exact (reads_getByTitle title).atomic fun _ => rfl
  | list => exact reads_list.atomic fun _ => rfl
  | count => exact Request.Reads.atomic (reading_ask rfl) fun _ => rfl
  | pretty id => exact ((reads_load id).map _).atomic fun _ => rfl
  | nodeExists id target => exact ((reads_nodeExists id target).map _).atomic fun _ => rfl
  | getNodeXml id target => exact (reads_readLookup id target _).atomic fun _ => rfl
  | getNodeText id target => exact (reads_readLookup id target _).atomic fun _ => rfl
  | getAllXml id target => exact (reads_readLookup id target _).atomic fun _ => rfl
  | getAllTexts id target => exact (reads_readLookup id target _).atomic fun _ => rfl
  | getNodesCarrying id target name value => exact (reads_readLookup id target _).atomic fun _ => rfl
  | getAttributes id target => exact (reads_readValue id target _).atomic fun _ => rfl
  | getAttribute id target name => exact (reads_readValue id target _).atomic fun _ => rfl
  | getRecords id target fields => exact (reads_readValue id target _).atomic fun _ => rfl
  | addNode id parent xml now => exact addNode_atomic fails rfl rfl config parent xml
  | editText id target text now => exact mutate_atomic fails rfl rfl config target _
  | editName id target name now => exact mutate_atomic fails rfl rfl config target _
  | addAttribute id target name value now => exact mutate_atomic fails rfl rfl config target _
  | removeAttribute id target name now => exact mutate_atomic fails rfl rfl config target _
  | deleteNode id target now => exact mutate_atomic fails rfl rfl config target _

theorem execute_atomic (config : Config) (id : UInt64) (operation : NodeOperation) (now : UInt64) :
    EffectAtomic (Call.effect? (.execute id operation now)) (execute config id operation now) := by
  have fails := Call.effect?_error (.execute id operation now)
  cases operation with
  | addNode parent xml => exact (addNode_atomic fails rfl rfl config _ xml).answering
  | editText locator text => exact (mutate_atomic fails rfl rfl config _ _).answering
  | rename locator name => exact (mutate_atomic fails rfl rfl config _ _).answering
  | addAttribute locator name value => exact (mutate_atomic fails rfl rfl config _ _).answering
  | removeAttribute locator name => exact (mutate_atomic fails rfl rfl config _ _).answering
  | delete locator => exact (mutate_atomic fails rfl rfl config _ _).answering
  | _ => exact (reads_execute rfl config id now).atomic (Call.effect?_execute_of_reads rfl id now)

/-- **Every operation** has the effect that its answer tells: it changes nothing before it succeeds, and then that. -/
theorem Call.request_atomic (config : Config) (call : Call) : EffectAtomic call.effect? (call.request config) := by
  cases call with
  | direct task => exact task.request_atomic config
  | execute id operation now => exact execute_atomic config id operation now
  | createFrom title description file now =>
    cases file with
    | error reason => rfl
    | ok xml => exact create_atomic (fun _ => rfl) fun _ => rfl

end XmlStore.Service
