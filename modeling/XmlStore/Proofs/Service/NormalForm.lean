/-
Content is in normal form at rest.

What is stored is what would be written again for it, so that a document is left as it was when it is saved with the content that it
has, and nothing that was put into it gets lost when it is read and written the next time. One kind of edit is left out: a text that is
only blanks is taken and written, but it is not read again.

Main statements:
- `keepsContent_of_normal`: what saving a document with its own content comes to.
- `Scene.run_normal`: what is stored after anything that clients do, apart from documents into which blanks were put.
- `Scene.run_notNormal_blankAlone`: how such a text gets lost.
-/
import XmlStore.Proofs.Service.Content

namespace XmlStore.Service

open Xml

/-! ## Texts that are only blanks -/

/-- whether a call asks for a text that is only blanks to be put into the document with an id -/
def Call.blanks (id : UInt64) (call : Call) : Bool :=
  match call.mutation? with
  | some (id', _, .editText text) => id' == id && !text.isEmpty && text.toList.all Text.isBlank
  | _ => false

/-- whether that is asked for by somebody who begins -/
def Happening.blanks (id : UInt64) : Happening → Bool
  | .begin _ call => call.blanks id
  | _ => false

/-- an edit of nodes that puts in no such text puts in none -/
theorem Call.shows_of_blanks {call : Call} {id : UInt64} {target : Target} {mutation : Mutation} (h : call.blanks id = false)
    (is : call.mutation? = some (id, target, mutation)) : mutation.Shows := by
  cases mutation with
  | editText text =>
    simp only [Call.blanks, is, beq_self_eq_true, Bool.true_and, Bool.and_eq_false_iff, Bool.not_eq_false'] at h
    exact h
  | _ => trivial

/-! ## Content in normal form -/

/-- content in normal form is stored as it is -/
theorem normalize_of_normal {content : String} (h : Normal content) : normalize content = .ok content := by
  obtain ⟨d, read, written⟩ := h
  rw [normalize, readContent, read]
  exact congrArg Except.ok written

/-- so a document with such content is changed to just that -/
theorem modify_of_normal {content : String} (h : Normal content) (id now : UInt64) :
    modify id ⟨none, none, some content⟩ now =
      connecting ((ask (.updateFields id ⟨none, none, some content⟩ now)).whenOk fun _ => .done (.ok ())) := by
  have compact : (some content).mapM normalize = .ok (some content) := by
    rw [Option.mapM_some, normalize_of_normal h]
    rfl
  simp only [modify, compact]
  rfl

/-- what saving a document with the content that it has comes to, at any time: only the version and the time of the last write are
others, unless the version is the highest one, where the program stops -/
structure KeepsContent (t : Table) (id : UInt64) (row : Row) : Prop where
  saved : row.version.toNat + 1 < UInt64.size → ∀ now, ∃ t',
    (modify id ⟨none, none, some row.content⟩ now).run Table.backend t = (.ok (), t') ∧ t'.byId id = some (row.renewed now)
  stopped : ¬ row.version.toNat + 1 < UInt64.size → ∀ now,
    (modify id ⟨none, none, some row.content⟩ now).run Table.backend t = (.error (.store .overflow), t)

/-- **Saving a document with its own content** keeps that, if it is in normal form. -/
theorem keepsContent_of_normal {t : Table} {id : UInt64} {row : Row} (found : t.byId id = some row) (h : Normal row.content) :
    KeepsContent t id row := by
  have alone (now : UInt64) : (modify id ⟨none, none, some row.content⟩ now).run Table.backend t =
      ((t.perform (.updateFields id ⟨none, none, some row.content⟩ now)).1.mapError Failure.ofStore |>.map fun _ => (),
        (t.perform (.updateFields id ⟨none, none, some row.content⟩ now)).2) := by
    rw [modify_of_normal h]
    show ((ask (.updateFields id ⟨none, none, some row.content⟩ now)).whenOk fun _ => .done (.ok ())).run Table.backend t () = _
    rw [ask, Session.whenOk, Session.andThen, Session.run_call_table]
    cases (t.perform (.updateFields id ⟨none, none, some row.content⟩ now)).1 <;> rfl
  constructor
  · intro room now
    have key : (row.renewed now).id = id := (Table.id_of_byId found : row.id = id)
    have written : row.touch now = some (row.renewed now) := Row.touch_eq_some.2 ⟨room, rfl⟩
    have performed : t.perform (.updateFields id ⟨none, none, some row.content⟩ now) =
        (.ok (row.renewed now).version, { t with rows := Table.changeRow id (fun _ => row.renewed now) t.rows }) := by
      simp [Table.perform, Table.updateFields, found, Patch.apply, written, Row.renewed]
    refine ⟨{ t with rows := Table.changeRow id (fun _ => row.renewed now) t.rows }, ?_, Table.byId_changeRow found key rfl⟩
    rw [alone, performed]
    rfl
  · intro full now
    have unwritten : row.touch now = none := Row.touch_eq_none.2 full
    have performed : t.perform (.updateFields id ⟨none, none, some row.content⟩ now) = (.error .overflow, t) := by
      simp [Table.perform, Table.updateFields, found, Patch.apply, unwritten]
    rw [alone, performed]
    rfl

/-! ## What clients keep in normal form -/

/-- what may stand under an id after anything that has happened: it can be read, and it is in normal form unless somebody has asked for
blanks there -/
def NormalBut (happenings : List Happening) (id : UInt64) (content : String) : Prop :=
  (∃ d, Document.parse content = .ok d) ∧ (happenings.any (Happening.blanks id) = false → Normal content)

theorem Call.admits_normal {happenings : List Happening} {config : Config} {call : Call} (begun : .begin config call ∈ happenings) :
    call.Admits (NormalBut happenings) where
  readable _ _ h := h.1
  whole := by
    intro xml content given made id
    have normal := normal_of_normalize made
    exact ⟨call.admits_readable.whole xml content given made id, fun _ => normal⟩
  edited := by
    intro id target mutation edit text d content is he read written
    refine ⟨call.admits_readable.edited id target mutation edit text d content is he read written, ?_⟩
    intro unblanked
    have silent : call.blanks id = false := Bool.eq_false_iff.2 (List.any_eq_false.1 unblanked _ begun)
    exact Mutation.normal_of_content read (Call.shows_of_blanks silent is) he written

namespace Scene

/-- **Content is in normal form at rest**, where nobody has asked for a text that is only blanks to be put in. After anything that any
number of clients do at a store that was empty, a statement at a time and in any order, what is read from the content of a document is
written just so again; and saving the document with the content that it has leaves that as it was. -/
theorem run_normal {stock : Stock} (empty : stock.table? = some .empty) (happenings : List Happening) :
    ∃ t, ((initial stock).run happenings).stock.table? = some t ∧
      (∀ row ∈ t.rows, happenings.any (Happening.blanks row.id) = false → Normal row.content) ∧
      ∀ id row, t.byId id = some row → happenings.any (Happening.blanks id) = false → KeepsContent t id row := by
  have sound : Sound (NormalBut happenings) (fun call => Blamed call.Blames) ((initial stock).run happenings) := by
    apply run_initial_sound empty
    intro config call begun
    exact Call.request_upholds (Call.admits_normal begun) config
  obtain ⟨t, ht, holds⟩ := sound.stored
  refine ⟨t, ht, fun row hr => (holds row hr).2, ?_⟩
  intro id row found unblanked
  have key := Table.id_of_byId found
  have normal : Normal row.content := (holds row (Table.mem_of_byId found)).2 (key ▸ unblanked)
  exact keepsContent_of_normal found normal

/-- two documents, of which one loses an element between two texts while a blank is put into the other -/
def blankBeside : List Happening :=
  let root : Target := .locator ⟨false, [⟨.child, "a", []⟩]⟩
  let child : Target := .locator ⟨false, [⟨.child, "a", []⟩, ⟨.child, "b", []⟩]⟩
  [.begin .default (.direct (.create "t" "" "<a>x<b/>y</a>" 1)), .advance 0 none,
    .begin .default (.direct (.create "u" "" "<a>x</a>" 2)), .advance 0 none,
    .begin .default (.direct (.deleteNode 1 child 3)), .begin .default (.direct (.editText 2 root " " 4)),
    .advance 0 none, .advance 0 none, .advance 0 none, .advance 0 none]

theorem run_normal_blankBeside :
    let scene := (initial (.memory .empty)).run blankBeside
    (Stock.memory .empty).table? = some .empty ∧
      scene.stock.stored? = some ⟨[⟨1, "t", "", "<a>xy</a>", 2, 1, 3⟩, ⟨2, "u", "", "<a> </a>", 2, 2, 4⟩], 2⟩ ∧
      blankBeside.any (Happening.blanks 1) = false ∧ blankBeside.any (Happening.blanks 2) = true ∧
      ∃ t, scene.stock.table? = some t ∧
        (∀ row ∈ t.rows, blankBeside.any (Happening.blanks row.id) = false → Normal row.content) ∧
        ∀ id row, t.byId id = some row → blankBeside.any (Happening.blanks id) = false → KeepsContent t id row := by
  refine ⟨rfl, by decide +kernel, by decide, by decide, ?_⟩
  exact run_normal rfl blankBeside

/-- a blank that is put into a document -/
def blankAlone : List Happening :=
  [.begin .default (.direct (.create "t" "" "<a>x</a>" 1)), .advance 0 none,
    .begin .default (.direct (.editText 1 (.locator ⟨false, [⟨.child, "a", []⟩]⟩) " " 2)), .advance 0 none, .advance 0 none]

/-- the edit works and the blank is stored, but not in normal form: saving the document with the content that it has loses it -/
theorem run_notNormal_blankAlone :
    let scene := (initial (.memory .empty)).run blankAlone
    let saved := scene.stock.run (modify 1 ⟨none, none, some "<a> </a>"⟩ 3)
    scene.reports.map Report.failure? = [none, none] ∧ scene.stock.stored? = some ⟨[⟨1, "t", "", "<a> </a>", 2, 1, 2⟩], 1⟩ ∧
      ¬ Normal "<a> </a>" ∧ saved.1 = .ok () ∧ saved.2.stored? = some ⟨[⟨1, "t", "", "<a/>", 3, 1, 3⟩], 1⟩ := by
  refine ⟨by decide +kernel, by decide +kernel, ?_, by decide +kernel, by decide +kernel⟩
  have rewritten : (Document.parse "<a> </a>").map Document.xml = .ok "<a/>" := by decide +kernel
  rintro ⟨d, read, written⟩
  rw [read, ok_map, written] at rewritten
  exact absurd (Except.ok.inj rewritten) (by decide)

end Scene

end XmlStore.Service
