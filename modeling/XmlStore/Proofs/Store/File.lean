/-
Files that are replaced and read.

A path that leads to a place for a file goes on leading there whatever file is put in that place, since only folders are passed on
the way to it. So a store that could write its file once can always write it again, and reads from it what it wrote last.

Main statements:
- `Directory.replace_eq_ok`, `Directory.PlaceAt.put`: where a file can be put, and that it can be put there again.
- `FileStore.save_again`: that a file was written makes no difference to what is written later.
- `FileStore.load_eq_of_save`, `FileStore.load_of_save`: what is read after a table was written.
- `FileStore.saved_loaded`: a table that is written and loaded is the same.
-/
import XmlStore.Proofs.Outcomes
import XmlStore.Proofs.Store.Counter
import XmlStore.Proofs.Store.Image
import XmlStore.Store.File

namespace XmlStore

namespace Table

/-! ## Tables that are read -/

theorem counted_of_fields {lastId rows : Json} {t : Table} (h : ofFields lastId rows = some t) : t.Counted := by
  simp only [ofFields, Option.bind_eq_bind, Option.bind_eq_some_iff] at h
  obtain ⟨lastId, -, h⟩ := h
  split at h
  · obtain ⟨rows, -, made⟩ := Option.bind_eq_some_iff.1 h
    cases made
    exact counted_ofRows lastId rows
  · cases h

/-- the counter of a table in a file has passed all its ids -/
theorem counted_of_image {text : String} {t : Table} (h : ofImage? text = some t) : t.Counted := by
  unfold ofImage? at h
  split at h
  · cases h
    exact counted_empty
  · obtain ⟨json, -, h⟩ := Option.bind_eq_some_iff.1 h
    unfold ofJson? at h
    split at h
    · simp only [Option.bind_eq_bind, Option.bind_eq_some_iff] at h
      obtain ⟨lastId, -, rows, -, h⟩ := h
      exact counted_of_fields h
    · exact counted_of_fields h
    · cases h

end Table

namespace Directory

variable {d d' : Directory} {path : Path} {entry : Entry}

/-! ## What stands at a path -/

theorem entry?_put_self (h : d.entry? path ≠ some .folder) : Directory.entry? (d.put path entry) path = some entry := by
  have shown : ¬ path.isGiven = true := by
    intro given
    exact h (if_pos given)
  rw [ entry?, if_neg shown, put, List.lookup_cons_self]

theorem entry?_put_of_ne {other : Path} (h : other ≠ path) : Directory.entry? (d.put path entry) other = d.entry? other := by
  have kept : ∀ entries : List (Path × Entry), (entries.filter (·.1 ≠ path)).lookup other = entries.lookup other := by
    intro entries
    induction entries with
    | nil => rfl
    | cons first rest ih =>
      obtain ⟨key, value⟩ := first
      rw [List.filter_cons, List.lookup_cons]
      by_cases hk : key = path
      · rw [if_neg (by simpa using hk), ih, beq_false_of_ne fun e => h (e.trans hk)]
      · rw [if_pos (by simpa using hk), List.lookup_cons, ih]
  simp only [ entry?, put, List.lookup_cons, beq_false_of_ne h, kept]

/-- only what was put last at a path is there -/
theorem put_put {other : Entry} : (d.put path entry).put path other = d.put path other := by
  simp [put]

/-! ## Following a path -/

/-- a step that leads to a folder leads there still when something is put where no folder is -/
theorem enter_put (h : d.entry? path ≠ some .folder) {folder next : Path} {step : Step} (he : d.enter folder step = .ok next) :
    (d.put path entry).enter folder step = .ok next := by
  cases step with
  | name name =>
    simp only [enter, bind_eq_ok] at he ⊢
    obtain ⟨found, hc, he⟩ := he
    refine ⟨found, ?_, he⟩
    unfold child? at hc ⊢
    split at hc
    · cases hc
    · rename_i short
      have other : folder ++ [name] ≠ path := by
        rintro rfl
        cases hc
        split at he
        · cases he
        · cases he
        · rename_i there
          exact h there
      rw [if_neg short, entry?_put_of_ne other]
      exact hc
  | here => exact he
  | up => exact he

theorem foldlM_enter_put (h : d.entry? path ≠ some .folder) {steps : List Step} {start last : Path}
    (he : steps.foldlM d.enter start = .ok last) : steps.foldlM (d.put path entry).enter start = .ok last := by
  induction steps generalizing start with
  | nil => exact he
  | cons step rest ih =>
    obtain ⟨middle, hm, hr⟩ := foldlM_cons_eq_ok.1 he
    exact foldlM_cons_eq_ok.2 ⟨middle, enter_put h hm, ih hr⟩

theorem followRoute_put (h : d.entry? path ≠ some .folder) {route : Route} {spot : Spot} (hs : d.followRoute route = .ok spot) :
    (d.put path entry).followRoute route = .ok spot := by
  simp only [followRoute, bind_eq_ok] at hs ⊢
  obtain ⟨folder, hf, hs⟩ := hs
  exact ⟨folder, foldlM_enter_put h hf, hs⟩

/-- a path that is followed is followed the same whatever would have been answered otherwise -/
theorem followOr_put (h : d.entry? path ≠ some .folder) {fault : FileFault} {size : Nat} {text : String} {spot : Spot}
    (hs : d.followOr fault size text = .ok spot) (fault' : FileFault) :
    (d.put path entry).followOr fault' size text = .ok spot := by
  unfold followOr at hs ⊢
  split at hs
  · cases hs
  · rename_i plain
    split at hs
    · cases hs
    · rename_i written
      split at hs
      · cases hs
      · rename_i short
        rw [if_neg plain, if_neg written, if_neg short]
        exact followRoute_put h hs

/-! ## Replacing and reading -/

/-- a written path that leads to a place for a file: to a file, or to a name that a file can get -/
structure PlaceAt (d : Directory) (text : String) (folder : Path) (name : String) : Prop where
  found : d.followOr .invalid text.utf8ByteSize text = .ok (.name folder name false)
  short : ¬ maxNameSize < name.utf8ByteSize
  free : d.entry? (folder ++ [name]) ≠ some .folder

theorem replace_eq_ok {text : String} {content : FileContent} :
    d.replace text content = .ok d' ↔
      ∃ folder name, d.PlaceAt text folder name ∧ d' = d.put (folder ++ [name]) (.file content) := by
  unfold replace
  rw [bind_eq_ok]
  constructor
  · rintro ⟨spot, hs, hr⟩
    cases spot with
    | passed => cases hr
    | name folder name closed =>
      simp only [bind_eq_ok] at hr
      obtain ⟨found, hc, hr⟩ := hr
      unfold child? at hc
      split at hc
      · cases hc
      · rename_i short
        cases hc
        split at hr
        · cases hr
        · cases hr
        · rename_i free
          cases hr
          exact ⟨folder, name, ⟨hs, short, free⟩, rfl⟩
  · rintro ⟨folder, name, place, rfl⟩
    refine ⟨_, place.found, ?_⟩
    simp only [child?, if_neg place.short, ok_bind']
    split
    · rename_i closed
      cases closed
    · rename_i there _
      exact absurd there place.free
    · rfl

variable {text : String} {folder : Path} {name : String}

theorem replace_error_iff (content content' : FileContent) {fault : FileFault} :
    d.replace text content = .error fault ↔ d.replace text content' = .error fault := by
  unfold replace
  cases d.followOr .invalid text.utf8ByteSize text with
  | error fault => rfl
  | ok spot =>
    cases spot with
    | passed path => rfl
    | name folder name closed =>
      simp only [ok_bind']
      cases d.child? folder name with
      | error fault => rfl
      | ok found => cases found with
        | none => cases closed <;> simp
        | some entry => cases entry <;> cases closed <;> simp

/-- a place for a file stays one when a file is put there -/
theorem PlaceAt.put (h : d.PlaceAt text folder name) (content : FileContent) :
    (d.put (folder ++ [name]) (.file content)).PlaceAt text folder name where
  found := followOr_put h.free h.found .invalid
  short := h.short
  free := by
    rw [entry?_put_self h.free]
    simp

theorem PlaceAt.find_put (h : d.PlaceAt text folder name) (content : FileContent) :
    (d.put (folder ++ [name]) (.file content)).find text = .ok (folder ++ [name], .file content) := by
  have followed : (d.put (folder ++ [name]) (.file content)).follow text = .ok (.name folder name false) :=
    followOr_put h.free h.found .nulInPath
  have there : (d.put (folder ++ [name]) (.file content)).child? folder name = .ok (some (.file content)) := by
    rw [child?, if_neg h.short, entry?_put_self h.free]
  rw [find, followed]
  simp [there]

end Directory

namespace FileStore

variable {store : FileStore} {d d' : Directory} {t : Table}

/-- a store whose file can be written -/
def Writable (store : FileStore) (d : Directory) : Prop := ∃ d', store.save d .empty = .ok d'

theorem save_eq_ok : store.save d t = .ok d' ↔
    (∃ spot, d.followBeside store.name = .ok spot) ∧ ∃ folder name, d.PlaceAt store.name folder name ∧
      d' = d.put (folder ++ [name]) (.file (.text t.image)) := by
  rw [save, mapError_eq_ok, bind_eq_ok]
  constructor
  · rintro ⟨spot, hs, hr⟩
    exact ⟨⟨spot, hs⟩, Directory.replace_eq_ok.1 hr⟩
  · rintro ⟨⟨spot, hs⟩, hr⟩
    exact ⟨spot, hs, Directory.replace_eq_ok.2 hr⟩

/-- whether the file can be written does not depend on what is to be written -/
theorem Writable.save (h : store.Writable d) (t : Table) : ∃ d', store.save d t = .ok d' := by
  obtain ⟨_, h⟩ := h
  obtain ⟨beside, folder, name, place, -⟩ := save_eq_ok.1 h
  exact ⟨_, save_eq_ok.2 ⟨beside, folder, name, place, rfl⟩⟩

/-! ## What goes wrong -/

theorem load_error {error : StoreError} (h : store.load d = .error error) :
    (∃ reason, error = .io reason) ∨ error = .serialization := by
  unfold load at h
  split at h
  · split at h
    · cases h
      exact Or.inl ⟨_, rfl⟩
    · split at h <;> cases h
      exact Or.inr rfl
  · cases h

theorem save_error {error : StoreError} (h : store.save d t = .error error) : ∃ reason, error = .io reason := by
  obtain ⟨fault, -, rfl⟩ := mapError_eq_error.1 h
  exact ⟨_, rfl⟩

/-- why the file cannot be written does not depend on what is to be written -/
theorem save_error_iff {error : StoreError} (t' : Table) : store.save d t = .error error ↔ store.save d t' = .error error := by
  rw [save, save, mapError_eq_error, mapError_eq_error]
  simp only [bind_eq_error, Directory.replace_error_iff (.text t.image) (.text t'.image)]

/-! ## What is written and read -/

/-- a file that was written can be written again -/
theorem writable_of_save (h : store.save d t = .ok d') : store.Writable d' := by
  obtain ⟨⟨spot, beside⟩, folder, name, place, rfl⟩ := save_eq_ok.1 h
  exact ⟨_, save_eq_ok.2 ⟨⟨spot, Directory.followOr_put place.free beside .nulInPath⟩, folder, name, place.put _, rfl⟩⟩

/-- a file that was written can be written again just as if it had not been -/
theorem save_again (h : store.save d t = .ok d') (t' : Table) : store.save d' t' = store.save d t' := by
  obtain ⟨⟨spot, beside⟩, folder, name, place, rfl⟩ := save_eq_ok.1 h
  have first : store.save d t' = .ok (d.put (folder ++ [name]) (.file (.text t'.image))) :=
    save_eq_ok.2 ⟨⟨spot, beside⟩, folder, name, place, rfl⟩
  rw [first, save_eq_ok]
  exact ⟨⟨spot, Directory.followOr_put place.free beside .nulInPath⟩, folder, name, place.put _, Directory.put_put.symm⟩

/-- what was written last is read, made anew from its rows and its counter -/
theorem load_eq_of_save (h : store.save d t = .ok d') : store.load d' = .ok (.ofRows t.lastId t.rows) := by
  obtain ⟨-, folder, name, place, rfl⟩ := save_eq_ok.1 h
  have found := place.find_put (.text t.image)
  simp [load, Directory.isThere, Directory.readText, found, Except.toOption, Table.ofImage?_image]

/-- **What was written last is read.** -/
theorem load_of_save (h : store.save d t = .ok d') (hc : t.Consistent) : ∃ t', store.load d' = .ok t' ∧ t'.Same t :=
  ⟨_, load_eq_of_save h, Table.ofRows_same hc⟩

/-- **A table that is written and loaded is the same.** If the file can be written, what is loaded from it has the rows, the counter
and the index of the table that was written, for they can be told from the text alone. -/
theorem saved_loaded (h : t.Consistent) (writable : store.Writable d) :
    ∃ d' t', store.save d t = .ok d' ∧ store.load d' = .ok t' ∧ Table.ofImage? t.image = some t' ∧ t'.Same t := by
  obtain ⟨d', saved⟩ := writable.save t
  exact ⟨d', _, saved, load_eq_of_save saved, t.ofImage?_image, Table.ofRows_same h⟩

/-- a table with the highest words, and a row with quotes, controls and characters beyond the basic plane -/
def extremeTable : Table where
  rows := [⟨7, "\"\\\n\u0001é", "😀\t", "<a>\r</a>", 18446744073709551615, 0, 18446744073709551615⟩]
  titles := [("\"\\\n\u0001é", 7)]
  lastId := 18446744073709551615

theorem saved_loaded_extremeTable :
    let store : FileStore := ⟨"store.json"⟩
    let d := Directory.empty "/home/u"
    extremeTable.Consistent ∧ store.Writable d ∧
      ∃ d' t', store.save d extremeTable = .ok d' ∧ store.load d' = .ok t' ∧ Table.ofImage? extremeTable.image = some t' ∧
        t'.Same extremeTable := by
  intro store d
  have consistent : extremeTable.Consistent := by
    refine ⟨List.pairwise_singleton _ _, ?_, ?_⟩
    · decide
    · intro title id
      by_cases here : title = "\"\\\n\u0001é"
      · simp [extremeTable, here]
      · simp [extremeTable, List.lookup_cons, beq_false_of_ne here, Ne.symm here]
  have writable : store.Writable d := by
    have written : (store.save d .empty).isOk = true := by decide +kernel
    cases e : store.save d .empty with
    | ok d' => exact ⟨d', e⟩
    | error fault => simp [e, Except.isOk, Except.toBool] at written
  exact ⟨consistent, writable, saved_loaded consistent writable⟩

theorem counted_of_load (h : store.load d = .ok t) : t.Counted := by
  unfold load at h
  split at h
  · split at h
    · cases h
    · split at h
      · cases h
      · rename_i read
        cases h
        exact Table.counted_of_image read
  · cases h
    exact Table.counted_empty

theorem load_of_absent (h : d.isThere store.name = false) : store.load d = .ok .empty := by
  rw [load, h]
  rfl

end FileStore

end XmlStore
