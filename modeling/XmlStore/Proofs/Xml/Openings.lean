/-
The elements that are open while a text is read.

The scanner keeps the names of the start tags that are open, and refuses an end tag that does not close the innermost of them. The
assembly keeps the elements that it has begun, and asks no more of an end tag than that one of them is open. Neither looks at what the
other keeps. But both follow the tags among the events (`openTags`): the scanner hands out no end tag that it has refused, and the
reader stops at an event that the assembly does not take. So the two agree wherever the reader comes to.

Main statements:
- `Scanner.turn_outcome`: what one more character may do to the start tags that are open.
- `Reader.step_paired`: a step keeps the scanner and the assembly in agreement.
- `Reader.openings_mirrored`: at every place of every text they agree with the events, an end tag closes the element of its name, and
  elements are reported as unclosed at the end of the text only, and as they are open there.
-/
import XmlStore.Proofs.Outcomes
import XmlStore.Xml.Reader

namespace XmlStore.Xml

/-! ## Errors that tell of open elements -/

/-- whether an error tells of an end tag that closes nothing, or of elements that nothing closes -/
def XmlError.ofNesting : XmlError → Bool
  | .unexpectedEndTag _ => true
  | .unclosedElements _ => true
  | _ => false

/-- whatever is refused is refused for something other than open elements -/
abbrev Flat {α : Type} (x : Except XmlError α) : Prop :=
  FailsOnly (fun e => e.ofNesting = false) x

/-! ## Tags that are open -/

/-- whether an event goes into an element or out of one -/
def Event.nests : Event → Bool
  | .startTag .. => true
  | .endTag _ => true
  | _ => false

/-- the names of the start tags that are open after an event, innermost first -/
def Event.opens (names : List String) : Event → List String
  | .startTag name _ => name :: names
  | .endTag _ => names.tail
  | _ => names

/-- the names of the start tags that events leave open, innermost first -/
def openTags (events : List Event) : List String :=
  events.foldl Event.opens []

theorem Event.opens_of_flat {event : Event} (flat : event.nests = false) (names : List String) : event.opens names = names := by
  cases event <;> first | rfl | cases flat

theorem openTags_append (events : List Event) (event : Option Event) :
    openTags (events ++ event.toList) = event.toList.foldl Event.opens (openTags events) :=
  List.foldl_append

namespace Scanner

variable {s s' : Scanner} {c : Char} {event : Option Event}

/-- what one more character may do to the start tags that are open -/
inductive Outcome (s : Scanner) : Except XmlError (Scanner × Option Event) → Prop where
  | fault (fault : SyntaxFault) (position : Nat) : Outcome s (.error (.malformed fault position))
  | goesOn (position start : Nat) (scan : Scan) : Outcome s (.ok (⟨position, start, scan, s.openNames⟩, none))
  | passes (position start : Nat) (scan : Scan) {event : Event} (flat : event.nests = false) :
      Outcome s (.ok (⟨position, start, scan, s.openNames⟩, some event))
  | opens (position start : Nat) (scan : Scan) (name : String) (rest : List Char) :
      Outcome s (.ok (⟨position, start, scan, name :: s.openNames⟩, some (.startTag name rest)))
  | closes (position start : Nat) (scan : Scan) {name : String} {outer : List String} (innermost : s.openNames = name :: outer) :
      Outcome s (.ok (⟨position, start, scan, outer⟩, some (.endTag name)))

theorem outcome_fail (s : Scanner) (fault : SyntaxFault) : s.Outcome (s.fail fault) :=
  .fault fault s.start

theorem outcome_goOn (s : Scanner) (scan : Scan) : s.Outcome (s.goOn scan) :=
  .goesOn s.position s.start scan

theorem outcome_emit (s : Scanner) {event : Event} (flat : event.nests = false) : s.Outcome (s.emit event) :=
  .passes s.position s.start (.text []) flat

theorem outcome_endOfTag (s : Scanner) (content : List Char) : s.Outcome (s.endOfTag content) := by
  unfold endOfTag
  split
  · exact outcome_emit s rfl
  · exact .opens s.position s.start (.text []) _ _

theorem outcome_endOfEndTag (s : Scanner) (content : List Char) : s.Outcome (s.endOfEndTag content) := by
  unfold endOfEndTag
  dsimp only
  split
  · exact outcome_fail s _
  · rename_i expected outer innermost
    split
    · rename_i same
      exact .closes s.position s.start (.text []) (same ▸ innermost)
    · exact outcome_fail s _

theorem outcome_afterOpening (s : Scanner) (c : Char) : s.Outcome (s.afterOpening c) := by
  unfold afterOpening
  by_cases bang : c = '!'
  · rw [if_pos bang]; exact outcome_goOn s _
  by_cases question : c = '?'
  · rw [if_neg bang, if_pos question]; exact outcome_goOn s _
  by_cases slash : c = '/'
  · rw [if_neg bang, if_neg question, if_pos slash]; exact outcome_goOn s _
  rw [if_neg bang, if_neg question, if_neg slash]
  split
  · exact outcome_endOfTag s []
  · exact outcome_goOn s _

theorem outcome_afterBang (s : Scanner) (c : Char) : s.Outcome (s.afterBang c) := by
  unfold afterBang
  by_cases comment : c = '-'
  · rw [if_pos comment]; exact outcome_goOn s _
  by_cases cdata : c = '['
  · rw [if_neg comment, if_pos cdata]; exact outcome_goOn s _
  rw [if_neg comment, if_neg cdata]
  split
  · exact outcome_goOn s _
  · exact outcome_fail s _

/-- **One more character** opens a start tag, closes the innermost that is open, or leaves them as they are. -/
theorem turn_outcome (s : Scanner) (c : Char) : s.Outcome (s.turn c) := by
  unfold turn
  cases s.scan with
  | text raw =>
    dsimp only
    split
    · exact .passes s.position s.position .opened rfl
    · exact outcome_goOn s _
  | opened => exact outcome_afterOpening s c
  | tag content quote =>
    dsimp only
    split
    · exact outcome_endOfTag s content
    · exact outcome_goOn s _
  | endTag content quote =>
    dsimp only
    split
    · exact outcome_endOfEndTag s content
    · exact outcome_goOn s _
  | bang => exact outcome_afterBang s c
  | lead kind rest =>
    cases rest with
    | nil => exact outcome_goOn s _
    | cons expected rest =>
      dsimp only
      split
      · exact outcome_goOn s _
      · exact outcome_fail s _
  | comment value =>
    dsimp only
    split
    · exact outcome_emit s rfl
    · exact outcome_goOn s _
  | cdata value =>
    dsimp only
    split
    · exact outcome_emit s rfl
    · exact outcome_goOn s _
  | doctype depth blank =>
    dsimp only
    split
    · split
      · split
        · exact .fault _ _
        · exact outcome_emit s rfl
      · exact outcome_goOn s _
    · split
      · exact outcome_goOn s _
      · exact outcome_goOn s _
  | question =>
    dsimp only
    split
    · exact outcome_fail s _
    · exact outcome_goOn s _
  | instruction asked =>
    dsimp only
    split
    · exact outcome_emit s rfl
    · exact outcome_goOn s _

theorem step_outcome (s : Scanner) (c : Char) : s.Outcome (s.step c) := by
  have turned := turn_outcome s c
  unfold step
  generalize s.turn c = result at turned
  cases turned with
  | fault fault position => exact .fault fault position
  | goesOn position start scan => exact .goesOn _ start scan
  | passes position start scan flat => exact .passes _ start scan flat
  | opens position start scan name rest => exact .opens _ start scan name rest
  | closes position start scan innermost => exact .closes _ start scan innermost

/-- the start tags that are open after a character are those that its event leaves open -/
theorem openNames_of_step (h : s.step c = .ok (s', event)) : s'.openNames = event.toList.foldl Event.opens s.openNames := by
  have outcome := step_outcome s c
  rw [h] at outcome
  cases outcome with
  | goesOn => rfl
  | passes position start scan flat => exact (Event.opens_of_flat flat s.openNames).symm
  | opens => rfl
  | closes position start scan innermost => exact (congrArg List.tail innermost).symm

/-- an end tag is handed out for the innermost start tag that is open -/
theorem innermost_of_step {name : String} (h : s.step c = .ok (s', some (.endTag name))) : s.openNames = name :: s'.openNames := by
  have outcome := step_outcome s c
  rw [h] at outcome
  cases outcome with
  | passes position start scan flat => cases flat
  | closes position start scan innermost => exact innermost

/-- what is left at the end of a text is text -/
theorem flat_of_finish {event : Event} (h : s.finish = .ok event) : event.nests = false := by
  unfold finish at h
  split at h
  · cases h
    rfl
  all_goals cases h

theorem flat_finish (s : Scanner) : Flat s.finish := by
  unfold finish
  split
  · exact .of_ok _
  all_goals exact .of_error rfl

/-- reads one more character, and keeps its event with those before -/
def record (read : Scanner × List Event) (c : Char) : Except XmlError (Scanner × List Event) :=
  (read.1.step c).map fun (s, event) => (s, read.2 ++ event.toList)

/-- the scanner after a text, and the events that it has made of it -/
def events (s : List Char) : Except XmlError (Scanner × List Event) :=
  s.foldlM record (initial, [])

/-- **The scanner holds open** the start tags that the events leave open. -/
theorem openNames_of_events {read : List Char} {events : List Event} (h : Scanner.events read = .ok (s, events)) :
    s.openNames = openTags events := by
  refine foldlM_keeps (P := fun read : Scanner × List Event => read.1.openNames = openTags read.2) ?_ rfl h
  intro before c after hb hs
  obtain ⟨⟨next, event⟩, stepped, rfl⟩ := map_eq_ok.1 hs
  rw [openTags_append, ← hb]
  exact openNames_of_step stepped

end Scanner

/-! ## Checks that know nothing of open elements -/

theorem flat_checkName (name : String) : Flat (checkName name) := by
  unfold checkName
  split
  · exact .of_ok _
  · exact .of_error rfl

theorem flat_checkChars (place : Place) (s : List Char) : Flat (checkChars place s) := by
  unfold checkChars
  split
  · exact .of_error rfl
  · exact .of_ok _

namespace TagReader

theorem flat_endKey (element : String) (r : TagReader) (start : Nat) (name : List Char) : Flat (endKey element r start name) := by
  unfold endKey
  dsimp only
  split
  · exact .of_error rfl
  · exact .of_ok _

theorem flat_readAttribute (element key : String) (raw : List Char) : Flat (readAttribute element key raw) := by
  refine (flat_checkName key).bind ?_
  intro _ _
  refine FailsOnly.bind (.mapError ?_ _) ?_
  · intro _
    rfl
  · intro value _
    exact (flat_checkChars .attributeValue value).bind fun _ _ => .of_ok _

theorem flat_turn (element : String) (r : TagReader) (c : Char) : Flat (turn element r c) := by
  unfold turn
  split
  · split
    · exact .of_ok _
    · exact .of_ok _
  · split
    · exact flat_endKey _ _ _ _
    · split
      · exact .of_ok _
      · exact .of_ok _
  · split
    · exact .of_ok _
    · split
      · exact flat_endKey _ _ _ _
      · exact .of_error rfl
  · split
    · exact .of_ok _
    · split
      · exact .of_ok _
      · exact .of_error rfl
  · split
    · exact (flat_readAttribute _ _ _).map _
    · exact .of_ok _

theorem flat_finish (element : String) (r : TagReader) : Flat (r.finish element) := by
  unfold finish
  split
  · exact .of_ok _
  all_goals exact .of_error rfl

end TagReader

theorem flat_readAttributes (element : String) (rest : List Char) : Flat (readAttributes element rest) := by
  refine (flat_checkName element).bind ?_
  intro _ _
  refine FailsOnly.bind ?_ fun r _ => TagReader.flat_finish element r
  exact .foldlM (P := fun _ => True) (fun _ _ _ _ _ => trivial) (fun r c _ => (TagReader.flat_turn element r c).map _) trivial rest

theorem flat_checkShape (f : Forest Unit) (shape : Shape) : Flat (checkShape f shape) := by
  unfold checkShape
  split
  · split
    · exact .of_error rfl
    · exact .of_ok _
    · exact .of_error rfl
  · split
    · exact .of_error rfl
    · exact .of_ok _

/-! ## Elements that are open -/

namespace Assembly

variable {shape : Shape} {a a' : Assembly} {event : Event}

def names (a : Assembly) : List String :=
  a.around.map OpenElement.name

/-- takes an event, if there is one -/
def feed? (shape : Shape) (a : Assembly) : Option Event → Except XmlError Assembly
  | none => .ok a
  | some event => a.feed shape event

theorem foldlM_feed (shape : Shape) (a : Assembly) (event : Option Event) :
    event.toList.foldlM (feed shape) a = a.feed? shape event := by
  cases event with
  | none => rfl
  | some event =>
    rw [Option.toList_some, List.foldlM_cons]
    exact bind_pure _

theorem flat_checkInside (shape : Shape) (a : Assembly) : Flat (a.checkInside shape) := by
  unfold checkInside
  split
  · exact .of_error rfl
  · exact .of_ok _

theorem flat_addText (shape : Shape) (a : Assembly) (raw : List Char) : Flat (a.addText shape raw) := by
  refine FailsOnly.bind (.mapError ?_ _) ?_
  · intro _
    rfl
  · intro value _
    refine (flat_checkChars .text value).bind ?_
    intro _ _
    split
    · exact .of_ok _
    · exact (flat_checkInside shape a).bind fun _ _ => .of_ok _

/-- an event other than an end tag is never refused for open elements, nor is an end tag where one is open -/
theorem flat_feed (shape : Shape) (a : Assembly) {event : Event} (inside : ∀ name, event = .endTag name → a.around ≠ []) :
    Flat (a.feed shape event) := by
  cases event with
  | startTag name rest => exact (flat_readAttributes name rest).bind fun _ _ => .of_ok _
  | emptyTag name rest => exact (flat_readAttributes name rest).bind fun _ _ => .of_ok _
  | endTag name =>
    unfold feed
    dsimp only
    split
    · rename_i none'
      exact absurd none' (inside name rfl)
    · exact .of_ok _
  | text raw => exact flat_addText shape a raw
  | cdata value =>
    refine (flat_checkInside shape a).bind ?_
    intro _ _
    exact (flat_checkChars .cdata value).bind fun _ _ => .of_ok _
  | comment value => exact (flat_checkChars .comment value).bind fun _ _ => .of_ok _
  | skipped => exact .of_ok _

/-- **The open elements** after an event have the names of the start tags that it leaves open. -/
theorem names_of_feed (h : a.feed shape event = .ok a') : a'.names = event.opens a.names := by
  cases event with
  | startTag name rest =>
    obtain ⟨attributes, -, e⟩ := bind_eq_ok.1 h
    cases e
    rfl
  | emptyTag name rest =>
    obtain ⟨attributes, -, e⟩ := bind_eq_ok.1 h
    cases e
    rfl
  | endTag name =>
    obtain ⟨here, around⟩ := a
    cases around with
    | nil => cases h
    | cons outer around =>
      cases h
      rfl
  | text raw =>
    simp only [feed, addText, bind_eq_ok] at h
    obtain ⟨value, -, _, -, h⟩ := h
    split at h
    · cases h
      rfl
    · obtain ⟨_, -, e⟩ := bind_eq_ok.1 h
      cases e
      rfl
  | cdata value =>
    simp only [feed, bind_eq_ok] at h
    obtain ⟨_, -, _, -, e⟩ := h
    cases e
    rfl
  | comment value =>
    obtain ⟨_, -, e⟩ := bind_eq_ok.1 h
    cases e
    rfl
  | skipped =>
    cases h
    rfl

theorem finish_eq_unclosed {names : List String} :
    a.finish = .error (.unclosedElements names) ↔ a.names ≠ [] ∧ names = a.names.reverse := by
  unfold finish Assembly.names
  by_cases none' : a.around = []
  · simp [none']
  · rw [if_neg none', Except.error.injEq, XmlError.unclosedElements.injEq]
    exact ⟨fun e => ⟨mt List.map_eq_nil_iff.1 none', e.symm⟩, fun h => h.2.symm⟩

end Assembly

/-! ## The reader -/

namespace Reader

variable {shape : Shape} {r r' : Reader} {c : Char}

/-- the open elements are those of the start tags that the scanner holds open -/
def Paired (r : Reader) : Prop :=
  r.assembly.names = r.scanner.openNames

theorem step_eq_ok : r.step shape c = .ok r' ↔
    ∃ event, r.scanner.step c = .ok (r'.scanner, event) ∧ r.assembly.feed? shape event = .ok r'.assembly := by
  obtain ⟨scanner', assembly'⟩ := r'
  simp only [step, bind_eq_ok]
  constructor
  · intro made
    obtain ⟨⟨next, event⟩, stepped, h⟩ := made
    cases event with
    | none =>
      cases h
      exact ⟨none, stepped, rfl⟩
    | some event =>
      obtain ⟨fed, hf, e⟩ := bind_eq_ok.1 h
      cases e
      exact ⟨some event, stepped, hf⟩
  · intro made
    obtain ⟨event, stepped, h⟩ := made
    refine ⟨_, stepped, ?_⟩
    cases event with
    | none =>
      cases h
      rfl
    | some event => exact bind_eq_ok.2 ⟨assembly', h, rfl⟩

/-- **A step keeps the two in agreement.** -/
theorem step_paired (h : r.Paired) (hs : r.step shape c = .ok r') : r'.Paired := by
  obtain ⟨event, stepped, fed⟩ := step_eq_ok.1 hs
  unfold Paired at h ⊢
  rw [Scanner.openNames_of_step stepped, ← h]
  cases event with
  | none => exact congrArg Assembly.names (Except.ok.inj fed).symm
  | some event => exact Assembly.names_of_feed fed

theorem flat_step (h : r.Paired) (shape : Shape) (c : Char) : Flat (r.step shape c) := by
  refine FailsOnly.bind ?_ ?_
  · have outcome := Scanner.step_outcome r.scanner c
    generalize r.scanner.step c = result at outcome
    cases outcome with
    | fault => exact .of_error rfl
    | _ => exact .of_ok _
  · intro handed stepped
    obtain ⟨scanner, event⟩ := handed
    cases event with
    | none => exact .of_ok _
    | some event =>
      refine FailsOnly.bind ?_ fun _ _ => .of_ok _
      refine Assembly.flat_feed shape r.assembly ?_
      intro name e none'
      -- the scanner hands out an end tag only when it holds a start tag open
      subst e
      unfold Paired at h
      rw [Scanner.innermost_of_step stepped, Assembly.names, none'] at h
      cases h

theorem paired_initial : initial.Paired := rfl

theorem run_paired {read : List Char} (h : read.foldlM (step shape) initial = .ok r) : r.Paired :=
  foldlM_keeps (fun _ _ _ => step_paired) paired_initial h

theorem flat_run (shape : Shape) (read : List Char) : Flat (read.foldlM (step shape) initial) :=
  .foldlM (fun _ _ _ => step_paired) (fun _ c paired => flat_step paired shape c) paired_initial read

/-- a reader goes along with the scanner, and hands on its events -/
theorem run_recorded {read : List Char} {events : List Event} (fed : events.foldlM (Assembly.feed shape) .initial = .ok r.assembly)
    (h : read.foldlM (step shape) r = .ok r') :
    ∃ events', read.foldlM Scanner.record (r.scanner, events) = .ok (r'.scanner, events') ∧
      events'.foldlM (Assembly.feed shape) .initial = .ok r'.assembly := by
  induction read generalizing r events with
  | nil =>
    cases h
    exact ⟨events, rfl, fed⟩
  | cons c rest ih =>
    obtain ⟨next, stepped, h⟩ := foldlM_cons_eq_ok.1 h
    obtain ⟨event, scanned, fed'⟩ := step_eq_ok.1 stepped
    have more : (events ++ event.toList).foldlM (Assembly.feed shape) .initial = .ok next.assembly := by
      rw [List.foldlM_append, fed, ok_bind', Assembly.foldlM_feed, fed']
    obtain ⟨events', recorded, fed''⟩ := ih more h
    refine ⟨events', foldlM_cons_eq_ok.2 ⟨_, ?_, recorded⟩, fed''⟩
    exact map_eq_ok.2 ⟨_, scanned, rfl⟩

/-- **What is put together** comes of the events that the scanner makes. -/
theorem run_events {read : List Char} (h : read.foldlM (step shape) initial = .ok r) :
    ∃ events, Scanner.events read = .ok (r.scanner, events) ∧ events.foldlM (Assembly.feed shape) .initial = .ok r.assembly := by
  have nothing : ([] : List Event).foldlM (Assembly.feed shape) .initial = .ok initial.assembly := rfl
  exact run_recorded nothing h

/-- an end tag closes the innermost open element, which has its name -/
theorem step_closes {scanner : Scanner} {name : String} (h : r.Paired) (hs : r.scanner.step c = .ok (scanner, some (.endTag name))) :
    ∃ outer around, r.assembly.around = outer :: around ∧ outer.name = name ∧
      r.step shape c =
        .ok ⟨scanner, ⟨outer.before.append (.element () name outer.attributes r.assembly.here .nil), around⟩⟩ := by
  unfold Paired at h
  rw [Scanner.innermost_of_step hs, Assembly.names, List.map_eq_cons_iff] at h
  obtain ⟨outer, around, open', named, -⟩ := h
  refine ⟨outer, around, open', named, step_eq_ok.2 ⟨_, hs, ?_⟩⟩
  rw [Assembly.feed?, Assembly.feed, open']
  simp only [named]

/-- the elements that are open once the last text is taken are those of the start tags that are open -/
theorem names_at_end {read : List Char} {events : List Event} {event : Event} {a : Assembly}
    (h : read.foldlM (step shape) initial = .ok r) (recorded : Scanner.events read = .ok (r.scanner, events))
    (last : r.scanner.finish = .ok event) (fed : r.assembly.feed shape event = .ok a) : a.names = openTags events := by
  calc
    a.names = event.opens r.assembly.names := Assembly.names_of_feed fed
    _ = r.assembly.names := Event.opens_of_flat (Scanner.flat_of_finish last) _
    _ = r.scanner.openNames := run_paired h
    _ = openTags events := Scanner.openNames_of_events recorded

/-- **Elements are found open or missing** at the end of the text only. -/
theorem readForest_eq_error_iff {text : String} {e : XmlError} (nesting : e.ofNesting = true) :
    readForest shape text = .error e ↔
      ∃ r event a, (dropMark text.toList).foldlM (step shape) initial = .ok r ∧ r.scanner.finish = .ok event ∧
        r.assembly.feed shape event = .ok a ∧ a.finish = .error e := by
  have other {α : Type} {x : Except XmlError α} (flat : Flat x) : x ≠ .error e := by
    intro failed
    exact absurd nesting (by simp [flat e failed])
  constructor
  · intro refused
    rcases bind_eq_error.1 refused with failed | ⟨f, -, failed⟩
    · rcases bind_eq_error.1 failed with failed | ⟨r, whole, failed⟩
      · exact absurd failed (other (flat_run shape _))
      rcases bind_eq_error.1 failed with failed | ⟨event, last, failed⟩
      · exact absurd failed (other (Scanner.flat_finish _))
      rcases bind_eq_error.1 failed with failed | ⟨a, fed, failed⟩
      · refine absurd failed (other (Assembly.flat_feed shape _ ?_))
        intro name tag
        rw [tag] at last
        cases Scanner.flat_of_finish last
      · exact ⟨r, event, a, whole, last, fed, failed⟩
    · exact absurd failed (other ((flat_checkShape f shape).bind fun _ _ => .of_ok _))
  · intro reached
    obtain ⟨r, event, a, whole, last, fed, failed⟩ := reached
    have run : Reader.run shape (dropMark text.toList) = .error e := by
      rw [Reader.run, whole, ok_bind, finish, last, ok_bind', fed, ok_bind', failed]
    rw [readForest, run, error_bind]

/-- **The open elements mirror the open tags.** Wherever a reader has come to, the scanner holds open the start tags that the events
so far leave open, and the open elements have just their names; an end tag closes the innermost of them. So no end tag is ever
unexpected, and the elements that a text leaves open are reported, outermost first, exactly when nothing else was wrong up to its
end. -/
theorem openings_mirrored (shape : Shape) (text : String) :
    (∀ read r, read.foldlM (step shape) initial = .ok r →
      ∃ events, Scanner.events read = .ok (r.scanner, events) ∧ events.foldlM (Assembly.feed shape) .initial = .ok r.assembly ∧
        r.scanner.openNames = openTags events ∧ r.assembly.around.map OpenElement.name = openTags events ∧
        ∀ c scanner name, r.scanner.step c = .ok (scanner, some (.endTag name)) →
          ∃ outer around, r.assembly.around = outer :: around ∧ outer.name = name ∧
            r.step shape c =
              .ok ⟨scanner, ⟨outer.before.append (.element () name outer.attributes r.assembly.here .nil), around⟩⟩) ∧
      (∀ name, readForest shape text ≠ .error (.unexpectedEndTag name)) ∧
      ∀ names, readForest shape text = .error (.unclosedElements names) ↔
        ∃ r events event a, (dropMark text.toList).foldlM (step shape) initial = .ok r ∧
          Scanner.events (dropMark text.toList) = .ok (r.scanner, events) ∧ r.scanner.finish = .ok event ∧
          r.assembly.feed shape event = .ok a ∧ openTags events ≠ [] ∧ names = (openTags events).reverse := by
  refine ⟨?_, ?_, ?_⟩
  · intro read r h
    have paired := run_paired h
    obtain ⟨events, recorded, fed⟩ := run_events h
    have held := Scanner.openNames_of_events recorded
    refine ⟨events, recorded, fed, held, paired.trans held, ?_⟩
    intro c scanner name handed
    exact step_closes paired handed
  · intro name refused
    obtain ⟨r, event, a, -, -, -, failed⟩ := (readForest_eq_error_iff rfl).1 refused
    unfold Assembly.finish at failed
    split at failed <;> cases failed
  · intro names
    rw [readForest_eq_error_iff rfl]
    constructor
    · intro reached
      obtain ⟨r, event, a, whole, last, fed, failed⟩ := reached
      obtain ⟨events, recorded, -⟩ := run_events whole
      rw [Assembly.finish_eq_unclosed, names_at_end whole recorded last fed] at failed
      exact ⟨r, events, event, a, whole, recorded, last, fed, failed⟩
    · intro reached
      obtain ⟨r, events, event, a, whole, recorded, last, fed, failed⟩ := reached
      refine ⟨r, event, a, whole, last, fed, ?_⟩
      rw [Assembly.finish_eq_unclosed, names_at_end whole recorded last fed]
      exact failed

/-- a text that leaves elements open -/
def leftOpen : String := "<a>x<b><c/></b><d>"

theorem openings_mirrored_leftOpen :
    let read := "<a>x<b><c/></b".toList
    (∃ r outer around, read.foldlM (step .document) initial = .ok r ∧ r.assembly.around = outer :: around ∧
        outer.name = "b" ∧ around.map OpenElement.name = ["a"]) ∧
      readForest .document leftOpen = .error (.unclosedElements ["a", "d"]) ∧
      ∃ scanner events, Scanner.events leftOpen.toList = .ok (scanner, events) ∧ openTags events = ["d", "a"] := by
  intro read
  obtain ⟨mirrored, -, unclosed⟩ := openings_mirrored .document leftOpen
  have whole : (read.foldlM (step .document) initial).toOption.isSome = true := by decide +kernel
  have made : Scanner.events read = .ok (⟨14, 11, .endTag ['b'] none, ["b", "a"]⟩,
      [.text [], .startTag "a" [], .text ['x'], .startTag "b" [], .text [], .emptyTag "c" [], .text []]) := by decide +kernel
  have refused : readForest .document leftOpen = .error (.unclosedElements ["a", "d"]) := by decide +kernel
  refine ⟨?_, refused, ?_⟩
  · obtain ⟨r, h⟩ := Option.isSome_iff_exists.1 whole
    have reached := toOption_eq_some.1 h
    obtain ⟨events, recorded, -, -, open', closes⟩ := mirrored read r reached
    obtain ⟨here, rfl⟩ := Prod.mk.inj (Except.ok.inj (recorded.symm.trans made))
    have handed : r.scanner.step '>' = .ok (⟨15, 11, .text [], ["a"]⟩, some (.endTag "b")) := by
      rw [here]
      decide +kernel
    obtain ⟨outer, around, innermost, named, -⟩ := closes '>' _ "b" handed
    rw [innermost, List.map_cons] at open'
    exact ⟨r, outer, around, reached, innermost, named, List.tail_eq_of_cons_eq open'⟩
  · obtain ⟨r, events, -, -, -, recorded, -, -, -, names⟩ := (unclosed ["a", "d"]).1 refused
    exact ⟨r.scanner, events, recorded, List.reverse_eq_iff.1 names.symm⟩

end Reader

end XmlStore.Xml
