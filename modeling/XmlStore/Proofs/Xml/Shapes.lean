/-
Documents and fragments.

A text is read in the same way whether a document or a fragment is asked for, but that a document has no text outside its root. So a
reader of documents goes in step with a reader of fragments until that one puts a text among the outermost nodes, and stops there; and
at the end of the text the outermost elements have still to be counted. What is outermost stays so, and tells at the end whether the
two have parted.

Main statements:
- `Reader.run_document`: what a reader of documents comes to where a reader of fragments comes to a forest.
- `Document.parse_iff_parseFragment`: documents are the fragments with one element outermost and no text, and any other fragment is
  refused as a document for just that.
-/
import XmlStore.Proofs.Xml.Ends
import XmlStore.Proofs.Xml.Indentation

namespace XmlStore.Xml

theorem Forest.hasText_append {ι : Type} (f g : Forest ι) : (f.append g).hasText = (f.hasText || g.hasText) := by
  induction f with
  | nil => rfl
  | leaf mark kind value next ih => rw [append, hasText, hasText, ih, Bool.or_assoc]
  | element mark name attributes children next _ ihn => exact ihn

/-! ## Going in step -/

/-- what a reader of documents comes to where a reader of fragments has come to `a`: the same, unless there is text outermost now that
was not there `before` -/
def InStep {α : Type} (outerText : α → Bool) (before : Bool) (document : Except XmlError α) (a : α) : Prop :=
  ∃ added, outerText a = (before || added) ∧ document = if added then .error .textOutsideRoot else .ok a

namespace InStep

variable {α β : Type} {outerText : α → Bool} {outerText' : β → Bool} {before : Bool} {a : α} {b : β}

theorem of_kept (kept : outerText a = before) : InStep outerText before (.ok a) a :=
  ⟨false, by rw [kept, Bool.or_false], rfl⟩

theorem bind {document : Except XmlError α} {next : α → Except XmlError β} (h : InStep outerText before document a)
    (h' : InStep outerText' (outerText a) (next a) b) : InStep outerText' before (document >>= next) b := by
  obtain ⟨added, after, rfl⟩ := h
  obtain ⟨added', after', last⟩ := h'
  refine ⟨added || added', by rw [after', after, Bool.or_assoc], ?_⟩
  cases added with
  | true => rfl
  | false => exact last

end InStep

namespace Assembly

variable {a a' : Assembly} {event : Event}

/-- whether there is text among the outermost nodes so far -/
def outerText (a : Assembly) : Bool :=
  (outermost a.here a.around).hasText

theorem outerText_add (a : Assembly) (more : Forest Unit) :
    (a.add more).outerText = (a.outerText || (decide (a.around = []) && more.hasText)) := by
  obtain ⟨here, around⟩ := a
  cases around with
  | nil => simp [outerText, outermost, add, Forest.hasText_append]
  | cons outer around => simp [outerText, outermost, add]

theorem checkInside_fragment (a : Assembly) : a.checkInside .fragment = .ok () :=
  if_neg fun outside => nomatch outside.2

theorem checkInside_document (a : Assembly) :
    a.checkInside .document = if decide (a.around = []) then .error .textOutsideRoot else .ok () := by
  simp [checkInside]

/-- text is put where the assembly has come to, unless that is outermost in a document -/
theorem inStep_addLeaf (a : Assembly) {kind : LeafKind} (text : kind.isText = true) (value : String) :
    InStep outerText a.outerText (a.checkInside .document >>= fun _ => .ok (a.add (.leaf () kind value .nil)))
      (a.add (.leaf () kind value .nil)) := by
  refine ⟨decide (a.around = []), ?_, ?_⟩
  · rw [outerText_add, Forest.hasText, text, Bool.true_or, Bool.and_true]
  · rw [checkInside_document]
    split <;> rfl

/-- **One event** is taken by both alike, unless it is a text outermost. -/
theorem inStep_feed (h : a.feed .fragment event = .ok a') : InStep outerText a.outerText (a.feed .document event) a' := by
  cases event with
  | startTag name rest =>
    obtain ⟨attributes, read, e⟩ := bind_eq_ok.1 h
    cases e
    rw [feed, read]
    exact .of_kept rfl
  | emptyTag name rest =>
    obtain ⟨attributes, read, e⟩ := bind_eq_ok.1 h
    cases e
    rw [feed, read]
    exact .of_kept (by simp [outerText_add, Forest.hasText])
  | endTag name =>
    obtain ⟨here, around⟩ := a
    cases around with
    | nil => cases h
    | cons outer around =>
      cases h
      exact .of_kept ((⟨outer.before, around⟩ : Assembly).outerText_add _ |>.trans (by simp [Forest.hasText, outerText, outermost]))
  | text raw =>
    simp only [feed, addText, bind_eq_ok] at h
    obtain ⟨value, resolved, _, legal, h⟩ := h
    simp only [feed, addText, resolved, legal, ok_bind']
    by_cases blank : value.all Text.isBlank = true
    · rw [if_pos blank] at h ⊢
      cases h
      exact .of_kept rfl
    · rw [if_neg blank, checkInside_fragment] at h
      cases h
      rw [if_neg blank]
      exact a.inStep_addLeaf rfl _
  | cdata value =>
    simp only [feed, checkInside_fragment, ok_bind', bind_eq_ok] at h
    obtain ⟨_, legal, e⟩ := h
    cases e
    simp only [feed, legal, ok_bind']
    exact a.inStep_addLeaf rfl _
  | comment value =>
    obtain ⟨_, legal, e⟩ := bind_eq_ok.1 h
    cases e
    rw [feed, legal]
    exact .of_kept (by simp [outerText_add, Forest.hasText, LeafKind.isText])
  | skipped =>
    cases h
    exact .of_kept rfl

/-- what is taken for a document is taken for a fragment -/
theorem feed_of_document (h : a.feed .document event = .ok a') : a.feed .fragment event = .ok a' := by
  cases event with
  | text raw =>
    simp only [feed, addText, bind_eq_ok] at h ⊢
    obtain ⟨value, resolved, _, legal, h⟩ := h
    refine ⟨value, resolved, _, legal, ?_⟩
    by_cases blank : value.all Text.isBlank = true
    · rw [if_pos blank] at h ⊢
      exact h
    · rw [if_neg blank] at h
      obtain ⟨_, -, h⟩ := bind_eq_ok.1 h
      rw [if_neg blank, checkInside_fragment]
      exact h
  | cdata value =>
    obtain ⟨_, -, h⟩ := bind_eq_ok.1 h
    rw [feed, checkInside_fragment]
    exact h
  | _ => exact h

end Assembly

/-! ## Whole texts -/

namespace Reader

variable {r r' : Reader} {c : Char} {s : List Char} {f : Forest Unit}

/-- whether there is text among the outermost nodes so far -/
def outerText (r : Reader) : Bool :=
  r.assembly.outerText

theorem inStep_step (h : r.step .fragment c = .ok r') : InStep outerText r.outerText (r.step .document c) r' := by
  obtain ⟨⟨scanner, event⟩, scanned, h⟩ := bind_eq_ok.1 h
  simp only [step, scanned, ok_bind']
  cases event with
  | none =>
    cases h
    exact .of_kept rfl
  | some event =>
    obtain ⟨assembly, fed, e⟩ := bind_eq_ok.1 h
    cases e
    exact (Assembly.inStep_feed fed).bind (.of_kept rfl)

theorem step_of_document (h : r.step .document c = .ok r') : r.step .fragment c = .ok r' := by
  obtain ⟨⟨scanner, event⟩, scanned, h⟩ := bind_eq_ok.1 h
  simp only [step, scanned, ok_bind']
  cases event with
  | none => exact h
  | some event =>
    obtain ⟨assembly, fed, e⟩ := bind_eq_ok.1 h
    exact bind_eq_ok.2 ⟨assembly, Assembly.feed_of_document fed, e⟩

theorem inStep_foldlM (h : s.foldlM (step .fragment) r = .ok r') :
    InStep outerText r.outerText (s.foldlM (step .document) r) r' := by
  induction s generalizing r with
  | nil =>
    cases h
    exact .of_kept rfl
  | cons c s ih =>
    obtain ⟨middle, stepped, h⟩ := foldlM_cons_eq_ok.1 h
    rw [List.foldlM_cons]
    exact (inStep_step stepped).bind (ih h)

theorem foldlM_of_document (h : s.foldlM (step .document) r = .ok r') : s.foldlM (step .fragment) r = .ok r' := by
  induction s generalizing r with
  | nil => exact h
  | cons c s ih =>
    obtain ⟨middle, stepped, h⟩ := foldlM_cons_eq_ok.1 h
    exact foldlM_cons_eq_ok.2 ⟨middle, step_of_document stepped, ih h⟩

theorem inStep_finish (h : r.finish .fragment = .ok f) : InStep Forest.hasText r.outerText (r.finish .document) f := by
  obtain ⟨event, ended, h⟩ := bind_eq_ok.1 h
  obtain ⟨a, fed, h⟩ := bind_eq_ok.1 h
  rw [finish, ended, ok_bind']
  refine (Assembly.inStep_feed fed).bind ?_
  rw [h]
  unfold Assembly.finish at h
  split at h
  · rename_i closed
    cases h
    exact .of_kept (by rw [Assembly.outerText, closed]; rfl)
  · cases h

/-- **What a reader of documents comes to** where a reader of fragments comes to a forest: the same, unless that has text outermost. -/
theorem run_document (h : run .fragment s = .ok f) :
    run .document s = if f.hasText then .error .textOutsideRoot else .ok f := by
  obtain ⟨r, folded, finished⟩ := bind_eq_ok'.1 h
  obtain ⟨added, text, document⟩ := (inStep_foldlM folded).bind (inStep_finish finished)
  have start : initial.outerText = false := rfl
  rw [start, Bool.false_or] at text
  rw [text]
  exact document

theorem run_of_document (h : run .document s = .ok f) : run .fragment s = .ok f := by
  obtain ⟨r, folded, finished⟩ := bind_eq_ok'.1 h
  obtain ⟨event, ended, h⟩ := bind_eq_ok.1 finished
  obtain ⟨a, fed, closed⟩ := bind_eq_ok.1 h
  refine bind_eq_ok'.2 ⟨r, foldlM_of_document folded, ?_⟩
  exact bind_eq_ok.2 ⟨event, ended, bind_eq_ok.2 ⟨a, Assembly.feed_of_document fed, closed⟩⟩

end Reader

/-- what a text stands for as a document, where it stands for a forest as a fragment -/
theorem readForest_document {text : String} {f : Forest Unit} (h : readForest .fragment text = .ok f) :
    readForest .document text =
      if f.hasText then .error .textOutsideRoot else (checkShape f .document).map fun _ => f := by
  obtain ⟨g, read, h⟩ := bind_eq_ok.1 h
  obtain ⟨_, -, e⟩ := bind_eq_ok.1 h
  cases e
  rw [readForest, Reader.run_document read]
  by_cases text : f.hasText = true
  · rw [if_pos text, if_pos text]
    rfl
  · rw [if_neg text, if_neg text, ok_bind']
    rfl

theorem readForest_of_document {text : String} {f : Forest Unit} (h : readForest .document text = .ok f) :
    readForest .fragment text = .ok f := by
  obtain ⟨g, read, h⟩ := bind_eq_ok.1 h
  obtain ⟨_, one, e⟩ := bind_eq_ok.1 h
  cases e
  have some : Shape.fragment.Admits f.elements.length := by
    have single : f.elements.length = 1 := checkShape_eq_ok.1 one
    rw [single]
    exact Nat.one_ne_zero
  rw [readForest, Reader.run_of_document read, ok_bind', checkShape_eq_ok.2 some]
  rfl

namespace Document

theorem hasText_ofForest (f : Forest Unit) : (ofForest f).attached.hasText = f.hasText := by
  rw [← Forest.hasText_erase, ofForest, f.erase_number]

theorem elements_ofForest (f : Forest Unit) :
    f.elements = (ofForest f).attached.elements.map (Element.recast (fun _ => ()) Forest.erase) := by
  rw [← recasts_erase.elements, ofForest, f.erase_number]

/-- **Documents are fragments** with one element outermost and no text beside it: where a text stands for such a fragment it stands for
the same document, with the same numbers, and for no other document. Any other fragment is refused as a document, and for what is
outermost in it: for text, if there is any, and for the second element if there is none. -/
theorem parse_iff_parseFragment (text : String) :
    (∀ d, parse text = .ok d ↔
      parseFragment text = .ok d ∧ d.attached.hasText = false ∧ ∃ root, d.attached.elements = [root]) ∧
      ∀ d error, parseFragment text = .ok d → parse text = .error error →
        (d.attached.hasText = true ∧ error = .textOutsideRoot) ∨
          (d.attached.hasText = false ∧ ∃ first second rest, d.attached.elements = first :: second :: rest ∧
            error = .multipleRoots second.name) := by
  refine ⟨fun d => ⟨fun h => ?_, ?_⟩, ?_⟩
  · obtain ⟨f, read, rfl⟩ := map_eq_ok.1 h
    obtain ⟨-, noBlanks, bare, one⟩ := readForest_sound read
    have single : (ofForest f).attached.elements.length = 1 := by
      rw [elements_ofForest, List.length_map] at one
      exact one
    refine ⟨map_eq_ok.2 ⟨f, readForest_of_document read, rfl⟩, ?_, List.length_eq_one_iff.1 single⟩
    rw [hasText_ofForest]
    exact Forest.hasText_of_bare (bare rfl) noBlanks
  · rintro ⟨h, noText, root, only⟩
    obtain ⟨f, read, rfl⟩ := map_eq_ok.1 h
    rw [hasText_ofForest] at noText
    have one : checkShape f .document = .ok () := by
      rw [checkShape_eq_ok, elements_ofForest, only]
      rfl
    rw [parse, readForest_document read, noText, one]
    rfl
  · intro d error h refused
    obtain ⟨f, read, rfl⟩ := map_eq_ok.1 h
    obtain ⟨-, -, -, some⟩ := readForest_sound read
    have reason := map_eq_error.1 refused
    rw [readForest_document read] at reason
    rw [hasText_ofForest]
    by_cases text : f.hasText = true
    · rw [if_pos text] at reason
      cases reason
      exact Or.inl ⟨text, rfl⟩
    · rw [if_neg text, map_eq_error] at reason
      rw [elements_ofForest, List.length_map] at some
      refine Or.inr ⟨Bool.not_eq_true _ ▸ text, ?_⟩
      unfold checkShape at reason
      rw [elements_ofForest] at reason
      rcases outermost : (ofForest f).attached.elements with _ | ⟨first, _ | ⟨second, rest⟩⟩
      · rw [outermost] at some
        exact absurd rfl some
      · rw [outermost] at reason
        cases reason
      · rw [outermost] at reason
        cases reason
        exact ⟨first, second, rest, rfl, rfl⟩

theorem parse_iff_parseFragment_shapes :
    let inner : Forest Unit := .element () "a" [] (.leaf () .text "x" .nil) .nil
    let single := ofForest (.leaf () .comment "c" inner)
    let double := ofForest (.element () "b" [] .nil inner)
    let mixed := ofForest (.leaf () .cdata "" inner)
    (parse "<?p?>\n<!--c--><a>x</a> " = .ok single ∧ parseFragment "<?p?>\n<!--c--><a>x</a> " = .ok single) ∧
      (parseFragment "<b/> <a>x</a>" = .ok double ∧ parse "<b/> <a>x</a>" = .error (.multipleRoots "a") ∧
        double.attached.hasText = false) ∧
      parseFragment "<![CDATA[]]><a>x</a>" = .ok mixed ∧ parse "<![CDATA[]]><a>x</a>" = .error .textOutsideRoot ∧
        mixed.attached.hasText = true := by
  intro inner single double mixed
  have fragment : parseFragment "<?p?>\n<!--c--><a>x</a> " = .ok single := by decide +kernel
  have document : parse "<?p?>\n<!--c--><a>x</a> " = .ok single :=
    ((parse_iff_parseFragment _).1 single).2 ⟨fragment, rfl, _, rfl⟩
  have two : parseFragment "<b/> <a>x</a>" = .ok double := by decide +kernel
  have twice : parse "<b/> <a>x</a>" = .error (.multipleRoots "a") := by decide +kernel
  have text : parseFragment "<![CDATA[]]><a>x</a>" = .ok mixed := by decide +kernel
  have outside : parse "<![CDATA[]]><a>x</a>" = .error .textOutsideRoot := by decide +kernel
  refine ⟨⟨document, fragment⟩, ⟨two, twice, ?_⟩, text, outside, ?_⟩
  · rcases (parse_iff_parseFragment _).2 double _ two twice with ⟨-, other⟩ | ⟨none, -⟩
    · cases other
    · exact none
  · rcases (parse_iff_parseFragment _).2 mixed _ text outside with ⟨some, -⟩ | ⟨-, first, second, rest, -, other⟩
    · exact some
    · cases other

end Document

end XmlStore.Xml
