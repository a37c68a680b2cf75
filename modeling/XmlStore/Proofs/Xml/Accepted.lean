/-
What the reader accepts is well formed.

`Reader.Sound` holds of a reader at every place of every text: what has been put together so far is well formed, holds no blank
text, and has no text outside the root if a document is read; and the value of an open section does not hold its end.

Main statements:
- `readForest_sound`: the forest that a text stands for is well formed and holds no blank text; that of a document has exactly
  one element outermost, and no text.
- `readForest_size`: it has no more nodes than the text has characters, but for one.
-/
import XmlStore.Proofs.Xml.Attributes
import XmlStore.Proofs.Xml.Forest
import XmlStore.Xml.Reader

namespace XmlStore.Xml

open Text

/-! ## Content put together -/

namespace Forest

variable {ι : Type}

theorem wellFormed_append {f g : Forest ι} : (f.append g).WellFormed ↔ f.WellFormed ∧ g.WellFormed := by
  induction f with
  | nil => simp [append, WellFormed]
  | leaf mark kind value next ih => simp [append, WellFormed, ih, and_assoc]
  | element mark name attributes children next _ ihn => simp [append, WellFormed, ihn, and_assoc]

theorem noBlanks_append {f g : Forest ι} : (f.append g).NoBlanks ↔ f.NoBlanks ∧ g.NoBlanks := by
  induction f with
  | nil => simp [append, NoBlanks]
  | leaf mark kind value next ih => simp [append, NoBlanks, ih, and_assoc]
  | element mark name attributes children next _ ihn => simp [append, NoBlanks, ihn, and_assoc]

theorem bare_append {f g : Forest ι} : (f.append g).Bare ↔ f.Bare ∧ g.Bare := by
  induction f with
  | nil => simp [append, Bare]
  | leaf mark kind value next ih => cases kind <;> simp [append, Bare, ih, and_assoc]
  | element mark name attributes children next _ ihn => simp [append, Bare, ihn]

end Forest

/-- the outermost siblings read so far -/
def outermost (here : Forest Unit) : List OpenElement → Forest Unit
  | [] => here
  | o :: around => outermost o.before around

theorem bare_outermost_append {here more : Forest Unit} {around : List OpenElement} (h : (outermost here around).Bare)
    (hm : around = [] → more.Bare) : (outermost (here.append more) around).Bare := by
  cases around with
  | nil => exact Forest.bare_append.2 ⟨h, hm rfl⟩
  | cons o around => exact h

/-- what holds of an open element -/
structure OpenElement.Sound (o : OpenElement) : Prop where
  name : isName o.name = true
  attributes : o.attributes.WellFormed
  before : o.before.WellFormed
  noBlanks : o.before.NoBlanks

/-- what holds of a forest in the making -/
structure Assembly.Sound (shape : Shape) (a : Assembly) : Prop where
  here : a.here.WellFormed
  noBlanks : a.here.NoBlanks
  around : ∀ o ∈ a.around, o.Sound
  bare : shape = .document → (outermost a.here a.around).Bare

/-- what the scanner makes sure of for its events -/
def Event.Sound : Event → Prop
  | .cdata value => Unbroken ']' value
  | .comment value => Unbroken '-' value
  | _ => True

namespace Assembly

variable {shape : Shape} {a a' : Assembly}

theorem Sound.add (h : a.Sound shape) {more : Forest Unit} (hw : more.WellFormed) (hb : more.NoBlanks)
    (ht : shape = .document → a.around = [] → more.Bare) : (a.add more).Sound shape :=
  ⟨Forest.wellFormed_append.2 ⟨h.here, hw⟩, Forest.noBlanks_append.2 ⟨h.noBlanks, hb⟩, h.around,
    fun hs => bare_outermost_append (h.bare hs) (ht hs)⟩

theorem not_outside_of_checkInside {u : Unit} (h : a.checkInside shape = .ok u) :
    shape = .document → a.around ≠ [] := by
  intro hs ha
  simp [checkInside, hs, ha] at h

theorem addText_sound {raw : List Char} (h : a.Sound shape) (ht : a.addText shape raw = .ok a') : a'.Sound shape := by
  simp only [addText, bind_eq_ok, mapError_eq_ok] at ht
  obtain ⟨value, _, _, hx, ht⟩ := ht
  split at ht
  · cases ht; exact h
  · rename_i hb
    simp only [bind_eq_ok, pure_ok, Except.ok.injEq] at ht
    obtain ⟨_, hi, rfl⟩ := ht
    refine h.add ⟨?_, trivial⟩ ⟨fun _ => ?_, trivial⟩ fun hs ha => absurd ha (not_outside_of_checkInside hi hs)
    · simpa [LeafKind.WellFormed] using checkChars_eq_ok.1 hx
    · simpa using hb

theorem feed_sound {event : Event} (h : a.Sound shape) (he : event.Sound) (hf : a.feed shape event = .ok a') :
    a'.Sound shape := by
  cases event with
  | startTag name rest =>
    simp only [feed, bind_eq_ok, pure_ok, Except.ok.injEq] at hf
    obtain ⟨attributes, ha, rfl⟩ := hf
    obtain ⟨hn, hw⟩ := wellFormed_of_readAttributes ha
    refine ⟨trivial, trivial, ?_, h.bare⟩
    intro o ho
    rcases List.mem_cons.1 ho with rfl | ho
    · exact ⟨hn, hw, h.here, h.noBlanks⟩
    · exact h.around o ho
  | emptyTag name rest =>
    simp only [feed, bind_eq_ok, pure_ok, Except.ok.injEq] at hf
    obtain ⟨attributes, ha, rfl⟩ := hf
    obtain ⟨hn, hw⟩ := wellFormed_of_readAttributes ha
    exact h.add ⟨hn, hw, trivial, trivial⟩ ⟨trivial, trivial⟩ fun _ _ => trivial
  | endTag name =>
    obtain ⟨here, around⟩ := a
    cases around with
    | nil => simp [feed] at hf
    | cons outer around =>
      simp only [feed, Except.ok.injEq] at hf
      subst hf
      have ho := h.around outer List.mem_cons_self
      refine ⟨?_, ?_, fun o hm => h.around o (List.mem_cons_of_mem _ hm), fun hs => ?_⟩
      · exact Forest.wellFormed_append.2 ⟨ho.before, ho.name, ho.attributes, h.here, trivial⟩
      · exact Forest.noBlanks_append.2 ⟨ho.noBlanks, h.noBlanks, trivial⟩
      · exact bare_outermost_append (h.bare hs) fun _ => trivial
  | text raw => exact addText_sound h hf
  | cdata value =>
    simp only [feed, bind_eq_ok, pure_ok, Except.ok.injEq] at hf
    obtain ⟨_, hi, _, hx, rfl⟩ := hf
    refine h.add ⟨⟨?_, ?_⟩, trivial⟩ ⟨fun hk => absurd hk (by decide), trivial⟩
      fun hs ha => absurd ha (not_outside_of_checkInside hi hs)
    · simpa using checkChars_eq_ok.1 hx
    · simpa [Event.Sound] using he
  | comment value =>
    simp only [feed, bind_eq_ok, pure_ok, Except.ok.injEq] at hf
    obtain ⟨_, hx, rfl⟩ := hf
    refine h.add ⟨⟨?_, ?_⟩, trivial⟩ ⟨fun hk => absurd hk (by decide), trivial⟩ fun _ _ => trivial
    · simpa using checkChars_eq_ok.1 hx
    · simpa [Event.Sound] using he
  | skipped =>
    simp only [feed, Except.ok.injEq] at hf
    rw [← hf]; exact h

end Assembly

/-! ## The scanner -/

/-- what holds of what the scanner is in the middle of -/
def Scan.Sound : Scan → Prop
  | .cdata value => Unbroken ']' value.reverse
  | .comment value => Unbroken '-' value.reverse
  | _ => True

theorem unbroken_nil (mark : Char) : Unbroken mark [] := by
  simp [Unbroken]

theorem Unbroken.cons {mark c : Char} {value : List Char} (h : Unbroken mark value.reverse)
    (hc : c = '>' → ∀ rest, value ≠ mark :: mark :: rest) : Unbroken mark (c :: value).reverse := by
  intro hi
  have hr : ['>', mark, mark] <:+: c :: value := by
    have := List.reverse_infix.2 hi
    simpa using this
  rcases List.infix_cons_iff.1 hr with hp | hi'
  · obtain ⟨rest, e⟩ := hp
    simp only [List.cons_append, List.nil_append, List.cons.injEq] at e
    exact hc e.1.symm rest e.2.symm
  · refine h ?_
    have := List.reverse_infix.2 hi'
    simpa using this

theorem Unbroken.drop {mark : Char} {value : List Char} (h : Unbroken mark (mark :: mark :: value).reverse) :
    Unbroken mark value.reverse := by
  intro hi
  exact h (hi.trans ⟨[], [mark, mark], by simp⟩)

namespace Scanner

/-- a step that keeps what holds of the scanner, and whose event is sound -/
def Keeps (result : Except XmlError (Scanner × Option Event)) : Prop :=
  ∀ sc event, result = .ok (sc, event) → sc.scan.Sound ∧ ∀ e ∈ event, e.Sound

theorem keeps_fail (sc : Scanner) (fault : SyntaxFault) : Keeps (sc.fail fault) := by
  intro _ _ h
  simp [fail] at h

theorem keeps_goOn {sc : Scanner} {scan : Scan} (h : scan.Sound) : Keeps (sc.goOn scan) := by
  rintro _ _ e
  simp only [goOn, Except.ok.injEq, Prod.mk.injEq] at e
  obtain ⟨rfl, rfl⟩ := e
  exact ⟨h, by simp⟩

theorem keeps_emit {sc : Scanner} {event : Event} (h : event.Sound) : Keeps (sc.emit event) := by
  rintro _ _ e
  simp only [emit, Except.ok.injEq, Prod.mk.injEq] at e
  obtain ⟨rfl, rfl⟩ := e
  exact ⟨trivial, by simpa using h⟩

theorem body_sound (kind : Markup) : (body kind).Sound := by
  cases kind <;> simp [body, Scan.Sound, unbroken_nil]

theorem keeps_endOfTag (sc : Scanner) (content : List Char) : Keeps (sc.endOfTag content) := by
  unfold endOfTag
  split
  · exact keeps_emit trivial
  · exact keeps_emit trivial

theorem keeps_endOfEndTag (sc : Scanner) (content : List Char) : Keeps (sc.endOfEndTag content) := by
  unfold endOfEndTag
  dsimp only
  split
  · exact keeps_fail _ _
  · split
    · exact keeps_emit trivial
    · exact keeps_fail _ _

theorem keeps_afterOpening (sc : Scanner) (c : Char) : Keeps (sc.afterOpening c) := by
  unfold afterOpening
  by_cases bang : c = '!'
  · rw [if_pos bang]; exact keeps_goOn trivial
  by_cases question : c = '?'
  · rw [if_neg bang, if_pos question]; exact keeps_goOn trivial
  by_cases slash : c = '/'
  · rw [if_neg bang, if_neg question, if_pos slash]; exact keeps_goOn trivial
  rw [if_neg bang, if_neg question, if_neg slash]
  split
  · exact keeps_endOfTag sc []
  · exact keeps_goOn trivial

theorem keeps_afterBang (sc : Scanner) (c : Char) : Keeps (sc.afterBang c) := by
  unfold afterBang
  by_cases comment : c = '-'
  · rw [if_pos comment]; exact keeps_goOn trivial
  by_cases cdata : c = '['
  · rw [if_neg comment, if_pos cdata]; exact keeps_goOn trivial
  rw [if_neg comment, if_neg cdata]
  split
  · exact keeps_goOn trivial
  · exact keeps_fail _ _

/-- **One more character** keeps what holds of the scanner. -/
theorem turn_keeps {sc : Scanner} (c : Char) (h : sc.scan.Sound) : Keeps (sc.turn c) := by
  unfold turn
  cases hs : sc.scan with
  | text raw =>
    dsimp only
    split
    · rintro _ _ e
      simp only [Except.ok.injEq, Prod.mk.injEq] at e
      obtain ⟨rfl, rfl⟩ := e
      exact ⟨trivial, by simp [Event.Sound]⟩
    · exact keeps_goOn trivial
  | opened => exact keeps_afterOpening sc c
  | tag content quote =>
    dsimp only
    split
    · exact keeps_endOfTag sc content
    · exact keeps_goOn trivial
  | endTag content quote =>
    dsimp only
    split
    · exact keeps_endOfEndTag sc content
    · exact keeps_goOn trivial
  | bang => exact keeps_afterBang sc c
  | lead kind rest =>
    cases rest with
    | nil => exact keeps_goOn (body_sound kind)
    | cons expected rest =>
      have next : (if rest = [] then body kind else .lead kind rest).Sound := by
        split
        · exact body_sound kind
        · trivial
      dsimp only
      split
      · exact keeps_goOn next
      · exact keeps_fail _ _
  | comment value =>
    rw [hs] at h
    dsimp only
    split
    · exact keeps_emit (Unbroken.drop h)
    · rename_i hn
      exact keeps_goOn (Unbroken.cons h fun hc rest e => hn rest hc e)
  | cdata value =>
    rw [hs] at h
    dsimp only
    split
    · exact keeps_emit (Unbroken.drop h)
    · rename_i hn
      exact keeps_goOn (Unbroken.cons h fun hc rest e => hn rest hc e)
  | doctype depth blank =>
    dsimp only
    split
    · split
      · split
        · rintro _ _ e; simp at e
        · exact keeps_emit trivial
      · exact keeps_goOn trivial
    · split
      · exact keeps_goOn trivial
      · exact keeps_goOn trivial
  | question =>
    dsimp only
    split
    · exact keeps_fail _ _
    · exact keeps_goOn trivial
  | instruction asked =>
    dsimp only
    split
    · exact keeps_emit trivial
    · exact keeps_goOn trivial

theorem step_keeps {sc : Scanner} (c : Char) (h : sc.scan.Sound) : Keeps (sc.step c) := by
  intro sc' event hs
  obtain ⟨⟨turned, event'⟩, ht, e⟩ := map_eq_ok.1 hs
  simp only [Prod.mk.injEq] at e
  obtain ⟨rfl, rfl⟩ := e
  exact turn_keeps c h turned event' ht

theorem finish_sound {sc : Scanner} {event : Event} (h : sc.finish = .ok event) : event.Sound := by
  unfold finish at h
  split at h <;> simp [fail] at h
  rw [← h]; trivial

end Scanner

/-! ## The reader -/

/-- what holds of a reader at every place of every text -/
structure Reader.Sound (shape : Shape) (r : Reader) : Prop where
  scan : r.scanner.scan.Sound
  assembly : r.assembly.Sound shape

namespace Reader

variable {shape : Shape}

theorem sound_initial : initial.Sound shape where
  scan := trivial
  assembly := ⟨trivial, trivial, by simp [initial, Assembly.initial], fun _ => trivial⟩

theorem step_sound {r r' : Reader} {c : Char} (h : r.Sound shape) (hs : r.step shape c = .ok r') : r'.Sound shape := by
  simp only [step, bind_eq_ok] at hs
  obtain ⟨⟨scanner, event⟩, hsc, hs⟩ := hs
  obtain ⟨hscan, hevent⟩ := Scanner.step_keeps c h.scan scanner event hsc
  cases event with
  | none =>
    simp only [pure_ok, Except.ok.injEq] at hs
    rw [← hs]
    exact ⟨hscan, h.assembly⟩
  | some event =>
    simp only [bind_eq_ok, pure_ok, Except.ok.injEq] at hs
    obtain ⟨assembly, ha, rfl⟩ := hs
    exact ⟨hscan, Assembly.feed_sound h.assembly (hevent event rfl) ha⟩

/-- **Every forest that is read** is well formed and holds no blank text, and in a document no text is outermost. -/
theorem run_sound {s : List Char} {f : Forest Unit} (h : run shape s = .ok f) :
    f.WellFormed ∧ f.NoBlanks ∧ (shape = .document → f.Bare) := by
  obtain ⟨r, hr, hf⟩ := bind_eq_ok'.1 h
  have sound : r.Sound shape := foldlM_keeps (fun _ _ _ hb => step_sound hb) sound_initial hr
  simp only [finish, bind_eq_ok] at hf
  obtain ⟨event, he, a, ha, hf⟩ := hf
  have fed := Assembly.feed_sound sound.assembly (Scanner.finish_sound he) ha
  unfold Assembly.finish at hf
  split at hf
  · rename_i hempty
    simp only [Except.ok.injEq] at hf
    subst hf
    refine ⟨fed.here, fed.noBlanks, ?_⟩
    intro hs
    have bare := fed.bare hs
    rwa [hempty] at bare
  · simp at hf

end Reader

/-- the number of elements that a shape asks for among the outermost nodes -/
def Shape.Admits : Shape → Nat → Prop
  | .document, n => n = 1
  | .fragment, n => n ≠ 0

theorem checkShape_eq_ok {shape : Shape} {f : Forest Unit} :
    checkShape f shape = .ok () ↔ shape.Admits f.elements.length := by
  cases shape with
  | document =>
    unfold checkShape Shape.Admits
    rcases f.elements with _ | ⟨_, _ | _⟩ <;> simp
  | fragment =>
    unfold checkShape Shape.Admits
    split <;> simp_all

/-- **What a text stands for** is well formed, holds no blank text, and has the elements outermost that its shape asks for; no
text is outermost in a document. -/
theorem readForest_sound {shape : Shape} {text : String} {f : Forest Unit} (h : readForest shape text = .ok f) :
    f.WellFormed ∧ f.NoBlanks ∧ (shape = .document → f.Bare) ∧ shape.Admits f.elements.length := by
  simp only [readForest, bind_eq_ok, pure_ok, Except.ok.injEq] at h
  obtain ⟨g, hr, _, hc, rfl⟩ := h
  obtain ⟨hw, hb, hbare⟩ := Reader.run_sound hr
  exact ⟨hw, hb, hbare, checkShape_eq_ok.1 hc⟩

/-! ## How much is read -/

/-- the number of elements that are open, and of the nodes before them -/
def sizeAround : List OpenElement → Nat
  | [] => 0
  | o :: around => o.before.size + 1 + sizeAround around

/-- the number of nodes put together so far, with those that are still open -/
def Assembly.size (a : Assembly) : Nat :=
  a.here.size + sizeAround a.around

/-- an event gives one node at most -/
theorem Assembly.feed_size {shape : Shape} {a a' : Assembly} {event : Event} (h : a.feed shape event = .ok a') :
    a'.size ≤ a.size + 1 := by
  have added {node : Forest Unit} (one : node.size = 1) : (a.add node).size = a.size + 1 := by
    simp only [size, add, Forest.size_append, one]
    omega
  cases event with
  | startTag name rest =>
    simp only [feed, bind_eq_ok, pure_ok, Except.ok.injEq] at h
    obtain ⟨_, -, rfl⟩ := h
    simp only [size, Forest.size, sizeAround]
    omega
  | emptyTag name rest =>
    simp only [feed, bind_eq_ok, pure_ok, Except.ok.injEq] at h
    obtain ⟨_, -, rfl⟩ := h
    exact Nat.le_of_eq (added rfl)
  | endTag name =>
    obtain ⟨here, around⟩ := a
    cases around with
    | nil => simp [feed] at h
    | cons outer around =>
      simp only [feed, Except.ok.injEq] at h
      subst h
      simp only [size, Forest.size_append, Forest.size, sizeAround]
      omega
  | text raw =>
    simp only [feed, addText, bind_eq_ok] at h
    obtain ⟨value, -, _, -, h⟩ := h
    split at h
    · cases h
      exact Nat.le_succ _
    · simp only [bind_eq_ok, pure_ok, Except.ok.injEq] at h
      obtain ⟨_, -, rfl⟩ := h
      exact Nat.le_of_eq (added rfl)
  | cdata value =>
    simp only [feed, bind_eq_ok, pure_ok, Except.ok.injEq] at h
    obtain ⟨_, -, _, -, rfl⟩ := h
    exact Nat.le_of_eq (added rfl)
  | comment value =>
    simp only [feed, bind_eq_ok, pure_ok, Except.ok.injEq] at h
    obtain ⟨_, -, rfl⟩ := h
    exact Nat.le_of_eq (added rfl)
  | skipped =>
    simp only [feed, Except.ok.injEq] at h
    exact h ▸ Nat.le_succ _

theorem Reader.step_size {shape : Shape} {r r' : Reader} {c : Char} (h : r.step shape c = .ok r') :
    r'.assembly.size ≤ r.assembly.size + 1 := by
  simp only [step, bind_eq_ok] at h
  obtain ⟨⟨scanner, event⟩, -, h⟩ := h
  cases event with
  | none =>
    simp only [pure_ok, Except.ok.injEq] at h
    exact h ▸ Nat.le_succ _
  | some event =>
    simp only [bind_eq_ok, pure_ok, Except.ok.injEq] at h
    obtain ⟨assembly, ha, rfl⟩ := h
    exact Assembly.feed_size ha

/-- **No character gives more than one node**, and the end of the text one at most. -/
theorem readForest_size {shape : Shape} {text : String} {f : Forest Unit} (h : readForest shape text = .ok f) :
    f.size ≤ text.length + 1 := by
  simp only [readForest, bind_eq_ok, pure_ok, Except.ok.injEq] at h
  obtain ⟨g, hr, _, -, rfl⟩ := h
  obtain ⟨r, hs, hf⟩ := bind_eq_ok'.1 hr
  simp only [Reader.finish, bind_eq_ok] at hf
  obtain ⟨event, -, a, ha, hf⟩ := hf
  have read : r.assembly.size ≤ 0 + (dropMark text.toList).length :=
    foldlM_raises (fun r : Reader => r.assembly.size) (fun _ _ _ => Reader.step_size) hs
  have fed := Assembly.feed_size ha
  have shorter : (dropMark text.toList).length ≤ text.length := by
    rw [← String.length_toList]
    unfold dropMark
    split
    · rename_i rest marked
      rw [marked]
      exact Nat.le_succ _
    · exact Nat.le_refl _
  unfold Assembly.finish at hf
  split at hf
  · cases hf
    have whole : a.here.size ≤ a.size := Nat.le_add_right _ _
    omega
  · cases hf

end XmlStore.Xml
