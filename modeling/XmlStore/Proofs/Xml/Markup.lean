/-
Written markup, read again piece by piece.

`Moves shape s x y` says that a reader at `x` takes the characters `s` and comes to `y`, where positions are left out of account:
they matter for the report of a fault and for nothing else. Moves are put one after the other by `Moves.trans`.

Main statements:
- `moves_text`, `moves_open`: a run of text, and the bracket that ends it and makes it a node.
- `moves_section`: a CDATA section or a comment, from the first character of its value on.
- `moves_startTag`, `moves_emptyTag`, `moves_endTag`: tags, from after their opening bracket on.
-/
import XmlStore.Proofs.Xml.Attributes
import XmlStore.Xml.Reader

namespace XmlStore.Xml

open Text

/-- where a reader has come to, but for positions -/
structure Spot where
  scan : Scan
  /-- names of the start tags that are open, innermost first -/
  names : List String
  assembly : Assembly

def Reader.spot (r : Reader) : Spot := ⟨r.scanner.scan, r.scanner.openNames, r.assembly⟩

/-- every reader at the first place takes the characters and comes to the second -/
def Moves (shape : Shape) (s : List Char) (x y : Spot) : Prop :=
  ∀ r : Reader, r.spot = x → ∃ r', s.foldlM (Reader.step shape) r = .ok r' ∧ r'.spot = y

section Steps

variable {shape : Shape} {s t : List Char} {x y z : Spot} {c : Char}

theorem Moves.refl : Moves shape [] x x := fun r hr => ⟨r, rfl, hr⟩

theorem Moves.trans (h : Moves shape s x y) (h' : Moves shape t y z) : Moves shape (s ++ t) x z := by
  intro r hr
  obtain ⟨m, hm, hy⟩ := h r hr
  obtain ⟨r', hr', hz⟩ := h' m hy
  exact ⟨r', by rw [List.foldlM_append]; exact bind_eq_ok.2 ⟨m, hm, hr'⟩, hz⟩

theorem Moves.cons (h : Moves shape [c] x y) (h' : Moves shape t y z) : Moves shape (c :: t) x z :=
  h.trans h'

variable {scan : Scan} {names names' : List String} {a a' : Assembly}

/-- a character that the scanner goes on with -/
theorem moves_on {scan' : Scan} (h : ∀ sc : Scanner, sc.scan = scan → sc.turn c = sc.goOn scan') :
    Moves shape [c] ⟨scan, names, a⟩ ⟨scan', names, a⟩ := by
  rintro ⟨sc, b⟩ hr
  simp only [Reader.spot, Spot.mk.injEq] at hr
  obtain ⟨hs, rfl, rfl⟩ := hr
  refine ⟨⟨{ sc with scan := scan', position := sc.position + c.utf8Size }, b⟩, ?_, rfl⟩
  refine foldlM_cons_eq_ok.2 ⟨_, ?_, rfl⟩
  simp only [Reader.step, Scanner.step, h sc hs, Scanner.goOn, ok_map, ok_bind', pure_ok]

/-- a character that completes an event -/
theorem moves_event {event : Event} {scan' : Scan} (hf : a.feed shape event = .ok a')
    (h : ∀ sc : Scanner, sc.scan = scan → sc.openNames = names →
      ∃ sc', sc.turn c = .ok (sc', some event) ∧ sc'.scan = scan' ∧ sc'.openNames = names') :
    Moves shape [c] ⟨scan, names, a⟩ ⟨scan', names', a'⟩ := by
  rintro ⟨sc, b⟩ hr
  simp only [Reader.spot, Spot.mk.injEq] at hr
  obtain ⟨hs, hn, rfl⟩ := hr
  obtain ⟨sc', ht, rfl, rfl⟩ := h sc hs hn
  refine ⟨⟨{ sc' with position := sc'.position + c.utf8Size }, a'⟩, ?_, rfl⟩
  refine foldlM_cons_eq_ok.2 ⟨_, ?_, rfl⟩
  simp only [Reader.step, Scanner.step, ht, ok_map, ok_bind', hf, pure_ok]

end Steps

variable {shape : Shape} {names : List String} {a a' : Assembly}

/-! ## Text -/

theorem moves_text {s : List Char} (h : ∀ c ∈ s, c ≠ '<') (raw : List Char) :
    Moves shape s ⟨.text raw, names, a⟩ ⟨.text (s.reverse ++ raw), names, a⟩ := by
  induction s generalizing raw with
  | nil => exact Moves.refl
  | cons c s ih =>
    have hc := h c List.mem_cons_self
    have := ih (fun d hd => h d (List.mem_cons_of_mem c hd)) (c :: raw)
    rw [List.reverse_cons, List.append_assoc]
    exact (moves_on fun sc hs => by simp [Scanner.turn, hs, hc]).cons this

/-- text may stand at a place: inside an element, or anywhere in a fragment -/
def TextAllowed (shape : Shape) (around : List OpenElement) : Prop := around = [] → shape = .fragment

theorem checkInside_of_allowed (h : TextAllowed shape a.around) : a.checkInside shape = .ok () := by
  rw [Assembly.checkInside, if_neg]
  rintro ⟨ha, hs⟩
  rw [h ha] at hs
  exact absurd hs (by decide)

theorem addText_escaped {s : List Char} (hx : XmlText s) (h : TextAllowed shape a.around ∨ s.all isBlank = true) :
    a.addText shape (escapeText s) = .ok (a.add (textRun s)) := by
  simp only [Assembly.addText, resolve_escapeText, ok_mapError, ok_bind', checkChars_eq_ok.2 hx, textRun]
  by_cases hb : s.all isBlank = true
  · simp [hb, Assembly.add]
  · rcases h with h | h
    · simp [hb, checkInside_of_allowed h]
    · exact absurd h hb

theorem moves_open {s : List Char} (hx : XmlText s) (h : TextAllowed shape a.around ∨ s.all isBlank = true) :
    Moves shape ['<'] ⟨.text (escapeText s).reverse, names, a⟩ ⟨.opened, names, a.add (textRun s)⟩ := by
  have fed : a.feed shape (.text (escapeText s)) = .ok (a.add (textRun s)) := addText_escaped hx h
  refine moves_event fed ?_
  intro sc hs hn
  refine ⟨{ sc with start := sc.position, scan := .opened }, ?_, rfl, hn⟩
  simp [Scanner.turn, hs]

/-! ## CDATA sections and comments -/

/-- the scanner inside a section: it collects the value up to the mark, twice, and a closing bracket -/
structure Section (mark : Char) (scan : List Char → Scan) (event : List Char → Event) : Prop where
  ends : ∀ (sc : Scanner) (value : List Char), sc.scan = scan (mark :: mark :: value) →
    sc.turn '>' = sc.emit (event value.reverse)
  goesOn : ∀ (sc : Scanner) (value : List Char) (c : Char), sc.scan = scan value →
    (c = '>' → ∀ rest, value ≠ mark :: mark :: rest) → sc.turn c = sc.goOn (scan (c :: value))

theorem section_cdata : Section ']' .cdata .cdata where
  ends sc value hs := by simp [Scanner.turn, hs]
  goesOn sc value c hs h := by
    simp only [Scanner.turn, hs]
    split
    · exact absurd rfl (h rfl _)
    · rfl

theorem section_comment : Section '-' .comment .comment where
  ends sc value hs := by simp [Scanner.turn, hs]
  goesOn sc value c hs h := by
    simp only [Scanner.turn, hs]
    split
    · exact absurd rfl (h rfl _)
    · rfl

section Sections

variable {mark : Char} {scan : List Char → Scan} {event : List Char → Event}

theorem moves_value (hs : Section mark scan event) {value : List Char} (begun : List Char)
    (h : Unbroken mark (begun.reverse ++ value)) :
    Moves shape value ⟨scan begun, names, a⟩ ⟨scan (value.reverse ++ begun), names, a⟩ := by
  induction value generalizing begun with
  | nil => exact Moves.refl
  | cons c value ih =>
    rw [List.reverse_cons, List.append_assoc]
    refine (moves_on fun sc hsc => hs.goesOn sc begun c hsc ?_).cons (ih (c :: begun) (by simpa using h))
    rintro rfl rest rfl
    exact h ⟨rest.reverse, value, by simp⟩

/-- **The value of a section** and the end of it make its event. -/
theorem moves_section (hs : Section mark scan event) {value : List Char} (hm : mark ≠ '>') (h : Unbroken mark value)
    (hf : a.feed shape (event value) = .ok a') :
    Moves shape (value ++ [mark, mark, '>']) ⟨scan [], names, a⟩ ⟨.text [], names, a'⟩ := by
  have whole : Moves shape value ⟨scan [], names, a⟩ ⟨scan value.reverse, names, a⟩ := by
    rw [← List.append_nil value.reverse]
    exact moves_value hs [] h
  have goes : ∀ begun : List Char, Moves shape [mark] ⟨scan begun, names, a⟩ ⟨scan (mark :: begun), names, a⟩ :=
    fun begun => moves_on fun sc hsc => hs.goesOn sc begun mark hsc fun e => absurd e hm
  refine whole.trans ((goes _).cons ((goes _).cons (moves_event hf ?_)))
  intro sc hsc hn
  exact ⟨{ sc with scan := .text [] }, by rw [hs.ends sc _ hsc, List.reverse_reverse]; rfl, rfl, hn⟩

end Sections

theorem moves_bang : Moves shape ['!'] ⟨.opened, names, a⟩ ⟨.bang, names, a⟩ :=
  moves_on fun sc hsc => by simp [Scanner.turn, hsc, Scanner.afterOpening]

theorem moves_cdata {value : List Char} (h : Unbroken ']' value) (hf : a.feed shape (.cdata value) = .ok a') :
    Moves shape (['!', '[', 'C', 'D', 'A', 'T', 'A', '['] ++ (value ++ [']', ']', '>'])) ⟨.opened, names, a⟩
      ⟨.text [], names, a'⟩ := by
  refine Moves.trans ?_ (moves_section section_cdata (by decide) h hf)
  have lead : ∀ (c : Char) (rest : List Char), Moves shape [c] ⟨.lead .cdata (c :: rest), names, a⟩
      ⟨if rest = [] then .cdata [] else .lead .cdata rest, names, a⟩ :=
    fun c rest => moves_on fun sc hsc => by simp [Scanner.turn, hsc, Scanner.leadMatches, Scanner.body]
  have bracket : Moves shape ['['] ⟨.bang, names, a⟩ ⟨.lead .cdata ['C', 'D', 'A', 'T', 'A', '['], names, a⟩ :=
    moves_on fun sc hsc => by simp [Scanner.turn, hsc, Scanner.afterBang]
  refine moves_bang.cons (bracket.cons ?_)
  exact (lead _ _).cons ((lead _ _).cons ((lead _ _).cons ((lead _ _).cons ((lead _ _).cons (lead _ _)))))

theorem moves_comment {value : List Char} (h : Unbroken '-' value) (hf : a.feed shape (.comment value) = .ok a') :
    Moves shape (['!', '-', '-'] ++ (value ++ ['-', '-', '>'])) ⟨.opened, names, a⟩ ⟨.text [], names, a'⟩ := by
  refine Moves.trans ?_ (moves_section section_comment (by decide) h hf)
  have dash : Moves shape ['-'] ⟨.bang, names, a⟩ ⟨.lead .comment ['-'], names, a⟩ :=
    moves_on fun sc hsc => by simp [Scanner.turn, hsc, Scanner.afterBang]
  refine moves_bang.cons (dash.cons ?_)
  exact moves_on fun sc hsc => by simp [Scanner.turn, hsc, Scanner.leadMatches, Scanner.body]

/-! ## Tags -/

open Scanner

theorem moves_tagContent {s : List Char} (h : ∀ c ∈ s, c ≠ '>') (content : List Char) (quote : Option Char) :
    Moves shape s ⟨.tag content quote, names, a⟩ ⟨.tag (s.reverse ++ content) (s.foldl quoteAfter quote), names, a⟩ := by
  induction s generalizing content quote with
  | nil => exact Moves.refl
  | cons c s ih =>
    have hc := h c List.mem_cons_self
    rw [List.reverse_cons, List.append_assoc]
    exact (moves_on fun sc hs => by simp [turn, hs, hc]).cons
      (ih (fun d hd => h d (List.mem_cons_of_mem c hd)) (c :: content) (quoteAfter quote c))

theorem foldl_quoteAfter_name {s : List Char} (h : ∀ c ∈ s, isNameChar c = true) : s.foldl quoteAfter none = none := by
  induction s with
  | nil => rfl
  | cons c s ih =>
    have hc := h c List.mem_cons_self
    have : quoteAfter none c = none := by
      simp [quoteAfter, isNameChar_ne hc (d := '"') (by decide), isNameChar_ne hc (d := '\'') (by decide)]
    rw [List.foldl_cons, this]
    exact ih fun d hd => h d (List.mem_cons_of_mem c hd)

theorem foldl_quoteAfter_value {s : List Char} {quote : Char} (h : quote ∉ s) :
    s.foldl quoteAfter (some quote) = some quote := by
  induction s with
  | nil => rfl
  | cons c s ih =>
    have hc : c ≠ quote := fun e => h (by rw [e]; exact List.mem_cons_self)
    have : quoteAfter (some quote) c = some quote := by simp [quoteAfter, hc]
    rw [List.foldl_cons, this]
    exact ih fun hm => h (List.mem_cons_of_mem c hm)

theorem foldl_quoteAfter_renderAttribute {key : String} (hk : isName key = true) (value : String) :
    (renderAttribute key value).foldl quoteAfter none = none := by
  have hq : '"' ∉ escapeValue value.toList := fun h => (mem_escapeValue h).2.2 rfl
  have blank : quoteAfter none ' ' = none := rfl
  have opened : quoteAfter (quoteAfter none '=') '"' = some '"' := rfl
  simp only [renderAttribute, List.foldl_append, List.foldl_cons, List.foldl_nil]
  rw [blank, foldl_quoteAfter_name fun c hc => isNameChar_of_mem hk hc, opened, foldl_quoteAfter_value hq]
  rfl

theorem foldl_quoteAfter_written {attributes : Attributes} (h : ∀ b ∈ attributes, isName b.1 = true) :
    (TagReader.written attributes).foldl quoteAfter none = none := by
  induction attributes with
  | nil => rfl
  | cons b attributes ih =>
    rw [TagReader.written_cons, List.foldl_append, foldl_quoteAfter_renderAttribute (h b List.mem_cons_self)]
    exact ih fun b hb => h b (List.mem_cons_of_mem _ hb)

theorem mem_renderAttribute {key value : String} (hk : isName key = true) {c : Char} (hc : c ∈ renderAttribute key value) :
    c ≠ '>' := by
  simp only [renderAttribute, List.mem_append, List.mem_cons, List.not_mem_nil, or_false] at hc
  rcases hc with ((rfl | hc) | rfl | rfl | hc) | rfl
  · decide
  · exact isNameChar_ne (isNameChar_of_mem hk hc) (by decide)
  · decide
  · decide
  · exact (mem_escapeValue hc).2.1
  · decide

theorem mem_written {attributes : Attributes} (h : ∀ b ∈ attributes, isName b.1 = true) {c : Char}
    (hc : c ∈ TagReader.written attributes) : c ≠ '>' := by
  obtain ⟨b, hb, hc⟩ := List.mem_flatMap.1 hc
  exact mem_renderAttribute (h b hb) hc

/-- what follows the name in a written tag is nothing, or begins with a space and ends with a quote -/
theorem written_cases (attributes : Attributes) :
    TagReader.written attributes = [] ∨ ∃ s, TagReader.written attributes = ' ' :: (s ++ ['"']) := by
  induction attributes with
  | nil => exact Or.inl rfl
  | cons b attributes ih =>
    right
    obtain ⟨key, value⟩ := b
    have first : renderAttribute key value = ' ' :: (key.toList ++ '=' :: '"' :: escapeValue value.toList ++ ['"']) := by
      simp [renderAttribute]
    rw [TagReader.written_cons, first]
    rcases ih with e | ⟨s, e⟩
    · exact ⟨key.toList ++ '=' :: '"' :: escapeValue value.toList, by rw [e, List.append_nil]⟩
    · exact ⟨key.toList ++ '=' :: '"' :: escapeValue value.toList ++ ['"'] ++ ' ' :: s, by rw [e]; simp⟩

theorem takeWhile_name {s t : List Char} (h : ∀ c ∈ s, isNameChar c = true) (ht : t = [] ∨ ∃ u, t = ' ' :: u) :
    (s ++ t).takeWhile (!isMarkupBlank ·) = s ∧ (s ++ t).dropWhile (!isMarkupBlank ·) = t := by
  induction s with
  | nil => rcases ht with rfl | ⟨u, rfl⟩ <;> exact ⟨rfl, rfl⟩
  | cons c s ih =>
    have hc := isMarkupBlank_of_isNameChar (h c List.mem_cons_self)
    obtain ⟨ht, hd⟩ := ih fun d hd => h d (List.mem_cons_of_mem c hd)
    simp [hc, ht, hd]

theorem splitTag_written {name : String} (hn : isName name = true) (attributes : Attributes) :
    splitTag (name.toList ++ TagReader.written attributes) = (name, TagReader.written attributes) := by
  have ht : TagReader.written attributes = [] ∨ ∃ u, TagReader.written attributes = ' ' :: u := by
    rcases written_cases attributes with e | ⟨s, e⟩
    · exact Or.inl e
    · exact Or.inr ⟨_, e⟩
  obtain ⟨h, h'⟩ := takeWhile_name (fun c hc => isNameChar_of_mem hn hc) ht
  rw [splitTag, h, h', String.ofList_toList]

/-- the content of a written tag, taken up to before its end -/
theorem moves_tag {name : String} {attributes : Attributes} (hn : isName name = true) (ha : attributes.WellFormed) :
    Moves shape (name.toList ++ TagReader.written attributes) ⟨.opened, names, a⟩
      ⟨.tag (name.toList ++ TagReader.written attributes).reverse none, names, a⟩ := by
  obtain ⟨c, rest, e, hc, hrest⟩ := isName_cons hn
  have hc' := isNameChar_of_isNameStart hc
  have ne : c ≠ '!' ∧ c ≠ '?' ∧ c ≠ '/' ∧ c ≠ '>' :=
    ⟨isNameChar_ne hc' (by decide), isNameChar_ne hc' (by decide), isNameChar_ne hc' (by decide),
      isNameChar_ne hc' (by decide)⟩
  have quote : quoteAfter none c = none := foldl_quoteAfter_name (s := [c]) (by simpa using hc')
  have fold : (rest ++ TagReader.written attributes).foldl quoteAfter none = none := by
    rw [List.foldl_append, foldl_quoteAfter_name hrest, foldl_quoteAfter_written ha.names]
  have inside : ∀ d ∈ rest ++ TagReader.written attributes, d ≠ '>' := by
    intro d hd
    rcases List.mem_append.1 hd with hd | hd
    · exact isNameChar_ne (hrest d hd) (by decide)
    · exact mem_written ha.names hd
  have tail : Moves shape (rest ++ TagReader.written attributes) ⟨.tag [c] none, names, a⟩
      ⟨.tag ((rest ++ TagReader.written attributes).reverse ++ [c])
        ((rest ++ TagReader.written attributes).foldl quoteAfter none), names, a⟩ :=
    moves_tagContent inside [c] none
  rw [fold] at tail
  rw [e, List.cons_append, List.reverse_cons]
  exact (moves_on fun sc hs => by simp [turn, hs, afterOpening, ne, quote]).cons tail

theorem turn_close {sc : Scanner} {content : List Char} (hs : sc.scan = .tag content none) :
    sc.turn '>' = sc.endOfTag content := by
  simp [turn, hs]

/-- the last character of what is written in a tag is one of the name or a quote, so no slash -/
theorem reverse_tag_ne_slash {name : String} (hn : isName name = true) (attributes : Attributes) (rest : List Char) :
    (name.toList ++ TagReader.written attributes).reverse ≠ '/' :: rest := by
  intro h
  have hm := congrArg List.reverse h
  rw [List.reverse_reverse, List.reverse_cons] at hm
  rcases written_cases attributes with e | ⟨s, e⟩
  · rw [e, List.append_nil] at hm
    have slash : '/' ∈ name.toList := by rw [hm]; simp
    exact isNameChar_ne (isNameChar_of_mem hn slash) (d := '/') (by decide) rfl
  · rw [e, ← List.cons_append, ← List.append_assoc] at hm
    exact absurd (List.append_inj_right' hm rfl) (by decide)

/-- **A written start tag** opens its element. -/
theorem moves_startTag {name : String} {attributes : Attributes} (hn : isName name = true) (ha : attributes.WellFormed) :
    Moves shape (name.toList ++ TagReader.written attributes ++ ['>']) ⟨.opened, names, a⟩
      ⟨.text [], name :: names, ⟨.nil, ⟨name, attributes, a.here⟩ :: a.around⟩⟩ := by
  have fed : a.feed shape (.startTag name (TagReader.written attributes)) =
      .ok ⟨.nil, ⟨name, attributes, a.here⟩ :: a.around⟩ := by
    simp [Assembly.feed, readAttributes_written hn ha]
  refine (moves_tag hn ha).trans (moves_event fed ?_)
  intro sc hs hnames
  refine ⟨{ sc with scan := .text [], openNames := name :: names }, ?_, rfl, rfl⟩
  rw [turn_close hs]
  unfold endOfTag
  split
  · rename_i h; exact absurd h (reverse_tag_ne_slash hn attributes _)
  · rw [List.reverse_reverse, splitTag_written hn, hnames]; rfl

/-- **A written empty tag** adds an element with nothing in it. -/
theorem moves_emptyTag {name : String} {attributes : Attributes} (hn : isName name = true) (ha : attributes.WellFormed) :
    Moves shape (name.toList ++ TagReader.written attributes ++ ['/', '>']) ⟨.opened, names, a⟩
      ⟨.text [], names, a.add (.element () name attributes .nil .nil)⟩ := by
  have fed : a.feed shape (.emptyTag name (TagReader.written attributes)) =
      .ok (a.add (.element () name attributes .nil .nil)) := by
    simp [Assembly.feed, readAttributes_written hn ha]
  have slash : Moves shape ['/'] ⟨.tag (name.toList ++ TagReader.written attributes).reverse none, names, a⟩
      ⟨.tag ('/' :: (name.toList ++ TagReader.written attributes).reverse) none, names, a⟩ :=
    moves_tagContent (by simp) _ none
  refine (moves_tag hn ha).trans (slash.cons (moves_event fed ?_))
  intro sc hs hnames
  refine ⟨{ sc with scan := .text [] }, ?_, rfl, hnames⟩
  rw [turn_close hs]
  simp only [endOfTag, List.reverse_reverse, splitTag_written hn]
  rfl

theorem moves_endContent {s : List Char} (h : ∀ c ∈ s, isNameChar c = true) (content : List Char) :
    Moves shape s ⟨.endTag content none, names, a⟩ ⟨.endTag (s.reverse ++ content) none, names, a⟩ := by
  induction s generalizing content with
  | nil => exact Moves.refl
  | cons c s ih =>
    have hc := h c List.mem_cons_self
    have quote : quoteAfter none c = none := foldl_quoteAfter_name (s := [c]) (by simpa using hc)
    rw [List.reverse_cons, List.append_assoc]
    exact (moves_on fun sc hs => by simp [turn, hs, isNameChar_ne hc (d := '>') (by decide), quote]).cons
      (ih (fun d hd => h d (List.mem_cons_of_mem c hd)) (c :: content))

theorem endTagName_reverse {name : String} (hn : isName name = true) : endTagName name.toList.reverse = name := by
  have first : name.toList.reverse.dropWhile isMarkupBlank = name.toList.reverse := by
    cases h : name.toList.reverse with
    | nil => rfl
    | cons c rest =>
      have hm : c ∈ name.toList := by rw [← List.mem_reverse, h]; exact List.mem_cons_self
      rw [List.dropWhile_cons, isMarkupBlank_of_isNameChar (isNameChar_of_mem hn hm)]
      rfl
  unfold endTagName
  rw [first]
  split
  · rw [List.reverse_reverse, String.ofList_toList]
  · rw [List.reverse_reverse, String.ofList_toList]

/-- **A written end tag** closes the innermost element, if that is the one of its name. -/
theorem moves_endTag {name : String} {outer : OpenElement} {around : List OpenElement} {here : Forest Unit}
    (hn : isName name = true) :
    Moves shape ('/' :: name.toList ++ ['>']) ⟨.opened, name :: names, ⟨here, outer :: around⟩⟩
      ⟨.text [], names, ⟨outer.before.append (.element () outer.name outer.attributes here .nil), around⟩⟩ := by
  have content : Moves shape name.toList ⟨.endTag [] none, name :: names, ⟨here, outer :: around⟩⟩
      ⟨.endTag name.toList.reverse none, name :: names, ⟨here, outer :: around⟩⟩ := by
    rw [← List.append_nil name.toList.reverse]
    exact moves_endContent (fun c hc => isNameChar_of_mem hn hc) []
  have fed : Assembly.feed shape ⟨here, outer :: around⟩ (.endTag name) =
      .ok ⟨outer.before.append (.element () outer.name outer.attributes here .nil), around⟩ := rfl
  refine (Moves.cons (moves_on fun sc hs => by simp [turn, hs, afterOpening]) content).trans
    (moves_event fed fun sc hs hnames => ?_)
  refine ⟨{ sc with scan := .text [], openNames := names }, ?_, rfl, rfl⟩
  simp [turn, hs, endOfEndTag, endTagName_reverse hn, hnames, emit]

end XmlStore.Xml
