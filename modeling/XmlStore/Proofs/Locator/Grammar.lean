/-
The grammar of locators.

A text is written for a locator by the rules below: segments after their separators, the first of a relative locator without one,
and blanks around the whole, inside brackets and around an equals sign. A place may be written in any digits that stand for it.
Each reader takes from the front of its text one part that is written by its rule, and it takes all of a part so written if what
comes after it cannot be taken for more of it.

Main statements:
- `Locator.written_of_parse`: what is read is written by the rules.
- `Locator.parse_of_written`: what is written by the rules is read, as the locator that it is written for.
- `Locator.parse_eq_ok_iff`: both together, and that every other text is refused.
-/
import XmlStore.Locator.Parser
import XmlStore.Locator.Printer
import XmlStore.Proofs.Names
import XmlStore.Proofs.Outcomes
import XmlStore.Proofs.Text.Digits
import XmlStore.Proofs.Text.Trim

namespace XmlStore

open Text

/-! ## The rules -/

/-- a literal between two quotes that are the same, with none of them in between -/
def QuotedLiteral (s : List Char) : Prop :=
  ∃ quote inner, (quote = '"' ∨ quote = '\'') ∧ quote ∉ inner ∧ s = quote :: inner ++ [quote]

/-- a literal without quotes around it, which may be empty -/
structure BareLiteral (s : List Char) : Prop where
  closed : ']' ∉ s
  unquoted : ∀ c ∈ s.head?, c ≠ '"' ∧ c ≠ '\''
  starts : StartsPlain s
  ends : EndsPlain s

/-- texts one after the other, one for each item -/
inductive Series {α : Type} (text : α → List Char → Prop) : List α → List Char → Prop where
  | nil : Series text [] []
  | cons {a : α} {as : List α} {s t : List Char} (h : text a s) (rest : Series text as t) : Series text (a :: as) (s ++ t)

/-- what is between the brackets of a predicate, without the blanks at either end -/
inductive Predicate.Body : Predicate → List Char → Prop where
  | position {place : Nat} {sign digits : List Char} (hs : sign = [] ∨ sign = ['+']) (some : digits ≠ [])
      (all : ∀ c ∈ digits, c.isDigit = true) (value : Nat.ofDigitChars 10 digits 0 = place) (one : 1 ≤ place)
      (word : place < UInt64.size) : Body (.position place) (sign ++ digits)
  | hasAttribute {name : String} (hn : isName name = true) : Body (.hasAttribute name) ('@' :: name.toList)
  | attributeEquals {name literal : String} {before after : List Char} (hn : isName name = true) (hb : Blanks before)
      (ha : Blanks after) (hl : QuotedLiteral literal.toList ∨ BareLiteral literal.toList) :
      Body (.attributeEquals name literal) ('@' :: name.toList ++ before ++ '=' :: after ++ literal.toList)

/-- a predicate in its brackets -/
inductive Predicate.Spelled (p : Predicate) : List Char → Prop where
  | mk {before body after : List Char} (hb : Blanks before) (h : p.Body body) (ha : Blanks after) :
      p.Spelled ('[' :: before ++ body ++ after ++ [']'])

/-- a name test and its predicates -/
inductive Segment.Spelled : Segment → List Char → Prop where
  | mk {axis : Axis} {name : String} {predicates : List Predicate} {s : List Char} (hn : name = "*" ∨ isName name = true)
      (hp : Series Predicate.Spelled predicates s) : Spelled ⟨axis, name, predicates⟩ (name.toList ++ s)

/-- a segment after its separator -/
inductive Segment.Step (segment : Segment) : List Char → Prop where
  | mk {s : List Char} (h : segment.Spelled s) : segment.Step (segment.axis.separator ++ s)

/-- segments after their separators, where the first of a relative locator has none and looks among the children -/
inductive Locator.Spelled : Locator → List Char → Prop where
  | absolute {segment : Segment} {segments : List Segment} {s : List Char} (h : Series Segment.Step (segment :: segments) s) :
      Spelled ⟨false, segment :: segments⟩ s
  | relative {segment : Segment} {segments : List Segment} {s t : List Char} (child : segment.axis = .child)
      (h : segment.Spelled s) (rest : Series Segment.Step segments t) : Spelled ⟨true, segment :: segments⟩ (s ++ t)

/-- a locator, and blanks around it -/
def Locator.Written (l : Locator) (text : List Char) : Prop :=
  ∃ before s after, Blanks before ∧ l.Spelled s ∧ Blanks after ∧ text = before ++ s ++ after

namespace Locator

/-! ## What is read is written by the rules -/

theorem eq_of_readName {s rest : List Char} {name : String} (h : readName s = .ok (name, rest)) :
    isName name = true ∧ s = name.toList ++ rest := by
  unfold readName at h
  split at h
  · cases h
  · rename_i c t
    split at h
    · rename_i hc
      cases h
      rw [isName, String.toList_ofList, isNameText, hc, Bool.true_and, List.all_takeWhile, List.cons_append,
        List.takeWhile_append_dropWhile]
      exact ⟨rfl, rfl⟩
    · split at h <;> cases h

theorem notMem_takeWhile (c : Char) (s : List Char) : c ∉ s.takeWhile (· ≠ c) := by
  intro h
  have other := List.all_eq_true.1 (List.all_takeWhile (p := (· ≠ c)) (l := s)) c h
  simp at other

theorem eq_of_dropWhile {c d : Char} {s rest : List Char} (h : s.dropWhile (· ≠ c) = d :: rest) :
    s = s.takeWhile (· ≠ c) ++ c :: rest := by
  have stopped := List.head?_dropWhile_not (· ≠ c) s
  rw [h] at stopped
  obtain rfl : d = c := by simpa using stopped
  rw [← h, List.takeWhile_append_dropWhile]

/-- what is before the bracket in a text that begins with no blank and no quote is a literal, and blanks after it -/
theorem bareLiteral_beforeBracket {c : Char} {s : List Char} (plain : isBlank c = false) (unquoted : c ≠ '"' ∧ c ≠ '\'') :
    BareLiteral (trimEnd (beforeBracket (c :: s))) := by
  have starts : trimEnd (beforeBracket (c :: s)) = [] ∨ ∃ rest, trimEnd (beforeBracket (c :: s)) = c :: rest := by
    rw [beforeBracket, List.takeWhile_cons]
    split
    · exact Or.inr ⟨_, trimEnd_cons plain _⟩
    · exact Or.inl rfl
  refine ⟨fun h => notMem_takeWhile ']' (c :: s) (mem_trimEnd h), ?_, ?_, endsPlain_trimEnd _⟩
  · rcases starts with e | ⟨rest, e⟩ <;> simp [e, unquoted]
  · rcases starts with e | ⟨rest, e⟩ <;> simp [e, StartsPlain, plain]

theorem eq_of_readLiteral {opened s rest : List Char} {literal : String} (hs : StartsPlain s)
    (h : readLiteral opened s = .ok (literal, rest)) :
    (QuotedLiteral literal.toList ∨ BareLiteral literal.toList) ∧
      ∃ after, Blanks after ∧ s = literal.toList ++ after ++ rest := by
  unfold readLiteral at h
  split at h
  · cases h
    exact ⟨Or.inr ⟨by simp, by simp, by simp [StartsPlain], by simp [EndsPlain]⟩, [], by simp [Blanks], by simp⟩
  · rename_i c t
    split at h
    · rename_i quote
      split at h
      · cases h
      · rename_i stop
        cases h
        rw [String.toList_ofList]
        refine ⟨Or.inl ⟨c, _, quote, notMem_takeWhile c t, rfl⟩, [], by simp [Blanks], ?_⟩
        rw [List.append_nil, List.cons_append, List.cons_append, List.append_assoc, List.singleton_append,
          ← eq_of_dropWhile stop]
    · rename_i unquoted
      obtain ⟨after, ha, e⟩ := trimEnd_split (beforeBracket (c :: t))
      cases h
      rw [String.toList_ofList]
      refine ⟨Or.inr (bareLiteral_beforeBracket (startsPlain_cons.1 hs) (not_or.1 unquoted)), after, ha, ?_⟩
      rw [← e, beforeBracket, fromBracket, List.takeWhile_append_dropWhile]

theorem eq_of_closePredicate {opened s rest : List Char} {p q : Predicate} (h : closePredicate opened p s = .ok (q, rest)) :
    q = p ∧ ∃ blanks, Blanks blanks ∧ s = blanks ++ ']' :: rest := by
  unfold closePredicate at h
  split at h
  · rename_i stop
    cases h
    obtain ⟨blanks, hb, e⟩ := trimStart_split s
    exact ⟨rfl, blanks, hb, stop ▸ e⟩
  · cases h

theorem spelled_of_readPredicate {opened s rest : List Char} {p : Predicate} (h : readPredicate opened s = .ok (p, rest)) :
    ∃ t, p.Spelled ('[' :: t) ∧ s = t ++ rest := by
  -- once the body is known, the bracket that closes it ends the text of the predicate
  have closed {q : Predicate} {before body after last : List Char} (hb : Blanks before) (hq : q.Body body) (ha : Blanks after)
      (e : s = before ++ body ++ after ++ last) (hc : closePredicate opened q last = .ok (p, rest)) :
      ∃ t, p.Spelled ('[' :: t) ∧ s = t ++ rest := by
    obtain ⟨rfl, blanks, hblanks, rfl⟩ := eq_of_closePredicate hc
    exact ⟨_, .mk hb hq (ha.append hblanks), by rw [e]; simp⟩
  obtain ⟨before, hb, start⟩ := trimStart_split s
  unfold readPredicate at h
  split at h
  · rename_i test marked
    obtain ⟨⟨name, rest₁⟩, hn, read⟩ := bind_eq_ok.1 h
    obtain ⟨named, rfl⟩ := eq_of_readName hn
    obtain ⟨blanks, hblanks, e⟩ := trimStart_split rest₁
    dsimp only at read
    split at read
    · rename_i value equals
      obtain ⟨⟨literal, rest₂⟩, hl, close⟩ := bind_eq_ok.1 read
      obtain ⟨after, ha, e'⟩ := trimStart_split value
      obtain ⟨valued, blanks', hblanks', e''⟩ := eq_of_readLiteral (startsPlain_trimStart value) hl
      refine closed hb (.attributeEquals named hblanks ha valued) hblanks' ?_ close
      rw [start, marked, e, equals, e', e'']
      simp
    · refine closed hb (.hasAttribute named) hblanks ?_ read
      rw [start, marked]
      simp [← e]
  · dsimp only at h
    split at h
    · cases h
    · split at h
      · rename_i place hw
        obtain ⟨sign, digits, e, hs, some, all, value, word⟩ := readWord?_eq_some_iff.1 hw
        obtain ⟨first, after, hf, ha, e'⟩ := trim_split (beforeBracket (trimStart s))
        have body : Predicate.Body (.position (place + 1)) (sign ++ digits) :=
          .position hs some all value (Nat.succ_pos place) (Nat.lt_of_le_of_lt word (by decide))
        refine closed (hb.append hf) body ha ?_ h
        rw [e] at e'
        calc s
          _ = before ++ (beforeBracket (trimStart s) ++ fromBracket (trimStart s)) := by
            rw [beforeBracket, fromBracket, List.takeWhile_append_dropWhile]
            exact start
          _ = before ++ first ++ (sign ++ digits) ++ after ++ fromBracket (trimStart s) := by
            rw [e']
            simp
      · cases h

theorem spelled_of_readPredicates {s rest : List Char} {ps : List Predicate} (h : readPredicates s = .ok (ps, rest)) :
    ∃ t, Series Predicate.Spelled ps t ∧ s = t ++ rest := by
  fun_induction readPredicates s generalizing ps rest with
  | case1 => cases h
  | case2 => cases h
  | case3 s predicate rest' hp predicates rest'' hps ih =>
    cases h
    obtain ⟨t, spelled, rfl⟩ := spelled_of_readPredicate hp
    obtain ⟨t', row, rfl⟩ := ih hps
    exact ⟨'[' :: t ++ t', .cons spelled row, by simp⟩
  | case4 =>
    cases h
    exact ⟨[], .nil, rfl⟩

theorem spelled_of_readSegment {axis : Axis} {s rest : List Char} {segment : Segment}
    (h : readSegment axis s = .ok (segment, rest)) : segment.axis = axis ∧ ∃ t, segment.Spelled t ∧ s = t ++ rest := by
  unfold readSegment at h
  split at h
  · cases h
  · rename_i name after hn
    split at h
    · cases h
    · rename_i hp
      cases h
      obtain ⟨t, row, rfl⟩ := spelled_of_readPredicates hp
      refine ⟨rfl, name.toList ++ t, .mk ?_ row, ?_⟩
      all_goals
        unfold readNameTest at hn
        split at hn
      · cases hn
        exact Or.inl rfl
      · exact Or.inr (eq_of_readName hn).1
      · cases hn
        rfl
      · rw [(eq_of_readName hn).2, List.append_assoc]

theorem eq_of_readSeparator {s rest : List Char} {axis : Axis} (h : readSeparator s = .ok (axis, rest)) :
    s = axis.separator ++ rest := by
  unfold readSeparator at h
  split at h <;> cases h <;> rfl

theorem spelled_of_readSegments {axis : Axis} {s : List Char} {segments : List Segment}
    (h : readSegments axis s = .ok segments) :
    ∃ first rest t u, segments = first :: rest ∧ first.axis = axis ∧ first.Spelled t ∧ Series Segment.Step rest u ∧ s = t ++ u := by
  fun_induction readSegments axis s generalizing segments with
  | case1 => cases h
  | case2 axis s segment hs =>
    cases h
    obtain ⟨ha, t, spelled, rfl⟩ := spelled_of_readSegment hs
    exact ⟨segment, [], t, [], rfl, ha, spelled, .nil, rfl⟩
  | case3 => cases h
  | case4 => cases h
  | case5 axis s segment c rest hs axis' rest' hsep segments' hrest ih =>
    cases h
    obtain ⟨ha, t, spelled, rfl⟩ := spelled_of_readSegment hs
    obtain ⟨next, others, u, v, rfl, rfl, spelled', row, rfl⟩ := ih hrest
    refine ⟨segment, next :: others, t, _, rfl, ha, spelled, .cons (.mk spelled') row, ?_⟩
    rw [eq_of_readSeparator hsep, List.append_assoc]

theorem spelled_of_readPath {s : List Char} {l : Locator} (h : readPath s = .ok l) : l.Spelled s := by
  unfold readPath at h
  split at h
  all_goals
    obtain ⟨segments, hs, rfl⟩ := map_eq_ok.1 h
    obtain ⟨first, rest, t, u, rfl, ha, spelled, row, rfl⟩ := spelled_of_readSegments hs
    have step : first.Step (first.axis.separator ++ t) := .mk spelled
  · rw [ha] at step
    exact .absolute (.cons step row)
  · rw [ha] at step
    exact .absolute (.cons step row)
  · exact .relative ha spelled row

/-- **What is read is written by the rules.** -/
theorem written_of_parse {text : String} {l : Locator} (h : parse text = .ok l) : l.Written text.toList := by
  unfold parse at h
  dsimp only at h
  split at h
  · cases h
  · have spelled := spelled_of_readPath (mapError_eq_ok.1 h)
    obtain ⟨before, after, hb, ha, e⟩ := trim_split text.toList
    exact ⟨before, _, after, hb, spelled, ha, e⟩

/-! ## What is written by the rules is read: names and literals -/

/-- what cannot be taken for a part of a name before it -/
def EndsName (rest : List Char) : Prop := ∀ c ∈ rest.head?, isNameChar c = false

theorem endsName_blanks {blanks rest : List Char} (hb : Blanks blanks) (hr : EndsName rest) : EndsName (blanks ++ rest) := by
  cases blanks with
  | nil => exact hr
  | cons b blanks =>
    intro c hc
    obtain rfl : b = c := by simpa using hc
    have blank := hb b List.mem_cons_self
    -- no character of a name is blank
    cases named : isNameChar b with
    | false => rfl
    | true => rw [isBlank_of_isNameChar named] at blank; cases blank

theorem endsName_cons {c : Char} (hc : c ∈ markers) (rest : List Char) : EndsName (c :: rest) := fun d hd => by
  obtain rfl : c = d := by simpa using hd
  exact isNameChar_marker c hc

theorem readName_append {name : String} (h : isName name = true) {rest : List Char} (hr : EndsName rest) :
    readName (name.toList ++ rest) = .ok (name, rest) := by
  obtain ⟨c, tail, hl, hc, ht⟩ := isName_cons h
  have stops : rest.takeWhile isNameChar = [] ∧ rest.dropWhile isNameChar = rest := by
    cases rest with
    | nil => exact ⟨rfl, rfl⟩
    | cons d rest =>
      have := hr d rfl
      simp [this]
  rw [hl, List.cons_append, readName, if_pos hc, List.takeWhile_append_of_pos ht, List.dropWhile_append_of_pos ht, stops.1,
    stops.2, List.append_nil, ← hl, String.ofList_toList]

theorem readNameTest_append {name : String} (h : name = "*" ∨ isName name = true) {rest : List Char} (hr : EndsName rest) :
    readNameTest (name.toList ++ rest) = .ok (name, rest) := by
  rcases h with rfl | h
  · rfl
  · rw [← readName_append h hr]
    obtain ⟨c, tail, hl, hc, -⟩ := isName_cons h
    unfold readNameTest
    split
    · rename_i s e
      rw [hl, List.cons_append, List.cons.injEq] at e
      exact absurd e.1 (isNameChar_ne (isNameChar_of_isNameStart hc) (by decide))
    · rfl

theorem takeWhile_append_of_notMem {p : Char} {s : List Char} (h : p ∉ s) (rest : List Char) :
    (s ++ p :: rest).takeWhile (· ≠ p) = s ∧ (s ++ p :: rest).dropWhile (· ≠ p) = p :: rest := by
  have all : ∀ c ∈ s, decide (c ≠ p) = true := fun c hc => decide_eq_true fun e => h (e ▸ hc)
  rw [List.takeWhile_append_of_pos all, List.dropWhile_append_of_pos all]
  simp

theorem bracket_notMem_blanks {blanks : List Char} (hb : Blanks blanks) : ']' ∉ blanks := fun h =>
  absurd (hb ']' h) (by decide)

theorem startsPlain_bracket (rest : List Char) : StartsPlain (']' :: rest) := startsPlain_cons.2 (by decide)

theorem readLiteral_quoted (opened : List Char) {quote : Char} (hq : quote = '"' ∨ quote = '\'') {inner : List Char}
    (hi : quote ∉ inner) (rest : List Char) :
    readLiteral opened (quote :: (inner ++ quote :: rest)) = .ok (String.ofList (quote :: inner ++ [quote]), rest) := by
  obtain ⟨before, after⟩ := takeWhile_append_of_notMem hi rest
  rw [readLiteral, if_pos hq, before, after]

theorem readLiteral_bare (opened : List Char) {s blanks : List Char} (h : BareLiteral s) (hs : s ≠ []) (hb : Blanks blanks)
    (rest : List Char) : readLiteral opened (s ++ (blanks ++ ']' :: rest)) = .ok (String.ofList s, ']' :: rest) := by
  have unclosed : ']' ∉ s ++ blanks := fun hm => (List.mem_append.1 hm).elim h.closed (bracket_notMem_blanks hb)
  obtain ⟨before, after⟩ := takeWhile_append_of_notMem unclosed rest
  obtain ⟨c, tail, rfl⟩ := List.exists_cons_of_ne_nil hs
  have unquoted : ¬ (c = '"' ∨ c = '\'') := not_or.2 (h.unquoted c rfl)
  rw [List.cons_append, List.cons_append] at before after
  rw [← List.append_assoc, List.cons_append, List.cons_append, readLiteral, if_neg unquoted, beforeBracket, fromBracket, before,
    after, ← List.cons_append, trimEnd_append h.ends hb]

/-- a literal is read up to the bracket after it, or up to the blanks before that bracket -/
theorem readLiteral_append (opened : List Char) {literal : String} {before after : List Char} (hb : Blanks before)
    (ha : Blanks after) (h : QuotedLiteral literal.toList ∨ BareLiteral literal.toList) (rest : List Char) :
    ∃ last, readLiteral opened (trimStart (before ++ (literal.toList ++ (after ++ ']' :: rest)))) = .ok (literal, last) ∧
      trimStart last = ']' :: rest := by
  have closing : trimStart (after ++ ']' :: rest) = ']' :: rest := trimStart_append ha (startsPlain_bracket rest)
  rcases h with ⟨quote, inner, hq, hi, e⟩ | h
  · have plain : isBlank quote = false := by rcases hq with rfl | rfl <;> decide
    have whole : literal = String.ofList (quote :: inner ++ [quote]) := by rw [← e, String.ofList_toList]
    refine ⟨after ++ ']' :: rest, ?_, closing⟩
    rw [e, List.cons_append, List.cons_append, List.append_assoc, trimStart_append hb (startsPlain_cons.2 plain),
      List.singleton_append, readLiteral_quoted opened hq hi, ← whole]
  · refine ⟨']' :: rest, ?_, trimStart_of_startsPlain (startsPlain_bracket rest)⟩
    cases hl : literal.toList with
    | nil =>
      -- an empty literal leaves no mark between the blanks around it
      obtain rfl : literal = "" := String.toList_eq_nil_iff.1 hl
      rw [List.nil_append, ← List.append_assoc, trimStart_append (hb.append ha) (startsPlain_bracket rest)]
      rfl
    | cons c tail =>
      have starts := h.starts
      rw [hl] at starts
      have plain : StartsPlain (c :: tail ++ (after ++ ']' :: rest)) := startsPlain_cons.2 (startsPlain_cons.1 starts)
      rw [trimStart_append hb plain, ← hl, readLiteral_bare opened h (by simp [hl]) ha, String.ofList_toList]

/-! ## What is written by the rules is read: predicates -/

theorem closePredicate_of_bracket (opened : List Char) (p : Predicate) {s rest : List Char} (h : trimStart s = ']' :: rest) :
    closePredicate opened p s = .ok (p, rest) := by
  simp only [closePredicate, h]

/-- the digits of a place, with a sign or without, are no blanks and no marks of another predicate -/
theorem mem_number {sign digits : List Char} (hs : sign = [] ∨ sign = ['+']) (all : ∀ c ∈ digits, c.isDigit = true) {c : Char}
    (hc : c ∈ sign ++ digits) : isBlank c = false ∧ c ≠ '@' ∧ c ≠ ']' := by
  have digit : ∀ d ∈ digits, isBlank d = false ∧ d ≠ '@' ∧ d ≠ ']' := by
    intro d hd
    refine ⟨isBlank_of_isDigit (all d hd), ?_, ?_⟩ <;>
    · rintro rfl
      exact absurd (all _ hd) (by decide)
  rcases List.mem_append.1 hc with hc | hc
  · rcases hs with rfl | rfl
    · exact absurd hc List.not_mem_nil
    · obtain rfl := List.mem_singleton.1 hc
      decide
  · exact digit c hc

/-- **A predicate is read** from between its brackets. -/
theorem readPredicate_body (opened : List Char) {p : Predicate} {before body after : List Char} (hb : Blanks before)
    (h : p.Body body) (ha : Blanks after) (rest : List Char) :
    readPredicate opened (before ++ (body ++ (after ++ ']' :: rest))) = .ok (p, rest) := by
  have closing : trimStart (after ++ ']' :: rest) = ']' :: rest := trimStart_append ha (startsPlain_bracket rest)
  have ending : EndsName (after ++ ']' :: rest) := endsName_blanks ha (endsName_cons (by decide) rest)
  cases h with
  | @position place sign digits hs some all value one word =>
    have clean := fun c hc => mem_number (c := c) hs all hc
    have number : readWord? (sign ++ digits) = Option.some place :=
      readWord?_eq_some_iff.2 ⟨sign, digits, rfl, hs, some, all, value, Nat.le_sub_one_of_lt word⟩
    have nonempty : sign ++ digits ≠ [] := fun e => some (List.append_eq_nil_iff.1 e).2
    generalize sign ++ digits = text at clean number nonempty
    obtain ⟨n, rfl⟩ : ∃ n, place = n + 1 := ⟨place - 1, by omega⟩
    obtain ⟨c, tail, rfl⟩ := List.exists_cons_of_ne_nil nonempty
    obtain ⟨plain, unmarked, -⟩ := clean c List.mem_cons_self
    have ends : EndsPlain (c :: tail) := endsPlain_of_forall fun d hd => (clean d hd).1
    have unclosed : ']' ∉ c :: tail ++ after := fun hm =>
      (List.mem_append.1 hm).elim (fun h => (clean _ h).2.2 rfl) (bracket_notMem_blanks ha)
    have bracket := takeWhile_append_of_notMem unclosed rest
    have none : Blanks [] := by simp [Blanks]
    have trimmed : trim (c :: tail ++ after) = c :: tail := trim_append none ha (startsPlain_cons.2 plain) ends
    have first : StartsPlain (c :: tail ++ (after ++ ']' :: rest)) := startsPlain_cons.2 plain
    have start : trimStart (before ++ (c :: tail ++ (after ++ ']' :: rest))) = c :: tail ++ after ++ ']' :: rest := by
      rw [trimStart_append hb first, List.append_assoc]
    unfold readPredicate
    rw [start]
    split
    · rename_i test e
      exact absurd (List.cons.inj e).1 unmarked
    · simp only [beforeBracket, fromBracket, bracket.1, bracket.2, trimmed, number]
      exact closePredicate_of_bracket opened _ (trimStart_of_startsPlain (startsPlain_bracket rest))
  | @hasAttribute name hn =>
    have plain : StartsPlain ('@' :: name.toList ++ (after ++ ']' :: rest)) := startsPlain_cons.2 (by decide)
    rw [readPredicate, trimStart_append hb plain]
    simp only [List.cons_append, readName_append hn ending, ok_bind', closing]
    exact closePredicate_of_bracket opened _ (trimStart_of_startsPlain (startsPlain_bracket rest))
  | @attributeEquals name literal blanks blanks' hn hblanks hblanks' hl =>
    obtain ⟨last, read, closing⟩ := readLiteral_append opened hblanks' ha hl rest
    have equals (s : List Char) : trimStart (blanks ++ '=' :: s) = '=' :: s :=
      trimStart_append hblanks (startsPlain_cons.2 (by decide))
    have ending (s : List Char) : EndsName (blanks ++ '=' :: s) := endsName_blanks hblanks (endsName_cons (by decide) s)
    have plain : StartsPlain ('@' :: name.toList ++ blanks ++ '=' :: blanks' ++ literal.toList ++ (after ++ ']' :: rest)) :=
      startsPlain_cons.2 (by decide)
    rw [readPredicate, trimStart_append hb plain]
    simp only [List.cons_append, List.append_assoc, readName_append hn (ending _), ok_bind', equals, read]
    exact closePredicate_of_bracket opened _ closing

/-- a predicate that is written is read after its opening bracket -/
theorem readPredicate_spelled {p : Predicate} {s : List Char} (h : p.Spelled s) (rest : List Char) :
    ∃ t, s ++ rest = '[' :: t ∧ ∀ opened, readPredicate opened t = .ok (p, rest) := by
  obtain ⟨hb, h, ha⟩ := h
  rename_i before body after
  exact ⟨before ++ (body ++ (after ++ ']' :: rest)), by simp, fun opened => readPredicate_body opened hb h ha rest⟩

/-- what comes after the predicates of a segment: a separator, or nothing -/
def EndsSegment (rest : List Char) : Prop := ∀ c ∈ rest.head?, c = '/'

theorem readPredicates_spelled {ps : List Predicate} {s rest : List Char} (h : Series Predicate.Spelled ps s)
    (hr : EndsSegment rest) : readPredicates (s ++ rest) = .ok (ps, rest) := by
  induction h with
  | nil =>
    rw [List.nil_append]
    unfold readPredicates
    split
    · exact absurd (hr '[' rfl) (by decide)
    · rfl
  | @cons p ps s t h _ ih =>
    obtain ⟨inner, e, read⟩ := readPredicate_spelled h (t ++ rest)
    rw [List.append_assoc, e, readPredicates]
    split
    · rename_i stop failed
      rw [read] at failed
      cases failed
    · rename_i found last again
      rw [read] at again
      cases again
      rw [ih]

/-! ## What is written by the rules is read: segments -/

/-- the predicates of a segment and what follows them cannot be taken for a part of its name -/
theorem endsName_predicates {ps : List Predicate} {s rest : List Char} (h : Series Predicate.Spelled ps s)
    (hr : EndsSegment rest) : EndsName (s ++ rest) := by
  cases h with
  | nil =>
    intro c hc
    rw [hr c hc]
    exact isNameChar_marker '/' (by decide)
  | @cons p ps s t h _ =>
    obtain ⟨inner, e, -⟩ := readPredicate_spelled h (t ++ rest)
    rw [List.append_assoc, e]
    exact endsName_cons (by decide) inner

/-- **A segment is read** up to the next separator. -/
theorem readSegment_spelled {segment : Segment} {s rest : List Char} (h : segment.Spelled s) (hr : EndsSegment rest) :
    readSegment segment.axis (s ++ rest) = .ok (segment, rest) := by
  obtain ⟨hn, hp⟩ := h
  rw [readSegment, List.append_assoc, readNameTest_append hn (endsName_predicates hp hr)]
  simp only [readPredicates_spelled hp hr]

/-- a segment begins with its name test -/
theorem spelled_segment_cons {segment : Segment} {s : List Char} (h : segment.Spelled s) :
    ∃ c tail, s = c :: tail ∧ c ≠ '/' ∧ isBlank c = false := by
  obtain ⟨rfl | hn, -⟩ := h
  · exact ⟨'*', _, rfl, by decide, by decide⟩
  · obtain ⟨c, tail, e, hc, -⟩ := isName_cons hn
    have char := isNameChar_of_isNameStart hc
    exact ⟨c, _, by rw [e]; rfl, isNameChar_ne char (by decide), isBlank_of_isNameChar char⟩

theorem steps_cons {segment : Segment} {segments : List Segment} {s : List Char} (h : Series Segment.Step (segment :: segments) s) :
    ∃ t u, segment.Spelled t ∧ Series Segment.Step segments u ∧ s = segment.axis.separator ++ (t ++ u) := by
  cases h with
  | cons step rest =>
    obtain ⟨spelled⟩ := step
    exact ⟨_, _, spelled, rest, List.append_assoc ..⟩

theorem endsSegment_steps {segments : List Segment} {s : List Char} (h : Series Segment.Step segments s) : EndsSegment s := by
  cases segments with
  | nil =>
    cases h
    simp [EndsSegment]
  | cons segment segments =>
    obtain ⟨t, u, -, -, rfl⟩ := steps_cons h
    cases segment.axis <;> simp [EndsSegment, Axis.separator]

theorem readSeparator_append (axis : Axis) {c : Char} (hc : c ≠ '/') (rest : List Char) :
    readSeparator (axis.separator ++ c :: rest) = .ok (axis, c :: rest) := by
  cases axis with
  | child =>
    rw [Axis.separator, List.singleton_append]
    unfold readSeparator
    split <;> grind
  | descendant => rfl

theorem readSegments_last {axis : Axis} {s : List Char} {segment : Segment} (read : readSegment axis s = .ok (segment, [])) :
    readSegments axis s = .ok [segment] := by
  unfold readSegments
  split
  · rename_i stop failed
    rw [read] at failed
    cases failed
  · rename_i last found
    rw [read] at found
    cases found
    rfl
  · rename_i last c rest found
    rw [read] at found
    cases found

theorem readSegments_more {axis next : Axis} {s rest rest' : List Char} {segment : Segment} {segments : List Segment}
    (read : readSegment axis s = .ok (segment, rest)) (separated : readSeparator rest = .ok (next, rest'))
    (later : readSegments next rest' = .ok segments) : readSegments axis s = .ok (segment :: segments) := by
  rw [readSegments]
  split
  · rename_i stop failed
    rw [read] at failed
    cases failed
  · rename_i last found
    rw [read] at found
    cases found
    cases separated
  · rename_i first d after found
    rw [read] at found
    cases found
    split
    · rename_i stop failed
      rw [separated] at failed
      cases failed
    · rename_i axis' after' found
      rw [separated] at found
      cases found
      rw [later]

theorem readSegments_spelled {segment : Segment} {segments : List Segment} {s t : List Char} (h : segment.Spelled s)
    (rest : Series Segment.Step segments t) : readSegments segment.axis (s ++ t) = .ok (segment :: segments) := by
  induction segments generalizing segment s t with
  | nil =>
    cases rest
    exact readSegments_last (readSegment_spelled h (by simp [EndsSegment]))
  | cons next segments ih =>
    have read := readSegment_spelled h (endsSegment_steps rest)
    obtain ⟨u, v, spelled, more, rfl⟩ := steps_cons rest
    have later := ih spelled more
    obtain ⟨c, tail, rfl, slash, -⟩ := spelled_segment_cons spelled
    exact readSegments_more read (readSeparator_append next.axis slash (tail ++ v)) later

/-! ## What is written by the rules is read: whole locators -/

theorem endsPlain_predicates {ps : List Predicate} {s : List Char} (h : Series Predicate.Spelled ps s) : EndsPlain s := by
  induction h with
  | nil => simp [EndsPlain]
  | cons h _ ih =>
    obtain ⟨-, -, -⟩ := h
    exact (endsPlain_concat _ (by decide)).append ih

theorem endsPlain_segment {segment : Segment} {s : List Char} (h : segment.Spelled s) : EndsPlain s := by
  obtain ⟨hn, hp⟩ := h
  rename_i axis name predicates s
  refine EndsPlain.append (endsPlain_of_forall ?_) (endsPlain_predicates hp)
  intro c hc
  rcases hn with rfl | hn
  · obtain rfl : c = '*' := by simpa using hc
    decide
  · exact isBlank_of_isNameChar (isNameChar_of_mem hn hc)

theorem endsPlain_steps {segments : List Segment} {s : List Char} (h : Series Segment.Step segments s) : EndsPlain s := by
  induction h with
  | nil => simp [EndsPlain]
  | @cons segment segments s t h _ ih =>
    obtain ⟨spelled⟩ := h
    have separator : EndsPlain segment.axis.separator := by cases segment.axis <;> simp [EndsPlain, Axis.separator] <;> decide
    exact (separator.append (endsPlain_segment spelled)).append ih

/-- a locator begins and ends with no blank, and is not empty -/
theorem plain_spelled {l : Locator} {s : List Char} (h : l.Spelled s) : StartsPlain s ∧ EndsPlain s ∧ s ≠ [] := by
  cases h with
  | @absolute segment segments s row =>
    have ends := endsPlain_steps row
    obtain ⟨t, u, -, -, rfl⟩ := steps_cons row
    cases ha : segment.axis <;> rw [ha] at ends <;> exact ⟨startsPlain_cons.2 (by decide), ends, by simp [Axis.separator]⟩
  | relative _ spelled row =>
    obtain ⟨c, tail, rfl, -, plain⟩ := spelled_segment_cons spelled
    exact ⟨startsPlain_cons.2 plain, (endsPlain_segment spelled).append (endsPlain_steps row), by simp⟩

/-- **A path is read**: no separator is a child step from the context, one or two are steps from the document. -/
theorem readPath_spelled {l : Locator} {s : List Char} (h : l.Spelled s) : readPath s = .ok l := by
  cases h with
  | @absolute segment segments s row =>
    obtain ⟨t, u, spelled, rest, rfl⟩ := steps_cons row
    have read := readSegments_spelled spelled rest
    obtain ⟨c, tail, rfl, slash, -⟩ := spelled_segment_cons spelled
    cases ha : segment.axis with
    | descendant =>
      rw [ha] at read
      simp only [Axis.separator, List.cons_append, List.nil_append, readPath] at read ⊢
      rw [read]
      rfl
    | child =>
      rw [ha] at read
      simp only [Axis.separator, List.cons_append, List.nil_append] at read ⊢
      unfold readPath
      split
      · rename_i e
        exact absurd (List.cons.inj (List.cons.inj e).2).1 slash
      · rename_i e
        rw [← (List.cons.inj e).2, read]
        rfl
      · rename_i no
        exact absurd rfl (no _)
  | @relative segment segments s t child spelled rest =>
    have read := readSegments_spelled spelled rest
    obtain ⟨c, tail, rfl, slash, -⟩ := spelled_segment_cons spelled
    rw [child] at read
    rw [List.cons_append] at read ⊢
    unfold readPath
    split
    · rename_i e
      exact absurd (List.cons.inj e).1 slash
    · rename_i e
      exact absurd (List.cons.inj e).1 slash
    · rw [read]
      rfl

/-- **What is written by the rules is read**, as the locator that it is written for. -/
theorem parse_of_written {text : String} {l : Locator} (h : l.Written text.toList) : parse text = .ok l := by
  obtain ⟨before, s, after, hb, spelled, ha, e⟩ := h
  obtain ⟨starts, ends, nonempty⟩ := plain_spelled spelled
  rw [parse, e, trim_append hb ha starts ends]
  simp only [List.isEmpty_iff, nonempty, if_false, readPath_spelled spelled, ok_mapError]

/-- **A text is read as a locator exactly if it is written by the rules** for that locator; every text that is written for none is
refused. -/
theorem parse_eq_ok_iff :
    (∀ text l, parse text = .ok l ↔ l.Written text.toList) ∧
      ∀ text, (∃ error, parse text = .error error) ↔ ¬ ∃ l : Locator, l.Written text.toList := by
  have reads : ∀ text l, parse text = .ok l ↔ l.Written text.toList := fun text l => ⟨written_of_parse, parse_of_written⟩
  refine ⟨reads, fun text => ?_⟩
  cases read : parse text with
  | ok l =>
    have written : ∃ l : Locator, l.Written text.toList := ⟨l, written_of_parse read⟩
    simp [written]
  | error error =>
    simp only [Except.error.injEq, exists_eq', true_iff]
    rintro ⟨l, written⟩
    rw [parse_of_written written] at read
    cases read

end Locator

end XmlStore
