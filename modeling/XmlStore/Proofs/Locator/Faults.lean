/-
Where reading a locator fails.

The parser that takes the text apart and the one that moves a cursor over its bytes do the same. The second never breaks off: its cursor
is always at the beginning of a character or at the end of the text, and so is every offset that it slices at. Nor does a loop of it ever
need more rounds than it is given. And each of the two reports a fault at such an offset, where the fault can be seen: the character that
it names begins there, or the predicate that it is about, or the text ends there.

Main statements:
- `Locator.Cursor.Reads.bind`: cursors that read what readers read can be put one after the other.
- `Locator.Cursor.reads_path`: a whole text is read so.
- `Locator.parse_placed`: the parser by byte offsets is the parser, and where its faults are.
-/
import XmlStore.Proofs.Locator.Cursor
import XmlStore.Proofs.Locator.Grammar

namespace XmlStore

open Text

/-- what a fault says about the rest of the text at its place -/
def LocatorFault.At (rest : List Char) : LocatorFault → Prop
  | .emptyStep => rest = [] ∨ rest.head? = some '/' ∨ rest.head? = some '['
  | .invalidName found => rest.head? = some found
  | .unexpectedChar found => rest.head? = some found
  | .trailingSlash => rest = []
  | .emptyPredicate => rest.head? = some '['
  | .unterminatedPredicate => rest.head? = some '['
  | .invalidPosition text => text.toList = trim (Locator.beforeBracket rest) ∧ text ≠ "" ∧
      ¬ ∃ place, (Predicate.position place).Body text.toList

/-- an error is true of the text: it is empty, or the fault is found behind as many bytes of it; there are no others -/
def LocatorError.Placed (s : List Char) : LocatorError → Prop
  | .empty => s = []
  | .malformed fault position => ∃ before after, s = before ++ after ∧ byteSize before = position ∧ fault.At after
  | .invalidSegmentName _ => False
  | .danglingPredicate => False

namespace Locator

/-- a reader stops at an end of the text where its fault is found -/
structure Stop.Found (input : List Char) (stop : Stop) : Prop where
  suffix : stop.rest <:+ input
  found : stop.fault.At stop.rest

namespace Cursor

variable {input rest part after opened : List Char} {α β : Type} {a : α}

/-! ## Offsets -/

/-- the place in the text where what is left begins -/
def offset (input rest : List Char) : Nat :=
  byteSize input - byteSize rest

theorem offset_append (before rest : List Char) : offset (before ++ rest) rest = byteSize before := by
  rw [offset, byteSize_append, Nat.add_sub_cancel]

theorem offset_of_suffix (part : List Char) (h : part ++ rest <:+ input) :
    offset input rest = offset input (part ++ rest) + byteSize part := by
  obtain ⟨before, rfl⟩ := h
  rw [← List.append_assoc, offset_append, List.append_assoc, offset_append, byteSize_append]

/-! ## What a cursor reads -/

/-- what a reader comes to, with offsets in place of what is left -/
def withOffsets (input : List Char) : Except Stop (α × List Char) → Except (LocatorFault × Nat) (α × Nat)
  | .ok (a, after) => .ok (a, offset input after)
  | .error stop => .error (stop.fault, offset input stop.rest)

/-- at the place where `rest` begins, the cursor comes to what a reader does, which leaves an end of the text or stops at a fault of it -/
structure Reads (input : List Char) (cursor : Cursor α) (rest : List Char) (outcome : Except Stop (α × List Char)) : Prop where
  run : (cursor.run (offset input rest)).run = some (withOffsets input outcome)
  leaves : ∀ a after, outcome = .ok (a, after) → after <:+ input
  stops : ∀ stop, outcome = .error stop → stop.Found input

/-- **A cursor that reads and then goes on** as a reader does reads all that the reader does. -/
theorem Reads.bind {cursor : Cursor α} {outcome : Except Stop (α × List Char)} {next : α → Cursor β}
    {f : α × List Char → Except Stop (β × List Char)} (h : Reads input cursor rest outcome)
    (hn : ∀ a after, outcome = .ok (a, after) → after <:+ input → Reads input (next a) after (f (a, after))) :
    Reads input (cursor >>= next) rest (outcome >>= f) := by
  cases outcome with
  | error stop =>
    refine ⟨?_, nofun, fun stop e => h.stops stop (by cases e; rfl)⟩
    rw [StateT.run_bind, ExceptT.run_bind, h.run]
    rfl
  | ok read =>
    obtain ⟨a, after⟩ := read
    have later := hn a after rfl (h.leaves a after rfl)
    refine ⟨?_, later.leaves, later.stops⟩
    rw [StateT.run_bind, ExceptT.run_bind, h.run]
    exact later.run

theorem Reads.step {cursor : Cursor α} {next : α → Cursor β} {outcome : Except Stop (β × List Char)}
    (h : Reads input cursor rest (.ok (a, after))) (hn : Reads input (next a) after outcome) :
    Reads input (cursor >>= next) rest outcome :=
  h.bind (f := fun _ => outcome) fun _ _ e _ => by cases e; exact hn

theorem Reads.stop {cursor : Cursor α} {stop : Stop} (h : Reads input cursor rest (.error stop)) (next : α → Cursor β) :
    Reads input (cursor >>= next) rest (.error stop) :=
  h.bind (f := fun _ => .error stop) fun _ _ e _ => by cases e

theorem reads_of_run {cursor : Cursor α} (h : after <:+ input)
    (run : (cursor.run (offset input rest)).run = some (.ok (a, offset input after))) : Reads input cursor rest (.ok (a, after)) :=
  ⟨run, fun _ _ e => by cases e; exact h, nofun⟩

theorem reads_fail (fault : LocatorFault) {stopped : List Char} (h : stopped <:+ input) (found : fault.At stopped)
    (rest : List Char) : Reads input (fail fault (offset input stopped) : Cursor α) rest (.error ⟨fault, stopped⟩) :=
  ⟨rfl, nofun, fun _ e => by cases e; exact ⟨h, found⟩⟩

theorem reads_pure (h : rest <:+ input) (a : α) : Reads input (pure a) rest (.ok (a, rest)) :=
  reads_of_run h rfl

theorem reads_get (h : rest <:+ input) : Reads input get rest (.ok (offset input rest, rest)) :=
  reads_of_run h rfl

theorem reads_given (h : rest <:+ input) (a : α) : Reads input (given (some a)) rest (.ok (a, rest)) :=
  reads_of_run h rfl

/-- moving on over a part -/
theorem reads_modify (part : List Char) (h : part ++ rest <:+ input) :
    Reads input (modify (· + byteSize part)) (part ++ rest) (.ok ((), rest)) := by
  refine reads_of_run ((List.suffix_append part rest).trans h) ?_
  rw [offset_of_suffix part h]
  rfl

/-! ## Slices and steps of the cursor -/

theorem splitBytes_offset (h : rest <:+ input) :
    ∃ before, input = before ++ rest ∧ splitBytes (offset input rest) input = some (before, rest) := by
  obtain ⟨before, rfl⟩ := h
  exact ⟨before, rfl, by rw [offset_append, splitBytes_append]⟩

theorem reads_remaining (h : rest <:+ input) : Reads input (remaining input) rest (.ok (rest, rest)) := by
  obtain ⟨before, -, split⟩ := splitBytes_offset h
  refine (reads_get h).step ?_
  rw [split]
  exact (reads_given h _).step (reads_pure h rest)

theorem reads_since {start : List Char} (part : List Char) (h : start <:+ input) (e : start = part ++ rest) :
    Reads input (since input (offset input start)) rest (.ok (part, rest)) := by
  obtain ⟨before, rfl⟩ := h
  subst e
  have here : rest <:+ before ++ (part ++ rest) := ⟨before ++ part, List.append_assoc _ _ _⟩
  have stop : splitBytes (offset (before ++ (part ++ rest)) rest) (before ++ (part ++ rest)) = some (before ++ part, rest) := by
    rw [← List.append_assoc, offset_append, splitBytes_append]
  refine (reads_get here).step ?_
  rw [stop, offset_append]
  refine (reads_given here _).step ?_
  dsimp only
  rw [splitBytes_append]
  exact (reads_given here _).step (reads_pure here part)

theorem reads_peek (h : rest <:+ input) : Reads input (peek input) rest (.ok (rest.head?, rest)) :=
  (reads_remaining h).step (reads_pure h _)

theorem reads_bump {c : Char} (h : c :: rest <:+ input) : Reads input (bump input) (c :: rest) (.ok (some c, rest)) := by
  refine (reads_peek h).step ?_
  have moved := reads_modify [c] h
  exact moved.step (reads_pure (moved.leaves _ _ rfl) _)

theorem reads_bump_nil (h : [] <:+ input) : Reads input (bump input) [] (.ok (none, [])) :=
  (reads_peek h).step (reads_pure h none)

theorem reads_eat (part : List Char) (h : part ++ rest <:+ input) : Reads input (eat input part) (part ++ rest) (.ok (true, rest)) := by
  refine (reads_remaining h).step ?_
  rw [if_pos (List.isPrefixOf_iff_prefix.2 (List.prefix_append part rest))]
  have moved := reads_modify part h
  exact moved.step (reads_pure (moved.leaves _ _ rfl) true)

theorem reads_eat_not (h : rest <:+ input) (no : ¬ part <+: rest) : Reads input (eat input part) rest (.ok (false, rest)) := by
  refine (reads_remaining h).step ?_
  rw [if_neg (mt List.isPrefixOf_iff_prefix.1 no)]
  exact reads_pure h false

theorem not_prefix_of_ne {c : Char} (no : ∀ after, rest ≠ c :: after) : ¬ [c] <+: rest := by
  rintro ⟨after, e⟩
  exact no after e.symm

theorem reads_skipRounds (p : Char → Bool) {rounds : Nat} (h : rest <:+ input) (hr : rest.length < rounds) :
    Reads input (skipRounds input p rounds) rest (.ok ((), rest.dropWhile p)) := by
  induction rounds generalizing rest with
  | zero => cases hr
  | succ rounds ih =>
    cases rest with
    | nil => exact (reads_peek h).step (reads_pure h ())
    | cons c rest =>
      rw [List.dropWhile_cons]
      refine (reads_peek h).step ?_
      dsimp only [List.head?_cons]
      split
      · exact (reads_bump h).step (ih ((List.suffix_cons c rest).trans h) (Nat.lt_of_succ_lt_succ hr))
      · exact reads_pure h ()

/-- there are rounds enough for whatever is left -/
theorem length_lt_rounds (h : rest <:+ input) : rest.length < input.length + 1 :=
  Nat.lt_succ_of_le h.length_le

theorem reads_skipWhile (p : Char → Bool) (h : rest <:+ input) :
    Reads input (skipWhile input p) rest (.ok ((), rest.dropWhile p)) :=
  reads_skipRounds p h (length_lt_rounds h)

/-! ## The readers -/

theorem reads_name (h : rest <:+ input) : Reads input (name input) rest (readName rest) := by
  cases rest with
  | nil =>
    refine (reads_get h).step ((reads_peek h).step ?_)
    exact reads_fail .emptyStep h (Or.inl rfl) []
  | cons c rest =>
    refine (reads_get h).step ((reads_peek h).step ?_)
    dsimp only [List.head?_cons, readName]
    split
    · have bumped := reads_bump h
      have skipped := reads_skipWhile isNameChar (bumped.leaves _ _ rfl)
      refine bumped.step (skipped.step ?_)
      refine (reads_since (c :: rest.takeWhile isNameChar) h ?_).step ?_
      · rw [List.cons_append, List.takeWhile_append_dropWhile]
      · exact reads_pure (skipped.leaves _ _ rfl) _
    · split
      · rename_i separates
        exact reads_fail .emptyStep h (Or.inr (separates.imp (congrArg some) (congrArg some))) _
      · exact reads_fail (.invalidName c) h rfl _

/-- what is left behind the next such quote -/
def behindQuote (quote : Char) (opened rest : List Char) : Except Stop (Unit × List Char) :=
  match rest.dropWhile (· ≠ quote) with
  | [] => .error ⟨.unterminatedPredicate, opened⟩
  | _ :: after => .ok ((), after)

theorem reads_quoteRounds (quote : Char) {rounds : Nat} (ho : '[' :: opened <:+ input) (h : rest <:+ input)
    (hr : rest.length < rounds) :
    Reads input (quoteRounds input quote (offset input ('[' :: opened)) rounds) rest (behindQuote quote ('[' :: opened) rest) := by
  induction rounds generalizing rest with
  | zero => cases hr
  | succ rounds ih =>
    cases rest with
    | nil => exact (reads_bump_nil h).step (reads_fail .unterminatedPredicate ho rfl [])
    | cons c rest =>
      rw [behindQuote, List.dropWhile_cons]
      refine (reads_bump h).step ?_
      have here := (List.suffix_cons c rest).trans h
      dsimp only
      by_cases found : c = quote
      · rw [if_pos found, if_neg (by simpa using found)]
        exact reads_pure here ()
      · rw [if_neg found, if_pos (by simpa using found)]
        exact ih here (Nat.lt_of_succ_lt_succ hr)

theorem reads_closeQuote (quote : Char) (ho : '[' :: opened <:+ input) (h : rest <:+ input) :
    Reads input (closeQuote input quote (offset input ('[' :: opened))) rest (behindQuote quote ('[' :: opened) rest) :=
  reads_quoteRounds quote ho h (length_lt_rounds h)

theorem reads_bareLiteral (h : rest <:+ input) : Reads input (bareLiteral input (offset input rest)) rest
    (.ok (String.ofList (trimEnd (beforeBracket rest)), fromBracket rest)) := by
  have skipped := reads_skipWhile (· ≠ ']') h
  refine skipped.step ((reads_since (beforeBracket rest) h ?_).step (reads_pure (skipped.leaves _ _ rfl) _))
  rw [beforeBracket, List.takeWhile_append_dropWhile]

theorem reads_literal (ho : '[' :: opened <:+ input) (h : rest <:+ input) :
    Reads input (literal input (offset input ('[' :: opened))) rest (readLiteral ('[' :: opened) rest) := by
  cases rest with
  | nil => exact (reads_get h).step ((reads_peek h).step (reads_bareLiteral h))
  | cons c rest =>
    refine (reads_get h).step ((reads_peek h).step ?_)
    dsimp only [List.head?_cons, readLiteral]
    split
    · have bumped := reads_bump h
      have closed := reads_closeQuote c ho (bumped.leaves _ _ rfl)
      refine bumped.step ?_
      split
      · rename_i unclosed
        rw [behindQuote, unclosed] at closed
        exact closed.stop _
      · rename_i d after found
        rw [behindQuote, found] at closed
        refine closed.step ((reads_since (c :: rest.takeWhile (· ≠ c) ++ [c]) h ?_).step (reads_pure (closed.leaves _ _ rfl) _))
        rw [List.cons_append, List.cons_append, List.append_assoc, List.singleton_append, ← eq_of_dropWhile found]
    · exact reads_bareLiteral h

theorem reads_close (p : Predicate) (ho : '[' :: opened <:+ input) (h : rest <:+ input) :
    Reads input (close input (offset input ('[' :: opened)) p) rest (closePredicate ('[' :: opened) p rest) := by
  have skipped := reads_skipWhile isBlank h
  have here := skipped.leaves _ _ rfl
  refine skipped.step ?_
  rw [closePredicate]
  split
  · rename_i after found
    rw [trimStart] at found
    rw [found] at here ⊢
    have eaten := reads_eat [']'] here
    exact eaten.step (reads_pure (eaten.leaves _ _ rfl) p)
  · rename_i no
    exact (reads_eat_not here (not_prefix_of_ne no)).step (reads_fail .unterminatedPredicate ho rfl _)

/-- what cannot be read as a place is written for none -/
theorem not_body_of_unread {s : List Char} (unread : ∀ place, readWord? s ≠ some (place + 1)) (place : Nat) :
    ¬ (Predicate.position place).Body s := by
  intro body
  cases body with
  | position hs nonempty all value one word =>
    obtain ⟨before, rfl⟩ := Nat.exists_eq_add_of_le' one
    exact unread before (readWord?_eq_some_iff.2 ⟨_, _, rfl, hs, nonempty, all, value, Nat.le_sub_one_of_lt word⟩)

theorem invalidPosition_at (nonempty : ¬ (trim (beforeBracket rest)).isEmpty = true)
    (unread : ∀ place, readWord? (trim (beforeBracket rest)) ≠ some (place + 1)) :
    LocatorFault.At rest (.invalidPosition (String.ofList (trim (beforeBracket rest)))) := by
  have text : (String.ofList (trim (beforeBracket rest))).toList = trim (beforeBracket rest) := String.toList_ofList
  refine ⟨text, fun e => nonempty ?_, ?_⟩
  · rw [← text, e]
    rfl
  · rintro ⟨place, body⟩
    rw [text] at body
    exact not_body_of_unread unread place body

theorem reads_predicate (h : '[' :: rest <:+ input) :
    Reads input (predicate input) rest (readPredicate ('[' :: rest) rest) := by
  have inside : rest <:+ input := (List.suffix_cons '[' rest).trans h
  -- the bracket that was passed takes one byte, so one step back is its place
  have opened : Nat.ppred (offset input rest) = some (offset input ('[' :: rest)) := by
    have passed : offset input rest = offset input ('[' :: rest) + 1 := offset_of_suffix ['['] h
    rw [passed, Nat.ppred_succ]
  have skipped := reads_skipWhile isBlank inside
  have here : trimStart rest <:+ input := skipped.leaves _ _ rfl
  refine (reads_get inside).step ?_
  rw [opened]
  refine (reads_given inside _).step (skipped.step ?_)
  rw [← trimStart, readPredicate]
  split
  · rename_i test marked
    rw [marked] at here ⊢
    have eaten := reads_eat ['@'] here
    refine eaten.step ((reads_name (eaten.leaves _ _ rfl)).bind fun name after _ ha => ?_)
    have blanks := reads_skipWhile isBlank ha
    have there : trimStart after <:+ input := blanks.leaves _ _ rfl
    refine blanks.step ?_
    rw [← trimStart]
    dsimp only
    split
    · rename_i value equals
      rw [equals] at there ⊢
      have eaten := reads_eat ['='] there
      have spaces := reads_skipWhile isBlank (eaten.leaves _ _ rfl)
      refine eaten.step (spaces.step ((reads_literal h (spaces.leaves _ _ rfl)).bind fun literal last _ hl => ?_))
      exact reads_close _ h hl
    · rename_i no
      exact (reads_eat_not there (not_prefix_of_ne no)).step (reads_close _ h there)
  · rename_i no
    refine (reads_eat_not here (not_prefix_of_ne no)).step ?_
    have passed := reads_skipWhile (· ≠ ']') here
    have there : fromBracket (trimStart rest) <:+ input := passed.leaves _ _ rfl
    refine (reads_get here).step (passed.step ((reads_since (beforeBracket (trimStart rest)) here ?_).step ?_))
    · rw [beforeBracket, List.takeWhile_append_dropWhile]
    · dsimp only
      split
      · exact reads_fail .emptyPredicate h rfl _
      · rename_i nonempty
        cases read : readWord? (trim (beforeBracket (trimStart rest))) with
        | none => exact reads_fail (.invalidPosition _) here (invalidPosition_at nonempty (by simp [read])) _
        | some place =>
          cases place with
          | zero => exact reads_fail (.invalidPosition _) here (invalidPosition_at nonempty (by simp [read])) _
          | succ place => exact reads_close _ h there

theorem readPredicates_cons (s : List Char) : readPredicates ('[' :: s) = do
    let (predicate, rest) ← readPredicate ('[' :: s) s
    let (predicates, rest) ← readPredicates rest
    return (predicate :: predicates, rest) := by
  rw [readPredicates]
  cases readPredicate ('[' :: s) s with
  | error stop => rfl
  | ok read => cases h : readPredicates read.2 <;> simp [h]

theorem reads_predicateRounds {rounds : Nat} (h : rest <:+ input) (hr : rest.length < rounds) :
    Reads input (predicateRounds input rounds) rest (readPredicates rest) := by
  induction rounds generalizing rest with
  | zero => cases hr
  | succ rounds ih =>
    by_cases marked : ['['] <+: rest
    · obtain ⟨s, e⟩ := marked
      obtain rfl : '[' :: s = rest := e
      rw [readPredicates_cons]
      refine (reads_eat ['['] h).step ((reads_predicate h).bind fun first after hp ha => ?_)
      have shorter := readPredicate_length hp
      rw [List.length_cons] at hr
      exact (ih ha (by omega)).bind fun others last _ hl => reads_pure hl (first :: others)
    · have none : readPredicates rest = .ok ([], rest) := by
        rw [readPredicates]
        rintro s rfl
        exact marked ⟨s, rfl⟩
      rw [none]
      exact (reads_eat_not h marked).step (reads_pure h [])

theorem reads_predicates (h : rest <:+ input) : Reads input (predicates input) rest (readPredicates rest) :=
  reads_predicateRounds h (length_lt_rounds h)

theorem reads_nameTest (h : rest <:+ input) : Reads input (nameTest input) rest (readNameTest rest) := by
  unfold readNameTest
  split
  · rename_i after
    have eaten := reads_eat ['*'] h
    exact eaten.step (reads_pure (eaten.leaves _ _ rfl) "*")
  · rename_i no
    exact (reads_eat_not h (not_prefix_of_ne no)).step (reads_name h)

theorem readSegment_eq (axis : Axis) (s : List Char) : readSegment axis s = do
    let (name, rest) ← readNameTest s
    let (predicates, rest) ← readPredicates rest
    return (⟨axis, name, predicates⟩, rest) := by
  rw [readSegment]
  cases readNameTest s with
  | error stop => rfl
  | ok read => cases h : readPredicates read.2 <;> simp [h]

theorem reads_segment (axis : Axis) (h : rest <:+ input) : Reads input (segment input axis) rest (readSegment axis rest) := by
  rw [readSegment_eq]
  refine (reads_nameTest h).bind fun name after _ ha => ?_
  exact (reads_predicates ha).bind fun predicates last _ hl => reads_pure hl _

/-- an axis, if something comes after its separator -/
def lead (axis : Axis) : List Char → Except Stop (Axis × List Char)
  | [] => .error ⟨.trailingSlash, []⟩
  | rest => .ok (axis, rest)

theorem readSeparator_double (s : List Char) : readSeparator ('/' :: '/' :: s) = lead .descendant s := by
  cases s <;> rfl

theorem readSeparator_single {s : List Char} (single : ¬ ['/', '/'] <+: '/' :: s) : readSeparator ('/' :: s) = lead .child s := by
  cases s with
  | nil => rfl
  | cons c s =>
    have other : c ≠ '/' := by
      rintro rfl
      exact single ⟨s, rfl⟩
    rw [readSeparator]
    · rfl
    all_goals simp [other]

theorem readSeparator_none {c : Char} {s : List Char} (none : ¬ ['/'] <+: c :: s) :
    readSeparator (c :: s) = .error ⟨.unexpectedChar c, c :: s⟩ := by
  have other : c ≠ '/' := by
    rintro rfl
    exact none ⟨s, rfl⟩
  unfold readSeparator
  split <;> simp_all

theorem reads_leading (axis : Axis) (h : rest <:+ input) : Reads input (leading input axis) rest (lead axis rest) := by
  refine (reads_peek h).step ?_
  cases rest with
  | nil => exact (reads_get h).step (reads_fail .trailingSlash h rfl [])
  | cons c rest => exact reads_pure h axis

theorem reads_separator {c : Char} (h : c :: rest <:+ input) :
    Reads input (separator input) (c :: rest) (readSeparator (c :: rest)) := by
  by_cases double : ['/', '/'] <+: c :: rest
  · obtain ⟨after, e⟩ := double
    rw [← e] at h ⊢
    have eaten := reads_eat ['/', '/'] h
    exact eaten.step (readSeparator_double after ▸ reads_leading .descendant (eaten.leaves _ _ rfl))
  · refine (reads_eat_not h double).step ?_
    by_cases single : ['/'] <+: c :: rest
    · obtain ⟨after, e⟩ := single
      rw [← e] at h double ⊢
      have eaten := reads_eat ['/'] h
      exact eaten.step (readSeparator_single double ▸ reads_leading .child (eaten.leaves _ _ rfl))
    · refine (reads_eat_not h single).step ((reads_peek h).step ((reads_get h).step ?_))
      rw [readSeparator_none single]
      exact reads_fail (.unexpectedChar c) h rfl _

/-- the outcome of a reader that reads to the end -/
def toEnd (outcome : Except Stop α) : Except Stop (α × List Char) :=
  outcome.map (·, [])

theorem readSegments_eq (axis : Axis) (s : List Char) : toEnd (readSegments axis s) = do
    let (segment, rest) ← readSegment axis s
    if rest.isEmpty then return ([segment], rest)
    else
      let (axis, rest) ← readSeparator rest
      let (segments, rest) ← toEnd (readSegments axis rest)
      return (segment :: segments, rest) := by
  rw [readSegments]
  split
  · rename_i read
    rw [read]
    rfl
  · rename_i read
    rw [read]
    rfl
  · rename_i segment c rest read
    rw [read]
    split
    · rename_i separated
      simp [separated, toEnd]
    · rename_i axis rest separated
      cases more : readSegments axis rest <;> simp [separated, more, toEnd]

theorem reads_segmentRounds (axis : Axis) {rounds : Nat} (h : rest <:+ input) (hr : rest.length < rounds) :
    Reads input (segmentRounds input axis rounds) rest (toEnd (readSegments axis rest)) := by
  induction rounds generalizing axis rest with
  | zero => cases hr
  | succ rounds ih =>
    rw [readSegments_eq]
    refine (reads_segment axis h).bind fun first after hs ha => (reads_peek ha).step ?_
    have shorter := readSegment_length hs
    cases after with
    | nil => exact reads_pure ha [first]
    | cons c after =>
      refine (reads_separator ha).bind fun axis last hsep hl => ?_
      have shorter' := readSeparator_length hsep
      exact (ih axis hl (by omega)).bind fun others left _ hr => reads_pure hr (first :: others)

theorem reads_segments (axis : Axis) (h : rest <:+ input) :
    Reads input (segments input axis) rest (toEnd (readSegments axis rest)) :=
  reads_segmentRounds axis h (length_lt_rounds h)

theorem reads_opened {relative : Bool} {axis : Axis} (h : Reads input (opening input) input (.ok ((relative, axis), rest))) :
    Reads input (path input) input (toEnd ((readSegments axis rest).map (⟨relative, ·⟩))) := by
  have read : toEnd ((readSegments axis rest).map (Locator.mk relative)) =
      toEnd (readSegments axis rest) >>= fun (segments, rest) => .ok (⟨relative, segments⟩, rest) := by
    cases readSegments axis rest <;> rfl
  rw [read]
  refine h.step ((reads_segments axis (h.leaves _ _ rfl)).bind fun segments after _ ha => ?_)
  exact reads_pure ha (Locator.mk relative segments)

theorem reads_path (input : List Char) : Reads input (path input) input (toEnd (readPath input)) := by
  have whole := List.suffix_refl input
  by_cases double : ['/', '/'] <+: input
  · obtain ⟨after, rfl⟩ := double
    have eaten := reads_eat ['/', '/'] whole
    have opened : Reads _ (opening _) _ (.ok ((false, Axis.descendant), after)) :=
      eaten.step (reads_pure (eaten.leaves _ _ rfl) (false, Axis.descendant))
    exact reads_opened opened
  · by_cases single : ['/'] <+: input
    · obtain ⟨after, rfl⟩ := single
      have eaten := reads_eat ['/'] whole
      have opened : Reads _ (opening _) _ (.ok ((false, Axis.child), after)) :=
        (reads_eat_not whole double).step (eaten.step (reads_pure (eaten.leaves _ _ rfl) (false, Axis.child)))
      have read : readPath ('/' :: after) = (readSegments .child after).map (⟨false, ·⟩) := by
        rw [readPath]
        rintro rest rfl
        exact double ⟨rest, rfl⟩
      rw [List.singleton_append] at opened ⊢
      exact read ▸ reads_opened opened
    · have opened : Reads _ (opening _) _ (.ok ((true, Axis.child), input)) :=
        (reads_eat_not whole double).step ((reads_eat_not whole single).step (reads_pure whole (true, Axis.child)))
      have read : readPath input = (readSegments .child input).map (⟨true, ·⟩) := by
        rw [readPath]
        · rintro rest rfl
          exact double ⟨rest, rfl⟩
        · rintro rest rfl
          exact single ⟨rest, rfl⟩
      exact read ▸ reads_opened opened

end Cursor

/-- the parser by byte offsets never breaks off, and it does what the parser does -/
theorem parseBytes_eq (text : String) : parseBytes text = some (parse text) := by
  rw [parseBytes, parse]
  dsimp only
  split
  · rfl
  · have read := (Cursor.reads_path (trim text.toList)).run
    have start : Cursor.offset (trim text.toList) (trim text.toList) = 0 := Nat.sub_self _
    rw [start] at read
    rw [StateT.run'_eq, ExceptT.run_map, read]
    cases readPath (trim text.toList) <;> rfl

/-- **Reading by byte offsets** never breaks off and does what the parser does. **Every error** is at an offset where a
character of the trimmed text begins or the text ends, and where its fault is found. -/
theorem parse_placed (text : String) :
    parseBytes text = some (parse text) ∧ ∀ error, parse text = .error error → error.Placed (trim text.toList) := by
  refine ⟨parseBytes_eq text, ?_⟩
  intro error h
  rw [parse] at h
  split at h
  · rename_i nothing
    cases h
    exact List.isEmpty_iff.1 nothing
  · obtain ⟨stop, read, rfl⟩ := mapError_eq_error.1 h
    obtain ⟨⟨before, e⟩, found⟩ := (Cursor.reads_path (trim text.toList)).stops stop (by rw [read]; rfl)
    refine ⟨before, stop.rest, e.symm, ?_, found⟩
    rw [← e, byteSize_append, Nat.add_sub_cancel]

/-- a digit that is none of the ten is a fault, and stands after letters of more than one byte -/
theorem parse_placed_wideDigit :
    let text := " /é[@k='ü']/ß[ ３ ] "
    let error := LocatorError.malformed (.invalidPosition "３") 17
    parse text = .error error ∧ error.Placed (trim text.toList) := by
  intro text error
  have h : parse text = .error error := by decide +kernel
  exact ⟨h, (parse_placed text).2 error h⟩

end Locator

end XmlStore
