/-
JSON that is written and read again.

The reader goes through what the printer writes and comes out with the value that was written, at any level and inside any arrays
and objects that are open. A number ends only with the character after it; so what a value leaves behind is a reader that goes
on as one that has the value (`Reader.Has`).

Main statements:
- `Quoted.takes_escape`: a character is read in a string as it was before it was escaped.
- `reads_render`: a value is read as it is written, between any others.
- `parse_pretty`: so is every text that is written.
-/
import XmlStore.Json.Printer
import XmlStore.Json.Reader

namespace XmlStore.Json

/-! ## Numbers -/

theorem head?_toDigits {n : Nat} (h : 0 < n) : (Nat.toDigits 10 n).head? ≠ some '0' := by
  induction n using Nat.strongRecOn with
  | ind n ih =>
    by_cases small : n < 10
    · have all : ∀ d : Fin 10, 0 < d.val → d.val.digitChar ≠ '0' := by decide
      rw [Nat.toDigits_of_lt_base small]
      intro e
      exact all ⟨n, small⟩ h (Option.some.inj e)
    · have front := ih (n / 10) (Nat.div_lt_self h (by decide)) (by omega)
      obtain ⟨d, digits, e⟩ := List.exists_cons_of_ne_nil (Nat.toDigits_ne_nil (n := n / 10) (b := 10))
      rw [Nat.toDigits_of_base_le (by decide) (by omega), e]
      rw [e] at front
      exact front

/-- what is written for a natural number is a number -/
theorem isNumber_toDigits (n : Nat) : isNumber (Nat.toDigits 10 n) = true := by
  have digits : ∀ c ∈ Nat.toDigits 10 n, c.isDigit = true := fun c hc =>
    Nat.isDigit_of_mem_toDigits (by decide) (by decide) hc
  by_cases hn : n = 0
  · subst hn
    decide
  · have first := head?_toDigits (Nat.pos_of_ne_zero hn)
    obtain ⟨d, rest, e⟩ := List.exists_cons_of_ne_nil (Nat.toDigits_ne_nil (n := n) (b := 10))
    rw [e] at digits first ⊢
    have signless : d ≠ '-' := by
      rintro rfl
      exact absurd (digits '-' List.mem_cons_self) (by decide)
    have nonzero : d ≠ '0' := by
      rintro rfl
      exact first rfl
    have all : (d :: rest ++ []).takeWhile Char.isDigit = d :: rest ++ [].takeWhile Char.isDigit :=
      List.takeWhile_append_of_pos digits
    have none : (d :: rest ++ []).dropWhile Char.isDigit = [].dropWhile Char.isDigit := List.dropWhile_append_of_pos digits
    rw [List.append_nil] at all none
    rw [List.takeWhile_nil, List.append_nil] at all
    rw [List.dropWhile_nil] at none
    have unsigned : isUnsigned (d :: rest) = true := by
      unfold isUnsigned
      split
      · rename_i e
        cases e
        exact absurd rfl nonzero
      · rw [all, none, isDigits, List.all_eq_true.2 digits]
        rfl
    unfold isNumber
    split
    · rename_i e
      cases e
      exact absurd rfl signless
    · exact unsigned

/-! ## Values that can be written -/

mutual

/-- a value of which the text is read again: its numbers are natural, and all its strings stand for texts -/
def Plain : Json → Prop
  | .null => True
  | .bool _ => True
  | .number literal => ∃ n : Nat, literal = n.repr
  | .string _ => True
  | .unpaired => False
  | .array items => PlainItems items
  | .object members => PlainMembers members

def PlainItems : List Json → Prop
  | [] => True
  | item :: rest => item.Plain ∧ PlainItems rest

def PlainMembers : List (String × Json) → Prop
  | [] => True
  | (_, value) :: rest => value.Plain ∧ PlainMembers rest

end

theorem plain_ofNat (n : Nat) : (ofNat n).Plain := ⟨n, rfl⟩

theorem plainItems_iff {items : List Json} : PlainItems items ↔ ∀ item ∈ items, item.Plain := by
  induction items with
  | nil => simp [PlainItems]
  | cons item rest ih => simp [PlainItems, ih]

/-! ## Strings -/

namespace Quoted

/-- reads one more character of a string; none at its end -/
def feed (q : Quoted) (c : Char) : Option Quoted :=
  if c = '"' ∧ q.escape = .none then none else q.step c

/-- in a string, after the given characters, which stand last first -/
def holding (s : List Char) : Quoted := ⟨some s, none, .none⟩

theorem hexValue?_digitChar {d : Nat} (h : d < 16) : hexValue? d.digitChar = some d := by
  have all : ∀ d : Fin 16, hexValue? d.val.digitChar = some d.val := by decide
  exact all ⟨d, h⟩

/-- a short escape stands for its character -/
theorem feed_short {letter c : Char} (h : shortEscape? letter = some c) (hu : letter ≠ 'u') (s : List Char) :
    ['\\', letter].foldlM feed (holding s) = some (holding (c :: s)) := by
  simp [feed, step, holding, h, hu, push]

theorem feed_control {c : Char} (h : c.toNat < 0x20) (s : List Char) :
    ['\\', 'u', '0', '0', Nat.digitChar (c.toNat / 16), Nat.digitChar (c.toNat % 16)].foldlM feed (holding s) =
      some (holding (c :: s)) := by
  have high : hexValue? (Nat.digitChar (c.toNat / 16)) = some (c.toNat / 16) := hexValue?_digitChar (by omega)
  have low : hexValue? (Nat.digitChar (c.toNat % 16)) = some (c.toNat % 16) := hexValue?_digitChar (by omega)
  have zero : hexValue? '0' = some 0 := by decide
  have whole : c.toNat / 16 * 16 + c.toNat % 16 = c.toNat := by omega
  have single : ¬ (0xD800 ≤ c.toNat ∧ c.toNat ≤ 0xDBFF) := by omega
  have single' : ¬ (0xDC00 ≤ c.toNat ∧ c.toNat ≤ 0xDFFF) := by omega
  simp [feed, step, holding, high, low, zero, whole, pushUnit, single, single', Char.ofNat_toNat]

/-- **An escaped character** is read as that character. -/
theorem takes_escape (c : Char) (s : List Char) : (escapeChar c).foldlM feed (holding s) = some (holding (c :: s)) := by
  unfold escapeChar
  by_cases quote : c = '"'
  · rw [if_pos quote, quote]
    exact feed_short rfl (by decide) s
  rw [if_neg quote]
  by_cases slash : c = '\\'
  · rw [if_pos slash, slash]
    exact feed_short rfl (by decide) s
  rw [if_neg slash]
  by_cases line : c = '\n'
  · rw [if_pos line, line]
    exact feed_short rfl (by decide) s
  rw [if_neg line]
  by_cases carriage : c = '\r'
  · rw [if_pos carriage, carriage]
    exact feed_short rfl (by decide) s
  rw [if_neg carriage]
  by_cases tab : c = '\t'
  · rw [if_pos tab, tab]
    exact feed_short rfl (by decide) s
  rw [if_neg tab]
  by_cases back : c.toNat = 0x08
  · have : c = '\x08' := Char.ext (UInt32.toNat.inj back)
    rw [if_pos back, this]
    exact feed_short rfl (by decide) s
  rw [if_neg back]
  by_cases form : c.toNat = 0x0C
  · have : c = '\x0C' := Char.ext (UInt32.toNat.inj form)
    rw [if_pos form, this]
    exact feed_short rfl (by decide) s
  rw [if_neg form]
  by_cases control : c.toNat < 0x20
  · rw [if_pos control]
    exact feed_control control s
  · rw [if_neg control]
    simp [feed, step, holding, quote, slash, control, push]

theorem takes_escaped (value s : List Char) :
    (value.flatMap escapeChar).foldlM feed (holding s) = some (holding (value.reverse ++ s)) := by
  induction value generalizing s with
  | nil => rfl
  | cons c rest ih => simp [List.foldlM_append, takes_escape, ih]

theorem text?_holding (s : String) : (holding s.toList.reverse).text? = some s := by
  simp [text?, holding]

end Quoted

/-! ## The reader -/

namespace Reader

/-- the reader after more characters -/
def Reads (r : Reader) (s : List Char) (r' : Reader) : Prop := s.foldlM step r = some r'

variable {r r' r'' : Reader} {s s' : List Char} {frames : List Frame} {value : Json}

theorem Reads.nil : r.Reads [] r := rfl

theorem Reads.single {c : Char} (h : r.step c = some r') : r.Reads [c] r' := by
  simp [Reads, h]

theorem Reads.append (h : r.Reads s r') (h' : r'.Reads s' r'') : r.Reads (s ++ s') r'' := by
  rw [Reads, List.foldlM_append, h]
  exact h'

theorem Reads.cons {c : Char} (h : r.step c = some r') (h' : r'.Reads s r'') : r.Reads (c :: s) r'' :=
  (Reads.single h).append h'

/-- whether the reader is between two pieces of the text, where blanks do not matter -/
def between : Expect → Bool
  | .value => true
  | .firstItem => true
  | .name _ => true
  | .firstName => true
  | .next _ => true
  | _ => false

theorem step_blank {expect : Expect} (h : between expect = true) {c : Char} (hc : isJsonBlank c = true) :
    step ⟨frames, expect⟩ c = some ⟨frames, expect⟩ := by
  cases expect <;> first | cases h; done | simp only [step, hc, if_true]

/-- the blanks of a new line do not matter between two pieces, whatever its first one has been -/
theorem reads_newLine {expect : Expect} (first : r.step '\n' = some ⟨frames, expect⟩) (h : between expect = true) (level : Nat) :
    r.Reads (newLine level) ⟨frames, expect⟩ := by
  have blanks : ∀ n, Reads ⟨frames, expect⟩ (List.replicate n ' ') ⟨frames, expect⟩ := by
    intro n
    induction n with
    | zero => exact .nil
    | succ n ih => exact .cons (step_blank h rfl) ih
  exact .cons first (blanks _)

theorem reads_line {expect : Expect} (h : between expect = true) (level : Nat) :
    Reads ⟨frames, expect⟩ (newLine level) ⟨frames, expect⟩ :=
  reads_newLine (step_blank h rfl) h level

/-- a reader that goes on as one that has read a value inside the given arrays and objects -/
inductive Has : Reader → List Frame → Json → Prop where
  | next {frames : List Frame} {value : Json} : Has ⟨frames, .next value⟩ frames value
  | number {frames : List Frame} {literal : List Char} (h : isNumber literal.reverse = true) :
    Has ⟨frames, .number literal⟩ frames (.number (String.ofList literal.reverse))

theorem Has.newLine (h : r.Has frames value) (level : Nat) : r.Reads (newLine level) ⟨frames, .next value⟩ := by
  refine reads_newLine ?_ rfl level
  cases h with
  | next => exact step_blank rfl rfl
  | number h =>
    have other : isNumberChar '\n' = false := by decide
    have blank : isJsonBlank '\n' = true := by decide
    simp [step, other, blank, h, goOn]

theorem Has.comma (h : r.Has frames value) : r.step ',' = (⟨frames, .value⟩ : Reader).afterValue value ',' := by
  have other : isNumberChar ',' = false := by decide
  have shown : isJsonBlank ',' = false := by decide
  cases h with
  | next => simp [step, shown, afterValue]
  | number h => simp [step, other, shown, h, afterValue]

theorem Has.finish (h : r.Has [] value) : r.finish = some value := by
  cases h with
  | next => rfl
  | number h => simp [Reader.finish, h]

/-! ## Strings between other values -/

/-- a string is read the same wherever the reader keeps it -/
theorem reads_quoted {wrap : Quoted → Expect}
    (hw : ∀ q c q', q.feed c = some q' → step ⟨frames, wrap q⟩ c = some ⟨frames, wrap q'⟩) {q q' : Quoted}
    (h : s.foldlM Quoted.feed q = some q') : Reads ⟨frames, wrap q⟩ s ⟨frames, wrap q'⟩ := by
  induction s generalizing q with
  | nil =>
    cases h
    exact .nil
  | cons c rest ih =>
    rw [List.foldlM_cons] at h
    obtain ⟨middle, hm, hr⟩ := Option.bind_eq_some_iff.1 h
    exact .cons (hw q c middle hm) (ih hr)

theorem step_quoted {q q' : Quoted} {c : Char} (h : q.feed c = some q') :
    step ⟨frames, .quoted q⟩ c = some ⟨frames, .quoted q'⟩ := by
  unfold Quoted.feed at h
  split at h
  · cases h
  · rename_i inside
    simp only [step, if_neg inside, h, Option.bind_some, goOn]

theorem step_quotedName {members : Members} {q q' : Quoted} {c : Char} (h : q.feed c = some q') :
    step ⟨frames, .quotedName members q⟩ c = some ⟨frames, .quotedName members q'⟩ := by
  unfold Quoted.feed at h
  split at h
  · cases h
  · rename_i inside
    simp only [step, if_neg inside, h, Option.bind_some, goOn]

theorem reads_string (value : String) : Reads ⟨frames, .value⟩ (renderString value) ⟨frames, .next (.string value)⟩ := by
  have opens : step ⟨frames, .value⟩ '"' = some ⟨frames, .quoted (Quoted.holding [])⟩ := rfl
  have inside : Reads ⟨frames, .quoted (Quoted.holding [])⟩ (value.toList.flatMap escapeChar)
      ⟨frames, .quoted (Quoted.holding value.toList.reverse)⟩ :=
    reads_quoted (fun _ _ _ => step_quoted) (by rw [Quoted.takes_escaped, List.append_nil])
  have closes : step ⟨frames, .quoted (Quoted.holding value.toList.reverse)⟩ '"' = some ⟨frames, .next (.string value)⟩ := by
    have whole : (Quoted.holding value.toList.reverse).toJson = .string value := by
      rw [Quoted.toJson, Quoted.text?_holding]
    simp [step, Quoted.holding, goOn, ← whole]
  exact (Reads.cons opens inside).append (.single closes)

theorem reads_name {members : Members} {expect : Expect} (name : String)
    (opens : step ⟨frames, expect⟩ '"' = some ⟨frames, .quotedName members (Quoted.holding [])⟩) :
    Reads ⟨frames, expect⟩ (renderString name) ⟨frames, .colon members (some name)⟩ := by
  have inside : Reads ⟨frames, .quotedName members (Quoted.holding [])⟩ (name.toList.flatMap escapeChar)
      ⟨frames, .quotedName members (Quoted.holding name.toList.reverse)⟩ :=
    reads_quoted (fun _ _ _ => step_quotedName) (by rw [Quoted.takes_escaped, List.append_nil])
  have closes : step ⟨frames, .quotedName members (Quoted.holding name.toList.reverse)⟩ '"' =
      some ⟨frames, .colon members (some name)⟩ := by
    simp [step, Quoted.holding, goOn, ← Quoted.text?_holding name]
  exact (Reads.cons opens inside).append (.single closes)

theorem reads_colon {members : Members} (name : Option String) :
    Reads ⟨frames, .colon members name⟩ [':', ' '] ⟨.object members name :: frames, .value⟩ := rfl

/-! ## Values -/

theorem startValue_digit {c : Char} (h : c.isDigit = true) (r : Reader) : r.startValue c = some ⟨r.frames, .number [c]⟩ := by
  have other : ∀ d : Char, d.isDigit = false → c ≠ d := by
    rintro d hd rfl
    rw [h] at hd
    cases hd
  have number : isNumberChar c = true := by simp [isNumberChar, h]
  simp [startValue, other '"' rfl, other '[' rfl, other '{' rfl, other 'n' rfl, other 't' rfl, other 'f' rfl, number, goOn]

theorem reads_digits {digits : List Char} (h : ∀ c ∈ digits, c.isDigit = true) (literal : List Char) :
    Reads ⟨frames, .number literal⟩ digits ⟨frames, .number (digits.reverse ++ literal)⟩ := by
  induction digits generalizing literal with
  | nil => exact .nil
  | cons c rest ih =>
    have number : isNumberChar c = true := by simp [isNumberChar, h c List.mem_cons_self]
    have collects : step ⟨frames, .number literal⟩ c = some ⟨frames, .number (c :: literal)⟩ := by simp [step, number, goOn]
    rw [List.reverse_cons, List.append_assoc]
    exact .cons collects (ih (fun c hc => h c (List.mem_cons_of_mem _ hc)) (c :: literal))

theorem reads_number (n : Nat) : ∃ r, Reads ⟨frames, .value⟩ n.repr.toList r ∧ r.Has frames (.number n.repr) := by
  have digits : ∀ c ∈ Nat.toDigits 10 n, c.isDigit = true := fun c hc =>
    Nat.isDigit_of_mem_toDigits (by decide) (by decide) hc
  have number := isNumber_toDigits n
  rw [Nat.toList_repr, Nat.repr_eq_ofList_toDigits]
  obtain ⟨d, rest, e⟩ := List.exists_cons_of_ne_nil (Nat.toDigits_ne_nil (n := n) (b := 10))
  rw [e] at digits number ⊢
  have shown : isJsonBlank d = false := by
    have first := digits d List.mem_cons_self
    simp only [isJsonBlank, Bool.or_eq_false_iff, beq_eq_false_iff_ne]
    refine ⟨⟨⟨?_, ?_⟩, ?_⟩, ?_⟩ <;> rintro rfl <;> exact absurd first (by decide)
  have first : step ⟨frames, .value⟩ d = some ⟨frames, .number [d]⟩ := by
    simp only [step, shown, startValue_digit (digits d List.mem_cons_self), Bool.false_eq_true, if_false]
  refine ⟨_, .cons first (reads_digits (fun c hc => digits c (List.mem_cons_of_mem _ hc)) [d]), ?_⟩
  have whole : (rest.reverse ++ [d]).reverse = d :: rest := by simp
  have has : Has ⟨frames, .number (rest.reverse ++ [d])⟩ frames (.number (String.ofList (rest.reverse ++ [d]).reverse)) :=
    .number (by rw [whole]; exact number)
  rwa [whole] at has

/-- what is written for a value does not begin with a blank or the end of an array -/
theorem render_head {j : Json} (h : j.Plain) (level : Nat) :
    ∃ c s, j.render level = c :: s ∧ isJsonBlank c = false ∧ c ≠ ']' := by
  cases j with
  | null => exact ⟨'n', _, rfl, by decide, by decide⟩
  | bool value =>
    cases value with
    | true => exact ⟨'t', _, rfl, by decide, by decide⟩
    | false => exact ⟨'f', _, rfl, by decide, by decide⟩
  | number literal =>
    obtain ⟨n, rfl⟩ := h
    obtain ⟨d, rest, e⟩ := List.exists_cons_of_ne_nil (Nat.toDigits_ne_nil (n := n) (b := 10))
    have digit : d.isDigit = true := Nat.isDigit_of_mem_toDigits (by decide) (by decide) (e ▸ List.mem_cons_self)
    refine ⟨d, rest, by rw [render, Nat.toList_repr, e], ?_, ?_⟩
    · simp only [isJsonBlank, Bool.or_eq_false_iff, beq_eq_false_iff_ne]
      refine ⟨⟨⟨?_, ?_⟩, ?_⟩, ?_⟩ <;> rintro rfl <;> exact absurd digit (by decide)
    · rintro rfl
      exact absurd digit (by decide)
  | string value => exact ⟨'"', _, rfl, by decide, by decide⟩
  | unpaired => exact absurd h id
  | array items =>
    cases items with
    | nil => exact ⟨'[', _, rfl, by decide, by decide⟩
    | cons => exact ⟨'[', _, rfl, by decide, by decide⟩
  | object members =>
    cases members with
    | nil => exact ⟨'{', _, rfl, by decide, by decide⟩
    | cons => exact ⟨'{', _, rfl, by decide, by decide⟩

/-- the first item of an array is read as any other -/
theorem Reads.firstItem {c : Char} (h : Reads ⟨.array [] :: frames, .value⟩ (c :: s) r) (shown : isJsonBlank c = false)
    (more : c ≠ ']') : Reads ⟨frames, .firstItem⟩ (c :: s) r := by
  have same : step ⟨frames, .firstItem⟩ c = step ⟨.array [] :: frames, .value⟩ c := by
    simp only [step, shown, more, Bool.false_eq_true, if_false]
  rw [Reads, List.foldlM_cons] at h ⊢
  rwa [same]

/-- a member as it is held while its object is read -/
def named (member : String × Json) : Option String × Json := (some member.1, member.2)

@[simp] theorem named_mk (name : String) (value : Json) : named (name, value) = (some name, value) := rfl

theorem mapM_named {name? : Option String × Json → Option (String × Json)} (h : ∀ member, name? (named member) = some member)
    (members : List (String × Json)) : (members.map named).mapM name? = some members := by
  induction members with
  | nil => rfl
  | cons member rest ih => simp [h, ih]

theorem objectOf_named (members : List (String × Json)) : objectOf (members.map named).reverse = .object members := by
  rw [objectOf, List.reverse_reverse, mapM_named fun _ => rfl]

mutual

/-- **A value is read as it is written**, inside any arrays and objects. -/
theorem reads_render : (j : Json) → j.Plain → ∀ (level : Nat) (frames : List Frame),
    ∃ r, Reads ⟨frames, .value⟩ (j.render level) r ∧ r.Has frames j
  | .null, _, _, _ => ⟨_, rfl, .next⟩
  | .bool true, _, _, _ => ⟨_, rfl, .next⟩
  | .bool false, _, _, _ => ⟨_, rfl, .next⟩
  | .number literal, h, level, frames => by
    obtain ⟨n, rfl⟩ := h
    exact reads_number n
  | .string value, _, _, _ => ⟨_, reads_string value, .next⟩
  | .unpaired, h, _, _ => absurd h id
  | .array [], _, _, _ => ⟨_, rfl, .next⟩
  | .array (first :: rest), h, level, frames => by
    obtain ⟨r, hfirst, has⟩ := reads_render first h.1 (level + 1) (.array [] :: frames)
    obtain ⟨r', before, last, hrest, has', whole⟩ := reads_renderItems rest h.2 (level + 1) frames [] first r has
    obtain ⟨c, s, e, shown, more⟩ := render_head h.1 (level + 1)
    have opens : step ⟨frames, .value⟩ '[' = some ⟨frames, .firstItem⟩ := rfl
    have item : Reads ⟨frames, .firstItem⟩ (first.render (level + 1)) r := by
      rw [e] at hfirst ⊢
      exact hfirst.firstItem shown more
    have closes : step ⟨.array before :: frames, .next last⟩ ']' = some ⟨frames, .next (.array (first :: rest))⟩ := by
      have all : (last :: before).reverse = first :: rest := by simp [whole]
      rw [← all]
      rfl
    refine ⟨_, ?_, .next⟩
    rw [render]
    exact (((((Reads.cons opens (reads_line rfl _)).append item).append hrest).append (has'.newLine level)).append (.single closes))
  | .object [], _, _, _ => ⟨_, rfl, .next⟩
  | .object ((name, value) :: rest), h, level, frames => by
    obtain ⟨r, hfirst, has⟩ := reads_render value h.1 (level + 1) (.object [] (some name) :: frames)
    obtain ⟨r', before, name', last, hrest, has', whole⟩ :=
      reads_renderMembers rest h.2 (level + 1) frames [] name value r has
    have opens : step ⟨frames, .value⟩ '{' = some ⟨frames, .firstName⟩ := rfl
    have member : Reads ⟨frames, .firstName⟩ (renderString name ++ [':', ' ']) ⟨.object [] (some name) :: frames, .value⟩ :=
      (reads_name name rfl).append (reads_colon (some name))
    have closes : step ⟨.object before (some name') :: frames, .next last⟩ '}' =
        some ⟨frames, .next (.object ((name, value) :: rest))⟩ := by
      rw [← objectOf_named, List.map_cons, List.reverse_cons, named_mk, ← whole]
      rfl
    refine ⟨_, ?_, .next⟩
    rw [render, List.append_assoc _ (renderString name)]
    exact (((((Reads.cons opens (reads_line rfl _)).append member).append hfirst).append hrest).append (has'.newLine level)).append
      (.single closes)

/-- the items after the first are read as they are written -/
theorem reads_renderItems : (items : List Json) → PlainItems items → ∀ (level : Nat) (frames : List Frame) (before : List Json)
    (last : Json) (r : Reader), r.Has (.array before :: frames) last →
    ∃ r' before' last', r.Reads (renderItems level items) r' ∧ r'.Has (.array before' :: frames) last' ∧
      last' :: before' = items.reverse ++ last :: before
  | [], _, _, _, before, last, r, has => ⟨r, before, last, .nil, has, rfl⟩
  | item :: rest, h, level, frames, before, last, r, has => by
    obtain ⟨r', hitem, has'⟩ := reads_render item h.1 level (.array (last :: before) :: frames)
    obtain ⟨r'', before'', last'', hrest, has'', whole⟩ :=
      reads_renderItems rest h.2 level frames (last :: before) item r' has'
    have comma : r.step ',' = some ⟨.array (last :: before) :: frames, .value⟩ := has.comma
    refine ⟨r'', before'', last'', ?_, has'', by simp [whole]⟩
    rw [renderItems]
    exact ((Reads.cons comma (reads_line rfl _)).append hitem).append hrest

/-- the members after the first are read as they are written -/
theorem reads_renderMembers : (members : List (String × Json)) → PlainMembers members → ∀ (level : Nat) (frames : List Frame)
    (before : Members) (name : String) (last : Json) (r : Reader), r.Has (.object before (some name) :: frames) last →
    ∃ r' before' name' last', r.Reads (renderMembers level members) r' ∧
      r'.Has (.object before' (some name') :: frames) last' ∧
      (some name', last') :: before' = (members.map named).reverse ++ (some name, last) :: before
  | [], _, _, _, before, name, last, r, has => ⟨r, before, name, last, .nil, has, rfl⟩
  | (name', value) :: rest, h, level, frames, before, name, last, r, has => by
    obtain ⟨r', hvalue, has'⟩ := reads_render value h.1 level (.object ((some name, last) :: before) (some name') :: frames)
    obtain ⟨r'', before'', name'', last'', hrest, has'', whole⟩ :=
      reads_renderMembers rest h.2 level frames ((some name, last) :: before) name' value r' has'
    have comma : r.step ',' = some ⟨frames, .name ((some name, last) :: before)⟩ := has.comma
    have member : Reads ⟨frames, .name ((some name, last) :: before)⟩ (renderString name' ++ [':', ' '])
        ⟨.object ((some name, last) :: before) (some name') :: frames, .value⟩ :=
      (reads_name name' rfl).append (reads_colon (some name'))
    refine ⟨r'', before'', name'', last'', ?_, has'', by simp [whole]⟩
    rw [renderMembers, List.append_assoc _ (renderString name')]
    exact (((Reads.cons comma (reads_line rfl _)).append member).append hvalue).append hrest

end

end Reader

/-- **What is written is read again.** -/
theorem parse_pretty {j : Json} (h : j.Plain) : parse j.pretty = some j := by
  obtain ⟨r, hr, has⟩ := Reader.reads_render j h 0 []
  have read : (j.render 0).foldlM Reader.step Reader.initial = some r := hr
  rw [parse, pretty, String.toList_ofList, read]
  exact has.finish

end XmlStore.Json
