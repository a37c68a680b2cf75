/-
What trimming leaves, and what it leaves alone.

Main statements:
- `trim_split`: a text is its trimmed form with blanks around it.
- `trim_append`: blanks around a text that neither begins nor ends with one are trimmed off.
-/
import XmlStore.Text.Basic

namespace XmlStore.Text

/-- the first character is not blank, if there is one -/
def StartsPlain (s : List Char) : Prop := ∀ c ∈ s.head?, isBlank c = false

/-- the last character is not blank, if there is one -/
def EndsPlain (s : List Char) : Prop := ∀ c ∈ s.getLast?, isBlank c = false

variable {s t : List Char} {c : Char}

theorem startsPlain_cons {rest : List Char} : StartsPlain (c :: rest) ↔ isBlank c = false := by
  simp [StartsPlain]

theorem startsPlain_reverse : StartsPlain s.reverse ↔ EndsPlain s := by
  rw [StartsPlain, EndsPlain, List.head?_reverse]

theorem startsPlain_dropWhile (s : List Char) : StartsPlain (s.dropWhile isBlank) := by
  intro c hc
  have := List.head?_dropWhile_not isBlank s
  rw [hc] at this
  simpa using this

theorem dropWhile_of_startsPlain (h : StartsPlain s) : s.dropWhile isBlank = s := by
  cases s with
  | nil => rfl
  | cons c rest => rw [List.dropWhile_cons_of_neg (by rw [startsPlain_cons.1 h]; decide)]

theorem startsPlain_trimStart (s : List Char) : StartsPlain (trimStart s) :=
  startsPlain_dropWhile s

theorem trimStart_of_startsPlain (h : StartsPlain s) : trimStart s = s :=
  dropWhile_of_startsPlain h

theorem endsPlain_trimEnd (s : List Char) : EndsPlain (trimEnd s) := by
  rw [← startsPlain_reverse, trimEnd, List.reverse_reverse]
  exact startsPlain_dropWhile _

theorem mem_trimEnd (h : c ∈ trimEnd s) : c ∈ s := by
  rw [trimEnd, List.mem_reverse] at h
  exact List.mem_reverse.1 ((List.dropWhile_sublist _).subset h)

/-- a character that is not blank keeps everything before it -/
theorem trimEnd_cons (h : isBlank c = false) (rest : List Char) : trimEnd (c :: rest) = c :: trimEnd rest := by
  rw [trimEnd, List.reverse_cons, List.dropWhile_append]
  split
  · rename_i he
    rw [List.isEmpty_iff] at he
    rw [List.dropWhile_cons_of_neg (by rw [h]; decide), trimEnd, he]; rfl
  · rw [List.reverse_append]; rfl

/-! ## Ends of longer texts -/

theorem EndsPlain.append (hs : EndsPlain s) (ht : EndsPlain t) : EndsPlain (s ++ t) := by
  intro c hc
  rw [List.getLast?_append] at hc
  cases h : t.getLast? with
  | none =>
    rw [h, Option.none_or] at hc
    exact hs c hc
  | some d =>
    rw [h, Option.some_or] at hc
    exact ht c (h ▸ hc)

theorem endsPlain_concat (s : List Char) (h : isBlank c = false) : EndsPlain (s ++ [c]) := by
  simp [EndsPlain, h]

theorem endsPlain_of_forall (h : ∀ c ∈ s, isBlank c = false) : EndsPlain s := fun c hc =>
  h c (List.mem_of_mem_getLast? hc)

/-! ## What is trimmed off -/

def Blanks (s : List Char) : Prop := ∀ c ∈ s, isBlank c = true

theorem Blanks.append (hs : Blanks s) (ht : Blanks t) : Blanks (s ++ t) := fun c hc =>
  (List.mem_append.1 hc).elim (hs c) (ht c)

theorem Blanks.reverse (hs : Blanks s) : Blanks s.reverse := fun c hc => hs c (List.mem_reverse.1 hc)

theorem blanks_takeWhile (s : List Char) : Blanks (s.takeWhile isBlank) :=
  List.all_eq_true.1 List.all_takeWhile

/-- blanks before a text that begins with none are what is trimmed off its start -/
theorem trimStart_append (hb : Blanks s) (ht : StartsPlain t) : trimStart (s ++ t) = t := by
  rw [trimStart, List.dropWhile_append_of_pos hb, dropWhile_of_startsPlain ht]

theorem trimEnd_append (ht : EndsPlain t) (hb : Blanks s) : trimEnd (t ++ s) = t := by
  rw [trimEnd, List.reverse_append, List.dropWhile_append_of_pos hb.reverse,
    dropWhile_of_startsPlain (startsPlain_reverse.2 ht), List.reverse_reverse]

theorem trimStart_split (s : List Char) : ∃ blanks, Blanks blanks ∧ s = blanks ++ trimStart s :=
  ⟨s.takeWhile isBlank, blanks_takeWhile s, List.takeWhile_append_dropWhile.symm⟩

theorem trimEnd_split (s : List Char) : ∃ blanks, Blanks blanks ∧ s = trimEnd s ++ blanks := by
  refine ⟨(s.reverse.takeWhile isBlank).reverse, (blanks_takeWhile _).reverse, ?_⟩
  rw [trimEnd, ← List.reverse_append, List.takeWhile_append_dropWhile, List.reverse_reverse]

theorem trim_split (s : List Char) : ∃ before after, Blanks before ∧ Blanks after ∧ s = before ++ trim s ++ after := by
  obtain ⟨before, hb, start⟩ := trimStart_split s
  obtain ⟨after, ha, finish⟩ := trimEnd_split (trimStart s)
  exact ⟨before, after, hb, ha, by rw [trim, List.append_assoc, ← finish, ← start]⟩

/-- blanks at both ends are what is trimmed off -/
theorem trim_append {before after : List Char} (hb : Blanks before) (ha : Blanks after) (hs : StartsPlain s)
    (he : EndsPlain s) : trim (before ++ s ++ after) = s := by
  cases s with
  | nil =>
    have all : Blanks (before ++ after) := hb.append ha
    have none : trimStart (before ++ after ++ []) = [] := trimStart_append all hs
    rw [List.append_nil] at none
    rw [trim, List.append_nil, none]
    rfl
  | cons c rest =>
    have plain : StartsPlain (c :: rest ++ after) := startsPlain_cons.2 (startsPlain_cons.1 hs)
    rw [trim, List.append_assoc, trimStart_append hb plain, trimEnd_append he ha]

end XmlStore.Text
