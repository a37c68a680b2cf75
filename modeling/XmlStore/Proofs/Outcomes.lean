/-
Computations that may fail, taken apart when they succeed.

A run over a list that succeeds has succeeded at every element; so what each step keeps, the run keeps.
-/

namespace XmlStore

variable {ε ε' α β γ : Type}

/-- outcomes are compared by comparing failures or values -/
instance decEqOutcome [DecidableEq ε] [DecidableEq α] : DecidableEq (Except ε α)
  | .ok a, .ok b => decidable_of_iff (a = b) (by simp)
  | .error e, .error e' => decidable_of_iff (e = e') (by simp)
  | .ok _, .error _ => isFalse nofun
  | .error _, .ok _ => isFalse nofun

@[simp] theorem pure_ok (a : α) : (pure a : Except ε α) = .ok a := rfl

@[simp] theorem ok_bind (a : α) (f : α → Except ε β) : (Except.ok a).bind f = f a := rfl

@[simp] theorem ok_bind' (a : α) (f : α → Except ε β) : ((Except.ok a : Except ε α) >>= f) = f a := rfl

@[simp] theorem ok_map (f : α → β) (a : α) : (Except.ok a : Except ε α).map f = .ok (f a) := rfl

@[simp] theorem error_bind (e : ε) (f : α → Except ε β) : ((Except.error e : Except ε α) >>= f) = .error e := rfl

@[simp] theorem error_map (f : α → β) (e : ε) : (Except.error e : Except ε α).map f = .error e := rfl

@[simp] theorem ok_mapError (f : ε → ε') (a : α) : (Except.ok a : Except ε α).mapError f = .ok a := rfl

@[simp] theorem error_mapError (f : ε → ε') (e : ε) : (Except.error e : Except ε α).mapError f = .error (f e) := rfl

theorem bind_eq_ok {x : Except ε α} {f : α → Except ε β} {b : β} : (x >>= f) = .ok b ↔ ∃ a, x = .ok a ∧ f a = .ok b := by
  cases x with
  | error e => simp [bind, Except.bind]
  | ok a => simp

theorem bind_eq_ok' {x : Except ε α} {f : α → Except ε β} {b : β} : x.bind f = .ok b ↔ ∃ a, x = .ok a ∧ f a = .ok b :=
  bind_eq_ok

theorem map_eq_ok {x : Except ε α} {f : α → β} {b : β} : x.map f = .ok b ↔ ∃ a, x = .ok a ∧ f a = b := by
  cases x with
  | error e => simp [Except.map]
  | ok a => simp

theorem mapError_eq_ok {x : Except ε α} {f : ε → ε'} {a : α} : x.mapError f = .ok a ↔ x = .ok a := by
  cases x with
  | error e => simp
  | ok b => simp

theorem bind_eq_error {x : Except ε α} {f : α → Except ε β} {e : ε} :
    (x >>= f) = .error e ↔ x = .error e ∨ ∃ a, x = .ok a ∧ f a = .error e := by
  cases x with
  | error e => simp
  | ok a => simp

theorem map_eq_error {x : Except ε α} {f : α → β} {e : ε} : x.map f = .error e ↔ x = .error e := by
  cases x with
  | error e => simp
  | ok a => simp

theorem mapError_eq_error {x : Except ε α} {f : ε → ε'} {e' : ε'} : x.mapError f = .error e' ↔ ∃ e, x = .error e ∧ f e = e' := by
  cases x with
  | error e => simp
  | ok a => simp

theorem toOption_eq_some {x : Except ε α} {a : α} : x.toOption = some a ↔ x = .ok a := by
  cases x with
  | error e => simp [Except.toOption]
  | ok b => simp [Except.toOption]

/-! ## Runs over a list -/

theorem foldlM_cons_eq_ok {f : β → α → Except ε β} {a : α} {l : List α} {b c : β} :
    (a :: l).foldlM f b = .ok c ↔ ∃ m, f b a = .ok m ∧ l.foldlM f m = .ok c := by
  rw [List.foldlM_cons, bind_eq_ok]

/-- what a step does to the image of every state, a run does -/
theorem foldlM_map {f : β → α → Except ε β} {g : γ → α → Except ε γ} (image : β → γ) (step : ∀ b a, g (image b) a = (f b a).map image)
    (l : List α) (b : β) : l.foldlM g (image b) = (l.foldlM f b).map image := by
  induction l generalizing b with
  | nil => rfl
  | cons a l ih =>
    rw [List.foldlM_cons, List.foldlM_cons, step]
    cases f b a with
    | error e => rfl
    | ok m => exact ih m

/-- what a step keeps, a run keeps -/
theorem foldlM_keeps {f : β → α → Except ε β} {P : β → Prop} (step : ∀ b a c, P b → f b a = .ok c → P c) {l : List α}
    {b c : β} (hb : P b) (h : l.foldlM f b = .ok c) : P c := by
  induction l generalizing b with
  | nil =>
    rw [List.foldlM_nil] at h
    cases h
    exact hb
  | cons a l ih =>
    obtain ⟨m, hm, hl⟩ := foldlM_cons_eq_ok.1 h
    exact ih (step b a m hb hm) hl

/-- what a step raises by one at most, a run raises by its length at most -/
theorem foldlM_raises {f : β → α → Except ε β} (size : β → Nat) (step : ∀ b a c, f b a = .ok c → size c ≤ size b + 1) {l : List α}
    {b c : β} (h : l.foldlM f b = .ok c) : size c ≤ size b + l.length := by
  induction l generalizing b with
  | nil =>
    rw [List.foldlM_nil] at h
    cases h
    exact Nat.le_refl _
  | cons a l ih =>
    obtain ⟨m, hm, hl⟩ := foldlM_cons_eq_ok.1 h
    have one := step b a m hm
    have rest := ih hl
    rw [List.length_cons]
    omega

/-! ## Failures of a kind -/

/-- whatever failure there is, it is one of a kind -/
def FailsOnly (kind : ε → Prop) (x : Except ε α) : Prop := ∀ e, x = .error e → kind e

namespace FailsOnly

variable {kind : ε → Prop} {x : Except ε α}

theorem of_ok (a : α) : FailsOnly kind (.ok a) := by
  intro e h
  cases h

theorem of_error {e : ε} (h : kind e) : FailsOnly kind (.error e : Except ε α) := by
  intro e' he
  cases he
  exact h

theorem bind {f : α → Except ε β} (h : FailsOnly kind x) (next : ∀ a, x = .ok a → FailsOnly kind (f a)) :
    FailsOnly kind (x >>= f) := by
  intro e he
  rcases bind_eq_error.1 he with he | ⟨a, ha, he⟩
  · exact h e he
  · exact next a ha e he

theorem map (h : FailsOnly kind x) (f : α → β) : FailsOnly kind (x.map f) := by
  intro e he
  exact h e (map_eq_error.1 he)

theorem mapError {f : ε' → ε} (h : ∀ e, kind (f e)) (x : Except ε' α) : FailsOnly kind (x.mapError f) := by
  intro e he
  rcases mapError_eq_error.1 he with ⟨e', -, rfl⟩
  exact h e'

/-- what steps keep may be used to tell how they fail -/
theorem foldlM {f : β → α → Except ε β} {P : β → Prop} (step : ∀ b a c, P b → f b a = .ok c → P c)
    (h : ∀ b a, P b → FailsOnly kind (f b a)) {b : β} (hb : P b) (l : List α) : FailsOnly kind (l.foldlM f b) := by
  induction l generalizing b with
  | nil => exact of_ok b
  | cons a l ih => exact (h b a hb).bind fun c hc => ih (step b a c hb hc)

end FailsOnly

end XmlStore
