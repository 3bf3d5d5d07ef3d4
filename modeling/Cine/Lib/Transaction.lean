import Mathlib.Data.List.Forall2

/-!
# Transactions that fail as a whole

A transaction reads and writes a state and may throw.  What it wrote is
kept only when it ends without a throw, so a postcondition speaks about
the runs that end.

`Ensures m s Q` says that a run of `m` from `s` that ends, ends in a result
and a state with `Q`.  The rules below follow the shape of the program, and
`ensures_forM` is the rule of a loop with an invariant.

`commit` is the whole transaction seen from outside: the new state, or the
old one where the transaction threw.
-/

namespace Cine.Lib

variable {σ ε α β : Type}

/-! ## Checks that throw -/

variable {b : β} {f : α → Except ε β} {x : Except ε α} {a : α} {l : List α} {l' : List β}

theorem bind_eq_ok : x >>= f = .ok b ↔ ∃ a, x = .ok a ∧ f a = .ok b := by
  constructor
  · intro h
    cases x with
    | error e => cases h
    | ok a => exact ⟨a, rfl, h⟩
  · rintro ⟨a, rfl, h⟩
    exact h

theorem throw_ne_ok {e : ε} : (throw e : Except ε α) ≠ .ok a := by
  intro h
  cases h

theorem pure_eq_ok {b : α} : (pure a : Except ε α) = .ok b ↔ a = b :=
  ⟨fun h => by cases h; rfl, fun h => by rw [h]; rfl⟩

theorem ite_throw_eq_ok {c : Prop} [Decidable c] {e : ε} {x : Except ε β} :
    (if c then throw e >>= f else x) = .ok b ↔ ¬ c ∧ x = .ok b := by
  by_cases hc : c
  · rw [if_pos hc]
    exact ⟨fun h => absurd h throw_ne_ok, fun h => absurd hc h.1⟩
  · rw [if_neg hc]
    exact ⟨fun h => ⟨hc, h⟩, fun h => h.2⟩

theorem mapError_eq_ok {ε' : Type} {f : ε → ε'} : x.mapError f = .ok a ↔ x = .ok a := by
  cases x with
  | error e => exact iff_of_false (fun h => nomatch h) fun h => nomatch h
  | ok b => exact ⟨fun h => by cases h; rfl, fun h => by cases h; rfl⟩

theorem map_eq_ok {f : α → β} : x.map f = .ok b ↔ ∃ a, x = .ok a ∧ f a = b := by
  cases x with
  | error e => exact iff_of_false (fun h => nomatch h) fun ⟨_, h, _⟩ => nomatch h
  | ok a =>
    constructor
    · intro h
      exact ⟨a, rfl, Except.ok.inj h⟩
    · rintro ⟨_, ⟨⟩, rfl⟩
      rfl

/-- A loop that ends has run every step. -/
theorem forall₂_of_mapM (h : l.mapM f = .ok l') : List.Forall₂ (fun a b => f a = .ok b) l l' := by
  induction l generalizing l' with
  | nil =>
    cases h
    exact .nil
  | cons a l ih =>
    rw [List.mapM_cons] at h
    obtain ⟨b, hb, h⟩ := bind_eq_ok.1 h
    obtain ⟨bs, hbs, h⟩ := bind_eq_ok.1 h
    cases h
    exact .cons hb (ih hbs)

/-- A result of a loop is the result of one of its steps. -/
theorem exists_of_mapM (h : l.mapM f = .ok l') (hb : b ∈ l') : ∃ a ∈ l, f a = .ok b := by
  have hall := forall₂_of_mapM h
  clear h
  induction hall with
  | nil => exact absurd hb List.not_mem_nil
  | @cons a b' l l' hstep _ ih =>
    rcases List.mem_cons.1 hb with rfl | hb
    · exact ⟨a, List.mem_cons_self, hstep⟩
    · obtain ⟨a', ha', hstep'⟩ := ih hb
      exact ⟨a', List.mem_cons_of_mem a ha', hstep'⟩

theorem exists_result_of_mapM (h : l.mapM f = .ok l') (ha : a ∈ l) : ∃ b ∈ l', f a = .ok b := by
  have hall := forall₂_of_mapM h
  clear h
  induction hall with
  | nil => exact absurd ha List.not_mem_nil
  | @cons a' b l l' hstep _ ih =>
    rcases List.mem_cons.1 ha with rfl | ha
    · exact ⟨b, List.mem_cons_self, hstep⟩
    · obtain ⟨b', hb', hstep'⟩ := ih ha
      exact ⟨b', List.mem_cons_of_mem b hb', hstep'⟩

/-- A loop that ends keeps what each of its steps keeps. -/
theorem foldlM_invariant {γ : Type} {f : σ → γ → Except ε σ} {I : σ → Prop}
    (hf : ∀ s c s', I s → f s c = .ok s' → I s') {l : List γ} {s s' : σ} (hs : I s)
    (h : l.foldlM f s = .ok s') : I s' := by
  induction l generalizing s with
  | nil =>
    cases h
    exact hs
  | cons c l ih =>
    rw [List.foldlM_cons] at h
    obtain ⟨s₁, hstep, hrest⟩ := bind_eq_ok.1 h
    exact ih (hf s c s₁ hs hstep) hrest

/-! ## Transactions -/

/-- A transaction on the state `σ` that may throw an `ε`. -/
abbrev Tx (σ ε α : Type) := StateT σ (Except ε) α

/-- Every run of `m` from `s` that ends, ends with `Q`. -/
def Ensures (m : Tx σ ε α) (s : σ) (Q : α → σ → Prop) : Prop :=
  ∀ a s', m s = .ok (a, s') → Q a s'

/-- The state after a transaction: what it threw away leaves no trace. -/
def commit (m : Tx σ ε α) (s : σ) : σ :=
  match m s with
  | .ok (_, s') => s'
  | .error _ => s

section Rules

variable {m : Tx σ ε α} {f : α → Tx σ ε β} {s : σ}

variable {Q P : α → σ → Prop} {a : α}

theorem ensures_pure (h : Q a s) : Ensures (pure a : Tx σ ε α) s Q := by
  intro b s' hrun
  cases hrun
  exact h

theorem ensures_throw {e : ε} : Ensures (throw e : Tx σ ε α) s Q := by
  intro b s' hrun
  cases hrun

theorem ensures_get {Q : σ → σ → Prop} (h : Q s s) : Ensures (get : Tx σ ε σ) s Q := by
  intro b s' hrun
  cases hrun
  exact h

theorem ensures_modify {g : σ → σ} {Q : PUnit → σ → Prop} (h : Q ⟨⟩ (g s)) :
    Ensures (modify g : Tx σ ε PUnit) s Q := by
  intro b s' hrun
  cases hrun
  exact h

theorem ensures_set {t : σ} {Q : PUnit → σ → Prop} (h : Q ⟨⟩ t) :
    Ensures (set t : Tx σ ε PUnit) s Q := by
  intro b s' hrun
  cases hrun
  exact h

/-- A computation that reads no state and may throw. -/
theorem ensures_lift {x : Except ε α} (h : ∀ a, x = .ok a → Q a s) :
    Ensures (liftM x : Tx σ ε α) s Q := by
  intro a s' hrun
  cases hx : x with
  | error e =>
    rw [hx] at hrun
    cases hrun
  | ok b =>
    rw [hx] at hrun
    cases hrun
    exact h _ hx

theorem ensures_bind {Q : β → σ → Prop} (h : Ensures m s fun a s' => Ensures (f a) s' Q) :
    Ensures (m >>= f) s Q := by
  intro b s' hrun
  have hbind : (m >>= f) s = (m s >>= fun p => f p.1 p.2) := rfl
  rw [hbind] at hrun
  cases hm : m s with
  | error e =>
    rw [hm] at hrun
    cases hrun
  | ok p =>
    rw [hm] at hrun
    exact h p.1 p.2 hm b s' hrun

theorem run_bind_ok {s₁ : σ} (h : m s = .ok (a, s₁)) : (m >>= f) s = f a s₁ := by
  show (m s >>= fun p => f p.1 p.2) = _
  rw [h]
  rfl

theorem run_bind_error {e : ε} (h : m s = .error e) : (m >>= f) s = .error e := by
  show (m s >>= fun p => f p.1 p.2) = _
  rw [h]
  rfl

/-- A weaker postcondition, for the runs that end. -/
theorem Ensures.mono (h : Ensures m s P) (hPQ : ∀ a s', P a s' → Q a s') : Ensures m s Q :=
  fun a s' hrun => hPQ a s' (h a s' hrun)

theorem Ensures.and (hP : Ensures m s P) (hQ : Ensures m s Q) :
    Ensures m s fun a s' => P a s' ∧ Q a s' :=
  fun a s' hrun => ⟨hP a s' hrun, hQ a s' hrun⟩

theorem Ensures.run (h : Ensures m s P) : Ensures m s fun a s' => P a s' ∧ m s = .ok (a, s') :=
  fun a s' hrun => ⟨h a s' hrun, hrun⟩

/-- A step with a specification, then the rest. -/
theorem Ensures.bind {Q : β → σ → Prop} (hm : Ensures m s P)
    (hf : ∀ a s', P a s' → Ensures (f a) s' Q) : Ensures (m >>= f) s Q :=
  ensures_bind (hm.mono hf)

theorem ensures_ite {c : Prop} [Decidable c] {m₁ m₂ : Tx σ ε α} (h₁ : c → Ensures m₁ s Q)
    (h₂ : ¬ c → Ensures m₂ s Q) : Ensures (if c then m₁ else m₂) s Q := by
  split_ifs with h
  · exact h₁ h
  · exact h₂ h

theorem ensures_forM {γ : Type} {step : γ → Tx σ ε PUnit} {I : List γ → σ → Prop}
    (hstep : ∀ c rest s, I (c :: rest) s → Ensures (step c) s fun _ s' => I rest s')
    (l : List γ) {s : σ} (h : I l s) : Ensures (l.forM step) s fun _ s' => I [] s' := by
  induction l generalizing s with
  | nil => exact ensures_pure h
  | cons c l ih =>
    show Ensures (step c >>= fun _ => l.forM step) s _
    exact (hstep c l s h).bind fun _ s' hs' => ih hs'

theorem commit_of_ok {s' : σ} (h : m s = .ok (a, s')) : commit m s = s' := by
  rw [commit, h]

theorem commit_of_error {e : ε} (h : m s = .error e) : commit m s = s := by
  rw [commit, h]

theorem commit_of_ensures {m : Tx σ ε α} {s : σ} {P : σ → Prop}
    (h : Ensures m s fun _ s' => P s') (hs : P s) : P (commit m s) := by
  rw [commit]
  cases hm : m s with
  | error e => exact hs
  | ok p => exact h p.1 p.2 hm

theorem commit_eq_or (m : Tx σ ε α) (s : σ) :
    commit m s = s ∨ ∃ a s', m s = .ok (a, s') ∧ commit m s = s' := by
  rw [commit]
  cases hm : m s with
  | error e => exact Or.inl rfl
  | ok p => exact Or.inr ⟨p.1, p.2, rfl, rfl⟩

/-! ## Transactions that never throw -/

/-- The run of `m` from `s` ends. -/
def Ends (m : Tx σ ε α) (s : σ) : Prop := ∃ a s', m s = .ok (a, s')

theorem ends_pure : Ends (pure a : Tx σ ε α) s := ⟨a, s, rfl⟩

theorem ends_get : Ends (get : Tx σ ε σ) s := ⟨s, s, rfl⟩

theorem ends_set {t : σ} : Ends (set t : Tx σ ε PUnit) s := ⟨⟨⟩, t, rfl⟩

theorem Ends.bind (hm : Ends m s) (hf : ∀ a s', Ends (f a) s') : Ends (m >>= f) s := by
  obtain ⟨a, s₁, h₁⟩ := hm
  obtain ⟨b, s₂, h₂⟩ := hf a s₁
  exact ⟨b, s₂, (run_bind_ok h₁).trans h₂⟩

theorem ends_ite {c : Prop} [Decidable c] {m₁ m₂ : Tx σ ε α} (h₁ : Ends m₁ s) (h₂ : Ends m₂ s) :
    Ends (if c then m₁ else m₂) s := by
  split_ifs
  · exact h₁
  · exact h₂

theorem ends_forM {γ : Type} {step : γ → Tx σ ε PUnit} (hstep : ∀ c s, Ends (step c) s)
    (l : List γ) (s : σ) : Ends (l.forM step) s := by
  induction l generalizing s with
  | nil => exact ends_pure
  | cons c l ih =>
    show Ends (step c >>= fun _ => l.forM step) s
    exact (hstep c s).bind fun _ s' => ih s'

end Rules

end Cine.Lib
