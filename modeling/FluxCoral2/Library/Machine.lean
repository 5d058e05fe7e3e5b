import Mathlib.Data.List.Basic

/-! Machines that take labelled steps.

A machine has one initial state, a rule saying which actions a state admits, and
a next-state function: whatever the environment decides is part of the action.
`Legal C s as` says that every action of `as` is admitted where it is taken and
that every step meets the condition `C`, asked of the state before the step.

`invariant` is the induction rule: what holds initially and is kept by every
legal step holds after every legal run. `always_iff_legal` is its two-sided form:
where a step keeps a property exactly when it meets the condition, the property
holds in every state of a run exactly when every step of it met the condition. -/
namespace Library

structure Machine (σ α : Type) where
  init : σ
  enabled : σ → α → Prop
  next : σ → α → σ

namespace Machine
variable {σ α : Type} (M : Machine σ α)

def run (s : σ) : List α → σ
  | [] => s
  | a :: rest => run (M.next s a) rest

/-- Every action is admitted, and every step meets `C`. -/
def Legal (C : σ → α → Prop) (s : σ) : List α → Prop
  | [] => True
  | a :: rest => M.enabled s a ∧ C s a ∧ Legal C (M.next s a) rest

/-- Every action is admitted. -/
def Possible (s : σ) (as : List α) : Prop := M.Legal (fun _ _ => True) s as

instance decidableLegal (C : σ → α → Prop) [∀ s a, Decidable (M.enabled s a)]
    [∀ s a, Decidable (C s a)] : (s : σ) → (as : List α) → Decidable (M.Legal C s as)
  | _, [] => .isTrue trivial
  | s, a :: rest =>
    have := decidableLegal C (M.next s a) rest
    inferInstanceAs (Decidable (M.enabled s a ∧ C s a ∧ M.Legal C (M.next s a) rest))

instance decidablePossible [∀ s a, Decidable (M.enabled s a)] (s : σ) (as : List α) :
    Decidable (M.Possible s as) :=
  decidableLegal M (fun _ _ => True) s as

variable {M} {C : σ → α → Prop}

@[simp] theorem run_nil (s : σ) : M.run s [] = s := rfl

@[simp] theorem run_cons (s : σ) (a : α) (rest : List α) :
    M.run s (a :: rest) = M.run (M.next s a) rest := rfl

@[simp] theorem legal_nil (s : σ) : M.Legal C s [] := trivial

@[simp] theorem legal_cons (s : σ) (a : α) (rest : List α) :
    M.Legal C s (a :: rest) ↔ M.enabled s a ∧ C s a ∧ M.Legal C (M.next s a) rest := Iff.rfl

theorem run_append (s : σ) (as bs : List α) : M.run s (as ++ bs) = M.run (M.run s as) bs := by
  induction as generalizing s with
  | nil => rfl
  | cons a rest ih => exact ih (M.next s a)

theorem legal_append (s : σ) (as bs : List α) :
    M.Legal C s (as ++ bs) ↔ M.Legal C s as ∧ M.Legal C (M.run s as) bs := by
  induction as generalizing s with
  | nil => exact ⟨fun h => ⟨trivial, h⟩, fun h => h.2⟩
  | cons a rest ih =>
    rw [List.cons_append, legal_cons, legal_cons, ih, run_cons]
    tauto

/-- A rule for the actions alone. -/
theorem legal_of_possible {R : α → Prop} {s : σ} {as : List α} (hp : M.Possible s as) (hr : ∀ a ∈ as, R a) :
    M.Legal (fun _ a => R a) s as := by
  induction as generalizing s with
  | nil => trivial
  | cons a rest ih =>
    obtain ⟨he, -, hrest⟩ := hp
    exact ⟨he, hr a List.mem_cons_self, ih hrest fun b hb => hr b (List.mem_cons_of_mem a hb)⟩

/-- What every legal step keeps, every legal run keeps. -/
theorem invariant_from (I : σ → Prop)
    (hstep : ∀ s a, I s → M.enabled s a → C s a → I (M.next s a)) {s : σ} (hs : I s)
    {as : List α} (hl : M.Legal C s as) : I (M.run s as) := by
  induction as generalizing s with
  | nil => exact hs
  | cons a rest ih => exact ih (hstep s a hs hl.1 hl.2.1) hl.2.2

theorem invariant (I : σ → Prop) (hinit : I M.init)
    (hstep : ∀ s a, I s → M.enabled s a → C s a → I (M.next s a)) {as : List α}
    (hl : M.Legal C M.init as) : I (M.run M.init as) :=
  invariant_from I hstep hinit hl

/-! ### Concrete runs -/

/-- The actions are admitted one after the other and lead from `s` to `t`. -/
def Reaches (M : Machine σ α) (s : σ) (as : List α) (t : σ) : Prop := M.Possible s as ∧ M.run s as = t

theorem Reaches.nil (s : σ) : M.Reaches s [] s := ⟨trivial, rfl⟩

theorem Reaches.step {s t u : σ} {a : α} {rest : List α} (he : M.enabled s a) (hn : M.next s a = t)
    (h : M.Reaches t rest u) : M.Reaches s (a :: rest) u := by
  subst hn
  exact ⟨⟨he, trivial, h.1⟩, h.2⟩

theorem Legal.step {s t : σ} {a : α} {rest : List α} (he : M.enabled s a) (hc : C s a)
    (hn : M.next s a = t) (h : M.Legal C t rest) : M.Legal C s (a :: rest) := by
  subst hn
  exact ⟨he, hc, h⟩

/-! ### Every state reached -/

/-- `P` holds of the start and of every state the run reaches. -/
def Always (M : Machine σ α) (P : σ → Prop) (s : σ) : List α → Prop
  | [] => P s
  | a :: rest => P s ∧ Always M P (M.next s a) rest

theorem Always.here {P : σ → Prop} {s : σ} {as : List α} (h : M.Always P s as) : P s := by
  cases as with
  | nil => exact h
  | cons a rest => exact h.1

theorem Always.last {P : σ → Prop} {s : σ} {as : List α} (h : M.Always P s as) : P (M.run s as) := by
  induction as generalizing s with
  | nil => exact h
  | cons a rest ih => exact ih h.2

/-- An invariant that implies `P` gives `P` in every state reached. -/
theorem always_from {P : σ → Prop} (I : σ → Prop) (himp : ∀ s, I s → P s)
    (hstep : ∀ s a, I s → M.enabled s a → C s a → I (M.next s a)) {s : σ} (hs : I s)
    {as : List α} (hl : M.Legal C s as) : M.Always P s as := by
  induction as generalizing s with
  | nil => exact himp s hs
  | cons a rest ih => exact ⟨himp s hs, ih (hstep s a hs hl.1 hl.2.1) hl.2.2⟩

/-- If, wherever `P` and the invariant `I` hold, a step keeps `P` exactly when it meets
`C`, then `P` holds all along a run exactly when all its steps meet `C`. -/
theorem always_iff_legal {P : σ → Prop} (I : σ → Prop)
    (hinv : ∀ s a, I s → M.enabled s a → C s a → I (M.next s a))
    (hstep : ∀ s a, I s → P s → M.enabled s a → (P (M.next s a) ↔ C s a)) {s : σ} (hi : I s)
    (hs : P s) {as : List α} (hp : M.Possible s as) : M.Always P s as ↔ M.Legal C s as := by
  induction as generalizing s with
  | nil => exact ⟨fun _ => trivial, fun _ => hs⟩
  | cons a rest ih =>
    obtain ⟨he, -, hrest⟩ := hp
    have hiff := hstep s a hi hs he
    constructor
    · rintro ⟨-, h⟩
      have hc := hiff.mp h.here
      exact ⟨he, hc, (ih (hinv s a hi he hc) (hiff.mpr hc) hrest).mp h⟩
    · rintro ⟨-, hc, h⟩
      exact ⟨hs, (ih (hinv s a hi he hc) (hiff.mpr hc) hrest).mpr h⟩

/-! ### History variables -/

section Observed
variable {η : Type}

/-- The machine with a history variable, which sees every step and hinders none. -/
def observed (M : Machine σ α) (h₀ : η) (see : η → σ → α → σ → η) : Machine (σ × η) α where
  init := (M.init, h₀)
  enabled := fun s a => M.enabled s.1 a
  next := fun s a => (M.next s.1 a, see s.2 s.1 a (M.next s.1 a))

variable {h₀ : η} {see : η → σ → α → σ → η}

theorem legal_observed (s : σ) (h : η) (as : List α) :
    (M.observed h₀ see).Legal (fun s a => C s.1 a) (s, h) as ↔ M.Legal C s as := by
  induction as generalizing s h with
  | nil => exact Iff.rfl
  | cons a rest ih => exact and_congr_right fun _ => and_congr_right fun _ => ih (M.next s a) _

/-- `always_iff_legal`, for a property of the history and a condition on the states alone. -/
theorem observed_always_iff_legal {P : σ × η → Prop} (I : σ × η → Prop)
    (hinv : ∀ s h a, I (s, h) → M.enabled s a → C s a → I (M.next s a, see h s a (M.next s a)))
    (hstep : ∀ s h a, I (s, h) → P (s, h) → M.enabled s a → (P (M.next s a, see h s a (M.next s a)) ↔ C s a))
    {s : σ} {h : η} (hi : I (s, h)) (hs : P (s, h)) {as : List α} (hp : M.Possible s as) :
    (M.observed h₀ see).Always P (s, h) as ↔ M.Legal C s as := by
  refine (always_iff_legal I (C := fun s a => C s.1 a) ?_ ?_ hi hs ((legal_observed s h as).mpr hp)).trans
    (legal_observed s h as)
  · exact fun s a => hinv s.1 s.2 a
  · exact fun s a => hstep s.1 s.2 a

instance (M : Machine σ α) (h₀ : η) (see : η → σ → α → σ → η) [∀ s a, Decidable (M.enabled s a)]
    (s : σ × η) (a : α) : Decidable ((M.observed h₀ see).enabled s a) :=
  inferInstanceAs (Decidable (M.enabled s.1 a))

end Observed

/-! ### Runs under a rule -/

/-- The machine, with only the steps that meet a rule. -/
def restrict (M : Machine σ α) (R : σ → α → Prop) : Machine σ α :=
  ⟨M.init, fun s a => M.enabled s a ∧ R s a, M.next⟩

instance (R : σ → α → Prop) [∀ s a, Decidable (M.enabled s a)] [∀ s a, Decidable (R s a)] (s : σ) (a : α) :
    Decidable ((M.restrict R).enabled s a) :=
  inferInstanceAs (Decidable (M.enabled s a ∧ R s a))

instance decidableAlways (P : σ → Prop) [∀ s, Decidable (P s)] :
    (s : σ) → (as : List α) → Decidable (M.Always P s as)
  | s, [] => inferInstanceAs (Decidable (P s))
  | s, a :: rest =>
    have := decidableAlways P (M.next s a) rest
    inferInstanceAs (Decidable (P s ∧ M.Always P (M.next s a) rest))

end Machine
end Library
