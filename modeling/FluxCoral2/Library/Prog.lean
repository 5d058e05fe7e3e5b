import Mathlib.Data.List.Forall2

/-! Programs that change a state and may raise.

A program returns a value or raises an exception; either way it leaves a state, and
what it did before the raise stays done. `exec` runs one, and the `exec` equations
run it statement by statement. `Keeps` says what a program leaves alone, `Safe` what it keeps
true, `Ends` what it ends in and `Raises` what it may raise; each has one rule for each way
programs are put together. -/
namespace Library

abbrev Prog (ε σ α : Type) := ExceptT ε (StateM σ) α

namespace Prog
variable {ε σ α β : Type}

def exec (p : Prog ε σ α) (s : σ) : Except ε α × σ := StateT.run (ExceptT.run p) s

@[simp] theorem exec_pure (a : α) (s : σ) : exec (pure a : Prog ε σ α) s = (.ok a, s) := rfl

@[simp] theorem exec_throw (e : ε) (s : σ) : exec (throw e : Prog ε σ α) s = (.error e, s) := rfl

@[simp] theorem exec_get (s : σ) : exec (get : Prog ε σ σ) s = (.ok s, s) := rfl

@[simp] theorem exec_set (t s : σ) : exec (set t : Prog ε σ PUnit) s = (.ok ⟨⟩, t) := rfl

@[simp] theorem exec_modify (f : σ → σ) (s : σ) :
    exec (modify f : Prog ε σ PUnit) s = (.ok ⟨⟩, f s) := rfl

theorem exec_bind (p : Prog ε σ α) (f : α → Prog ε σ β) (s : σ) :
    exec (p >>= f) s = match exec p s with
      | (.ok a, t) => exec (f a) t
      | (.error e, t) => (.error e, t) := by
  show (ExceptT.bindCont f (exec p s).1).run (exec p s).2 = _
  cases exec p s with
  | mk r t => cases r <;> rfl

theorem exec_bind_ok {p : Prog ε σ α} {s t : σ} {a : α} (h : exec p s = (.ok a, t))
    (f : α → Prog ε σ β) : exec (p >>= f) s = exec (f a) t := by
  rw [exec_bind, h]

theorem exec_bind_error {p : Prog ε σ α} {s t : σ} {e : ε} (h : exec p s = (.error e, t))
    (f : α → Prog ε σ β) : exec (p >>= f) s = (.error e, t) := by
  rw [exec_bind, h]

/-- A sequence returns exactly if both parts do. -/
theorem exec_bind_eq_ok {p : Prog ε σ α} {f : α → Prog ε σ β} {s u : σ} {b : β} :
    exec (p >>= f) s = (.ok b, u) ↔ ∃ a t, exec p s = (.ok a, t) ∧ exec (f a) t = (.ok b, u) := by
  rw [exec_bind]
  cases exec p s with
  | mk r t => cases r <;> simp

/-- A result, or the exception there is instead. -/
def ofExcept : Except ε α → Prog ε σ α
  | .ok a => pure a
  | .error e => throw e

theorem exec_ofExcept (x : Except ε α) (s : σ) : exec (ofExcept x) s = (x, s) := by cases x <;> rfl

theorem exec_tryCatch (p : Prog ε σ α) (handle : ε → Prog ε σ α) (s : σ) :
    exec (tryCatch p handle) s = match exec p s with
      | (.ok a, t) => (.ok a, t)
      | (.error e, t) => exec (handle e) t := by
  show (match (exec p s).1 with
      | .ok a => (pure (.ok a) : StateM σ (Except ε α))
      | .error e => handle e).run (exec p s).2 = _
  cases exec p s with
  | mk r t => cases r <;> rfl

theorem exec_tryCatch_ok {p : Prog ε σ α} {s t : σ} {a : α} (h : exec p s = (.ok a, t))
    (handle : ε → Prog ε σ α) : exec (tryCatch p handle) s = (.ok a, t) := by
  rw [exec_tryCatch, h]

theorem exec_tryCatch_error {p : Prog ε σ α} {s t : σ} {e : ε} (h : exec p s = (.error e, t))
    (handle : ε → Prog ε σ α) : exec (tryCatch p handle) s = exec (handle e) t := by
  rw [exec_tryCatch, h]

/-! ### What a program leaves alone -/

/-- However the program ends, it leaves `f` of the state as it was. -/
def Keeps (f : σ → β) (p : Prog ε σ α) : Prop := ∀ s, f (exec p s).2 = f s

namespace Keeps
variable {γ : Type} {f : σ → γ}

theorem pure (a : α) : Keeps f (Pure.pure a : Prog ε σ α) := fun _ => rfl

theorem throw (e : ε) : Keeps f (MonadExcept.throw e : Prog ε σ α) := fun _ => rfl

theorem get : Keeps f (MonadState.get : Prog ε σ σ) := fun _ => rfl

theorem modify {g : σ → σ} (h : ∀ s, f (g s) = f s) :
    Keeps f (modifyThe σ g : Prog ε σ PUnit) := h

theorem bind {p : Prog ε σ α} {q : α → Prog ε σ β} (hp : Keeps f p) (hq : ∀ a, Keeps f (q a)) :
    Keeps f (p >>= q) := by
  intro s
  have h := hp s
  rw [exec_bind]
  cases hr : exec p s with
  | mk r t =>
    rw [hr] at h
    cases r with
    | ok a => exact (hq a t).trans h
    | error e => exact h

theorem tryCatch {p : Prog ε σ α} {handle : ε → Prog ε σ α} (hp : Keeps f p)
    (hh : ∀ e, Keeps f (handle e)) : Keeps f (MonadExcept.tryCatch p handle) := by
  intro s
  have h := hp s
  rw [exec_tryCatch]
  cases hr : exec p s with
  | mk r t =>
    rw [hr] at h
    cases r with
    | ok a => exact h
    | error e => exact (hh e t).trans h

theorem ite {c : Prop} [Decidable c] {p q : Prog ε σ α} (hp : Keeps f p) (hq : Keeps f q) :
    Keeps f (if c then p else q) := by
  split
  · exact hp
  · exact hq

end Keeps

/-! ### What a program keeps true -/

/-- However the program ends, what held of the state holds still. -/
def Safe (I : σ → Prop) (p : Prog ε σ α) : Prop := ∀ s, I s → I (exec p s).2

namespace Safe
variable {I : σ → Prop}

theorem pure (a : α) : Safe I (Pure.pure a : Prog ε σ α) := fun _ h => h

theorem throw (e : ε) : Safe I (MonadExcept.throw e : Prog ε σ α) := fun _ h => h

theorem get : Safe I (MonadState.get : Prog ε σ σ) := fun _ h => h

theorem modify {g : σ → σ} (h : ∀ s, I s → I (g s)) : Safe I (modifyThe σ g : Prog ε σ PUnit) := h

theorem bind {p : Prog ε σ α} {q : α → Prog ε σ β} (hp : Safe I p) (hq : ∀ a, Safe I (q a)) :
    Safe I (p >>= q) := by
  intro s hs
  have h := hp s hs
  rw [exec_bind]
  cases hr : exec p s with
  | mk r t =>
    rw [hr] at h
    cases r with
    | ok a => exact hq a t h
    | error e => exact h

theorem tryCatch {p : Prog ε σ α} {handle : ε → Prog ε σ α} (hp : Safe I p)
    (hh : ∀ e, Safe I (handle e)) : Safe I (MonadExcept.tryCatch p handle) := by
  intro s hs
  have h := hp s hs
  rw [exec_tryCatch]
  cases hr : exec p s with
  | mk r t =>
    rw [hr] at h
    cases r with
    | ok a => exact h
    | error e => exact hh e t h

theorem ite {c : Prop} [Decidable c] {p q : Prog ε σ α} (hp : c → Safe I p) (hq : ¬ c → Safe I q) :
    Safe I (if c then p else q) := by
  split
  · exact hp ‹c›
  · exact hq ‹¬ c›

end Safe

/-! ### What a program ends in -/

/-- The program ends in a state of which `Q` holds, with what it returns or raises. -/
def Ends (p : Prog ε σ α) (s : σ) (Q : Except ε α → σ → Prop) : Prop := Q (exec p s).1 (exec p s).2

theorem Keeps.ends {γ : Type} {f : σ → γ} {p : Prog ε σ α} (h : Keeps f p) (s : σ) :
    Ends p s fun _ t => f t = f s := h s

theorem Safe.ends {I : σ → Prop} {p : Prog ε σ α} (h : Safe I p) {s : σ} (hs : I s) : Ends p s fun _ t => I t :=
  h s hs

theorem Safe.of_ends {I : σ → Prop} {p : Prog ε σ α} (h : ∀ s, I s → Ends p s fun _ t => I t) : Safe I p := h

namespace Ends
variable {p : Prog ε σ α} {s : σ} {Q R : Except ε α → σ → Prop} {S : Except ε β → σ → Prop}

theorem mono (h : Ends p s Q) (hQ : ∀ r t, Q r t → R r t) : Ends p s R := hQ _ _ h

theorem of_exec {r : Except ε α} {t : σ} (hp : exec p s = (r, t)) (h : Q r t) : Ends p s Q := by
  unfold Ends
  rw [hp]
  exact h

theorem pure {a : α} (h : Q (.ok a) s) : Ends (Pure.pure a) s Q := h

theorem throw {e : ε} (h : Q (.error e) s) : Ends (MonadExcept.throw e) s Q := h

theorem bind {f : α → Prog ε σ β} (hp : Ends p s Q) (hok : ∀ a t, Q (.ok a) t → Ends (f a) t S)
    (herror : ∀ e t, Q (.error e) t → S (.error e) t) : Ends (p >>= f) s S := by
  unfold Ends at hp ⊢
  rw [exec_bind]
  cases hr : exec p s with
  | mk r t =>
    rw [hr] at hp
    cases r with
    | ok a => exact hok a t hp
    | error e => exact herror e t hp

/-- A first part whose end is known. -/
theorem bind_ok {f : α → Prog ε σ β} {a : α} {t : σ} (hp : exec p s = (.ok a, t))
    (h : Ends (f a) t S) : Ends (p >>= f) s S := by
  unfold Ends
  rw [exec_bind_ok hp]
  exact h

theorem bind_error {f : α → Prog ε σ β} {e : ε} {t : σ} (hp : exec p s = (.error e, t))
    (h : S (.error e) t) : Ends (p >>= f) s S := by
  unfold Ends
  rw [exec_bind_error hp]
  exact h

theorem ite {c : Prop} [Decidable c] {q : Prog ε σ α} (hp : c → Ends p s Q) (hq : ¬ c → Ends q s Q) :
    Ends (if c then p else q) s Q := by
  split
  · exact hp ‹c›
  · exact hq ‹¬ c›

theorem tryCatch {handle : ε → Prog ε σ α} (hp : Ends p s Q) (hok : ∀ a t, Q (.ok a) t → R (.ok a) t)
    (herror : ∀ e t, Q (.error e) t → Ends (handle e) t R) : Ends (MonadExcept.tryCatch p handle) s R := by
  unfold Ends at hp ⊢
  rw [exec_tryCatch]
  cases hr : exec p s with
  | mk r t =>
    rw [hr] at hp
    cases r with
    | ok a => exact hok a t hp
    | error e => exact herror e t hp

end Ends

/-! ### What a program may raise -/

/-- The program raises only exceptions of which `P` holds, from any state. -/
def Raises (P : ε → Prop) (p : Prog ε σ α) : Prop := ∀ s e t, exec p s = (.error e, t) → P e

namespace Raises
variable {P : ε → Prop}

theorem of_ok {p : Prog ε σ α} (h : ∀ s, ∃ a t, exec p s = (.ok a, t)) : Raises P p := by
  intro s e t he
  obtain ⟨a, t', ha⟩ := h s
  rw [ha] at he
  cases he

theorem pure (a : α) : Raises P (Pure.pure a : Prog ε σ α) := of_ok fun s => ⟨a, s, rfl⟩

theorem get : Raises P (MonadState.get : Prog ε σ σ) := of_ok fun s => ⟨s, s, rfl⟩

theorem modify (f : σ → σ) : Raises P (modifyThe σ f : Prog ε σ PUnit) := of_ok fun s => ⟨⟨⟩, f s, rfl⟩

theorem throw {e : ε} (h : P e) : Raises P (MonadExcept.throw e : Prog ε σ α) := by
  intro s e' t he
  obtain rfl := Except.error.inj (Prod.mk.inj he).1
  exact h

theorem ofExcept {x : Except ε α} (h : ∀ e, x = .error e → P e) : Raises P (Prog.ofExcept x : Prog ε σ α) := by
  intro s e t he
  rw [exec_ofExcept] at he
  exact h e (Prod.mk.inj he).1

theorem bind {p : Prog ε σ α} {f : α → Prog ε σ β} (hp : Raises P p) (hf : ∀ a, Raises P (f a)) :
    Raises P (p >>= f) := by
  intro s e t he
  rw [exec_bind] at he
  cases hr : exec p s with
  | mk r s' =>
    rw [hr] at he
    cases r with
    | ok a => exact hf a s' e t he
    | error e' =>
      obtain rfl := Except.error.inj (Prod.mk.inj he).1
      exact hp s e' s' hr

theorem ite {c : Prop} [Decidable c] {p q : Prog ε σ α} (hp : Raises P p) (hq : Raises P q) :
    Raises P (if c then p else q) := by
  split
  · exact hp
  · exact hq

end Raises

/-! ### Programs without a state -/

theorem bind_ok {x : Except ε α} {f : α → Except ε β} {b : β} (h : x >>= f = .ok b) :
    ∃ a, x = .ok a ∧ f a = .ok b := by
  cases x with
  | error e => cases h
  | ok a => exact ⟨a, rfl, h⟩

theorem mapError_ok {ε' : Type} {x : Except ε α} {g : ε → ε'} {a : α} (h : x.mapError g = .ok a) : x = .ok a := by
  cases x with
  | error e => cases h
  | ok b => exact congrArg Except.ok (Except.ok.inj h)

theorem mapError_bind {ε' : Type} (g : ε → ε') (x : Except ε α) (f : α → Except ε β) :
    (x >>= f).mapError g = x.mapError g >>= fun a => (f a).mapError g := by
  cases x <;> rfl

/-- A loop returns what its rounds return. -/
theorem mapM_eq_ok {f : α → Except ε β} {l : List α} {out : List β} :
    l.mapM f = .ok out ↔ List.Forall₂ (fun a b => f a = .ok b) l out := by
  induction l generalizing out with
  | nil =>
    rw [List.forall₂_nil_left_iff]
    exact ⟨fun h => (Except.ok.inj h).symm, fun h => congrArg Except.ok h.symm⟩
  | cons x rest ih =>
    rw [List.mapM_cons, List.forall₂_cons_left_iff]
    constructor
    · intro h
      obtain ⟨y, hy, h⟩ := bind_ok h
      obtain ⟨ys, hys, h⟩ := bind_ok h
      exact ⟨y, ys, hy, ih.mp hys, (Except.ok.inj h).symm⟩
    · rintro ⟨y, ys, hy, hys, rfl⟩
      rw [hy, ih.mpr hys]
      rfl

/-- What a loop returns, regardless of the order. -/
theorem mem_mapM_ok {f : α → Except ε β} {l : List α} {out : List β} (h : l.mapM f = .ok out) {b : β} :
    b ∈ out ↔ ∃ a ∈ l, f a = .ok b := by
  induction mapM_eq_ok.mp h with
  | nil => simp
  | @cons a b' rest ys ha hrest ih =>
    rw [List.mem_cons, ih (mapM_eq_ok.mpr hrest), List.exists_mem_cons_iff, ha, Except.ok.injEq, eq_comm]

theorem mapM_isOk {f : α → Except ε β} {l : List α} :
    (∃ out, l.mapM f = .ok out) ↔ ∀ a ∈ l, ∃ b, f a = .ok b := by
  constructor
  · rintro ⟨out, h⟩
    induction mapM_eq_ok.mp h with
    | nil => simp
    | cons ha hrest ih => exact List.forall_mem_cons.mpr ⟨⟨_, ha⟩, ih (mapM_eq_ok.mpr hrest)⟩
  · intro h
    induction l with
    | nil => exact ⟨[], rfl⟩
    | cons x rest ih =>
      obtain ⟨⟨y, hy⟩, hrest⟩ := List.forall_mem_cons.mp h
      obtain ⟨ys, hys⟩ := ih hrest
      exact ⟨y :: ys, mapM_eq_ok.mpr (.cons hy (mapM_eq_ok.mp hys))⟩

/-- A loop keeps what its rounds keep. -/
theorem foldlM_ok {P : β → Prop} {f : β → α → Except ε β} {l : List α} {b b' : β}
    (hstep : ∀ b a b', P b → f b a = .ok b' → P b') (hb : P b) (h : l.foldlM f b = .ok b') : P b' := by
  induction l generalizing b with
  | nil => exact Except.ok.inj h ▸ hb
  | cons a rest ih =>
    obtain ⟨next, hnext, h⟩ := bind_ok h
    exact ih (hstep b a next hb hnext) h

/-- Each element of what a loop returns comes from its own element. -/
theorem mapM_ok {f : α → Except ε β} {l : List α} {out : List β} (h : l.mapM f = .ok out) {i : Nat}
    {a : α} {b : β} (ha : l[i]? = some a) (hb : out[i]? = some b) : f a = .ok b := by
  obtain ⟨hlt, rfl⟩ := List.getElem?_eq_some_iff.mp ha
  obtain ⟨hlt', rfl⟩ := List.getElem?_eq_some_iff.mp hb
  exact (mapM_eq_ok.mp h).get hlt hlt'

/-- A loop fails as the first of its rounds that fails. -/
theorem mapM_error {f : α → Except ε β} {l : List α} {e : ε} :
    l.mapM f = .error e ↔
      ∃ before a after, l = before ++ a :: after ∧ (∀ b ∈ before, ∃ y, f b = .ok y) ∧ f a = .error e := by
  induction l with
  | nil => exact ⟨nofun, fun ⟨before, a, after, h, _⟩ => by simp at h⟩
  | cons x rest ih =>
    rw [List.mapM_cons]
    constructor
    · intro h
      cases hx : f x with
      | error e' =>
        rw [hx] at h
        obtain rfl := Except.error.inj h
        exact ⟨[], x, rest, rfl, nofun, hx⟩
      | ok y =>
        have hrest : rest.mapM f = .error e := by
          rw [hx] at h
          cases hrest : rest.mapM f with
          | error e' =>
            rw [hrest] at h
            exact congrArg Except.error (Except.error.inj h)
          | ok ys =>
            rw [hrest] at h
            cases h
        obtain ⟨before, a, after, rfl, hbefore, ha⟩ := ih.mp hrest
        exact ⟨x :: before, a, after, rfl, List.forall_mem_cons.mpr ⟨⟨y, hx⟩, hbefore⟩, ha⟩
    · rintro ⟨before, a, after, hl, hbefore, ha⟩
      cases before with
      | nil =>
        obtain ⟨rfl, rfl⟩ := List.cons.inj hl
        rw [ha]
        rfl
      | cons b before =>
        obtain ⟨rfl, hrest⟩ := List.cons.inj hl
        obtain ⟨⟨y, hy⟩, hbefore⟩ := List.forall_mem_cons.mp hbefore
        rw [hy, ih.mpr ⟨before, a, after, hrest, hbefore, ha⟩]
        rfl

/-- A loop of lookups, all of which succeed. -/
theorem mapM_eq_some {f : α → Option β} {l : List α} {out : List β} :
    l.mapM f = some out ↔ l.map f = out.map some := by
  induction l generalizing out with
  | nil => cases out <;> simp
  | cons x rest ih =>
    rw [List.mapM_cons, List.map_cons]
    constructor
    · intro h
      obtain ⟨y, hy, h⟩ := Option.bind_eq_some_iff.mp h
      obtain ⟨ys, hys, h⟩ := Option.bind_eq_some_iff.mp h
      obtain rfl := Option.some.inj h
      rw [hy, ih.mp hys, List.map_cons]
    · intro h
      cases out with
      | nil => cases h
      | cons y ys =>
        obtain ⟨hy, hys⟩ := List.cons.inj h
        rw [hy, ih.mpr hys]
        rfl

end Prog
end Library
