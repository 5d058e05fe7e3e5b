import Mathlib.Data.List.Basic
import Mathlib.Order.Nat

/-! Logs of the changes of some objects, with versions that increase.

A reader keeps a version and what it has seen. `CaughtUp` says that it has seen the latest
change of every object that exists, where this is not behind its version. It stays so while
the log grows, behind any part of the changes after its version, and behind a listing of the
objects with some of the changes after it. -/
namespace Library

/-- What was done to one of the objects. -/
structure Change (κ α : Type) where
  version : Nat
  name : κ
  deleted : Bool
  object : α
  deriving DecidableEq

/-- `last` is the version the objects are at. -/
structure ChangeLog (κ α : Type) where
  changes : List (Change κ α)
  last : Nat
  increasing : changes.Pairwise fun c d => c.version < d.version
  positive : ∀ c ∈ changes, 0 < c.version
  bounded : ∀ c ∈ changes, c.version ≤ last

/-- A change that is to be made, some versions after the last one. -/
structure Write (κ α : Type) where
  name : κ
  deleted : Bool := false
  object : α
  skipped : Nat := 0

/-- A way to put lists in another order. -/
structure Shuffle (α : Type) where
  apply : List α → List α
  perm : ∀ l, (apply l).Perm l

def Shuffle.id {α : Type} : Shuffle α := ⟨fun l => l, fun l => .refl l⟩

def Shuffle.reverse {α : Type} : Shuffle α := ⟨List.reverse, List.reverse_perm⟩

namespace ChangeLog
variable {κ α : Type}

def empty : ChangeLog κ α := ⟨[], 0, .nil, nofun, nofun⟩

def write (log : ChangeLog κ α) (w : Write κ α) : ChangeLog κ α where
  changes := log.changes ++ [⟨log.last + w.skipped + 1, w.name, w.deleted, w.object⟩]
  last := log.last + w.skipped + 1
  increasing := by
    refine List.pairwise_append.mpr ⟨log.increasing, List.pairwise_singleton _ _, fun c hc d hd => ?_⟩
    rw [List.mem_singleton.mp hd]
    exact Nat.lt_succ_of_le (Nat.le_add_right_of_le (log.bounded c hc))
  positive := by
    intro c hc
    rcases List.mem_append.mp hc with hc | hc
    · exact log.positive c hc
    · rw [List.mem_singleton.mp hc]
      exact Nat.succ_pos _
  bounded := by
    intro c hc
    rcases List.mem_append.mp hc with hc | hc
    · exact Nat.le_succ_of_le (Nat.le_add_right_of_le (log.bounded c hc))
    · exact (congrArg Change.version (List.mem_singleton.mp hc)).le

def writes (log : ChangeLog κ α) (ws : List (Write κ α)) : ChangeLog κ α := ws.foldl write log

/-- The changes after a version, in order. -/
def since (log : ChangeLog κ α) (version : Nat) : List (Change κ α) :=
  log.changes.filter fun c => version < c.version

section Existing
variable [DecidableEq κ]

/-- The last change of each object that exists. -/
def existing (log : ChangeLog κ α) : List (Change κ α) :=
  log.changes.filter fun c => !c.deleted && log.changes.all fun d => d.name = c.name → d.version ≤ c.version

theorem mem_existing {log : ChangeLog κ α} {c : Change κ α} : c ∈ log.existing ↔
    c ∈ log.changes ∧ c.deleted = false ∧ ∀ d ∈ log.changes, d.name = c.name → d.version ≤ c.version := by
  simp [existing, imp_iff_not_or]

end Existing

/-! ### Growth -/

theorem writes_grows (log : ChangeLog κ α) (ws : List (Write κ α)) : log.last ≤ (log.writes ws).last ∧
    ∃ new, (log.writes ws).changes = log.changes ++ new ∧ ∀ c ∈ new, log.last < c.version := by
  induction ws generalizing log with
  | nil => exact ⟨Nat.le_refl _, [], (List.append_nil _).symm, nofun⟩
  | cons w rest ih =>
    obtain ⟨hle, new, hnew, hlater⟩ := ih (log.write w)
    have hlt : log.last < (log.write w).last := Nat.lt_succ_of_le (Nat.le_add_right _ _)
    refine ⟨(Nat.le_of_lt hlt).trans hle, _ :: new, hnew.trans (List.append_assoc _ _ _), ?_⟩
    exact List.forall_mem_cons.mpr ⟨hlt, fun c hc => hlt.trans (hlater c hc)⟩

theorem mem_writes {log : ChangeLog κ α} {ws : List (Write κ α)} {c : Change κ α} (h : c ∈ (log.writes ws).changes) :
    c ∈ log.changes ∨ log.last < c.version := by
  obtain ⟨-, new, hnew, hlater⟩ := log.writes_grows ws
  rw [hnew] at h
  exact (List.mem_append.mp h).imp_right (hlater c)

theorem mem_writes_of_mem {log : ChangeLog κ α} {c : Change κ α} (h : c ∈ log.changes) (ws : List (Write κ α)) :
    c ∈ (log.writes ws).changes := by
  obtain ⟨-, new, hnew, -⟩ := log.writes_grows ws
  rw [hnew]
  exact List.mem_append_left new h

theorem mem_since {log : ChangeLog κ α} {version : Nat} {c : Change κ α} :
    c ∈ log.since version ↔ c ∈ log.changes ∧ version < c.version := by
  simp [since]

/-- What is not behind one of the first changes is one of them. -/
theorem mem_take_since {log : ChangeLog κ α} {version k : Nat} {c d : Change κ α} (hc : c ∈ log.since version)
    (hd : d ∈ (log.since version).take k) (hle : c.version ≤ d.version) : c ∈ (log.since version).take k := by
  have hsorted := log.increasing.filter fun c => version < c.version
  rw [← List.take_append_drop k (log.since version)] at hc
  refine (List.mem_append.mp hc).resolve_right fun hdrop => ?_
  rw [← since, ← List.take_append_drop k (log.since version)] at hsorted
  exact absurd ((List.pairwise_append.mp hsorted).2.2 d hd c hdrop) (Nat.not_lt_of_le hle)

/-! ### The version of a reader -/

/-- The highest version there is, from one on. -/
def reached (version : Nat) (cs : List (Change κ α)) : Nat := cs.foldl (fun v c => max v c.version) version

theorem le_reached (version : Nat) (cs : List (Change κ α)) : version ≤ reached version cs := by
  induction cs generalizing version with
  | nil => exact Nat.le_refl _
  | cons c rest ih => exact (Nat.le_max_left _ _).trans (ih _)

theorem reached_cases (version : Nat) (cs : List (Change κ α)) :
    reached version cs = version ∨ ∃ c ∈ cs, reached version cs = c.version := by
  induction cs generalizing version with
  | nil => exact .inl rfl
  | cons c rest ih =>
    show reached (max version c.version) rest = _ ∨ ∃ d ∈ _, reached (max version c.version) rest = _
    rcases ih (max version c.version) with h | ⟨d, hd, h⟩
    · rw [h]
      rcases Nat.le_total version c.version with hle | hle
      · exact .inr ⟨c, List.mem_cons_self, Nat.max_eq_right hle⟩
      · exact .inl (Nat.max_eq_left hle)
    · exact .inr ⟨d, List.mem_cons_of_mem _ hd, h⟩

theorem reached_le_last {log : ChangeLog κ α} {version : Nat} {cs : List (Change κ α)}
    (hle : version ≤ log.last) (h : ∀ c ∈ cs, c ∈ log.changes) :
    reached version cs ≤ log.last := by
  rcases reached_cases version cs with hr | ⟨c, hc, hr⟩
  · exact hr.trans_le hle
  · exact hr.trans_le (log.bounded c (h c hc))

section CaughtUp
variable [DecidableEq κ]

/-- The reader has seen every object as it is, if that is not after its version. -/
structure CaughtUp (log : ChangeLog κ α) (version : Nat) (seen : List (Change κ α)) : Prop where
  le_last : version ≤ log.last
  seen : ∀ c ∈ log.existing, c.version ≤ version → c ∈ seen

theorem caughtUp_zero (log : ChangeLog κ α) (seen : List (Change κ α)) : CaughtUp log 0 seen :=
  ⟨Nat.zero_le _, fun c hc hle => absurd (log.positive c (mem_existing.mp hc).1) (Nat.not_lt_of_le hle)⟩

theorem existing_of_writes {log : ChangeLog κ α} {ws : List (Write κ α)} {c : Change κ α}
    (h : c ∈ (log.writes ws).existing) (hle : c.version ≤ log.last) : c ∈ log.existing := by
  obtain ⟨hmem, hthere, hlatest⟩ := mem_existing.mp h
  refine mem_existing.mpr ⟨(mem_writes hmem).resolve_right (Nat.not_lt_of_le hle), hthere, fun d hd => ?_⟩
  exact hlatest d (mem_writes_of_mem hd ws)

variable {log : ChangeLog κ α} {version : Nat} {seen : List (Change κ α)}

theorem CaughtUp.writes (h : CaughtUp log version seen) (ws : List (Write κ α)) :
    CaughtUp (log.writes ws) version seen :=
  ⟨h.le_last.trans (log.writes_grows ws).1,
    fun c hc hle => h.seen c (existing_of_writes hc (hle.trans h.le_last)) hle⟩

/-- The reader goes on with some of the changes after its version. -/
theorem CaughtUp.read (h : CaughtUp log version seen) (k : Nat) :
    CaughtUp log (reached version ((log.since version).take k)) (seen ++ (log.since version).take k) := by
  have hsince : ∀ c ∈ (log.since version).take k, c ∈ log.changes := fun c hc =>
    (mem_since.mp (List.mem_of_mem_take hc)).1
  refine ⟨reached_le_last h.le_last hsince, fun c hc hle => List.mem_append.mpr ?_⟩
  by_cases hold : c.version ≤ version
  · exact .inl (h.seen c hc hold)
  · have hnew : c ∈ log.since version := mem_since.mpr ⟨(mem_existing.mp hc).1, Nat.lt_of_not_le hold⟩
    rcases reached_cases version ((log.since version).take k) with hr | ⟨d, hd, hr⟩
    · exact absurd (hr ▸ hle) hold
    · exact .inr (mem_take_since hnew hd (hr ▸ hle))

/-- The reader starts again with the objects there are, and some of the changes after them. -/
theorem CaughtUp.list (log : ChangeLog κ α) (order : Shuffle (Change κ α)) (ws : List (Write κ α)) (k : Nat)
    (seen : List (Change κ α)) :
    let cs := order.apply log.existing ++ ((log.writes ws).since log.last).take k
    CaughtUp (log.writes ws) (reached 0 cs) (seen ++ cs) := by
  intro cs
  have hlisted {c : Change κ α} (hc : c ∈ order.apply log.existing) : c ∈ log.existing :=
    (order.perm _).mem_iff.mp hc
  have hchanges : ∀ c ∈ cs, c ∈ (log.writes ws).changes := by
    intro c hc
    rcases List.mem_append.mp hc with hc | hc
    · exact mem_writes_of_mem (mem_existing.mp (hlisted hc)).1 ws
    · exact (mem_since.mp (List.mem_of_mem_take hc)).1
  refine ⟨reached_le_last (Nat.zero_le _) hchanges, fun c hc hle => ?_⟩
  refine List.mem_append_right seen (List.mem_append.mpr ?_)
  by_cases hold : c.version ≤ log.last
  · exact .inl ((order.perm _).mem_iff.mpr (existing_of_writes hc hold))
  · have hlater := Nat.lt_of_not_le hold
    rcases reached_cases 0 cs with hr | ⟨d, hd, hr⟩
    · omega
    · rcases List.mem_append.mp hd with hd | hd
      · have := log.bounded d (mem_existing.mp (hlisted hd)).1
        omega
      · exact .inr (mem_take_since (mem_since.mpr ⟨(mem_existing.mp hc).1, hlater⟩) hd (hr ▸ hle))

end CaughtUp

end ChangeLog
end Library
