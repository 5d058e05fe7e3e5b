import Mathlib.Data.Nat.Basic
import FluxCoral2.Library.Dict

/-! Things dealt out in turn.

`count` things are dealt to `n` players in rounds, from the first player on, until there are
none left. Each player gets the quotient, and the first of them one more for the remainder
(`dealt`), so what two players get differs by one at most, and an earlier one gets no less.
What the players have is kept in a dictionary (`tally`). -/
namespace Library

/-- What the player at place `i` gets. -/
def dealt (n count i : Nat) : Nat := count / n + if i < count % n then 1 else 0

theorem dealt_zero (n i : Nat) : dealt n 0 i = 0 := by simp [dealt]

/-- One round, and the rest. -/
theorem dealt_round {n i : Nat} (hi : i < n) (count : Nat) :
    dealt n count i = (if i < count then 1 else 0) + dealt n (count - min count n) i := by
  by_cases hlt : count < n
  · rw [Nat.min_eq_left (Nat.le_of_lt hlt), Nat.sub_self, dealt_zero, dealt, Nat.div_eq_of_lt hlt,
      Nat.mod_eq_of_lt hlt, Nat.zero_add, Nat.add_zero]
  · have hle : n ≤ count := Nat.le_of_not_lt hlt
    have hpos : 0 < n := Nat.zero_lt_of_lt hi
    rw [Nat.min_eq_right hle, if_pos (Nat.lt_of_lt_of_le hi hle), dealt, dealt, Nat.div_eq_sub_div hpos hle,
      Nat.mod_eq_sub_mod hle]
    omega

theorem dealt_le_succ (n count i j : Nat) : dealt n count i ≤ dealt n count j + 1 := by
  unfold dealt
  split <;> split <;> omega

theorem dealt_antitone (n count : Nat) {i j : Nat} (h : i ≤ j) : dealt n count j ≤ dealt n count i := by
  unfold dealt
  split <;> split <;> omega

/-! ### What the players have -/

section
variable {κ : Type} [DecidableEq κ]

def tally (d : Dict κ Nat) (k : κ) : Nat := (d.get? k).getD 0

def increment (d : Dict κ Nat) (k : κ) : Dict κ Nat := d.set k (tally d k + 1)

/-- All that the players have. -/
def handed (d : Dict κ Nat) : Nat := (d.entries.map Prod.snd).sum

theorem tally_increment (d : Dict κ Nat) (k k' : κ) :
    tally (increment d k) k' = tally d k' + if k' = k then 1 else 0 := by
  by_cases h : k' = k
  · simp [tally, increment, h]
  · simp [tally, increment, h]

theorem handed_increment (d : Dict κ Nat) (k : κ) : handed (increment d k) = handed d + 1 := by
  have h := d.sum_set k (tally d k + 1)
  unfold handed increment
  unfold tally at h ⊢
  omega

/-- Each key is incremented once. -/
theorem tally_foldl_increment {keys : List κ} (hkeys : keys.Nodup) (d : Dict κ Nat) (k : κ) :
    tally (keys.foldl increment d) k = tally d k + if k ∈ keys then 1 else 0 := by
  induction keys generalizing d with
  | nil => rfl
  | cons key rest ih =>
    obtain ⟨hnot, hrest⟩ := List.nodup_cons.mp hkeys
    rw [List.foldl_cons, ih hrest, tally_increment]
    by_cases hk : k = key
    · subst hk
      simp [hnot]
    · simp [hk]

theorem handed_foldl_increment (keys : List κ) (d : Dict κ Nat) :
    handed (keys.foldl increment d) = handed d + keys.length := by
  induction keys generalizing d with
  | nil => rfl
  | cons key rest ih =>
    rw [List.foldl_cons, ih, handed_increment, List.length_cons]
    omega

/-- Who has something is one of the players, and what is kept is not zero. -/
structure Hands (players : List κ) (d : Dict κ Nat) : Prop where
  players : ∀ k ∈ d.keys, k ∈ players
  positive : ∀ k v, d.get? k = some v → 1 ≤ v

theorem hands_empty (players : List κ) : Hands players .empty := ⟨nofun, fun _ _ h => by cases h⟩

theorem Hands.increment {players : List κ} {d : Dict κ Nat} (h : Hands players d) {k : κ} (hk : k ∈ players) :
    Hands players (increment d k) := by
  refine ⟨fun k' hk' => ?_, fun k' v hv => ?_⟩
  · rcases (d.mem_keys_set k k' _).mp hk' with rfl | hold
    · exact hk
    · exact h.players k' hold
  · rw [Library.increment, Dict.get?_set] at hv
    split at hv
    · obtain rfl := Option.some.inj hv
      exact Nat.le_add_left 1 _
    · exact h.positive k' v hv

theorem Hands.foldl {players keys : List κ} {d : Dict κ Nat} (h : Hands players d) (hkeys : keys ⊆ players) :
    Hands players (keys.foldl Library.increment d) := by
  induction keys generalizing d with
  | nil => exact h
  | cons key rest ih =>
    obtain ⟨hkey, hrest⟩ := List.cons_subset.mp hkeys
    exact ih (h.increment hkey) hrest

end
end Library
