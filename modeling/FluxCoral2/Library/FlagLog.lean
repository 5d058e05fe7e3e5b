import Mathlib.Data.List.Basic

/-! Flags set and cleared in order.

A log of operations on keys, each of which sets or clears the key's flag. A flag is
as the last operation on its key left it, and clear before any. -/
namespace Library

inductive FlagOp (κ : Type)
  | set (key : κ)
  | clear (key : κ)
  deriving DecidableEq

variable {κ : Type} [DecidableEq κ]

def FlagOp.apply (k : κ) (flag : Bool) : FlagOp κ → Bool
  | .set key => if key = k then true else flag
  | .clear key => if key = k then false else flag

def flagged (log : List (FlagOp κ)) (k : κ) : Bool := log.foldl (FlagOp.apply k) false

theorem foldl_set (keys : List κ) (k : κ) (flag : Bool) :
    (keys.map .set).foldl (FlagOp.apply k) flag = true ↔ k ∈ keys ∨ flag = true := by
  induction keys generalizing flag with
  | nil => simp
  | cons key rest ih =>
    rw [List.map_cons, List.foldl_cons, ih]
    by_cases h : key = k
    · simp [FlagOp.apply, h]
    · simp [FlagOp.apply, h, Ne.symm h]

theorem foldl_clear (keys : List κ) (k : κ) (flag : Bool) :
    (keys.map .clear).foldl (FlagOp.apply k) flag = true ↔ k ∉ keys ∧ flag = true := by
  induction keys generalizing flag with
  | nil => simp
  | cons key rest ih =>
    rw [List.map_cons, List.foldl_cons, ih]
    by_cases h : key = k
    · simp [FlagOp.apply, h]
    · simp [FlagOp.apply, h, Ne.symm h]

theorem flagged_append_set (log : List (FlagOp κ)) (keys : List κ) (k : κ) :
    flagged (log ++ keys.map .set) k = true ↔ k ∈ keys ∨ flagged log k = true := by
  rw [flagged, List.foldl_append, foldl_set]
  rfl

theorem flagged_append_clear (log : List (FlagOp κ)) (keys : List κ) (k : κ) :
    flagged (log ++ keys.map .clear) k = true ↔ k ∉ keys ∧ flagged log k = true := by
  rw [flagged, List.foldl_append, foldl_clear]
  rfl

end Library
