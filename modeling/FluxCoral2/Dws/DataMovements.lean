import Mathlib.Data.List.Basic

/-! The data movements of a workflow that are saved (`_get_datamovements` of `workflow.py`).

The loop over the list keeps the failed data movements, and fills up with others. But the
server is asked for no more than are to be saved, and so it is the server's order that selects
them. `failed_first_iff`: the failed ones are saved exactly if none is behind the limit, or all
before it have failed. -/
namespace FluxCoral2.Dws

/-- An NnfDataMovement, with the status of its status. -/
structure DataMovement where
  name : String
  status : Option String
  deriving DecidableEq

def DataMovement.failed (dm : DataMovement) : Bool := dm.status = some "Failed"

/-- The loop over the items: the data movements to save, and those that have not failed. -/
def sortOut (saveDatamovements : Nat) :
    List DataMovement → List DataMovement × List DataMovement → List DataMovement × List DataMovement
  | [], buckets => buckets
  | dm :: items, (datamovements, successful) =>
    if datamovements.length < saveDatamovements then
      if dm.failed then sortOut saveDatamovements items (datamovements ++ [dm], successful)
      else sortOut saveDatamovements items (datamovements, successful ++ [dm])
    else sortOut saveDatamovements items (datamovements, successful)

/-- `_get_datamovements`; `list` is the listing with a limit, which may fail. -/
def getDatamovements (list : Nat → Option (List DataMovement)) (saveDatamovements : Int) : List DataMovement :=
  if saveDatamovements ≤ 0 then []
  else
    match list saveDatamovements.toNat with
    | none => []
    | some items =>
      let (datamovements, successful) := sortOut saveDatamovements.toNat items ([], [])
      if datamovements.length < saveDatamovements.toNat then
        datamovements ++ successful.take (saveDatamovements.toNat - datamovements.length)
      else datamovements

/-- A server that has these items: with a limit it lists the first ones. -/
def listing (items : List DataMovement) (limit : Nat) : Option (List DataMovement) := some (items.take limit)

/-- As many are saved as may be, first of all those that have failed. -/
structure FailedFirst (k : Nat) (items saved : List DataMovement) : Prop where
  length : saved.length = min k items.length
  distinct : saved.Nodup
  own : ∀ dm ∈ saved, dm ∈ items
  failed : saved.countP DataMovement.failed = min k (items.countP DataMovement.failed)
  before : saved.Pairwise fun dm dm' => dm'.failed = true → dm.failed = true

/-! ### What is saved -/

/-- As long as there is room, the loop is a sort. -/
theorem sortOut_eq {k : Nat} {items datamovements successful : List DataMovement}
    (h : datamovements.length + items.length ≤ k) : sortOut k items (datamovements, successful) =
      (datamovements ++ items.filter DataMovement.failed, successful ++ items.filter fun dm => !dm.failed) := by
  induction items generalizing datamovements successful with
  | nil => simp [sortOut]
  | cons dm items ih =>
    rw [List.length_cons] at h
    rw [sortOut, if_pos (by omega)]
    cases hdm : dm.failed with
    | true =>
      rw [if_pos rfl, ih (by rw [List.length_append, List.length_singleton]; omega)]
      simp [hdm]
    | false =>
      rw [if_neg Bool.false_ne_true, ih (by omega)]
      simp [hdm]

/-- The failed ones of some items, and then the others. -/
def sorted (items : List DataMovement) : List DataMovement :=
  items.filter DataMovement.failed ++ items.filter fun dm => !dm.failed

/-- All that the server lists is saved. -/
theorem getDatamovements_listing (items : List DataMovement) {k : Nat} (hk : 0 < k) :
    getDatamovements (listing items) k = sorted (items.take k) := by
  have hlength := List.length_take_le k items
  have hsplit := List.length_eq_length_filter_add DataMovement.failed (l := items.take k)
  have hroom : ([] : List DataMovement).length + (items.take k).length ≤ k := by
    rwa [List.length_nil, Nat.zero_add]
  have hsort : sortOut k (items.take k) ([], []) = ((items.take k).filter DataMovement.failed,
      (items.take k).filter fun dm => !dm.failed) := sortOut_eq hroom
  rw [getDatamovements, if_neg (by omega), Int.toNat_natCast, listing]
  dsimp only
  rw [hsort]
  dsimp only
  split
  · have hfit : ((items.take k).filter fun dm => !dm.failed).length ≤
        k - ((items.take k).filter DataMovement.failed).length := by omega
    rw [List.take_of_length_le hfit]
    rfl
  · -- there is no room left, as all have failed
    have hnone : (items.take k).filter (fun dm => !dm.failed) = [] := List.eq_nil_of_length_eq_zero (by omega)
    rw [sorted, hnone, List.append_nil]

theorem perm_sorted (items : List DataMovement) : (sorted items).Perm items :=
  List.filter_append_perm DataMovement.failed items

theorem pairwise_sorted (items : List DataMovement) :
    (sorted items).Pairwise fun dm dm' => dm'.failed = true → dm.failed = true := by
  refine List.pairwise_append.mpr ⟨?_, ?_, fun dm hdm dm' _ _ => (List.mem_filter.mp hdm).2⟩
  · exact List.pairwise_of_forall_mem_list fun dm hdm _ _ _ => (List.mem_filter.mp hdm).2
  · refine List.pairwise_of_forall_mem_list fun _ _ dm' hdm' hfailed => ?_
    exact absurd (List.mem_filter.mp hdm').2 (by simp [hfailed])

/-! ### The result -/

/-- As many failed ones are among the first items as can be. -/
theorem countP_take_iff (k : Nat) (items : List DataMovement) :
    (items.take k).countP DataMovement.failed = min k (items.countP DataMovement.failed) ↔
      (∀ dm ∈ items.drop k, dm.failed = false) ∨ ∀ dm ∈ items.take k, dm.failed = true := by
  have hcount : items.countP DataMovement.failed =
      (items.take k).countP DataMovement.failed + (items.drop k).countP DataMovement.failed := by
    rw [← List.countP_append, List.take_append_drop]
  have hnone : (∀ dm ∈ items.drop k, dm.failed = false) ↔ (items.drop k).countP DataMovement.failed = 0 := by
    simp [List.countP_eq_zero]
  have hall : (∀ dm ∈ items.take k, dm.failed = true) ↔
      (items.take k).countP DataMovement.failed = (items.take k).length := List.countP_eq_length.symm
  have hle := List.countP_le_length (p := DataMovement.failed) (l := items.take k)
  have hdrop := List.countP_le_length (p := DataMovement.failed) (l := items.drop k)
  rw [hnone, hall, hcount]
  rw [List.length_take] at hle ⊢
  rw [List.length_drop] at hdrop
  omega

/-- **The failed data movements are saved first** exactly if none of them is behind the limit, or
all before it have failed. -/
theorem failed_first_iff {items : List DataMovement} (hitems : items.Nodup) {k : Nat} (hk : 0 < k) :
    FailedFirst k items (getDatamovements (listing items) k) ↔
      (∀ dm ∈ items.drop k, dm.failed = false) ∨ ∀ dm ∈ items.take k, dm.failed = true := by
  have hperm := perm_sorted (items.take k)
  rw [← countP_take_iff, getDatamovements_listing items hk]
  constructor
  · intro h
    rw [← h.failed, hperm.countP_eq]
  · intro h
    refine ⟨?_, ?_, fun dm hdm => ?_, ?_, pairwise_sorted _⟩
    · rw [hperm.length_eq, List.length_take]
    · exact hperm.nodup_iff.mpr (hitems.sublist (List.take_sublist k items))
    · exact List.mem_of_mem_take (hperm.mem_iff.mp hdm)
    · rw [hperm.countP_eq, h]

/-- A failed data movement that is listed behind one that has not. -/
def failedBehind : List DataMovement := [⟨"nnf-1", some "Success"⟩, ⟨"nnf-2", some "Failed"⟩]

theorem failedBehind_lost : ¬ FailedFirst 1 failedBehind (getDatamovements (listing failedBehind) 1) :=
  fun h => absurd h.failed (by decide)

theorem failedBehind_saved : FailedFirst 2 failedBehind (getDatamovements (listing failedBehind) 2) :=
  (failed_first_iff (k := 2) (by decide) (by decide)).mpr (.inl (by decide))

end FluxCoral2.Dws
