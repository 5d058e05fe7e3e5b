import FluxCoral2.Rabbit.Capacity

/-! The limits on what a job may request (`directivebreakdown.py`).

The amounts that the directives of a job ask for are summed by type, and the sums are
compared with the maximums. That of Lustre is for the whole job, so it is divided by the
nodes first; the quotient is rounded down, and a sum that is above the maximum by less
than a GiB for each node is accepted: `rejected_exactly_iff`. -/
namespace FluxCoral2.Breakdown
open Library

/-! ### The sums -/

/-- Calls of `increment`, in order. -/
def incrementAll (requests : List (Label × Nat)) (limits : ResourceLimits) : Except Failure ResourceLimits :=
  requests.foldlM (fun limits request => limits.increment request.1 request.2) limits

def incremented (t : Label) (requests : List (Label × Nat)) : Nat :=
  ((requests.filter fun request => request.1 = t).map Prod.snd).sum

theorem incremented_cons (t : Label) (request : Label × Nat) (rest : List (Label × Nat)) :
    incremented t (request :: rest) = (if request.1 = t then request.2 else 0) + incremented t rest := by
  by_cases h : request.1 = t <;> simp [incremented, h]

theorem increment_known {attr : Label} (h : attr ∈ perComputeTypes ++ lustreTypes) (limits : ResourceLimits)
    (capacity : Nat) : ∃ limits', limits.increment attr capacity = .ok limits' := by
  cases attr with
  | other name => simp [perComputeTypes, lustreTypes] at h
  | _ => exact ⟨_, rfl⟩

/-- Each amount grows by the sum of its increments. -/
theorem incrementAll_known {requests : List (Label × Nat)}
    (h : ∀ request ∈ requests, request.1 ∈ perComputeTypes ++ lustreTypes) (limits : ResourceLimits) :
    ∃ limits', incrementAll requests limits = .ok limits' ∧
      ∀ t ∈ counted, limits'.amount t = limits.amount t + incremented t requests := by
  induction requests generalizing limits with
  | nil => exact ⟨limits, rfl, fun t _ => rfl⟩
  | cons request rest ih =>
    obtain ⟨next, hnext⟩ := increment_known (h request List.mem_cons_self) limits request.2
    obtain ⟨last, hlast, hamounts⟩ := ih (fun r hr => h r (List.mem_cons_of_mem request hr)) next
    refine ⟨last, ?_, fun t ht => ?_⟩
    · rw [incrementAll, List.foldlM_cons, hnext]
      exact hlast
    · rw [hamounts t ht, amount_increment hnext ht, incremented_cons, Nat.add_assoc]

/-! ### Requests over the limit -/

section Requests
variable (maximums : Maximums) (nodecount : Nat) (requests : List (Label × Nat))

/-- The calls return, and `validate` then raises a ValueError. -/
def Rejected : Prop :=
  ∃ limits, incrementAll requests ⟨0, 0, 0, 0⟩ = .ok limits ∧
    ∃ message, limits.validate maximums nodecount = .error (.valueError message)

/-- A sum is above the maximum, which for Lustre is for each node. -/
def Over : Prop :=
  OverPerCompute maximums (incremented · requests) ∨
    ∃ allowable, maximums.lustre = some allowable ∧ allowable * nodecount < incremented .ost requests

/-- The rounding makes no difference: Lustre is within its maximum or above it by a GiB for
each node, or another type is above its own. -/
def RoundingHarmless : Prop :=
  OverPerCompute maximums (incremented · requests) ∨
    ∀ allowable, maximums.lustre = some allowable →
      incremented .ost requests ≤ allowable * nodecount ∨ (allowable + 1) * nodecount ≤ incremented .ost requests

variable {maximums nodecount requests}

theorem rejected_iff (hlabels : ∀ request ∈ requests, request.1 ∈ perComputeTypes ++ lustreTypes)
    (hn : 1 ≤ nodecount) :
    Rejected maximums nodecount requests ↔ OverPerCompute maximums (incremented · requests) ∨
      ∃ allowable, maximums.lustre = some allowable ∧ (allowable + 1) * nodecount ≤ incremented .ost requests := by
  obtain ⟨limits, hlimits, hamounts⟩ := incrementAll_known hlabels ⟨0, 0, 0, 0⟩
  have hamount (t : Label) (ht : t ∈ counted) : limits.amount t = incremented t requests := by
    rw [hamounts t ht]
    cases t <;> simp [ResourceLimits.amount]
  have hper : OverPerCompute maximums limits.amount ↔ OverPerCompute maximums (incremented · requests) :=
    overPerCompute_congr hamount
  have hlustre (allowable : Nat) : allowable < limits.lustre / nodecount ↔
      (allowable + 1) * nodecount ≤ incremented .ost requests := by
    rw [← hamount .ost (by decide)]
    exact Nat.le_div_iff_mul_le hn
  simp only [← hlustre, ← hper]
  rcases validate_cases limits maximums hn with ⟨hvalidate, hnot⟩ | ⟨message, hvalidate, hexceed⟩
  · refine iff_of_false ?_ hnot
    rintro ⟨limits', hlimits', message, hrejected⟩
    obtain rfl := Except.ok.inj (hlimits'.symm.trans hlimits)
    rw [hvalidate] at hrejected
    cases hrejected
  · exact iff_of_true ⟨limits, hlimits, message, hvalidate⟩ hexceed

/-- **Requests over the limit** are what is rejected, exactly when rounding the Lustre of each
node down makes no difference. -/
theorem rejected_exactly_iff (hlabels : ∀ request ∈ requests, request.1 ∈ perComputeTypes ++ lustreTypes)
    (hn : 1 ≤ nodecount) :
    (Rejected maximums nodecount requests ↔ Over maximums nodecount requests) ↔
      RoundingHarmless maximums nodecount requests := by
  rw [rejected_iff hlabels hn, Over, RoundingHarmless]
  by_cases hper : OverPerCompute maximums (incremented · requests)
  · simp only [hper, true_or]
  simp only [hper, false_or]
  cases maximums.lustre with
  | none => simp
  | some allowable =>
    have hstep : (allowable + 1) * nodecount = allowable * nodecount + nodecount := Nat.succ_mul _ _
    simp only [Option.some.injEq, exists_eq_left', forall_eq', hstep]
    omega

/-- 301 GiB on three nodes, where 100 GiB are allowed on each. -/
theorem threeNodes_exactly_iff :
    (Rejected {lustre := some 100} 3 [(.ost, 301)] ↔ Over {lustre := some 100} 3 [(.ost, 301)]) ↔
      RoundingHarmless {lustre := some 100} 3 [(.ost, 301)] :=
  rejected_exactly_iff (by decide) (by decide)

theorem threeNodes_over_accepted :
    Over {lustre := some 100} 3 [(.ost, 301)] ∧ ¬ Rejected {lustre := some 100} 3 [(.ost, 301)] := by
  refine ⟨.inr ⟨100, rfl, by decide⟩, ?_⟩
  rintro ⟨limits, hlimits, message, hrejected⟩
  obtain rfl := Except.ok.inj hlimits
  cases hrejected

end Requests

/-- What is reserved for the same request is above the maximum. -/
example : ceilOfQuotient .double 301 3 = .ok 101 := by decide

end FluxCoral2.Breakdown
