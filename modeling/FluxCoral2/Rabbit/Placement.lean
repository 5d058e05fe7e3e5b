import Mathlib.Algebra.Order.BigOperators.Group.List
import FluxCoral2.Rabbit.Breakdown
import FluxCoral2.Rabbit.Storage

/-! The placement of allocations on rabbits (`build_allocation_sets`).

Where an allocation set asks for a number of allocations, a loop over the rabbits of the
job counts them down. The rabbits are those of the computes in R, and `setup_cb` takes an
R without computes as well, from which nothing is counted down: `placement_ends_iff`. -/
namespace FluxCoral2.Breakdown
open Library

/-! ### The loop -/

/-- The states of a placement at the head of its outer loop. -/
inductive Placed (nodesPerNnf : Dict String Nat) (count : Nat) : Dict String Nat × Nat → Prop
  | start : Placed nodesPerNnf count (.empty, count)
  | round {placed} : Placed nodesPerNnf count placed → placed.2 ≠ 0 →
      Placed nodesPerNnf count (placeRound (mostCommon nodesPerNnf placed.2) placed)

variable {nodesPerNnf : Dict String Nat} {allocSets : List AllocSet} {allocSet : AllocSet}

theorem placeRound_le (names : List String) (placed : Dict String Nat × Nat) :
    (placeRound names placed).2 ≤ placed.2 := by
  induction names generalizing placed with
  | nil => exact le_rfl
  | cons name rest ih =>
    obtain ⟨countsPerRabbit, count⟩ := placed
    rw [placeRound]
    split
    · exact Nat.sub_le count 1
    · exact (ih _).trans (Nat.sub_le count 1)

theorem placeRound_lt {names : List String} (hne : names ≠ []) {placed : Dict String Nat × Nat}
    (hpos : placed.2 ≠ 0) : (placeRound names placed).2 < placed.2 := by
  obtain ⟨countsPerRabbit, count⟩ := placed
  cases names with
  | nil => exact absurd rfl hne
  | cons name rest =>
    have hless : count - 1 < count := Nat.sub_one_lt hpos
    rw [placeRound]
    split
    · exact hless
    · exact (placeRound_le rest _).trans_lt hless

theorem mostCommon_ne_nil (hne : nodesPerNnf.keys ≠ []) {count : Nat} (hpos : count ≠ 0) :
    mostCommon nodesPerNnf count ≠ [] := by
  intro hnil
  rw [mostCommon, List.map_eq_nil_iff, List.take_eq_nil_iff] at hnil
  have hentries := List.perm_nil.mp ((hnil.resolve_left hpos) ▸ List.perm_insertionSort _ nodesPerNnf.entries).symm
  exact hne (by rw [Dict.keys, hentries, List.map_nil])

/-- Each round places something when there is a rabbit. -/
theorem place_ends (hne : nodesPerNnf.keys ≠ []) {fuel : Nat} {placed : Dict String Nat × Nat}
    (hfuel : placed.2 ≤ fuel) : ∃ counts, place nodesPerNnf fuel placed = .ok counts := by
  induction fuel generalizing placed with
  | zero =>
    refine ⟨placed.1, ?_⟩
    rw [place, if_pos (Nat.le_zero.mp hfuel)]
  | succ fuel ih =>
    rw [place]
    by_cases hzero : placed.2 = 0
    · exact ⟨placed.1, by rw [if_pos hzero]⟩
    · rw [if_neg hzero]
      refine ih (Nat.le_of_lt_succ ?_)
      exact (placeRound_lt (mostCommon_ne_nil hne hzero) hzero).trans_le hfuel

theorem place_loops (hnil : nodesPerNnf.keys = []) (fuel : Nat) {placed : Dict String Nat × Nat}
    (hpos : placed.2 ≠ 0) : place nodesPerNnf fuel placed = .error .loops := by
  have hnone : mostCommon nodesPerNnf placed.2 = [] := by
    rw [mostCommon, List.map_eq_nil_iff.mp hnil, List.insertionSort_nil, List.take_nil, List.map_nil]
  induction fuel with
  | zero => rw [place, if_neg hpos]
  | succ fuel ih =>
    rw [place, if_neg hpos, hnone]
    exact ih

theorem placed_decreases (hne : nodesPerNnf.keys ≠ []) {placed : Dict String Nat × Nat} (hpos : placed.2 ≠ 0) :
    (placeRound (mostCommon nodesPerNnf placed.2) placed).2 < placed.2 :=
  placeRound_lt (mostCommon_ne_nil hne hpos) hpos

/-! ### Allocation sets -/

/-- What the schema of a count promises. -/
def AllocSet.CountPositive (allocSet : AllocSet) : Prop := ∀ count, allocSet.count = some count → 1 ≤ count

theorem requiredCount_pos (hcount : allocSet.CountPositive) {count : Nat}
    (h : allocSet.requiredCount = some count) : count ≠ 0 := by
  rw [AllocSet.requiredCount] at h
  split at h
  · obtain rfl := Option.some.inj h
    exact one_ne_zero
  · exact Nat.one_le_iff_ne_zero.mp (hcount count h)

/-- A placement is the loop of the one kind of allocation set. -/
theorem storageField_counted {fuel computeNodeCount count : Nat}
    (hnot : allocSet.allocationStrategy ≠ .perCompute) (hrequired : allocSet.requiredCount = some count)
    (hpos : count ≠ 0) :
    storageField fuel allocSet nodesPerNnf computeNodeCount =
      (place nodesPerNnf fuel (.empty, count)).map fun countsPerRabbit =>
        (allocSet.minimumCapacity ⌈/⌉ count, countsPerRabbit.entries.map fun e => ⟨e.2, e.1⟩) := by
  rw [storageField, if_neg hnot, hrequired]
  dsimp only
  rw [ceilOfQuotient_exact _ hpos]
  cases place nodesPerNnf fuel (.empty, count) <;> rfl

theorem storageField_uncounted {fuel computeNodeCount : Nat} (hnone : allocSet.requiredCount = none) :
    storageField fuel allocSet nodesPerNnf computeNodeCount ≠ .error .loops := by
  intro h
  rw [storageField, hnone] at h
  dsimp only at h
  split at h
  · cases h
  · cases hgcd : reduceGcd (nodesPerNnf.entries.map Prod.snd) with
    | error e =>
      rw [hgcd] at h
      obtain rfl := Except.error.inj h
      cases hcounts : nodesPerNnf.entries.map Prod.snd with
      | nil =>
        rw [hcounts] at hgcd
        cases hgcd
      | cons count rest =>
        rw [hcounts] at hgcd
        cases hgcd
    | ok d =>
      rw [hgcd] at h
      change (ceilOfQuotient .exact (d * allocSet.minimumCapacity) computeNodeCount >>= _) = _ at h
      by_cases hzero : computeNodeCount = 0
      · rw [ceilOfQuotient, if_pos hzero] at h
        cases h
      · rw [ceilOfQuotient_exact _ hzero] at h
        cases h

theorem serverAllocSet_error {fuel computeNodeCount minAllocSize : Nat} {e : Failure} :
    serverAllocSet fuel nodesPerNnf computeNodeCount minAllocSize allocSet = .error e ↔
      storageField fuel allocSet nodesPerNnf computeNodeCount = .error e := by
  rw [serverAllocSet]
  cases storageField fuel allocSet nodesPerNnf computeNodeCount with
  | error e' => exact ⟨fun h => congrArg _ (Except.error.inj h), fun h => congrArg _ (Except.error.inj h)⟩
  | ok field => exact ⟨nofun, nofun⟩

/-- `build_allocation_sets` returns or raises. -/
def Ends (allocSets : List AllocSet) (nodesPerNnf : Dict String Nat) (computeNodeCount minAllocSize : Nat) : Prop :=
  ∃ rounds, ∀ fuel, rounds ≤ fuel →
    buildAllocationSets fuel allocSets nodesPerNnf computeNodeCount minAllocSize ≠ .error .loops

/-- The placement of `count` allocations is reached: nothing before it raises or does not end. -/
def Reaches (allocSets : List AllocSet) (nodesPerNnf : Dict String Nat)
    (computeNodeCount minAllocSize count : Nat) : Prop :=
  ∃ fuel before allocSet after, allocSets = before ++ allocSet :: after ∧
    (∀ b ∈ before, ∃ server, serverAllocSet fuel nodesPerNnf computeNodeCount minAllocSize b = .ok server) ∧
    allocSet.allocationStrategy ≠ .perCompute ∧ allocSet.requiredCount = some count

/-- Every round of every placement leaves less to place. -/
def Decreases (allocSets : List AllocSet) (nodesPerNnf : Dict String Nat)
    (computeNodeCount minAllocSize : Nat) : Prop :=
  ∀ count, Reaches allocSets nodesPerNnf computeNodeCount minAllocSize count →
    ∀ placed, Placed nodesPerNnf count placed → placed.2 ≠ 0 →
      (placeRound (mostCommon nodesPerNnf placed.2) placed).2 < placed.2

/-- The first allocation set that is not per compute, if any, has no count. -/
def FirstUncounted (allocSets : List AllocSet) : Prop :=
  ∀ allocSet, (allocSets.find? fun a => a.allocationStrategy ≠ .perCompute) = some allocSet →
    allocSet.requiredCount = none

theorem serverAllocSet_ends (hcount : allocSet.CountPositive)
    (h : nodesPerNnf.keys ≠ [] ∨ allocSet.requiredCount = none)
    (computeNodeCount minAllocSize : Nat) {fuel : Nat} (hfuel : allocSet.requiredCount.getD 0 ≤ fuel) :
    serverAllocSet fuel nodesPerNnf computeNodeCount minAllocSize allocSet ≠ .error .loops := by
  rw [Ne, serverAllocSet_error]
  intro hloops
  by_cases hper : allocSet.allocationStrategy = .perCompute
  · rw [storageField, if_pos hper] at hloops
    cases hloops
  · cases hrequired : allocSet.requiredCount with
    | none => exact storageField_uncounted hrequired hloops
    | some count =>
      have hne := h.resolve_right (Option.ne_none_iff_exists'.mpr ⟨count, hrequired⟩)
      rw [hrequired, Option.getD_some] at hfuel
      obtain ⟨counts, hplace⟩ : ∃ counts, place nodesPerNnf fuel (.empty, count) = .ok counts :=
        place_ends hne hfuel
      rw [storageField_counted hper hrequired (requiredCount_pos hcount hrequired), hplace] at hloops
      cases hloops

/-- Without rabbits a placement is reached only at the first set that is not per compute. -/
theorem reaches_first {computeNodeCount minAllocSize count : Nat}
    (hcounts : ∀ a ∈ allocSets, a.CountPositive) (hnil : nodesPerNnf.keys = [])
    (h : Reaches allocSets nodesPerNnf computeNodeCount minAllocSize count) : ¬ FirstUncounted allocSets := by
  obtain ⟨fuel, before, allocSet, after, rfl, hbefore, hnot, hrequired⟩ := h
  have hper : ∀ b ∈ before, b.allocationStrategy = .perCompute := by
    intro b hb
    obtain ⟨server, hserver⟩ := hbefore b hb
    by_contra hb'
    obtain ⟨field, hfield, -⟩ := Prog.bind_ok hserver
    cases hreq : b.requiredCount with
    | none =>
      rw [storageField, if_neg hb', hreq, List.map_eq_nil_iff.mp hnil] at hfield
      cases hfield
    | some count' =>
      have hpos := requiredCount_pos (hcounts b (List.mem_append_left _ hb)) hreq
      rw [storageField_counted hb' hreq hpos, place_loops hnil fuel hpos] at hfield
      cases hfield
  intro hfirst
  have hfind : ((before ++ allocSet :: after).find? fun a => a.allocationStrategy ≠ .perCompute) = some allocSet := by
    rw [List.find?_eq_some_iff_append]
    exact ⟨by simpa using hnot, before, after, rfl, fun b hb => by simpa using hper b hb⟩
  rw [hfirst allocSet hfind] at hrequired
  cases hrequired

theorem not_ends (hcounts : ∀ a ∈ allocSets, a.CountPositive) (hnil : nodesPerNnf.keys = [])
    (hfirst : ¬ FirstUncounted allocSets) (computeNodeCount minAllocSize : Nat) :
    ¬ Ends allocSets nodesPerNnf computeNodeCount minAllocSize := by
  simp only [FirstUncounted, not_forall] at hfirst
  obtain ⟨allocSet, hfind, hsome⟩ := hfirst
  obtain ⟨count, hrequired⟩ := Option.ne_none_iff_exists'.mp hsome
  obtain ⟨hnot, before, after, rfl, hbefore⟩ := List.find?_eq_some_iff_append.mp hfind
  have hper : ∀ b ∈ before, b.allocationStrategy = .perCompute := fun b hb => by simpa using hbefore b hb
  have hpos := requiredCount_pos (hcounts allocSet (by simp)) hrequired
  rintro ⟨rounds, hends⟩
  refine hends rounds le_rfl (Prog.mapM_error.mpr ⟨before, allocSet, after, rfl, fun b hb => ?_, ?_⟩)
  · rw [serverAllocSet, storageField, if_pos (hper b hb)]
    exact ⟨_, rfl⟩
  · rw [serverAllocSet_error, storageField_counted (by simpa using hnot) hrequired hpos, place_loops hnil rounds hpos]
    rfl

theorem ends (hcounts : ∀ a ∈ allocSets, a.CountPositive)
    (h : nodesPerNnf.keys ≠ [] ∨ FirstUncounted allocSets) (computeNodeCount minAllocSize : Nat) :
    Ends allocSets nodesPerNnf computeNodeCount minAllocSize := by
  refine ⟨(allocSets.map fun a => a.requiredCount.getD 0).sum, fun fuel hfuel hloops => ?_⟩
  obtain ⟨before, allocSet, after, rfl, hbefore, hloops⟩ := Prog.mapM_error.mp hloops
  have hle : allocSet.requiredCount.getD 0 ≤ fuel :=
    (List.single_le_sum (fun _ _ => Nat.zero_le _) _ (List.mem_map_of_mem (f := fun a => a.requiredCount.getD 0)
      (by simp : allocSet ∈ before ++ allocSet :: after))).trans hfuel
  refine serverAllocSet_ends (hcounts allocSet (by simp)) ?_ computeNodeCount minAllocSize hle hloops
  by_cases hne : nodesPerNnf.keys = []
  · right
    by_contra hsome
    obtain ⟨count, hrequired⟩ := Option.ne_none_iff_exists'.mp hsome
    have hnot : allocSet.allocationStrategy ≠ .perCompute := by
      intro hper
      rw [serverAllocSet, storageField, if_pos hper] at hloops
      cases hloops
    have hreaches : Reaches (before ++ allocSet :: after) nodesPerNnf computeNodeCount minAllocSize count :=
      ⟨fuel, before, allocSet, after, rfl, hbefore, hnot, hrequired⟩
    exact reaches_first hcounts hne hreaches (h.resolve_left fun h => h hne)
  · exact .inl hne

/-- The rabbits of a job are those of the hosts in R that are no rabbits. -/
theorem nodesPerNnf_keys {layout : Rabbit.Layout} {hosts : List String} {computeNodeCount : Nat}
    (h : Rabbit.nodesPerNnf layout hosts (.empty, 0) = some (nodesPerNnf, computeNodeCount)) :
    nodesPerNnf.keys ≠ [] ↔ ∃ host ∈ hosts, layout.rabbitsToHostlists.contains host = false := by
  have hspec := Rabbit.nodesPerNnf_spec layout hosts (.empty, 0)
  rw [h] at hspec
  obtain ⟨hknown, hkeys⟩ := hspec
  constructor
  · intro hne
    obtain ⟨rabbit, hrabbit⟩ := List.exists_mem_of_ne_nil _ hne
    obtain ⟨host, hhost, hnot, -⟩ := ((hkeys rabbit).mp hrabbit).resolve_left (by simp)
    exact ⟨host, hhost, hnot⟩
  · rintro ⟨host, hhost, hnot⟩
    obtain ⟨rabbit, hrabbit⟩ := hknown host hhost hnot
    exact List.ne_nil_of_mem ((hkeys rabbit).mpr (.inr ⟨host, hhost, hnot, hrabbit⟩))

/-- **Placement ends** and counts down in every round exactly when some host in R is no rabbit,
or no count is reached. -/
theorem placement_ends_iff {layout : Rabbit.Layout} {hosts : List String} {computeNodeCount : Nat}
    (hnodes : Rabbit.nodesPerNnf layout hosts (.empty, 0) = some (nodesPerNnf, computeNodeCount))
    (hcounts : ∀ a ∈ allocSets, a.CountPositive) (minAllocSize : Nat) :
    (Ends allocSets nodesPerNnf computeNodeCount minAllocSize ∧
        Decreases allocSets nodesPerNnf computeNodeCount minAllocSize) ↔
      (∃ host ∈ hosts, layout.rabbitsToHostlists.contains host = false) ∨ FirstUncounted allocSets := by
  rw [← nodesPerNnf_keys hnodes]
  constructor
  · rintro ⟨hends, -⟩
    by_contra hnot
    obtain ⟨hnil, hfirst⟩ := not_or.mp hnot
    exact not_ends hcounts (not_not.mp hnil) hfirst computeNodeCount minAllocSize hends
  · intro h
    refine ⟨ends hcounts h computeNodeCount minAllocSize, fun count hreaches placed _ hpos => ?_⟩
    refine placed_decreases (fun hnil => ?_) hpos
    exact reaches_first hcounts hnil hreaches (h.resolve_left fun h => h hnil)

/-- The allocation of a Lustre management target. -/
def mgts : List AllocSet := [⟨.mgt, .singleServer, gib, none⟩]

theorem mgts_counted : ∀ a ∈ mgts, a.CountPositive := by
  intro a ha count hcount
  obtain rfl := List.mem_singleton.mp ha
  cases hcount

theorem mgts_not_first : ¬ FirstUncounted mgts := fun h => by cases h _ rfl

theorem oneRabbit_nodes : Rabbit.nodesPerNnf Rabbit.oneRabbit ["rabbit1", "node1"] (.empty, 0) =
    some (Dict.empty.set "rabbit1" 1, 1) := rfl

/-- A job with a rabbit and its compute has its management target placed. -/
theorem oneCompute_placed :
    (Ends mgts (Dict.empty.set "rabbit1" 1) 1 0 ∧ Decreases mgts (Dict.empty.set "rabbit1" 1) 1 0) ↔
      (∃ host ∈ ["rabbit1", "node1"], Rabbit.oneRabbit.rabbitsToHostlists.contains host = false) ∨
        FirstUncounted mgts :=
  placement_ends_iff oneRabbit_nodes mgts_counted 0

/-- Without a compute in R the placement of a management target does not end. -/
theorem onlyRabbit_not_placed :
    Rabbit.nodesPerNnf Rabbit.oneRabbit ["rabbit1"] (.empty, 0) = some (.empty, 0) ∧
      (∀ a ∈ mgts, a.CountPositive) ∧ ¬ (Ends mgts .empty 0 0 ∧ Decreases mgts .empty 0 0) :=
  ⟨rfl, mgts_counted, fun h => not_ends mgts_counted rfl mgts_not_first 0 0 h.1⟩

end FluxCoral2.Breakdown
