import Mathlib.Algebra.Order.Floor.Div
import Mathlib.Data.List.Sort
import Mathlib.Tactic.Ring
import FluxCoral2.Library.Binary64
import FluxCoral2.Library.Dict
import FluxCoral2.Library.Prog

/-! Storage requests (`directivebreakdown.py`).

A DirectiveBreakdown says how much storage a job needs, one allocation set for each
part of a file system. The service reads it twice: `apply_allocation` turns an
allocation set into ssd for each compute node in the jobspec, which the scheduler
reserves, and `build_allocation_sets` into what each rabbit of the job allocates. A `/`
is read as exact or as the double that it is (`Division`): of the allocations as exact, of
the jobspec either way.

The minimum size is enforced on each allocation, but reserved once for a file system
that is split across rabbits, so what is allocated can exceed what was reserved:
`within_iff_minimumFits`. -/
namespace FluxCoral2.Breakdown
open Library

inductive AllocationStrategy
  | perCompute
  | singleServer
  | acrossServers
  | other (value : String)
  deriving DecidableEq

def AllocationStrategy.value : AllocationStrategy → String
  | .perCompute => "AllocatePerCompute"
  | .singleServer => "AllocateSingleServer"
  | .acrossServers => "AllocateAcrossServers"
  | .other value => value

inductive Label
  | xfs
  | gfs2
  | raw
  | ost
  | mdt
  | mgt
  | mgtmdt
  | other (name : String)
  deriving DecidableEq

def Label.name : Label → String
  | .xfs => "xfs"
  | .gfs2 => "gfs2"
  | .raw => "raw"
  | .ost => "ost"
  | .mdt => "mdt"
  | .mgt => "mgt"
  | .mgtmdt => "mgtmdt"
  | .other name => name

def perComputeTypes : List Label := [.xfs, .gfs2, .raw]
def lustreTypes : List Label := [.ost, .mdt, .mgt, .mgtmdt]

/-- An allocation set of a breakdown, with the `count` of its constraints. -/
structure AllocSet where
  label : Label
  allocationStrategy : AllocationStrategy
  minimumCapacity : Nat
  count : Option Nat

/-- How the code fails; `loops` is for a loop that has not ended in the rounds given. -/
inductive Failure
  | valueError (message : String)
  | keyError (key : String)
  | attributeError (attr : String)
  | typeError
  | zeroDivisionError
  | overflowError
  | loops
  deriving DecidableEq

/-- 1024**3. -/
def gib : Nat := 1024 ^ 3

theorem gib_pos : 0 < gib := by decide

/-! ### Allocations on rabbits -/

/-- An entry of a Servers resource's `storage`. -/
structure Storage where
  allocationCount : Nat
  name : String
  deriving DecidableEq

structure ServerAllocSet where
  allocationSize : Nat
  label : Label
  storage : List Storage
  deriving DecidableEq

/-- `collections.Counter(nodes_per_nnf).most_common(count)`, the names only. -/
def mostCommon (nodesPerNnf : Dict String Nat) (count : Nat) : List String :=
  ((nodesPerNnf.entries.insertionSort fun a b => b.2 ≤ a.2).take count).map Prod.fst

/-- The inner loop of the placement, on `counts_per_rabbit` and `count`. -/
def placeRound : List String → Dict String Nat × Nat → Dict String Nat × Nat
  | [], placed => placed
  | name :: rest, (countsPerRabbit, count) =>
    let placed := (countsPerRabbit.set name ((countsPerRabbit.get? name).getD 0 + 1), count - 1)
    if placed.2 = 0 then placed else placeRound rest placed

/-- The outer loop, for at most `fuel` rounds. -/
def place (nodesPerNnf : Dict String Nat) : Nat → Dict String Nat × Nat → Except Failure (Dict String Nat)
  | fuel, (countsPerRabbit, count) =>
    if count = 0 then .ok countsPerRabbit
    else match fuel with
      | 0 => .error .loops
      | fuel + 1 => place nodesPerNnf fuel (placeRound (mostCommon nodesPerNnf count) (countsPerRabbit, count))

/-- `functools.reduce(math.gcd, ...)`. -/
def reduceGcd : List Nat → Except Failure Nat
  | [] => .error .typeError
  | count :: rest => .ok (rest.foldl Nat.gcd count)

/-- How `/` is read. -/
inductive Division
  | exact
  | double
  deriving DecidableEq

def Division.quotient : Division → Nat → Nat → Nat
  | .exact, n, d => n ⌈/⌉ d
  | .double, n, d => Binary64.ceilQuotient n d

/-- The quotient is no double. -/
def Division.overflows : Division → Nat → Nat → Bool
  | .exact, _, _ => false
  | .double, n, d => Binary64.overflows n d

/-- `math.ceil(n / d)`. -/
def ceilOfQuotient (division : Division) (n d : Nat) : Except Failure Nat :=
  if d = 0 then .error .zeroDivisionError
  else if division.overflows n d then .error .overflowError
  else .ok (division.quotient n d)

/-- The number of allocations an allocation set asks for, if it does. -/
def AllocSet.requiredCount (allocSet : AllocSet) : Option Nat :=
  if allocSet.allocationStrategy = .singleServer then some 1 else allocSet.count

/-- The size and the places of the allocations, before the minimum is enforced. -/
def storageField (fuel : Nat) (allocSet : AllocSet) (nodesPerNnf : Dict String Nat)
    (computeNodeCount : Nat) : Except Failure (Nat × List Storage) :=
  if allocSet.allocationStrategy = .perCompute then
    .ok (allocSet.minimumCapacity, nodesPerNnf.entries.map fun e => ⟨e.2, e.1⟩)
  else
    match allocSet.requiredCount with
    | some count => do
      let allocationSize ← ceilOfQuotient .exact allocSet.minimumCapacity count
      let countsPerRabbit ← place nodesPerNnf fuel (.empty, count)
      pure (allocationSize, countsPerRabbit.entries.map fun e => ⟨e.2, e.1⟩)
    | none => do
      let nodecountGcd ← reduceGcd (nodesPerNnf.entries.map Prod.snd)
      let allocationSize ← ceilOfQuotient .exact (nodecountGcd * allocSet.minimumCapacity) computeNodeCount
      pure (allocationSize, nodesPerNnf.entries.map fun e => ⟨e.2 / nodecountGcd, e.1⟩)

/-- One round of `build_allocation_sets`. -/
def serverAllocSet (fuel : Nat) (nodesPerNnf : Dict String Nat) (computeNodeCount minAllocSize : Nat)
    (allocSet : AllocSet) : Except Failure ServerAllocSet := do
  let (allocationSize, storage) ← storageField fuel allocSet nodesPerNnf computeNodeCount
  pure ⟨max allocationSize (minAllocSize * gib), allocSet.label, storage⟩

/-- `build_allocation_sets`, with at most `fuel` rounds for a placement. -/
def buildAllocationSets (fuel : Nat) (breakdownAllocSets : List AllocSet)
    (nodesPerNnf : Dict String Nat) (computeNodeCount minAllocSize : Nat) :
    Except Failure (List ServerAllocSet) :=
  breakdownAllocSets.mapM (serverAllocSet fuel nodesPerNnf computeNodeCount minAllocSize)

/-! ### Requests in the jobspec -/

/-- The amounts requested, of a `ResourceLimits` instance. -/
structure ResourceLimits where
  xfs : Nat
  gfs2 : Nat
  lustre : Nat
  raw : Nat
  deriving DecidableEq

/-- `ResourceLimits.increment`: of Lustre only the OSTs count. -/
def ResourceLimits.increment (limits : ResourceLimits) (attr : Label) (capacity : Nat) :
    Except Failure ResourceLimits :=
  match attr with
  | .ost => .ok {limits with lustre := limits.lustre + capacity}
  | .mdt | .mgt | .mgtmdt => .ok limits
  | .xfs => .ok {limits with xfs := limits.xfs + capacity}
  | .gfs2 => .ok {limits with gfs2 := limits.gfs2 + capacity}
  | .raw => .ok {limits with raw := limits.raw + capacity}
  | .other name => .error (.attributeError name)

/-- A `JobspecModifier`; `ssdCount` is the count of its `ssd_resources`. -/
structure JobspecModifier where
  minSize : Nat
  ssdCount : Nat
  limits : ResourceLimits
  nodecount : Nat

def expectedAllocStrats : Label → Except Failure AllocationStrategy
  | .xfs | .raw | .gfs2 => .ok .perCompute
  | .ost | .mdt | .mgtmdt => .ok .acrossServers
  | .mgt => .ok .singleServer
  | .other name => .error (.keyError name)

/-- An allocation set has the strategy that its label calls for. -/
def checkStrategy (allocation : AllocSet) : Except Failure Unit := do
  let expected ← expectedAllocStrats allocation.label
  if allocation.allocationStrategy = expected then pure ()
  else
    throw (.valueError (allocation.label.name ++ " allocationStrategy must be '" ++ expected.value ++
      "' but got '" ++ allocation.allocationStrategy.value ++ "'"))

/-- The GiB an allocation counts for. -/
def AllocSet.capacityGb (division : Division) (minSize : Nat) (allocation : AllocSet) : Nat :=
  max minSize (division.quotient allocation.minimumCapacity gib)

/-- `_get_capacity_per_node`. -/
def getCapacityPerNode (division : Division) (modifier : JobspecModifier) (allocation : AllocSet) :
    Except Failure (Nat × JobspecModifier) := do
  if division.overflows allocation.minimumCapacity gib then throw .overflowError
  let capacityGb := allocation.capacityGb division modifier.minSize
  checkStrategy allocation
  let limits ← modifier.limits.increment allocation.label capacityGb
  let modifier := {modifier with limits := limits}
  if allocation.label ∈ perComputeTypes then pure (capacityGb, modifier)
  else
    let capacityPerNode ← ceilOfQuotient division capacityGb modifier.nodecount
    pure (capacityPerNode, modifier)

/-- `NodeJobspecModifier`, for a top-level node entry with this count. -/
def nodeJobspecModifier (nodecount minSize : Nat) : JobspecModifier :=
  ⟨minSize, 0, ⟨0, 0, 0, 0⟩, nodecount⟩

/-- `NodeJobspecModifier.apply_allocation`. -/
def applyAllocation (division : Division) (modifier : JobspecModifier) (allocation : AllocSet) :
    Except Failure JobspecModifier := do
  let (capacity, modifier) ← getCapacityPerNode division modifier allocation
  pure {modifier with ssdCount := modifier.ssdCount + capacity}

/-! ### What is allocated and what was reserved -/

/-- The bytes an allocation set takes on a rabbit. -/
def ServerAllocSet.bytesOn (server : ServerAllocSet) (rabbit : String) : Nat :=
  ((server.storage.filter fun e => e.name = rabbit).map fun e =>
    server.allocationSize * e.allocationCount).sum

/-- Each rabbit gets at most what its computes reserved, `perNode` GiB each. -/
def Within (nodesPerNnf : Dict String Nat) (server : ServerAllocSet) (perNode : Nat) : Prop :=
  ∀ rabbit nodecount, nodesPerNnf.get? rabbit = some nodecount →
    server.bytesOn rabbit ≤ nodecount * (perNode * gib)

def nodecountGcd (nodesPerNnf : Dict String Nat) : Nat :=
  (nodesPerNnf.entries.map Prod.snd).foldl Nat.gcd 0

/-- The file system is large enough for the minimum on each share of `nodecountGcd` nodes. -/
def MinimumFits (minSize computeNodeCount nodecountGcd minimumCapacity : Nat) : Prop :=
  minSize ≤ nodecountGcd ∨ computeNodeCount * ((minSize - 1) / nodecountGcd) < minSize ∨
    computeNodeCount * ((minSize - 1) / nodecountGcd) * gib < minimumCapacity

/-- The part of a share that the capacity takes is reserved, whatever is rounded. -/
theorem capacity_fits {minSize nodes d capacity : Nat} (hnodes : 0 < nodes) :
    (d * capacity) ⌈/⌉ nodes ≤ d * ((max minSize (capacity ⌈/⌉ gib) ⌈/⌉ nodes) * gib) := by
  rw [ceilDiv_le_iff_le_mul hnodes]
  calc d * capacity
      ≤ d * (gib * (capacity ⌈/⌉ gib)) := by
        apply Nat.mul_le_mul_left
        exact (ceilDiv_le_iff_le_mul gib_pos).mp le_rfl
    _ ≤ d * (gib * (nodes * (max minSize (capacity ⌈/⌉ gib) ⌈/⌉ nodes))) := by
        apply Nat.mul_le_mul_left
        apply Nat.mul_le_mul_left
        exact (le_max_right _ _).trans ((ceilDiv_le_iff_le_mul hnodes).mp le_rfl)
    _ = nodes * (d * ((max minSize (capacity ⌈/⌉ gib) ⌈/⌉ nodes) * gib)) := by ring

/-- The minimum of a share is reserved exactly when the file system is large enough. -/
theorem minimum_fits_iff (minSize capacity : Nat) {nodes d : Nat} (hnodes : 0 < nodes) (hd : 0 < d) :
    minSize ≤ d * (max minSize (capacity ⌈/⌉ gib) ⌈/⌉ nodes) ↔
      MinimumFits minSize nodes d capacity := by
  have hround : ∀ k, k < max minSize (capacity ⌈/⌉ gib) ⌈/⌉ nodes ↔
      nodes * k < minSize ∨ nodes * k * gib < capacity := by
    intro k
    rw [← not_le, ceilDiv_le_iff_le_mul hnodes, max_le_iff, ceilDiv_le_iff_le_mul gib_pos,
      Nat.mul_comm gib]
    omega
  rw [MinimumFits, ← hround]
  cases minSize with
  | zero => simp
  | succ m =>
    rw [Nat.succ_le_iff, Nat.mul_comm, ← Nat.div_lt_iff_lt_mul hd, Nat.add_sub_cancel]
    constructor
    · exact .inr
    · rintro (hle | hlt)
      · rw [Nat.div_eq_of_lt hle, hround]
        exact .inl (by simp)
      · exact hlt

theorem foldl_gcd_dvd (values : List Nat) (d : Nat) :
    values.foldl Nat.gcd d ∣ d ∧ ∀ v ∈ values, values.foldl Nat.gcd d ∣ v := by
  induction values generalizing d with
  | nil => simp
  | cons value rest ih =>
    obtain ⟨hdvd, hrest⟩ := ih (Nat.gcd d value)
    rw [List.foldl_cons]
    refine ⟨hdvd.trans (Nat.gcd_dvd_left d value), fun v hv => ?_⟩
    rcases List.mem_cons.mp hv with rfl | hv
    · exact hdvd.trans (Nat.gcd_dvd_right d v)
    · exact hrest v hv

theorem nodecountGcd_dvd {nodesPerNnf : Dict String Nat} {rabbit : String} {nodecount : Nat}
    (h : nodesPerNnf.get? rabbit = some nodecount) : nodecountGcd nodesPerNnf ∣ nodecount :=
  (foldl_gcd_dvd _ 0).2 nodecount
    (List.mem_map_of_mem (f := Prod.snd) ((nodesPerNnf.get?_eq_some rabbit nodecount).mp h))

theorem reduceGcd_ok {values : List Nat} {d : Nat} (h : reduceGcd values = .ok d) :
    values ≠ [] ∧ d = values.foldl Nat.gcd 0 := by
  cases values with
  | nil => cases h
  | cons value rest =>
    refine ⟨List.cons_ne_nil _ _, (Except.ok.inj h).symm.trans ?_⟩
    rw [List.foldl_cons, Nat.gcd_zero_left]

theorem ceilOfQuotient_exact (n : Nat) {d : Nat} (hd : d ≠ 0) : ceilOfQuotient .exact n d = .ok (n ⌈/⌉ d) :=
  if_neg hd

theorem ceilOfQuotient_ok {division : Division} {n d q : Nat} (h : ceilOfQuotient division n d = .ok q) :
    0 < d ∧ q = division.quotient n d := by
  rw [ceilOfQuotient] at h
  split at h
  · cases h
  · split at h
    · cases h
    · exact ⟨by omega, (Except.ok.inj h).symm⟩

/-- Storage with an entry for each rabbit. -/
theorem bytesOn_map {nodesPerNnf : Dict String Nat} (allocationSize : Nat) (label : Label)
    (share : Nat → Nat) {rabbit : String} {nodecount : Nat}
    (h : nodesPerNnf.get? rabbit = some nodecount) :
    ServerAllocSet.bytesOn ⟨allocationSize, label, nodesPerNnf.entries.map fun e => ⟨share e.2, e.1⟩⟩
      rabbit = allocationSize * share nodecount := by
  have hone : (nodesPerNnf.entries.map fun e => (⟨share e.2, e.1⟩ : Storage)).filter
      (fun e => e.name = rabbit) = [⟨share nodecount, rabbit⟩] := by
    rw [List.filter_map]
    show (nodesPerNnf.entries.filter fun e => e.1 = rabbit).map _ = _
    rw [nodesPerNnf.filter_entries h]
    rfl
  rw [ServerAllocSet.bytesOn]
  dsimp only
  rw [hone]
  simp

theorem checkStrategy_ok {allocation : AllocSet} (h : checkStrategy allocation = .ok ()) :
    allocation.label ∈ perComputeTypes ↔ allocation.allocationStrategy = .perCompute := by
  obtain ⟨expected, hexpected, h⟩ := Prog.bind_ok h
  split at h
  · rename_i hstrategy
    rw [hstrategy]
    cases hlabel : allocation.label with
    | other name =>
      rw [hlabel] at hexpected
      cases hexpected
    | _ =>
      rw [hlabel] at hexpected
      obtain rfl := Except.ok.inj hexpected
      decide
  · cases h

/-- What an allocation set adds to the jobspec. -/
theorem applyAllocation_ok {modifier modifier' : JobspecModifier} {allocation : AllocSet}
    (h : applyAllocation .exact modifier allocation = .ok modifier') :
    (allocation.allocationStrategy = .perCompute ∧ modifier'.ssdCount = modifier.ssdCount +
        max modifier.minSize (allocation.minimumCapacity ⌈/⌉ gib)) ∨
      (allocation.allocationStrategy ≠ .perCompute ∧ 0 < modifier.nodecount ∧
        modifier'.ssdCount = modifier.ssdCount +
          max modifier.minSize (allocation.minimumCapacity ⌈/⌉ gib) ⌈/⌉ modifier.nodecount) := by
  obtain ⟨⟨capacity, next⟩, hcapacity, hnext⟩ := Prog.bind_ok h
  obtain rfl := Except.ok.inj hnext
  obtain ⟨⟨⟩, hcheck, hcapacity⟩ := Prog.bind_ok hcapacity
  obtain ⟨limits, _, hcapacity⟩ := Prog.bind_ok hcapacity
  have hiff := checkStrategy_ok hcheck
  dsimp only at hcapacity
  split at hcapacity
  · rename_i hlabel
    obtain ⟨rfl, rfl⟩ := Prod.mk.inj (Except.ok.inj hcapacity)
    exact .inl ⟨hiff.mp hlabel, rfl⟩
  · rename_i hlabel
    obtain ⟨perNode, hperNode, hcapacity⟩ := Prog.bind_ok hcapacity
    obtain ⟨rfl, rfl⟩ := Prod.mk.inj (Except.ok.inj hcapacity)
    obtain ⟨hpos, rfl⟩ := ceilOfQuotient_ok hperNode
    exact .inr ⟨fun hper => hlabel (hiff.mpr hper), hpos, rfl⟩

theorem requiredCount_across {allocSet : AllocSet} (h : allocSet.allocationStrategy = .acrossServers) :
    allocSet.requiredCount = allocSet.count := by
  rw [AllocSet.requiredCount, h, if_neg (by decide)]

/-- Without a count, every rabbit gets a share for each `nodecountGcd` of its computes. -/
theorem storageField_across {fuel : Nat} {allocSet : AllocSet} {nodesPerNnf : Dict String Nat}
    {computeNodeCount allocationSize : Nat} {storage : List Storage}
    (hnot : allocSet.allocationStrategy ≠ .perCompute) (hnone : allocSet.requiredCount = none)
    (h : storageField fuel allocSet nodesPerNnf computeNodeCount = .ok (allocationSize, storage)) :
    nodesPerNnf.entries ≠ [] ∧ 0 < computeNodeCount ∧
      allocationSize = (nodecountGcd nodesPerNnf * allocSet.minimumCapacity) ⌈/⌉ computeNodeCount ∧
      storage = nodesPerNnf.entries.map fun e => ⟨e.2 / nodecountGcd nodesPerNnf, e.1⟩ := by
  rw [storageField, if_neg hnot, hnone] at h
  obtain ⟨d, hd, h⟩ := Prog.bind_ok h
  obtain ⟨hne, rfl⟩ := reduceGcd_ok hd
  obtain ⟨size, hsize, h⟩ := Prog.bind_ok h
  obtain ⟨hpos, rfl⟩ := ceilOfQuotient_ok hsize
  obtain ⟨rfl, rfl⟩ := Prod.mk.inj (Except.ok.inj h)
  exact ⟨fun hnil => hne (by rw [hnil]; rfl), hpos, rfl, rfl⟩

theorem within_perCompute {nodesPerNnf : Dict String Nat} {minSize capacity : Nat} {label : Label} :
    Within nodesPerNnf ⟨max capacity (minSize * gib), label, nodesPerNnf.entries.map fun e => ⟨e.2, e.1⟩⟩
      (max minSize (capacity ⌈/⌉ gib)) := by
  intro rabbit nodecount hget
  have hbytes := bytesOn_map (max capacity (minSize * gib)) label id hget
  simp only [id_eq] at hbytes
  rw [hbytes, Nat.mul_comm]
  apply Nat.mul_le_mul_left
  apply max_le
  · calc capacity ≤ gib * (capacity ⌈/⌉ gib) := (ceilDiv_le_iff_le_mul gib_pos).mp le_rfl
      _ ≤ gib * max minSize (capacity ⌈/⌉ gib) := Nat.mul_le_mul_left _ (le_max_right _ _)
      _ = max minSize (capacity ⌈/⌉ gib) * gib := Nat.mul_comm _ _
  · exact Nat.mul_le_mul_right _ (le_max_left _ _)

/-- A rabbit takes its share as often as the share has been reserved. -/
theorem within_across_iff {nodesPerNnf : Dict String Nat} {allocationSize perNode : Nat} {label : Label}
    (hnodes : ∀ rabbit nodecount, nodesPerNnf.get? rabbit = some nodecount → 1 ≤ nodecount)
    (hne : nodesPerNnf.entries ≠ []) :
    Within nodesPerNnf ⟨allocationSize, label,
        nodesPerNnf.entries.map fun e => ⟨e.2 / nodecountGcd nodesPerNnf, e.1⟩⟩ perNode ↔
      allocationSize ≤ nodecountGcd nodesPerNnf * (perNode * gib) := by
  have hshare : ∀ rabbit nodecount, nodesPerNnf.get? rabbit = some nodecount →
      ∃ share, 0 < share ∧ nodecount / nodecountGcd nodesPerNnf = share ∧
        nodecount = nodecountGcd nodesPerNnf * share := by
    intro rabbit nodecount hget
    have heq := Nat.mul_div_cancel' (nodecountGcd_dvd hget)
    refine ⟨_, Nat.pos_of_ne_zero fun hzero => ?_, rfl, heq.symm⟩
    rw [hzero, Nat.mul_zero] at heq
    exact absurd (hnodes rabbit nodecount hget) (by omega)
  constructor
  · intro hwithin
    obtain ⟨⟨rabbit, nodecount⟩, hmem⟩ := List.exists_mem_of_ne_nil _ hne
    have hget := (nodesPerNnf.get?_eq_some rabbit nodecount).mpr hmem
    obtain ⟨share, hpos, hdiv, heq⟩ := hshare rabbit nodecount hget
    have hbytes := hwithin rabbit nodecount hget
    rw [bytesOn_map _ _ (fun n => n / nodecountGcd nodesPerNnf) hget, hdiv, heq,
      Nat.mul_right_comm] at hbytes
    exact Nat.le_of_mul_le_mul_right hbytes hpos
  · intro hsize rabbit nodecount hget
    obtain ⟨share, _, hdiv, heq⟩ := hshare rabbit nodecount hget
    rw [bytesOn_map _ _ (fun n => n / nodecountGcd nodesPerNnf) hget, hdiv, heq, Nat.mul_right_comm]
    exact Nat.mul_le_mul_right share hsize

theorem nodecountGcd_pos {nodesPerNnf : Dict String Nat}
    (hnodes : ∀ rabbit nodecount, nodesPerNnf.get? rabbit = some nodecount → 1 ≤ nodecount)
    (hne : nodesPerNnf.entries ≠ []) : 0 < nodecountGcd nodesPerNnf := by
  obtain ⟨⟨rabbit, nodecount⟩, hmem⟩ := List.exists_mem_of_ne_nil _ hne
  have hget := (nodesPerNnf.get?_eq_some rabbit nodecount).mpr hmem
  exact Nat.pos_of_dvd_of_pos (nodecountGcd_dvd hget) (hnodes rabbit nodecount hget)

/-- **Rabbits allocate what was reserved**: for an allocation per compute or across
servers, no rabbit gets more than its computes reserved exactly when the allocations are
per compute or the file system is large enough for the minimum on each share. -/
theorem within_iff_minimumFits {fuel computeNodeCount minSize i : Nat} {nodesPerNnf : Dict String Nat}
    {allocSets : List AllocSet} {allocSet : AllocSet} {servers : List ServerAllocSet}
    {server : ServerAllocSet} {modifier modifier' : JobspecModifier}
    (hnodes : ∀ rabbit nodecount, nodesPerNnf.get? rabbit = some nodecount → 1 ≤ nodecount)
    (hstrategy : allocSet.allocationStrategy = .perCompute ∨
      (allocSet.allocationStrategy = .acrossServers ∧ allocSet.count = none))
    (hservers : buildAllocationSets fuel allocSets nodesPerNnf computeNodeCount minSize = .ok servers)
    (hset : allocSets[i]? = some allocSet) (hserver : servers[i]? = some server)
    (hmin : modifier.minSize = minSize) (hcount : modifier.nodecount = computeNodeCount)
    (happly : applyAllocation .exact modifier allocSet = .ok modifier') :
    Within nodesPerNnf server (modifier'.ssdCount - modifier.ssdCount) ↔
      allocSet.allocationStrategy = .perCompute ∨
        MinimumFits minSize computeNodeCount (nodecountGcd nodesPerNnf) allocSet.minimumCapacity := by
  obtain ⟨⟨size, storage⟩, hfield, hok⟩ := Prog.bind_ok (Prog.mapM_ok hservers hset hserver)
  obtain rfl := Except.ok.inj hok
  rcases applyAllocation_ok happly with ⟨hper, hadded⟩ | ⟨hnot, hpos, hadded⟩
  · rw [storageField, if_pos hper] at hfield
    obtain ⟨rfl, rfl⟩ := Prod.mk.inj (Except.ok.inj hfield)
    rw [hadded, Nat.add_sub_cancel_left, hmin]
    exact ⟨fun _ => .inl hper, fun _ => within_perCompute⟩
  · obtain ⟨hacross, hnone⟩ := hstrategy.resolve_left hnot
    obtain ⟨hne, hnodecount, rfl, rfl⟩ :=
      storageField_across hnot ((requiredCount_across hacross).trans hnone) hfield
    rw [hadded, Nat.add_sub_cancel_left, hmin, hcount, within_across_iff hnodes hne, max_le_iff]
    have hfits := minimum_fits_iff minSize allocSet.minimumCapacity hnodecount
      (nodecountGcd_pos hnodes hne)
    constructor
    · rintro ⟨_, hle⟩
      rw [← Nat.mul_assoc] at hle
      exact .inr (hfits.mp (Nat.le_of_mul_le_mul_right hle gib_pos))
    · intro h
      refine ⟨capacity_fits hnodecount, ?_⟩
      rw [← Nat.mul_assoc]
      exact Nat.mul_le_mul_right gib (hfits.mpr (h.resolve_left hnot))

/-- Two rabbits, with one compute of the job each. -/
def twoRabbits : Dict String Nat := (Dict.empty.set "rabbit1" 1).set "rabbit2" 1

theorem twoRabbits_pos (rabbit : String) (nodecount : Nat)
    (h : twoRabbits.get? rabbit = some nodecount) : 1 ≤ nodecount := by
  have hmem : (rabbit, nodecount) ∈ [("rabbit1", 1), ("rabbit2", 1)] :=
    (twoRabbits.get?_eq_some rabbit nodecount).mp h
  simp only [List.mem_cons, Prod.mk.injEq, List.not_mem_nil, or_false] at hmem
  omega

/-- The OSTs of a Lustre file system of so many GiB. -/
def osts (size : Nat) : AllocSet := ⟨.ost, .acrossServers, size * gib, none⟩

/-- Each rabbit allocates 4 GiB and 2 were reserved on it. -/
theorem osts_one_not_within :
    buildAllocationSets 0 [osts 1] twoRabbits 2 4 =
        .ok [⟨4 * gib, .ost, [⟨1, "rabbit1"⟩, ⟨1, "rabbit2"⟩]⟩] ∧
      applyAllocation .exact (nodeJobspecModifier 2 4) (osts 1) = .ok ⟨4, 2, ⟨0, 0, 4, 0⟩, 2⟩ ∧
      ¬ Within twoRabbits ⟨4 * gib, .ost, [⟨1, "rabbit1"⟩, ⟨1, "rabbit2"⟩]⟩ 2 := by
  refine ⟨rfl, rfl, fun h => ?_⟩
  exact absurd (h "rabbit1" 1 (by decide)) (by decide)

theorem osts_eight_within :
    Within twoRabbits ⟨4 * gib, .ost, [⟨1, "rabbit1"⟩, ⟨1, "rabbit2"⟩]⟩ 4 := by
  have hservers : buildAllocationSets 0 [osts 8] twoRabbits 2 4 =
      .ok [⟨4 * gib, .ost, [⟨1, "rabbit1"⟩, ⟨1, "rabbit2"⟩]⟩] := rfl
  have hset : [osts 8][0]? = some (osts 8) := rfl
  have happly : applyAllocation .exact (nodeJobspecModifier 2 4) (osts 8) =
      .ok ⟨4, 4, ⟨0, 0, 8, 0⟩, 2⟩ := rfl
  exact (within_iff_minimumFits twoRabbits_pos (.inr ⟨rfl, rfl⟩) hservers hset rfl rfl rfl happly).mpr
    (.inr (.inr (.inr (by decide))))

end FluxCoral2.Breakdown
