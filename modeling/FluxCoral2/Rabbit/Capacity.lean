import FluxCoral2.Rabbit.Jobspec

/-! What a list of allocations asks for (`directivebreakdown.py`).

Every allocation adds to the amounts of its type, which are compared with the maximums, and
to the ssds of each node, whichever modifier applies it. It raises an exception where its
strategy is not that of its label or a quotient is too large for a double; `applyAll_usable`
says what is added otherwise, and `applyAll_error` that nothing else raises. -/
namespace FluxCoral2.Breakdown
open Library

/-! ### Amounts -/

def requested (minSize : Nat) (t : Label) (allocations : List AllocSet) : Nat :=
  ((allocations.filter fun a => a.label = t).map (AllocSet.capacityGb .double minSize)).sum

/-- The amount that is kept for a type; OSTs are what is kept for Lustre. -/
def ResourceLimits.amount (limits : ResourceLimits) : Label → Nat
  | .xfs => limits.xfs
  | .gfs2 => limits.gfs2
  | .raw => limits.raw
  | .ost => limits.lustre
  | _ => 0

def counted : List Label := [.xfs, .gfs2, .raw, .ost]

theorem amount_increment {limits limits' : ResourceLimits} {attr t : Label} {capacity : Nat}
    (h : limits.increment attr capacity = .ok limits') (ht : t ∈ counted) :
    limits'.amount t = limits.amount t + if attr = t then capacity else 0 := by
  unfold ResourceLimits.increment at h
  simp only [counted, List.mem_cons, List.not_mem_nil, or_false] at ht
  rcases ht with rfl | rfl | rfl | rfl <;> cases attr <;> cases h <;> simp [ResourceLimits.amount]

theorem requested_cons (minSize : Nat) (t : Label) (a : AllocSet) (rest : List AllocSet) :
    requested minSize t (a :: rest) =
      (if a.label = t then a.capacityGb .double minSize else 0) + requested minSize t rest := by
  by_cases h : a.label = t <;> simp [requested, h]

/-! ### Maximums -/

/-- The maximum of a type that is requested for each node. -/
def Maximums.perCompute (maximums : Maximums) : Label → Option Nat
  | .xfs => maximums.xfs
  | .gfs2 => maximums.gfs2
  | .raw => maximums.raw
  | _ => none

def OverPerCompute (maximums : Maximums) (amount : Label → Nat) : Prop :=
  ∃ t ∈ perComputeTypes, ∃ allowable, maximums.perCompute t = some allowable ∧ allowable < amount t

theorem overPerCompute_iff (maximums : Maximums) (amount : Label → Nat) :
    OverPerCompute maximums amount ↔
      (∃ allowable, maximums.xfs = some allowable ∧ allowable < amount .xfs) ∨
      (∃ allowable, maximums.gfs2 = some allowable ∧ allowable < amount .gfs2) ∨
      ∃ allowable, maximums.raw = some allowable ∧ allowable < amount .raw := by
  simp [OverPerCompute, perComputeTypes, Maximums.perCompute]

/-- Only the amounts of the three types matter. -/
theorem overPerCompute_congr {maximums : Maximums} {amount amount' : Label → Nat}
    (h : ∀ t ∈ counted, amount t = amount' t) : OverPerCompute maximums amount ↔ OverPerCompute maximums amount' := by
  simp only [overPerCompute_iff, h .xfs (by decide), h .gfs2 (by decide), h .raw (by decide)]

/-- A check passes, or the amount is above a maximum that is set. -/
theorem checkRequested_cases (attr : String) (amount : Nat) (maximum : Option Nat) :
    (checkRequested attr amount maximum = .ok () ∧ ¬ ∃ allowable, maximum = some allowable ∧ allowable < amount) ∨
      ∃ message, checkRequested attr amount maximum = .error (.valueError message) ∧
        ∃ allowable, maximum = some allowable ∧ allowable < amount := by
  cases maximum with
  | none => exact .inl ⟨rfl, by simp⟩
  | some allowable =>
    by_cases h : allowable < amount
    · exact .inr ⟨_, if_pos h, allowable, rfl, h⟩
    · refine .inl ⟨if_neg h, ?_⟩
      rintro ⟨_, hsome, hlt⟩
      obtain rfl := Option.some.inj hsome
      exact h hlt

/-- An amount is above its maximum, that of Lustre rounded down for each node. -/
def ResourceLimits.Exceed (limits : ResourceLimits) (maximums : Maximums) (nodecount : Nat) : Prop :=
  OverPerCompute maximums limits.amount ∨
    ∃ allowable, maximums.lustre = some allowable ∧ allowable < limits.lustre / nodecount

/-- `validate` raises a ValueError for the first amount that is above its maximum. -/
theorem validate_cases (limits : ResourceLimits) (maximums : Maximums) {nodecount : Nat} (hn : 0 < nodecount) :
    (limits.validate maximums nodecount = .ok () ∧ ¬ limits.Exceed maximums nodecount) ∨
      ∃ message, limits.validate maximums nodecount = .error (.valueError message) ∧
        limits.Exceed maximums nodecount := by
  rw [ResourceLimits.Exceed, overPerCompute_iff, ResourceLimits.validate, if_neg (Nat.pos_iff_ne_zero.mp hn)]
  show (_ ∧ ¬ (((∃ allowable, _ ∧ allowable < limits.xfs) ∨ (∃ allowable, _ ∧ allowable < limits.gfs2) ∨
    ∃ allowable, _ ∧ allowable < limits.raw) ∨ _)) ∨ _
  rcases checkRequested_cases "xfs" limits.xfs maximums.xfs with ⟨hxfs, hnot⟩ | ⟨message, hxfs, hover⟩
  · rcases checkRequested_cases "gfs2" limits.gfs2 maximums.gfs2 with ⟨hgfs2, hnot'⟩ | ⟨message, hgfs2, hover⟩
    · rcases checkRequested_cases "raw" limits.raw maximums.raw with ⟨hraw, hnot''⟩ | ⟨message, hraw, hover⟩
      · rw [hxfs, hgfs2, hraw, or_iff_right hnot, or_iff_right hnot', or_iff_right hnot'']
        rcases checkRequested_cases "lustre" (limits.lustre / nodecount) maximums.lustre with
          ⟨hlustre, hnot⟩ | ⟨message, hlustre, hover⟩
        · exact .inl ⟨hlustre, hnot⟩
        · exact .inr ⟨message, hlustre, .inr hover⟩
      · rw [hxfs, hgfs2, hraw]
        exact .inr ⟨message, rfl, .inl (.inr (.inr hover))⟩
    · rw [hxfs, hgfs2]
      exact .inr ⟨message, rfl, .inl (.inr (.inl hover))⟩
  · rw [hxfs]
    exact .inr ⟨message, rfl, .inl (.inl hover)⟩

/-! ### One allocation -/

/-- The strategy is that of the label, and the quotients are doubles. -/
structure AllocSet.Usable (minSize nodecount : Nat) (a : AllocSet) : Prop where
  strategy : checkStrategy a = .ok ()
  capacity : Division.double.overflows a.minimumCapacity gib = false
  share : a.label ∉ perComputeTypes → Division.double.overflows (a.capacityGb .double minSize) nodecount = false

/-- What an allocation adds to the ssds of a node. -/
def AllocSet.perNode (minSize nodecount : Nat) (a : AllocSet) : Nat :=
  if a.label ∈ perComputeTypes then a.capacityGb .double minSize
  else Division.double.quotient (a.capacityGb .double minSize) nodecount

/-- What it adds is not rounded to zero. -/
def AllocSet.AsksSsd (minSize nodecount : Nat) (a : AllocSet) : Prop :=
  if a.label ∈ perComputeTypes then 0 < a.capacityGb .double minSize
  else Binary64.reach nodecount 0 < a.capacityGb .double minSize

theorem perNode_pos_iff (minSize : Nat) {nodecount : Nat} (hpos : 0 < nodecount) (a : AllocSet) :
    0 < a.perNode minSize nodecount ↔ a.AsksSsd minSize nodecount := by
  unfold AllocSet.perNode AllocSet.AsksSsd
  split
  · exact Iff.rfl
  · rw [← Nat.not_le, Division.quotient, Binary64.ceilQuotient_le_iff hpos, Nat.not_le]

theorem increment_valid {a : AllocSet} (h : checkStrategy a = .ok ()) (limits : ResourceLimits) (capacity : Nat) :
    ∃ limits', limits.increment a.label capacity = .ok limits' := by
  obtain ⟨expected, hexpected, -⟩ := Prog.bind_ok h
  cases hlabel : a.label with
  | other name =>
    rw [hlabel] at hexpected
    cases hexpected
  | _ => exact ⟨_, rfl⟩

/-- The capacity of a usable allocation depends on nothing that has been applied before. -/
theorem getCapacityPerNode_usable {minSize nodecount : Nat} (hpos : 0 < nodecount) {a : AllocSet}
    (ha : a.Usable minSize nodecount) (limits : ResourceLimits) :
    ∃ limits', limits.increment a.label (a.capacityGb .double minSize) = .ok limits' ∧
      ∀ ssdCount, getCapacityPerNode .double ⟨minSize, ssdCount, limits, nodecount⟩ a =
        .ok (a.perNode minSize nodecount, ⟨minSize, ssdCount, limits', nodecount⟩) := by
  obtain ⟨limits', hlimits⟩ := increment_valid ha.strategy limits (a.capacityGb .double minSize)
  refine ⟨limits', hlimits, fun ssdCount => ?_⟩
  unfold getCapacityPerNode AllocSet.perNode
  rw [if_neg (by rw [ha.capacity]; exact Bool.false_ne_true), ha.strategy]
  dsimp only
  rw [hlimits]
  show (if a.label ∈ perComputeTypes then _ else _) = _
  split
  · rfl
  · rename_i hlabel
    rw [ceilOfQuotient, if_neg (Nat.pos_iff_ne_zero.mp hpos),
      if_neg (by rw [ha.share hlabel]; exact Bool.false_ne_true)]
    rfl

/-- An allocation that is not usable raises, and with a valid strategy that the quotient is too large. -/
theorem getCapacityPerNode_error {minSize nodecount : Nat} (hpos : 0 < nodecount) {a : AllocSet}
    (ha : ¬ a.Usable minSize nodecount) (limits : ResourceLimits) (ssdCount : Nat) :
    ∃ e, getCapacityPerNode .double ⟨minSize, ssdCount, limits, nodecount⟩ a = .error e ∧
      (checkStrategy a = .ok () → e = .overflowError) := by
  unfold getCapacityPerNode
  by_cases hcapacity : Division.double.overflows a.minimumCapacity gib = true
  · rw [if_pos hcapacity]
    exact ⟨_, rfl, fun _ => rfl⟩
  rw [if_neg hcapacity]
  cases hstrategy : checkStrategy a with
  | error e => exact ⟨e, rfl, nofun⟩
  | ok =>
    obtain ⟨limits', hlimits⟩ := increment_valid hstrategy limits (a.capacityGb .double minSize)
    dsimp only
    rw [hlimits]
    show ∃ e, (if a.label ∈ perComputeTypes then _ else _) = _ ∧ _
    have hshare : a.label ∉ perComputeTypes ∧
        Division.double.overflows (a.capacityGb .double minSize) nodecount = true := by
      by_contra hnot
      refine ha ⟨hstrategy, eq_false_of_ne_true hcapacity, fun hlabel => ?_⟩
      exact eq_false_of_ne_true fun hover => hnot ⟨hlabel, hover⟩
    rw [if_neg hshare.1, ceilOfQuotient, if_neg (Nat.pos_iff_ne_zero.mp hpos), if_pos hshare.2]
    exact ⟨_, rfl, fun _ => rfl⟩

/-! ### All allocations -/

/-- The nodes that the ssds of an entry are for. -/
def Modifier.entryNodes : Modifier → Nat
  | .node _ => 1
  | .chassis _ nodesPerChassis => nodesPerChassis

/-- A modifier with other limits, and ssds for each of its nodes. -/
def Modifier.added (limits : ResourceLimits) (ssds : Nat) : Modifier → Modifier
  | .node m => .node ⟨m.minSize, m.ssdCount + ssds, limits, m.nodecount⟩
  | .chassis m nodesPerChassis =>
    .chassis ⟨m.minSize, m.ssdCount + ssds * nodesPerChassis, limits, m.nodecount⟩ nodesPerChassis

theorem base_added (limits : ResourceLimits) (ssds : Nat) (m : Modifier) :
    (m.added limits ssds).base =
      ⟨m.base.minSize, m.base.ssdCount + ssds * m.entryNodes, limits, m.base.nodecount⟩ := by
  cases m with
  | node m => rw [Modifier.entryNodes, Nat.mul_one]; rfl
  | chassis m nodesPerChassis => rfl

theorem added_added (limits limits' : ResourceLimits) (ssds ssds' : Nat) (m : Modifier) :
    (m.added limits ssds).added limits' ssds' = m.added limits' (ssds + ssds') := by
  cases m with
  | node m => simp only [Modifier.added, Nat.add_assoc]
  | chassis m nodesPerChassis => simp only [Modifier.added, Nat.add_assoc, Nat.add_mul]

/-- The modifiers that have the same limits, minimum size and nodes. -/
structure Modifier.Like (minSize nodecount : Nat) (limits : ResourceLimits) (m : Modifier) : Prop where
  minSize_eq : m.base.minSize = minSize
  nodecount_eq : m.base.nodecount = nodecount
  limits_eq : m.base.limits = limits

theorem Modifier.Like.added {minSize nodecount : Nat} {limits : ResourceLimits} {m : Modifier}
    (h : m.Like minSize nodecount limits) (limits' : ResourceLimits) (ssds : Nat) :
    (m.added limits' ssds).Like minSize nodecount limits' := by
  refine ⟨?_, ?_, ?_⟩ <;> rw [base_added]
  · exact h.minSize_eq
  · exact h.nodecount_eq

section All
variable {minSize nodecount : Nat}

theorem applyAllocation_usable (hpos : 0 < nodecount) {a : AllocSet} (ha : a.Usable minSize nodecount)
    (limits : ResourceLimits) : ∃ limits', limits.increment a.label (a.capacityGb .double minSize) = .ok limits' ∧
      ∀ m : Modifier, m.Like minSize nodecount limits →
        m.applyAllocation a = .ok (m.added limits' (a.perNode minSize nodecount)) := by
  obtain ⟨limits', hlimits, h⟩ := getCapacityPerNode_usable hpos ha limits
  refine ⟨limits', hlimits, ?_⟩
  rintro m ⟨rfl, rfl, rfl⟩
  cases m with
  | node m =>
    have hcapacity : getCapacityPerNode .double m a = _ := h m.ssdCount
    rw [Modifier.applyAllocation, applyAllocation, hcapacity]
    rfl
  | chassis m nodesPerChassis =>
    have hcapacity : getCapacityPerNode .double m a = _ := h m.ssdCount
    rw [Modifier.applyAllocation, hcapacity]
    rfl

theorem applyAllocation_error (hpos : 0 < nodecount) {a : AllocSet} (ha : ¬ a.Usable minSize nodecount)
    {limits : ResourceLimits} {m : Modifier} (hm : m.Like minSize nodecount limits) :
    ∃ e, m.applyAllocation a = .error e ∧ (checkStrategy a = .ok () → e = .overflowError) := by
  obtain ⟨rfl, rfl, rfl⟩ := hm
  obtain ⟨e, he, hover⟩ := getCapacityPerNode_error hpos ha m.base.limits m.base.ssdCount
  refine ⟨e, ?_, hover⟩
  cases m with
  | node m =>
    have hcapacity : getCapacityPerNode .double m a = .error e := he
    rw [Modifier.applyAllocation, applyAllocation, hcapacity]
    rfl
  | chassis m nodesPerChassis =>
    have hcapacity : getCapacityPerNode .double m a = .error e := he
    rw [Modifier.applyAllocation, hcapacity]
    rfl

/-- Usable allocations add up, in both modifiers alike. -/
theorem applyAll_usable (hpos : 0 < nodecount) {allocations : List AllocSet}
    (h : ∀ a ∈ allocations, a.Usable minSize nodecount) (limits : ResourceLimits) :
    ∃ limits', (∀ t ∈ counted, limits'.amount t = limits.amount t + requested minSize t allocations) ∧
      ∀ m : Modifier, m.Like minSize nodecount limits →
        m.applyAll allocations = .ok (m.added limits' (allocations.map (AllocSet.perNode minSize nodecount)).sum) := by
  induction allocations generalizing limits with
  | nil =>
    refine ⟨limits, fun t _ => rfl, fun m hm => ?_⟩
    have hsame : m.added limits 0 = m := by
      rw [← hm.limits_eq]
      cases m <;> simp [Modifier.added, Modifier.base]
    exact congrArg Except.ok hsame.symm
  | cons a rest ih =>
    obtain ⟨next, hnext, hfirst⟩ := applyAllocation_usable hpos (h a List.mem_cons_self) limits
    obtain ⟨last, hamounts, hrest⟩ := ih (fun b hb => h b (List.mem_cons_of_mem a hb)) next
    refine ⟨last, fun t ht => ?_, fun m hm => ?_⟩
    · rw [hamounts t ht, amount_increment hnext ht, requested_cons, Nat.add_assoc]
    · rw [Modifier.applyAll, List.foldlM_cons, hfirst m hm]
      refine (hrest _ (hm.added next _)).trans ?_
      rw [added_added, List.map_cons, List.sum_cons]

/-- One allocation that is not usable is enough. -/
theorem applyAll_error (hpos : 0 < nodecount) {allocations : List AllocSet}
    (h : ¬ ∀ a ∈ allocations, a.Usable minSize nodecount) {limits : ResourceLimits} {m : Modifier}
    (hm : m.Like minSize nodecount limits) : ∃ e, m.applyAll allocations = .error e ∧
      ((∀ a ∈ allocations, checkStrategy a = .ok ()) → e = .overflowError) := by
  induction allocations generalizing limits m with
  | nil => exact absurd (fun a ha => absurd ha List.not_mem_nil) h
  | cons a rest ih =>
    rw [Modifier.applyAll, List.foldlM_cons]
    by_cases ha : a.Usable minSize nodecount
    · obtain ⟨next, -, hfirst⟩ := applyAllocation_usable hpos ha limits
      rw [hfirst m hm]
      have hrest : ¬ ∀ b ∈ rest, b.Usable minSize nodecount := fun hrest =>
        h fun b hb => (List.mem_cons.mp hb).elim (fun heq => heq ▸ ha) (hrest b)
      obtain ⟨e, he, hover⟩ := ih hrest (hm.added next _)
      exact ⟨e, he, fun hvalid => hover fun b hb => hvalid b (List.mem_cons_of_mem a hb)⟩
    · obtain ⟨e, he, hover⟩ := applyAllocation_error hpos ha hm
      rw [he]
      exact ⟨e, rfl, fun hvalid => hover (hvalid a List.mem_cons_self)⟩

end All

end FluxCoral2.Breakdown
