import FluxCoral2.Rabbit.Capacity

/-! Requests for nodes and for chassis (`directivebreakdown.py`, `chassis.py`).

`--coral2-chassis` splits the nodes of a job over chassis before its storage is added to
its resources. The split changes neither what is refused nor how many nodes and how much
storage the job gets. That it gets what its allocations need is up to the two divisions of
`_get_capacity_per_node`, whose quotients are doubles before they are rounded up, and can be
too small or too large: `chassis_equivalent_iff`. -/
namespace FluxCoral2.Breakdown
open Library

/-! ### What an allocation needs -/

/-- The GiB of an allocation, or of each of its parts. -/
def AllocSet.gibs (a : AllocSet) : Nat := a.minimumCapacity ⌈/⌉ gib

/-- The GiB an allocation needs on all nodes. -/
def AllocSet.needed (nodecount : Nat) (a : AllocSet) : Nat :=
  if a.label ∈ perComputeTypes then nodecount * a.gibs else a.gibs

/-- The GiB that an allocation counts for are more than `k`. -/
def AllocSet.Above (minSize k : Nat) (a : AllocSet) : Prop :=
  k < minSize ∨ Binary64.reach gib k < a.minimumCapacity

/-- No double is above it, and a greater integer is none. -/
def largest : Nat := 2 ^ Binary64.overflowExponent - 1

/-- Rounded to a double, the quotients of an allocation leave what it needs: the capacity is
no more than GiB can be counted of, and above what is rounded down to less; a capacity that
is divided among the nodes is above what their shares are rounded down to, and no more than
shares can be counted of. -/
def AllocSet.Kept (minSize nodecount : Nat) (a : AllocSet) : Prop :=
  a.minimumCapacity ≤ Binary64.reach gib largest ∧
    if a.label ∈ perComputeTypes then a.gibs = 0 ∨ a.Above minSize (a.gibs - 1)
    else
      ¬ a.Above minSize (Binary64.reach nodecount largest) ∧
        (a.gibs = 0 ∨ a.Above minSize (Binary64.reach nodecount ((a.gibs - 1) / nodecount)))

section Kept
variable {minSize nodecount : Nat} {a : AllocSet}

theorem lt_capacityGb_iff (k : Nat) : k < a.capacityGb .double minSize ↔ a.Above minSize k := by
  rw [AllocSet.capacityGb, lt_max_iff, AllocSet.Above, ← Nat.not_le, ← Nat.not_le, ← Nat.not_le,
    ← Binary64.ceilQuotient_le_iff gib_pos]
  rfl

theorem le_perNode_iff (hpos : 0 < nodecount) (hlabel : a.label ∉ perComputeTypes) :
    a.gibs ≤ nodecount * a.perNode minSize nodecount ↔
      a.gibs = 0 ∨ a.Above minSize (Binary64.reach nodecount ((a.gibs - 1) / nodecount)) := by
  rw [← lt_capacityGb_iff, AllocSet.perNode, if_neg hlabel, Division.quotient, ← Nat.not_le,
    ← Binary64.ceilQuotient_le_iff hpos, Nat.not_le, Nat.div_lt_iff_lt_mul hpos, Nat.mul_comm nodecount]
  omega

/-- An allocation is kept when it is usable and adds what it needs. -/
theorem kept_iff (hpos : 0 < nodecount) (hstrategy : checkStrategy a = .ok ()) :
    a.Kept minSize nodecount ↔
      a.Usable minSize nodecount ∧ a.needed nodecount ≤ nodecount * a.perNode minSize nodecount := by
  have hcapacity : Division.double.overflows a.minimumCapacity gib = false ↔
      a.minimumCapacity ≤ Binary64.reach gib largest := Binary64.overflows_eq_false_iff gib_pos
  have hshare : Division.double.overflows (a.capacityGb .double minSize) nodecount = false ↔
      ¬ a.Above minSize (Binary64.reach nodecount largest) := by
    rw [← lt_capacityGb_iff, Nat.not_lt]
    exact Binary64.overflows_eq_false_iff hpos
  unfold AllocSet.Kept AllocSet.needed
  rw [← hcapacity]
  by_cases hlabel : a.label ∈ perComputeTypes
  · have hadds : nodecount * a.gibs ≤ nodecount * a.perNode minSize nodecount ↔
        a.gibs = 0 ∨ a.Above minSize (a.gibs - 1) := by
      rw [← lt_capacityGb_iff, AllocSet.perNode, if_pos hlabel, Nat.mul_le_mul_left_iff hpos]
      omega
    rw [if_pos hlabel, if_pos hlabel, hadds]
    exact and_congr_left fun _ => ⟨fun h => ⟨hstrategy, h, fun hnot => absurd hlabel hnot⟩, fun h => h.capacity⟩
  · rw [if_neg hlabel, if_neg hlabel, le_perNode_iff hpos hlabel, ← and_assoc, ← hshare]
    exact and_congr_left fun _ => ⟨fun h => ⟨hstrategy, h.1, fun _ => h.2⟩, fun h => ⟨h.capacity, h.share hlabel⟩⟩

theorem two_pow_le_largest {p : Nat} (hp : p < Binary64.overflowExponent) : 2 ^ p ≤ largest :=
  Nat.le_sub_one_of_lt (Nat.pow_lt_pow_right Nat.one_lt_two hp)

theorem gib_lt : gib < 2 ^ (Binary64.leastExponent + 1) := by
  have hgib : gib = 2 ^ 30 := by decide
  rw [hgib]
  exact Nat.pow_lt_pow_right Nat.one_lt_two (by decide)

/-- With capacities and minimum sizes of less than 2**53, every allocation is kept. -/
theorem kept_of_lt (hpos : 0 < nodecount) (hnodes : nodecount < 2 ^ (Binary64.leastExponent + 1))
    (hcapacity : a.minimumCapacity < 2 ^ 53) (hmin : minSize < 2 ^ 53) : a.Kept minSize nodecount := by
  have hlargest : 2 ^ 53 ≤ largest := two_pow_le_largest (by decide)
  have hquotient : Binary64.ceilQuotient a.minimumCapacity gib ≤ 2 ^ 23 :=
    Binary64.ceilQuotient_le_two_pow gib_pos (by rw [gib]; omega)
  have hgb : a.capacityGb .double minSize < 2 ^ 53 := max_lt hmin (hquotient.trans_lt (by decide))
  have habove : a.gibs = 0 ∨ a.Above minSize (a.gibs - 1) := by
    by_cases hzero : a.gibs = 0
    · exact .inl hzero
    · have hless : (a.gibs - 1) * gib < a.minimumCapacity := by
        rw [Nat.mul_comm, ← Nat.not_le, ← ceilDiv_le_iff_le_mul gib_pos]
        show ¬ a.gibs ≤ a.gibs - 1
        omega
      exact .inr (.inr (Binary64.reach_lt hcapacity gib_lt hless))
  unfold AllocSet.Kept
  refine ⟨?_, ?_⟩
  · rw [← Binary64.ceilQuotient_le_iff gib_pos]
    exact (hquotient.trans (by decide)).trans hlargest
  split
  · exact habove
  · rw [← lt_capacityGb_iff, ← lt_capacityGb_iff, Nat.not_lt, ← Binary64.ceilQuotient_le_iff hpos]
    refine ⟨(Binary64.ceilQuotient_le_two_pow hpos ?_).trans hlargest, ?_⟩
    · exact hgb.trans_le (Nat.le_mul_of_pos_right _ hpos)
    · refine habove.imp_right fun h => Binary64.reach_lt hgb hnodes ?_
      rw [← lt_capacityGb_iff] at h
      exact (Nat.div_mul_le_self _ _).trans_lt h

end Kept

theorem sum_needed_le {minSize nodecount : Nat} {allocations : List AllocSet}
    (h : ∀ a ∈ allocations, a.needed nodecount ≤ nodecount * a.perNode minSize nodecount) :
    (allocations.map (AllocSet.needed nodecount)).sum ≤
      nodecount * (allocations.map (AllocSet.perNode minSize nodecount)).sum := by
  induction allocations with
  | nil => simp
  | cons a rest ih =>
    have ha := h a List.mem_cons_self
    have hrest := ih fun b hb => h b (List.mem_cons_of_mem a hb)
    rw [List.map_cons, List.map_cons, List.sum_cons, List.sum_cons, Nat.mul_add]
    omega

/-! ### The two forms of a jobspec -/

/-- What an accepted count of chassis makes of a node entry. -/
def splitNodes (chassis rabbitCores : Nat) (first : Resource) : Resource :=
  .mk .chassis chassis none false (some (first.setCount (first.count / chassis) ::
    if 0 < rabbitCores then [storageNode rabbitCores] else []))

theorem preinit_dvd {chassis rabbitCores nodecount : Nat} {scheduling : Bool}
    (h : preinit chassis rabbitCores scheduling (some nodecount) = .ok ()) (hpos : 0 < chassis) :
    chassis ∣ nodecount := by
  have hne : chassis ≠ 0 := by omega
  simp only [preinit, hne, and_false, if_false] at h
  split at h
  · cases h
  · split at h
    · cases h
    · exact Nat.dvd_of_mod_eq_zero (by omega)

theorem modifyJobspec_node {chassis rabbitCores : Nat} {first : Resource} (hpos : 0 < chassis)
    (htype : first.type = .node) :
    modifyJobspec chassis rabbitCores [first] = .ok [splitNodes chassis rabbitCores first] := by
  have hne : chassis ≠ 0 := by omega
  simp only [modifyJobspec, hne, htype, ne_eq, not_true_eq_false, or_self, if_false]
  rfl

@[simp] theorem type_splitNodes (chassis rabbitCores : Nat) (first : Resource) :
    (splitNodes chassis rabbitCores first).type = .chassis := rfl

@[simp] theorem count_splitNodes (chassis rabbitCores : Nat) (first : Resource) :
    (splitNodes chassis rabbitCores first).count = chassis := rfl

/-- The entries below the chassis: the nodes, and the cores of the rabbit. -/
theorem subs_splitNodes (chassis rabbitCores : Nat) (first : Resource) : ∃ storage,
    (splitNodes chassis rabbitCores first).subs = some (first.setCount (first.count / chassis) :: storage) ∧
      ∀ sub ∈ storage, sub.type = .storageNode := by
  refine ⟨_, rfl, fun sub hsub => ?_⟩
  split at hsub
  · obtain rfl := List.mem_singleton.mp hsub
    rfl
  · cases hsub

theorem countOf_eq_zero {t : ResourceType} {resources : List Resource} (h : ∀ r ∈ resources, r.type ≠ t) :
    Resource.countOf t resources = 0 := by
  rw [Resource.countOf, List.filter_eq_nil_iff.mpr fun r hr => by simpa using h r hr]
  rfl

theorem splitNodes_accepted {chassis : Nat} (rabbitCores : Nat) {first : Resource} (hchassis : 0 < chassis)
    (htype : first.type = .node) (hpos : 0 < first.count) (hdvd : chassis ∣ first.count) :
    Accepted [splitNodes chassis rabbitCores first] first.count ∧
      ∀ minSize, jobspecModifier (splitNodes chassis rabbitCores first) minSize =
        .ok (.chassis (nodeJobspecModifier first.count minSize) (first.count / chassis)) := by
  obtain ⟨storage, hsubs, hstorage⟩ := subs_splitNodes chassis rabbitCores first
  have hnode : ((first.setCount (first.count / chassis) :: storage).find? fun sub => sub.type = .node) =
      some (first.setCount (first.count / chassis)) := by
    rw [List.find?_cons_of_pos]
    simp [htype]
  have hcount : first.count / chassis * chassis = first.count := Nat.div_mul_cancel hdvd
  have haccepted : Accepted [splitNodes chassis rabbitCores first]
      ((first.setCount (first.count / chassis)).count * chassis) := by
    refine .chassis rfl hsubs (fun sub hsub => ?_) hnode hchassis ?_
    · rcases List.mem_cons.mp hsub with rfl | hsub
      · exact .inl (by simp [htype])
      · exact .inr (hstorage sub hsub)
    · rw [Resource.count_setCount]
      exact Nat.div_pos (Nat.le_of_dvd hpos hdvd) hchassis
  rw [Resource.count_setCount, hcount] at haccepted
  refine ⟨haccepted, fun minSize => ?_⟩
  rw [jobspecModifier_chassis (type_splitNodes chassis rabbitCores first) hsubs hnode minSize,
    Resource.count_setCount, count_splitNodes, hcount]

/-- The resources of the two forms, for so many ssds per node. -/
structure SameResources (nodecount ssds : Nat) (new new' : List Resource) : Prop where
  nodes : total .node new = nodecount
  nodes' : total .node new' = nodecount
  ssds_eq : total .ssd new = nodecount * ssds
  ssds_eq' : total .ssd new' = nodecount * ssds

theorem sameResources_unchanged {chassis rabbitCores : Nat} {first : Resource} (htype : first.type = .node)
    (hdvd : chassis ∣ first.count) :
    SameResources first.count 0 [first] [splitNodes chassis rabbitCores first] := by
  obtain ⟨storage, hsubs, hstorage⟩ := subs_splitNodes chassis rabbitCores first
  have hnodes : Resource.countOf .node storage = 0 := countOf_eq_zero fun r hr => by simp [hstorage r hr]
  have hssds : Resource.countOf .ssd storage = 0 := countOf_eq_zero fun r hr => by simp [hstorage r hr]
  have hcount : chassis * (first.count / chassis) = first.count := Nat.mul_div_cancel' hdvd
  refine ⟨?_, ?_, ?_, ?_⟩ <;> rw [total_singleton, Resource.total]
  · simp [htype]
  · simp [hsubs, htype, hnodes, hcount]
  · simp [htype]
  · simp [hsubs, htype, hssds]

theorem sameResources_new {chassis rabbitCores ssds : Nat} {first : Resource} (htype : first.type = .node)
    (hdvd : chassis ∣ first.count) :
    SameResources first.count ssds
      [.mk .slot first.count (some "rabbit") false (some [first.setCount 1, ssdResources ssds])]
      [(splitNodes chassis rabbitCores first).setSubs
        ((splitNodes chassis rabbitCores first).subs.getD [] ++ [ssdResources (ssds * (first.count / chassis))])] := by
  obtain ⟨storage, hsubs, hstorage⟩ := subs_splitNodes chassis rabbitCores first
  have hnodes : Resource.countOf .node storage = 0 := countOf_eq_zero fun r hr => by simp [hstorage r hr]
  have hssds : Resource.countOf .ssd storage = 0 := countOf_eq_zero fun r hr => by simp [hstorage r hr]
  have hcount : chassis * (first.count / chassis) = first.count := Nat.mul_div_cancel' hdvd
  refine ⟨?_, ?_, ?_, ?_⟩ <;> rw [total_singleton, Resource.total]
  · simp [htype]
  · simp [hsubs, htype, hnodes, hcount]
  · simp [htype]
  · simp only [Resource.type_setSubs, type_splitNodes, Resource.count_setSubs, count_splitNodes,
      Resource.subs_setSubs, hsubs, Option.getD_some, Resource.countOf_append, Resource.countOf_cons, hssds]
    simp only [Resource.type_setCount, htype, type_ssdResources, count_ssdResources, Resource.countOf_nil,
      reduceCtorEq, or_true, if_true, if_false, Nat.zero_add, Nat.add_zero]
    rw [Nat.mul_left_comm, hcount, Nat.mul_comm]

theorem modified_of_applyAll {maximums : Maximums} {first : Resource} {allocations : List AllocSet}
    {m m' : Modifier} {new : Except Failure (Option (List Resource))} (h : m.applyAll allocations = .ok m')
    (hnew : m'.getNewResources maximums first = new) :
    m.modified maximums first allocations = new.map fun new => some (new.getD [first]) := by
  rw [Modifier.modified, h]
  show (m'.getNewResources maximums first >>= fun new => pure (some (new.getD [first]))) = _
  rw [hnew]
  cases new <;> rfl

/-- The two modifiers refuse alike what is above a maximum, and ask for something new alike. -/
theorem getNewResources_alike (minSize ssds : Nat) (limits : ResourceLimits) (maximums : Maximums)
    (first first' : Resource) {nodecount k : Nat} (hpos : 0 < nodecount) (hk : 0 < k) :
    (∃ message, limits.Exceed maximums nodecount ∧
      (Modifier.node ⟨minSize, ssds, limits, nodecount⟩).getNewResources maximums first =
        .error (.valueError message) ∧
      (Modifier.chassis ⟨minSize, ssds * k, limits, nodecount⟩ k).getNewResources maximums first' =
        .error (.valueError message)) ∨
    (ssds = 0 ∧ (Modifier.node ⟨minSize, ssds, limits, nodecount⟩).getNewResources maximums first = .ok none ∧
      (Modifier.chassis ⟨minSize, ssds * k, limits, nodecount⟩ k).getNewResources maximums first' = .ok none) ∨
    ((Modifier.node ⟨minSize, ssds, limits, nodecount⟩).getNewResources maximums first =
        .ok (some [.mk .slot nodecount (some "rabbit") false (some [first.setCount 1, ssdResources ssds])]) ∧
      (Modifier.chassis ⟨minSize, ssds * k, limits, nodecount⟩ k).getNewResources maximums first' =
        .ok (some [first'.setSubs (first'.subs.getD [] ++ [ssdResources (ssds * k)])])) := by
  simp only [Modifier.getNewResources]
  by_cases hzero : ssds = 0
  · rw [hzero, Nat.zero_mul]
    exact .inr (.inl ⟨rfl, rfl, rfl⟩)
  · rw [if_neg hzero, if_neg (Nat.mul_ne_zero hzero (Nat.pos_iff_ne_zero.mp hk))]
    rcases validate_cases limits maximums hpos with ⟨hvalidate, -⟩ | ⟨message, hvalidate, hexceed⟩ <;>
      rw [hvalidate]
    · exact .inr (.inr ⟨rfl, rfl⟩)
    · exact .inl ⟨message, hexceed, rfl, rfl⟩

/-! ### Equivalent requests -/

def RaisesValueError {α : Type} (x : Except Error α) : Prop :=
  ∃ message, x = .error (.failure (.valueError message))

/-- Both forms of a jobspec are refused; or they get the same nodes and the same storage, which
is no less than what the allocations need. -/
def Equivalent (maximums : Maximums) (minSize nodecount : Nat) (breakdowns : List DirectiveBreakdown)
    (resources rewritten : List Resource) : Prop :=
  (RaisesValueError (applyBreakdowns maximums minSize breakdowns resources) ∧
      RaisesValueError (applyBreakdowns maximums minSize breakdowns rewritten)) ∨
    ∃ new new', applyBreakdowns maximums minSize breakdowns resources = .ok (some new) ∧
      applyBreakdowns maximums minSize breakdowns rewritten = .ok (some new') ∧
      total .node new = nodecount ∧ total .node new' = nodecount ∧ total .ssd new = total .ssd new' ∧
      ((breakdowns.flatMap DirectiveBreakdown.allocationSets).map (AllocSet.needed nodecount)).sum ≤ total .ssd new

theorem ready_storage (storage : Option (List AllocSet)) : DirectiveBreakdown.Ready {storage := storage} := ⟨rfl, rfl⟩

theorem ResourceLimits.not_exceed (limits : ResourceLimits) (nodecount : Nat) : ¬ limits.Exceed {} nodecount := by
  simp [ResourceLimits.Exceed, overPerCompute_iff]

section Equivalent
variable {chassis minSize : Nat} {first : Resource} {breakdowns : List DirectiveBreakdown}

/-- With usable allocations, both forms are refused for a maximum, or get as much storage as is
added up. -/
theorem applyBreakdowns_alike (rabbitCores : Nat) (maximums : Maximums) (hchassis : 0 < chassis)
    (htype : first.type = .node) (hpos : 0 < first.count) (hdvd : chassis ∣ first.count)
    (hready : ∀ b ∈ breakdowns, b.Ready)
    (husable : ∀ a ∈ breakdowns.flatMap DirectiveBreakdown.allocationSets, a.Usable minSize first.count) :
    ((∃ limits : ResourceLimits, limits.Exceed maximums first.count) ∧
        RaisesValueError (applyBreakdowns maximums minSize breakdowns [first]) ∧
        RaisesValueError (applyBreakdowns maximums minSize breakdowns [splitNodes chassis rabbitCores first])) ∨
      ∃ new new', applyBreakdowns maximums minSize breakdowns [first] = .ok (some new) ∧
        applyBreakdowns maximums minSize breakdowns [splitNodes chassis rabbitCores first] = .ok (some new') ∧
        SameResources first.count ((breakdowns.flatMap DirectiveBreakdown.allocationSets).map
          (AllocSet.perNode minSize first.count)).sum new new' := by
  obtain ⟨haccepted, hmodifier⟩ := splitNodes_accepted rabbitCores hchassis htype hpos hdvd
  obtain ⟨limits, -, happlied⟩ := applyAll_usable hpos husable ⟨0, 0, 0, 0⟩
  have hnode := happlied (.node (nodeJobspecModifier first.count minSize)) ⟨rfl, rfl, rfl⟩
  have hsplit := happlied (.chassis (nodeJobspecModifier first.count minSize) (first.count / chassis)) ⟨rfl, rfl, rfl⟩
  generalize ((breakdowns.flatMap DirectiveBreakdown.allocationSets).map
    (AllocSet.perNode minSize first.count)).sum = ssds at hnode hsplit ⊢
  rw [applyBreakdowns_accepted maximums (alreadyApplied_accepted (.node htype hpos))
      (jobspecModifier_node htype minSize) hready,
    applyBreakdowns_accepted maximums (alreadyApplied_accepted haccepted) (hmodifier minSize) hready]
  simp only [Modifier.added, nodeJobspecModifier, Nat.zero_add] at hnode hsplit
  rcases getNewResources_alike minSize ssds limits maximums first (splitNodes chassis rabbitCores first) hpos
    (Nat.div_pos (Nat.le_of_dvd hpos hdvd) hchassis) with ⟨message, hexceed, h, h'⟩ | ⟨hzero, h, h'⟩ | ⟨h, h'⟩ <;>
    rw [nodeJobspecModifier, modified_of_applyAll hnode h, modified_of_applyAll hsplit h']
  · exact .inl ⟨⟨limits, hexceed⟩, ⟨message, rfl⟩, message, rfl⟩
  · refine .inr ⟨_, _, rfl, rfl, ?_⟩
    rw [hzero]
    exact sameResources_unchanged htype hdvd
  · exact .inr ⟨_, _, rfl, rfl, sameResources_new htype hdvd⟩

/-- An allocation that is not usable makes a job fail without a ValueError. -/
theorem applyBreakdowns_overflow (minSize : Nat) (maximums : Maximums) (htype : first.type = .node)
    (hpos : 0 < first.count) (hready : ∀ b ∈ breakdowns, b.Ready)
    (hvalid : ∀ a ∈ breakdowns.flatMap DirectiveBreakdown.allocationSets, checkStrategy a = .ok ())
    (h : ¬ ∀ a ∈ breakdowns.flatMap DirectiveBreakdown.allocationSets, a.Usable minSize first.count) :
    applyBreakdowns maximums minSize breakdowns [first] = .error (.failure .overflowError) := by
  obtain ⟨e, he, hover⟩ := applyAll_error hpos h
    (m := .node (nodeJobspecModifier first.count minSize)) ⟨rfl, rfl, rfl⟩
  obtain rfl := hover hvalid
  rw [applyBreakdowns_accepted maximums (alreadyApplied_accepted (.node htype hpos))
    (jobspecModifier_node htype minSize) hready, Modifier.modified, he]
  rfl

/-- A job with kept allocations only. -/
theorem equivalent_of_kept (rabbitCores : Nat) (maximums : Maximums) (hchassis : 0 < chassis)
    (htype : first.type = .node) (hpos : 0 < first.count) (hdvd : chassis ∣ first.count)
    (hready : ∀ b ∈ breakdowns, b.Ready)
    (hkept : ∀ a ∈ breakdowns.flatMap DirectiveBreakdown.allocationSets,
      checkStrategy a = .ok () ∧ a.Kept minSize first.count) :
    Equivalent maximums minSize first.count breakdowns [first] [splitNodes chassis rabbitCores first] := by
  have hboth : ∀ a ∈ breakdowns.flatMap DirectiveBreakdown.allocationSets, a.Usable minSize first.count ∧
      a.needed first.count ≤ first.count * a.perNode minSize first.count := fun a ha =>
    (kept_iff hpos (hkept a ha).1).mp (hkept a ha).2
  rcases applyBreakdowns_alike rabbitCores maximums hchassis htype hpos hdvd hready (fun a ha => (hboth a ha).1) with
    ⟨-, hraises⟩ | ⟨new, new', h, h', hsame⟩
  · exact .inl hraises
  · refine .inr ⟨new, new', h, h', hsame.nodes, hsame.nodes', hsame.ssds_eq.trans hsame.ssds_eq'.symm, ?_⟩
    rw [hsame.ssds_eq]
    exact sum_needed_le fun a ha => (hboth a ha).2

/-- A job with one allocation, and no maximum set. -/
theorem kept_of_equivalent {rabbitCores : Nat} {a : AllocSet} (hchassis : 0 < chassis) (htype : first.type = .node)
    (hpos : 0 < first.count) (hdvd : chassis ∣ first.count) (hstrategy : checkStrategy a = .ok ())
    (h : Equivalent {} minSize first.count [{storage := some [a]}] [first] [splitNodes chassis rabbitCores first]) :
    a.Kept minSize first.count := by
  have hready : ∀ b ∈ [({storage := some [a]} : DirectiveBreakdown)], b.Ready := by simp [ready_storage]
  have hsets : [({storage := some [a]} : DirectiveBreakdown)].flatMap DirectiveBreakdown.allocationSets = [a] := rfl
  have husable : a.Usable minSize first.count := by
    by_contra hnot
    have hoverflow := applyBreakdowns_overflow minSize {} htype hpos hready (by simpa [hsets]) (by simpa [hsets])
    rcases h with ⟨⟨message, hraises⟩, -⟩ | ⟨new, new', hok, -⟩
    · rw [hoverflow] at hraises
      cases hraises
    · rw [hoverflow] at hok
      cases hok
  rw [kept_iff hpos hstrategy]
  refine ⟨husable, ?_⟩
  rcases applyBreakdowns_alike rabbitCores {} hchassis htype hpos hdvd hready (by simpa [hsets]) with
    ⟨⟨limits, hexceed⟩, -⟩ | ⟨new, new', hok, -, hsame⟩
  · exact absurd hexceed (limits.not_exceed first.count)
  rcases h with ⟨⟨message, hraises⟩, -⟩ | ⟨new₁, new₁', hok₁, -, -, -, -, hneeded⟩
  · rw [hok] at hraises
    cases hraises
  · obtain rfl := Option.some.inj (Except.ok.inj (hok.symm.trans hok₁))
    rw [hsame.ssds_eq, hsets] at hneeded
    simpa using hneeded

end Equivalent

/-- **Node and chassis requests** are equivalent, in all jobs whose allocations are of a kind,
exactly when those of the kind are kept by the division: split over an accepted count of
chassis, a job is refused as before or gets as many nodes and as much storage, which is what
its allocations need. -/
theorem chassis_equivalent_iff {chassis rabbitCores minSize : Nat} {scheduling : Bool} {first : Resource}
    {sets : Set AllocSet} (hchassis : 0 < chassis) (htype : first.type = .node) (hpos : 0 < first.count)
    (hpreinit : preinit chassis rabbitCores scheduling (some first.count) = .ok ())
    (hvalid : ∀ a ∈ sets, checkStrategy a = .ok ()) :
    ∃ rewritten, modifyJobspec chassis rabbitCores [first] = .ok rewritten ∧
      ((∀ (maximums : Maximums) (breakdowns : List DirectiveBreakdown), (∀ b ∈ breakdowns, b.Ready) →
          (∀ b ∈ breakdowns, ∀ a ∈ b.allocationSets, a ∈ sets) →
          Equivalent maximums minSize first.count breakdowns [first] rewritten) ↔
        ∀ a ∈ sets, a.Kept minSize first.count) := by
  have hdvd := preinit_dvd hpreinit hchassis
  refine ⟨_, modifyJobspec_node hchassis htype, fun h a ha => ?_, fun h maximums breakdowns hready hsets => ?_⟩
  · refine kept_of_equivalent hchassis htype hpos hdvd (hvalid a ha) (h {} _ ?_ ?_)
    · simp [ready_storage]
    · simp [DirectiveBreakdown.allocationSets, ha]
  · refine equivalent_of_kept rabbitCores maximums hchassis htype hpos hdvd hready fun a ha => ?_
    obtain ⟨b, hb, ha⟩ := List.mem_flatMap.mp ha
    exact ⟨hvalid a (hsets b hb a ha), h a (hsets b hb a ha)⟩

/-- 10 GiB of xfs on each node, and 8 GiB of Lustre. -/
def xfsAndLustre : List DirectiveBreakdown :=
  [{storage := some [⟨.xfs, .perCompute, 10 * gib, none⟩]}, {storage := none}, {storage := some [osts 8]}]

def sixNodes : Resource := .mk .node 6 none false none

/-- Allocations of less than 8 PiB. -/
def small : Set AllocSet := {a | checkStrategy a = .ok () ∧ a.minimumCapacity < 2 ^ 53}

/-- Six nodes on two chassis, with cores of the rabbits. -/
theorem sixNodes_equivalent : ∃ rewritten, modifyJobspec 2 1 [sixNodes] = .ok rewritten ∧
    ∀ maximums : Maximums, Equivalent maximums 4 6 xfsAndLustre [sixNodes] rewritten := by
  have hpreinit : preinit 2 1 true (some sixNodes.count) = .ok () := rfl
  obtain ⟨rewritten, hrewritten, hiff⟩ := @chassis_equivalent_iff 2 1 4 true sixNodes small Nat.two_pos rfl
    (by decide) hpreinit fun a ha => ha.1
  have hnodes : 6 < 2 ^ (Binary64.leastExponent + 1) :=
    Nat.lt_of_lt_of_le (by decide : 6 < 2 ^ 3) (Nat.pow_le_pow_right Nat.two_pos (by decide))
  have hequivalent := hiff.mpr fun a ha => kept_of_lt (by decide) hnodes ha.2 (by decide)
  refine ⟨rewritten, hrewritten, fun maximums => hequivalent maximums xfsAndLustre ?_ ?_⟩
  · simp [xfsAndLustre, ready_storage]
  · have hxfs : ⟨.xfs, .perCompute, 10 * gib, none⟩ ∈ small := ⟨rfl, by decide⟩
    have hosts : osts 8 ∈ small := ⟨rfl, by decide⟩
    simp [xfsAndLustre, DirectiveBreakdown.allocationSets, hxfs, hosts]

/-- A byte more than 8 PiB of OSTs. -/
def pebibytes : AllocSet := ⟨.ost, .acrossServers, 2 ^ 53 + 1, none⟩

def twoNodes : Resource := .mk .node 2 none false none

/-- The two nodes get 8388608 GiB, which is less than there are bytes for. -/
theorem pebibytes_not_equivalent : preinit 2 0 true (some 2) = .ok () ∧ checkStrategy pebibytes = .ok () ∧
    ∃ rewritten, modifyJobspec 2 0 [twoNodes] = .ok rewritten ∧
      ¬ Equivalent {} 4 2 [{storage := some [pebibytes]}] [twoNodes] rewritten := by
  refine ⟨rfl, rfl, _, modifyJobspec_node Nat.two_pos rfl, fun h => ?_⟩
  have hkept : pebibytes.Kept 4 twoNodes.count :=
    kept_of_equivalent Nat.two_pos rfl (by decide) (by decide) rfl h
  rw [AllocSet.Kept, if_neg (by decide)] at hkept
  rcases hkept.2.2 with hnone | hmin | hcapacity
  · exact absurd hnone (by decide)
  · exact absurd hmin (by decide)
  · exact absurd hcapacity (by decide)

end FluxCoral2.Breakdown
