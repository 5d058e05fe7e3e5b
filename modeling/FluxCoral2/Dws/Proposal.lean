import FluxCoral2.Rabbit.Capacity
import FluxCoral2.Dws.Service

/-! The resources of a job and the maximums of the site (`coral2_dws.py`).

When a workflow has completed its Proposal state, the resources its breakdowns ask for
are sent to the plugin, with an error message when they are refused. The maximums are
checked at the end of `apply_breakdowns`, which is not called when Fluxion does not
schedule rabbits, and which rounds the Lustre of each node down: `maximums_bind_iff`. -/
namespace FluxCoral2.Breakdown
open Library

/-! ### What is requested -/

/-- What is requested of each type is at most its maximum, of Lustre for each node. -/
structure WithinMaximums (maximums : Maximums) (nodecount minSize : Nat) (allocations : List AllocSet) : Prop where
  xfs : ∀ allowable, maximums.xfs = some allowable → requested minSize .xfs allocations ≤ allowable
  gfs2 : ∀ allowable, maximums.gfs2 = some allowable → requested minSize .gfs2 allocations ≤ allowable
  raw : ∀ allowable, maximums.raw = some allowable → requested minSize .raw allocations ≤ allowable
  lustre : ∀ allowable, maximums.lustre = some allowable →
    requested minSize .ost allocations ≤ allowable * nodecount

/-- An allocation cannot be applied; or some ssd is asked for, and an amount is above its
maximum, that of Lustre by a GiB for each node. -/
def Refused (maximums : Maximums) (nodecount minSize : Nat) (allocations : List AllocSet) : Prop :=
  (∃ a ∈ allocations, ¬ a.Usable minSize nodecount) ∨
    ((∃ a ∈ allocations, a.AsksSsd minSize nodecount) ∧
      (OverPerCompute maximums (requested minSize · allocations) ∨
        ∃ allowable, maximums.lustre = some allowable ∧
          (allowable + 1) * nodecount ≤ requested minSize .ost allocations))

theorem sum_perNode_eq_zero_iff {minSize nodecount : Nat} (hpos : 0 < nodecount) (allocations : List AllocSet) :
    (allocations.map (AllocSet.perNode minSize nodecount)).sum = 0 ↔
      ¬ ∃ a ∈ allocations, a.AsksSsd minSize nodecount := by
  induction allocations with
  | nil => simp
  | cons a rest ih =>
    have ha := perNode_pos_iff minSize hpos a
    simp only [List.map_cons, List.sum_cons, Nat.add_eq_zero_iff, ih, List.mem_cons, exists_eq_or_imp, not_or, ← ha,
      Nat.not_lt, Nat.le_zero]

/-- The amounts of the allocations are above a maximum. -/
theorem exceed_iff {maximums : Maximums} {limits : ResourceLimits} {nodecount minSize : Nat}
    {allocations : List AllocSet} (hpos : 0 < nodecount)
    (h : ∀ t ∈ counted, limits.amount t = requested minSize t allocations) :
    limits.Exceed maximums nodecount ↔ OverPerCompute maximums (requested minSize · allocations) ∨
      ∃ allowable, maximums.lustre = some allowable ∧
        (allowable + 1) * nodecount ≤ requested minSize .ost allocations := by
  have hlustre (allowable : Nat) : allowable < limits.lustre / nodecount ↔
      (allowable + 1) * nodecount ≤ requested minSize .ost allocations := by
    rw [← h .ost (by decide)]
    exact Nat.le_div_iff_mul_le hpos
  rw [ResourceLimits.Exceed, overPerCompute_congr h]
  simp only [hlustre]

/-- Nothing is asked for, or the amounts are checked. -/
theorem checked_ok_iff {α : Type} (limits : ResourceLimits) (maximums : Maximums) {nodecount : Nat}
    (hpos : 0 < nodecount) (ssdCount : Nat) (resources : α) :
    (∃ new, (if ssdCount = 0 then pure none
      else do
        limits.validate maximums nodecount
        pure (some resources) : Except Failure (Option α)) = .ok new) ↔
      ssdCount = 0 ∨ ¬ limits.Exceed maximums nodecount := by
  split
  · rename_i hzero
    exact iff_of_true ⟨_, rfl⟩ (.inl hzero)
  · rename_i hsome
    rw [or_iff_right hsome]
    rcases validate_cases limits maximums hpos with ⟨hvalidate, hnot⟩ | ⟨message, hvalidate, hexceed⟩ <;> rw [hvalidate]
    · exact iff_of_true ⟨_, rfl⟩ hnot
    · exact iff_of_false (fun ⟨new, h⟩ => nomatch h) (not_not_intro hexceed)

theorem getNewResources_ok_iff {m : Modifier} (maximums : Maximums) (first : Resource) (hpos : 0 < m.base.nodecount) :
    (∃ new, m.getNewResources maximums first = .ok new) ↔
      m.base.ssdCount = 0 ∨ ¬ m.base.limits.Exceed maximums m.base.nodecount := by
  cases m with
  | node modifier => exact checked_ok_iff modifier.limits maximums hpos modifier.ssdCount _
  | chassis modifier nodesPerChassis => exact checked_ok_iff modifier.limits maximums hpos modifier.ssdCount _

/-! ### The update of the resources -/

/-- The constraint on the nodes of a job. -/
inductive Constraint
  | properties (names : List String)
  | not (constraint : Constraint)
  | and (first second : Constraint)
  deriving DecidableEq

def excludeProperty : String := "badrabbit"

def newConstraint (disableFluxion drainComputeNodes : Bool) : Option Constraint :=
  if disableFluxion then
    some (.and (.not (.properties [excludeProperty])) (.not (.properties [Rabbit.allocatedProperty])))
  else if !drainComputeNodes then some (.not (.properties [excludeProperty]))
  else none

/-- What the service is started with. -/
structure Settings where
  disableFluxion : Bool := false
  drainComputeNodes : Bool := true
  maximums : Maximums := {}
  minAllocationSize : Nat := 4

/-- A request of job-manager.dws.resource-update. -/
structure ResourceUpdate where
  id : Nat
  resources : List Resource
  exclude : Option Constraint
  errmsg : Option String

section Update
variable (repr : String → String) (settings : Settings)

/-- The resources to send, if they are new, and the message when they are refused. -/
def updatedResources (breakdowns : List DirectiveBreakdown) (resources : List Resource) :
    Except Error (Option (List Resource) × Option String) :=
  if settings.disableFluxion then .ok (some resources, none)
  else
    match applyBreakdowns settings.maximums settings.minAllocationSize breakdowns resources with
    | .ok resources => .ok (resources, none)
    | .error (.failure (.valueError message)) => .ok (some resources, some (repr message))
    | .error e => .error e

/-- `handle_proposal_state`, for the resources of the job; `repr` is Python's. -/
def handleProposalState (id : Nat) (breakdowns : List DirectiveBreakdown) (resources : List Resource) :
    Except Error (Option ResourceUpdate) := do
  let (resources, errmsg) ← updatedResources repr settings breakdowns resources
  pure (resources.map fun resources =>
    { id := id
      resources := resources
      exclude := newConstraint settings.disableFluxion settings.drainComputeNodes
      errmsg := errmsg })

/-- An accepted entry gets a modifier that counts its nodes. -/
theorem Accepted.modifier {resources : List Resource} {nodecount : Nat} (h : Accepted resources nodecount)
    (minSize : Nat) : 0 < nodecount ∧ ∃ first m, resources = [first] ∧ alreadyApplied first = .ok false ∧
      jobspecModifier first minSize = .ok m ∧ 0 < m.entryNodes ∧ m.base = nodeJobspecModifier nodecount minSize := by
  cases h with
  | @node first htype hcount =>
    exact ⟨hcount, first, _, rfl, alreadyApplied_accepted (.node htype hcount), jobspecModifier_node htype minSize,
      Nat.one_pos, rfl⟩
  | @chassis first node subs htype hsubs hother hnode hcount hnodes =>
    exact ⟨Nat.mul_pos hnodes hcount, first, _, rfl,
      alreadyApplied_accepted (.chassis htype hsubs hother hnode hcount hnodes),
      jobspecModifier_chassis htype hsubs hnode minSize, hnodes, rfl⟩

/-- `apply_breakdowns` returns resources for an accepted entry, or raises. -/
theorem applyBreakdowns_ok_iff {breakdowns : List DirectiveBreakdown} {resources : List Resource} {nodecount : Nat}
    (maximums : Maximums) (minSize : Nat) (hready : ∀ b ∈ breakdowns, b.Ready)
    (haccepted : Accepted resources nodecount) :
    (∃ updated, applyBreakdowns maximums minSize breakdowns resources = .ok updated) ↔
      ¬ Refused maximums nodecount minSize (breakdowns.flatMap DirectiveBreakdown.allocationSets) := by
  obtain ⟨hpos, first, m, rfl, happlied, hm, hentry, hbase⟩ := haccepted.modifier minSize
  rw [applyBreakdowns_accepted maximums happlied hm hready]
  generalize breakdowns.flatMap DirectiveBreakdown.allocationSets = allocations
  have hlike : m.Like minSize nodecount ⟨0, 0, 0, 0⟩ := by
    refine ⟨?_, ?_, ?_⟩ <;> rw [hbase] <;> rfl
  by_cases husable : ∀ a ∈ allocations, a.Usable minSize nodecount
  · obtain ⟨limits, hamounts, happly⟩ := applyAll_usable hpos husable ⟨0, 0, 0, 0⟩
    have hrequested : ∀ t ∈ counted, limits.amount t = requested minSize t allocations := fun t ht => by
      rw [hamounts t ht]
      cases t <;> simp [ResourceLimits.amount]
    have hrefused : Refused maximums nodecount minSize allocations ↔
        (∃ a ∈ allocations, a.AsksSsd minSize nodecount) ∧ limits.Exceed maximums nodecount := by
      rw [Refused, ← exceed_iff hpos hrequested, or_iff_right]
      rintro ⟨a, ha, hnot⟩
      exact hnot (husable a ha)
    have hadded := base_added limits (allocations.map (AllocSet.perNode minSize nodecount)).sum m
    have hnew := getNewResources_ok_iff (m := m.added limits (allocations.map (AllocSet.perNode minSize nodecount)).sum)
      maximums first (by rw [hadded, hbase]; exact hpos)
    rw [hadded, hbase] at hnew
    simp only [nodeJobspecModifier, Nat.zero_add, Nat.mul_eq_zero, Nat.pos_iff_ne_zero.mp hentry, or_false,
      sum_perNode_eq_zero_iff hpos] at hnew
    rw [hrefused, not_and_or, ← hnew, Modifier.modified, happly m hlike]
    show (∃ updated, Except.mapError Error.failure (_ >>= fun new => pure (some (Option.getD new [first]))) = _) ↔ _
    generalize m.added limits (allocations.map (AllocSet.perNode minSize nodecount)).sum = m'
    cases m'.getNewResources maximums first with
    | error e =>
      refine iff_of_false ?_ ?_
      · rintro ⟨updated, h⟩
        cases h
      · rintro ⟨new, h⟩
        cases h
    | ok new => exact iff_of_true ⟨_, rfl⟩ ⟨new, rfl⟩
  · obtain ⟨e, he, -⟩ := applyAll_error hpos husable hlike
    rw [Modifier.modified, he]
    refine iff_of_false ?_ (not_not_intro (.inl ?_))
    · rintro ⟨updated, h⟩
      cases h
    · simpa using husable

/-- With Fluxion, what is sent is what `apply_breakdowns` returns or refuses. -/
theorem updatedResources_ok {breakdowns : List DirectiveBreakdown} {resources : List Resource}
    {sent : Option (List Resource)} {errmsg : Option String} (hd : settings.disableFluxion = false)
    (h : updatedResources repr settings breakdowns resources = .ok (sent, errmsg)) :
    (applyBreakdowns settings.maximums settings.minAllocationSize breakdowns resources = .ok sent ∧ errmsg = none) ∨
      ∃ message, applyBreakdowns settings.maximums settings.minAllocationSize breakdowns resources =
        .error (.failure (.valueError message)) ∧ sent = some resources ∧ errmsg = some (repr message) := by
  simp only [updatedResources, hd, Bool.false_eq_true, if_false] at h
  split at h
  · obtain ⟨rfl, rfl⟩ := Prod.mk.inj (Except.ok.inj h)
    exact .inl ⟨‹_›, rfl⟩
  · obtain ⟨rfl, rfl⟩ := Prod.mk.inj (Except.ok.inj h)
    exact .inr ⟨_, ‹_›, rfl, rfl⟩
  · cases h

/-- For an accepted entry there is something to send. -/
theorem applyBreakdowns_ne_none {breakdowns : List DirectiveBreakdown} {resources : List Resource} {nodecount : Nat}
    (maximums : Maximums) (minSize : Nat) (hready : ∀ b ∈ breakdowns, b.Ready)
    (haccepted : Accepted resources nodecount) :
    applyBreakdowns maximums minSize breakdowns resources ≠ .ok none := by
  obtain ⟨-, first, m, rfl, happlied, hm, -⟩ := haccepted.modifier minSize
  rw [applyBreakdowns_accepted maximums happlied hm hready]
  intro h
  obtain ⟨m', -, h⟩ := Prog.bind_ok (Prog.mapError_ok h)
  obtain ⟨new, -, h⟩ := Prog.bind_ok h
  cases h

/-- **Policy maximums** bind what is sent for a job without an error message exactly when the job
is within them, or Fluxion schedules rabbits and `apply_breakdowns` refuses it. -/
theorem maximums_bind_iff (id : Nat) {breakdowns : List DirectiveBreakdown} {resources : List Resource}
    {nodecount : Nat} (hready : ∀ b ∈ breakdowns, b.Ready) (haccepted : Accepted resources nodecount) :
    (∀ update, handleProposalState repr settings id breakdowns resources = .ok (some update) →
      update.errmsg = none → WithinMaximums settings.maximums nodecount settings.minAllocationSize
        (breakdowns.flatMap DirectiveBreakdown.allocationSets)) ↔
    WithinMaximums settings.maximums nodecount settings.minAllocationSize
        (breakdowns.flatMap DirectiveBreakdown.allocationSets) ∨
      (settings.disableFluxion = false ∧ Refused settings.maximums nodecount settings.minAllocationSize
        (breakdowns.flatMap DirectiveBreakdown.allocationSets)) := by
  have hok := applyBreakdowns_ok_iff settings.maximums settings.minAllocationSize hready haccepted
  have hnone := applyBreakdowns_ne_none settings.maximums settings.minAllocationSize hready haccepted
  constructor
  · intro h
    cases hd : settings.disableFluxion with
    | true =>
      refine .inl (h ⟨id, resources, newConstraint true settings.drainComputeNodes, none⟩ ?_ rfl)
      simp only [handleProposalState, updatedResources, hd, if_true]
      rfl
    | false =>
      by_contra hnot
      obtain ⟨hwithin, hrefused⟩ := not_or.mp hnot
      obtain ⟨updated, hupdated⟩ := hok.mpr fun href => hrefused ⟨rfl, href⟩
      cases updated with
      | none => exact hnone hupdated
      | some updated =>
        refine hwithin (h ⟨id, updated, newConstraint false settings.drainComputeNodes, none⟩ ?_ rfl)
        simp only [handleProposalState, updatedResources, hd, Bool.false_eq_true, if_false, hupdated]
        rfl
  · rintro (hwithin | ⟨hd, hrefused⟩) update hupdate hmessage
    · exact hwithin
    · obtain ⟨⟨sent, errmsg⟩, hsent, hupdate⟩ := Prog.bind_ok hupdate
      rcases updatedResources_ok repr settings hd hsent with ⟨hr, -⟩ | ⟨message, -, rfl, rfl⟩
      · exact absurd hrefused (hok.mp ⟨sent, hr⟩)
      · obtain rfl := Option.some.inj (Except.ok.inj hupdate)
        cases hmessage

/-- What the service's own model of the handler says of the result of `apply_breakdowns`. -/
def outcome : Except Error (Option (List Resource)) → Dws.Breakdowns
  | .ok (some _) => .applied
  | .ok none => .unchanged
  | .error _ => .refused

/-- The service logs the request, with whether the resources are refused. -/
theorem exec_handleProposalState {cfg : Dws.Config} {o : Dws.Outcomes} {id : Nat}
    {breakdowns : List DirectiveBreakdown} {resources : List Resource} {update : Option ResourceUpdate}
    (hfluxion : cfg.disableFluxion = settings.disableFluxion) (hlookup : o.raises .resources = none)
    (hbreakdowns : o.applyBreakdowns =
      outcome (applyBreakdowns settings.maximums settings.minAllocationSize breakdowns resources))
    (h : handleProposalState repr settings id breakdowns resources = .ok update) (s : Dws.Service) :
    Prog.exec (Dws.handleProposalState cfg o) s = (.ok (),
      {s with out := s.out ++ (update.map fun u => Dws.Out.resourceUpdate u.errmsg.isSome).toList}) := by
  obtain ⟨⟨sent, errmsg⟩, hsent, hupdate⟩ := Prog.bind_ok h
  obtain rfl := Except.ok.inj hupdate
  have hattempt : Prog.exec (Dws.attempt o .resources) s = (.ok (), s) := by
    rw [Dws.attempt, hlookup]
    rfl
  rw [Dws.handleProposalState, Prog.exec_bind_ok hattempt, hfluxion]
  cases hd : settings.disableFluxion with
  | true =>
    rw [updatedResources, hd] at hsent
    obtain ⟨rfl, rfl⟩ := Prod.mk.inj (Except.ok.inj hsent)
    rfl
  | false =>
    rcases updatedResources_ok repr settings hd hsent with ⟨hr, rfl⟩ | ⟨message, hr, rfl, rfl⟩
    · rw [hbreakdowns, hr]
      cases sent with
      | none => exact congrArg (fun out => (Except.ok (), {s with out := out})) (List.append_nil _).symm
      | some updated => rfl
    · rw [hbreakdowns, hr]
      rfl

end Update

/-! ### Jobs above the maximum -/

/-- One allocation of a type. -/
def oneAllocation (t : Label) (capacity : Nat) : List DirectiveBreakdown :=
  [{storage := some [⟨t, .perCompute, capacity * gib, none⟩]}]

def nodes (count : Nat) : List Resource := [.mk .node count none false none]

theorem oneAllocation_ready (t : Label) (capacity : Nat) : ∀ b ∈ oneAllocation t capacity, b.Ready := by
  intro b hb
  obtain rfl := List.mem_singleton.mp hb
  exact ⟨rfl, rfl⟩

theorem nodes_accepted {count : Nat} (h : 0 < count) : Accepted (nodes count) count :=
  show Accepted [Resource.mk .node count none false none] (Resource.mk .node count none false none).count from
    .node rfl h

/-- At most 10 GiB of xfs for each node, in a system whose Fluxion does not schedule rabbits. -/
def withoutFluxion : Settings := {disableFluxion := true, maximums := {xfs := some 10}}

/-- At most 100 GiB of Lustre for each node. -/
def withFluxion : Settings := {maximums := {lustre := some 100}}

/-- A job of two nodes that ask for 16 GiB each. -/
theorem withoutFluxion_bind_iff :
    (∀ update, handleProposalState quoted withoutFluxion 7 (oneAllocation .xfs 16) (nodes 2) = .ok (some update) →
      update.errmsg = none → WithinMaximums withoutFluxion.maximums 2 withoutFluxion.minAllocationSize
        ((oneAllocation .xfs 16).flatMap DirectiveBreakdown.allocationSets)) ↔
    WithinMaximums withoutFluxion.maximums 2 withoutFluxion.minAllocationSize
        ((oneAllocation .xfs 16).flatMap DirectiveBreakdown.allocationSets) ∨
      (withoutFluxion.disableFluxion = false ∧ Refused withoutFluxion.maximums 2 withoutFluxion.minAllocationSize
        ((oneAllocation .xfs 16).flatMap DirectiveBreakdown.allocationSets)) :=
  maximums_bind_iff quoted withoutFluxion 7 (oneAllocation_ready .xfs 16) (nodes_accepted Nat.two_pos)

/-- Without Fluxion the 16 GiB are sent, and with it 301 GiB of OSTs on three nodes. -/
theorem withoutFluxion_exceeds :
    (¬ ∀ update, handleProposalState quoted withoutFluxion 7 (oneAllocation .xfs 16) (nodes 2) = .ok (some update) →
      update.errmsg = none → WithinMaximums withoutFluxion.maximums 2 withoutFluxion.minAllocationSize
        ((oneAllocation .xfs 16).flatMap DirectiveBreakdown.allocationSets)) ∧
    ¬ ∀ update, handleProposalState quoted withFluxion 7 [{storage := some [osts 301]}] (nodes 3) = .ok (some update) →
      update.errmsg = none → WithinMaximums withFluxion.maximums 3 withFluxion.minAllocationSize [osts 301] := by
  constructor
  · intro h
    exact absurd ((h _ rfl rfl).xfs 10 rfl) (by decide)
  · intro h
    exact absurd ((h _ rfl rfl).lustre 100 rfl) (by decide)

end FluxCoral2.Breakdown
