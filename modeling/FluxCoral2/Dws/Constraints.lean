import FluxCoral2.Library.Rfc31
import FluxCoral2.Dws.Proposal

/-! The constraints of a job that uses rabbits (`generate_constraints` and
`resource_update_msg_cb` of the plugin, `frob` of the frobnicator `rabbit.py`).

A job that allows rabbits may have rabbits besides the nodes its constraints match. The
frobnicator says so when the job is submitted, and the plugin when the service updates the
resources with a constraint of its own, perhaps more than once. `constraints_mean`: however
often it is said, the job gets the nodes of both constraints and the rabbits. -/
namespace FluxCoral2.Constraints
open Library.Rfc31

/-- What the plugins read of a jobspec: whether it has directives, whether it allows rabbits,
and its constraints. -/
structure Jobspec where
  dw : Bool := true
  allowRabbits : Bool := false
  constraints : Option Constraint := none

/-- `generate_constraints`. -/
def generateConstraints (job : Jobspec) (constraintToAdd : Constraint) : Constraint :=
  let combinedConstraints :=
    match job.constraints with
    | none => constraintToAdd
    | some oldConstraints => .and [oldConstraints, constraintToAdd]
  if job.allowRabbits then .or [.properties ["rabbit"], combinedConstraints] else combinedConstraints

/-- What `resource_update_msg_cb` makes of the constraints; without one to add they stay. -/
def Jobspec.resourceUpdate (job : Jobspec) (exclude : Option Constraint) : Jobspec :=
  match exclude with
  | none => job
  | some constraintToAdd => {job with constraints := some (generateConstraints job constraintToAdd)}

inductive FrobError | runtimeError

/-- `frob`, which wants the constraints to be set. -/
def frob (job : Jobspec) : Except FrobError Jobspec :=
  if !job.dw || !job.allowRabbits then .ok job
  else
    match job.constraints with
    | none => .error .runtimeError
    | some existingConstraint =>
      .ok {job with constraints := some (.or [existingConstraint, .properties ["rabbit"]])}

/-- A constraint of `handle_proposal_state`, as it is sent. -/
def toRfc31 : Breakdown.Constraint → Constraint
  | .properties names => .properties names
  | .not c => .not [toRfc31 c]
  | .and c d => .and [toRfc31 c, toRfc31 d]

/-- The constraint that `handle_proposal_state` sends, if any. -/
def newConstraint (disableFluxion drainComputeNodes : Bool) : Option Constraint :=
  (Breakdown.newConstraint disableFluxion drainComputeNodes).map toRfc31

/-! ### What they match -/

section Matches
variable (emptyOr : Bool) (node : Node)

/-- The constraints of a job, if it has any, match the node. -/
def Jobspec.allows (job : Jobspec) : Bool := job.constraints.all (Constraint.matches emptyOr node)

theorem satisfies_rabbit : node.satisfies "rabbit" = node.properties "rabbit" := rfl

theorem matches_generateConstraints (job : Jobspec) (c : Constraint) :
    (generateConstraints job c).matches emptyOr node =
      ((job.allows emptyOr node && c.matches emptyOr node) || (job.allowRabbits && node.properties "rabbit")) := by
  obtain ⟨dw, allowRabbits, constraints⟩ := job
  unfold generateConstraints Jobspec.allows
  cases constraints <;> cases allowRabbits <;>
    simp [matches_or, matches_and, matches_property, satisfies_rabbit, Bool.or_comm]

theorem allows_resourceUpdate (job : Jobspec) (c : Constraint) : (job.resourceUpdate (some c)).allows emptyOr node =
    ((job.allows emptyOr node && c.matches emptyOr node) || (job.allowRabbits && node.properties "rabbit")) :=
  matches_generateConstraints emptyOr node job c

/-- The constraints of the service keep a job off the rabbits that are down, and without Fluxion
off those that are allocated. -/
theorem matches_newConstraint (disableFluxion drainComputeNodes : Bool) :
    (newConstraint disableFluxion drainComputeNodes).all (Constraint.matches emptyOr node) =
      ((!(disableFluxion || !drainComputeNodes) || !node.properties Breakdown.excludeProperty) &&
        (!disableFluxion || !node.properties Rabbit.allocatedProperty)) := by
  have hexclude : node.satisfies Breakdown.excludeProperty = node.properties Breakdown.excludeProperty := rfl
  have hallocated : node.satisfies Rabbit.allocatedProperty = node.properties Rabbit.allocatedProperty := rfl
  cases disableFluxion <;> cases drainComputeNodes <;>
    simp [newConstraint, Breakdown.newConstraint, toRfc31, matches_and, matches_not, matches_property, hexclude,
      hallocated]

/-- A second update changes nothing. -/
theorem generateConstraints_again (job : Jobspec) (c : Constraint) :
    (generateConstraints (job.resourceUpdate (some c)) c).matches emptyOr node =
      (generateConstraints job c).matches emptyOr node := by
  have hallow : (job.resourceUpdate (some c)).allowRabbits = job.allowRabbits := rfl
  rw [matches_generateConstraints, hallow, allows_resourceUpdate, matches_generateConstraints]
  cases job.allows emptyOr node <;> cases c.matches emptyOr node <;> cases job.allowRabbits <;>
    cases node.properties "rabbit" <;> rfl

/-- An update of the constraints that the frobnicator has rewritten. -/
theorem resourceUpdate_frob (existing c : Constraint) :
    (frob {allowRabbits := true, constraints := some existing}).toOption.map
        (fun job => (job.resourceUpdate (some c)).allows emptyOr node) =
      some ((existing.matches emptyOr node && c.matches emptyOr node) || node.properties "rabbit") := by
  have hfrob : frob {allowRabbits := true, constraints := some existing} =
      .ok {allowRabbits := true, constraints := some (.or [existing, .properties ["rabbit"]])} := rfl
  rw [hfrob]
  show some (Jobspec.allows _ _ (Jobspec.resourceUpdate _ _)) = _
  rw [allows_resourceUpdate]
  show some ((Constraint.matches _ _ (.or [existing, .properties ["rabbit"]]) && _) || _) = _
  rw [matches_or, matches_property, satisfies_rabbit]
  cases existing.matches emptyOr node <;> cases c.matches emptyOr node <;> cases node.properties "rabbit" <;> rfl

end Matches

/-- **The constraints mean what they should**: the nodes of both constraints and, where they are
allowed, the rabbits; so does the same update again, and one behind the frobnicator. -/
theorem constraints_mean (emptyOr : Bool) (job : Jobspec) (c : Constraint) :
    (∀ node, (generateConstraints job c).matches emptyOr node =
      ((job.allows emptyOr node && c.matches emptyOr node) || (job.allowRabbits && node.properties "rabbit"))) ∧
    Equivalent emptyOr (generateConstraints (job.resourceUpdate (some c)) c) (generateConstraints job c) ∧
    ∀ existing node, (frob {allowRabbits := true, constraints := some existing}).toOption.map
        (fun job => (job.resourceUpdate (some c)).allows emptyOr node) =
      some ((existing.matches emptyOr node && c.matches emptyOr node) || node.properties "rabbit") :=
  ⟨fun node => matches_generateConstraints emptyOr node job c,
    fun node => generateConstraints_again emptyOr node job c,
    fun existing node => resourceUpdate_frob emptyOr node existing c⟩

end FluxCoral2.Constraints
