import FluxCoral2.Dws.Mounts

/-! Which nodes a listing of ClientMounts is held against (`get_clientmounts_not_in_state`).

A compute is to be blamed for its own resource, which has no mounts to inspect or one that is
not in the state. But a resource with a field missing is held against its node before its name
is looked at, and so a rabbit may be blamed. `blames_exactly_iff`: the list is right exactly if
such nodes are to be blamed for another resource. -/
namespace FluxCoral2.Dws

/-! ### What is to be blamed -/

/-- The mount is not in the state, or not ready; a missing field counts as bad. -/
def Mount.Bad (desiredState : String) (mount : Mount) : Prop :=
  mount.state ≠ some desiredState ∨ mount.ready ≠ some true

def Mounts.Bad (desiredState : String) : Mounts → Prop
  | .missing => True
  | .uninspectable => True
  | .list mounts => ∃ mount ∈ mounts, mount.Bad desiredState

/-- The resource is a compute's. -/
def ClientMount.OfCompute (resource : ClientMount) : Prop := resource.name.any isComputes = true

/-- A compute's resource with this node is bad. -/
def Blamed (desiredState : String) (resources : List ClientMount) (node : String) : Prop :=
  ∃ resource ∈ resources, resource.node = some node ∧ resource.OfCompute ∧ resource.mounts.Bad desiredState

/-- The list has the nodes that are to be blamed, and so no node of rabbits' resources only. -/
def BlamesExactly (desiredState : String) (resources : List ClientMount) : Prop :=
  ∀ node, node ∈ getClientmountsNotInState desiredState (some resources) ↔ Blamed desiredState resources node

/-- A field is missing that is asked for before the name is looked at, and the name is no compute's. -/
def ClientMount.SkipsFilter (resource : ClientMount) : Prop :=
  ¬ resource.OfCompute ∧ (resource.name = none ∨ resource.mounts = .missing)

/-! ### What a resource puts on the list -/

section Resources
variable {desiredState node : String} {resource : ClientMount} {resources : List ClientMount}

theorem mountsBad_iff (mounts : List Mount) :
    mountsBad desiredState mounts = true ↔ ∃ mount ∈ mounts, mount.Bad desiredState := by
  induction mounts with
  | nil => exact iff_of_false nofun fun ⟨_, h, _⟩ => nomatch h
  | cons mount rest ih =>
    have hfirst : mountsBad desiredState (mount :: rest) = true ↔
        mount.Bad desiredState ∨ mountsBad desiredState rest = true := by
      obtain ⟨state, ready⟩ := mount
      cases state with
      | none => simp [mountsBad, Mount.Bad]
      | some state =>
        by_cases hs : state = desiredState
        · cases ready with
          | none => simp [mountsBad, Mount.Bad]
          | some ready => cases ready <;> simp [mountsBad, Mount.Bad, hs]
        · simp [mountsBad, Mount.Bad, hs]
    rw [hfirst, ih, List.exists_mem_cons_iff]

/-- A resource is held against its node if it is bad and a compute's, or not filtered. -/
theorem nodeNotInState_iff : nodeNotInState desiredState resource = some node ↔ resource.node = some node ∧
    (resource.OfCompute ∧ resource.mounts.Bad desiredState ∨ resource.SkipsFilter) := by
  obtain ⟨own, name, mounts⟩ := resource
  unfold nodeNotInState ClientMount.SkipsFilter ClientMount.OfCompute
  cases own with
  | none => simp
  | some own =>
    cases name with
    | none => cases mounts <;> simp
    | some name =>
      cases hc : isComputes name <;> cases mounts <;> simp [hc, Mounts.Bad, mountsBad_iff, and_comm]

theorem mem_getClientmountsNotInState : node ∈ getClientmountsNotInState desiredState (some resources) ↔
    Blamed desiredState resources node ∨ ∃ resource ∈ resources, resource.node = some node ∧ resource.SkipsFilter := by
  have hlist : node ∈ getClientmountsNotInState desiredState (some resources) ↔
      ∃ resource ∈ resources, nodeNotInState desiredState resource = some node := List.mem_filterMap
  rw [hlist]
  constructor
  · rintro ⟨resource, hmem, hr⟩
    obtain ⟨hnode, ⟨hcompute, hbad⟩ | hskips⟩ := nodeNotInState_iff.mp hr
    · exact .inl ⟨resource, hmem, hnode, hcompute, hbad⟩
    · exact .inr ⟨resource, hmem, hnode, hskips⟩
  · rintro (⟨resource, hmem, hnode, hcompute, hbad⟩ | ⟨resource, hmem, hnode, hskips⟩)
    · exact ⟨resource, hmem, nodeNotInState_iff.mpr ⟨hnode, .inl ⟨hcompute, hbad⟩⟩⟩
    · exact ⟨resource, hmem, nodeNotInState_iff.mpr ⟨hnode, .inr hskips⟩⟩

end Resources

/-! ### The result -/

/-- **The right nodes are blamed** exactly if each node whose resource lacks a field before the
filter, and is not known to be a compute's, is to be blamed for another resource. -/
theorem blames_exactly_iff (desiredState : String) (resources : List ClientMount) :
    BlamesExactly desiredState resources ↔ ∀ resource ∈ resources, resource.SkipsFilter →
      ∀ node, resource.node = some node → Blamed desiredState resources node := by
  constructor
  · intro h resource hmem hskips node hnode
    exact (h node).mp (mem_getClientmountsNotInState.mpr (.inr ⟨resource, hmem, hnode, hskips⟩))
  · intro h node
    rw [mem_getClientmountsNotInState]
    refine or_iff_left_of_imp ?_
    rintro ⟨resource, hmem, hnode, hskips⟩
    exact h resource hmem hskips node hnode

/-- The ClientMount of a rabbit, before it has a status. -/
def freshRabbitMount : ClientMount := ⟨some "rabbit1", some "default-fluxjob-1-rabbit", .missing⟩

theorem freshRabbitMount_blamed : ¬ BlamesExactly "unmounted" [freshRabbitMount] := by
  intro h
  obtain ⟨resource, hmem, -, hcompute, -⟩ := (h "rabbit1").mp (by decide)
  rw [List.mem_singleton.mp hmem] at hcompute
  exact absurd hcompute (by unfold ClientMount.OfCompute freshRabbitMount; decide)

end FluxCoral2.Dws
