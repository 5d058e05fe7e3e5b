import FluxCoral2.Dws.Proposal

/-! Repeated Proposal events (`directivebreakdown.py`, `coral2_dws.py`).

The service handles the Proposal state of a workflow again after a restart, with the
resources that it has sent for the job before. `apply_breakdowns` then takes an ssd below
a slot or chassis for its own, and adds none. `alreadyApplied_of_adds`: whatever either
modifier makes of an accepted entry is recognized, so that one event at most adds storage:
`storage_added_once`. -/
namespace FluxCoral2.Breakdown
open Library

/-! ### The ssds of a jobspec -/

mutual

/-- The ssd entries, at every depth. -/
def Resource.ssds : Resource → List Resource
  | .mk type count label exclusive subs =>
    (if type = .ssd then [.mk type count label exclusive subs] else []) ++ ssdsBelow subs

def ssdsBelow : Option (List Resource) → List Resource
  | none => []
  | some subs => ssds subs

def ssds : List Resource → List Resource
  | [] => []
  | r :: rest => r.ssds ++ ssds rest

end

mutual

/-- How many ssds an entry asks for, each as often as what it is below. -/
def Resource.ssdCount : Resource → Nat
  | .mk type count _ _ subs => count * ((if type = .ssd then 1 else 0) + ssdCountBelow subs)

def ssdCountBelow : Option (List Resource) → Nat
  | none => 0
  | some subs => ssdCount subs

def ssdCount : List Resource → Nat
  | [] => 0
  | r :: rest => r.ssdCount + ssdCount rest

end

/-- An ssd entry is new, or there more often than before. -/
def AddsSsd (resources resources' : List Resource) : Prop := ¬ (ssds resources').Subperm (ssds resources)

theorem not_addsSsd (resources : List Resource) : ¬ AddsSsd resources resources := fun h => h (List.Subperm.refl _)

/-! ### What has been updated -/

theorem hasSsd_append {top : ResourceType} {subs : List Resource} (h : hasSsd top subs = .ok false) (count : Nat) :
    hasSsd top (subs ++ [ssdResources count]) = .ok true := by
  induction subs with
  | nil => simp [hasSsd]
  | cons sub rest ih =>
    rw [hasSsd] at h
    split at h
    · cases h
    · split at h
      · cases h
      · rw [List.cons_append, hasSsd, if_neg ‹_›, if_neg ‹_›]
        exact ih h

/-- A single entry below a chassis is not looked at, but it is the node. -/
theorem hasSsd_of_alreadyApplied {first node : Resource} {subs : List Resource} (htype : first.type = .chassis)
    (hsubs : first.subs = some subs) (happlied : alreadyApplied first = .ok false)
    (hnode : (subs.find? fun sub => sub.type = .node) = some node) : hasSsd first.type subs = .ok false := by
  simp only [alreadyApplied, htype, or_true, if_true, hsubs] at happlied
  rw [htype]
  split at happlied
  · exact happlied
  · have hmem := List.mem_of_find?_eq_some hnode
    have hone : subs.length = 1 := by
      have hpos := List.length_pos_of_mem hmem
      omega
    obtain ⟨sub, rfl⟩ := List.length_eq_one_iff.mp hone
    obtain rfl := List.mem_singleton.mp hmem
    have hsub : node.type = .node := by simpa using List.find?_some hnode
    exact hasSsd_false (by simp [hsub])

theorem alreadyApplied_slot (first : Resource) (htype : first.type = .node) (nodecount count : Nat) :
    alreadyApplied (.mk .slot nodecount (some "rabbit") false (some [first.setCount 1, ssdResources count])) =
      .ok true := by
  simp [alreadyApplied, hasSsd, htype]

theorem alreadyApplied_chassis {first node : Resource} {subs : List Resource} (htype : first.type = .chassis)
    (hsubs : first.subs = some subs) (happlied : alreadyApplied first = .ok false)
    (hnode : (subs.find? fun sub => sub.type = .node) = some node) (count : Nat) :
    alreadyApplied (first.setSubs (subs ++ [ssdResources count])) = .ok true := by
  have hne : 0 < subs.length := List.length_pos_of_mem (List.mem_of_find?_eq_some hnode)
  have hssd := hasSsd_append (hasSsd_of_alreadyApplied htype hsubs happlied hnode) count
  rw [htype] at hssd
  simp [alreadyApplied, htype, hne, hssd]

/-! ### One call -/

/-- A modifier is for an entry of its own kind; below a chassis there is a node. -/
def Modifier.Fits (first : Resource) : Modifier → Prop
  | .node _ => first.type = .node
  | .chassis _ _ => first.type = .chassis ∧
      ∃ subs node, first.subs = some subs ∧ (subs.find? fun sub => sub.type = .node) = some node

theorem jobspecModifier_fits {first : Resource} {minSize : Nat} {m : Modifier}
    (h : jobspecModifier first minSize = .ok m) : m.Fits first := by
  rw [jobspecModifier] at h
  split at h
  · split at h
    · cases h
    · rename_i htype _ subs hsubs
      unfold chassisJobspecModifier at h
      split at h
      · rename_i node hnode
        obtain rfl := Except.ok.inj h
        exact ⟨htype, subs, node, hsubs, hnode⟩
      · split at h <;> cases h
  · split at h
    · rename_i htype
      obtain rfl := Except.ok.inj h
      exact htype
    · cases h

theorem applyAllocation_fits {first : Resource} {m m' : Modifier} {a : AllocSet} (hm : m.Fits first)
    (h : m.applyAllocation a = .ok m') : m'.Fits first := by
  cases m with
  | node modifier =>
    obtain ⟨next, -, h⟩ := Prog.bind_ok h
    obtain rfl := Except.ok.inj h
    exact hm
  | chassis modifier nodesPerChassis =>
    obtain ⟨⟨capacity, limited⟩, -, h⟩ := Prog.bind_ok h
    obtain rfl := Except.ok.inj h
    exact hm

theorem applyBreakdown_fits {first : Resource} {m m' : Modifier} {b : DirectiveBreakdown} (hm : m.Fits first)
    (h : m.applyBreakdown b = .ok m') : m'.Fits first := by
  unfold Modifier.applyBreakdown at h
  split at h
  · cases h
  · split at h
    · cases h
    · exact Prog.foldlM_ok (fun m a m' hm h => applyAllocation_fits hm h) hm (Prog.mapError_ok h)

/-- The check recognizes the resources. -/
def Applied (resources : List Resource) : Prop :=
  ∃ first rest, resources = first :: rest ∧ alreadyApplied first = .ok true

/-- New resources are recognized, whichever modifier has made them. -/
theorem getNewResources_applied {first : Resource} {m : Modifier} {maximums : Maximums} {resources : List Resource}
    (hm : m.Fits first) (happlied : alreadyApplied first = .ok false)
    (h : m.getNewResources maximums first = .ok (some resources)) : Applied resources := by
  cases m with
  | node modifier =>
    rw [Modifier.getNewResources] at h
    split at h
    · cases h
    · obtain ⟨⟨⟩, -, h⟩ := Prog.bind_ok h
      obtain rfl := Option.some.inj (Except.ok.inj h)
      exact ⟨_, [], rfl, alreadyApplied_slot first hm _ _⟩
  | chassis modifier nodesPerChassis =>
    obtain ⟨htype, subs, node, hsubs, hnode⟩ := hm
    rw [Modifier.getNewResources] at h
    split at h
    · cases h
    · obtain ⟨⟨⟩, -, h⟩ := Prog.bind_ok h
      obtain rfl := Option.some.inj (Except.ok.inj h)
      rw [hsubs]
      exact ⟨_, [], rfl, alreadyApplied_chassis htype hsubs happlied hnode _⟩

/-- What `apply_breakdowns` returns is what it was given, or recognized by a later call. -/
theorem applyBreakdowns_some {maximums : Maximums} {minSize : Nat} {breakdowns : List DirectiveBreakdown}
    {resources updated : List Resource}
    (h : applyBreakdowns maximums minSize breakdowns resources = .ok (some updated)) :
    updated = resources ∨ Applied updated := by
  cases resources with
  | nil => cases h
  | cons first rest =>
    obtain ⟨applied, happlied, h⟩ := Prog.bind_ok h
    cases applied with
    | true => cases h
    | false =>
      simp only [Bool.false_eq_true, if_false] at h
      split at h
      · cases h
      · obtain ⟨m, hm, h⟩ := Prog.bind_ok h
        obtain ⟨m', hm', h⟩ := Prog.bind_ok h
        obtain ⟨new, hnew, h⟩ := Prog.bind_ok h
        obtain rfl := Option.some.inj (Except.ok.inj h)
        have hfits := Prog.foldlM_ok (fun m b m' hm h => applyBreakdown_fits hm h) (jobspecModifier_fits hm) hm'
        cases new with
        | none => exact .inl rfl
        | some new => exact .inr (getNewResources_applied hfits happlied (Prog.mapError_ok hnew))

theorem applyBreakdowns_applied {resources : List Resource} (h : Applied resources) (maximums : Maximums)
    (minSize : Nat) (breakdowns : List DirectiveBreakdown) :
    applyBreakdowns maximums minSize breakdowns resources = .ok none := by
  obtain ⟨first, rest, rfl, happlied⟩ := h
  rw [applyBreakdowns, happlied]
  rfl

/-! ### Events of one job -/

/-- A Proposal event, with the configuration of the service that handles it. -/
structure ProposalEvent where
  settings : Settings
  breakdowns : List DirectiveBreakdown

section Events
variable (repr : String → String) (id : Nat)

/-- The resources of the job after an event, those of the request that is sent. -/
def ProposalEvent.next (event : ProposalEvent) (resources : List Resource) : List Resource :=
  match handleProposalState repr event.settings id event.breakdowns resources with
  | .ok (some update) => update.resources
  | _ => resources

def resourcesAt (events : Nat → ProposalEvent) (resources : List Resource) : Nat → List Resource
  | 0 => resources
  | k + 1 => (events k).next repr id (resourcesAt events resources k)

/-- An event sends what the job has, or what `apply_breakdowns` returns. -/
theorem next_cases (event : ProposalEvent) (resources : List Resource) :
    event.next repr id resources = resources ∨
      applyBreakdowns event.settings.maximums event.settings.minAllocationSize event.breakdowns resources =
        .ok (some (event.next repr id resources)) := by
  unfold ProposalEvent.next
  split
  · rename_i update hupdate
    obtain ⟨⟨sent, errmsg⟩, hsent, hupdate⟩ := Prog.bind_ok hupdate
    cases sent with
    | none => cases hupdate
    | some sent =>
      obtain rfl := Option.some.inj (Except.ok.inj hupdate)
      cases hd : event.settings.disableFluxion with
      | true =>
        simp only [updatedResources, hd, if_true] at hsent
        obtain ⟨hsent, -⟩ := Prod.mk.inj (Except.ok.inj hsent)
        exact .inl (Option.some.inj hsent).symm
      | false =>
        rcases updatedResources_ok repr event.settings hd hsent with ⟨happly, -⟩ | ⟨message, -, hsent, -⟩
        · exact .inr happly
        · exact .inl (Option.some.inj hsent)
  · exact .inl rfl

theorem next_applied {resources : List Resource} (h : Applied resources) (event : ProposalEvent) :
    event.next repr id resources = resources := by
  refine (next_cases repr id event resources).resolve_right fun hnext => ?_
  rw [applyBreakdowns_applied h] at hnext
  cases hnext

/-- Whatever an event adds is recognized by the next. -/
theorem next_adds {event : ProposalEvent} {resources : List Resource}
    (h : AddsSsd resources (event.next repr id resources)) : Applied (event.next repr id resources) := by
  rcases next_cases repr id event resources with hsame | hnext
  · rw [hsame] at h
    exact absurd h (not_addsSsd resources)
  · refine (applyBreakdowns_some hnext).resolve_left fun hsame => ?_
    rw [hsame] at h
    exact not_addsSsd resources h

theorem resourcesAt_applied {events : Nat → ProposalEvent} {resources : List Resource} {i : Nat}
    (h : Applied (resourcesAt repr id events resources i)) (k : Nat) :
    resourcesAt repr id events resources (i + k) = resourcesAt repr id events resources i := by
  induction k with
  | zero => rfl
  | succ k ih =>
    show (events (i + k)).next repr id (resourcesAt repr id events resources (i + k)) = _
    rw [ih]
    exact next_applied repr id h _

end Events

/-- **Storage is added once**: a call finds what another has added, and of the events of a job
one at most adds an ssd, after which what is asked for is fixed. -/
theorem storage_added_once :
    (∀ (maximums maximums' : Maximums) (minSize minSize' : Nat) (w₁ w₂ : List DirectiveBreakdown)
      (resources r₁ : List Resource), applyBreakdowns maximums minSize w₁ resources = .ok (some r₁) →
      AddsSsd resources r₁ → applyBreakdowns maximums' minSize' w₂ r₁ = .ok none) ∧
    ∀ (repr : String → String) (id : Nat) (events : Nat → ProposalEvent) (resources : List Resource) (i : Nat),
      AddsSsd (resourcesAt repr id events resources i) (resourcesAt repr id events resources (i + 1)) →
      (∀ j, AddsSsd (resourcesAt repr id events resources j) (resourcesAt repr id events resources (j + 1)) → j = i) ∧
      ∀ k, i < k → resourcesAt repr id events resources k = resourcesAt repr id events resources (i + 1) ∧
        ssdCount (resourcesAt repr id events resources k) =
          ssdCount (resourcesAt repr id events resources (i + 1)) := by
  constructor
  · intro maximums maximums' minSize minSize' w₁ w₂ resources r₁ hcall hadds
    refine applyBreakdowns_applied ((applyBreakdowns_some hcall).resolve_left fun hsame => ?_) _ _ _
    rw [hsame] at hadds
    exact not_addsSsd resources hadds
  · intro repr id events resources i hadds
    have hfixed {i k : Nat}
        (hadds : AddsSsd (resourcesAt repr id events resources i) (resourcesAt repr id events resources (i + 1)))
        (hk : i < k) : resourcesAt repr id events resources k = resourcesAt repr id events resources (i + 1) := by
      obtain ⟨d, rfl⟩ := Nat.exists_eq_add_of_lt hk
      have happlied : Applied (resourcesAt repr id events resources (i + 1)) := next_adds repr id hadds
      rw [Nat.add_right_comm]
      exact resourcesAt_applied repr id happlied d
    have hlater {i j : Nat}
        (hi : AddsSsd (resourcesAt repr id events resources i) (resourcesAt repr id events resources (i + 1)))
        (hj : AddsSsd (resourcesAt repr id events resources j) (resourcesAt repr id events resources (j + 1))) :
        ¬ i < j := by
      intro hlt
      rw [hfixed hi hlt, hfixed hi (Nat.lt_succ_of_lt hlt)] at hj
      exact not_addsSsd _ hj
    refine ⟨fun j hj => ?_, fun k hk => ⟨hfixed hadds hk, congrArg ssdCount (hfixed hadds hk)⟩⟩
    exact Nat.le_antisymm (Nat.le_of_not_lt (hlater hadds hj)) (Nat.le_of_not_lt (hlater hj hadds))

/-- A job of two nodes asks for 16 GiB on each. -/
def everyTime : Nat → ProposalEvent := fun _ => ⟨{}, oneAllocation .xfs 16⟩

def twoNodesUpdated : List Resource :=
  [.mk .slot 2 (some "rabbit") false (some [.mk .node 1 none false none, ssdResources 16])]

theorem twoNodes_adds : AddsSsd (nodes 2) twoNodesUpdated := by
  intro h
  exact absurd h.length_le (by decide)

/-- The second event of the job finds the ssds of the first. -/
theorem twoNodes_added_once : applyBreakdowns {} 4 (oneAllocation .xfs 16) twoNodesUpdated = .ok none ∧
    ∀ k, 0 < k → resourcesAt quoted 7 everyTime (nodes 2) k = resourcesAt quoted 7 everyTime (nodes 2) 1 ∧
      ssdCount (resourcesAt quoted 7 everyTime (nodes 2) k) = ssdCount (resourcesAt quoted 7 everyTime (nodes 2) 1) :=
  ⟨storage_added_once.1 {} {} 4 4 (oneAllocation .xfs 16) (oneAllocation .xfs 16) (nodes 2) twoNodesUpdated rfl
      twoNodes_adds,
    (storage_added_once.2 quoted 7 everyTime (nodes 2) 0 twoNodes_adds).2⟩

end FluxCoral2.Breakdown
