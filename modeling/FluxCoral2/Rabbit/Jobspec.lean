import FluxCoral2.Rabbit.Breakdown

/-! The resources of a jobspec (`directivebreakdown.py`, `chassis.py`).

Before a job with rabbit storage is scheduled, `apply_breakdowns` adds the ssds it needs
to its resources: below a new slot with a node each, or below the chassis into which
`--coral2-chassis` has split the nodes. The quotients here are doubles. -/
namespace FluxCoral2.Breakdown
open Library

/-! ### Resources -/

inductive ResourceType
  | slot
  | chassis
  | node
  | ssd
  | storageNode
  | core
  | other (name : String)
  deriving DecidableEq

def ResourceType.name : ResourceType → String
  | .slot => "slot"
  | .chassis => "chassis"
  | .node => "node"
  | .ssd => "ssd"
  | .storageNode => "storage_node"
  | .core => "core"
  | .other name => name

/-- An entry of a jobspec's resources; `subs` is its `with`. -/
inductive Resource
  | mk (type : ResourceType) (count : Nat) (label : Option String) (exclusive : Bool)
      (subs : Option (List Resource))

namespace Resource

def type : Resource → ResourceType
  | mk type _ _ _ _ => type

def count : Resource → Nat
  | mk _ count _ _ _ => count

def subs : Resource → Option (List Resource)
  | mk _ _ _ _ subs => subs

def setCount (count : Nat) : Resource → Resource
  | mk type _ label exclusive subs => mk type count label exclusive subs

def setSubs (subs : List Resource) : Resource → Resource
  | mk type count label exclusive _ => mk type count label exclusive (some subs)

@[simp] theorem type_mk (t : ResourceType) (n : Nat) (l : Option String) (e : Bool) (subs : Option (List Resource)) :
    (mk t n l e subs).type = t := rfl

@[simp] theorem count_mk (t : ResourceType) (n : Nat) (l : Option String) (e : Bool) (subs : Option (List Resource)) :
    (mk t n l e subs).count = n := rfl

@[simp] theorem subs_mk (t : ResourceType) (n : Nat) (l : Option String) (e : Bool) (subs : Option (List Resource)) :
    (mk t n l e subs).subs = subs := rfl

@[simp] theorem type_setCount (n : Nat) (r : Resource) : (r.setCount n).type = r.type := by cases r; rfl

@[simp] theorem count_setCount (n : Nat) (r : Resource) : (r.setCount n).count = n := by cases r; rfl

@[simp] theorem type_setSubs (subs : List Resource) (r : Resource) : (r.setSubs subs).type = r.type := by
  cases r; rfl

@[simp] theorem count_setSubs (subs : List Resource) (r : Resource) : (r.setSubs subs).count = r.count := by
  cases r; rfl

@[simp] theorem subs_setSubs (subs : List Resource) (r : Resource) : (r.setSubs subs).subs = some subs := by
  cases r; rfl

/-- The count of the entries of a type. -/
def countOf (t : ResourceType) (resources : List Resource) : Nat :=
  ((resources.filter fun r => r.type = t).map count).sum

/-- How many of a type an entry asks for, itself or below a slot or chassis. -/
def total (t : ResourceType) (r : Resource) : Nat :=
  if r.type = t then r.count
  else if r.type = .slot ∨ r.type = .chassis then r.count * countOf t (r.subs.getD [])
  else 0

@[simp] theorem countOf_nil (t : ResourceType) : countOf t [] = 0 := rfl

@[simp] theorem countOf_cons (t : ResourceType) (r : Resource) (rest : List Resource) :
    countOf t (r :: rest) = (if r.type = t then r.count else 0) + countOf t rest := by
  by_cases h : r.type = t <;> simp [countOf, h]

@[simp] theorem countOf_append (t : ResourceType) (xs ys : List Resource) :
    countOf t (xs ++ ys) = countOf t xs + countOf t ys := by
  simp [countOf]

end Resource

def total (t : ResourceType) (resources : List Resource) : Nat := (resources.map (Resource.total t)).sum

theorem total_singleton (t : ResourceType) (r : Resource) : total t [r] = r.total t := by simp [total]

/-- How `apply_breakdowns` and the plugin fail. -/
inductive Error
  | failure (failure : Failure)
  | runtimeError (message : String)
  | indexError
  deriving DecidableEq

def raiseValueError {α : Type} (message : String) : Except Error α := .error (.failure (.valueError message))

/-- `repr` of a name. -/
def quoted (name : String) : String := "'" ++ name ++ "'"

/-! ### Limits -/

/-- The maximums that are set, the class attributes of `ResourceLimits`. -/
structure Maximums where
  xfs : Option Nat := none
  gfs2 : Option Nat := none
  lustre : Option Nat := none
  raw : Option Nat := none

def checkRequested (attr : String) (requested : Nat) : Option Nat → Except Failure Unit
  | none => pure ()
  | some allowable =>
    if allowable < requested then
      throw (.valueError ("Requested a total of " ++ toString requested ++ " GiB of " ++ attr ++
        " storage per node but max is " ++ toString allowable ++ " GiB per node"))
    else pure ()

def ResourceLimits.validate (limits : ResourceLimits) (maximums : Maximums) (nodecount : Nat) :
    Except Failure Unit := do
  checkRequested "xfs" limits.xfs maximums.xfs
  checkRequested "gfs2" limits.gfs2 maximums.gfs2
  checkRequested "raw" limits.raw maximums.raw
  if nodecount = 0 then throw .zeroDivisionError
  checkRequested "lustre" (limits.lustre / nodecount) maximums.lustre

/-! ### Modifiers -/

/-- A `NodeJobspecModifier` or a `ChassisJobspecModifier`, without the resources. -/
inductive Modifier
  | node (modifier : JobspecModifier)
  | chassis (modifier : JobspecModifier) (nodesPerChassis : Nat)

def Modifier.base : Modifier → JobspecModifier
  | .node modifier => modifier
  | .chassis modifier _ => modifier

def ssdResources (count : Nat) : Resource := .mk .ssd count none true none

@[simp] theorem type_ssdResources (count : Nat) : (ssdResources count).type = .ssd := rfl

@[simp] theorem count_ssdResources (n : Nat) : (ssdResources n).count = n := rfl

/-- `ChassisJobspecModifier.__init__`. -/
def chassisJobspecModifier (first : Resource) (subs : List Resource) (minSize : Nat) : Except Error Modifier :=
  match subs.find? fun sub => sub.type = .node with
  | some node =>
    .ok (.chassis ⟨minSize, 0, ⟨0, 0, 0, 0⟩, node.count * first.count⟩ node.count)
  | none =>
    match subs with
    | [] => .error .indexError
    | sub :: _ => raiseValueError ("Expected 'node' type below 'chassis, got " ++ sub.type.name)

def Modifier.applyAllocation (allocation : AllocSet) : Modifier → Except Failure Modifier
  | .node modifier => do
    let modifier ← Breakdown.applyAllocation .double modifier allocation
    pure (.node modifier)
  | .chassis modifier nodesPerChassis => do
    let (capacityGb, modifier) ← getCapacityPerNode .double modifier allocation
    pure (.chassis {modifier with ssdCount := modifier.ssdCount + capacityGb * nodesPerChassis} nodesPerChassis)

/-- Nothing is new where no ssd is asked for. -/
def Modifier.getNewResources (maximums : Maximums) (first : Resource) :
    Modifier → Except Failure (Option (List Resource))
  | .node modifier =>
    if modifier.ssdCount = 0 then pure none
    else do
      modifier.limits.validate maximums modifier.nodecount
      pure (some [.mk .slot modifier.nodecount (some "rabbit") false
        (some [first.setCount 1, ssdResources modifier.ssdCount])])
  | .chassis modifier _ =>
    if modifier.ssdCount = 0 then pure none
    else do
      modifier.limits.validate maximums modifier.nodecount
      pure (some [first.setSubs (first.subs.getD [] ++ [ssdResources modifier.ssdCount])])

/-! ### `apply_breakdowns` -/

/-- A breakdown of a directive; one for a persistent file system has no storage. -/
structure DirectiveBreakdown where
  kind : String := "DirectiveBreakdown"
  ready : Bool := true
  storage : Option (List AllocSet)

def DirectiveBreakdown.allocationSets (breakdown : DirectiveBreakdown) : List AllocSet :=
  breakdown.storage.getD []

def Modifier.applyAll (allocations : List AllocSet) (modifier : Modifier) : Except Failure Modifier :=
  allocations.foldlM (fun modifier allocation => modifier.applyAllocation allocation) modifier

def Modifier.applyBreakdown (modifier : Modifier) (breakdown : DirectiveBreakdown) : Except Error Modifier :=
  if breakdown.kind ≠ "DirectiveBreakdown" then
    raiseValueError ("unsupported breakdown kind " ++ quoted breakdown.kind)
  else if !breakdown.ready then .error (.runtimeError "Breakdown marked as not ready")
  else (modifier.applyAll breakdown.allocationSets).mapError .failure

/-- The loop over the entries below a slot or chassis: one of them is an ssd already. -/
def hasSsd (top : ResourceType) : List Resource → Except Error Bool
  | [] => .ok false
  | sub :: rest =>
    if sub.type ∉ [.ssd, .node, .storageNode] then
      raiseValueError ("jobspec resources has top level '" ++ top.name ++ "' entry with " ++ sub.type.name ++
        " below it")
    else if sub.type = .ssd then .ok true
    else hasSsd top rest

/-- The check for a jobspec that has been updated before. -/
def alreadyApplied (first : Resource) : Except Error Bool :=
  if first.type = .slot ∨ first.type = .chassis then
    match first.subs with
    | none => .error (.failure (.keyError "with"))
    | some subs => if 1 < subs.length then hasSsd first.type subs else .ok false
  else .ok false

def jobspecModifier (first : Resource) (minSize : Nat) : Except Error Modifier :=
  if first.type = .chassis then
    match first.subs with
    | none => .error (.failure (.keyError "with"))
    | some subs => chassisJobspecModifier first subs minSize
  else if first.type = .node then .ok (.node (nodeJobspecModifier first.count minSize))
  else
    raiseValueError ("jobspec resources must have a single top-level 'node' or 'chassis' entry, got " ++
      quoted first.type.name)

def applyBreakdowns (maximums : Maximums) (minSize : Nat) (breakdowns : List DirectiveBreakdown) :
    List Resource → Except Error (Option (List Resource))
  | [] => raiseValueError "jobspec resources empty"
  | first :: rest => do
    if ← alreadyApplied first then pure none
    else if rest ≠ [] then
      raiseValueError ("jobspec resources must have a single top-level 'node' or 'chassis' entry, got " ++
        toString (rest.length + 1) ++ " entries")
    else
      let modifier ← jobspecModifier first minSize
      let modifier ← breakdowns.foldlM Modifier.applyBreakdown modifier
      let newResources ← (modifier.getNewResources maximums first).mapError .failure
      pure (some (newResources.getD (first :: rest)))

/-! ### The breakdowns of a workflow -/

structure DirectiveBreakdown.Ready (breakdown : DirectiveBreakdown) : Prop where
  kind_eq : breakdown.kind = "DirectiveBreakdown"
  ready_eq : breakdown.ready = true

/-- The allocations of ready breakdowns are applied in order. -/
theorem foldlM_applyBreakdown {breakdowns : List DirectiveBreakdown} (hready : ∀ b ∈ breakdowns, b.Ready)
    (m : Modifier) : breakdowns.foldlM Modifier.applyBreakdown m =
      (m.applyAll (breakdowns.flatMap DirectiveBreakdown.allocationSets)).mapError Error.failure := by
  induction breakdowns generalizing m with
  | nil => rfl
  | cons b rest ih =>
    have hb := hready b List.mem_cons_self
    have hrest := ih fun b' hb' => hready b' (List.mem_cons_of_mem b hb')
    have happly : m.applyBreakdown b = (m.applyAll b.allocationSets).mapError .failure := by
      unfold Modifier.applyBreakdown
      simp [hb.kind_eq, hb.ready_eq]
    rw [List.foldlM_cons, happly, List.flatMap_cons]
    unfold Modifier.applyAll
    rw [List.foldlM_append]
    cases b.allocationSets.foldlM (fun modifier allocation => modifier.applyAllocation allocation) m with
    | error e => rfl
    | ok next => exact hrest next

/-! ### Accepted resources -/

/-- A single node or chassis entry, of so many nodes, to which no ssd has been added. -/
inductive Accepted : List Resource → Nat → Prop
  | node {first : Resource} (htype : first.type = .node) (hcount : 0 < first.count) : Accepted [first] first.count
  | chassis {first node : Resource} {subs : List Resource} (htype : first.type = .chassis)
    (hsubs : first.subs = some subs) (hother : ∀ sub ∈ subs, sub.type = .node ∨ sub.type = .storageNode)
    (hnode : (subs.find? fun sub => sub.type = .node) = some node) (hcount : 0 < first.count)
    (hnodes : 0 < node.count) : Accepted [first] (node.count * first.count)

theorem hasSsd_false {top : ResourceType} {subs : List Resource}
    (h : ∀ sub ∈ subs, sub.type = .node ∨ sub.type = .storageNode) : hasSsd top subs = .ok false := by
  induction subs with
  | nil => rfl
  | cons sub rest ih =>
    have hrest := ih fun s hs => h s (List.mem_cons_of_mem sub hs)
    rcases h sub List.mem_cons_self with hsub | hsub <;> simp [hasSsd, hsub, hrest]

theorem alreadyApplied_accepted {first : Resource} {nodecount : Nat} (h : Accepted [first] nodecount) :
    alreadyApplied first = .ok false := by
  cases h with
  | node htype _ => simp [alreadyApplied, htype]
  | chassis htype hsubs hother _ _ _ => simp [alreadyApplied, htype, hsubs, hasSsd_false hother]

theorem jobspecModifier_node {first : Resource} (htype : first.type = .node) (minSize : Nat) :
    jobspecModifier first minSize = .ok (.node (nodeJobspecModifier first.count minSize)) := by
  simp [jobspecModifier, htype]

theorem jobspecModifier_chassis {first node : Resource} {subs : List Resource} (htype : first.type = .chassis)
    (hsubs : first.subs = some subs) (hnode : (subs.find? fun sub => sub.type = .node) = some node)
    (minSize : Nat) : jobspecModifier first minSize =
      .ok (.chassis (nodeJobspecModifier (node.count * first.count) minSize) node.count) := by
  simp [jobspecModifier, htype, hsubs, chassisJobspecModifier, hnode, nodeJobspecModifier]

/-- What the allocations make of an entry. -/
def Modifier.modified (maximums : Maximums) (first : Resource) (allocations : List AllocSet) (modifier : Modifier) :
    Except Failure (Option (List Resource)) := do
  let modifier ← modifier.applyAll allocations
  let newResources ← modifier.getNewResources maximums first
  pure (some (newResources.getD [first]))

/-- An accepted entry of a jobspec, and the breakdowns of a workflow. -/
theorem applyBreakdowns_accepted {first : Resource} {minSize : Nat} {m : Modifier}
    {breakdowns : List DirectiveBreakdown} (maximums : Maximums) (happlied : alreadyApplied first = .ok false)
    (hm : jobspecModifier first minSize = .ok m) (hready : ∀ b ∈ breakdowns, b.Ready) :
    applyBreakdowns maximums minSize breakdowns [first] =
      (m.modified maximums first (breakdowns.flatMap DirectiveBreakdown.allocationSets)).mapError .failure := by
  rw [applyBreakdowns, Modifier.modified, happlied, hm, Prog.mapError_bind, ← foldlM_applyBreakdown hready]
  show (breakdowns.foldlM Modifier.applyBreakdown m >>= fun m' =>
    (m'.getNewResources maximums first).mapError Error.failure >>= fun new => pure (some (new.getD [first]))) = _
  congr 1
  funext m'
  rw [Prog.mapError_bind]
  rfl

/-! ### The `--coral2-chassis` option -/

/-- `preinit`, with whether the scheduler is configured, and the nodes if they are given. -/
def preinit (chassis rabbitCores : Nat) (scheduling : Bool) (nodes : Option Nat) : Except Error Unit :=
  if 0 < rabbitCores ∧ chassis = 0 then
    raiseValueError "--coral2-rabbit-compute requires --coral2-chassis=N"
  else if chassis = 0 then .ok ()
  else if !scheduling then .error (.runtimeError "Flux scheduler not configured to support chassis count")
  else
    match nodes with
    | none => raiseValueError "--coral2-chassis option requires -N,--nodes"
    | some nodecount =>
      if nodecount % chassis ≠ 0 then
        raiseValueError ("Nodecount (" ++ toString nodecount ++ ") must be evenly divisible by chassis count (" ++
          toString chassis ++ ")")
      else .ok ()

/-- The cores asked for on each rabbit. -/
def storageNode (rabbitCores : Nat) : Resource :=
  .mk .storageNode 1 none false (some [.mk .core rabbitCores none true none])

def modifyJobspec (chassis rabbitCores : Nat) : List Resource → Except Error (List Resource)
  | [] => if chassis = 0 then .ok [] else .error .indexError
  | first :: rest =>
    if chassis = 0 then .ok (first :: rest)
    else if rest ≠ [] ∨ first.type ≠ .node then
      raiseValueError ("jobspec resources must have a single top-level 'node' entry, got " ++
        toString (rest.length + 1) ++ " entries, first entry " ++ quoted first.type.name)
    else
      .ok [.mk .chassis chassis none false (some (first.setCount (first.count / chassis) ::
        if 0 < rabbitCores then [storageNode rabbitCores] else []))]

end FluxCoral2.Breakdown
