import Mathlib.Data.List.Basic

/-! Which nodes of a job have failed (`coral2_dws.py`).

A listing of the job's ClientMount resources gives the computes whose mounts are not
in a state; a listing of its Servers gives the rabbits whose allocation meets a
condition. A listing that fails counts as empty, and a field that is missing is either
held against the node or passed over. -/
namespace FluxCoral2.Dws

/-- An entry of `status.mounts`; a field may be missing. -/
structure Mount where
  state : Option String
  ready : Option Bool
  deriving DecidableEq

/-- The `mounts` field of a resource: missing, not a list of mounts, or a list. -/
inductive Mounts
  | missing
  | uninspectable
  | list (mounts : List Mount)
  deriving DecidableEq

structure ClientMount where
  node : Option String
  name : Option String
  mounts : Mounts
  deriving DecidableEq

/-- CLIENTMOUNT_NAME: the resource is a compute's. -/
def isComputes (name : String) : Bool := "-computes".toList.isSuffixOf name.toList

/-- The loop over the mounts of a resource: whether its node goes on the list. A mount
with a field missing counts as bad. -/
def mountsBad (desiredState : String) : List Mount → Bool
  | [] => false
  | mount :: rest =>
    match mount.state with
    | none => true
    | some state =>
      if state ≠ desiredState then true
      else
        match mount.ready with
        | none => true
        | some ready => if !ready then true else mountsBad desiredState rest

/-- The node a resource puts on the list, if any. -/
def nodeNotInState (desiredState : String) (resource : ClientMount) : Option String :=
  match resource.node with
  | none => none
  | some node =>
    match resource.name, resource.mounts with
    | none, _ => some node
    | _, .missing => some node
    | some name, .uninspectable => if isComputes name then some node else none
    | some name, .list mounts =>
      if isComputes name && mountsBad desiredState mounts then some node else none

/-- `get_clientmounts_not_in_state`; the listing is `none` when it fails. -/
def getClientmountsNotInState (desiredState : String) (clientmounts : Option (List ClientMount)) :
    List String :=
  match clientmounts with
  | none => []
  | some resources => resources.filterMap (nodeNotInState desiredState)

/-- A rabbit's entry in an allocation set of a Servers resource. -/
structure AllocInfo where
  ready : Option Bool
  allocationSize : Nat
  deriving DecidableEq

/-- The allocation sets of a Servers resource, each with what it has of every rabbit; an
entry without the expected layout is `none`. -/
abbrev Servers := List (Option (List (String × AllocInfo)))

/-- The rabbits of one resource that meet the condition; an entry without the expected
layout ends the resource. -/
def rabbitsOfResource (condition : AllocInfo → Bool) : Servers → List String
  | [] => []
  | none :: _ => []
  | some storage :: rest =>
    (storage.filter fun e => condition e.2).map Prod.fst ++ rabbitsOfResource condition rest

/-- `get_servers_with_condition`; the listing is `none` when it fails. -/
def getServersWithCondition (condition : AllocInfo → Bool) (servers : Option (List Servers)) :
    List String :=
  match servers with
  | none => []
  | some resources => resources.flatMap (rabbitsOfResource condition)

/-- The condition of `setup_timeout_cb`: `not x.get("ready")`. -/
def notReady (info : AllocInfo) : Bool := !info.ready.getD false

end FluxCoral2.Dws
