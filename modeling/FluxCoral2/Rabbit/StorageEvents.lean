import FluxCoral2.Rabbit.ResourcePaths
import FluxCoral2.Rabbit.Storage
import FluxCoral2.Rabbit.Watch

/-! Events of Storage objects (`storage.py`).

Kubernetes has one Storage object for a rabbit, with the status of the rabbit and of the
computes behind it. When it changes, a manager drains computes, takes the `badrabbit`
property off some of the rabbit's computes and puts it on the others. A
`FluxionRabbitManager` also marks the ssds of the rabbit as up or down. The two classes
differ in which computes get the property (`downNodes`).

Messages at the debug level are left out, but not the hostlists encoded for them, since a
malformed one is an exception. -/
namespace FluxCoral2.Storage
open Library Rabbit
open K8s (Exn)
open Dws2jgf (FluxionRabbitManager)
open Dws2jgf.FluxionRabbitManager (PropertyRpc SetStatus)

/-! ### Storage objects -/

/-- An entry of `status.access.computes`. -/
structure ComputeNode where
  name : Option String
  status : Option String

/-- The `status` of a Storage object. -/
structure StorageStatus where
  status : Option String := none
  computes : Option (List ComputeNode) := none

/-- A Storage object; a rabbit that has not booted has no `status`. -/
structure StorageObject where
  name : String
  status : Option StorageStatus := none

namespace StorageObject

def getStatus (rabbit : StorageObject) (default : String) : String :=
  (rabbit.status.bind StorageStatus.status).getD default

def computes (rabbit : StorageObject) : List ComputeNode :=
  (rabbit.status.bind StorageStatus.computes).getD []

end StorageObject

/-- The name of a compute that is not ready. -/
def ComputeNode.offline (node : ComputeNode) : Except Exn (Option String) :=
  match node.status with
  | none => .error (.keyError "status")
  | some status =>
    if status = "Ready" then .ok none
    else match node.name with
      | none => .error (.keyError "name")
      | some name => .ok (some name)

/-- `_get_offline_nodes`, a set. -/
def getOfflineNodes (rabbit : StorageObject) : Except Exn (List String) :=
  (rabbit.computes.mapM ComputeNode.offline).map fun nodes => nodes.reduceOption.dedup

/-! ### The manager -/

/-- The payload of a `resource.drain` request. -/
structure DrainRpc where
  targets : List String
  mode : String
  reason : String

/-- What a manager sends, and the messages it logs. -/
inductive Sent
  | drain (rpc : DrainRpc)
  | property (rpc : PropertyRpc)
  | setStatus (rpc : SetStatus)
  | error (message : String)

/-- The `rabbit` table of the configuration. -/
structure RabbitConfig where
  drainComputeNodes : Bool := true
  softDrain : Bool := true

/-- The globals and a manager's own dictionaries; of these, `_rabbit_rpaths` is empty in a
`RabbitManager`. -/
structure Manager where
  layout : Layout
  paths : FluxionRabbitManager
  allowlist : Option (List String) := none
  out : List Sent := []

def Manager.sends (m : Manager) (rpcs : List Sent) : Manager := {m with out := m.out ++ rpcs}

section
variable (m : Manager) (rpcs : List Sent)

@[simp] theorem Manager.sends_layout : (m.sends rpcs).layout = m.layout := rfl

@[simp] theorem Manager.sends_paths : (m.sends rpcs).paths = m.paths := rfl

@[simp] theorem Manager.sends_allowlist : (m.sends rpcs).allowlist = m.allowlist := rfl

@[simp] theorem Manager.sends_out : (m.sends rpcs).out = m.out ++ rpcs := rfl

@[simp] theorem Manager.sends_nil : m.sends [] = m := by simp [Manager.sends]

@[simp] theorem Manager.sends_sends (more : List Sent) : (m.sends rpcs).sends more = m.sends (rpcs ++ more) := by
  simp [Manager.sends]

end

abbrev Cb := Prog Exn Manager

def send (rpcs : List Sent) : Cb Unit := modify (Manager.sends · rpcs)

variable (lib : HostlistPackage) (conf : RabbitConfig)

/-- `Hostlist(nodes)`, to be encoded. -/
def encode (nodes : List String) : Cb (List String) :=
  match hostlist lib nodes with
  | none => throw .valueError
  | some hosts => pure hosts

/-- The offline computes that may be drained. -/
def Manager.allowed (m : Manager) (offlineNodes : List String) : List String :=
  match m.allowlist with
  | none => offlineNodes
  | some allowlist => offlineNodes.filter (· ∈ allowlist)

def drainOfflineNodes (rabbit : StorageObject) : Cb Unit := do
  let m ← get
  let offlineNodes ← Prog.ofExcept (getOfflineNodes rabbit)
  if m.allowed offlineNodes = [] then pure ()
  else do
    let targets ← encode lib (m.allowed offlineNodes)
    send [.drain ⟨targets, "update", "rabbit lost PCIe connection"⟩]

/-- The debug message of `remove_property` and `set_property`, which has the nodes if there are any. -/
def logNodes (nodes : List String) : Cb Unit := if nodes = [] then pure () else discard (encode lib nodes)

/-- `remove_property` and `set_property`. -/
def sendProperty (rpc : FluxionRabbitManager → Option PropertyRpc) (nodes : List String) : Cb Unit := do
  logNodes lib nodes
  let m ← get
  send ((rpc m.paths).toList.map .property)

def removeProperty (upNodes : List String) : Cb Unit := sendProperty lib (·.removeProperty upNodes) upNodes

def setProperty (downNodes : List String) : Cb Unit := sendProperty lib (·.setProperty downNodes) downNodes

/-- `_set_or_remove_property`, of a class with these down nodes. -/
def setOrRemove (downNodes : StorageObject → List String → Except Exn (List String)) (rabbit : StorageObject) :
    Cb Unit := do
  let m ← get
  match m.layout.rabbitsToHostlists.get? rabbit.name with
  | none => throw (.keyError rabbit.name)
  | some allNodes => do
    let down ← Prog.ofExcept (downNodes rabbit allNodes)
    removeProperty lib (allNodes.filter (· ∉ down))
    setProperty lib down

inductive ManagerClass | rabbitManager | fluxionRabbitManager
  deriving DecidableEq

/-- The down nodes of either class. -/
def ManagerClass.downNodes (cls : ManagerClass) (rabbit : StorageObject) (allNodes : List String) :
    Except Exn (List String) :=
  match cls with
  | .rabbitManager =>
    if rabbit.getStatus "Disabled" ≠ "Ready" then .ok allNodes
    else if !conf.drainComputeNodes && conf.softDrain then getOfflineNodes rabbit
    else .ok []
  | .fluxionRabbitManager =>
    if rabbit.getStatus "Disabled" = "Ready" ∧ !conf.drainComputeNodes ∧ conf.softDrain then getOfflineNodes rabbit
    else .ok []

def ManagerClass.setOrRemoveProperty (cls : ManagerClass) (rabbit : StorageObject) : Cb Unit :=
  setOrRemove lib (cls.downNodes conf) rabbit

/-- `RabbitManager.rabbit_state_change_cb`, of an object of either class. -/
def RabbitManager.rabbitStateChangeCb (self : ManagerClass) (rabbit : StorageObject) : Cb Unit := do
  if conf.drainComputeNodes then drainOfflineNodes lib rabbit else pure ()
  self.setOrRemoveProperty lib conf rabbit

def markRabbit (status name : String) : Cb Unit := do
  let m ← get
  match m.paths.markRabbit status name with
  | none => throw (.keyError name)
  | some rpcs => send (rpcs.map .setStatus)

/-- What `FluxionRabbitManager.rabbit_state_change_cb` does after its superclass. -/
def updateRabbit (rabbit : StorageObject) : Cb Unit := do
  let m ← get
  if m.paths.rabbitRpaths.contains rabbit.name then markRabbit (rabbit.getStatus "Down") rabbit.name
  else send [.error ("Encountered an unknown Storage object '" ++ rabbit.name ++ "' in the event stream")]

/-- `rabbit_state_change_cb`. -/
def ManagerClass.rabbitStateChangeCb (cls : ManagerClass) (rabbit : StorageObject) : Cb Unit :=
  match cls with
  | .rabbitManager => RabbitManager.rabbitStateChangeCb lib conf .rabbitManager rabbit
  | .fluxionRabbitManager => do
    RabbitManager.rabbitStateChangeCb lib conf .fluxionRabbitManager rabbit
    updateRabbit rabbit

/-! ### When the parts return -/

/-- All these names are hostlists. -/
def Parses (names : List String) : Prop := ∀ name ∈ names, ∃ hosts, lib.decode name = some hosts

variable {lib conf} {m t : Manager} {u : Unit}

theorem hostlist_eq_some {names : List String} : (∃ hosts, hostlist lib names = some hosts) ↔ Parses lib names := by
  unfold hostlist Parses
  induction names with
  | nil => simp
  | cons name rest ih =>
    rw [List.forall_mem_cons, ← ih, List.mapM_cons]
    cases lib.decode name <;> cases rest.mapM lib.decode <;> simp

@[simp] theorem exec_send (rpcs : List Sent) : Prog.exec (send rpcs) m = (.ok (), m.sends rpcs) := rfl

theorem exec_encode_eq_ok {nodes hosts : List String} :
    Prog.exec (encode lib nodes) m = (.ok hosts, t) ↔ hostlist lib nodes = some hosts ∧ t = m := by
  unfold encode
  cases hostlist lib nodes <;> simp [eq_comm]

/-- What `_drain_offline_nodes` sends. -/
def drained (lib : HostlistPackage) (nodes : List String) : List Sent :=
  if nodes = [] then []
  else [.drain ⟨(hostlist lib nodes).getD [], "update", "rabbit lost PCIe connection"⟩]

theorem exec_drainOfflineNodes_eq_ok {rabbit : StorageObject} :
    Prog.exec (drainOfflineNodes lib rabbit) m = (.ok u, t) ↔ ∃ offlineNodes,
      getOfflineNodes rabbit = .ok offlineNodes ∧ Parses lib (m.allowed offlineNodes) ∧
        t = m.sends (drained lib (m.allowed offlineNodes)) := by
  unfold drainOfflineNodes
  rw [Prog.exec_bind_ok (Prog.exec_get m)]
  cases hoffline : getOfflineNodes rabbit with
  | error e => simp [Prog.exec_bind, Prog.exec_ofExcept]
  | ok offlineNodes =>
    rw [Prog.exec_bind_ok (Prog.exec_ofExcept _ m)]
    by_cases hnil : m.allowed offlineNodes = []
    · rw [if_pos hnil]
      simp [hnil, drained, Parses, eq_comm (a := t)]
    · simp only [Except.ok.injEq, exists_eq_left', ← hostlist_eq_some]
      rw [if_neg hnil, drained, if_neg hnil, Prog.exec_bind_eq_ok]
      simp only [exec_encode_eq_ok, exec_send]
      constructor
      · rintro ⟨hosts, m', ⟨hhosts, rfl⟩, heq⟩
        exact ⟨⟨hosts, hhosts⟩, by simpa [hhosts] using heq.symm⟩
      · rintro ⟨⟨hosts, hhosts⟩, rfl⟩
        exact ⟨hosts, m, ⟨hhosts, rfl⟩, by rw [hhosts]; rfl⟩

theorem exec_logNodes_eq_ok {nodes : List String} :
    Prog.exec (logNodes lib nodes) m = (.ok u, t) ↔ Parses lib nodes ∧ t = m := by
  unfold logNodes
  by_cases hnil : nodes = []
  · rw [if_pos hnil, hnil]
    simp [Parses, eq_comm]
  · rw [if_neg hnil, ← hostlist_eq_some]
    show Prog.exec (encode lib nodes >>= fun _ => pure ()) m = _ ↔ _
    simp only [Prog.exec_bind_eq_ok, exec_encode_eq_ok, Prog.exec_pure]
    simp [eq_comm (a := m)]

theorem exec_sendProperty_eq_ok {rpc : FluxionRabbitManager → Option PropertyRpc} {nodes : List String} :
    Prog.exec (sendProperty lib rpc nodes) m = (.ok u, t) ↔
      Parses lib nodes ∧ t = m.sends ((rpc m.paths).toList.map .property) := by
  unfold sendProperty
  simp only [Prog.exec_bind_eq_ok, exec_logNodes_eq_ok, Prog.exec_get, exec_send]
  simp [and_assoc, eq_comm (a := t)]

theorem exec_setOrRemove_eq_ok {downNodes : StorageObject → List String → Except Exn (List String)}
    {rabbit : StorageObject} : Prog.exec (setOrRemove lib downNodes rabbit) m = (.ok u, t) ↔
      ∃ allNodes down, m.layout.rabbitsToHostlists.get? rabbit.name = some allNodes ∧
        downNodes rabbit allNodes = .ok down ∧ Parses lib (allNodes.filter (· ∉ down)) ∧ Parses lib down ∧
        t = m.sends (((m.paths.removeProperty (allNodes.filter (· ∉ down))).toList ++
          (m.paths.setProperty down).toList).map .property) := by
  unfold setOrRemove
  rw [Prog.exec_bind_ok (Prog.exec_get m)]
  cases m.layout.rabbitsToHostlists.get? rabbit.name with
  | none => simp
  | some allNodes =>
    simp only [Prog.exec_bind_eq_ok, Prog.exec_ofExcept, removeProperty, setProperty, exec_sendProperty_eq_ok]
    constructor
    · rintro ⟨down, m₀, hresult, _, m₁, ⟨hup, rfl⟩, hdown, rfl⟩
      obtain ⟨h, rfl⟩ := Prod.mk.inj hresult
      exact ⟨allNodes, down, rfl, h, hup, hdown, by simp⟩
    · rintro ⟨_, down, heq, h, hup, hdown, rfl⟩
      obtain rfl := Option.some.inj heq
      exact ⟨down, m, by rw [h], (), _, ⟨hup, rfl⟩, hdown, by simp⟩

theorem exec_markRabbit_eq_ok {status name : String} : Prog.exec (markRabbit status name) m = (.ok u, t) ↔
    ∃ rpcs, m.paths.markRabbit status name = some rpcs ∧ t = m.sends (rpcs.map .setStatus) := by
  unfold markRabbit
  rw [Prog.exec_bind_ok (Prog.exec_get m)]
  cases m.paths.markRabbit status name with
  | none => simp
  | some rpcs => simp [eq_comm (a := t)]

/-- What is sent about the rabbit itself. -/
def Manager.updates (m : Manager) (rabbit : StorageObject) : List Sent :=
  match m.paths.markRabbit (rabbit.getStatus "Down") rabbit.name with
  | none => [.error ("Encountered an unknown Storage object '" ++ rabbit.name ++ "' in the event stream")]
  | some rpcs => rpcs.map .setStatus

theorem exec_updateRabbit (rabbit : StorageObject) :
    Prog.exec (updateRabbit rabbit) m = (.ok (), m.sends (m.updates rabbit)) := by
  unfold updateRabbit
  rw [Prog.exec_bind_ok (Prog.exec_get m)]
  cases hentry : m.paths.rabbitRpaths.get? rabbit.name with
  | none =>
    have hmark (status : String) : m.paths.markRabbit status rabbit.name = none := by
      simp [FluxionRabbitManager.markRabbit, hentry]
    simp [Dict.contains, hentry, Manager.updates, hmark]
  | some entry =>
    rw [if_pos (by simp [Dict.contains, hentry]), exec_markRabbit_eq_ok]
    simp [Manager.updates, FluxionRabbitManager.markRabbit, hentry]

/-! ### What an event does -/

/-- These requests drain what the event has draining drain. -/
def Drains (lib : HostlistPackage) (conf : RabbitConfig) (m : Manager) (rabbit : StorageObject)
    (drains : List Sent) : Prop :=
  if conf.drainComputeNodes then ∃ offlineNodes, getOfflineNodes rabbit = .ok offlineNodes ∧
    Parses lib (m.allowed offlineNodes) ∧ drains = drained lib (m.allowed offlineNodes)
  else drains = []

theorem Drains.sent {rabbit : StorageObject} {drains : List Sent} (h : Drains lib conf m rabbit drains) :
    ∀ s ∈ drains, ∃ rpc, s = .drain rpc := by
  unfold Drains at h
  split at h
  · obtain ⟨offlineNodes, -, -, rfl⟩ := h
    unfold drained
    split <;> simp
  · simp [h]

/-- These requests mark the nodes that are down for the class, and no other node of the rabbit. -/
def Marks (lib : HostlistPackage) (conf : RabbitConfig) (cls : ManagerClass) (m : Manager) (rabbit : StorageObject)
    (marks : List PropertyRpc) : Prop :=
  ∃ allNodes down, m.layout.rabbitsToHostlists.get? rabbit.name = some allNodes ∧
    cls.downNodes conf rabbit allNodes = .ok down ∧ Parses lib (allNodes.filter (· ∉ down)) ∧ Parses lib down ∧
    marks = (m.paths.removeProperty (allNodes.filter (· ∉ down))).toList ++ (m.paths.setProperty down).toList

/-- What the class adds to its superclass. -/
def ManagerClass.updates (cls : ManagerClass) (m : Manager) (rabbit : StorageObject) : List Sent :=
  match cls with
  | .rabbitManager => []
  | .fluxionRabbitManager => m.updates rabbit

theorem exec_setOrRemoveProperty_eq_ok {cls : ManagerClass} {rabbit : StorageObject} (sent : List Sent) :
    Prog.exec (cls.setOrRemoveProperty lib conf rabbit) (m.sends sent) = (.ok u, t) ↔
      ∃ marks, Marks lib conf cls m rabbit marks ∧ t = m.sends (sent ++ marks.map .property) := by
  unfold ManagerClass.setOrRemoveProperty Marks
  rw [exec_setOrRemove_eq_ok]
  constructor
  · rintro ⟨allNodes, down, hall, hdown, hup, hparses, rfl⟩
    exact ⟨_, ⟨allNodes, down, hall, hdown, hup, hparses, rfl⟩, by simp⟩
  · rintro ⟨_, ⟨allNodes, down, hall, hdown, hup, hparses, rfl⟩, rfl⟩
    exact ⟨allNodes, down, hall, hdown, hup, hparses, by simp⟩

theorem exec_super_eq_ok {cls : ManagerClass} {rabbit : StorageObject} :
    Prog.exec (RabbitManager.rabbitStateChangeCb lib conf cls rabbit) m = (.ok u, t) ↔
      ∃ drains marks, Drains lib conf m rabbit drains ∧ Marks lib conf cls m rabbit marks ∧
        t = m.sends (drains ++ marks.map .property) := by
  unfold RabbitManager.rabbitStateChangeCb Drains
  by_cases hdrain : conf.drainComputeNodes
  · simp only [if_pos hdrain, Prog.exec_bind_eq_ok, exec_drainOfflineNodes_eq_ok]
    constructor
    · rintro ⟨_, _, ⟨offlineNodes, hoffline, hallowed, rfl⟩, hset⟩
      obtain ⟨marks, hmarks, rfl⟩ := (exec_setOrRemoveProperty_eq_ok _).mp hset
      exact ⟨_, marks, ⟨offlineNodes, hoffline, hallowed, rfl⟩, hmarks, rfl⟩
    · rintro ⟨_, marks, ⟨offlineNodes, hoffline, hallowed, rfl⟩, hmarks, rfl⟩
      exact ⟨(), _, ⟨offlineNodes, hoffline, hallowed, rfl⟩,
        (exec_setOrRemoveProperty_eq_ok _).mpr ⟨marks, hmarks, rfl⟩⟩
  · have hset : Prog.exec (cls.setOrRemoveProperty lib conf rabbit) (m.sends []) = (.ok u, t) ↔ _ :=
      exec_setOrRemoveProperty_eq_ok []
    rw [Manager.sends_nil] at hset
    simpa [hdrain] using hset

/-- **What an event does**, if the handler returns. -/
theorem exec_rabbitStateChangeCb_eq_ok {cls : ManagerClass} {rabbit : StorageObject} :
    Prog.exec (cls.rabbitStateChangeCb lib conf rabbit) m = (.ok u, t) ↔
      ∃ drains marks, Drains lib conf m rabbit drains ∧ Marks lib conf cls m rabbit marks ∧
        t = m.sends (drains ++ marks.map .property ++ cls.updates m rabbit) := by
  cases cls with
  | rabbitManager =>
    unfold ManagerClass.rabbitStateChangeCb ManagerClass.updates
    simp only [exec_super_eq_ok, List.append_nil]
  | fluxionRabbitManager =>
    unfold ManagerClass.rabbitStateChangeCb ManagerClass.updates
    simp only [Prog.exec_bind_eq_ok, exec_super_eq_ok, exec_updateRabbit]
    constructor
    · rintro ⟨_, _, ⟨drains, marks, hdrains, hmarks, rfl⟩, hupdate⟩
      obtain ⟨-, rfl⟩ := Prod.mk.inj hupdate
      exact ⟨drains, marks, hdrains, hmarks, by simp [Manager.updates]⟩
    · rintro ⟨drains, marks, hdrains, hmarks, rfl⟩
      exact ⟨(), _, ⟨drains, marks, hdrains, hmarks, rfl⟩, by simp [Manager.updates]⟩

/-! ### Offline computes -/

theorem ComputeNode.offline_eq_some {node : ComputeNode} {name : String} :
    node.offline = .ok (some name) ↔
      (∃ status, node.status = some status ∧ status ≠ "Ready") ∧ node.name = some name := by
  unfold offline
  cases node.status with
  | none => simp
  | some status =>
    by_cases hready : status = "Ready"
    · simp [hready]
    · cases node.name <;> simp [hready]

/-- The entry has what is read of it. -/
def ComputeNode.Complete (node : ComputeNode) : Prop :=
  node.status ≠ none ∧ (node.status ≠ some "Ready" → node.name ≠ none)

theorem ComputeNode.complete_iff {node : ComputeNode} : (∃ result, node.offline = .ok result) ↔ node.Complete := by
  unfold offline Complete
  cases node.status with
  | none => simp
  | some status =>
    by_cases hready : status = "Ready"
    · simp [hready]
    · cases node.name <;> simp [hready]

theorem getOfflineNodes_isOk {rabbit : StorageObject} :
    (∃ offlineNodes, getOfflineNodes rabbit = .ok offlineNodes) ↔ ∀ node ∈ rabbit.computes, node.Complete := by
  simp only [← ComputeNode.complete_iff, ← Prog.mapM_isOk]
  unfold getOfflineNodes
  cases rabbit.computes.mapM ComputeNode.offline <;> simp [Except.map]

theorem mem_getOfflineNodes {rabbit : StorageObject} {offlineNodes : List String} {name : String}
    (h : getOfflineNodes rabbit = .ok offlineNodes) : name ∈ offlineNodes ↔
      ∃ node ∈ rabbit.computes, (∃ status, node.status = some status ∧ status ≠ "Ready") ∧ node.name = some name := by
  simp only [← ComputeNode.offline_eq_some]
  unfold getOfflineNodes at h
  cases hnodes : rabbit.computes.mapM ComputeNode.offline with
  | error e =>
    rw [hnodes] at h
    cases h
  | ok nodes =>
    rw [hnodes] at h
    obtain rfl := Except.ok.inj h
    rw [List.mem_dedup, List.reduceOption_mem_iff, Prog.mem_mapM_ok hnodes]

end FluxCoral2.Storage
