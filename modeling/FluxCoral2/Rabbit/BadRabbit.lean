import FluxCoral2.Rabbit.StorageEvents

/-! The `badrabbit` property and the events of a rabbit.

Each event decides anew, for every compute of its rabbit, whether it has the property, and
for no other. So a compute is as the last event of its rabbit left it
(`badrabbit_tracks_last`), in whatever order the rabbits go down and come back. -/
namespace FluxCoral2.Storage
open Library Rabbit
open Dws2jgf (FluxionRabbitManager)
open Dws2jgf.FluxionRabbitManager (PropertyRpc)

/-! ### The property -/

/-- What a request does to the property, on each of its paths. -/
def badrabbitFlags (rpc : PropertyRpc) : List (FlagOp String) :=
  if rpc.topic = "sched-fluxion-resource.set_property" ∧ rpc.key = "badrabbit=bad" then rpc.resourcePath.map .set
  else if rpc.topic = "sched-fluxion-resource.remove_property" ∧ rpc.key = "badrabbit" then
    rpc.resourcePath.map .clear
  else []

def Sent.flags : Sent → List (FlagOp String)
  | .property rpc => badrabbitFlags rpc
  | _ => []

/-- The requests, applied in the order sent, leave the property on a path. -/
def Manager.BadRabbit (m : Manager) (path : String) : Prop := flagged (m.out.flatMap Sent.flags) path = true

theorem flags_propertyRpc (paths : FluxionRabbitManager) (topic key : String) (nodes : List String) :
    (paths.propertyRpc topic key nodes).toList.flatMap badrabbitFlags =
      badrabbitFlags ⟨topic, nodes.filterMap paths.computeRpaths.get?, key⟩ := by
  unfold FluxionRabbitManager.propertyRpc
  by_cases hnil : nodes.filterMap paths.computeRpaths.get? = []
  · simp [hnil, badrabbitFlags]
  · simp [hnil]

theorem flags_removeProperty (paths : FluxionRabbitManager) (nodes : List String) :
    (paths.removeProperty nodes).toList.flatMap badrabbitFlags =
      (nodes.filterMap paths.computeRpaths.get?).map .clear := by
  simp [FluxionRabbitManager.removeProperty, flags_propertyRpc, badrabbitFlags]

theorem flags_setProperty (paths : FluxionRabbitManager) (nodes : List String) :
    (paths.setProperty nodes).toList.flatMap badrabbitFlags = (nodes.filterMap paths.computeRpaths.get?).map .set := by
  simp [FluxionRabbitManager.setProperty, flags_propertyRpc, badrabbitFlags]

variable {lib : HostlistPackage} {conf : RabbitConfig} {cls : ManagerClass} {m : Manager} {rabbit : StorageObject}

theorem Drains.flags {drains : List Sent} (h : Drains lib conf m rabbit drains) : drains.flatMap Sent.flags = [] := by
  refine List.flatMap_eq_nil_iff.mpr fun s hs => ?_
  obtain ⟨rpc, rfl⟩ := h.sent s hs
  rfl

theorem flags_updates (cls : ManagerClass) (m : Manager) (rabbit : StorageObject) :
    (cls.updates m rabbit).flatMap Sent.flags = [] := by
  unfold ManagerClass.updates Manager.updates
  cases cls with
  | rabbitManager => rfl
  | fluxionRabbitManager =>
    cases m.paths.markRabbit (rabbit.getStatus "Down") rabbit.name with
    | none => rfl
    | some rpcs => simp [Sent.flags]

/-! ### One event -/

/-- The computes of a rabbit. -/
def Manager.ownComputes (m : Manager) (rabbit : String) : List String :=
  (m.layout.rabbitsToHostlists.get? rabbit).getD []

/-- The rabbit lists computes of its own only. -/
def StorageObject.ListsOwn (rabbit : StorageObject) (m : Manager) : Prop :=
  ∀ node ∈ rabbit.computes, ∃ name ∈ m.ownComputes rabbit.name, ∃ status, node = ⟨some name, some status⟩

def StorageObject.Ready (rabbit : StorageObject) : Prop := rabbit.status.bind StorageStatus.status = some "Ready"

instance (rabbit : StorageObject) : Decidable rabbit.Ready := inferInstanceAs (Decidable (_ = some "Ready"))

/-- The event says that a compute is not to be used by rabbit jobs. -/
def StorageObject.Avoids (rabbit : StorageObject) (conf : RabbitConfig) (cls : ManagerClass) (host : String) : Prop :=
  (cls = .rabbitManager ∧ ¬ rabbit.Ready) ∨
  (rabbit.Ready ∧ conf.drainComputeNodes = false ∧ conf.softDrain = true ∧
    ∃ node ∈ rabbit.computes, node.name = some host ∧ node.status ≠ some "Ready")

theorem StorageObject.getStatus_eq {default : String} (hdefault : default ≠ "Ready") :
    rabbit.getStatus default = "Ready" ↔ rabbit.Ready := by
  unfold getStatus Ready
  cases rabbit.status.bind StorageStatus.status <;> simp [hdefault]

theorem StorageObject.ListsOwn.offline (h : rabbit.ListsOwn m) :
    ∃ offlineNodes, getOfflineNodes rabbit = .ok offlineNodes ∧ offlineNodes ⊆ m.ownComputes rabbit.name ∧
      ∀ host, host ∈ offlineNodes ↔ ∃ node ∈ rabbit.computes, node.name = some host ∧ node.status ≠ some "Ready" := by
  obtain ⟨offlineNodes, hoffline⟩ := getOfflineNodes_isOk.mpr fun node hnode => by
    obtain ⟨name, -, status, rfl⟩ := h node hnode
    simp [ComputeNode.Complete]
  have hmem (host : String) : host ∈ offlineNodes ↔
      ∃ node ∈ rabbit.computes, node.name = some host ∧ node.status ≠ some "Ready" := by
    rw [mem_getOfflineNodes hoffline]
    refine exists_congr fun node => and_congr_right fun hnode => ?_
    obtain ⟨name, -, status, rfl⟩ := h node hnode
    simp [and_comm]
  refine ⟨offlineNodes, hoffline, fun host hhost => ?_, hmem⟩
  obtain ⟨node, hnode, hname, -⟩ := (hmem host).mp hhost
  obtain ⟨name, hown, status, rfl⟩ := h node hnode
  exact Option.some.inj hname ▸ hown

/-- The two classes differ only in what they do about a rabbit that is not ready. -/
theorem ManagerClass.downNodes_eq (allNodes : List String) :
    cls.downNodes conf rabbit allNodes =
      if cls = .rabbitManager ∧ ¬ rabbit.Ready then .ok allNodes
      else if rabbit.Ready ∧ conf.drainComputeNodes = false ∧ conf.softDrain = true then getOfflineNodes rabbit
      else .ok [] := by
  have hstatus := rabbit.getStatus_eq (by decide : "Disabled" ≠ "Ready")
  unfold downNodes
  by_cases hready : rabbit.Ready
  · cases cls <;> simp [hstatus, hready]
  · cases cls <;> simp [hstatus, hready]

/-- Which computes of the rabbit are down, for either class. -/
theorem StorageObject.ListsOwn.downNodes (h : rabbit.ListsOwn m) (conf : RabbitConfig) (cls : ManagerClass)
    {allNodes : List String}
    (hall : m.layout.rabbitsToHostlists.get? rabbit.name = some allNodes) :
    ∃ down, cls.downNodes conf rabbit allNodes = .ok down ∧ down ⊆ allNodes ∧
      ∀ host ∈ allNodes, host ∈ down ↔ rabbit.Avoids conf cls host := by
  obtain ⟨offlineNodes, hoffline, hsub, hmem⟩ := h.offline
  rw [Manager.ownComputes, hall, Option.getD_some] at hsub
  simp only [ManagerClass.downNodes_eq, Avoids]
  by_cases hclass : cls = .rabbitManager ∧ ¬ rabbit.Ready
  · exact ⟨allNodes, if_pos hclass, List.Subset.refl _, fun host hhost => iff_of_true hhost (.inl hclass)⟩
  · rw [if_neg hclass]
    by_cases hsoft : rabbit.Ready ∧ conf.drainComputeNodes = false ∧ conf.softDrain = true
    · refine ⟨offlineNodes, by rw [if_pos hsoft, hoffline], hsub, fun host _ => ?_⟩
      rw [hmem, or_iff_right hclass]
      exact ⟨fun h => ⟨hsoft.1, hsoft.2.1, hsoft.2.2, h⟩, fun h => h.2.2.2⟩
    · refine ⟨[], if_neg hsoft, List.nil_subset _, fun host _ => iff_of_false List.not_mem_nil ?_⟩
      rintro (h | ⟨hready, hdrain, hon, -⟩)
      · exact hclass h
      · exact hsoft ⟨hready, hdrain, hon⟩

/-- The hosts that the system configuration has are hostlists. -/
def Manager.HostsParse (lib : HostlistPackage) (m : Manager) : Prop :=
  ∀ rabbit allNodes, m.layout.rabbitsToHostlists.get? rabbit = some allNodes → Parses lib allNodes

theorem Parses.subset {names names' : List String} (h : Parses lib names) (hsub : names' ⊆ names) :
    Parses lib names' := fun name hname => h name (hsub hname)

theorem Manager.HostsParse.own (h : m.HostsParse lib) (rabbit : String) : Parses lib (m.ownComputes rabbit) := by
  unfold Manager.ownComputes
  cases hall : m.layout.rabbitsToHostlists.get? rabbit with
  | none => exact nofun
  | some allNodes => exact h rabbit allNodes hall

theorem Manager.allowed_subset (m : Manager) (nodes : List String) : m.allowed nodes ⊆ nodes := by
  unfold allowed
  cases m.allowlist with
  | none => exact List.Subset.refl _
  | some allowlist => exact List.filter_subset_self _

theorem StorageObject.ListsOwn.drains (h : rabbit.ListsOwn m) (conf : RabbitConfig) (hparse : m.HostsParse lib) :
    ∃ drains, Drains lib conf m rabbit drains := by
  obtain ⟨offlineNodes, hoffline, hsub, -⟩ := h.offline
  unfold Drains
  split
  · exact ⟨_, offlineNodes, hoffline,
      (hparse.own rabbit.name).subset (fun _ h => hsub (m.allowed_subset offlineNodes h)), rfl⟩
  · exact ⟨[], rfl⟩

/-- What the handler leaves, whether or not it returns. -/
def Manager.handle (lib : HostlistPackage) (conf : RabbitConfig) (cls : ManagerClass) (m : Manager)
    (rabbit : StorageObject) : Manager :=
  (Prog.exec (cls.rabbitStateChangeCb lib conf rabbit) m).2

/-- Of a rabbit that is not in the layout nothing is sent: it has no computes to drain, and the
lookup of its name is a KeyError. -/
theorem handle_unknown (hunknown : m.layout.rabbitsToHostlists.get? rabbit.name = none) (hown : rabbit.ListsOwn m) :
    m.handle lib conf cls rabbit = m := by
  have hset : Prog.exec (cls.setOrRemoveProperty lib conf rabbit) m = (.error (.keyError rabbit.name), m) := by
    unfold ManagerClass.setOrRemoveProperty setOrRemove
    rw [Prog.exec_bind_ok (Prog.exec_get m), hunknown]
    rfl
  have hsuper : Prog.exec (RabbitManager.rabbitStateChangeCb lib conf cls rabbit) m =
      (.error (.keyError rabbit.name), m) := by
    obtain ⟨offlineNodes, hoffline, hsub, -⟩ := hown.offline
    have hnone : m.allowed offlineNodes = [] := by
      rw [Manager.ownComputes, hunknown] at hsub
      exact List.subset_nil.mp fun name h => hsub (m.allowed_subset offlineNodes h)
    have hdrain : Prog.exec (drainOfflineNodes lib rabbit) m = (.ok (), m) :=
      exec_drainOfflineNodes_eq_ok.mpr ⟨offlineNodes, hoffline, by simp [hnone, Parses], by simp [hnone, drained]⟩
    unfold RabbitManager.rabbitStateChangeCb
    split
    · rw [Prog.exec_bind_ok hdrain, hset]
    · exact hset
  unfold Manager.handle ManagerClass.rabbitStateChangeCb
  cases cls with
  | rabbitManager => exact congrArg Prod.snd hsuper
  | fluxionRabbitManager => exact congrArg Prod.snd (Prog.exec_bind_error hsuper _)

/-- What a compute has after an event. -/
def Manager.After (m : Manager) (conf : RabbitConfig) (cls : ManagerClass) (event : StorageObject)
    (rabbit host path : String) : Prop :=
  if event.name = rabbit then event.Avoids conf cls host else m.BadRabbit path

theorem badRabbit_sends {sent : List Sent} {cleared marked : List String} {path : String}
    (hsent : sent.flatMap Sent.flags = cleared.map .clear ++ marked.map .set) :
    (m.sends sent).BadRabbit path ↔ path ∈ marked ∨ path ∉ cleared ∧ m.BadRabbit path := by
  unfold Manager.BadRabbit
  rw [Manager.sends_out, List.flatMap_append, hsent, ← List.append_assoc, flagged_append_set, flagged_append_clear]

/-- Different hosts have different paths. -/
def Manager.Distinct (m : Manager) : Prop :=
  ∀ host host' path, m.paths.computeRpaths.get? host = some path →
    m.paths.computeRpaths.get? host' = some path → host = host'

/-- A path is that of a host in a list exactly if its own host is. -/
theorem Manager.Distinct.mem_paths (h : m.Distinct) {host path : String}
    (hpath : m.paths.computeRpaths.get? host = some path) (nodes : List String) :
    path ∈ nodes.filterMap m.paths.computeRpaths.get? ↔ host ∈ nodes := by
  rw [List.mem_filterMap]
  exact ⟨fun ⟨_, hmem, hpath'⟩ => h _ _ _ hpath hpath' ▸ hmem, fun hmem => ⟨host, hmem, hpath⟩⟩

theorem Marks.badRabbit {marks : List PropertyRpc} (hmarks : Marks lib conf cls m rabbit marks)
    (hdistinct : m.Distinct) (hown : rabbit.ListsOwn m) {sent : List Sent}
    (hsent : sent.flatMap Sent.flags = marks.flatMap badrabbitFlags) {name host path : String} {hosts : List String}
    (hname : m.layout.rabbitsToHostlists.get? name = some hosts) (hhost : host ∈ hosts)
    (hpath : m.paths.computeRpaths.get? host = some path) :
    (m.sends sent).BadRabbit path ↔ m.After conf cls rabbit name host path := by
  obtain ⟨allNodes, down, hall, hdown, -, -, rfl⟩ := hmarks
  obtain ⟨down', hdown', hsub, havoids⟩ := hown.downNodes conf cls hall
  obtain rfl := Except.ok.inj (hdown.symm.trans hdown')
  rw [List.flatMap_append, flags_removeProperty, flags_setProperty] at hsent
  rw [badRabbit_sends hsent, hdistinct.mem_paths hpath, hdistinct.mem_paths hpath, Manager.After, List.mem_filter]
  by_cases hsame : rabbit.name = name
  · have hmem : host ∈ allNodes := by
      rw [hsame, hname] at hall
      exact Option.some.inj hall ▸ hhost
    rw [if_pos hsame, ← havoids host hmem]
    simp +contextual [hmem]
  · -- the host is attached to another rabbit
    have hnot : host ∉ allNodes := fun hmem => by
      have hother := m.layout.attached _ _ hall host hmem
      rw [m.layout.attached name hosts hname host hhost] at hother
      exact hsame (Option.some.inj hother).symm
    have hup : host ∉ down := fun hmem => hnot (hsub hmem)
    rw [if_neg hsame]
    simp [hnot, hup]

/-- **One event** leaves the computes of its own rabbit as it says, and all others alone. -/
theorem badRabbit_handle (lib : HostlistPackage) (conf : RabbitConfig) (cls : ManagerClass) (m : Manager)
    (hparse : m.HostsParse lib) (hdistinct : m.Distinct) (hown : rabbit.ListsOwn m) :
    ∃ sent, m.handle lib conf cls rabbit = m.sends sent ∧ ∀ name hosts host path,
      m.layout.rabbitsToHostlists.get? name = some hosts → host ∈ hosts →
        m.paths.computeRpaths.get? host = some path →
          ((m.sends sent).BadRabbit path ↔ m.After conf cls rabbit name host path) := by
  cases hall : m.layout.rabbitsToHostlists.get? rabbit.name with
  | none =>
    refine ⟨[], by rw [handle_unknown hall hown, Manager.sends_nil], fun name hosts host path hname _ _ => ?_⟩
    have hne : rabbit.name ≠ name := by
      rintro rfl
      rw [hall] at hname
      cases hname
    rw [Manager.sends_nil, Manager.After, if_neg hne]
  | some allNodes =>
    obtain ⟨drains, hdrains⟩ := hown.drains conf hparse
    obtain ⟨down, hdown, hsub, -⟩ := hown.downNodes conf cls hall
    have hmarks : Marks lib conf cls m rabbit _ :=
      ⟨allNodes, down, hall, hdown, (hparse _ _ hall).subset (List.filter_subset_self _),
        (hparse _ _ hall).subset hsub, rfl⟩
    have hexec := exec_rabbitStateChangeCb_eq_ok (u := ()).mpr ⟨drains, _, hdrains, hmarks, rfl⟩
    refine ⟨_, congrArg Prod.snd hexec, fun name hosts host path hname hhost hpath => ?_⟩
    refine hmarks.badRabbit hdistinct hown ?_ hname hhost hpath
    rw [List.flatMap_append, List.flatMap_append, hdrains.flags, flags_updates, List.nil_append, List.append_nil,
      List.flatMap_map]
    rfl

/-! ### Runs -/

/-- The events, handled one after the other. -/
def Manager.run (lib : HostlistPackage) (conf : RabbitConfig) (cls : ManagerClass) (m : Manager)
    (events : List StorageObject) : Manager :=
  events.foldl (Manager.handle lib conf cls) m

/-- The last event of a rabbit. -/
def lastEvent (rabbit : String) (events : List StorageObject) : Option StorageObject :=
  (events.filter fun event => event.name = rabbit).getLast?

theorem lastEvent_append (name : String) (events : List StorageObject) (event : StorageObject) :
    lastEvent name (events ++ [event]) = if event.name = name then some event else lastEvent name events := by
  unfold lastEvent
  by_cases hname : event.name = name <;> simp [List.filter_append, hname]

/-- The state of affairs in the beginning. -/
structure Manager.Initial (lib : HostlistPackage) (m : Manager) : Prop where
  hostsParse : m.HostsParse lib
  distinct : m.Distinct
  clear : ∀ path, ¬ m.BadRabbit path

/-- **The property tracks the last event** of the rabbit of a compute. -/
theorem badrabbit_tracks_last (lib : HostlistPackage) (conf : RabbitConfig) (cls : ManagerClass) (m : Manager)
    (hm : m.Initial lib) (events : List StorageObject)
    (hown : ∀ event ∈ events, event.ListsOwn m) {rabbit host path : String} {hosts : List String}
    (hrabbit : m.layout.rabbitsToHostlists.get? rabbit = some hosts) (hhost : host ∈ hosts)
    (hpath : m.paths.computeRpaths.get? host = some path) :
    (m.run lib conf cls events).BadRabbit path ↔
      ∃ event, lastEvent rabbit events = some event ∧ event.Avoids conf cls host := by
  suffices hrun : ∃ sent, m.run lib conf cls events = m.sends sent ∧ ((m.sends sent).BadRabbit path ↔
      ∃ event, lastEvent rabbit events = some event ∧ event.Avoids conf cls host) by
    obtain ⟨sent, heq, hiff⟩ := hrun
    rwa [heq]
  induction events using List.reverseRecOn with
  | nil => exact ⟨[], by simp [Manager.run], by simp [hm.clear, lastEvent]⟩
  | append_singleton events event ih =>
    obtain ⟨sent, heq, hiff⟩ := ih fun e he => hown e (List.mem_append_left _ he)
    obtain ⟨more, hstep, hbad⟩ := badRabbit_handle lib conf cls (m.sends sent) hm.hostsParse hm.distinct
      (hown event (List.mem_append_right _ List.mem_cons_self))
    refine ⟨sent ++ more, ?_, ?_⟩
    · rw [Manager.run, List.foldl_append, List.foldl_cons, List.foldl_nil, ← Manager.run, heq, hstep,
        Manager.sends_sends]
    · rw [← Manager.sends_sends, hbad rabbit hosts host path hrabbit hhost hpath, Manager.After, lastEvent_append]
      by_cases hname : event.name = rabbit
      · simp [hname]
      · rw [if_neg hname, if_neg hname, hiff]

theorem Manager.initial (hparse : m.HostsParse lib) (hdistinct : m.Distinct) (hout : m.out = []) : m.Initial lib :=
  ⟨hparse, hdistinct, fun path => by simp [Manager.BadRabbit, hout, flagged]⟩

/-! ### The managers -/

/-- A `RabbitManager`. -/
def Manager.ofSite (site : Site) (allowlist : Option (List String)) : Manager where
  layout := site.layout
  paths := {computeRpaths := site.computeRpaths}
  allowlist := allowlist

theorem initial_ofSite {site : Site} {allowlist : Option (List String)}
    (hparse : (Manager.ofSite site allowlist).HostsParse lib) : (Manager.ofSite site allowlist).Initial lib :=
  Manager.initial hparse (fun host host' path hpath hpath' =>
    rpath_inj (by rw [← site.isRpath host path hpath, ← site.isRpath host' path hpath'])) rfl

open Dws2jgf in
/-- A `FluxionRabbitManager`, of a graph that `flux-dws2jgf.py` made. -/
theorem initial_ofGraph {base : ResourceGraphV1} {rv1 : R} {rabbitMapping : RabbitMapping} {chunksPerNnf : Nat}
    {clusterName : String} {resourceExclude : Dws2jgf.Exclude} {g : Graph} {allowlist : Option (List String)}
    {layout : Layout} {paths : FluxionRabbitManager}
    (hgraph : coral2Graph base rv1 rabbitMapping chunksPerNnf clusterName resourceExclude = some g)
    (hpaths : FluxionRabbitManager.getRpaths g.nodes = some paths)
    (hparse : Manager.HostsParse lib ⟨layout, paths, allowlist, []⟩) :
    Manager.Initial lib ⟨layout, paths, allowlist, []⟩ :=
  Manager.initial hparse (fun _ _ _ hpath hpath' => getRpaths_inj hgraph hpaths hpath hpath') rfl

/-- A manager of one rabbit with one compute. -/
def oneManager : Manager := .ofSite ((rabbitManager oneRabbit ["node1"] .absent).get (by decide)) none

/-- An event of the rabbit, with a status of its own and one of its compute. -/
def oneEvent (status node : String) : StorageObject :=
  ⟨"rabbit1", some ⟨some status, some [⟨some "node1", some node⟩]⟩⟩

theorem oneEvent_listsOwn (status node : String) : (oneEvent status node).ListsOwn oneManager := by
  intro n hn
  obtain rfl := List.mem_singleton.mp hn
  have hown : "node1" ∈ oneManager.ownComputes "rabbit1" := by decide
  exact ⟨"node1", hown, node, rfl⟩

/-- The rabbit goes down and comes back, with its compute offline. -/
theorem downThenOffline_tracked :
    (oneManager.run namedHosts {drainComputeNodes := false} .rabbitManager
      [oneEvent "Disabled" "Ready", oneEvent "Ready" "Offline"]).BadRabbit "/cluster0/node1" := by
  have hinitial : oneManager.Initial namedHosts := initial_ofSite fun _ _ _ name _ => ⟨[name], rfl⟩
  have hown : ∀ event ∈ [oneEvent "Disabled" "Ready", oneEvent "Ready" "Offline"], event.ListsOwn oneManager := by
    simp [oneEvent_listsOwn]
  have hrabbit : oneManager.layout.rabbitsToHostlists.get? "rabbit1" = some ["node1"] := by decide
  have hpath : oneManager.paths.computeRpaths.get? "node1" = some "/cluster0/node1" := by decide
  refine (badrabbit_tracks_last namedHosts _ _ oneManager hinitial _ hown hrabbit List.mem_cons_self hpath).mpr
    ⟨oneEvent "Ready" "Offline", by simp [lastEvent, oneEvent], .inr ⟨rfl, rfl, rfl, ?_⟩⟩
  exact ⟨⟨some "node1", some "Offline"⟩, List.mem_cons_self, rfl, by decide⟩

end FluxCoral2.Storage
