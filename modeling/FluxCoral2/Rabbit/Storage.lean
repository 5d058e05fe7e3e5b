import Mathlib.Data.List.Dedup
import FluxCoral2.Library.Dict
import FluxCoral2.Library.FlagLog
import FluxCoral2.Library.Prog

/-! Rabbits, the computes attached to them, and the `alloc_rabbit` property
(`storage.py`).

`populate_rabbits_dict` builds two global dictionaries from the system
configuration: the rabbit of a compute, and the computes of a rabbit. `Layout`
carries that they agree. A `RabbitManager` whose Fluxion does not schedule rabbits
marks the computes of a job's rabbits with a property when the job sets up, and
takes the property off when it is done. -/
namespace FluxCoral2.Rabbit
open Library

/-! ### Hostlists -/

/-- What the programs use of the hostlist package: a string names hosts (RFC 29) or is
malformed, and `uniq` sorts a list and drops the duplicates. -/
structure HostlistPackage where
  decode : String → Option (List String)
  uniq : List String → List String
  mem_uniq : ∀ hosts h, h ∈ uniq hosts ↔ h ∈ hosts
  nodup_uniq : ∀ hosts, (uniq hosts).Nodup

variable (lib : HostlistPackage)

/-- `Hostlist(nodelist)`, of a list of strings. -/
def hostlist (nodelist : List String) : Option (List String) :=
  (nodelist.mapM lib.decode).map List.flatten

/-- Names that stand for one host each. -/
theorem hostlist_of_plain {lib : HostlistPackage} {hosts : List String}
    (h : ∀ host ∈ hosts, lib.decode host = some [host]) : hostlist lib hosts = some hosts := by
  have hdecode : hosts.mapM lib.decode = some (hosts.map fun host => [host]) := by
    rw [Prog.mapM_eq_some, List.map_map]
    exact List.map_congr_left h
  rw [hostlist, hdecode]
  exact congrArg some (List.flatMap_singleton' hosts)

/-! ### The layout -/

/-- An entry of the system configuration's `storageNodes`. -/
structure StorageNode where
  name : String
  computesAccess : Option (List String)

/-- The inner loop of `populate_rabbits_dict`: the computes of one rabbit. A compute
that has a rabbit already is a KeyError. -/
def addComputes (rabbit : String) (hostnamesToRabbits : Dict String String) (hlist : List String) :
    List String → Option (Dict String String × List String)
  | [] => some (hostnamesToRabbits, hlist)
  | hostname :: rest =>
    if hostnamesToRabbits.contains hostname then none
    else addComputes rabbit (hostnamesToRabbits.set hostname rabbit) (hlist ++ [hostname]) rest

theorem addComputes_spec {rabbit : String} {names hlist hlist' : List String}
    {d d' : Dict String String} (h : addComputes rabbit d hlist names = some (d', hlist')) :
    hlist' = hlist ++ names ∧ (∀ n ∈ names, d.get? n = none) ∧
      ∀ n, d'.get? n = if n ∈ names then some rabbit else d.get? n := by
  induction names generalizing d hlist with
  | nil =>
    obtain ⟨rfl, rfl⟩ := Prod.mk.inj (Option.some.inj h)
    simp
  | cons hostname rest ih =>
    unfold addComputes at h
    split at h
    · cases h
    · rename_i hnew
      have hnone : d.get? hostname = none := by
        simpa [Dict.contains] using hnew
      obtain ⟨hlist_eq, hfresh, hget⟩ := ih h
      refine ⟨by rw [hlist_eq, List.append_assoc, List.singleton_append], fun n hn => ?_, fun n => ?_⟩
      · rcases List.mem_cons.mp hn with rfl | hn
        · exact hnone
        · have hn' := hfresh n hn
          rw [Dict.get?_set] at hn'
          split at hn'
          · cases hn'
          · exact hn'
      · rw [hget, Dict.get?_set]
        by_cases hrest : n ∈ rest
        · simp [hrest]
        · by_cases hn : n = hostname <;> simp [hrest, hn]

/-- HOSTNAMES_TO_RABBITS and RABBITS_TO_HOSTLISTS, which agree. -/
structure Layout where
  hostnamesToRabbits : Dict String String
  rabbitsToHostlists : Dict String (List String)
  attached : ∀ rabbit hosts, rabbitsToHostlists.get? rabbit = some hosts →
    ∀ h ∈ hosts, hostnamesToRabbits.get? h = some rabbit
  known : ∀ h rabbit, hostnamesToRabbits.get? h = some rabbit →
    ∃ hosts, rabbitsToHostlists.get? rabbit = some hosts

/-- One round of `populate_rabbits_dict`. -/
def addRabbit (layout : Layout) (nnf : StorageNode) : Option Layout :=
  match h : addComputes nnf.name layout.hostnamesToRabbits [] (nnf.computesAccess.getD []) with
  | none => none
  | some (hostnamesToRabbits, hlist) => some
    { hostnamesToRabbits := hostnamesToRabbits
      rabbitsToHostlists := layout.rabbitsToHostlists.set nnf.name (lib.uniq hlist)
      attached := fun rabbit hosts hr host hhost => by
        obtain ⟨hlist_eq, hfresh, hget⟩ := addComputes_spec h
        rw [hget]
        rw [Dict.get?_set] at hr
        split at hr
        · rename_i hname
          rw [← Option.some.inj hr, lib.mem_uniq, hlist_eq, List.nil_append] at hhost
          rw [if_pos hhost, hname]
        · have hold := layout.attached rabbit hosts hr host hhost
          rw [if_neg fun hmem => ?_, hold]
          rw [hfresh host hmem] at hold
          cases hold
      known := fun host rabbit hr => by
        obtain ⟨_, _, hget⟩ := addComputes_spec h
        rw [Dict.get?_set]
        split
        · exact ⟨_, rfl⟩
        · rename_i hname
          rw [hget] at hr
          split at hr
          · exact absurd (Option.some.inj hr).symm hname
          · exact layout.known host rabbit hr }

def emptyLayout : Layout where
  hostnamesToRabbits := .empty
  rabbitsToHostlists := .empty
  attached := fun _ _ h => by cases h
  known := fun _ _ h => by cases h

/-- The dictionaries, or nothing when a compute is listed twice. -/
def populateRabbitsDict (storageNodes : List StorageNode) : Option Layout :=
  storageNodes.foldlM (addRabbit lib) emptyLayout

/-! ### The manager -/

/-- The path of a compute in Fluxion's resource graph. -/
def rpath (hostname : String) : String := "/cluster0/" ++ hostname

theorem rpath_inj {h h' : String} (heq : rpath h = rpath h') : h = h' := String.append_right_inj _ |>.mp heq

/-- `resource.exclude`, parsed. -/
inductive Exclude
  | absent
  | idset (indices : List Nat)
  | hosts (hosts : List String)
  | malformed

/-- The hosts to leave out, or nothing when an index is out of range. -/
def Exclude.resolve (instanceNodes : List String) : Exclude → Option (List String)
  | .absent => some []
  | .malformed => some []
  | .hosts names => some names
  | .idset indices => indices.mapM fun i => instanceNodes[i]?

/-- The globals, and the `_compute_rpaths` of a manager. -/
structure Site where
  layout : Layout
  computeRpaths : Dict String String
  isRpath : ∀ h path, computeRpaths.get? h = some path → path = rpath h

theorem get?_foldl_del (hosts : List String) (d : Dict String String) (h path : String)
    (hget : (hosts.foldl Dict.del d).get? h = some path) : d.get? h = some path := by
  induction hosts generalizing d with
  | nil => exact hget
  | cons host rest ih =>
    have hrest := ih (d.del host) hget
    rw [Dict.get?_del] at hrest
    split at hrest
    · cases hrest
    · exact hrest

theorem isRpath_foldl_set (hosts : List String) (d : Dict String String)
    (hd : ∀ h path, d.get? h = some path → path = rpath h) (h path : String)
    (hget : (hosts.foldl (fun d h => d.set h (rpath h)) d).get? h = some path) : path = rpath h := by
  induction hosts generalizing d with
  | nil => exact hd h path hget
  | cons host rest ih =>
    refine ih (d.set host (rpath host)) (fun h' path' hget' => ?_) hget
    rw [Dict.get?_set] at hget'
    split at hget'
    · rename_i heq
      rw [← Option.some.inj hget', heq]
    · exact hd h' path' hget'

/-- `RabbitManager.__init__` and `_get_rpaths`. -/
def rabbitManager (layout : Layout) (instanceNodes : List String) (exclude : Exclude) : Option Site :=
  if layout.hostnamesToRabbits.keys = [] ∨ layout.rabbitsToHostlists.keys = [] then none
  else
    (exclude.resolve instanceNodes).map fun excluded =>
      let here := layout.hostnamesToRabbits.keys.filter (· ∈ instanceNodes)
      { layout := layout
        computeRpaths := excluded.foldl Dict.del (here.foldl (fun d h => d.set h (rpath h)) .empty)
        isRpath := fun h path hget =>
          isRpath_foldl_set here .empty (fun _ _ hnone => by cases hnone) h path
            (get?_foldl_del excluded _ h path hget) }

def allocatedProperty : String := "alloc_rabbit"

/-- A request to Fluxion about the property of a vertex. -/
inductive Rpc
  | setProperty (resourcePath key value : String)
  | removeProperty (resourcePath key : String)
  deriving DecidableEq

/-- The property a request sets or clears. -/
def Rpc.flag : Rpc → FlagOp (String × String)
  | .setProperty resourcePath key _ => .set (resourcePath, key)
  | .removeProperty resourcePath key => .clear (resourcePath, key)

/-- What changes in a manager; `rpcs` are the requests sent, in order. -/
structure Manager where
  jobidsToRabbits : Dict Nat (List String)
  rpcs : List Rpc

structure KeyError where
  key : String
  deriving DecidableEq

variable (site : Site)

/-- The two nested loops of the mark functions: a request for every compute of the
rabbits that has a path. -/
def forRabbits (rpc : String → Rpc) : List String → Prog KeyError Manager Unit
  | [] => pure ()
  | rabbit :: rest =>
    match site.layout.rabbitsToHostlists.get? rabbit with
    | none => throw ⟨rabbit⟩
    | some hosts => do
      modify fun m => {m with rpcs := m.rpcs ++ (hosts.filterMap site.computeRpaths.get?).map rpc}
      forRabbits rpc rest

/-- The paths of the computes of some rabbits. -/
def pathsOf (rabbits : List String) : List String :=
  rabbits.flatMap fun rabbit =>
    ((site.layout.rabbitsToHostlists.get? rabbit).getD []).filterMap site.computeRpaths.get?

/-- A compute's path is among those of some rabbits when its own rabbit is one of them. -/
theorem mem_pathsOf {rabbits hosts : List String} {rabbit h path : String}
    (hr : site.layout.rabbitsToHostlists.get? rabbit = some hosts) (hh : h ∈ hosts)
    (hpath : site.computeRpaths.get? h = some path) : path ∈ pathsOf site rabbits ↔ rabbit ∈ rabbits := by
  simp only [pathsOf, List.mem_flatMap, List.mem_filterMap]
  refine ⟨fun ⟨rabbit', hmem, h', hh', hpath'⟩ => ?_, fun hmem => ⟨rabbit, hmem, h, ?_, hpath⟩⟩
  · have hsame : h' = h := rpath_inj (by rw [← site.isRpath h' path hpath', ← site.isRpath h path hpath])
    cases hr' : site.layout.rabbitsToHostlists.get? rabbit' with
    | none =>
      rw [hr'] at hh'
      cases hh'
    | some hosts' =>
      rw [hr', Option.getD_some, hsame] at hh'
      have h₁ := site.layout.attached rabbit' hosts' hr' h hh'
      have h₂ := site.layout.attached rabbit hosts hr h hh
      rw [h₁] at h₂
      rwa [← Option.some.inj h₂]
  · rw [hr]
    exact hh

/-- For known rabbits the loops raise nothing, and send one request for each path. -/
theorem exec_forRabbits (rpc : String → Rpc) (rabbits : List String) (m : Manager)
    (hknown : ∀ r ∈ rabbits, ∃ hosts, site.layout.rabbitsToHostlists.get? r = some hosts) :
    Prog.exec (forRabbits site rpc rabbits) m =
      (.ok (), {m with rpcs := m.rpcs ++ (pathsOf site rabbits).map rpc}) := by
  induction rabbits generalizing m with
  | nil => simp [forRabbits, pathsOf]
  | cons rabbit rest ih =>
    obtain ⟨hosts, hr⟩ := hknown rabbit (List.mem_cons_self ..)
    rw [forRabbits, hr]
    dsimp only
    rw [Prog.exec_bind_ok (Prog.exec_modify _ m), ih _ fun r hmem => hknown r (List.mem_cons_of_mem _ hmem)]
    simp [pathsOf, hr]

def markRabbitsAllocated (jobid : Nat) (rabbits : List String) : Prog KeyError Manager Unit := do
  modify fun m => {m with jobidsToRabbits := m.jobidsToRabbits.set jobid rabbits}
  forRabbits site (fun path => .setProperty path allocatedProperty "yes") rabbits

/-- The rabbits a job without an entry is taken to have. `nodelist` is the string that
`get_job` gives, and iterating over a string gives its characters. -/
def rabbitsOfNodelist (layout : Layout) (nodelist : String) : List String :=
  (nodelist.toList.filterMap fun hostname =>
    layout.hostnamesToRabbits.get? (String.singleton hostname)).dedup

def markRabbitsFree (jobid : Nat) (nodelist : String) : Prog KeyError Manager Unit := do
  let m ← get
  match m.jobidsToRabbits.get? jobid with
  | some rabbits => do
    set {m with jobidsToRabbits := m.jobidsToRabbits.del jobid}
    forRabbits site (fun path => .removeProperty path allocatedProperty) rabbits
  | none =>
    forRabbits site (fun path => .removeProperty path allocatedProperty)
      (rabbitsOfNodelist site.layout nodelist)

theorem mem_rabbitsOfNodelist (layout : Layout) (nodelist rabbit : String) :
    rabbit ∈ rabbitsOfNodelist layout nodelist ↔
      ∃ hostname ∈ nodelist.toList,
        layout.hostnamesToRabbits.get? (String.singleton hostname) = some rabbit := by
  rw [rabbitsOfNodelist, List.mem_dedup, List.mem_filterMap]

theorem exec_markRabbitsAllocated (jobid : Nat) (rabbits : List String) (m : Manager)
    (hknown : ∀ r ∈ rabbits, ∃ hosts, site.layout.rabbitsToHostlists.get? r = some hosts) :
    Prog.exec (markRabbitsAllocated site jobid rabbits) m = (.ok (),
      { jobidsToRabbits := m.jobidsToRabbits.set jobid rabbits
        rpcs := m.rpcs ++ (pathsOf site rabbits).map fun path =>
          .setProperty path allocatedProperty "yes" }) := by
  rw [markRabbitsAllocated, Prog.exec_bind_ok (Prog.exec_modify _ m), exec_forRabbits site _ _ _ hknown]

/-- The rabbits a free gives up. -/
def Manager.freed (m : Manager) (jobid : Nat) (nodelist : String) : List String :=
  (m.jobidsToRabbits.get? jobid).getD (rabbitsOfNodelist site.layout nodelist)

theorem exec_markRabbitsFree (jobid : Nat) (nodelist : String) (m : Manager)
    (hknown : ∀ rabbits, m.jobidsToRabbits.get? jobid = some rabbits →
      ∀ r ∈ rabbits, ∃ hosts, site.layout.rabbitsToHostlists.get? r = some hosts) :
    Prog.exec (markRabbitsFree site jobid nodelist) m = (.ok (),
      { jobidsToRabbits := m.jobidsToRabbits.del jobid
        rpcs := m.rpcs ++ (pathsOf site (m.freed site jobid nodelist)).map fun path =>
          .removeProperty path allocatedProperty }) := by
  rw [markRabbitsFree, Prog.exec_bind_ok (Prog.exec_get m), Manager.freed]
  cases hjob : m.jobidsToRabbits.get? jobid with
  | some rabbits =>
    dsimp only
    rw [Prog.exec_bind_ok (Prog.exec_set _ m), exec_forRabbits site _ _ _ (hknown rabbits hjob)]
    rfl
  | none =>
    dsimp only
    rw [exec_forRabbits site _ _ _ fun r hr => ?_, Dict.del_of_get?_eq_none _ hjob]
    · rfl
    · obtain ⟨hostname, _, hrabbit⟩ := (mem_rabbitsOfNodelist _ _ _).mp hr
      exact site.layout.known _ _ hrabbit

/-! ### The rabbits of a job's hosts -/

/-- The loop of `setup_cb` over a job's hosts: how many computes each rabbit serves,
and how many computes there are. Rabbits are skipped; a host without one is a KeyError. -/
def nodesPerNnf (layout : Layout) : List String → Dict String Nat × Nat → Option (Dict String Nat × Nat)
  | [], counts => some counts
  | hostname :: rest, (nodes, computeNodeCount) =>
    if layout.rabbitsToHostlists.contains hostname then nodesPerNnf layout rest (nodes, computeNodeCount)
    else
      match layout.hostnamesToRabbits.get? hostname with
      | none => none
      | some nnfName => nodesPerNnf layout rest
          (nodes.set nnfName ((nodes.get? nnfName).getD 0 + 1), computeNodeCount + 1)

theorem nodesPerNnf_spec (layout : Layout) (hosts : List String) (counts : Dict String Nat × Nat) :
    match nodesPerNnf layout hosts counts with
    | none => ∃ h ∈ hosts, layout.rabbitsToHostlists.contains h = false ∧
        layout.hostnamesToRabbits.get? h = none
    | some (nodes, _) =>
        (∀ h ∈ hosts, layout.rabbitsToHostlists.contains h = false →
          ∃ r, layout.hostnamesToRabbits.get? h = some r) ∧
        ∀ r, r ∈ nodes.keys ↔ r ∈ counts.1.keys ∨ ∃ h ∈ hosts,
          layout.rabbitsToHostlists.contains h = false ∧ layout.hostnamesToRabbits.get? h = some r := by
  induction hosts generalizing counts with
  | nil => simp [nodesPerNnf]
  | cons hostname rest ih =>
    cases hrabbit : layout.rabbitsToHostlists.contains hostname with
    | true =>
      have hrest := ih counts
      simpa [nodesPerNnf, hrabbit] using hrest
    | false =>
      cases hnnf : layout.hostnamesToRabbits.get? hostname with
      | none => simp [nodesPerNnf, hrabbit, hnnf]
      | some nnfName =>
        have hrest := ih (counts.1.set nnfName ((counts.1.get? nnfName).getD 0 + 1), counts.2 + 1)
        simp only [nodesPerNnf, hrabbit, hnnf, Bool.false_eq_true, if_false]
        cases hloop : nodesPerNnf layout rest
            (counts.1.set nnfName ((counts.1.get? nnfName).getD 0 + 1), counts.2 + 1) with
        | none =>
          rw [hloop] at hrest
          obtain ⟨h, hh, hnone⟩ := hrest
          exact ⟨h, List.mem_cons_of_mem hostname hh, hnone⟩
        | some result =>
          rw [hloop] at hrest
          obtain ⟨hknown, hkeys⟩ := hrest
          refine ⟨fun h hh hnot => ?_, fun r => ?_⟩
          · rcases List.mem_cons.mp hh with rfl | hh
            · exact ⟨nnfName, hnnf⟩
            · exact hknown h hh hnot
          · rw [hkeys, Dict.mem_keys_set]
            simp only [List.mem_cons, exists_eq_or_imp, hrabbit, hnnf, true_and, Option.some.injEq]
            rw [or_comm (a := r = nnfName), or_assoc, eq_comm]

/-- The rabbits `setup_cb` marks for a job with these nodes in R, if it gets that far. -/
def setupRabbits (layout : Layout) (nodelist : List String) : Option (List String) := do
  let hosts ← hostlist lib nodelist
  let (nodes, _) ← nodesPerNnf layout (lib.uniq hosts) (.empty, 0)
  pure nodes.keys

/-- Hosts named one by one. -/
def namedHosts : HostlistPackage where
  decode := fun name => some [name]
  uniq := List.dedup
  mem_uniq := fun _ _ => List.mem_dedup
  nodup_uniq := List.nodup_dedup

/-- A rabbit with one compute. -/
def oneRabbit : Layout := (populateRabbitsDict namedHosts [⟨"rabbit1", some ["node1"]⟩]).get (by decide)

end FluxCoral2.Rabbit
