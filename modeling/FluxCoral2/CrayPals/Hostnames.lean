import FluxCoral2.CrayPals.Taskmap

/-! The hostnames in an apinfo object (`op_set_hostlist`, `op_get_hostlist`).

A name is printed into 64 bytes, of which the last one is a zero, and nothing looks at what
has no room. `names_kept_iff`: the names are kept, and are told apart, exactly if each has
fewer than 64 bytes. -/
namespace FluxCoral2.Apinfo
open Library

/-! ### The hostlist package -/

/-- What a string in memory is: the bytes before the first zero. -/
def cString (bytes : List Byte) : List Byte := bytes.takeWhile fun b => b ≠ 0

/-- A tab, a newline, a blank, a comma, and brackets: what a hostlist has between hosts and in ranges. -/
def separators : List Byte := [0x09, 0x0a, 0x20, 0x2c, 0x5b, 0x5d]

/-- The name of one host, as a hostlist has it. -/
def IsHost (host : List Byte) : Prop := host ≠ [] ∧ ∀ b ∈ host, b ∉ separators

/-- What `op_get_hostlist` uses to make a hostlist. -/
structure HostlistPackage where
  Hosts : Type
  create : Option Hosts
  append : Hosts → List Byte → Option Hosts
  names : Hosts → List (List Byte)

/-- There is memory, and a host that is appended is the next one. -/
structure HostlistPackage.Appends (package : HostlistPackage) : Prop where
  create : ∃ hosts, package.create = some hosts ∧ package.names hosts = []
  append : ∀ hosts host, IsHost host →
    ∃ hosts', package.append hosts host = some hosts' ∧ package.names hosts' = package.names hosts ++ [host]

/-- A hostlist as its names, which takes the names of single hosts. -/
def listHosts : HostlistPackage where
  Hosts := List (List Byte)
  create := some []
  append hosts host := if host ≠ [] ∧ ∀ b ∈ host, b ∉ separators then some (hosts ++ [host]) else none
  names hosts := hosts

theorem listHosts_appends : listHosts.Appends where
  create := ⟨[], rfl, rfl⟩
  append _ _ h := ⟨_, if_pos h, rfl⟩

section Operations
variable {Comm Nic Rest : Type} (ap : Object Comm Nic Rest) (package : HostlistPackage)

def PalsNode.name (node : PalsNode) : List Byte := cString node.hostname.val

/-- The loop of `op_get_hostlist`. -/
def appendNodes : List CInt → package.Hosts → Option package.Hosts
  | [], hosts => some hosts
  | nodeid :: rest, hosts => do
    let node ← ap.nodes[nodeid.toNat]?
    let hosts ← package.append hosts node.name
    appendNodes rest hosts

def opGetHostlist : Option package.Hosts := do
  let hosts ← package.create
  appendNodes ap package (upTo ap.hdr.nnodes) hosts

end Operations

/-- The object has the names, gives them back and writes them, and tells them apart. -/
structure NamesKept {Comm Nic Rest : Type} (package : HostlistPackage) (impl : Impl Comm Nic Rest)
    (names : List (List Byte)) (ap : Object Comm Nic Rest) : Prop where
  stored : ap.nodes.map PalsNode.name = names
  readBack : ∃ readBack, opGetHostlist ap package = some readBack ∧ package.names readBack = names
  written : ∃ file, impl.write ap = some file ∧ (readFile file).2.2.map PalsNode.name = names
  distinct : names.Nodup → (ap.nodes.map PalsNode.name).Nodup

/-! ### What is stored -/

/-- What there is room for. -/
theorem name_newNode {host : List Byte} (h : (0 : Byte) ∉ host) (nodeid : Nat) :
    (newNode host nodeid).name = host.take 63 := by
  have hnonzero : ∀ b ∈ host.take 63, decide (b ≠ 0) = true := fun b hb =>
    decide_eq_true fun hzero => h (hzero ▸ List.mem_of_mem_take hb)
  have hzeros : (host ++ List.replicate 63 (0 : Byte)).take 63 ++ [0] =
      host.take 63 ++ 0 :: List.replicate (63 - host.length) 0 := by
    rw [List.take_append, List.take_replicate, Nat.min_eq_left (Nat.sub_le _ _), List.append_assoc,
      ← List.replicate_succ', List.replicate_succ]
  show cString ((host ++ List.replicate 63 0).take 63 ++ [0]) = _
  rw [hzeros, cString, List.takeWhile_append_of_pos hnonzero, List.takeWhile_cons_of_neg (by decide), List.append_nil]

theorem IsHost.take {host : List Byte} (h : IsHost host) : IsHost (host.take 63) := by
  refine ⟨fun hnil => ?_, fun b hb => h.2 b (List.mem_of_mem_take hb)⟩
  exact h.1 ((List.take_eq_nil_iff.mp hnil).resolve_left (by decide))

section Stored
variable {Comm Nic Rest : Type} {ap : Object Comm Nic Rest} {hosts : Hostlist}

theorem names_eq (hnodes : HasNodes hosts ap) : ap.nodes.map PalsNode.name = hosts.hosts.map (List.take 63) := by
  rw [hnodes.nodes]
  refine List.ext_getElem (by simp) fun i hi _ => ?_
  have hlt : i < hosts.hosts.length := by simpa using hi
  rw [List.getElem_map, List.getElem_map, List.getElem_mapIdx]
  exact name_newNode (hosts.zero_notMem _ (List.getElem_mem hlt)) i

theorem take_eq_self_iff {name : List Byte} : name.take 63 = name ↔ name.length < 64 := by
  constructor
  · intro h
    have hlength := congrArg List.length h
    rw [List.length_take] at hlength
    omega
  · intro h
    exact List.take_of_length_le (Nat.le_of_lt_succ h)

/-- The names fit exactly if none is as long as the field. -/
theorem map_take_eq_iff (names : List (List Byte)) :
    names.map (List.take 63) = names ↔ ∀ name ∈ names, name.length < 64 := by
  induction names with
  | nil => exact iff_of_true rfl nofun
  | cons name names ih =>
    rw [List.map_cons, List.cons.injEq, List.forall_mem_cons, ih, take_eq_self_iff]

/-- The names that are stored are appended one by one. -/
theorem foldlM_names {package : HostlistPackage} (happends : package.Appends) {nodes : List PalsNode}
    (hhosts : ∀ node ∈ nodes, IsHost node.name) (hosts : package.Hosts) :
    ∃ hosts', nodes.foldlM (fun hosts node => package.append hosts node.name) hosts = some hosts' ∧
      package.names hosts' = package.names hosts ++ nodes.map PalsNode.name := by
  induction nodes generalizing hosts with
  | nil => exact ⟨hosts, rfl, (List.append_nil _).symm⟩
  | cons node nodes ih =>
    obtain ⟨hhost, hhosts⟩ := List.forall_mem_cons.mp hhosts
    obtain ⟨hosts', happend, hnames⟩ := happends.append hosts node.name hhost
    obtain ⟨last, hlast, hall⟩ := ih hhosts hosts'
    refine ⟨last, ?_, ?_⟩
    · rw [List.foldlM_cons, happend, Option.bind_eq_bind, Option.bind_some, hlast]
    · rw [hall, hnames, List.map_cons, List.append_assoc]
      rfl

theorem opGetHostlist_names {package : HostlistPackage} (happends : package.Appends) (hnodes : HasNodes hosts ap)
    (hhosts : ∀ host ∈ hosts.hosts, IsHost host) : ∃ readBack, opGetHostlist ap package = some readBack ∧
      package.names readBack = hosts.hosts.map (List.take 63) := by
  obtain ⟨empty, hcreate, hempty⟩ := happends.create
  have hlength : ap.nodes.length = hosts.hosts.length := by rw [hnodes.nodes, List.length_mapIdx]
  have hnames : ∀ node ∈ ap.nodes, IsHost node.name := by
    intro node hnode
    have hname : node.name ∈ ap.nodes.map PalsNode.name := List.mem_map_of_mem hnode
    rw [names_eq hnodes] at hname
    obtain ⟨host, hhost, hname⟩ := List.mem_map.mp hname
    exact hname ▸ (hhosts host hhost).take
  have hloop : appendNodes ap package (upTo (cint ap.nodes.length)) empty =
      ap.nodes.foldlM (fun hosts node => package.append hosts node.name) empty :=
    loop_upTo (fun _ => rfl) (fun _ _ _ => rfl) (hlength ▸ hosts.count_lt) empty
  obtain ⟨readBack, hback, hall⟩ := foldlM_names happends hnames empty
  rw [hempty, List.nil_append, names_eq hnodes] at hall
  refine ⟨readBack, ?_, hall⟩
  rw [opGetHostlist, hcreate, Option.bind_eq_bind, Option.bind_some, hnodes.nnodes, ← hlength, hloop]
  exact hback

/-- The names that are kept are those that fit. -/
theorem namesKept_iff {package : HostlistPackage} (happends : package.Appends) {impl : Impl Comm Nic Rest}
    (hnodes : HasNodes hosts ap) (hhosts : ∀ host ∈ hosts.hosts, IsHost host)
    (hwrite : ∃ file, impl.write ap = some file ∧ readFile file = (ap.cmds, ap.pes, ap.nodes)) :
    NamesKept package impl hosts.hosts ap ↔ ∀ host ∈ hosts.hosts, host.length < 64 := by
  rw [← map_take_eq_iff]
  have hnames := names_eq hnodes
  constructor
  · intro h
    exact hnames.symm.trans h.stored
  · intro h
    rw [h] at hnames
    obtain ⟨readBack, hback, hall⟩ := opGetHostlist_names happends hnodes hhosts
    obtain ⟨file, hfile, harrays⟩ := hwrite
    refine ⟨hnames, ⟨readBack, hback, hall.trans h⟩, ⟨file, hfile, ?_⟩, fun hnodup => hnames.symm ▸ hnodup⟩
    rw [harrays]
    exact hnames

end Stored

/-! ### The result -/

theorem apinfo1_written (calls : List Impl.Call) : ∃ file, apinfo1.write (apinfo1.run calls) = some file ∧
    readFile file = ((apinfo1.run calls).cmds, (apinfo1.run calls).pes, (apinfo1.run calls).nodes) := by
  obtain ⟨h, hplaced⟩ := run_held Apinfo1.lays calls
  exact ⟨_, Apinfo1.opWrite_eq h, (Apinfo1.written h hplaced).arrays⟩

theorem apinfo5_written (calls : List Impl.Call) : ∃ file, apinfo5.write (apinfo5.run calls) = some file ∧
    readFile file = ((apinfo5.run calls).cmds, (apinfo5.run calls).pes, (apinfo5.run calls).nodes) := by
  obtain ⟨h, hplaced⟩ := run_held Apinfo5.lays calls
  exact ⟨_, Apinfo5.opWrite_eq h, (Apinfo5.written h hplaced).arrays⟩

/-- The object after some calls and one more. -/
theorem run_append_singleton {Comm Nic Rest : Type} (impl : Impl Comm Nic Rest) (calls : List Impl.Call)
    (c : Impl.Call) : impl.run (calls ++ [c]) = (impl.call (impl.run calls) c).1 := by
  rw [Impl.run, List.foldl_append]
  rfl

/-- **The hostnames are kept** by both versions exactly if each of them fits in its field with
a zero behind it. -/
theorem names_kept_iff {package : HostlistPackage} (happends : package.Appends) (hosts : Hostlist)
    (hhosts : ∀ host ∈ hosts.hosts, IsHost host) (calls : List Impl.Call) (heap : Bool) :
    ((apinfo1.call (apinfo1.run calls) (.setHostlist heap hosts)).2 = true →
      (NamesKept package apinfo1 hosts.hosts (apinfo1.run (calls ++ [.setHostlist heap hosts])) ↔
        ∀ host ∈ hosts.hosts, host.length < 64)) ∧
    ((apinfo5.call (apinfo5.run calls) (.setHostlist heap hosts)).2 = true →
      (NamesKept package apinfo5 hosts.hosts (apinfo5.run (calls ++ [.setHostlist heap hosts])) ↔
        ∀ host ∈ hosts.hosts, host.length < 64)) := by
  constructor
  · intro hok
    refine namesKept_iff happends ?_ hhosts (apinfo1_written _)
    rw [run_append_singleton]
    exact (call_setHostlist apinfo1_keeps hok).1
  · intro hok
    refine namesKept_iff happends ?_ hhosts (apinfo5_written _)
    rw [run_append_singleton]
    exact (call_setHostlist apinfo5_keeps hok).1

theorem twoHosts_kept :
    NamesKept listHosts apinfo1 twoHosts.hosts (apinfo1.run ([] ++ [.setHostlist true twoHosts])) ∧
      NamesKept listHosts apinfo5 twoHosts.hosts (apinfo5.run ([] ++ [.setHostlist true twoHosts])) := by
  have hshort : ∀ host ∈ twoHosts.hosts, host.length < 64 := by decide
  obtain ⟨hone, hfive⟩ := names_kept_iff listHosts_appends twoHosts (by unfold IsHost; decide) [] true
  exact ⟨(hone (by decide)).mpr hshort, (hfive (by decide)).mpr hshort⟩

/-- Two names that differ in their last byte, which is the 64th. -/
def longHosts : Hostlist :=
  ⟨[List.replicate 63 97 ++ [97], List.replicate 63 97 ++ [98]], by decide, by decide⟩

theorem isHost_replicate_append {a b : Byte} (ha : a ∉ separators) (hb : b ∉ separators) (n : Nat) :
    IsHost (List.replicate n a ++ [b]) := by
  refine ⟨List.append_ne_nil_of_right_ne_nil _ (List.cons_ne_nil _ _), fun c hc => ?_⟩
  rcases List.mem_append.mp hc with hc | hc
  · exact List.eq_of_mem_replicate hc ▸ ha
  · exact List.mem_singleton.mp hc ▸ hb

theorem isHost_longHosts : ∀ host ∈ longHosts.hosts, IsHost host := by
  refine List.forall_mem_cons.mpr ⟨?_, List.forall_mem_singleton.mpr ?_⟩
  · exact isHost_replicate_append (by decide) (by decide) 63
  · exact isHost_replicate_append (by decide) (by decide) 63

theorem longHosts_taken_for_one :
    (apinfo1.call (apinfo1.run []) (.setHostlist true longHosts)).2 = true ∧
      (apinfo5.call (apinfo5.run []) (.setHostlist true longHosts)).2 = true ∧
      longHosts.hosts.Nodup ∧ (∀ host ∈ longHosts.hosts, IsHost host) ∧
      ¬ NamesKept listHosts apinfo1 longHosts.hosts (apinfo1.run [.setHostlist true longHosts]) ∧
      ¬ NamesKept listHosts apinfo5 longHosts.hosts (apinfo5.run [.setHostlist true longHosts]) := by
  have hone : (apinfo1.call (apinfo1.run []) (.setHostlist true longHosts)).2 = true := by decide
  have hfive : (apinfo5.call (apinfo5.run []) (.setHostlist true longHosts)).2 = true := by decide
  have hnodup : longHosts.hosts.Nodup := by decide
  have hlong : ¬ (longHosts.hosts.map (List.take 63)).Nodup := by decide
  refine ⟨hone, hfive, hnodup, isHost_longHosts, fun h => hlong ?_, fun h => hlong ?_⟩
  · rw [← names_eq (call_setHostlist apinfo1_keeps hone).1]
    exact h.distinct hnodup
  · rw [← names_eq (call_setHostlist apinfo5_keeps hfive).1]
    exact h.distinct hnodup

end FluxCoral2.Apinfo
