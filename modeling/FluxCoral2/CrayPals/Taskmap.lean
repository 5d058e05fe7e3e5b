import FluxCoral2.CrayPals.Apinfo

/-! What an apinfo object has of the tasks of a job (`apinfo1.c`, `apinfo5.c`).

Cray MPI wires the tasks by their nodes, and by their places among the tasks of a node, which
are found by a scan for each task. `apinfo_exact`: once the taskmap and the hostlist are set,
the tasks, the command, the check and the taskmap that is read back are right, in both
versions alike, for any assignment of the tasks to nodes. -/
namespace FluxCoral2.Apinfo
open Library

abbrev cint (n : Nat) : CInt := BitVec.ofNat 32 n

/-! ### The taskmap package -/

/-- The tasks on a node, by the nodes of the tasks. -/
def tasksOn (nodes : List Nat) (node : Nat) : List Nat :=
  (List.range nodes.length).filter fun task => nodes[task]? = some node

/-- The accessors give what the map has: the nodes of the tasks. -/
structure Taskmap.Describes (map : Taskmap) (nodes : List Nat) : Prop where
  count_lt : nodes.length < 2 ^ 31
  totalNtasks : map.totalNtasks = cint nodes.length
  nnodes_lt : map.nnodes.toNat < 2 ^ 31
  below : ∀ node ∈ nodes, node < map.nnodes.toNat
  nodeid : ∀ (task : Nat) (h : task < nodes.length), map.nodeid (cint task) = cint nodes[task]
  ntasks : ∀ node ∈ nodes, map.ntasks (cint node) = cint (nodes.count node)
  ntasks_unused : ∀ node < map.nnodes.toNat, node ∉ nodes → (map.ntasks (cint node)).toInt ≤ 0
  taskids : ∀ node ∈ nodes, map.taskids (cint node) = some ((tasksOn nodes node).map cint)

/-- What `op_get_taskmap` uses to make a map. -/
structure TaskmapPackage where
  Map : Type
  create : Option Map
  append : Map → CInt → CInt → CInt → Option Map
  view : Map → Taskmap

/-- There is memory, and a task that is appended is the next one, on its node. The accessors
refuse a map without tasks. -/
structure TaskmapPackage.Appends (package : TaskmapPackage) (Has : package.Map → List Nat → Prop) : Prop where
  create : ∃ map, package.create = some map ∧ Has map []
  append : ∀ map nodes node, Has map nodes → nodes.length + 1 < 2 ^ 31 → node + 1 < 2 ^ 31 →
    ∃ map', package.append map (cint node) 1 1 = some map' ∧ Has map' (nodes ++ [node])
  view : ∀ map nodes, Has map nodes → nodes ≠ [] → (package.view map).Describes nodes

/-! ### Checking and reading back -/

inductive CheckError
  | badNodeidx (taskid nnodes : CInt)
  | unreferenced (nid : CInt) (hostname : Block 64)

section Operations
variable {Comm Nic Rest : Type} (ap : Object Comm Nic Rest)

/-- `pes[taskid].nodeidx >= nnodes`. -/
def badNodeidx (taskid : CInt) : Bool := ap.pes[taskid.toNat]?.any fun pe => !pe.nodeidx.slt ap.hdr.nnodes

/-- Some task is on the node. -/
def referenced (node : PalsNode) : Bool :=
  (upTo ap.hdr.npes).any fun taskid => ap.pes[taskid.toNat]?.any fun pe => pe.nodeidx = node.nid

/-- The second loop of `op_check`. -/
def checkNodes : List CInt → Except CheckError Unit
  | [] => .ok ()
  | nodeid :: rest =>
    match ap.nodes[nodeid.toNat]? with
    | none => checkNodes rest
    | some node => if referenced ap node then checkNodes rest else .error (.unreferenced node.nid node.hostname)

def opCheck : Except CheckError Unit :=
  match (upTo ap.hdr.npes).find? (badNodeidx ap) with
  | some taskid => .error (.badNodeidx taskid ap.hdr.nnodes)
  | none => checkNodes ap (upTo ap.hdr.nnodes)

/-- The loop of `op_get_taskmap`. -/
def appendPes (package : TaskmapPackage) : List CInt → package.Map → Option package.Map
  | [], map => some map
  | taskid :: rest, map => do
    let pe ← ap.pes[taskid.toNat]?
    let map ← package.append map pe.nodeidx 1 1
    appendPes package rest map

def opGetTaskmap (package : TaskmapPackage) : Option package.Map := do
  let map ← package.create
  appendPes ap package (upTo ap.hdr.npes) map

end Operations

/-! ### What is to be -/

/-- The tasks of the node with the most. -/
def maxPerNode (nodes : List Nat) : Nat := (nodes.map nodes.count).foldr max 0

/-- The object has the tasks on their nodes, and the hosts. -/
structure Exact {Comm Nic Rest : Type} (package : TaskmapPackage) (map : Taskmap) (nodes : List Nat)
    (hosts : Hostlist) (ap : Object Comm Nic Rest) : Prop where
  nodeidx : ap.pes.map PalsPe.nodeidx = nodes.map cint
  localidx : ∀ node ∈ nodes, (ap.pes.filter fun pe => pe.nodeidx = cint node).map PalsPe.localidx =
    (List.range (nodes.count node)).map cint
  npes : ap.cmds.map PalsCmd.npes = [cint nodes.length]
  pesPerNode : ap.cmds.map PalsCmd.pesPerNode = [cint (maxPerNode nodes)]
  taskmap : ∃ readBack, opGetTaskmap ap package = some readBack ∧
    (nodes ≠ [] → (package.view readBack).totalNtasks = map.totalNtasks) ∧
    ∀ task < nodes.length, (package.view readBack).nodeid (cint task) = map.nodeid (cint task)
  check : opCheck ap = .ok () ↔ ∀ node, node ∈ nodes ↔ node < hosts.hosts.length

/-! ### Numbers and places -/

theorem toInt_cint {n : Nat} (h : n < 2 ^ 31) : (cint n).toInt = n := by
  rw [BitVec.toInt_eq_toNat_of_lt (by rw [toNat_cint h]; omega), toNat_cint h]

theorem cint_inj {m n : Nat} (hm : m < 2 ^ 31) (hn : n < 2 ^ 31) : cint m = cint n ↔ m = n := by
  refine ⟨fun h => ?_, congrArg cint⟩
  rw [← toNat_cint hm, ← toNat_cint hn]
  exact congrArg BitVec.toNat h

theorem upTo_cint {n : Nat} (h : n < 2 ^ 31) : upTo (cint n) = (List.range n).map cint := by
  rw [upTo, toInt_cint h, Int.toNat_natCast]

/-- A loop over the numbers of some items is one over the items. -/
theorem loop_upTo {α σ : Type} {items : List α} {push : σ → α → Option σ} {loop : List CInt → σ → Option σ}
    (hnil : ∀ s, loop [] s = some s)
    (hcons : ∀ i rest s, loop (i :: rest) s = items[i.toNat]?.bind fun x => (push s x).bind (loop rest))
    (hlength : items.length < 2 ^ 31) (s : σ) : loop (upTo (cint items.length)) s = items.foldlM push s := by
  -- the items before those that are left are as many as the number the loop is at
  have hrest (before rest : List α) (hitems : items = before ++ rest) (s : σ) :
      loop ((List.range' before.length rest.length).map cint) s = rest.foldlM push s := by
    induction rest generalizing before s with
    | nil => exact hnil s
    | cons x rest ih =>
      have hbefore : before.length < 2 ^ 31 := by
        rw [hitems, List.length_append] at hlength
        omega
      have hat : items[(cint before.length).toNat]? = some x := by
        rw [toNat_cint hbefore, hitems, List.getElem?_append_right (Nat.le_refl _), Nat.sub_self]
        rfl
      have hnext := ih (before ++ [x]) (hitems.trans (List.append_cons before x rest))
      rw [List.length_append, List.length_singleton] at hnext
      rw [List.length_cons, List.range'_succ, List.map_cons, hcons, hat, Option.bind_some, List.foldlM_cons]
      exact congrArg (push s x).bind (funext hnext)
  rw [upTo_cint hlength, List.range_eq_range']
  exact hrest [] items rfl s

theorem mem_tasksOn {nodes : List Nat} {node task : Nat} : task ∈ tasksOn nodes node ↔ nodes[task]? = some node := by
  rw [tasksOn, List.mem_filter, List.mem_range, decide_eq_true_eq]
  refine and_iff_right_of_imp fun h => ?_
  exact (List.getElem?_eq_some_iff.mp h).1

theorem length_tasksOn (nodes : List Nat) (node : Nat) : (tasksOn nodes node).length = nodes.count node := by
  have hsome : (List.range nodes.length).map (fun task => nodes[task]?) = nodes.map some := by
    refine List.ext_getElem (by simp) fun i _ hi => ?_
    simp
  have hcount : nodes.count node = (nodes.map some).countP fun x => x = some node := by
    rw [List.countP_map]
    exact List.countP_congr fun x _ => by simp
  rw [hcount, ← hsome, List.countP_map, List.countP_eq_length_filter]
  rfl

/-- The scan finds each task of the list at its place. -/
theorem localidxFrom_getElem {ids : List Nat} (hnodup : ids.Nodup) (hlt : ∀ id ∈ ids, id < 2 ^ 31) (start : CInt)
    {i : Nat} (hi : i < ids.length) : localidxFrom (cint ids[i]) start (ids.map cint) = start + cint i := by
  induction ids generalizing start i with
  | nil => cases hi
  | cons id rest ih =>
    obtain ⟨hnew, hnodup⟩ := List.nodup_cons.mp hnodup
    obtain ⟨hid, hlt⟩ := List.forall_mem_cons.mp hlt
    rw [List.map_cons, localidxFrom]
    cases i with
    | zero =>
      rw [List.getElem_cons_zero, if_pos rfl]
      exact (BitVec.add_zero start).symm
    | succ i =>
      have hi' : i < rest.length := Nat.lt_of_succ_lt_succ hi
      have hmem : rest[i] ∈ rest := List.getElem_mem hi'
      have hne : ¬ cint id = cint rest[i] := fun h => hnew ((cint_inj hid (hlt _ hmem)).mp h ▸ hmem)
      have hnext : cint (i + 1) = 1 + cint i := by
        rw [cint, Nat.add_comm, BitVec.ofNat_add]
        rfl
      rw [List.getElem_cons_succ, if_neg hne, ih hnodup hlt, hnext, BitVec.add_assoc]

/-! ### The tasks -/

section Tasks
variable {map : Taskmap} {nodes : List Nat}

/-- The tasks that `set_pes` makes. -/
def newPes (map : Taskmap) : List PalsPe := (upTo map.totalNtasks).map (newPe map)

theorem newPes_eq (h : map.Describes nodes) :
    newPes map = (List.range nodes.length).map fun task => newPe map (cint task) := by
  rw [newPes, h.totalNtasks, upTo_cint h.count_lt, List.map_map]
  rfl

theorem newPe_eq (h : map.Describes nodes) {task : Nat} (ht : task < nodes.length) :
    newPe map (cint task) = ⟨localidx map (cint nodes[task]) (cint task), 0, cint nodes[task]⟩ := by
  rw [newPe, h.nodeid task ht]

theorem Taskmap.Describes.node_lt (h : map.Describes nodes) {node : Nat} (hnode : node ∈ nodes) : node < 2 ^ 31 :=
  Nat.lt_trans (h.below node hnode) h.nnodes_lt

theorem nodeidx_newPes (h : map.Describes nodes) : (newPes map).map PalsPe.nodeidx = nodes.map cint := by
  rw [newPes_eq h, List.map_map]
  refine List.ext_getElem (by simp) fun task ht _ => ?_
  have hlt : task < nodes.length := by simpa using ht
  simp [newPe_eq h hlt]

/-- The tasks of a node have its places in order. -/
theorem localidx_newPes (h : map.Describes nodes) {node : Nat} (hnode : node ∈ nodes) :
    ((newPes map).filter fun pe => pe.nodeidx = cint node).map PalsPe.localidx =
      (List.range (nodes.count node)).map cint := by
  have htasks : (newPes map).filter (fun pe => pe.nodeidx = cint node) =
      (tasksOn nodes node).map fun task => newPe map (cint task) := by
    rw [newPes_eq h, List.filter_map]
    refine congrArg _ (List.filter_congr fun task ht => ?_)
    have hlt := List.mem_range.mp ht
    have hmem : nodes[task] ∈ nodes := List.getElem_mem hlt
    rw [Function.comp_apply, newPe_eq h hlt, List.getElem?_eq_getElem hlt]
    exact decide_eq_decide.mpr ((cint_inj (h.node_lt hmem) (h.node_lt hnode)).trans Option.some_inj.symm)
  have hnodup : (tasksOn nodes node).Nodup := List.nodup_range.filter _
  have hlt : ∀ task ∈ tasksOn nodes node, task < 2 ^ 31 := fun task ht =>
    Nat.lt_trans (List.mem_range.mp (List.mem_filter.mp ht).1) h.count_lt
  rw [htasks, List.map_map]
  refine List.ext_getElem (by simp [length_tasksOn]) fun i hi _ => ?_
  have hi' : i < (tasksOn nodes node).length := by simpa using hi
  obtain ⟨ht, hat⟩ := List.getElem?_eq_some_iff.mp (mem_tasksOn.mp (List.getElem_mem hi'))
  rw [List.getElem_map, List.getElem_map, List.getElem_range, Function.comp_apply, newPe_eq h ht, hat]
  show localidx map (cint node) _ = _
  rw [localidx, h.taskids node hnode]
  exact (localidxFrom_getElem hnodup hlt 0 hi').trans (BitVec.zero_add _)

/-! ### The command -/

theorem foldl_max (g : CInt → CInt) (xs : List CInt) (start : CInt) :
    let r := xs.foldl (fun max x => if max.slt (g x) then g x else max) start
    start.toInt ≤ r.toInt ∧ (∀ x ∈ xs, (g x).toInt ≤ r.toInt) ∧ (r = start ∨ ∃ x ∈ xs, r = g x) := by
  induction xs generalizing start with
  | nil => exact ⟨Int.le_refl _, nofun, .inl rfl⟩
  | cons x xs ih =>
    obtain ⟨hstart, hall, hcases⟩ := ih (if start.slt (g x) then g x else start)
    rw [List.foldl_cons]
    by_cases hlt : start.slt (g x) = true
    · rw [if_pos hlt] at hstart hall hcases ⊢
      have hle := Int.le_of_lt (BitVec.slt_iff_toInt_lt.mp hlt)
      refine ⟨Int.le_trans hle hstart, List.forall_mem_cons.mpr ⟨hstart, hall⟩, .inr ?_⟩
      rcases hcases with hr | ⟨y, hy, hr⟩
      · exact ⟨x, List.mem_cons_self, hr⟩
      · exact ⟨y, List.mem_cons_of_mem x hy, hr⟩
    · rw [if_neg hlt] at hstart hall hcases ⊢
      have hle := Int.not_lt.mp fun h => hlt (BitVec.slt_iff_toInt_lt.mpr h)
      refine ⟨hstart, List.forall_mem_cons.mpr ⟨Int.le_trans hle hstart, hall⟩, ?_⟩
      exact hcases.imp_right fun ⟨y, hy, hr⟩ => ⟨y, List.mem_cons_of_mem x hy, hr⟩

theorem foldr_max_spec (xs : List Nat) :
    (∀ x ∈ xs, x ≤ xs.foldr max 0) ∧ (xs.foldr max 0 = 0 ∨ xs.foldr max 0 ∈ xs) := by
  induction xs with
  | nil => exact ⟨nofun, .inl rfl⟩
  | cons x xs ih =>
    rw [List.foldr_cons]
    refine ⟨List.forall_mem_cons.mpr ⟨Nat.le_max_left _ _, fun y hy => ?_⟩, ?_⟩
    · exact Nat.le_trans (ih.1 y hy) (Nat.le_max_right _ _)
    · rcases Nat.le_total x (xs.foldr max 0) with hle | hle
      · rw [Nat.max_eq_right hle]
        exact ih.2.imp_right (List.mem_cons_of_mem x)
      · rw [Nat.max_eq_left hle]
        exact .inr List.mem_cons_self

theorem maxPerNode_le (nodes : List Nat) : maxPerNode nodes ≤ nodes.length := by
  rcases (foldr_max_spec (nodes.map nodes.count)).2 with hzero | hmem
  · exact Nat.le_trans (Nat.le_of_eq hzero) (Nat.zero_le _)
  · obtain ⟨node, -, hcount⟩ := List.mem_map.mp hmem
    exact Nat.le_trans (Nat.le_of_eq hcount.symm) List.count_le_length

theorem maxNtasks_eq (h : map.Describes nodes) : maxNtasks map = cint (maxPerNode nodes) := by
  obtain ⟨hbound, hattained⟩ := foldr_max_spec (nodes.map nodes.count)
  have hsmall : maxPerNode nodes < 2 ^ 31 := Nat.lt_of_le_of_lt (maxPerNode_le nodes) h.count_lt
  have hcount {node : Nat} : (cint (nodes.count node)).toInt = nodes.count node :=
    toInt_cint (Nat.lt_of_le_of_lt List.count_le_length h.count_lt)
  have hupTo : upTo map.nnodes = (List.range map.nnodes.toNat).map cint := by
    rw [upTo, BitVec.toInt_eq_toNat_of_lt (by have := h.nnodes_lt; omega), Int.toNat_natCast]
  obtain ⟨hzero, hall, hcases⟩ := foldl_max map.ntasks (upTo map.nnodes) 0
  refine BitVec.eq_of_toInt_eq ?_
  rw [toInt_cint hsmall]
  refine Int.le_antisymm ?_ ?_
  · rcases hcases with hr | ⟨_, hmem, hr⟩
    · exact Int.le_trans (Int.le_of_eq (congrArg BitVec.toInt hr)) (Int.natCast_nonneg _)
    · rw [hupTo] at hmem
      obtain ⟨node, hnode, rfl⟩ := List.mem_map.mp hmem
      refine Int.le_trans (Int.le_of_eq (congrArg BitVec.toInt hr)) ?_
      by_cases hused : node ∈ nodes
      · rw [h.ntasks node hused, hcount]
        exact Int.ofNat_le.mpr (hbound _ (List.mem_map_of_mem hused))
      · exact Int.le_trans (h.ntasks_unused node (List.mem_range.mp hnode) hused) (Int.natCast_nonneg _)
  · rcases hattained with hnone | hmem
    · exact Int.le_trans (Int.ofNat_le.mpr (Nat.le_of_eq hnone)) hzero
    · obtain ⟨node, hused, hmax⟩ := List.mem_map.mp hmem
      have hin : cint node ∈ upTo map.nnodes :=
        hupTo ▸ List.mem_map_of_mem (List.mem_range.mpr (h.below node hused))
      have hle := hall _ hin
      rw [h.ntasks node hused, hcount, hmax] at hle
      exact hle

end Tasks

/-! ### What the setters set -/

section
variable {Comm Nic Rest : Type}

structure HasTasks (map : Taskmap) (cpusPerPe : CInt) (ap : Object Comm Nic Rest) : Prop where
  npes : ap.hdr.npes = map.totalNtasks
  pes : ap.pes = newPes map
  cmds : ap.cmds = [newCmd map cpusPerPe]

structure HasNodes (hosts : Hostlist) (ap : Object Comm Nic Rest) : Prop where
  nnodes : ap.hdr.nnodes = cint hosts.hosts.length
  nodes : ap.nodes = hosts.hosts.mapIdx fun i host => newNode host i

/-- What both setters make of a map and of hosts. -/
structure HasSet (map : Taskmap) (cpusPerPe : CInt) (hosts : Hostlist) (ap : Object Comm Nic Rest) : Prop
    extends HasTasks map cpusPerPe ap, HasNodes hosts ap

/-- `set_offsets` leaves the arrays and their counts alone. -/
structure Impl.Keeps (impl : Impl Comm Nic Rest) : Prop where
  npes : ∀ ap, (impl.setOffsets ap).hdr.npes = ap.hdr.npes
  pes : ∀ ap, (impl.setOffsets ap).pes = ap.pes
  cmds : ∀ ap, (impl.setOffsets ap).cmds = ap.cmds
  nnodes : ∀ ap, (impl.setOffsets ap).hdr.nnodes = ap.hdr.nnodes
  nodes : ∀ ap, (impl.setOffsets ap).nodes = ap.nodes

theorem apinfo1_keeps : apinfo1.Keeps := ⟨fun _ => rfl, fun _ => rfl, fun _ => rfl, fun _ => rfl, fun _ => rfl⟩

theorem apinfo5_keeps : apinfo5.Keeps := ⟨fun _ => rfl, fun _ => rfl, fun _ => rfl, fun _ => rfl, fun _ => rfl⟩

/-- Every call on the object succeeds. -/
def Impl.Succeed (impl : Impl Comm Nic Rest) : Object Comm Nic Rest → List Impl.Call → Prop
  | _, [] => True
  | ap, c :: calls => (impl.call ap c).2 = true ∧ impl.Succeed (impl.call ap c).1 calls

variable {impl : Impl Comm Nic Rest} {ap : Object Comm Nic Rest} {map : Taskmap} {cpusPerPe : CInt} {hosts : Hostlist}

theorem HasNodes.setOffsets (hkeeps : impl.Keeps) (h : HasNodes hosts ap) : HasNodes hosts (impl.setOffsets ap) :=
  ⟨(hkeeps.nnodes ap).trans h.nnodes, (hkeeps.nodes ap).trans h.nodes⟩

theorem HasTasks.setOffsets (hkeeps : impl.Keeps) (h : HasTasks map cpusPerPe ap) :
    HasTasks map cpusPerPe (impl.setOffsets ap) :=
  ⟨(hkeeps.npes ap).trans h.npes, (hkeeps.pes ap).trans h.pes, (hkeeps.cmds ap).trans h.cmds⟩

theorem call_setTaskmap (hkeeps : impl.Keeps) {heapPes heapCmd : Bool}
    (hok : (impl.call ap (.setTaskmap heapPes heapCmd map cpusPerPe)).2 = true) :
    HasTasks map cpusPerPe (impl.call ap (.setTaskmap heapPes heapCmd map cpusPerPe)).1 ∧
      ∀ hosts, HasNodes hosts ap → HasNodes hosts (impl.call ap (.setTaskmap heapPes heapCmd map cpusPerPe)).1 := by
  unfold Impl.call Impl.setPes Impl.setCmd at hok ⊢
  by_cases hpes : calloc heapPes map.totalNtasks palsPe.size = true
  · by_cases hcmd : calloc heapCmd 1 palsCmd.size = true
    · simp only [if_pos hpes, if_pos hcmd]
      exact ⟨HasTasks.setOffsets hkeeps ⟨hkeeps.npes _, hkeeps.pes _, rfl⟩, fun hosts h =>
        HasNodes.setOffsets hkeeps ⟨(hkeeps.nnodes _).trans h.nnodes, (hkeeps.nodes _).trans h.nodes⟩⟩
    · simp only [if_pos hpes, if_neg hcmd] at hok
      cases hok
  · simp only [if_neg hpes] at hok
    cases hok

theorem call_setHostlist (hkeeps : impl.Keeps) {heap : Bool} (hok : (impl.call ap (.setHostlist heap hosts)).2 = true) :
    HasNodes hosts (impl.call ap (.setHostlist heap hosts)).1 ∧ ∀ map cpusPerPe,
      HasTasks map cpusPerPe ap → HasTasks map cpusPerPe (impl.call ap (.setHostlist heap hosts)).1 := by
  unfold Impl.call Impl.setNodes at hok ⊢
  by_cases hnodes : calloc heap (BitVec.ofNat 32 hosts.hosts.length) palsNode.size = true
  · simp only [if_pos hnodes]
    exact ⟨HasNodes.setOffsets hkeeps ⟨rfl, rfl⟩, fun map cpusPerPe h =>
      HasTasks.setOffsets hkeeps ⟨h.npes, h.pes, h.cmds⟩⟩
  · simp only [if_neg hnodes] at hok
    cases hok

/-- Either setter may come first. -/
theorem run_hasSet (hkeeps : impl.Keeps) (calls : List Impl.Call) {heapPes heapCmd heapNodes : Bool}
    {setters : List Impl.Call}
    (hsetters : setters = [.setTaskmap heapPes heapCmd map cpusPerPe, .setHostlist heapNodes hosts] ∨
      setters = [.setHostlist heapNodes hosts, .setTaskmap heapPes heapCmd map cpusPerPe])
    (hok : impl.Succeed (impl.run calls) setters) : HasSet map cpusPerPe hosts (impl.run (calls ++ setters)) := by
  rw [Impl.run, List.foldl_append]
  rcases hsetters with rfl | rfl
  · obtain ⟨hmap, hhosts, -⟩ := hok
    obtain ⟨hnodes, htasks⟩ := call_setHostlist hkeeps hhosts
    exact ⟨htasks map cpusPerPe (call_setTaskmap hkeeps hmap).1, hnodes⟩
  · obtain ⟨hhosts, hmap, -⟩ := hok
    obtain ⟨htasks, hnodes⟩ := call_setTaskmap hkeeps hmap
    exact ⟨htasks, hnodes hosts (call_setHostlist hkeeps hhosts).1⟩

end

section Check
variable {Comm Nic Rest : Type} {ap : Object Comm Nic Rest} {map : Taskmap} {nodes : List Nat} {cpusPerPe : CInt}
  {hosts : Hostlist}

theorem HasSet.upTo_npes (hset : HasSet map cpusPerPe hosts ap) (h : map.Describes nodes) :
    upTo ap.hdr.npes = (List.range nodes.length).map cint := by
  rw [hset.npes, h.totalNtasks, upTo_cint h.count_lt]

theorem HasSet.pe (hset : HasSet map cpusPerPe hosts ap) (h : map.Describes nodes) {task : Nat}
    (ht : task < nodes.length) :
    ap.pes[(cint task).toNat]? = some ⟨localidx map (cint nodes[task]) (cint task), 0, cint nodes[task]⟩ := by
  rw [hset.pes, newPes_eq h, toNat_cint (Nat.lt_trans ht h.count_lt), List.getElem?_map, List.getElem?_range ht]
  exact congrArg some (newPe_eq h ht)

theorem badNodeidx_eq (hset : HasSet map cpusPerPe hosts ap) (h : map.Describes nodes) {task : Nat}
    (ht : task < nodes.length) : badNodeidx ap (cint task) = !decide (nodes[task] < hosts.hosts.length) := by
  have hnode := h.node_lt (List.getElem_mem ht)
  rw [badNodeidx, hset.pe h ht, hset.nnodes, Option.any_some, BitVec.slt_eq_decide, toInt_cint hnode,
    toInt_cint hosts.count_lt]
  simp

theorem referenced_iff (hset : HasSet map cpusPerPe hosts ap) (h : map.Describes nodes) {host : List Byte} {node : Nat}
    (hnode : node < 2 ^ 31) : referenced ap (newNode host node) = true ↔ node ∈ nodes := by
  rw [referenced, hset.upTo_npes h, List.any_map, List.any_eq_true]
  constructor
  · rintro ⟨task, htask, hat⟩
    have ht := List.mem_range.mp htask
    have hmem : nodes[task] ∈ nodes := List.getElem_mem ht
    rw [Function.comp_apply, hset.pe h ht, Option.any_some, decide_eq_true_eq] at hat
    exact (cint_inj (h.node_lt hmem) hnode).mp hat ▸ hmem
  · intro hmem
    obtain ⟨task, ht, rfl⟩ := List.getElem_of_mem hmem
    refine ⟨task, List.mem_range.mpr ht, ?_⟩
    rw [Function.comp_apply, hset.pe h ht, Option.any_some, decide_eq_true_eq]
    rfl

theorem checkNodes_iff (nodeids : List CInt) : checkNodes ap nodeids = .ok () ↔
    ∀ nodeid ∈ nodeids, ∀ node, ap.nodes[nodeid.toNat]? = some node → referenced ap node = true := by
  induction nodeids with
  | nil => exact iff_of_true rfl nofun
  | cons nodeid rest ih =>
    rw [checkNodes, List.forall_mem_cons, ← ih]
    cases hat : ap.nodes[nodeid.toNat]? with
    | none => simp
    | some node =>
      by_cases href : referenced ap node = true
      · simp [href]
      · simp [href]

/-- The first loop of the check: the tasks are on nodes of the hostlist. -/
theorem find?_badNodeidx_iff (hset : HasSet map cpusPerPe hosts ap) (h : map.Describes nodes) :
    (upTo ap.hdr.npes).find? (badNodeidx ap) = none ↔ ∀ node ∈ nodes, node < hosts.hosts.length := by
  rw [hset.upTo_npes h, List.find?_eq_none, List.forall_mem_map]
  constructor
  · intro hgood node hnode
    obtain ⟨task, ht, rfl⟩ := List.getElem_of_mem hnode
    have hbad := hgood task (List.mem_range.mpr ht)
    rw [badNodeidx_eq hset h ht] at hbad
    simpa using hbad
  · intro hgood task htask
    have ht := List.mem_range.mp htask
    rw [badNodeidx_eq hset h ht]
    simpa using hgood _ (List.getElem_mem ht)

/-- The second loop: each node of the hostlist has a task. -/
theorem checkNodes_upTo_iff (hset : HasSet map cpusPerPe hosts ap) (h : map.Describes nodes) :
    checkNodes ap (upTo ap.hdr.nnodes) = .ok () ↔ ∀ node < hosts.hosts.length, node ∈ nodes := by
  rw [checkNodes_iff, hset.nnodes, upTo_cint hosts.count_lt, List.forall_mem_map]
  refine forall_congr' fun node => ?_
  rw [List.mem_range]
  refine forall_congr' fun hnode => ?_
  have hlt := Nat.lt_trans hnode hosts.count_lt
  rw [toNat_cint hlt, hset.nodes, List.getElem?_mapIdx, List.getElem?_eq_getElem hnode]
  constructor
  · intro href
    exact (referenced_iff hset h hlt).mp (href _ rfl)
  · intro hmem other hother
    exact Option.some_inj.mp hother ▸ (referenced_iff hset h hlt).mpr hmem

/-- The check is right: the nodes of the tasks are those of the hosts. -/
theorem opCheck_iff (hset : HasSet map cpusPerPe hosts ap) (h : map.Describes nodes) :
    opCheck ap = .ok () ↔ ∀ node, node ∈ nodes ↔ node < hosts.hosts.length := by
  rw [opCheck]
  cases hfind : (upTo ap.hdr.npes).find? (badNodeidx ap) with
  | none =>
    have hbelow := (find?_badNodeidx_iff hset h).mp hfind
    refine (checkNodes_upTo_iff hset h).trans ⟨fun hmem node => ⟨hbelow node, hmem node⟩, fun hsame node => ?_⟩
    exact (hsame node).mpr
  | some taskid =>
    refine iff_of_false nofun fun hsame => ?_
    have hnone := (find?_badNodeidx_iff hset h).mpr fun node => (hsame node).mp
    rw [hfind] at hnone
    cases hnone

/-! ### Reading the taskmap back -/

/-- The tasks are appended one by one. -/
theorem foldlM_has {package : TaskmapPackage} {Has : package.Map → List Nat → Prop} (happends : package.Appends Has)
    {map : package.Map} {pes : List PalsPe} {before rest : List Nat} (hlength : (before ++ rest).length < 2 ^ 31)
    (hlt : ∀ node ∈ rest, node + 1 < 2 ^ 31) (hpes : pes.map PalsPe.nodeidx = rest.map cint) (hmap : Has map before) :
    ∃ map', pes.foldlM (fun map pe => package.append map pe.nodeidx 1 1) map = some map' ∧
      Has map' (before ++ rest) := by
  induction rest generalizing map before pes with
  | nil =>
    rw [List.map_eq_nil_iff.mp hpes]
    exact ⟨map, rfl, (List.append_nil before).symm ▸ hmap⟩
  | cons node rest ih =>
    obtain ⟨hnode, hlt⟩ := List.forall_mem_cons.mp hlt
    obtain ⟨pe, pes, rfl, hidx, hpes⟩ := List.map_eq_cons_iff.mp hpes
    have hbefore : before.length + 1 < 2 ^ 31 := by
      rw [List.length_append, List.length_cons] at hlength
      omega
    obtain ⟨map', happend, hmap'⟩ := happends.append map before node hmap hbefore hnode
    rw [List.append_cons] at hlength ⊢
    rw [List.foldlM_cons, hidx, happend, Option.bind_eq_bind, Option.bind_some]
    exact ih hlength hlt hpes hmap'

theorem opGetTaskmap_has {package : TaskmapPackage} {Has : package.Map → List Nat → Prop}
    (happends : package.Appends Has) (hset : HasSet map cpusPerPe hosts ap) (h : map.Describes nodes) :
    ∃ readBack, opGetTaskmap ap package = some readBack ∧ Has readBack nodes := by
  obtain ⟨empty, hcreate, hempty⟩ := happends.create
  have hlt : ∀ node ∈ nodes, node + 1 < 2 ^ 31 := fun node hnode =>
    Nat.lt_of_le_of_lt (h.below node hnode) h.nnodes_lt
  have hpes : ap.pes.map PalsPe.nodeidx = nodes.map cint := hset.pes ▸ nodeidx_newPes h
  have hlength : ap.pes.length = nodes.length := by simpa using congrArg List.length hpes
  have hnpes : ap.hdr.npes = cint ap.pes.length := by rw [hset.npes, h.totalNtasks, hlength]
  have hloop : appendPes ap package (upTo (cint ap.pes.length)) empty =
      ap.pes.foldlM (fun map pe => package.append map pe.nodeidx 1 1) empty :=
    loop_upTo (fun _ => rfl) (fun _ _ _ => rfl) (hlength ▸ h.count_lt) empty
  have hcount : ([] ++ nodes).length < 2 ^ 31 := h.count_lt
  obtain ⟨readBack, hback, hhas⟩ := foldlM_has happends hcount hlt hpes hempty
  refine ⟨readBack, ?_, hhas⟩
  rw [opGetTaskmap, hcreate, Option.bind_eq_bind, Option.bind_some, hnpes, hloop]
  exact hback

theorem HasSet.exact {package : TaskmapPackage} {Has : package.Map → List Nat → Prop} (happends : package.Appends Has)
    (hset : HasSet map cpusPerPe hosts ap) (h : map.Describes nodes) : Exact package map nodes hosts ap := by
  obtain ⟨readBack, hback, hhas⟩ := opGetTaskmap_has happends hset h
  exact {
    nodeidx := hset.pes ▸ nodeidx_newPes h
    localidx := fun node hnode => hset.pes ▸ localidx_newPes h hnode
    npes := hset.cmds ▸ congrArg (fun n => [n]) h.totalNtasks
    pesPerNode := hset.cmds ▸ congrArg (fun n => [n]) (maxNtasks_eq h)
    taskmap := by
      refine ⟨readBack, hback, fun hsome => ?_, fun task ht => ?_⟩
      · rw [(happends.view readBack nodes hhas hsome).totalNtasks, h.totalNtasks]
      · have hsome : nodes ≠ [] := List.ne_nil_of_length_pos (Nat.zero_lt_of_lt ht)
        rw [(happends.view readBack nodes hhas hsome).nodeid task ht, h.nodeid task ht]
    check := opCheck_iff hset h }

end Check

/-- **The tasks in an apinfo object**, after any calls and then both setters: they are on
their nodes and in their places, and both versions have the same. -/
theorem apinfo_exact {package : TaskmapPackage} {Has : package.Map → List Nat → Prop} (happends : package.Appends Has)
    {map : Taskmap} {nodes : List Nat} (h : map.Describes nodes) (hosts : Hostlist) (cpusPerPe : CInt)
    (calls setters : List Impl.Call) {heapPes heapCmd heapNodes : Bool}
    (hsetters : setters = [.setTaskmap heapPes heapCmd map cpusPerPe, .setHostlist heapNodes hosts] ∨
      setters = [.setHostlist heapNodes hosts, .setTaskmap heapPes heapCmd map cpusPerPe])
    (hone : apinfo1.Succeed (apinfo1.run calls) setters) (hfive : apinfo5.Succeed (apinfo5.run calls) setters) :
    Exact package map nodes hosts (apinfo1.run (calls ++ setters)) ∧
      Exact package map nodes hosts (apinfo5.run (calls ++ setters)) ∧
      (apinfo1.run (calls ++ setters)).pes = (apinfo5.run (calls ++ setters)).pes ∧
      (apinfo1.run (calls ++ setters)).cmds = (apinfo5.run (calls ++ setters)).cmds := by
  have hset1 := run_hasSet apinfo1_keeps calls hsetters hone
  have hset5 := run_hasSet apinfo5_keeps calls hsetters hfive
  exact ⟨hset1.exact happends h, hset5.exact happends h, hset1.pes.trans hset5.pes.symm,
    hset1.cmds.trans hset5.cmds.symm⟩

/-! ### A package -/

/-- What the accessors say of a map, which is the nodes of its tasks. -/
def ofNodes (nodes : List Nat) : Taskmap where
  totalNtasks := if nodes = [] then -1 else cint nodes.length
  nnodes := if nodes = [] then -1 else cint (nodes.foldr max 0 + 1)
  ntasks nodeid := if nodeid.toNat ∈ nodes then cint (nodes.count nodeid.toNat) else -1
  nodeid taskid := (nodes[taskid.toNat]?.map cint).getD (-1)
  taskids nodeid := if nodeid.toNat ∈ nodes then some ((tasksOn nodes nodeid.toNat).map cint) else none

/-- A block of tasks is appended node by node. -/
def listPackage : TaskmapPackage where
  Map := List Nat
  create := some []
  append map nodeid nnodes ppn :=
    if 0 ≤ nodeid.toInt ∧ 0 < nnodes.toInt ∧ 0 < ppn.toInt then
      some (map ++ (List.range nnodes.toNat).flatMap fun i => List.replicate ppn.toNat (nodeid.toNat + i))
    else none
  view := ofNodes

/-- The map has no more than fits. -/
structure Fits (map nodes : List Nat) : Prop where
  eq : map = nodes
  count_lt : nodes.length < 2 ^ 31
  nnodes_lt : ∀ node ∈ nodes, node + 1 < 2 ^ 31

theorem ofNodes_describes {nodes : List Nat} (hcount : nodes.length < 2 ^ 31) (hlt : ∀ node ∈ nodes, node + 1 < 2 ^ 31)
    (hsome : nodes ≠ []) : (ofNodes nodes).Describes nodes := by
  obtain ⟨hmax, hattained⟩ := foldr_max_spec nodes
  have hnnodes : (ofNodes nodes).nnodes = cint (nodes.foldr max 0 + 1) := if_neg hsome
  have hfits : nodes.foldr max 0 + 1 < 2 ^ 31 := by
    rcases hattained with hzero | hmem
    · omega
    · exact hlt _ hmem
  have hnode {node : Nat} (hmem : node ∈ nodes) : (cint node).toNat = node :=
    toNat_cint (Nat.lt_of_succ_lt (hlt node hmem))
  exact {
    count_lt := hcount
    totalNtasks := if_neg hsome
    nnodes_lt := by rwa [hnnodes, toNat_cint hfits]
    below := fun node hmem => by
      rw [hnnodes, toNat_cint hfits]
      exact Nat.lt_succ_of_le (hmax node hmem)
    nodeid := fun task ht => by
      show ((nodes[(cint task).toNat]?.map cint).getD (-1)) = _
      rw [toNat_cint (Nat.lt_trans ht hcount), List.getElem?_eq_getElem ht]
      rfl
    ntasks := fun node hmem => by
      show (if (cint node).toNat ∈ nodes then _ else _) = _
      rw [hnode hmem, if_pos hmem]
    ntasks_unused := fun node hbelow hunused => by
      rw [hnnodes, toNat_cint hfits] at hbelow
      show (if (cint node).toNat ∈ nodes then _ else _ : CInt).toInt ≤ 0
      rw [toNat_cint (Nat.lt_trans hbelow hfits), if_neg hunused]
      decide
    taskids := fun node hmem => by
      show (if (cint node).toNat ∈ nodes then _ else _) = _
      rw [hnode hmem, if_pos hmem] }

theorem listPackage_appends : listPackage.Appends Fits where
  create := ⟨[], rfl, rfl, by decide, nofun⟩
  append map nodes node hmap hlength hnode := by
    refine ⟨nodes ++ [node], ?_, rfl, by simpa using hlength, fun other hother => ?_⟩
    · have hat : 0 ≤ (cint node).toInt ∧ 0 < (1 : CInt).toInt ∧ 0 < (1 : CInt).toInt :=
        ⟨by rw [toInt_cint (Nat.lt_of_succ_lt hnode)]; exact Int.natCast_nonneg _, by decide, by decide⟩
      refine (if_pos hat).trans ?_
      rw [toNat_cint (Nat.lt_of_succ_lt hnode), hmap.eq]
      rfl
    · rcases List.mem_append.mp hother with hold | hnew
      · exact hmap.nnodes_lt other hold
      · exact List.mem_singleton.mp hnew ▸ hnode
  view map nodes hmap hsome := by
    obtain ⟨rfl, hcount, hlt⟩ := hmap
    exact ofNodes_describes hcount hlt hsome

/-- Two hosts, `a` and `b`. -/
def twoHosts : Hostlist := ⟨[[97], [98]], by decide, by decide⟩

/-- Four tasks, in turn on two nodes. -/
def cyclicSetters : List Impl.Call := [.setTaskmap true true (ofNodes [0, 1, 0, 1]) 1, .setHostlist true twoHosts]

theorem cyclic_exact :
    Exact listPackage (ofNodes [0, 1, 0, 1]) [0, 1, 0, 1] twoHosts (apinfo1.run ([] ++ cyclicSetters)) ∧
      Exact listPackage (ofNodes [0, 1, 0, 1]) [0, 1, 0, 1] twoHosts (apinfo5.run ([] ++ cyclicSetters)) ∧
      (apinfo1.run ([] ++ cyclicSetters)).pes = (apinfo5.run ([] ++ cyclicSetters)).pes ∧
      (apinfo1.run ([] ++ cyclicSetters)).cmds = (apinfo5.run ([] ++ cyclicSetters)).cmds :=
  apinfo_exact listPackage_appends (ofNodes_describes (by decide) (by decide) (by decide)) twoHosts 1 [] cyclicSetters
    (.inl rfl) ⟨by decide, by decide, trivial⟩ ⟨by decide, by decide, trivial⟩

end FluxCoral2.Apinfo
