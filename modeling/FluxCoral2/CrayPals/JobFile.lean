import FluxCoral2.CrayPals.Hostnames
import FluxCoral2.CrayPals.Plugin

/-! What libpals finds in the file that a shell writes (`create_apinfo`).

`job_file`: a shell that goes on has written a file of its job, from the nodelist, the taskmap and
the jobspec, which libpals reads back by the header; and the check has let pass only hosts that
are those of the tasks. -/
namespace FluxCoral2.CrayPals
open Library Apinfo Eventlog Environ

/-- What a reader of the file gets: one command, the tasks on their nodes and in their places, and
the hosts, each of which has a task. -/
structure JobFile (nodes : List Nat) (hosts : List (List Byte)) (coresPerTask : Nat) (file : List Byte) : Prop where
  cmd : (readFile file).1 = [⟨cint nodes.length, cint (maxPerNode nodes), cint coresPerTask⟩]
  nodeidx : (readFile file).2.1.map PalsPe.nodeidx = nodes.map cint
  localidx : ∀ node ∈ nodes, ((readFile file).2.1.filter fun pe => pe.nodeidx = cint node).map PalsPe.localidx =
    (List.range (nodes.count node)).map cint
  cmdidx : ∀ pe ∈ (readFile file).2.1, pe.cmdidx = 0
  nid : (readFile file).2.2.map PalsNode.nid = (List.range hosts.length).map cint
  name : (readFile file).2.2.map PalsNode.name = hosts.map (List.take 63)
  used : ∀ node, node ∈ nodes ↔ node < hosts.length

section Put
variable {Comm Nic Rest : Type} {impl : Impl Comm Nic Rest} {c : Calls} {hosts : Hostlist} {map : Taskmap}
  {nodes : List Nat} {file : List Byte}

theorem jobFile_of_hasSet {ap : Object Comm Nic Rest} {coresPerTask : Nat}
    (hset : HasSet map (cint coresPerTask) hosts ap) (h : map.Describes nodes)
    (hfile : readFile file = (ap.cmds, ap.pes, ap.nodes)) (hcheck : opCheck ap = .ok ()) :
    JobFile nodes hosts.hosts coresPerTask file where
  cmd := by
    rw [hfile, hset.cmds, newCmd, h.totalNtasks, maxNtasks_eq h]
  nodeidx := by
    rw [hfile, hset.pes]
    exact nodeidx_newPes h
  localidx := fun node hnode => by
    rw [hfile, hset.pes]
    exact localidx_newPes h hnode
  cmdidx := fun pe hpe => by
    rw [hfile, hset.pes] at hpe
    obtain ⟨task, -, rfl⟩ := List.mem_map.mp hpe
    rfl
  nid := by
    rw [hfile, hset.nodes]
    refine List.ext_getElem (by simp) fun i _ _ => ?_
    simp [newNode]
  name := by
    rw [hfile]
    exact names_eq hset.toHasNodes
  used := (opCheck_iff hset h).mp hcheck

/-- The bytes of an object of both setters, if the check lets it pass. -/
theorem putApinfo_some (hkeeps : impl.Keeps)
    (hwrites : ∀ calls, ∃ file, impl.write (impl.run calls) = some file ∧
      readFile file = ((impl.run calls).cmds, (impl.run calls).pes, (impl.run calls).nodes))
    {coresPerTask : Nat} (h : map.Describes nodes)
    (hput : putApinfo impl c hosts map (cint coresPerTask) = some file) :
    JobFile nodes hosts.hosts coresPerTask file := by
  let setHosts : Impl.Call := .setHostlist c.heapNodes hosts
  let setTasks : Impl.Call := .setTaskmap c.heapPes c.heapCmd map (cint coresPerTask)
  unfold putApinfo at hput
  dsimp only at hput
  split at hput
  · cases hput
  · rename_i hhosts
    split at hput
    · cases hput
    · rename_i htasks
      split at hput
      · cases hput
      · rename_i hcheck
        split at hput
        · simp only [Bool.not_eq_true', Bool.not_eq_false] at hhosts htasks
          have hset := run_hasSet hkeeps [] (.inr rfl) ⟨hhosts, htasks, trivial⟩
          obtain ⟨written, hwrite, hread⟩ := hwrites [setHosts, setTasks]
          obtain rfl : written = file := Option.some.inj (hwrite.symm.trans hput)
          exact jobFile_of_hasSet hset h hread hcheck
        · cases hput

theorem putVersion_some {version : CInt} {coresPerTask : Nat} (h : map.Describes nodes)
    (hput : putVersion version c hosts map (cint coresPerTask) = some file) :
    JobFile nodes hosts.hosts coresPerTask file := by
  unfold putVersion at hput
  split at hput
  · exact putApinfo_some apinfo1_keeps apinfo1_written h hput
  · split at hput
    · exact putApinfo_some apinfo5_keeps apinfo5_written h hput
    · cases hput

end Put

/-! ### The cores of a task -/

theorem msb_cint {n : Nat} (h : n < 2 ^ 31) : (cint n).msb = false := by
  rw [BitVec.msb_eq_false_iff_two_mul_lt, toNat_cint h]
  omega

theorem getCoresPerTask_some {taskSlots coresPerSlot ntasks : Nat} (hfits : taskSlots * coresPerSlot < 2 ^ 31)
    (hntasks : ntasks < 2 ^ 31) {coresPerTask : CInt}
    (h : getCoresPerTask (some (1, cint taskSlots, cint coresPerSlot)) (cint ntasks) = some coresPerTask) :
    coresPerTask = cint (taskSlots * coresPerSlot / ntasks) := by
  have hprod : cint taskSlots * cint coresPerSlot = cint (taskSlots * coresPerSlot) := (BitVec.ofNat_mul _ _).symm
  have hlt : taskSlots * coresPerSlot / ntasks < 2 ^ 31 := Nat.lt_of_le_of_lt (Nat.div_le_self _ _) hfits
  have hdiv : (cint taskSlots * cint coresPerSlot).sdiv (cint ntasks) = cint (taskSlots * coresPerSlot / ntasks) := by
    rw [hprod, BitVec.sdiv_eq, msb_cint hfits, msb_cint hntasks]
    refine BitVec.eq_of_toNat_eq ?_
    rw [BitVec.udiv_eq, BitVec.toNat_udiv, toNat_cint hfits, toNat_cint hntasks, toNat_cint hlt]
  unfold getCoresPerTask at h
  dsimp only at h
  rw [if_neg (by decide), hdiv] at h
  split at h
  · cases h
  · exact (Option.some.inj h).symm

/-- **A shell that goes on has written the file of its job**, where libpals is told to look. -/
theorem job_file (shell : Shell) (outcome : Outcome) (env : Environment) (path : Text) (file : List Byte)
    (map : Taskmap) (nodes : List Nat) (taskSlots coresPerSlot ntasks : Nat) (hon : shell.enabled = some true)
    (hmap : shell.info.taskmap = some map) (h : map.Describes nodes)
    (hjobspec : shell.info.jobspec = some (1, cint taskSlots, cint coresPerSlot))
    (hfits : taskSlots * coresPerSlot < 2 ^ 31) (hntasks : shell.info.ntasks = cint ntasks) (hlt : ntasks < 2 ^ 31)
    (hrun : shell.run outcome = .done env (some (path, file))) :
    env.get? varApinfo = some path ∧ (shell.env.get? varTmpdir).map (· ++ "/libpals_apinfo".toList) = some path ∧
      ∃ hosts, shell.info.nodelist.bind (hostlistFromArray shell.append) = some hosts ∧
        JobFile nodes hosts.hosts (taskSlots * coresPerSlot / ntasks) file := by
  obtain ⟨options, -, hinit⟩ := run_done hon hrun
  obtain ⟨pmi, path', bytes, -, hcreate, hfile, hprepared⟩ := init_done hinit
  cases hfile
  unfold createApinfo at hcreate
  simp only [Option.bind_eq_bind, Option.bind_eq_some_iff] at hcreate
  obtain ⟨tmpdir, htmpdir, path'', hpath, nodelist, hnodelist, map', hmap', cores, hcores, hlist, hhosts, file', hput,
    hsome⟩ := hcreate
  cases hsome
  rw [hmap] at hmap'
  cases hmap'
  rw [hjobspec, hntasks] at hcores
  obtain rfl := getCoresPerTask_some hfits hlt hcores
  refine ⟨hprepared.apinfo, ?_, hlist, ?_, putVersion_some h hput⟩
  · unfold apinfoPath at hpath
    dsimp only at hpath
    split at hpath
    · cases hpath
    · rw [htmpdir]
      exact hpath
  · rw [hnodelist]
    exact hhosts

/-! ### Four tasks on two hosts -/

def hostBytes (entry : Text) : List Byte := entry.map fun c => BitVec.ofNat 8 c.toNat

def isNonzero (byte : Byte) : Bool := decide (byte ≠ 0)

theorem zero_notMem_of_all {host : List Byte} (h : host.all isNonzero = true) : (0 : Byte) ∉ host := fun hmem =>
  absurd rfl (of_decide_eq_true (List.all_eq_true.mp h 0 hmem))

/-- A hostlist with one more host. -/
def addHost (hlist : Hostlist) (host : List Byte) (hzero : (0 : Byte) ∉ host)
    (hcount : hlist.hosts.length + 1 < 2 ^ 31) : Hostlist where
  hosts := hlist.hosts ++ [host]
  zero_notMem := fun other hother => (List.mem_append.mp hother).elim (hlist.zero_notMem other) fun hlast =>
    List.mem_singleton.mp hlast ▸ hzero
  count_lt := by simpa using hcount

/-- An entry of one host. -/
def appendHost (hlist : Hostlist) (entry : Text) : Option Hostlist :=
  if hzero : (hostBytes entry).all isNonzero = true then
    if hcount : hlist.hosts.length + 1 < 2 ^ 31 then
      some (addHost hlist (hostBytes entry) (zero_notMem_of_all hzero) hcount)
    else none
  else none

def cyclicShell : Shell where
  append := appendHost
  info := {
    size := 2
    rank := 0
    ntasks := 4
    jobid := 8
    nodelist := some (.array [.string ['a'], .string ['b']])
    taskmap := some (ofNodes [0, 1, 0, 1])
    jobspec := some (1, 4, 2) }
  pmi := .ok (some "cray-pals".toList)
  options := .ok none
  env := Dict.empty.set varTmpdir "/tmp".toList

def Result.wrote : Result → Bool
  | .done _ (some _) => true
  | _ => false

theorem cyclicShell_done : ∃ env path file, cyclicShell.run (.returned none) = .done env (some (path, file)) := by
  have hwrote : (cyclicShell.run (.returned none)).wrote = true := by decide +kernel
  generalize cyclicShell.run (.returned none) = result at hwrote
  cases result with
  | done env file =>
    cases file with
    | none => cases hwrote
    | some file => exact ⟨env, file.1, file.2, rfl⟩
  | _ => cases hwrote

theorem cyclicShell_jobFile : ∃ env path file, cyclicShell.run (.returned none) = .done env (some (path, file)) ∧
    env.get? varApinfo = some path ∧
      (cyclicShell.env.get? varTmpdir).map (· ++ "/libpals_apinfo".toList) = some path ∧
      ∃ hosts, cyclicShell.info.nodelist.bind (hostlistFromArray cyclicShell.append) = some hosts ∧
        JobFile [0, 1, 0, 1] hosts.hosts (4 * 2 / 4) file := by
  obtain ⟨env, path, file, hrun⟩ := cyclicShell_done
  refine ⟨env, path, file, hrun, ?_⟩
  exact job_file cyclicShell (.returned none) env path file (ofNodes [0, 1, 0, 1]) [0, 1, 0, 1] 4 2 4 rfl rfl
    (ofNodes_describes (by decide) (by decide) (by decide)) rfl (by decide) rfl (by decide) hrun

end FluxCoral2.CrayPals
