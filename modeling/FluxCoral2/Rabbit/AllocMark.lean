import Mathlib.Data.Set.Basic
import FluxCoral2.Library.Machine
import FluxCoral2.Rabbit.Storage

/-! The `alloc_rabbit` mark and the jobs that use a rabbit.

The mark is one flag per compute, and jobs may share a rabbit. `covered_iff_freed_alone`:
over any interleaving of allocations and frees, the computes of every rabbit in use
carry the mark exactly as long as no free gives up a rabbit that another live job uses.

`restart_agrees_iff` is about the other way to find the rabbits of a job to be freed,
after a restart of the service: when it gives the computes that `setup_cb` marked. -/
namespace FluxCoral2.Rabbit
open Library

variable (site : Site)

/-! ### Allocations and frees as a machine -/

/-- `live` lists each job marked allocated and not yet freed, with each of its rabbits. -/
structure Marking where
  manager : Manager
  live : List (Nat × String)

inductive Op
  | allocated (jobid : Nat) (rabbits : List String)
  | free (jobid : Nat) (nodelist : String)

/-- `setup_cb` takes the rabbits of a job out of the layout. -/
def Op.Enabled : Op → Prop
  | .allocated _ rabbits => ∀ r ∈ rabbits, ∃ hosts, site.layout.rabbitsToHostlists.get? r = some hosts
  | .free _ _ => True

def Op.apply (s : Marking) : Op → Marking
  | .allocated jobid rabbits =>
    { manager := (Prog.exec (markRabbitsAllocated site jobid rabbits) s.manager).2
      live := s.live ++ rabbits.map fun r => (jobid, r) }
  | .free jobid nodelist =>
    { manager := (Prog.exec (markRabbitsFree site jobid nodelist) s.manager).2
      live := s.live.filter fun use => use.1 ≠ jobid }

def markingMachine : Machine Marking Op :=
  ⟨⟨⟨.empty, []⟩, []⟩, fun _ => Op.Enabled site, Op.apply site⟩

/-- The requests applied in the order sent leave the mark on a path. -/
def Marking.Marked (s : Marking) (path : String) : Prop :=
  flagged (s.manager.rpcs.map Rpc.flag) (path, allocatedProperty) = true

/-- The compute is attached to the rabbit and has a path. -/
def Attached (rabbit path : String) : Prop :=
  ∃ hosts, site.layout.rabbitsToHostlists.get? rabbit = some hosts ∧
    ∃ h ∈ hosts, site.computeRpaths.get? h = some path

/-- Every compute of a rabbit in use carries the mark. -/
def Marking.Covered (s : Marking) : Prop :=
  ∀ jobid rabbit, (jobid, rabbit) ∈ s.live → ∀ path, Attached site rabbit path → s.Marked path

/-- A free gives up no rabbit with computes that another live job uses. The rabbits
given up are those of the job's entry; without one, those of the characters of its
nodelist. -/
def FreedAlone (s : Marking) : Op → Prop
  | .allocated _ _ => True
  | .free jobid nodelist => ∀ rabbit,
    (match s.manager.jobidsToRabbits.get? jobid with
      | some rabbits => rabbit ∈ rabbits
      | none => ∃ hostname ∈ nodelist.toList,
          site.layout.hostnamesToRabbits.get? (String.singleton hostname) = some rabbit) →
    (∃ path, Attached site rabbit path) → ∀ jobid', jobid' ≠ jobid → (jobid', rabbit) ∉ s.live

/-- The entries name rabbits of the layout. -/
def Marking.Known (s : Marking) : Prop :=
  ∀ jobid rabbits, s.manager.jobidsToRabbits.get? jobid = some rabbits →
    ∀ r ∈ rabbits, ∃ hosts, site.layout.rabbitsToHostlists.get? r = some hosts

variable {site}

theorem attached_mem_pathsOf {rabbits : List String} {rabbit path : String}
    (h : Attached site rabbit path) : path ∈ pathsOf site rabbits ↔ rabbit ∈ rabbits := by
  obtain ⟨hosts, hr, host, hh, hpath⟩ := h
  exact mem_pathsOf site hr hh hpath

theorem known_apply (s : Marking) (op : Op) (h : s.Known site) (he : op.Enabled site) :
    (op.apply site s).Known site := by
  cases op with
  | allocated jobid rabbits =>
    intro j rs hj
    rw [Op.apply, exec_markRabbitsAllocated site jobid rabbits s.manager he] at hj
    dsimp only at hj
    rw [Dict.get?_set] at hj
    split at hj
    · rw [← Option.some.inj hj]
      exact he
    · exact h j rs hj
  | free jobid nodelist =>
    intro j rs hj
    rw [Op.apply, exec_markRabbitsFree site jobid nodelist s.manager (h jobid)] at hj
    dsimp only at hj
    rw [Dict.get?_del] at hj
    split at hj
    · cases hj
    · exact h j rs hj

theorem marked_allocated (s : Marking) (jobid : Nat) (rabbits : List String)
    (he : (Op.allocated jobid rabbits).Enabled site) (path : String) :
    (Op.apply site s (.allocated jobid rabbits)).Marked path ↔
      path ∈ pathsOf site rabbits ∨ s.Marked path := by
  rw [Marking.Marked, Op.apply, exec_markRabbitsAllocated site jobid rabbits s.manager he]
  dsimp only
  rw [List.map_append, List.map_map,
    show (Rpc.flag ∘ fun path => .setProperty path allocatedProperty "yes") =
      FlagOp.set ∘ fun path => (path, allocatedProperty) from rfl,
    ← List.map_map, flagged_append_set]
  simp [Marking.Marked]

theorem marked_free (s : Marking) (jobid : Nat) (nodelist : String) (h : s.Known site)
    (path : String) : (Op.apply site s (.free jobid nodelist)).Marked path ↔
      path ∉ pathsOf site (s.manager.freed site jobid nodelist) ∧ s.Marked path := by
  rw [Marking.Marked, Op.apply, exec_markRabbitsFree site jobid nodelist s.manager (h jobid)]
  dsimp only
  rw [List.map_append, List.map_map,
    show (Rpc.flag ∘ fun path => .removeProperty path allocatedProperty) =
      FlagOp.clear ∘ fun path => (path, allocatedProperty) from rfl,
    ← List.map_map, flagged_append_clear]
  simp [Marking.Marked]

theorem mem_freed (m : Manager) (jobid : Nat) (nodelist rabbit : String) :
    rabbit ∈ m.freed site jobid nodelist ↔
      match m.jobidsToRabbits.get? jobid with
      | some rabbits => rabbit ∈ rabbits
      | none => ∃ hostname ∈ nodelist.toList,
          site.layout.hostnamesToRabbits.get? (String.singleton hostname) = some rabbit := by
  unfold Manager.freed
  cases m.jobidsToRabbits.get? jobid with
  | some rabbits => exact Iff.rfl
  | none => exact mem_rabbitsOfNodelist _ _ _

/-- A step keeps the live jobs covered exactly when it gives up no shared rabbit. -/
theorem covered_apply_iff (s : Marking) (op : Op) (h : s.Known site) (hs : s.Covered site)
    (he : op.Enabled site) : (op.apply site s).Covered site ↔ FreedAlone site s op := by
  cases op with
  | allocated jobid rabbits =>
    refine ⟨fun _ => trivial, fun _ j rabbit hlive path hat => ?_⟩
    rw [marked_allocated s jobid rabbits he]
    rcases List.mem_append.mp hlive with hlive | hlive
    · exact .inr (hs j rabbit hlive path hat)
    · obtain ⟨r, hr, heq⟩ := List.mem_map.mp hlive
      rw [attached_mem_pathsOf hat, ← (Prod.mk.inj heq).2]
      exact .inl hr
  | free jobid nodelist =>
    refine ⟨fun hcov rabbit hfreed ⟨path, hat⟩ j hj hlive => ?_,
      fun halone j rabbit hlive path hat => ?_⟩
    · have hmarked := hcov j rabbit (List.mem_filter.mpr ⟨hlive, by simpa using hj⟩) path hat
      rw [marked_free s jobid nodelist h, attached_mem_pathsOf hat, mem_freed] at hmarked
      exact hmarked.1 hfreed
    · obtain ⟨hlive, hj⟩ := List.mem_filter.mp hlive
      rw [marked_free s jobid nodelist h, attached_mem_pathsOf hat, mem_freed]
      refine ⟨fun hfreed => ?_, hs j rabbit hlive path hat⟩
      exact halone rabbit hfreed ⟨path, hat⟩ j (by simpa using hj) hlive

/-- **The mark covers every live job** in every state of a run exactly when no free of
the run gives up a rabbit that another live job uses. -/
theorem covered_iff_freed_alone (site : Site) (ops : List Op)
    (hp : (markingMachine site).Possible (markingMachine site).init ops) :
    (markingMachine site).Always (Marking.Covered site) (markingMachine site).init ops ↔
      (markingMachine site).Legal (FreedAlone site) (markingMachine site).init ops := by
  refine Machine.always_iff_legal (Marking.Known site) (fun s op h he _ => known_apply s op h he)
    (fun s op h hs he => covered_apply_iff s op h hs he) ?_ ?_ hp
  · intro jobid rabbits hnone
    cases hnone
  · intro jobid rabbit hlive
    cases hlive

/-- A rabbit with one compute. -/
def oneCompute (rabbit hostname : String) : Option Site :=
  (populateRabbitsDict namedHosts [⟨rabbit, some [hostname]⟩]).bind fun layout =>
    rabbitManager layout [hostname] .absent

def chassis : Site := (oneCompute "rabbit1" "node1").get (by decide)

theorem chassis_known (jobid : Nat) : (Op.allocated jobid ["rabbit1"]).Enabled chassis := by
  intro r hr
  rw [List.mem_singleton.mp hr]
  exact ⟨["node1"], by decide⟩

/-- The first of two jobs on one rabbit is freed. -/
def overlap : List Op := [.allocated 1 ["rabbit1"], .allocated 2 ["rabbit1"], .free 1 "node1"]

theorem overlap_not_covered : (markingMachine chassis).Possible (markingMachine chassis).init overlap ∧
    ¬ (markingMachine chassis).Always (Marking.Covered chassis) (markingMachine chassis).init overlap := by
  refine ⟨⟨chassis_known 1, trivial, chassis_known 2, trivial, trivial, trivial, trivial⟩, fun h => ?_⟩
  have hmarked := h.last 2 "rabbit1" (by decide) "/cluster0/node1"
    ⟨["node1"], by decide, "node1", by decide, by decide⟩
  exact absurd hmarked (by unfold Marking.Marked; decide)

/-- The second job is marked after the first was freed. -/
def successive : List Op := [.allocated 1 ["rabbit1"], .free 1 "node1", .allocated 2 ["rabbit1"]]

theorem successive_covered : (markingMachine chassis).Always (Marking.Covered chassis)
    (markingMachine chassis).init successive := by
  refine (covered_iff_freed_alone chassis successive
    ⟨chassis_known 1, trivial, trivial, trivial, chassis_known 2, trivial, trivial⟩).mpr ?_
  refine ⟨chassis_known 1, trivial, trivial, fun rabbit _ _ j hj hlive => ?_, chassis_known 2, trivial, trivial⟩
  have hfirst : (j, rabbit) ∈ [(1, "rabbit1")] := hlive
  rw [List.mem_singleton] at hfirst
  exact hj (Prod.mk.inj hfirst).1

/-! ### Freeing after a restart -/

/-- The computes on which requests put the mark. -/
def hostsMarked (site : Site) (rpcs : List Rpc) : Set String :=
  {h | ∃ path value, site.computeRpaths.get? h = some path ∧
    .setProperty path allocatedProperty value ∈ rpcs}

/-- The computes from which requests take the mark off. -/
def hostsUnmarked (site : Site) (rpcs : List Rpc) : Set String :=
  {h | ∃ path, site.computeRpaths.get? h = some path ∧ .removeProperty path allocatedProperty ∈ rpcs}

/-- What `setup_cb` sends to mark the rabbits of a job with these nodes in R. -/
def setupRpcs (lib : HostlistPackage) (site : Site) (table : Dict Nat (List String)) (jobid : Nat)
    (nodelist : List String) : List Rpc :=
  match setupRabbits lib site.layout nodelist with
  | none => []
  | some rabbits => (Prog.exec (markRabbitsAllocated site jobid rabbits) ⟨table, []⟩).2.rpcs

/-- What the service sends to free a job whose `get_job` has this nodelist. -/
def freeRpcs (site : Site) (table : Dict Nat (List String)) (jobid : Nat) (nodelist : String) : List Rpc :=
  (Prog.exec (markRabbitsFree site jobid nodelist) ⟨table, []⟩).2.rpcs

theorem mem_setupRabbits (lib : HostlistPackage) (layout : Layout) (nodelist : List String)
    (rabbit : String) : (∃ rabbits, setupRabbits lib layout nodelist = some rabbits ∧ rabbit ∈ rabbits) ↔
      ∃ hosts, hostlist lib nodelist = some hosts ∧
        (∀ h ∈ hosts, layout.rabbitsToHostlists.contains h = false →
          ∃ r, layout.hostnamesToRabbits.get? h = some r) ∧
        ∃ h ∈ hosts, layout.rabbitsToHostlists.contains h = false ∧
          layout.hostnamesToRabbits.get? h = some rabbit := by
  unfold setupRabbits
  cases hostlist lib nodelist with
  | none => simp
  | some hosts =>
    have hspec := nodesPerNnf_spec layout (lib.uniq hosts) (.empty, 0)
    simp only [lib.mem_uniq] at hspec
    cases hloop : nodesPerNnf layout (lib.uniq hosts) (.empty, 0) with
    | none =>
      rw [hloop] at hspec
      obtain ⟨h, hh, hnot, hnone⟩ := hspec
      simp only [Option.bind_eq_bind, Option.bind_some, hloop, Option.bind_none, reduceCtorEq,
        false_and, exists_false, Option.some.injEq, exists_eq_left', false_iff, not_and]
      intro hknown
      obtain ⟨r, hr⟩ := hknown h hh hnot
      rw [hnone] at hr
      cases hr
    | some result =>
      rw [hloop] at hspec
      obtain ⟨hknown, hkeys⟩ := hspec
      simp only [Option.bind_eq_bind, Option.bind_some, hloop, Option.pure_def, Option.some.injEq,
        exists_eq_left', hkeys, Dict.keys_empty, List.not_mem_nil, false_or]
      exact ⟨fun h => ⟨hknown, h⟩, fun h => h.2⟩

theorem mem_pathsOf_iff {rabbits : List String} {path : String} :
    path ∈ pathsOf site rabbits ↔ ∃ rabbit ∈ rabbits, Attached site rabbit path := by
  simp only [pathsOf, List.mem_flatMap, List.mem_filterMap, Attached]
  constructor
  · rintro ⟨rabbit, hmem, h, hh, hpath⟩
    cases hr : site.layout.rabbitsToHostlists.get? rabbit with
    | none =>
      rw [hr] at hh
      cases hh
    | some hosts =>
      rw [hr] at hh
      exact ⟨rabbit, hmem, hosts, hr, h, hh, hpath⟩
  · rintro ⟨rabbit, hmem, hosts, hr, h, hh, hpath⟩
    refine ⟨rabbit, hmem, h, ?_, hpath⟩
    rw [hr]
    exact hh

theorem mem_hostsMarked (lib : HostlistPackage) (site : Site) (table : Dict Nat (List String))
    (jobid : Nat) (nodelist : List String) (h : String) :
    h ∈ hostsMarked site (setupRpcs lib site table jobid nodelist) ↔
      ∃ path, site.computeRpaths.get? h = some path ∧ ∃ rabbits,
        setupRabbits lib site.layout nodelist = some rabbits ∧ path ∈ pathsOf site rabbits := by
  unfold hostsMarked setupRpcs
  cases hrabbits : setupRabbits lib site.layout nodelist with
  | none => simp
  | some rabbits =>
    have hknown : ∀ r ∈ rabbits, ∃ hosts, site.layout.rabbitsToHostlists.get? r = some hosts := by
      intro r hr
      obtain ⟨_, _, _, h, _, _, hnnf⟩ := (mem_setupRabbits lib site.layout nodelist r).mp ⟨rabbits, hrabbits, hr⟩
      exact site.layout.known h r hnnf
    dsimp only
    rw [exec_markRabbitsAllocated site jobid rabbits _ hknown]
    simp

theorem mem_hostsUnmarked (site : Site) (table : Dict Nat (List String)) (jobid : Nat)
    (nodelist h : String) (habsent : table.get? jobid = none) :
    h ∈ hostsUnmarked site (freeRpcs site table jobid nodelist) ↔
      ∃ path, site.computeRpaths.get? h = some path ∧
        path ∈ pathsOf site (rabbitsOfNodelist site.layout nodelist) := by
  unfold hostsUnmarked freeRpcs
  rw [exec_markRabbitsFree site jobid nodelist ⟨table, []⟩ fun rabbits hsome => by
    rw [habsent] at hsome
    cases hsome]
  simp [Manager.freed, habsent]

/-- **Freeing a job without an entry unmarks the computes that `setup_cb` marked** exactly
when the characters of its nodelist name hosts of the same rabbits as its R does. -/
theorem restart_agrees_iff (lib : HostlistPackage) (site : Site) (table table' : Dict Nat (List String))
    (jobid : Nat) (nodelist : List String) (encoded : String) (habsent : table'.get? jobid = none) :
    hostsUnmarked site (freeRpcs site table' jobid encoded) =
        hostsMarked site (setupRpcs lib site table jobid nodelist) ↔
      ∀ rabbit, (∃ path, Attached site rabbit path) →
        ((∃ hostname ∈ encoded.toList,
            site.layout.hostnamesToRabbits.get? (String.singleton hostname) = some rabbit) ↔
          ∃ hosts, hostlist lib nodelist = some hosts ∧
            (∀ h ∈ hosts, site.layout.rabbitsToHostlists.contains h = false →
              ∃ r, site.layout.hostnamesToRabbits.get? h = some r) ∧
            ∃ h ∈ hosts, site.layout.rabbitsToHostlists.contains h = false ∧
              site.layout.hostnamesToRabbits.get? h = some rabbit) := by
  simp only [← mem_setupRabbits, ← mem_rabbitsOfNodelist]
  constructor
  · -- a compute of the rabbit tells whether the rabbit is on either side
    rintro heq rabbit ⟨path, hosts, hr, h, hh, hpath⟩
    have hiff : h ∈ hostsUnmarked site (freeRpcs site table' jobid encoded) ↔
        h ∈ hostsMarked site (setupRpcs lib site table jobid nodelist) := by rw [heq]
    rw [mem_hostsUnmarked site table' jobid encoded h habsent, mem_hostsMarked] at hiff
    simpa only [hpath, Option.some.injEq, exists_eq_left', mem_pathsOf site hr hh hpath] using hiff
  · intro hsame
    ext h
    rw [mem_hostsUnmarked site table' jobid encoded h habsent, mem_hostsMarked]
    simp only [mem_pathsOf_iff]
    constructor
    · rintro ⟨path, hpath, rabbit, hmem, hat⟩
      obtain ⟨rabbits, hrabbits, hmem'⟩ := (hsame rabbit ⟨path, hat⟩).mp hmem
      exact ⟨path, hpath, rabbits, hrabbits, rabbit, hmem', hat⟩
    · rintro ⟨path, hpath, rabbits, hrabbits, rabbit, hmem, hat⟩
      exact ⟨path, hpath, rabbit, (hsame rabbit ⟨path, hat⟩).mpr ⟨rabbits, hrabbits, hmem⟩, hat⟩

/-- The characters of `node1` are not hosts, so nothing is unmarked. -/
theorem node1_not_unmarked : hostsUnmarked chassis (freeRpcs chassis .empty 1 "node1") ≠
    hostsMarked chassis (setupRpcs namedHosts chassis .empty 1 ["node1"]) := by
  intro heq
  have hmarked : "node1" ∈ hostsMarked chassis (setupRpcs namedHosts chassis .empty 1 ["node1"]) :=
    ⟨"/cluster0/node1", "yes", by decide, by decide⟩
  rw [← heq] at hmarked
  obtain ⟨path, _, hmem⟩ := hmarked
  rw [show freeRpcs chassis .empty 1 "node1" = [] by decide] at hmem
  cases hmem

/-- A compute whose name is one character. -/
theorem one_character_unmarked : ∃ site, oneCompute "rabbit1" "n" = some site ∧
    hostsUnmarked site (freeRpcs site .empty 1 "n") =
      hostsMarked site (setupRpcs namedHosts site .empty 1 ["n"]) := by
  refine ⟨(oneCompute "rabbit1" "n").get (by decide), by simp, ?_⟩
  refine (restart_agrees_iff namedHosts _ .empty .empty 1 ["n"] "n" rfl).mpr fun rabbit _ => ?_
  have hchar : "n".toList = ['n'] := by decide
  have hhost : hostlist namedHosts ["n"] = some ["n"] := by decide
  have hnnf : ((oneCompute "rabbit1" "n").get (by decide)).layout.hostnamesToRabbits.get? "n" =
    some "rabbit1" := by decide
  have hnot : ((oneCompute "rabbit1" "n").get (by decide)).layout.rabbitsToHostlists.contains "n" =
    false := by decide
  have hsingle : String.singleton 'n' = "n" := by decide
  simp [hchar, hhost, hnnf, hnot, hsingle]

end FluxCoral2.Rabbit
