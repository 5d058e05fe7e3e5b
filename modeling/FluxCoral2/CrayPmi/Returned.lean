import Mathlib.Data.Set.Card
import FluxCoral2.CrayPmi.Exclusive

/-! What becomes of the ports of a start that fails (`cray-pmi-bootstrap.c`).

A port is kept as long as it is free or recorded for a job, whose cleanup returns it. A
start takes its ports before the calls that may fail, and no exit puts them back: a port
that was taken when a start fails is neither, from then on. `ports_kept_iff`: no port is
lost in a run exactly when every start that fails does so before it takes one. -/
namespace FluxCoral2.CrayPmi
open Library

/-- The ports of the jobs that have run and not cleaned up. -/
def Plugin.recordedPorts (s : Plugin) : Set Int := {p | ∃ id ports, s.recorded id = some ports ∧ p ∈ ports}

/-- The ports that are available, or returned by a cleanup. -/
def Plugin.kept (s : Plugin) : Set Int := {p | p ∈ s.range.available} ∪ s.recordedPorts

/-- A start on several nodes takes its only port, or two and then fails. -/
def PortsLost (c : RunCalls) (nodelist : Option (List String)) (range : PortRange) : Prop :=
  ∃ hlist, nodelist = some hlist ∧ hlist.length ≠ 1 ∧ 1 ≤ range.fill ∧
    (range.fill = 1 ∨ (c.jsonPack && c.eventPost && c.auxSet) = false)

/-- A start that fails, fails before it takes a port. -/
def StartsSafely (s : Plugin) : Op → Prop
  | .run _ c nodelist _ => ¬ PortsLost c nodelist s.range
  | .cleanup _ => True

/-! ### One start -/

/-- A port is on the stack unless the stack is empty, and then leaves it. -/
theorem getPort_cases {lo hi : Int} {range : PortRange} (hlo : 0 < lo) (h : Stack lo hi range) :
    (range.fill = 0 ∧ getPort range = (-1, range)) ∨
      ∃ port range', getPort range = (port, range') ∧ ¬ port < 0 ∧ range'.fill + 1 = range.fill ∧
        Stack lo hi range' := by
  rcases getPort_spec range with ⟨hempty, hget⟩ | ⟨htop, hsize⟩
  · have hfill := range.length_available
    rw [hempty] at hfill
    exact .inl ⟨hfill.symm, hget⟩
  · have hport := h.within (getPort range).1 (by rw [htop]; simp)
    have hfill := range.length_available
    rw [htop, List.length_append, List.length_singleton, PortRange.length_available] at hfill
    have hstack := @stack_taken lo hi range _ [(getPort range).1] h hsize htop
    exact .inr ⟨_, _, rfl, Int.not_lt.mpr (hlo.le.trans hport.1), hfill, hstack.1⟩

/-- A start leaves the stack as it was, or loses what it took, or records it. -/
theorem runCb_cases {lo hi : Int} {range : PortRange} (hlo : 0 < lo) (h : Stack lo hi range) (c : RunCalls)
    (nodelist : Option (List String)) :
    (¬ PortsLost c nodelist range ∧ ∃ code, runCb c nodelist range = (code, range, none, none)) ∨
      (PortsLost c nodelist range ∧ ∃ range' posted, runCb c nodelist range = (-1, range', posted, none) ∧
        range'.fill < range.fill) ∨
      (¬ PortsLost c nodelist range ∧
        ∃ range' ports, runCb c nodelist range = (0, range', some ports, some ports)) := by
  cases nodelist with
  | none => exact .inl ⟨by simp [PortsLost], -1, rfl⟩
  | some hlist =>
    have hlost : PortsLost c (some hlist) range ↔ hlist.length ≠ 1 ∧ 1 ≤ range.fill ∧
        (range.fill = 1 ∨ (c.jsonPack && c.eventPost && c.auxSet) = false) := by
      simp [PortsLost]
    rw [hlost]
    by_cases hone : hlist.length = 1
    · exact .inl ⟨fun hlost => hlost.1 hone, 0, by rw [runCb, if_pos hone]⟩
    simp only [runCb, if_neg hone]
    rcases getPort_cases hlo h with ⟨hfill, hget⟩ | ⟨port1, range1, hget, hport1, hfill, hstack⟩
    · rw [hget]
      exact .inl ⟨by omega, -1, rfl⟩
    rw [hget]
    simp only [if_neg hport1]
    rcases getPort_cases hlo hstack with ⟨hfill1, hget1⟩ | ⟨port2, range2, hget1, hport2, hfill1, -⟩
    · rw [hget1]
      exact .inr (.inl ⟨⟨hone, by omega, .inl (by omega)⟩, range1, none, rfl, by omega⟩)
    rw [hget1]
    simp only [if_neg hport2]
    have htwo : range2.fill < range.fill := by omega
    have hfew : range.fill ≠ 1 := by omega
    have hpos : 1 ≤ range.fill := by omega
    cases c with
    | mk jsonPack eventPost auxSet =>
      cases jsonPack with
      | false => exact .inr (.inl ⟨⟨hone, hpos, .inr rfl⟩, range2, none, rfl, htwo⟩)
      | true =>
        cases eventPost with
        | false => exact .inr (.inl ⟨⟨hone, hpos, .inr rfl⟩, range2, none, rfl, htwo⟩)
        | true =>
          cases auxSet with
          | false => exact .inr (.inl ⟨⟨hone, hpos, .inr rfl⟩, range2, some [port1, port2], rfl, htwo⟩)
          | true => exact .inr (.inr ⟨fun hlost => by simp [hfew] at hlost, range2, [port1, port2], rfl⟩)

/-! ### One step -/

section Step
variable {lo hi : Int} {s : Plugin}

theorem mem_kept {p : Int} : p ∈ s.kept ↔ p ∈ s.range.available ∨ p ∈ s.recordedPorts := Iff.rfl

/-- What a start takes is recorded, or kept by nobody. -/
theorem kept_run (h : Disjoint lo hi s) {id : Nat} (he : (s.jobs id).phase = .waiting) (c : RunCalls)
    (nodelist : Option (List String)) (random : Int) :
    ∃ taken : List Int, s.range.available = (runCb c nodelist s.range).2.1.available ++ taken.reverse ∧
      (∀ p, p ∈ (Op.apply s (.run id c nodelist random)).kept ↔
        p ∈ s.kept ∧ ((runCb c nodelist s.range).2.2.2 = none → p ∉ taken)) := by
  obtain ⟨taken, havail, hsize, haux⟩ := runCb_spec c nodelist s.range
  obtain ⟨-, -, hfree, hbelow, hgone⟩ := stack_taken h.stack hsize havail
  have hown : s.recorded id = none := by
    unfold Plugin.recorded
    rw [he]
    rfl
  have hrecorded (id' : Nat) : (Op.apply s (.run id c nodelist random)).recorded id' =
      if id' = id then (runCb c nodelist s.range).2.2.2 else s.recorded id' := recorded_update s _ _ id _ id'
  have hmem (p : Int) : p ∈ s.range.available ↔ p ∈ (runCb c nodelist s.range).2.1.available ∨ p ∈ taken := by
    rw [havail, List.mem_append, List.mem_reverse]
  have hold (p : Int) (hp : p ∈ s.recordedPorts) : p ∈ (Op.apply s (.run id c nodelist random)).recordedPorts := by
    obtain ⟨id', ports, hports, hp⟩ := hp
    have hne : id' ≠ id := by
      rintro rfl
      rw [hown] at hports
      cases hports
    exact ⟨id', ports, by rw [hrecorded, if_neg hne, hports], hp⟩
  have hnew (p : Int) (hp : p ∈ (Op.apply s (.run id c nodelist random)).recordedPorts) :
      p ∈ s.recordedPorts ∨ (p ∈ taken ∧ (runCb c nodelist s.range).2.2.2 ≠ none) := by
    obtain ⟨id', ports, hports, hp⟩ := hp
    rw [hrecorded] at hports
    split at hports
    · refine .inr ⟨?_, by simp [hports]⟩
      rcases haux with hnone | hsome
      · rw [hnone] at hports
        cases hports
      · rw [hsome] at hports
        exact Option.some.inj hports ▸ hp
    · exact .inl ⟨id', ports, hports, hp⟩
  refine ⟨taken, havail, fun p => ?_⟩
  rw [mem_kept, mem_kept, hmem]
  constructor
  · rintro (hp | hp)
    · exact ⟨.inl (.inl hp), fun _ ht => hgone p ht hp⟩
    · rcases hnew p hp with hp | ⟨ht, hsome⟩
      · refine ⟨.inr hp, fun _ ht => ?_⟩
        obtain ⟨id', ports, hports, hp⟩ := hp
        exact h.taken id' ports hports p hp (hfree p ht)
      · exact ⟨.inl (.inr ht), fun hnone => absurd hnone hsome⟩
  · rintro ⟨(hp | ht) | hp, hlost⟩
    · exact .inl hp
    · refine .inr ⟨id, taken, ?_, ht⟩
      rw [hrecorded, if_pos rfl]
      exact haux.resolve_left fun hnone => hlost hnone ht
    · exact .inr (hold p hp)

/-- A start changes what is kept exactly when it loses a port. -/
theorem kept_run_iff (hlo : 0 < lo) (h : Disjoint lo hi s) {id : Nat} (he : (s.jobs id).phase = .waiting)
    (c : RunCalls) (nodelist : Option (List String)) (random : Int) :
    (Op.apply s (.run id c nodelist random)).kept = s.kept ↔ ¬ PortsLost c nodelist s.range := by
  obtain ⟨taken, havail, hkept⟩ := kept_run h he c nodelist random
  have hfill := congrArg List.length havail
  rw [List.length_append, List.length_reverse, PortRange.length_available, PortRange.length_available] at hfill
  rcases runCb_cases hlo h.stack c nodelist with ⟨hsafe, code, hrun⟩ | ⟨hlost, range', posted, hrun, hless⟩ |
    ⟨hsafe, range', ports, hrun⟩
  · rw [hrun] at hfill hkept
    have hnil := List.length_eq_zero_iff.mp (show taken.length = 0 by dsimp only at hfill; omega)
    refine iff_of_true (Set.ext fun p => (hkept p).trans (and_iff_left fun _ => ?_)) hsafe
    rw [hnil]
    exact List.not_mem_nil
  · rw [hrun] at hfill hkept havail
    have hpos : 0 < taken.length := by
      dsimp only at hfill
      omega
    obtain ⟨p, hp⟩ := List.exists_mem_of_length_pos hpos
    have hfree : p ∈ s.kept := by
      refine .inl ?_
      show p ∈ s.range.available
      rw [havail, List.mem_append, List.mem_reverse]
      exact .inr hp
    refine iff_of_false (fun hsame => ?_) (not_not.mpr hlost)
    rw [← hsame] at hfree
    exact ((hkept p).mp hfree).2 rfl hp
  · rw [hrun] at hkept
    exact iff_of_true (Set.ext fun p => (hkept p).trans (and_iff_left fun hnone => by cases hnone)) hsafe

theorem kept_cleanup (hlo : 0 < lo) (h : Disjoint lo hi s) {id : Nat} (he : (s.jobs id).phase ≠ .cleaned) :
    (Op.apply s (.cleanup id)).kept = s.kept := by
  obtain ⟨-, -, havail⟩ := cleanupCb_spec hlo s id h he
  have hrecorded (id' : Nat) : (Op.apply s (.cleanup id)).recorded id' = if id' = id then none else s.recorded id' :=
    recorded_update s _ _ id _ id'
  ext p
  rw [mem_kept, mem_kept]
  show p ∈ (cleanupCb s.range (s.jobs id).aux).2.available ∨ _ ↔ _
  rw [havail, List.mem_append]
  constructor
  · rintro ((hp | hp) | ⟨id', ports, hports, hp⟩)
    · exact .inl hp
    · cases hown : s.recorded id with
      | none => simp [hown] at hp
      | some own =>
        rw [hown] at hp
        exact .inr ⟨id, own, hown, hp⟩
    · rw [hrecorded] at hports
      split at hports
      · cases hports
      · exact .inr ⟨id', ports, hports, hp⟩
  · rintro (hp | ⟨id', ports, hports, hp⟩)
    · exact .inl (.inl hp)
    · by_cases hid : id' = id
      · subst hid
        rw [hports]
        exact .inl (.inr hp)
      · exact .inr ⟨id', ports, by rw [hrecorded, if_neg hid, hports], hp⟩

/-- No port of the range is lost. -/
structure AllKept (lo hi : Int) (s : Plugin) : Prop where
  kept : s.kept = {p | lo ≤ p ∧ p < hi}
  count : s.range.available.length + s.recordedPorts.ncard = (hi - lo).toNat

/-- The free ports and the recorded ones are counted apart. -/
theorem allKept_iff (h : Disjoint lo hi s) : AllKept lo hi s ↔ s.kept = {p | lo ≤ p ∧ p < hi} := by
  refine ⟨AllKept.kept, fun hkept => ⟨hkept, ?_⟩⟩
  have hrange : s.kept = (↑(Finset.Ico lo hi) : Set Int) := by
    rw [hkept]
    ext p
    simp
  have hfinite : s.kept.Finite := hrange ▸ Finset.finite_toSet _
  have hcoe : {p | p ∈ s.range.available} = (↑s.range.available.toFinset : Set Int) := by simp
  have havail : {p | p ∈ s.range.available}.ncard = s.range.available.length := by
    rw [hcoe, Set.ncard_coe_finset, List.toFinset_card_of_nodup h.stack.nodup]
  have hapart : ∀ p ∈ {p | p ∈ s.range.available}, p ∉ s.recordedPorts := by
    rintro p hp ⟨id, ports, hports, hmem⟩
    exact h.taken id ports hports p hmem hp
  have hunion : s.kept.ncard = {p | p ∈ s.range.available}.ncard + s.recordedPorts.ncard :=
    Set.ncard_union_eq (Set.disjoint_left.mpr hapart) (hfinite.subset Set.subset_union_left)
      (hfinite.subset Set.subset_union_right)
  rw [← havail, ← hunion, hrange, Set.ncard_coe_finset, Int.card_Ico]

theorem allKept_step (hlo : 0 < lo) (h : Disjoint lo hi s) (hkept : AllKept lo hi s) {op : Op} (he : op.Enabled s) :
    AllKept lo hi (op.apply s) ↔ StartsSafely s op := by
  cases op with
  | run id c nodelist random =>
    rw [allKept_iff (disjoint_run s id c nodelist random h he), ← hkept.kept]
    exact kept_run_iff hlo h he c nodelist random
  | cleanup id =>
    rw [allKept_iff (disjoint_cleanup hlo s id h he), kept_cleanup hlo h he]
    exact iff_of_true hkept.kept trivial

end Step

/-! ### Over every run -/

theorem fluxPluginInit_full {c : InitCalls} {conf : Option (Int × Int)} {range : PortRange}
    (h : fluxPluginInit c conf = some range) : range.fill = range.maxsize := by
  unfold fluxPluginInit at h
  dsimp only at h
  split at h
  · cases h
  split at h
  · cases h
  split at h
  · cases h
  split at h
  · cases h
  split at h
  · cases h
  · cases h
    rfl

/-- A full stack has every port of its range. -/
theorem mem_available_full {lo hi : Int} {range : PortRange} (h : Stack lo hi range)
    (hfull : range.fill = range.maxsize) (p : Int) : p ∈ range.available ↔ lo ≤ p ∧ p < hi := by
  have hsub : range.available.toFinset ⊆ Finset.Ico lo hi := by
    intro q hq
    exact Finset.mem_Ico.mpr (h.within q (List.mem_toFinset.mp hq))
  have hcard : (Finset.Ico lo hi).card ≤ range.available.toFinset.card := by
    rw [List.toFinset_card_of_nodup h.nodup, range.length_available, hfull, h.size, Int.card_Ico]
  rw [← List.mem_toFinset, Finset.eq_of_subset_of_card_le hsub hcard, Finset.mem_Ico]

/-- **Ports are kept** in every state of a run exactly when its starts fail before they take a port,
if they fail; and a start that fails changes what is kept exactly when it has taken one. -/
theorem ports_kept_iff (c : InitCalls) (conf : Option (Int × Int)) (range : PortRange)
    (hinit : fluxPluginInit c conf = some range) (ops : List Op)
    (hp : (bootstrapMachine range).Possible (bootstrapMachine range).init ops) :
    ((bootstrapMachine range).Always (AllKept (portBounds conf).1 (portBounds conf).2)
        (bootstrapMachine range).init ops ↔
      (bootstrapMachine range).Legal StartsSafely (bootstrapMachine range).init ops) ∧
    (bootstrapMachine range).Always (fun s => ∀ id c nodelist random, (s.jobs id).phase = .waiting →
      (runCb c nodelist s.range).1 = -1 →
      ((Op.apply s (.run id c nodelist random)).kept = s.kept ↔ ¬ PortsLost c nodelist s.range))
      (bootstrapMachine range).init ops := by
  obtain ⟨hlo, -, hstack⟩ := fluxPluginInit_spec hinit
  have hpos : 0 < (portBounds conf).1 := by omega
  have hinv := disjoint_init hstack
  constructor
  · refine Machine.always_iff_legal (Disjoint (portBounds conf).1 (portBounds conf).2) ?_ ?_ hinv ?_ hp
    · exact fun s op h he _ => disjoint_apply hpos h he
    · exact fun s op h hkept he => allKept_step hpos h hkept he
    · refine (allKept_iff hinv).mpr (Set.ext fun p => ?_)
      refine Iff.trans ?_ (mem_available_full hstack (fluxPluginInit_full hinit) p)
      exact or_iff_left fun ⟨id, ports, hports, _⟩ => by cases hports
  · refine Machine.always_from (Disjoint (portBounds conf).1 (portBounds conf).2) ?_ ?_ hinv hp
    · exact fun s h id c nodelist random he _ => kept_run_iff hpos h he c nodelist random
    · exact fun s op h he _ => disjoint_apply hpos h he

def defaultPorts : PortRange where
  availablePorts := (List.range 1000).map fun (i : Nat) => 11000 + (i : Int)
  fill := 1000
  maxsize := 1000
  length_eq := by simp
  fill_le := Nat.le_refl _

theorem fluxPluginInit_default : fluxPluginInit {} none = some defaultPorts := rfl

/-- A job on two nodes that does not get its ports stored, and its cleanup. -/
def unstored : List Op := [.run 1 {auxSet := false} (some ["node1", "node2"]) 7, .cleanup 1]

theorem unstored_possible : (bootstrapMachine defaultPorts).Possible (bootstrapMachine defaultPorts).init unstored :=
  ⟨rfl, trivial, by simp [bootstrapMachine, Op.apply, Op.Enabled], trivial, trivial⟩

theorem unstored_kept_iff :
    ((bootstrapMachine defaultPorts).Always (AllKept 11000 12000) (bootstrapMachine defaultPorts).init unstored ↔
      (bootstrapMachine defaultPorts).Legal StartsSafely (bootstrapMachine defaultPorts).init unstored) ∧
    (bootstrapMachine defaultPorts).Always (fun s => ∀ id c nodelist random, (s.jobs id).phase = .waiting →
      (runCb c nodelist s.range).1 = -1 →
      ((Op.apply s (.run id c nodelist random)).kept = s.kept ↔ ¬ PortsLost c nodelist s.range))
      (bootstrapMachine defaultPorts).init unstored :=
  ports_kept_iff {} none defaultPorts fluxPluginInit_default unstored unstored_possible

/-- Both ports are lost. -/
theorem unstored_loses :
    (runCb {auxSet := false} (some ["node1", "node2"]) (bootstrapMachine defaultPorts).init.range).1 = -1 ∧
      (Op.apply (bootstrapMachine defaultPorts).init
        (.run 1 {auxSet := false} (some ["node1", "node2"]) 7)).kept ≠ (bootstrapMachine defaultPorts).init.kept := by
  obtain ⟨-, -, hstack⟩ := fluxPluginInit_spec fluxPluginInit_default
  have hlost : PortsLost {auxSet := false} (some ["node1", "node2"]) defaultPorts :=
    ⟨_, rfl, by decide, by decide, .inr rfl⟩
  refine ⟨?_, fun hsame => ?_⟩
  · rcases runCb_cases (by decide) hstack {auxSet := false} (some ["node1", "node2"]) with
      ⟨hsafe, -⟩ | ⟨-, range', posted, hrun, -⟩ | ⟨hsafe, -⟩
    · exact absurd hlost hsafe
    · exact congrArg Prod.fst hrun
    · exact absurd hlost hsafe
  · exact (kept_run_iff (by decide) (disjoint_init hstack) rfl _ _ _).mp hsame hlost

end FluxCoral2.CrayPmi
