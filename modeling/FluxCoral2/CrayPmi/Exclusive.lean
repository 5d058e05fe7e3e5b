import Mathlib.Data.Int.Interval
import FluxCoral2.CrayPmi.Bootstrap

/-! Control ports are exclusive.

`ports_exclusive`: whatever range the plugin accepts and however starts and
cleanups of jobs interleave, failing starts included, the ports recorded for jobs
that have run and not cleaned up are distinct, are in the configured range, and
are not on the stack, and a cleanup never finds the stack full.

The invariant (`Disjoint`) says the recorded arrays and the stack are disjoint and
inside the range. It bounds the stack by counting: a port about to be returned is
in the range and not on the stack, so the stack holds fewer ports than the range. -/
namespace FluxCoral2.CrayPmi
open Library

/-- Distinct ports of a range that leave one out are fewer than the range. -/
theorem length_lt_of_missing {lo hi p : Int} {l : List Int} (hn : l.Nodup)
    (hl : ∀ q ∈ l, lo ≤ q ∧ q < hi) (hp : lo ≤ p ∧ p < hi) (hout : p ∉ l) :
    l.length < (hi - lo).toNat := by
  have hsub : (p :: l).toFinset ⊆ Finset.Ico lo hi := by
    intro q hq
    rw [List.mem_toFinset, List.mem_cons] at hq
    rw [Finset.mem_Ico]
    rcases hq with rfl | hq
    · exact hp
    · exact hl q hq
  have hcard := Finset.card_le_card hsub
  rw [List.toFinset_card_of_nodup (List.nodup_cons.mpr ⟨hout, hn⟩), Int.card_Ico,
    List.length_cons] at hcard
  omega

/-- The stack of a plugin that serves the range `lo..hi`. -/
structure Stack (lo hi : Int) (range : PortRange) : Prop where
  size : range.maxsize = (hi - lo).toNat
  nodup : range.available.Nodup
  within : ∀ p ∈ range.available, lo ≤ p ∧ p < hi

/-- A port of the range that is off the stack can be returned. -/
theorem setPort_off_stack {lo hi p : Int} {range : PortRange} (h : Stack lo hi range)
    (hp : lo ≤ p ∧ p < hi) (hout : p ∉ range.available) :
    (setPort range p).1 = 0 ∧ (setPort range p).2.available = range.available ++ [p] ∧
      Stack lo hi (setPort range p).2 := by
  have hroom : range.fill < range.maxsize := by
    rw [h.size, ← range.length_available]
    exact length_lt_of_missing h.nodup h.within hp hout
  obtain ⟨hcode, havail, hsize⟩ := setPort_spec range p hroom
  refine ⟨hcode, havail, hsize.trans h.size, ?_, ?_⟩
  · rw [havail, List.nodup_append]
    refine ⟨h.nodup, List.nodup_singleton p, fun a ha b hb hab => hout ?_⟩
    rw [List.mem_singleton] at hb
    rwa [← hb, ← hab]
  · intro q hq
    rw [havail, List.mem_append, List.mem_singleton] at hq
    rcases hq with hq | rfl
    · exact h.within q hq
    · exact hp

/-- Returning distinct ports of the range that are off the stack. -/
theorem returnPorts_off_stack {lo hi : Int} (hlo : 0 < lo) (ports : List Int) (range : PortRange)
    (h : Stack lo hi range) (hn : ports.Nodup) (hp : ∀ p ∈ ports, lo ≤ p ∧ p < hi)
    (hout : ∀ p ∈ ports, p ∉ range.available) :
    (returnPorts range ports).1 = .ok ∧
      (returnPorts range ports).2.available = range.available ++ ports ∧
      Stack lo hi (returnPorts range ports).2 := by
  induction ports generalizing range with
  | nil => exact ⟨rfl, by simp [returnPorts], h⟩
  | cons p rest ih =>
    have hpp := hp p (List.mem_cons_self ..)
    obtain ⟨hcode, havail, hstack⟩ := setPort_off_stack h hpp (hout p (List.mem_cons_self ..))
    have hne : p ≠ 0 := by omega
    have hstep : returnPorts range (p :: rest) = returnPorts (setPort range p).2 rest := by
      simp [returnPorts, hne, hcode]
    obtain ⟨hok, hrest, hfinal⟩ := ih (setPort range p).2 hstack (List.nodup_cons.mp hn).2
      (fun q hq => hp q (List.mem_cons_of_mem p hq)) (fun q hq hmem => by
        rw [havail, List.mem_append, List.mem_singleton] at hmem
        rcases hmem with hmem | rfl
        · exact hout q (List.mem_cons_of_mem p hq) hmem
        · exact (List.nodup_cons.mp hn).1 hq)
    rw [hstep]
    refine ⟨hok, ?_, hfinal⟩
    rw [hrest, havail, List.append_assoc, List.singleton_append]

/-! ### The invariant -/

structure Disjoint (lo hi : Int) (s : Plugin) : Prop where
  stack : Stack lo hi s.range
  waiting : ∀ id, (s.jobs id).phase = .waiting → (s.jobs id).aux = none
  nodup : ∀ id ports, s.recorded id = some ports → ports.Nodup
  within : ∀ id ports, s.recorded id = some ports → ∀ p ∈ ports, lo ≤ p ∧ p < hi
  taken : ∀ id ports, s.recorded id = some ports → ∀ p ∈ ports, p ∉ s.range.available
  apart : ∀ id id' ports ports', s.recorded id = some ports → s.recorded id' = some ports' →
    ∀ p ∈ ports, p ∈ ports' → id = id'

theorem recorded_eq_some {s : Plugin} {id : Nat} {ports : List Int} :
    s.recorded id = some ports ↔ (s.jobs id).phase = .ran ∧ (s.jobs id).aux = some ports := by
  unfold Plugin.recorded
  by_cases h : (s.jobs id).phase = .ran <;> simp [h]

/-- A job's update leaves what is recorded for the others. -/
theorem recorded_update (s : Plugin) (range : PortRange) (events : List Event) (id : Nat) (j : Job)
    (id' : Nat) : Plugin.recorded ⟨range, Function.update s.jobs id j, events⟩ id' =
      if id' = id then (if j.phase = .ran then j.aux else none) else s.recorded id' := by
  unfold Plugin.recorded
  by_cases h : id' = id
  · subst h
    simp
  · simp [h]

/-- The stack below some of its top entries, and those entries. -/
theorem stack_taken {lo hi : Int} {range range' : PortRange} {taken : List Int}
    (h : Stack lo hi range) (hsize : range'.maxsize = range.maxsize)
    (ht : range.available = range'.available ++ taken.reverse) :
    Stack lo hi range' ∧ taken.Nodup ∧ (∀ p ∈ taken, p ∈ range.available) ∧
      (∀ p ∈ range'.available, p ∈ range.available) ∧ ∀ p ∈ taken, p ∉ range'.available := by
  have hn := h.nodup
  rw [ht, List.nodup_append] at hn
  obtain ⟨hbelow, htop, hsep⟩ := hn
  have hin : ∀ p ∈ range'.available, p ∈ range.available := fun p hp => by
    rw [ht, List.mem_append]
    exact .inl hp
  refine ⟨⟨hsize.trans h.size, hbelow, fun p hp => h.within p (hin p hp)⟩,
    List.nodup_reverse.mp htop, fun p hp => ?_, hin, fun p hp hmem => ?_⟩
  · rw [ht, List.mem_append, List.mem_reverse]
    exact .inr hp
  · exact hsep p hmem p (List.mem_reverse.mpr hp) rfl

theorem disjoint_run {lo hi : Int} (s : Plugin) (id : Nat) (c : RunCalls)
    (nodelist : Option (List String)) (random : Int) (h : Disjoint lo hi s)
    (he : (s.jobs id).phase = .waiting) :
    Disjoint lo hi (Op.apply s (.run id c nodelist random)) := by
  obtain ⟨taken, havail, hsize, haux⟩ := runCb_spec c nodelist s.range
  obtain ⟨hstack, hnodup, hfree, hbelow, hgone⟩ := stack_taken h.stack hsize havail
  have hrec : ∀ id' ports, (Op.apply s (.run id c nodelist random)).recorded id' = some ports →
      id' = id ∧ ports = taken ∨ id' ≠ id ∧ s.recorded id' = some ports := by
    intro id' ports hr
    rw [show Op.apply s (.run id c nodelist random) = _ from rfl, Op.apply, recorded_update] at hr
    by_cases hid : id' = id
    · left
      rw [if_pos hid, if_pos rfl] at hr
      rcases haux with hnone | hsome
      · rw [hnone] at hr
        cases hr
      · rw [hsome] at hr
        exact ⟨hid, (Option.some.inj hr).symm⟩
    · rw [if_neg hid] at hr
      exact .inr ⟨hid, hr⟩
  refine ⟨hstack, fun id' hw => ?_, fun id' ports hr => ?_, fun id' ports hr p hp => ?_,
    fun id' ports hr p hp hmem => ?_, fun id₁ id₂ ports₁ ports₂ hr₁ hr₂ p hp₁ hp₂ => ?_⟩
  · by_cases hid : id' = id
    · subst hid
      simp [Op.apply] at hw
    · simp only [Op.apply, Function.update_of_ne hid] at hw ⊢
      exact h.waiting id' hw
  · rcases hrec id' ports hr with ⟨_, rfl⟩ | ⟨_, hr⟩
    · exact hnodup
    · exact h.nodup id' ports hr
  · rcases hrec id' ports hr with ⟨_, rfl⟩ | ⟨_, hr⟩
    · exact h.stack.within p (hfree p hp)
    · exact h.within id' ports hr p hp
  · rcases hrec id' ports hr with ⟨_, rfl⟩ | ⟨_, hr⟩
    · exact hgone p hp hmem
    · exact h.taken id' ports hr p hp (hbelow p hmem)
  · -- ports just taken were on the stack, so no other job had them
    rcases hrec id₁ ports₁ hr₁ with ⟨hid₁, hports₁⟩ | ⟨_, hold₁⟩ <;>
      rcases hrec id₂ ports₂ hr₂ with ⟨hid₂, hports₂⟩ | ⟨_, hold₂⟩
    · rw [hid₁, hid₂]
    · rw [hports₁] at hp₁
      exact absurd (hfree p hp₁) (h.taken id₂ ports₂ hold₂ p hp₂)
    · rw [hports₂] at hp₂
      exact absurd (hfree p hp₂) (h.taken id₁ ports₁ hold₁ p hp₁)
    · exact h.apart id₁ id₂ ports₁ ports₂ hold₁ hold₂ p hp₁ hp₂

/-- A cleanup returns what was recorded for the job, without complaint. -/
theorem cleanupCb_spec {lo hi : Int} (hlo : 0 < lo) (s : Plugin) (id : Nat) (h : Disjoint lo hi s)
    (he : (s.jobs id).phase ≠ .cleaned) :
    (cleanupCb s.range (s.jobs id).aux).1 = .ok ∧
      Stack lo hi (cleanupCb s.range (s.jobs id).aux).2 ∧
      (cleanupCb s.range (s.jobs id).aux).2.available =
        s.range.available ++ ((s.recorded id).getD []) := by
  cases ha : (s.jobs id).aux with
  | none =>
    have hr : s.recorded id = none := by simp [Plugin.recorded, ha]
    exact ⟨rfl, h.stack, by simp [cleanupCb, hr]⟩
  | some ports =>
    have hran : (s.jobs id).phase = .ran := by
      cases hphase : (s.jobs id).phase with
      | waiting =>
        rw [h.waiting id hphase] at ha
        cases ha
      | ran => rfl
      | cleaned => exact absurd hphase he
    have hr : s.recorded id = some ports := recorded_eq_some.mpr ⟨hran, ha⟩
    obtain ⟨hok, havail, hstack⟩ := returnPorts_off_stack hlo ports s.range h.stack
      (h.nodup id ports hr) (h.within id ports hr) (h.taken id ports hr)
    exact ⟨hok, hstack, by rw [hr]; exact havail⟩

theorem disjoint_cleanup {lo hi : Int} (hlo : 0 < lo) (s : Plugin) (id : Nat) (h : Disjoint lo hi s)
    (he : (s.jobs id).phase ≠ .cleaned) : Disjoint lo hi (Op.apply s (.cleanup id)) := by
  obtain ⟨_, hstack, havail⟩ := cleanupCb_spec hlo s id h he
  have hrec : ∀ id' ports, (Op.apply s (.cleanup id)).recorded id' = some ports →
      id' ≠ id ∧ s.recorded id' = some ports := by
    intro id' ports hr
    rw [Op.apply, recorded_update] at hr
    by_cases hid : id' = id
    · simp [hid] at hr
    · rw [if_neg hid] at hr
      exact ⟨hid, hr⟩
  refine ⟨hstack, fun id' hw => ?_, fun id' ports hr => ?_, fun id' ports hr => ?_,
    fun id' ports hr p hp hmem => ?_, fun id₁ id₂ ports₁ ports₂ hr₁ hr₂ => ?_⟩
  · by_cases hid : id' = id
    · subst hid
      simp [Op.apply] at hw
    · simp only [Op.apply, Function.update_of_ne hid] at hw ⊢
      exact h.waiting id' hw
  · exact h.nodup id' ports (hrec id' ports hr).2
  · exact h.within id' ports (hrec id' ports hr).2
  · obtain ⟨hid, hr⟩ := hrec id' ports hr
    rw [show (Op.apply s (.cleanup id)).range.available = _ from havail, List.mem_append] at hmem
    rcases hmem with hmem | hmem
    · exact h.taken id' ports hr p hp hmem
    · -- only the ports of the cleaned job were added, and they were its own
      cases hown : s.recorded id with
      | none => simp [hown] at hmem
      | some own =>
        rw [hown] at hmem
        exact hid (h.apart id' id ports own hr hown p hp hmem)
  · exact h.apart id₁ id₂ ports₁ ports₂ (hrec id₁ ports₁ hr₁).2 (hrec id₂ ports₂ hr₂).2

theorem disjoint_apply {lo hi : Int} (hlo : 0 < lo) {s : Plugin} (h : Disjoint lo hi s) {op : Op}
    (he : op.Enabled s) : Disjoint lo hi (op.apply s) := by
  cases op with
  | run id c nodelist random => exact disjoint_run s id c nodelist random h he
  | cleanup id => exact disjoint_cleanup hlo s id h he

theorem disjoint_init {lo hi : Int} {range : PortRange} (h : Stack lo hi range) :
    Disjoint lo hi (bootstrapMachine range).init := by
  have hnone : ∀ id, (bootstrapMachine range).init.recorded id = none := fun _ => rfl
  refine ⟨h, fun _ _ => rfl, ?_, ?_, ?_, ?_⟩ <;> intro id <;> simp [hnone]

/-! ### The plugin -/

theorem fluxPluginInit_spec {c : InitCalls} {conf : Option (Int × Int)} {range : PortRange}
    (h : fluxPluginInit c conf = some range) :
    1024 ≤ (portBounds conf).1 ∧ (portBounds conf).2 ≤ 65536 ∧
      Stack (portBounds conf).1 (portBounds conf).2 range := by
  unfold fluxPluginInit at h
  dsimp only at h
  split at h
  · cases h
  split at h
  · cases h
  split at h
  · cases h
  split at h
  · cases h
  split at h
  · cases h
  · rename_i _ hbounds hsize _ _
    simp only [Bool.or_eq_true, decide_eq_true_eq, not_or, not_lt, gt_iff_lt] at hbounds
    have hinj : Function.Injective fun (i : Nat) => (portBounds conf).1 + (i : Int) := fun i j hij => by
      simpa using hij
    have hall : range.available = (List.range ((portBounds conf).2 - (portBounds conf).1).toNat).map
        fun (i : Nat) => (portBounds conf).1 + (i : Int) := by
      cases h
      simp [PortRange.available]
    refine ⟨hbounds.1.1, hbounds.2, by cases h; rfl, ?_, fun p hp => ?_⟩
    · rw [hall]
      exact List.nodup_range.map hinj
    · rw [hall] at hp
      obtain ⟨i, hi, rfl⟩ := List.mem_map.mp hp
      rw [List.mem_range] at hi
      omega

/-- What the plugin owes the jobs that have run and not cleaned up. -/
structure PortsExclusive (portMin portMax : Int) (s : Plugin) : Prop where
  distinct : ∀ id ports, s.recorded id = some ports → ports.Nodup
  apart : ∀ id id' ports ports', s.recorded id = some ports → s.recorded id' = some ports' →
    ∀ p ∈ ports, p ∈ ports' → id = id'
  within : ∀ id ports, s.recorded id = some ports → ∀ p ∈ ports,
    portMin ≤ p ∧ p < portMax ∧ p < 65536
  taken : ∀ id ports, s.recorded id = some ports → ∀ p ∈ ports, p ∉ s.range.available
  free : s.range.available.Nodup
  no_overflow : ∀ id, (s.jobs id).phase ≠ .cleaned →
    (cleanupCb s.range (s.jobs id).aux).1 ≠ .overflow

/-- **Control ports are exclusive**, for every accepted range and every history of
starts and cleanups. -/
theorem ports_exclusive (c : InitCalls) (conf : Option (Int × Int)) (range : PortRange)
    (hinit : fluxPluginInit c conf = some range) (ops : List Op)
    (hp : (bootstrapMachine range).Possible (bootstrapMachine range).init ops) :
    PortsExclusive (portBounds conf).1 (portBounds conf).2
      ((bootstrapMachine range).run (bootstrapMachine range).init ops) := by
  obtain ⟨hlo, hhi, hstack⟩ := fluxPluginInit_spec hinit
  have hpos : 0 < (portBounds conf).1 := by omega
  have hinv : Disjoint (portBounds conf).1 (portBounds conf).2
      ((bootstrapMachine range).run (bootstrapMachine range).init ops) :=
    Machine.invariant _ (disjoint_init hstack) (fun _ _ h he _ => disjoint_apply hpos h he) hp
  refine ⟨hinv.nodup, hinv.apart, fun id ports hr p hp => ?_, hinv.taken, hinv.stack.nodup,
    fun id he => ?_⟩
  · have := hinv.within id ports hr p hp
    omega
  · rw [(cleanupCb_spec hpos _ id hinv he).1]
    decide

/-- Two jobs on the default ports, the first of which cleans up before the third starts. -/
theorem default_ports_exclusive : ∃ range, fluxPluginInit {} none = some range ∧
    PortsExclusive 11000 12000 ((bootstrapMachine range).run (bootstrapMachine range).init
      [.run 1 {} (some ["node1", "node2"]) 7, .run 2 {auxSet := false} (some ["node1", "node2"]) 8,
        .cleanup 1, .run 3 {} (some ["node2", "node3"]) 9]) := by
  cases h : fluxPluginInit {} none with
  | none => simp [fluxPluginInit, portBounds] at h
  | some range =>
    refine ⟨range, rfl, ports_exclusive {} none range h _ ?_⟩
    exact ⟨rfl, trivial, rfl, trivial, by simp [bootstrapMachine, Op.apply, Op.Enabled], trivial, rfl,
      trivial, trivial⟩

end FluxCoral2.CrayPmi
