import Mathlib.Data.List.Basic
import FluxCoral2.Dws.Existence

/-! The timers that run.

Timers for a state share the slot of a WorkflowInfo: `Slotted` says that each one that
runs is the one in the slot, where stopping the timer of the state finds it, and that a
WorkflowInfo with such timers is the job's as long as there is a workflow. It holds in
every run (`slotted_next`). -/
namespace FluxCoral2.Dws
open Library Jobtap

variable {cfg : Config} {o : Outcomes}

/-- The state that a timer in the slot of a WorkflowInfo guards. -/
def TimerKind.guards? : TimerKind → Option WorkflowState
  | .setup _ _ => some .setup
  | .preRun => some .preRun
  | .postRun => some .postRun
  | .teardownAfter => none

namespace Clock

/-- The timer `i` runs. -/
def Runs (c : Clock) (i : Nat) (t : Timer) : Prop := c.timers[i]? = some t ∧ t.running = true

section Runs
variable {c : Clock} {i j ref : Nat} {t : Timer} {kind : TimerKind}

theorem Runs.lt (h : c.Runs i t) : i < c.timers.length := (List.getElem?_eq_some_iff.mp h.1).1

theorem runs_stop : (c.stop i).Runs j t ↔ j ≠ i ∧ c.Runs j t := by
  show (c.timers.modify i fun t => {t with running := false})[j]? = some t ∧ t.running = true ↔ _
  by_cases hij : i = j
  · subst hij
    rw [List.getElem?_modify_eq]
    refine ⟨fun h => ?_, fun h => absurd rfl h.1⟩
    obtain ⟨t₀, -, rfl⟩ := Option.map_eq_some_iff.mp h.1
    cases h.2
  · rw [List.getElem?_modify_ne _ _ hij]
    exact ⟨fun h => ⟨Ne.symm hij, h⟩, fun h => h.2⟩

theorem runs_disarm : (c.disarm ref).Runs j t ↔ c.slot ref ≠ some j ∧ c.Runs j t := by
  rw [disarm]
  cases hslot : c.slot ref with
  | none => simp
  | some i =>
    refine runs_stop.trans (and_congr_left fun _ => ?_)
    rw [ne_comm, ne_eq, ne_eq, Option.some_inj]

theorem runs_start : (c.start kind ref).Runs j t ↔ c.Runs j t ∨ j = c.timers.length ∧ t = ⟨kind, ref, true⟩ := by
  show (c.timers ++ [Timer.mk kind ref true])[j]? = some t ∧ t.running = true ↔ _
  constructor
  · rintro ⟨ht, hrun⟩
    rcases Nat.lt_trichotomy j c.timers.length with hlt | rfl | hgt
    · rw [List.getElem?_append_left hlt] at ht
      exact .inl ⟨ht, hrun⟩
    · rw [List.getElem?_concat_length] at ht
      exact .inr ⟨rfl, (Option.some.inj ht).symm⟩
    · rw [List.getElem?_eq_none (by simp; omega)] at ht
      cases ht
  · rintro (h | ⟨rfl, rfl⟩)
    · exact ⟨by rw [List.getElem?_append_left h.lt]; exact h.1, h.2⟩
    · exact ⟨List.getElem?_concat_length, rfl⟩

theorem runs_arm : (c.arm kind ref).Runs j t ↔ c.Runs j t ∨ j = c.timers.length ∧ t = ⟨kind, ref, true⟩ := runs_start

end Runs

/-- `existed` and `alive` say that there has been a workflow and that there is one. -/
structure Slotted (existed alive : Prop) (c : Clock) : Prop where
  cached : ∀ ref, c.ledger.cache = some ref → ref < c.ledger.made
  known : ∀ i t, c.Runs i t → t.winfo < c.ledger.made
  held : ∀ i t, c.Runs i t → existed ∧ (alive → c.ledger.cache = some t.winfo)
  slot : ∀ i t, c.Runs i t → t.kind.guards?.isSome = true → c.slot t.winfo = some i

/-- No timer for the state of the WorkflowInfo runs. -/
def Disarmed (ref : Nat) (c : Clock) : Prop :=
  ∀ i t, c.Runs i t → t.kind.guards?.isSome = true → t.winfo ≠ ref

namespace Slotted
variable {existed alive : Prop} {c c' : Clock} {ref i : Nat} {kind : TimerKind}

theorem mono {existed' alive' : Prop} (h : c.Slotted existed alive) (he : existed → existed')
    (ha : existed → alive' → alive) : c.fresh.Slotted existed' alive' := by
  refine ⟨h.cached, h.known, fun i t hr => ?_, h.slot⟩
  obtain ⟨hexisted, hcached⟩ := h.held i t hr
  exact ⟨he hexisted, fun halive => hcached (ha hexisted halive)⟩

/-- Timers are stopped at most, and the ledger changes elsewhere. -/
theorem less (h : c.Slotted existed alive) (hcache : c'.ledger.cache = c.ledger.cache)
    (hmade : c'.ledger.made = c.ledger.made) (hslot : c'.slot = c.slot)
    (hruns : ∀ i t, c'.Runs i t → c.Runs i t) : c'.Slotted existed alive := by
  refine ⟨?_, fun i t hr => ?_, fun i t hr => ?_, fun i t hr => ?_⟩
  · rw [hcache, hmade]
    exact h.cached
  · rw [hmade]
    exact h.known i t (hruns i t hr)
  · rw [hcache]
    exact h.held i t (hruns i t hr)
  · rw [hslot]
    exact h.slot i t (hruns i t hr)

theorem mark (h : c.Slotted existed alive) (x : Out) : (c.mark x).Slotted existed alive :=
  h.less rfl rfl rfl fun _ _ => id

theorem setFlags (h : c.Slotted existed alive) (ref : Nat) (f : Flags → Flags) :
    (c.setFlags ref f).Slotted existed alive :=
  h.less rfl rfl rfl fun _ _ => id

theorem stop (h : c.Slotted existed alive) (i : Nat) : (c.stop i).Slotted existed alive :=
  h.less rfl rfl rfl fun _ _ hr => (runs_stop.mp hr).2

theorem slot_disarm (c : Clock) (ref : Nat) : (c.disarm ref).slot = c.slot := by
  rw [disarm]
  split <;> rfl

theorem disarm (h : c.Slotted existed alive) (ref : Nat) : (c.disarm ref).Slotted existed alive := by
  have hledger := c.ledger_disarm ref
  exact h.less (congrArg Ledger.cache hledger) (congrArg Ledger.made hledger) (slot_disarm c ref)
    fun _ _ hr => (runs_disarm.mp hr).2

theorem patch (h : c.Slotted existed alive) (d : WorkflowState) (ref : Nat) :
    (c.patch o d ref).Slotted existed alive :=
  (h.disarm ref).mark _

theorem tearDown (h : c.Slotted existed alive) (ref : Nat) : (c.tearDown ref).Slotted existed alive :=
  ((h.disarm ref).mark _).setFlags ref _

theorem release (h : c.Slotted existed alive) (ref : Nat) : (c.release ref).Slotted existed alive := by
  rw [Clock.release]
  split
  · exact h
  · exact h.mark _

theorem add (h : c.Slotted existed alive) (hc : c.ledger.cache = none) : c.add.Slotted existed alive := by
  refine ⟨fun ref href => ?_, fun i t hr => ?_, fun i t hr => ⟨(h.held i t hr).1, fun ha => ?_⟩, fun i t hr hk => ?_⟩
  · rw [← Option.some.inj href]
    exact Nat.lt_succ_self _
  · exact Nat.lt_succ_of_lt (h.known i t hr)
  · have hcache := (h.held i t hr).2 ha
    rw [hc] at hcache
    cases hcache
  · show Function.update c.slot c.ledger.made none t.winfo = some i
    rw [Function.update_of_ne (Nat.ne_of_lt (h.known i t hr))]
    exact h.slot i t hr hk

theorem get (h : c.Slotted existed alive) : c.get.Slotted existed alive := by
  cases hc : c.ledger.cache with
  | some ref =>
    rw [get_of_cached hc]
    exact h
  | none =>
    rw [get_of_none hc]
    exact h.add hc

theorem forget (h : c.Slotted existed alive) (ha : ¬ alive) : c.forget.Slotted existed alive :=
  ⟨nofun, h.known, fun i t hr => ⟨(h.held i t hr).1, fun halive => absurd halive ha⟩, h.slot⟩

theorem disarmed (h : c.Slotted existed alive) (ref : Nat) : (c.disarm ref).Disarmed ref := by
  intro i t hr hk href
  obtain ⟨hslot, hr⟩ := runs_disarm.mp hr
  exact hslot (href ▸ h.slot i t hr hk)

theorem start (h : c.Slotted existed alive) (hk : kind.guards? = none) (hc : c.ledger.cache = some ref)
    (he : existed) : (c.start kind ref).Slotted existed alive := by
  refine ⟨h.cached, fun i t hr => ?_, fun i t hr => ?_, fun i t hr hguards => ?_⟩ <;>
    rcases runs_start.mp hr with hr | ⟨rfl, rfl⟩
  · exact h.known i t hr
  · exact h.cached ref hc
  · exact h.held i t hr
  · exact ⟨he, fun _ => hc⟩
  · exact h.slot i t hr hguards
  · rw [hk] at hguards
    cases hguards

theorem arm (h : c.Slotted existed alive) (hd : c.Disarmed ref) (hc : c.ledger.cache = some ref) (he : existed) :
    (c.arm kind ref).Slotted existed alive := by
  refine ⟨h.cached, fun i t hr => ?_, fun i t hr => ?_, fun i t hr hguards => ?_⟩ <;>
    rcases runs_arm.mp hr with hr | ⟨rfl, rfl⟩
  · exact h.known i t hr
  · exact h.cached ref hc
  · exact h.held i t hr
  · exact ⟨he, fun _ => hc⟩
  · show Function.update c.slot ref _ t.winfo = some i
    rw [Function.update_of_ne (hd i t hr hguards)]
    exact h.slot i t hr hguards
  · exact Function.update_self _ _ _

theorem ite_arm (timeout : Bool) (h : c.Slotted existed alive) (hd : c.Disarmed ref) (hc : c.ledger.cache = some ref)
    (he : existed) : (if timeout then c.arm kind ref else c).Slotted existed alive := by
  cases timeout with
  | false => exact h
  | true => exact h.arm hd hc he

theorem timed {d : WorkflowState} (h : c.Slotted existed alive) (hd : c.Disarmed ref) (hc : c.ledger.cache = some ref)
    (he : existed) (ht : c.Timed cfg d ref c') : c'.Slotted existed alive := by
  cases d with
  | setup =>
    obtain ⟨nodes, lustre, rfl⟩ := ht
    exact h.ite_arm _ hd hc he
  | preRun =>
    have hpreRun : c' = if cfg.prerunTimeout then c.arm .preRun ref else c := ht
    exact hpreRun ▸ h.ite_arm _ hd hc he
  | postRun =>
    dsimp only [Timed] at ht
    subst ht
    cases cfg.teardownAfter with
    | false => exact h.ite_arm _ hd hc he
    | true =>
      refine (h.start rfl hc he).ite_arm _ (fun i t hr hk => ?_) hc he
      rcases runs_start.mp hr with hr | ⟨rfl, rfl⟩
      · exact hd i t hr hk
      · cases hk
  | _ =>
    have hsame : c' = c := ht
    exact hsame ▸ h

theorem moved {d : WorkflowState} (h : c.Slotted existed alive) (hm : c.Moved cfg o d ref c')
    (hc : c.ledger.cache = some ref) (he : o.found = true → existed) : c'.Slotted existed alive := by
  cases hm with
  | refused ho => exact h.patch d ref
  | taken ho ht =>
    refine (h.patch d ref).timed (h.disarmed ref) ?_ (he ?_) ht
    · rw [ledger_patch]
      exact hc
    · rw [Outcomes.applies, Bool.and_eq_true] at ho
      exact ho.1

theorem checked {ok : Bool} (h : c.Slotted existed alive) (hc : c.Checked o ref ok c') (ha : alive → o.found = true) :
    c'.Slotted existed alive := by
  cases hc with
  | failed => exact h
  | tornDown hf => exact h.tearDown ref
  | released hf => exact (h.forget fun halive => absurd (hf.symm.trans (ha halive)) (by decide)).mark _

theorem tornDown {ok : Bool} (h : c.Slotted existed alive) (hc : c.TornDown o ref ok c')
    (ha : alive → o.found = true) : c'.Slotted existed alive := by
  cases hc with
  | before ht => exact h
  | now ht hc => exact h.checked hc ha

theorem handled {workflow : Workflow} {ok : Bool} (h : c.Slotted existed alive)
    (hh : c.Handled cfg o workflow ref ok c') (hc : c.ledger.cache = some ref) (he : existed) :
    c'.Slotted existed alive := by
  cases hh with
  | nothing => exact h
  | released => exact h.release ref
  | deleted => exact ((h.release ref).mark _).setFlags ref _
  | moved _ _ _ hm => exact h.moved hm hc fun _ => he
  | prologRemoved => exact (h.mark _).disarm ref
  | tornDown => exact h.tearDown ref

/-- Without timers that run, nothing is asked of the slots. -/
theorem idle (hidle : ∀ i t, ¬ c.Runs i t) (hcached : ∀ ref, c.ledger.cache = some ref → ref < c.ledger.made) :
    c.Slotted existed alive :=
  ⟨hcached, fun i t hr => absurd hr (hidle i t), fun i t hr => absurd hr (hidle i t),
    fun i t hr => absurd hr (hidle i t)⟩

theorem cache_get (c : Clock) : c.get.ledger.cache = some c.ledger.getRef := by
  rw [ledger_get, Ledger.cache_get]

theorem abort (h : c.Slotted existed alive) : c.abort.Slotted existed alive := h.get.setFlags _ _

theorem noted {event : Snapshot} (h : c.Slotted existed alive) (hn : c.Noted cfg o event c') (he : existed)
    (hd : event = .deleted → ¬ alive) : c'.Slotted existed alive := by
  cases hn with
  | unread => exact h
  | forgotten => exact h.get.forget (hd rfl)
  | handled hr hh => exact h.get.handled hh (cache_get c) he
  | failed hh => exact (h.get.handled hh (cache_get c) he).tearDown _

theorem requested {r : Rpc} {ok : Bool} (h : c.Slotted existed alive) (hl : c.Requested cfg o ok c' r)
    (he : o.found = true → existed) (ha : alive → o.found = true)
    (hcreate : r.isCreate = true → ∀ i t, ¬ c.Runs i t) : c'.Slotted existed alive := by
  cases r with
  | create failureTolerance =>
    have hidle := hcreate rfl
    rcases hl with rfl | ⟨-, rfl | rfl⟩
    · exact h
    · exact h.mark _
    · refine .idle hidle fun ref href => ?_
      rw [← Option.some.inj href]
      exact Nat.lt_succ_self _
  | setup nodelist =>
    rcases hl with ⟨-, hm⟩ | ⟨-, rfl⟩
    · exact h.get.moved hm (cache_get c) he
    · exact h
  | postRun runStarted =>
    cases runStarted with
    | true =>
      dsimp only [Requested] at hl
      split at hl
      · exact hl.2 ▸ h.get
      · exact h.get.moved hl.2 (cache_get c) he
    | false => exact h.get.tornDown hl ha
  | teardown => exact h.get.tornDown hl ha
  | abort =>
    obtain ⟨ok, hl⟩ := hl
    exact h.abort.tornDown hl ha

theorem fired {timer : Timer} (h : c.Slotted existed alive) (hl : c.Fired o timer i c') (ha : alive → o.found = true) :
    c'.Slotted existed alive := by
  rw [Fired] at hl
  split at hl
  · obtain ⟨ok, c₁, hc, rfl⟩ := hl
    exact (h.checked hc ha).stop i
  · exact hl ▸ h.stop i

end Slotted
end Clock

/-! ### Steps of the system -/

/-- Actions that reach the timers of the service. -/
def Action.reaches : Action → Bool
  | .serve _ _ => true
  | .watch _ _ => true
  | .timer _ _ => true
  | _ => false

/-- What an action does to the clock. -/
inductive System.Ticks (cfg : Config) (s : System) : Action → Clock → Prop
  | outside {a : Action} (h : a.reaches = false) : Ticks cfg s a s.clock
  | serve {r : Rpc} {o : Outcomes} {ok : Bool} {c : Clock} (hr : r ∈ s.rpcs) (hf : o.Fits s)
    (h : s.clock.Requested cfg o ok c r) : Ticks cfg s (.serve r o) c
  | watch {n : Nat} {o : Outcomes} {event : Snapshot} {c : Clock} (hn : s.versions[n]? = some event) (hf : o.Fits s)
    (h : s.clock.Noted cfg o event c) : Ticks cfg s (.watch n o) c
  | timer {i : Nat} {o : Outcomes} {t : Timer} {c : Clock} (ht : s.clock.Runs i t) (hf : o.Fits s)
    (h : s.clock.Fired o t i c) : Ticks cfg s (.timer i o) c
  | killInTc {tcTimeout : Int} {o : Outcomes} (hf : o.Fits s) : Ticks cfg s (.killInTc tcTimeout o) s.clock.get

/-- The system with the clock that a step leads to; `out` is what the step logs. -/
structure System.Goes (s t : System) (c : Clock) (out : List Out) : Prop where
  clock : t.clock = c.fresh
  log : t.log = s.log ++ out
  marks : out.filter Out.isMark = c.ledger.marks

theorem System.Leads.goes {s t : System} {c : Clock} (h : s.Leads c t) : ∃ out, s.Goes t c out := by
  obtain ⟨out, hlog, hmarks⟩ := h.log
  exact ⟨out, h.clock, hlog, hmarks⟩

theorem goes_of_outside {s t : System} (hservice : t.service = s.service) (hlog : t.log = s.log) :
    s.Goes t s.clock [] := by
  refine ⟨?_, by rw [hlog, List.append_nil], rfl⟩
  rw [System.clock, hservice]
  rfl

theorem ticks_next (cfg : Config) (timeout : Bool) (s : System) (a : Action) (he : a.Enabled s) :
    ∃ c out, s.Ticks cfg a c ∧ s.Goes (a.next cfg timeout s) c out := by
  have houtside (h : a.reaches = false) (hservice : (a.next cfg timeout s).service = s.service)
      (hlog : (a.next cfg timeout s).log = s.log) : ∃ c out, s.Ticks cfg a c ∧ s.Goes (a.next cfg timeout s) c out :=
    ⟨s.clock, [], .outside h, goes_of_outside hservice hlog⟩
  cases a with
  | serve r o =>
    obtain ⟨ok, c, t, hc, hl, hnext⟩ := leads_serve cfg timeout s he.2.sound
    obtain ⟨out, hgoes⟩ := hl.goes
    rw [hnext]
    exact ⟨c, out, .serve he.1 he.2 hc, hgoes.clock, hgoes.log, hgoes.marks⟩
  | watch n o =>
    have hn := List.getElem?_eq_getElem (show n < s.versions.length from he.1)
    obtain ⟨c, hc, hl⟩ := leads_watch cfg timeout s hn
    obtain ⟨out, hgoes⟩ := hl.goes
    exact ⟨c, out, .watch hn he.2 hc, hgoes.clock, hgoes.log, hgoes.marks⟩
  | timer i o =>
    obtain ⟨⟨t, ht, hrun⟩, hf⟩ := he
    obtain ⟨c, hc, hl⟩ := leads_timer cfg timeout s hf.sound ht
    obtain ⟨out, hgoes⟩ := hl.goes
    exact ⟨c, out, .timer ⟨ht, hrun⟩ hf hc, hgoes⟩
  | killInTc tcTimeout o =>
    obtain ⟨c, hc, hl⟩ := leads_killInTc cfg timeout s tcTimeout o
    obtain ⟨out, hgoes⟩ := hl.goes
    rcases hc with rfl | rfl
    · exact ⟨s.clock, out, .outside rfl, hgoes⟩
    · exact ⟨s.clock.get, out, .killInTc he, hgoes⟩
  | reply m =>
    refine houtside rfl ?_ ?_
    · dsimp only [Action.next]
      cases m.event <;> rfl
    · dsimp only [Action.next]
      cases m.event <;> rfl
  | teardown =>
    refine houtside rfl ?_ ?_
    · dsimp only [Action.next]
      cases currentWorkflow s.versions <;> rfl
    · dsimp only [Action.next]
      cases currentWorkflow s.versions <;> rfl
  | _ => exact houtside rfl rfl rfl

/-- The timers of the system are in their slots. -/
def System.Slotted (s : System) : Prop :=
  s.clock.Slotted (s.versions ≠ []) ((currentWorkflow s.versions).isSome = true)

theorem slotted_init : System.Slotted {} := Clock.Slotted.idle (fun _ _ h => nomatch h.1) nofun

theorem slotted_tick {s : System} {a : Action} {c : Clock} (hx : Existing s.view) (h : s.Slotted)
    (ht : s.Ticks cfg a c) : c.Slotted (s.versions ≠ []) ((currentWorkflow s.versions).isSome = true) := by
  cases ht with
  | outside => exact h
  | serve hr hf hl =>
    refine Clock.Slotted.requested h hl (fun hfound => ?_) hf.found.trans fun hcreate i t hrun => ?_
    · exact ne_nil_of_current (hf.found.symm.trans hfound)
    · exact countP_ne_zero hr hcreate (hx.created (h.held i t hrun).1).2
  | watch hn hf hl =>
    refine Clock.Slotted.noted h hl (List.ne_nil_of_mem (List.mem_of_getElem? hn)) fun hd halive => ?_
    subst hd
    exact hx.ended.not_mem halive (List.mem_of_getElem? hn)
  | timer ht hf hl => exact Clock.Slotted.fired h hl hf.found.trans
  | killInTc hf => exact Clock.Slotted.get h

theorem slotted_next (timeout : Bool) {s : System} {a : Action} (hx : Existing s.view) (h : s.Slotted)
    (he : a.Enabled s) : (a.next cfg timeout s).Slotted := by
  obtain ⟨c, out, ht, hg⟩ := ticks_next cfg timeout s a he
  have hstep := view_next cfg timeout s a he
  rw [System.Slotted, hg.clock]
  exact (slotted_tick hx h ht).mono (existed_step hstep) fun hv => alive_step hx hstep hv

end FluxCoral2.Dws
