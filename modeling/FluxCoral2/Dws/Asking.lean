import Mathlib.Data.List.Count
import FluxCoral2.Dws.View

/-! What the plugin asks of the service, and when.

Each request is sent once at most; the end of the tasks is reported after their start,
and they start when the service has released the prolog. `Asking` says so of a view; it
is kept by every event of the job (`Asking.event`) and by whatever the service does
(`Asking.mono`). -/
namespace FluxCoral2.Dws
open Library Jobtap

/-- A request that was sent once is in flight no more when it is served. -/
theorem countP_erase_eq_zero {p : Rpc → Bool} {r : Rpc} {rpcs : List Rpc} (hr : r ∈ rpcs) (hp : p r = true)
    (h : rpcs.countP p ≤ 1) : (rpcs.erase r).countP p = 0 := by
  rw [List.countP_erase, if_pos ⟨hr, hp⟩]
  omega

theorem countP_eq_zero_of_sublist {p : Rpc → Bool} {rpcs rpcs' : List Rpc} (hr : rpcs'.Sublist rpcs)
    (h : rpcs.countP p = 0) : rpcs'.countP p = 0 :=
  Nat.le_zero.mp (h ▸ hr.countP_le)

/-- Before a request is served, nothing has been done that comes of serving it. -/
theorem countP_ne_zero {p : Rpc → Bool} {r : Rpc} {rpcs : List Rpc} (hr : r ∈ rpcs) (hp : p r = true) :
    rpcs.countP p ≠ 0 :=
  Nat.ne_of_gt (List.countP_pos_iff.mpr ⟨r, hr, hp⟩)

/-- The requests in flight, and what stands for those that were sent. -/
structure Asking (v : View) : Prop where
  once : StartedOnce v.job
  new : v.job.state = .new → v.rpcs.countP Rpc.isCreate = 0
  creates : v.rpcs.countP Rpc.isCreate ≤ 1
  setups : v.rpcs.countP Rpc.isSetup ≤ 1
  unlooked : v.looked = false → v.rpcs.countP Rpc.isSetup = 0
  postRuns : v.rpcs.countP Rpc.isPostRun ≤ 1
  inactive : v.job.epilogActive = false → v.rpcs.countP Rpc.isPostRun = 0
  early : v.job.state = .new ∨ v.job.state = .depend → v.job.prologActive = none
  requested : v.job.startPosted = true → v.job.startRequested = true
  told : .postRun true ∈ v.rpcs → v.job.finishPosted = true
  prologs : .prolog ∈ v.removes → .prologRemove ∈ v.ledger.marks
  released : v.job.startRequested = true ∨ v.job.state = .run ∧ v.job.prologActive = some false →
    .prologRemove ∈ v.ledger.marks

theorem asking_init : Asking (System.view {}) :=
  ⟨startedOnce_init, fun _ => rfl, by decide, by decide, fun _ => rfl, by decide, fun _ => rfl, fun _ => rfl,
    nofun, nofun, nofun, fun h => h.elim nofun fun h => nomatch h.1⟩

/-- The service takes requests out of flight, and logs more. -/
theorem Asking.mono {v v' : View} (h : Asking v) (hjob : v'.job = v.job) (hlooked : v'.looked = v.looked)
    (hrpcs : v'.rpcs.Sublist v.rpcs)
    (hmarks : .prologRemove ∈ v.ledger.marks → .prologRemove ∈ v'.ledger.marks)
    (hremoves : .prolog ∈ v'.removes → .prolog ∈ v.removes ∨ .prologRemove ∈ v'.ledger.marks) : Asking v' := by
  have hzero {p : Rpc → Bool} (hp : v.rpcs.countP p = 0) : v'.rpcs.countP p = 0 := countP_eq_zero_of_sublist hrpcs hp
  have hone {p : Rpc → Bool} (hp : v.rpcs.countP p ≤ 1) : v'.rpcs.countP p ≤ 1 :=
    Nat.le_trans hrpcs.countP_le hp
  refine ⟨hjob ▸ h.once, fun hs => hzero (h.new (hjob ▸ hs)), hone h.creates, hone h.setups,
    fun hl => hzero (h.unlooked (hlooked ▸ hl)), hone h.postRuns, fun ha => hzero (h.inactive (hjob ▸ ha)),
    hjob ▸ h.early, hjob ▸ h.requested, fun hp => hjob ▸ h.told (hrpcs.mem hp),
    fun hp => (hremoves hp).elim (fun hp => hmarks (h.prologs hp)) id, fun hs => hmarks (h.released (hjob ▸ hs))⟩

/-! ### Events of the job -/

section Event
variable {timeout : Bool} {j : Job} {e : Event}

/-- An event that leaves the job before CLEANUP is the one that takes it there, or leaves it where it is. -/
theorem state_apply_cases (timeout : Bool) (j : Job) (e : Event) :
    (∃ f c, e = .depend f c) ∧ (e.apply timeout j).state = .depend ∨
    (∃ c, e = .run c) ∧ (e.apply timeout j).state = .run ∨
    ((e.apply timeout j).state = .cleanup ∨ (e.apply timeout j).state = .inactive) ∨
    (e.apply timeout j).state = j.state ∧ (∀ f c, e ≠ .depend f c) ∧ ∀ c, e ≠ .run c := by
  rw [(kept_apply timeout j e).state]
  cases e with
  | depend f c => exact .inl ⟨⟨f, c, rfl⟩, rfl⟩
  | run c => exact .inr (.inl ⟨⟨c, rfl⟩, rfl⟩)
  | inactive => exact .inr (.inr (.inl (.inr rfl)))
  | finish => exact .inr (.inr (.inl (Job.cleanup_state _)))
  | exception severity type sent =>
    dsimp only [Event.update]
    split
    · exact .inr (.inr (.inl (Job.cleanup_state j)))
    · exact .inr (.inr (.inr ⟨rfl, nofun, nofun⟩))
  | _ => exact .inr (.inr (.inr ⟨rfl, nofun, nofun⟩))

theorem prologActive_none (h : j.prologActive = none) (he : ∀ c, e ≠ .run c) :
    (e.apply timeout j).prologActive = none := by
  rw [prologActive_apply]
  cases e with
  | run c => exact absurd rfl (he c)
  | prologRemove malformed => cases malformed <;> simp [Event.prolog, h]
  | exception severity type sent => simp [Event.prolog, h]
  | _ => exact h

theorem length_calls_rpc (timeout runStarted : Bool) (c : EpilogCalls) :
    ((c.calls timeout runStarted).filterMap Call.rpc?).length ≤ 1 := by
  unfold EpilogCalls.calls
  cases c.reactor && c.calloc with
  | false => exact Nat.zero_le 1
  | true => cases timeout <;> cases c.timer <;> cases c.postRun <;> simp [Call.rpc?, List.filterMap_cons]

/-- An event sends one request at most. -/
theorem length_sent (timeout : Bool) (j : Job) (e : Event) :
    ((e.calls timeout j).filterMap Call.rpc?).length ≤ 1 := by
  cases e with
  | depend failureTolerance create => cases create <;> simp [Event.calls, Call.rpc?, List.filterMap_cons]
  | run c =>
    cases hm : c.malloc <;> cases hc : c.calloc <;> cases hl : c.lookup <;>
      simp [Event.calls, Call.rpc?, List.filterMap_cons, hm, hc, hl]
  | fetchR R calloc setup =>
    cases R <;> cases calloc <;> cases setup <;> simp [Event.calls, Call.rpc?]
  | prologRemove malformed => cases malformed <;> exact Nat.zero_le 1
  | finishCb c =>
    dsimp only [Event.calls]
    split
    · exact Nat.zero_le 1
    · exact length_calls_rpc timeout true c
  | cleanupCb c =>
    dsimp only [Event.calls]
    split
    · exact Nat.zero_le 1
    · exact length_calls_rpc timeout false c
  | exception severity type sent =>
    dsimp only [Event.calls]
    split
    · split <;> simp [Call.rpc?, List.filterMap_cons]
    · exact Nat.zero_le 1
  | postRunResponse r =>
    dsimp only [Event.calls]
    split <;> simp [Call.rpc?, List.filterMap_cons]
  | epilogRemove malformed =>
    dsimp only [Event.calls]
    split <;> simp [Call.rpc?, List.filterMap_cons]
  | _ => exact Nat.zero_le 1

variable {p : Rpc → Bool} {rpcs : List Rpc}

/-- Requests of a kind that the event does not send. -/
theorem countP_sent_eq_zero (h : rpcs.countP p = 0) (hno : ∀ r, p r = true → .rpc r ∉ e.calls timeout j) :
    (rpcs ++ (e.calls timeout j).filterMap Call.rpc?).countP p = 0 := by
  rw [List.countP_append, h, Nat.zero_add, List.countP_eq_zero]
  exact fun r hr hp => hno r hp (mem_rpcs.mp hr)

/-- Requests of a kind that the event sends only when there are none. -/
theorem countP_sent_le_one (h : rpcs.countP p ≤ 1)
    (hnone : ∀ r, p r = true → .rpc r ∈ e.calls timeout j → rpcs.countP p = 0) :
    (rpcs ++ (e.calls timeout j).filterMap Call.rpc?).countP p ≤ 1 := by
  rw [List.countP_append]
  by_cases hpos : 0 < ((e.calls timeout j).filterMap Call.rpc?).countP p
  · obtain ⟨r, hr, hp⟩ := List.countP_pos_iff.mp hpos
    rw [hnone r hp (mem_rpcs.mp hr), Nat.zero_add]
    exact Nat.le_trans List.countP_le_length (length_sent timeout j e)
  · omega

theorem finishPosted_apply (h : j.finishPosted = true) : (e.apply timeout j).finishPosted = true := by
  rw [(kept_apply timeout j e).finishPosted]
  cases e with
  | finish => exact (Job.cleanup_posted _).2.1
  | exception severity type sent =>
    dsimp only [Event.update]
    split
    · exact j.cleanup_posted.2.1.trans h
    · exact h
  | _ => exact h

theorem startPosted_cases (h : (e.apply timeout j).startPosted = true) : j.startPosted = true ∨ e = .start := by
  rw [(kept_apply timeout j e).startPosted] at h
  cases e with
  | start => exact .inr rfl
  | finish => exact .inl ((Job.cleanup_posted {j with finishPosted := true}).1.symm.trans h)
  | exception severity type sent =>
    dsimp only [Event.update] at h
    split at h
    · exact .inl (j.cleanup_posted.1.symm.trans h)
    · exact .inl h
  | _ => exact .inl h

theorem cleanup_startRequested (j : Job) : j.cleanup.startRequested = j.startRequested := by
  unfold Job.cleanup
  split <;> rfl

theorem startRequested_apply (timeout : Bool) (j : Job) (e : Event) :
    (e.apply timeout j).startRequested = true ↔ j.startRequested = true ∨ e = .startRequest := by
  rw [(kept_apply timeout j e).startRequested]
  cases e with
  | startRequest => exact ⟨fun _ => .inr rfl, fun _ => rfl⟩
  | finish =>
    rw [show (Event.finish.update j).startRequested = j.startRequested from cleanup_startRequested _]
    simp
  | exception severity type sent =>
    dsimp only [Event.update]
    split
    · rw [cleanup_startRequested]
      simp
    · simp
  | _ => exact ⟨.inl, fun h => h.elim id nofun⟩

/-- In RUN the prolog is over after an event when it was over before, or by a request of the service. -/
theorem prolog_over_cases (hearly : j.state = .new ∨ j.state = .depend → j.prologActive = none)
    (he : e.isMessage = false → e.Enabled j) (hs : (e.apply timeout j).state = .run)
    (hp : (e.apply timeout j).prologActive = some false) :
    e = .prologRemove false ∨ j.state = .run ∧ j.prologActive = some false := by
  rw [prologActive_apply] at hp
  rcases state_apply_cases timeout j e with ⟨-, hc⟩ | ⟨⟨c, rfl⟩, -⟩ | hc | ⟨hc, -, hrun⟩
  · exact absurd (hs.symm.trans hc) (by decide)
  · have hnone := hearly (.inr (he rfl))
    unfold Event.prolog at hp
    cases hm : c.malloc <;> simp [hm, hnone] at hp
  · rcases hc with hc | hc <;> exact absurd (hs.symm.trans hc) (by decide)
  · have hstate := hc.symm.trans hs
    cases e with
    | run c => exact absurd rfl (hrun c)
    | prologRemove malformed =>
      cases malformed with
      | true => exact .inr ⟨hstate, hp⟩
      | false => exact .inl rfl
    | exception severity type sent =>
      dsimp only [Event.prolog] at hp
      split at hp
      · rename_i h
        rw [(kept_apply timeout j _).state] at hs
        dsimp only [Event.update] at hs
        rw [if_pos h.1] at hs
        rcases j.cleanup_state with hc | hc <;> exact absurd (hs.symm.trans hc) (by decide)
      · exact .inr ⟨hstate, hp⟩
    | _ => exact .inr ⟨hstate, hp⟩

/-- The end of the tasks is reported when the epilog is started. -/
theorem inactive_of_postRun (h : StartedOnce j) (he : e.isMessage = false → e.Enabled j) {b : Bool}
    (hc : .rpc (.postRun b) ∈ e.calls timeout j) : j.epilogActive = false := by
  cases b with
  | true =>
    obtain ⟨c, -, -, ha⟩ := Event.sentBy j hc
    exact ha
  | false =>
    obtain ⟨c, rfl, -, hs⟩ := Event.sentBy j hc
    rw [← Bool.not_eq_true]
    intro ha
    rcases h.cause ha with hcause | hcause
    · exact absurd (hcause.symm.trans (he rfl).2) (by decide)
    · exact absurd (hcause.symm.trans hs) (by decide)

/-- Without a lookup no setup request is sent. -/
theorem countP_setups_sent (h : rpcs.countP Rpc.isSetup = 0) (hfetch : ∀ R c s, e ≠ .fetchR R c s) :
    (rpcs ++ (e.calls timeout j).filterMap Call.rpc?).countP Rpc.isSetup = 0 := by
  refine countP_sent_eq_zero h fun r hr hc => ?_
  cases r with
  | setup nodelist =>
    obtain ⟨calloc, sent, rfl⟩ := Event.sentBy j hc
    exact hfetch _ _ _ rfl
  | _ => cases hr

/-- Once the epilog is started, the end of the tasks is not reported any more. -/
theorem countP_postRuns_sent (h : rpcs.countP Rpc.isPostRun = 0) (ho : StartedOnce j)
    (he : e.isMessage = false → e.Enabled j) (hactive : j.epilogActive = true) :
    (rpcs ++ (e.calls timeout j).filterMap Call.rpc?).countP Rpc.isPostRun = 0 := by
  refine countP_sent_eq_zero h fun r hr hc => ?_
  cases r with
  | postRun b => exact absurd (hactive.symm.trans (inactive_of_postRun ho he hc)) (by decide)
  | _ => cases hr

theorem ne_new_apply (timeout : Bool) (e : Event) (h : j.state ≠ .new) : (e.apply timeout j).state ≠ .new := by
  rcases state_apply_cases timeout j e with ⟨-, hc⟩ | ⟨-, hc⟩ | (hc | hc) | ⟨hc, -, -⟩ <;> rw [hc]
  · decide
  · decide
  · decide
  · decide
  · exact h

/-- Only a new job asks for its workflow. -/
theorem uncreated_apply {rpcs : List Rpc} (he : e.isMessage = false → e.Enabled j)
    (h : j.state ≠ .new ∧ rpcs.countP Rpc.isCreate = 0) : (e.apply timeout j).state ≠ .new ∧
      (rpcs ++ (e.calls timeout j).filterMap Call.rpc?).countP Rpc.isCreate = 0 := by
  refine ⟨ne_new_apply timeout e h.1, countP_sent_eq_zero h.2 fun r hr hc => ?_⟩
  cases r with
  | create failureTolerance =>
    obtain ⟨sent, rfl⟩ := Event.sentBy j hc
    exact h.1 (he rfl)
  | _ => cases hr

variable {v : View}

theorem Asking.event (h : Asking v) (he : e.isMessage = false → e.Enabled v.job) {removes : List Remove}
    {replies : List Reply} {looked : Bool} (hlooked : v.looked = true → looked = true)
    (hfetch : ∀ R c s, e = .fetchR R c s → v.looked = false ∧ looked = true)
    (hremoves : .prolog ∈ removes → .prolog ∈ v.removes)
    (hprolog : e = .prologRemove false → .prologRemove ∈ v.ledger.marks) :
    Asking (View.event timeout {v with removes := removes, replies := replies, looked := looked} e) := by
  have hsent {r : Rpc} (hc : .rpc r ∈ e.calls timeout v.job) := Event.sentBy v.job hc
  refine ⟨startedOnce_apply timeout v.job e h.once he, fun hs => ?_,
    countP_sent_le_one h.creates fun r hr hc => ?_, countP_sent_le_one h.setups fun r hr hc => ?_, fun hl => ?_,
    countP_sent_le_one h.postRuns fun r hr hc => ?_, fun ha => ?_, fun hs => ?_, fun hs => ?_,
    fun hb => ?_, fun hr => h.prologs (hremoves hr), fun hs => ?_⟩
  · rcases state_apply_cases timeout v.job e with ⟨-, hc⟩ | ⟨-, hc⟩ | hc | ⟨hc, hdepend, -⟩
    · exact absurd (hs.symm.trans hc) (by decide)
    · exact absurd (hs.symm.trans hc) (by decide)
    · rcases hc with hc | hc <;> exact absurd (hs.symm.trans hc) (by decide)
    · refine countP_sent_eq_zero (h.new (hc.symm.trans hs)) fun r hr hcall => ?_
      cases r with
      | create failureTolerance =>
        obtain ⟨sent, rfl⟩ := hsent hcall
        exact hdepend _ _ rfl
      | _ => cases hr
  · cases r with
    | create failureTolerance =>
      obtain ⟨sent, rfl⟩ := hsent hc
      exact h.new (he rfl)
    | _ => cases hr
  · cases r with
    | setup nodelist =>
      obtain ⟨calloc, sent, rfl⟩ := hsent hc
      exact h.unlooked (hfetch _ _ _ rfl).1
    | _ => cases hr
  · have hold : v.looked = false := by
      rw [← Bool.not_eq_true]
      exact fun h => absurd ((hlooked h).symm.trans hl) (by decide)
    exact countP_setups_sent (h.unlooked hold) fun R c s he => absurd ((hfetch R c s he).2.symm.trans hl) (by decide)
  · cases r with
    | postRun b => exact h.inactive (inactive_of_postRun h.once he hc)
    | _ => cases hr
  · have hold : v.job.epilogActive = false := by
      rw [← Bool.not_eq_true]
      exact fun h => absurd ((active_apply h).symm.trans ha) (by decide)
    refine countP_sent_eq_zero (h.inactive hold) fun r hr hc => ?_
    cases r with
    | postRun b => exact absurd ((active_of_postRun hc).symm.trans ha) (by decide)
    | _ => cases hr
  · rcases state_apply_cases timeout v.job e with ⟨⟨f, c, rfl⟩, -⟩ | ⟨-, hc⟩ | hc | ⟨hc, -, hrun⟩
    · exact prologActive_none (h.early (.inl (he rfl))) nofun
    · rcases hs with hs | hs <;> exact absurd (hs.symm.trans hc) (by decide)
    · rcases hs with hs | hs <;> rcases hc with hc | hc <;> exact absurd (hs.symm.trans hc) (by decide)
    · exact prologActive_none (h.early (hs.imp hc.symm.trans hc.symm.trans)) hrun
  · refine (startRequested_apply timeout v.job e).mpr (.inl ?_)
    rcases startPosted_cases hs with hs | rfl
    · exact h.requested hs
    · exact (he rfl).1
  · rcases List.mem_append.mp hb with hb | hb
    · exact finishPosted_apply (h.told hb)
    · obtain ⟨c, rfl, -⟩ := hsent (mem_rpcs.mp hb)
      exact finishPosted_apply (he rfl).1
  · rcases hs with hs | ⟨hs, hp⟩
    · rcases (startRequested_apply timeout v.job e).mp hs with hs | rfl
      · exact h.released (.inl hs)
      · exact h.released (.inr (he rfl))
    · exact (prolog_over_cases h.early he hs hp).elim hprolog fun hold => h.released (.inr hold)

end Event

/-! ### Requests in flight -/

namespace Asking
variable {v : View}

theorem looked_of_setup (h : Asking v) {nodelist : List String} (hr : .setup nodelist ∈ v.rpcs) : v.looked = true := by
  rw [← Bool.not_eq_false]
  exact fun hl => countP_ne_zero hr rfl (h.unlooked hl)

theorem active_of_postRun (h : Asking v) {runStarted : Bool} (hr : .postRun runStarted ∈ v.rpcs) :
    v.job.epilogActive = true := by
  rw [← Bool.not_eq_false]
  exact fun hi => countP_ne_zero hr rfl (h.inactive hi)

/-- The tasks have run when the end of them is reported: the service has released the prolog. -/
theorem prolog_of_postRun (h : Asking v) (hr : .postRun true ∈ v.rpcs) : .prologRemove ∈ v.ledger.marks :=
  h.released (.inl (h.requested (h.once.finished (h.told hr))))

end Asking

/-! ### Steps -/

theorem Asking.absorb {v : View} (h : Asking v) (l : Ledger) : Asking (v.absorb l) := by
  refine h.mono rfl rfl (List.Sublist.refl _) (List.mem_append_left _) fun hp => ?_
  rcases List.mem_append.mp hp with hp | hp
  · exact .inl hp
  · obtain ⟨x, hx, hr⟩ := List.mem_filterMap.mp hp
    refine .inr (List.mem_append_right _ ?_)
    cases x <;> cases hr
    exact hx

/-- The response of the service is not the answer to a lookup, nor a request to remove the prolog. -/
theorem Reply.event_spec {m : Reply} {e : Event} (h : m.event = some e) :
    e.isMessage = true ∧ (∀ R c s, e ≠ .fetchR R c s) ∧ e ≠ .prologRemove false := by
  unfold Reply.event at h
  cases hr : m.rpc <;> rw [hr] at h <;> cases h <;> exact ⟨rfl, nofun, nofun⟩

theorem asking_step {cfg : Config} {timeout : Bool} {v v' : View} {a : Action} (h : Asking v)
    (hs : View.Step cfg timeout v a v') : Asking v' := by
  cases hs with
  | job hm he =>
    refine h.event (fun _ => he) id (fun R c s hf => ?_) id fun hp => ?_
    · subst hf
      cases hm
    · subst hp
      cases hm
  | lookup R calloc setup hl =>
    exact h.event (Event.enabled_of_message rfl) (fun _ => rfl) (fun _ _ _ _ => ⟨hl, rfl⟩) id nofun
  | reply hm he =>
    obtain ⟨hmsg, hfetch, hprolog⟩ := Reply.event_spec he
    exact h.event (Event.enabled_of_message hmsg) id (fun R c s hf => absurd hf (hfetch R c s)) id
      fun hp => absurd hp hprolog
  | unread hm he => exact h.mono rfl rfl (List.Sublist.refl _) id .inl
  | remove hr =>
    rename_i r
    cases r with
    | prolog => exact h.event (Event.enabled_of_message rfl) id nofun List.mem_of_mem_erase fun _ => h.prologs hr
    | epilog => exact h.event (Event.enabled_of_message rfl) id nofun List.mem_of_mem_erase nofun
  | serve hr hf hl =>
    refine Asking.absorb ?_ _
    exact h.mono rfl rfl List.erase_sublist id .inl
  | watch hn hf hl =>
    refine Asking.absorb ?_ _
    exact h.mono rfl rfl (List.Sublist.refl _) id .inl
  | timer href hf hl => exact h.absorb _
  | killInTc hl => exact h.absorb _
  | status hw hd => exact h.mono rfl rfl (List.Sublist.refl _) id .inl
  | teardown hm hw => exact h.mono rfl rfl (List.Sublist.refl _) id .inl
  | vanish hm hw => exact h.mono rfl rfl (List.Sublist.refl _) id .inl

end FluxCoral2.Dws
