import FluxCoral2.Library.Machine
import FluxCoral2.Dws.Jobtap

/-! Starting and finishing the epilog.

The plugin starts the epilog at most once in every run (`epilog_started_once`). Three
callbacks finish it, and none of them looks at whether the epilog was started or is
over. `paired_iff_finishes_active`: the epilog is started once and then finished once,
at most, exactly in the runs where these callbacks come while it is active. -/
namespace FluxCoral2.Dws.Jobtap
open Library

variable {timeout : Bool} {j : Job}

/-! ### What each event adds to the calls about the epilog -/

/-- What starting the epilog adds: a start, and a finish when the rest of it fails. -/
def EpilogCalls.added (timeout : Bool) (c : EpilogCalls) : List EpilogCall :=
  if c.reactor && c.calloc then
    if timeout && !c.timer || c.postRun ≠ .ok then [.start, .finish] else [.start]
  else []

theorem EpilogCalls.calls_epilog (runStarted : Bool) (c : EpilogCalls) :
    (c.calls timeout runStarted).filterMap Call.epilog? = c.added timeout := by
  unfold EpilogCalls.calls EpilogCalls.added
  cases c.reactor && c.calloc
  · rfl
  · cases timeout <;> cases c.timer <;> cases c.postRun <;> rfl

/-- The callback finishes the epilog: the response to `dws.post_run` is a failure, the
epilog timeout is raised, or the service asks for it in CLEANUP. -/
def Event.Finishes (j : Job) : Event → Prop
  | .postRunResponse r => r ≠ .success
  | .exception severity type sent => severity = 0 ∧ j.prologActive ≠ some true ∧
      j.epilogActive = true ∧ type = some epilogAbortException ∧ sent = true
  | .epilogRemove malformed => malformed = false ∧ j.state = .cleanup
  | _ => False

instance (j : Job) (e : Event) : Decidable (e.Finishes j) := by
  cases e <;> unfold Event.Finishes <;> infer_instance

def Event.added (timeout : Bool) (j : Job) (e : Event) : List EpilogCall :=
  match e with
  | .finishCb c => if j.epilogActive then [] else c.added timeout
  | .cleanupCb c => if j.startPosted then [] else c.added timeout
  | e => if e.Finishes j then [.finish] else []

theorem Event.added_of_finishes {e : Event} (h : e.Finishes j) : e.added timeout j = [.finish] := by
  cases e <;> exact if_pos h

theorem Event.calls_epilog (e : Event) :
    (e.calls timeout j).filterMap Call.epilog? = e.added timeout j := by
  cases e with
  | depend failureTolerance create => cases create <;> rfl
  | run c =>
    show (if c.malloc then _ else _ : List Call).filterMap _ = []
    cases c.malloc <;> cases c.calloc <;> cases c.lookup <;> rfl
  | fetchR R calloc setup => cases R <;> cases calloc <;> cases setup <;> rfl
  | prologRemove malformed => cases malformed <;> rfl
  | finishCb c =>
    show (if j.epilogActive then [] else c.calls timeout true).filterMap _ = if j.epilogActive then [] else _
    split
    · rfl
    · exact c.calls_epilog true
  | cleanupCb c =>
    show (if j.startPosted then [] else c.calls timeout false).filterMap _ = if j.startPosted then [] else _
    split
    · rfl
    · exact c.calls_epilog false
  | exception severity type sent =>
    by_cases hf : (Event.exception severity type sent).Finishes j
    · rw [added_of_finishes hf]
      obtain ⟨hs, hp, ha, ht, hsent⟩ := hf
      show (if severity = 0 ∧ j.prologActive ≠ some true ∧ j.epilogActive = true ∧ sent = true then _
        else _ : List Call).filterMap _ = _
      rw [if_pos (And.intro hs ⟨hp, ha, hsent⟩), if_pos ht]
      rfl
    · rw [show (Event.exception severity type sent).added timeout j = [] from if_neg hf]
      unfold calls
      dsimp only
      split
      · rename_i h
        rw [if_neg fun ht => hf ⟨h.1, h.2.1, h.2.2.1, ht, h.2.2.2⟩]
        rfl
      · rfl
  | postRunResponse r => cases r <;> rfl
  | epilogRemove malformed =>
    show (if malformed = false ∧ j.state = .cleanup then [Call.epilogFinish 0] else []).filterMap _ =
      if malformed = false ∧ j.state = .cleanup then _ else _
    split <;> rfl
  | _ => rfl

theorem epilogCalls_apply (timeout : Bool) (j : Job) (e : Event) :
    (e.apply timeout j).epilogCalls = j.epilogCalls ++ e.added timeout j := by
  rw [Job.epilogCalls_eq, loud_apply, List.filterMap_append, ← Job.epilogCalls_eq, e.calls_epilog]

theorem finish_apply {e : Event} (h : .finish ∈ j.epilogCalls ∨ e.Finishes j) :
    .finish ∈ (e.apply timeout j).epilogCalls := by
  rw [epilogCalls_apply]
  rcases h with h | h
  · exact List.mem_append_left _ h
  · rw [Event.added_of_finishes h]
    exact List.mem_append_right _ (List.mem_singleton.mpr rfl)

/-! ### What each event does to the rest of the job -/

theorem Job.cleanup_state (j : Job) : j.cleanup.state = .cleanup ∨ j.cleanup.state = .inactive := by
  unfold Job.cleanup
  split
  · rename_i h
    exact .inr h
  · exact .inl rfl

theorem Job.cleanup_state_of_ne {j : Job} (h : j.state ≠ .inactive) : j.cleanup.state = .cleanup := by
  unfold Job.cleanup
  rw [if_neg h]

/-- The job as the job manager updates it for an event; starting the epilog sets the aux
item. Callbacks change the prolog and make calls, nothing else (`kept_apply`). -/
def Event.update (j : Job) : Event → Job
  | .depend _ _ => {j with state := .depend}
  | .run _ => {j with state := .run}
  | .startRequest => {j with startRequested := true}
  | .start => {j with startPosted := true}
  | .finish => {j with finishPosted := true}.cleanup
  | .finishCb c => {j with epilogActive := j.epilogActive || (c.reactor && c.calloc)}
  | .exception severity _ _ => if severity = 0 then j.cleanup else j
  | .cleanupCb c => {j with
      cleaned := true
      epilogActive := j.epilogActive || (!j.startPosted && c.reactor && c.calloc)}
  | .inactive => {j with state := .inactive}
  | _ => j

theorem kept_apply (timeout : Bool) (j : Job) (e : Event) : Kept (e.update j) (e.apply timeout j) := by
  cases e with
  | depend failureTolerance create => exact .dependCb _ failureTolerance create
  | createResponse r => exact .createCb j r
  | run c => exact .runCb _ c
  | fetchR R calloc setup => exact .fetchRCallback j R calloc setup
  | setupResponse r => exact .setupRpcCb j r
  | prologRemove malformed => exact .prologRemoveMsgCb j malformed
  | startRequest => exact .refl _
  | start => exact .refl _
  | finish => exact .refl _
  | finishCb c =>
    show Kept {j with epilogActive := j.epilogActive || (c.reactor && c.calloc)} (finishCb timeout j c)
    unfold finishCb
    cases ha : j.epilogActive with
    | true => exact ⟨rfl, rfl, rfl, rfl, rfl, ha⟩
    | false =>
      have hstart := Kept.startDwsEpilogForJob timeout j true c
      rw [ha] at hstart
      exact hstart
  | exception severity type sent => exact .exceptionCb _ severity type sent
  | cleanupCb c =>
    show Kept {j with
      cleaned := true
      epilogActive := j.epilogActive || (!j.startPosted && c.reactor && c.calloc)}
      (cleanupCb timeout {j with cleaned := true} c)
    unfold cleanupCb
    cases hs : j.startPosted with
    | true => exact ⟨rfl, rfl, rfl, rfl, rfl, by simp⟩
    | false =>
      have hstart := Kept.startDwsEpilogForJob timeout {j with cleaned := true} false c
      rw [hs] at hstart
      exact hstart
  | postRunResponse r => exact .postRunRpcCallback j r
  | epilogRemove malformed => exact .epilogRemoveMsgCb j malformed
  | epilogTimer => exact .epilogTimeoutCb j
  | inactive => exact .refl _

/-- What becomes of the aux item of the prolog. -/
def Event.prolog (j : Job) : Event → Option Bool
  | .run c => if c.malloc then some true else j.prologActive
  | .prologRemove false => j.prologActive.map fun _ => false
  | .exception severity _ _ => if severity = 0 ∧ j.prologActive = some true then some false else j.prologActive
  | _ => j.prologActive

theorem dwsPrologFinish_prologActive (j : Job) (success : Bool) :
    (dwsPrologFinish j success).prologActive =
      if success then j.prologActive.map fun _ => false else j.prologActive := by
  unfold dwsPrologFinish
  cases success <;> rcases hp : j.prologActive with _ | _ | _ <;> simp [hp, raiseJobException, Job.call]

theorem Job.send_prologActive (j : Job) (r : Rpc) (s : Sent) : (j.send r s).prologActive = j.prologActive := by
  cases s <;> rfl

theorem startDwsEpilogForJob_prologActive (timeout : Bool) (j : Job) (runStarted : Bool) (c : EpilogCalls) :
    (startDwsEpilogForJob timeout j runStarted c).prologActive = j.prologActive := by
  unfold startDwsEpilogForJob
  cases c.reactor <;> cases c.calloc <;> cases timeout <;> cases c.timer <;> cases c.postRun <;> rfl

theorem prologActive_apply (timeout : Bool) (j : Job) (e : Event) :
    (e.apply timeout j).prologActive = e.prolog j := by
  cases e with
  | depend failureTolerance create =>
    cases create <;> rfl
  | createResponse r =>
    cases r <;> rfl
  | run c =>
    show (runCb {j with state := .run} c).prologActive = if c.malloc then some true else j.prologActive
    unfold runCb
    cases c.malloc <;> cases c.calloc <;> cases c.lookup <;> rfl
  | fetchR R calloc setup =>
    show (fetchRCallback j R calloc setup).prologActive = j.prologActive
    unfold fetchRCallback
    cases R <;> cases calloc <;> cases setup <;>
      simp [dwsPrologFinish_prologActive, Job.send_prologActive]
  | setupResponse r =>
    show (setupRpcCb j r).prologActive = j.prologActive
    unfold setupRpcCb
    cases r <;> simp [dwsPrologFinish_prologActive]
  | prologRemove malformed =>
    cases malformed with
    | true => rfl
    | false => exact dwsPrologFinish_prologActive _ true
  | finish =>
    exact Job.cleanup_prologActive _
  | finishCb c =>
    show (finishCb timeout j c).prologActive = j.prologActive
    unfold finishCb
    split
    · rfl
    · exact startDwsEpilogForJob_prologActive timeout j true c
  | exception severity type sent =>
    show (exceptionCb (if severity = 0 then j.cleanup else j) severity type sent).prologActive =
      if severity = 0 ∧ j.prologActive = some true then some false else j.prologActive
    unfold exceptionCb
    by_cases hs : severity = 0
    · rw [if_pos hs, if_neg (not_not_intro hs), j.cleanup_prologActive]
      by_cases hp : j.prologActive = some true
      · rw [if_pos hp, if_pos (And.intro hs hp)]
      · have hno : ¬ (severity = 0 ∧ j.prologActive = some true) := fun h => hp h.2
        rw [if_neg hp, if_neg hno]
        by_cases ha : j.cleanup.epilogActive = true <;> by_cases ht : type = some epilogAbortException <;>
          cases sent <;> simp [ha, ht, Job.call, j.cleanup_prologActive]
    · rw [if_pos hs, if_neg hs, if_neg fun h => hs h.1]
  | cleanupCb c =>
    show (cleanupCb timeout {j with cleaned := true} c).prologActive = j.prologActive
    unfold cleanupCb
    split
    · exact startDwsEpilogForJob_prologActive timeout _ false c
    · rfl
  | postRunResponse r => cases r <;> rfl
  | epilogRemove malformed =>
    show (epilogRemoveMsgCb j malformed).prologActive = j.prologActive
    unfold epilogRemoveMsgCb
    split
    · rfl
    split <;> rfl
  | epilogTimer =>
    show (epilogTimeoutCb j).prologActive = j.prologActive
    unfold epilogTimeoutCb
    split <;> rfl
  | startRequest => rfl
  | start => rfl
  | inactive => rfl

theorem active_apply {e : Event} (ha : j.epilogActive = true) : (e.apply timeout j).epilogActive = true := by
  rw [(kept_apply timeout j e).epilogActive]
  cases e with
  | finishCb c => simp [Event.update, ha]
  | cleanupCb c => simp [Event.update, ha]
  | finish => exact (Job.cleanup_epilogActive _).trans ha
  | exception severity type sent =>
    dsimp only [Event.update]
    split
    · exact j.cleanup_epilogActive.trans ha
    · exact ha
  | _ => exact ha

/-- The service is told that the job has run when the epilog is started. -/
theorem active_of_postRun {e : Event} {runStarted : Bool} (h : .rpc (.postRun runStarted) ∈ e.calls timeout j) :
    (e.apply timeout j).epilogActive = true := by
  rw [(kept_apply timeout j e).epilogActive]
  cases runStarted with
  | true =>
    obtain ⟨c, rfl, hc, -⟩ := Event.sentBy j h
    simp [Event.update, hc]
  | false =>
    obtain ⟨c, rfl, hc, hs⟩ := Event.sentBy j h
    simp [Event.update, hs, Bool.and_eq_true_iff.mp hc]

/-! ### The epilog is started once -/

/-- The aux item says whether the epilog was started; it is started for a job that has
been cleaned up or has a start event. -/
structure StartedOnce (j : Job) : Prop where
  starts : j.epilogCalls.count .start = if j.epilogActive then 1 else 0
  cause : j.epilogActive = true → j.cleaned = true ∨ j.startPosted = true
  finished : j.finishPosted = true → j.startPosted = true

theorem EpilogCalls.count_added (c : EpilogCalls) :
    (c.added timeout).count .start = if c.reactor && c.calloc then 1 else 0 := by
  unfold EpilogCalls.added
  cases c.reactor && c.calloc
  · rfl
  · cases timeout <;> cases c.timer <;> cases c.postRun <;> rfl

theorem Event.added_of_not_finishes {e : Event} (hf : ¬ e.Finishes j) (h : ∀ c, e ≠ .finishCb c)
    (h' : ∀ c, e ≠ .cleanupCb c) : e.added timeout j = [] := by
  cases e with
  | finishCb c => exact absurd rfl (h c)
  | cleanupCb c => exact absurd rfl (h' c)
  | _ => exact if_neg (t := [EpilogCall.finish]) hf

theorem Event.count_added {e : Event} (h : ∀ c, e ≠ .finishCb c) (h' : ∀ c, e ≠ .cleanupCb c) :
    (e.added timeout j).count .start = 0 := by
  by_cases hf : e.Finishes j
  · rw [added_of_finishes hf]
    rfl
  · rw [added_of_not_finishes hf h h']
    rfl

/-- A callback that leaves the aux item and the relevant events alone. -/
theorem StartedOnce.of_kept {j₀ j' : Job} (h : StartedOnce j) (hk : Kept j₀ j')
    (hcalls : j'.epilogCalls.count .start = j.epilogCalls.count .start)
    (ha : j₀.epilogActive = j.epilogActive) (hc : j₀.cleaned = j.cleaned)
    (hs : j.startPosted = true → j₀.startPosted = true)
    (hf : j₀.finishPosted = true → j₀.startPosted = true) : StartedOnce j' := by
  refine ⟨?_, fun hactive => ?_, fun hfinish => ?_⟩
  · rw [hcalls, hk.epilogActive, ha]
    exact h.starts
  · rw [hk.cleaned, hc, hk.startPosted]
    rw [hk.epilogActive, ha] at hactive
    exact (h.cause hactive).imp_right hs
  · rw [hk.startPosted]
    rw [hk.finishPosted] at hfinish
    exact hf hfinish

theorem Job.cleanup_posted (j : Job) : j.cleanup.startPosted = j.startPosted ∧
    j.cleanup.finishPosted = j.finishPosted ∧ j.cleanup.cleaned = j.cleaned := by
  unfold Job.cleanup
  split <;> exact ⟨rfl, rfl, rfl⟩

theorem startedOnce_apply (timeout : Bool) (j : Job) (e : Event) (h : StartedOnce j)
    (he : e.isMessage = false → e.Enabled j) : StartedOnce (e.apply timeout j) := by
  have hk := kept_apply timeout j e
  have hcalls := epilogCalls_apply timeout j e
  have hcount : (e.apply timeout j).epilogCalls.count .start =
      j.epilogCalls.count .start + (e.added timeout j).count .start := by
    rw [hcalls, List.count_append]
  cases e with
  | finishCb c =>
    have hstart := h.finished (he rfl).1
    refine ⟨?_, fun _ => .inr (hk.startPosted.trans hstart), fun _ => hk.startPosted.trans hstart⟩
    rw [hcount, hk.epilogActive, h.starts]
    unfold Event.added Event.update
    cases j.epilogActive with
    | true => rfl
    | false => simpa using c.count_added
  | cleanupCb c =>
    refine ⟨?_, fun _ => .inl hk.cleaned, fun hf => ?_⟩
    · rw [hcount, hk.epilogActive, h.starts]
      unfold Event.added Event.update
      cases hs : j.startPosted with
      | true => simp
      | false =>
        have hinactive : j.epilogActive = false := by
          rw [← Bool.not_eq_true]
          intro hactive
          rcases h.cause hactive with hc | hc
          · rw [(he rfl).2] at hc
            cases hc
          · rw [hs] at hc
            cases hc
        simpa [hinactive] using c.count_added
    · rw [hk.startPosted]
      exact h.finished (hk.finishPosted ▸ hf)
  | exception severity type sent =>
    rw [Event.count_added (fun _ => by simp) (fun _ => by simp), Nat.add_zero] at hcount
    dsimp only [Event.update] at hk
    split at hk
    · obtain ⟨hs, hf, hc⟩ := j.cleanup_posted
      exact h.of_kept hk hcount j.cleanup_epilogActive hc (fun h' => hs.trans h') fun h' => by
        rw [hs]
        exact h.finished (hf ▸ h')
    · exact h.of_kept hk hcount rfl rfl id h.finished
  | finish =>
    rw [Event.count_added (fun _ => by simp) (fun _ => by simp), Nat.add_zero] at hcount
    obtain ⟨hs, _, hc⟩ := {j with finishPosted := true}.cleanup_posted
    exact h.of_kept hk hcount (Job.cleanup_epilogActive _) hc (fun h' => hs.trans h') fun _ =>
      hs.trans (he rfl).1
  | start =>
    rw [Event.count_added (fun _ => by simp) (fun _ => by simp), Nat.add_zero] at hcount
    exact h.of_kept hk hcount rfl rfl (fun _ => rfl) fun _ => rfl
  | _ =>
    rw [Event.count_added (fun _ => by simp) (fun _ => by simp), Nat.add_zero] at hcount
    exact h.of_kept hk hcount rfl rfl id h.finished

/-! ### The plugin as a machine -/

def jobtapMachine (timeout : Bool) : Machine Job Event := ⟨{}, Event.Enabled, Event.apply timeout⟩

/-- At most one start, and at most one finish, after it. -/
def Job.Paired (j : Job) : Prop := j.epilogCalls <+: [.start, .finish]

/-- A callback that finishes the epilog comes when it has been started and not finished. -/
def FinishesActive (j : Job) (e : Event) : Prop := e.Finishes j → j.epilogCalls = [.start]

theorem startedOnce_init : StartedOnce {} := ⟨rfl, fun h => (by cases h), fun h => (by cases h)⟩

theorem epilog_started_once (timeout : Bool) (events : List Event)
    (hp : (jobtapMachine timeout).Possible (jobtapMachine timeout).init events) :
    ((jobtapMachine timeout).run (jobtapMachine timeout).init events).epilogCalls.count .start ≤ 1 := by
  have hinv := Machine.invariant StartedOnce startedOnce_init
    (fun j e h he _ => startedOnce_apply timeout j e h fun _ => he) hp
  rw [hinv.starts]
  split <;> omega

theorem prefix_append_finish {l : List EpilogCall} :
    l ++ [.finish] <+: [.start, .finish] ↔ l = [.start] := by
  refine ⟨fun h => ?_, fun h => by rw [h]; exact List.prefix_rfl⟩
  have hlen := h.length_le
  rw [List.length_append] at hlen
  match l, h, hlen with
  | [], h, _ => exact absurd h (by decide)
  | [x], ⟨t, ht⟩, _ => rw [(List.cons.inj ht).1]
  | _ :: _ :: _, _, hlen => simp at hlen

/-- A prefix of start and finish without a start is empty. -/
theorem eq_nil_of_prefix {l : List EpilogCall} (h : l <+: [.start, .finish]) (hn : l.count .start = 0) :
    l = [] := by
  match l, h with
  | [], _ => rfl
  | x :: _, ⟨t, ht⟩ =>
    rw [(List.cons.inj ht).1] at hn
    simp at hn

theorem EpilogCalls.added_prefix (c : EpilogCalls) : c.added timeout <+: [.start, .finish] := by
  unfold EpilogCalls.added
  cases c.reactor && c.calloc
  · exact List.nil_prefix
  · cases timeout <;> cases c.timer <;> cases c.postRun <;> decide

theorem paired_apply_iff (timeout : Bool) (j : Job) (e : Event) (h : StartedOnce j) (hp : j.Paired)
    (he : e.Enabled j) : (e.apply timeout j).Paired ↔ FinishesActive j e := by
  unfold Job.Paired
  rw [epilogCalls_apply]
  by_cases hf : e.Finishes j
  · rw [Event.added_of_finishes hf, prefix_append_finish]
    exact ⟨fun h' _ => h', fun h' => h' hf⟩
  · refine ⟨fun _ h' => absurd h' hf, fun _ => ?_⟩
    have hsame : ∀ l : List EpilogCall, l = [] → j.epilogCalls ++ l <+: [.start, .finish] := by
      intro l hl
      rw [hl, List.append_nil]
      exact hp
    have hfresh : j.epilogActive = false → j.epilogCalls = [] := fun ha =>
      eq_nil_of_prefix hp (by rw [h.starts, ha]; rfl)
    cases e with
    | finishCb c =>
      unfold Event.added
      cases ha : j.epilogActive with
      | true => exact hsame _ rfl
      | false => simpa [hfresh ha] using c.added_prefix
    | cleanupCb c =>
      unfold Event.added
      cases hs : j.startPosted with
      | true => exact hsame _ rfl
      | false =>
        have ha : j.epilogActive = false := by
          rw [← Bool.not_eq_true]
          intro hactive
          rcases h.cause hactive with hc | hc
          · rw [he.2] at hc
            cases hc
          · rw [hs] at hc
            cases hc
        simpa [hfresh ha] using c.added_prefix
    | _ => exact hsame _ (Event.added_of_not_finishes hf (fun _ => by simp) (fun _ => by simp))

/-- **The epilog is started once and then finished once**, at most, in every state of a
run exactly when every callback of the run that finishes it comes while it is active. -/
theorem paired_iff_finishes_active (timeout : Bool) (events : List Event)
    (hp : (jobtapMachine timeout).Possible (jobtapMachine timeout).init events) :
    (jobtapMachine timeout).Always Job.Paired (jobtapMachine timeout).init events ↔
      (jobtapMachine timeout).Legal FinishesActive (jobtapMachine timeout).init events := by
  exact Machine.always_iff_legal StartedOnce (fun j e h he _ => startedOnce_apply timeout j e h fun _ => he)
    (fun j e h hpaired he => paired_apply_iff timeout j e h hpaired he) startedOnce_init List.nil_prefix hp

/-- A job on two nodes up to the start of its tasks. -/
def started : List Event :=
  [.depend 0 .ok, .createResponse .success, .run {}, .fetchR (some ["node1", "node2"]) true .ok,
    .setupResponse .success, .prologRemove false, .startRequest, .start]

/-- The service tears down the workflow of a running job, and its request to remove the
epilog comes before the tasks have finished. -/
def removedBeforeFinish : List Event :=
  started ++ [.exception 0 (some "exception") true, .cleanupCb {}, .epilogRemove false]

instance (j : Job) (e : Event) : Decidable (e.Enabled j) := by
  cases e <;> unfold Event.Enabled <;> infer_instance

instance (j : Job) : Decidable j.Paired := inferInstanceAs (Decidable (_ <+: _))

instance (j : Job) (e : Event) : Decidable (FinishesActive j e) := inferInstanceAs (Decidable (_ → _))

instance (timeout : Bool) (j : Job) (e : Event) : Decidable ((jobtapMachine timeout).enabled j e) :=
  inferInstanceAs (Decidable (e.Enabled j))

theorem removedBeforeFinish_not_paired :
    (jobtapMachine false).Possible (jobtapMachine false).init removedBeforeFinish ∧
      ¬ (jobtapMachine false).Always Job.Paired (jobtapMachine false).init removedBeforeFinish := by
  decide

/-- The tasks finish, the service is told, and it asks to remove the epilog. -/
def removedAfterFinish : List Event :=
  started ++ [.finish, .finishCb {}, .finishCb {}, .cleanupCb {}, .postRunResponse .success, .epilogRemove false]

theorem removedAfterFinish_paired : (jobtapMachine false).Always Job.Paired (jobtapMachine false).init
    removedAfterFinish :=
  (paired_iff_finishes_active false removedAfterFinish (by decide)).mpr (by decide)

end FluxCoral2.Dws.Jobtap
