import FluxCoral2.Dws.NotedTeardown

/-! Timers that outlive what they guard.

A timer is to do nothing once the service has seen the workflow leave the states that the
timer guards. The timers for one state are stopped with every move of the workflow; that of
`teardown_after` is kept for the garbage collector alone, a WorkflowInfo that is forgotten
leaves its timers running, and `dws.setup` starts one when Teardown has been asked for
already (`stale_misfires`). `stale_silent_iff`: this is all that can go wrong. -/
namespace FluxCoral2.Dws
open Library Jobtap

variable {cfg : Config} {o : Outcomes}

/-! ### Every timer that fires does something -/

/-- What a timer is to do no more: raise an exception, or ask for Teardown. -/
def Out.acts : Out → Bool
  | .jobRaise _ _ => true
  | .teardownWorkflow => true
  | _ => false

/-- A program that does such a thing, if it returns. -/
def Acts {α : Type} (p : Cb α) : Prop :=
  ∀ s, Prog.Ends p s fun r t => r.isOk = true → t.out.any Out.acts = true

/-- A program that takes nothing off the log. -/
def Adds {α : Type} (p : Cb α) : Prop :=
  ∀ s, s.out.any Out.acts = true → Prog.Ends p s fun _ t => t.out.any Out.acts = true

section Programs
variable {α β : Type} {p : Cb α}

theorem adds_emit (x : Out) : Adds (emit x) := by
  intro s h
  show (s.out ++ [x]).any Out.acts = true
  rw [List.any_append, h]
  rfl

theorem adds_attempt (site : Site) : Adds (attempt o site) := by
  intro s h
  rw [attempt]
  split
  · exact .throw h
  · exact .pure h

theorem Adds.bind {f : α → Cb β} (hp : Adds p) (hf : ∀ a, Adds (f a)) : Adds (p >>= f) :=
  fun s h => .bind (hp s h) (fun a t ht => hf a t ht) fun _ _ h => h

theorem adds_patchForceReady (hosts : List String) : Adds (patchWorkflow o (.forceReady hosts)) := by
  refine (adds_emit _).bind fun _ s h => ?_
  split
  · exact .throw h
  · exact adds_attempt .patchWorkflow s h

theorem acts_throw (e : Exn) : Acts (throw e : Cb α) := fun _ => .throw nofun

theorem acts_jobRaise (type : String) (severity : Nat) : Acts (emit (.jobRaise type severity)) := by
  intro s _
  show (s.out ++ [Out.jobRaise type severity]).any Out.acts = true
  simp [Out.acts]

/-- What comes before may do anything. -/
theorem acts_bind {f : α → Cb β} (hf : ∀ a, Acts (f a)) : Acts (p >>= f) :=
  fun _ => .bind (Q := fun _ _ => True) trivial (fun a t _ => hf a t) fun _ _ _ => nofun

theorem Acts.bind {f : α → Cb β} (hp : Acts p) (hf : ∀ a, Adds (f a)) : Acts (p >>= f) :=
  fun s => .bind (hp s) (fun a t ht => (hf a t (ht rfl)).mono fun _ _ h _ => h) fun _ _ _ => nofun

theorem Acts.ite {c : Prop} [Decidable c] {q : Cb α} (hp : Acts p) (hq : Acts q) : Acts (if c then p else q) := by
  split
  · exact hp
  · exact hq

theorem Acts.tryCatch {handle : Exn → Cb α} (hp : Acts p) (hh : ∀ e, Acts (handle e)) :
    Acts (MonadExcept.tryCatch p handle) :=
  fun s => .tryCatch (hp s) (fun _ _ h => h) fun e t _ => hh e t

end Programs

theorem acts_notifyOfNodeFailure (cfg : Config) (o : Outcomes) (ref : Nat) (nodes : List String) :
    Acts (notifyOfNodeFailure cfg o ref nodes) := by
  rw [notifyOfNodeFailure]
  split
  · exact acts_throw _
  · refine acts_bind fun _ => acts_bind fun _ => acts_bind fun _ => .ite ?_ (acts_throw _)
    exact (acts_jobRaise _ _).bind fun _ => adds_patchForceReady _

/-- A failure that is not tolerated is an exception of the job. -/
theorem acts_notify_caught (cfg : Config) (o : Outcomes) (ref : Nat) (nodes : List String) :
    Acts (tryCatch (notifyOfNodeFailure cfg o ref nodes) fun e =>
      if e = .valueError then emit (.jobRaise "dws-timeout" 0) else throw e : Cb Unit) :=
  (acts_notifyOfNodeFailure cfg o ref nodes).tryCatch fun e => .ite (acts_jobRaise _ _) (acts_throw e)

theorem acts_callback (t : Timer) : Acts (t.callback cfg o) := by
  rw [Timer.callback]
  split
  · refine acts_bind fun _ => .ite (acts_jobRaise _ _) ?_
    split
    · exact acts_throw _
    · exact acts_notify_caught cfg o _ _
  · exact acts_bind fun _ => .ite (acts_jobRaise _ _) (acts_bind fun _ => acts_notify_caught cfg o _ _)
  · exact acts_bind fun _ => (acts_jobRaise _ _).bind fun _ => adds_attempt _
  · exact acts_bind fun _ => acts_jobRaise _ _

theorem ends_timerCallback_acts (cfg : Config) (o : Outcomes) (i : Nat) (t : Timer) (s : Service) :
    Prog.Ends (timerCallback i (t.callback cfg o)) s fun _ u => u.out.any Out.acts = true := by
  have hcaught : Prog.Ends (tryCatch (t.callback cfg o) fun _ => emit (.jobRaise "dws-timer-error" 0)) s fun r u =>
      u.out.any Out.acts = true ∧ r = .ok () := by
    refine .tryCatch (acts_callback t s) (fun _ _ h => ⟨h rfl, rfl⟩) fun _ u _ => ?_
    exact .of_exec rfl ⟨acts_jobRaise "dws-timer-error" 0 u rfl, rfl⟩
  refine .bind hcaught (fun _ u h => ?_) fun _ _ h => nomatch h.2
  exact .of_exec rfl h.1

/-! ### What a run has seen -/

/-- The last of the states that a timer guards. -/
def TimerKind.last : TimerKind → WorkflowState
  | .setup _ _ => .setup
  | .preRun => .preRun
  | .postRun => .postRun
  | .teardownAfter => .dataOut

/-- A state that comes after those that a timer guards. -/
def TimerKind.past (kind : TimerKind) (state : WorkflowState) : Bool := kind.last.rank < state.rank

/-- Beside a run: whether the service has seen the workflow deleted or missing, and whether a
timer did something after the workflow had left what the timer guards. -/
structure Sight where
  gone : Bool := false
  misfired : Bool := false

/-- The service has seen the workflow leave what a timer guards: at some time in the run, also
before the timer was started, it has asked for a later state, or the workflow is gone. -/
def Sight.left (w : Sight) (s : System) (kind : TimerKind) : Bool := w.gone || s.requested.any kind.past

/-- There has been a workflow and is none, and the service has forgotten its WorkflowInfo, which
it does when it sees the workflow deleted or missing. -/
def System.forgotten (s : System) : Bool :=
  !s.versions.isEmpty && (currentWorkflow s.versions).isNone && s.service.cache.isNone

def Sight.see (w : Sight) (s : System) (a : Action) (t : System) : Sight where
  gone := w.gone || t.forgotten
  misfired := w.misfired || match a with
    | .timer i _ =>
      (s.service.timers[i]?).any (fun timer => w.left s timer.kind) && (t.log.drop s.log.length).any Out.acts
    | _ => false

/-- The system, with what a run of it has seen. -/
def sightMachine (cfg : Config) (timeout : Bool) : Machine (System × Sight) Action :=
  (systemMachine cfg timeout).observed {} Sight.see

theorem TimerKind.past_teardown (kind : TimerKind) : kind.past .teardown = true := by cases kind <;> rfl

/-- Before Teardown, the data movement at the end is not over. -/
theorem TimerKind.past_eq_false {kind : TimerKind} {d : WorkflowState} (hk : kind.guards? = none)
    (hd : d ≠ .teardown) : kind.past d = false := by
  cases kind with
  | teardownAfter => cases d <;> first | rfl | exact absurd rfl hd
  | _ => cases hk

/-! ### The clock follows it -/

namespace Clock

/-- By its clock, the service has seen the workflow leave what a timer that runs guards. -/
def LeftBehind (c : Clock) (t : Timer) : Prop :=
  c.ledger.cache ≠ some t.winfo ∨ (c.ledger.flags t.winfo).toredown = true

/-- What was seen before this callback and asked for in it is what the clock says. -/
def Tracks (gone : Bool) (before : List WorkflowState) (c : Clock) : Prop :=
  ∀ i t, c.Runs i t → ((gone || (before ++ c.ledger.requested).any t.kind.past) = true ↔ c.LeftBehind t)

/-- The same at the end of a callback, where the WorkflowInfo may be forgotten. -/
def Settles (gone : Bool) (before : List WorkflowState) (c : Clock) : Prop :=
  c.ledger.cache ≠ none → c.Tracks gone before

/-- What is asked for comes in order, unless Teardown has been asked for. -/
def Sorted (before : List WorkflowState) (c : Clock) : Prop :=
  .teardown ∉ before ++ c.ledger.requested → (before ++ c.ledger.requested).Pairwise fun a b => a.rank ≤ b.rank

/-- A workflow that is there may be moved to `d`: whether Teardown was asked for is on record, and if
it was not, nothing that comes after `d` was. -/
structure MayMove (gone : Bool) (before : List WorkflowState) (d : WorkflowState) (toredown : Bool) : Prop where
  there : gone = false
  noted : toredown = true ↔ .teardown ∈ before
  later : .teardown ∉ before → ∀ x ∈ before, x.rank ≤ d.rank

section MayMove
variable {gone : Bool} {before : List WorkflowState} {d : WorkflowState} {toredown : Bool} {kind : TimerKind}

theorem MayMove.past_iff (h : MayMove gone before d toredown) (hk : d.rank ≤ kind.last.rank) :
    (gone || (before ++ [d]).any kind.past) = true ↔ toredown = true := by
  rw [h.there, Bool.false_or, List.any_eq_true]
  constructor
  · rintro ⟨x, hx, hpast⟩
    by_contra hno
    have hle : x.rank ≤ d.rank := by
      rcases List.mem_append.mp hx with hx | hx
      · exact h.later (fun ht => hno (h.noted.mpr ht)) x hx
      · exact List.mem_singleton.mp hx ▸ Nat.le_refl d.rank
    have hlt : kind.last.rank < x.rank := of_decide_eq_true hpast
    omega
  · intro ht
    exact ⟨.teardown, List.mem_append_left _ (h.noted.mp ht), kind.past_teardown⟩

end MayMove

namespace Tracks
variable {existed alive : Prop} {gone : Bool} {before : List WorkflowState} {c c' : Clock} {ref i : Nat}
  {kind : TimerKind}

theorem settles (h : c.Tracks gone before) : c.Settles gone before := fun _ => h

/-- Timers are stopped at most, and nothing is asked for. -/
theorem less (h : c.Tracks gone before) (hcache : c'.ledger.cache = c.ledger.cache)
    (hflags : ∀ ref, (c'.ledger.flags ref).toredown = (c.ledger.flags ref).toredown)
    (hrequested : c'.ledger.requested = c.ledger.requested) (hruns : ∀ i t, c'.Runs i t → c.Runs i t) :
    c'.Tracks gone before := by
  intro i t hr
  rw [hrequested, LeftBehind, hcache, hflags]
  exact h i t (hruns i t hr)

theorem mark (h : c.Tracks gone before) {x : Out} (hx : x.requested? = none) : (c.mark x).Tracks gone before := by
  refine h.less rfl (fun _ => rfl) ?_ fun _ _ => id
  rw [ledger_mark, Ledger.requested_mark, hx]
  exact List.append_nil _

theorem setFlags (h : c.Tracks gone before) (ref : Nat) {f : Flags → Flags} (hf : ∀ g, (f g).toredown = g.toredown) :
    (c.setFlags ref f).Tracks gone before :=
  h.less rfl (c.ledger.toredown_setFlags ref hf) rfl fun _ _ => id

theorem stop (h : c.Tracks gone before) (i : Nat) : (c.stop i).Tracks gone before :=
  h.less rfl (fun _ => rfl) rfl fun _ _ hr => (runs_stop.mp hr).2

theorem disarm (h : c.Tracks gone before) (ref : Nat) : (c.disarm ref).Tracks gone before := by
  have hledger := c.ledger_disarm ref
  refine h.less (congrArg Ledger.cache hledger) (fun r => ?_) (congrArg Ledger.requested hledger)
    fun _ _ hr => (runs_disarm.mp hr).2
  rw [hledger]

theorem release (h : c.Tracks gone before) (ref : Nat) : (c.release ref).Tracks gone before := by
  rw [Clock.release]
  split
  · exact h
  · exact h.mark rfl

/-- The WorkflowInfo of the job is a new one, of which there are no timers yet. -/
theorem get (h : c.Tracks gone before) (hs : c.Slotted existed alive) : c.get.Tracks gone before := by
  cases hc : c.ledger.cache with
  | some ref =>
    rw [get_of_cached hc]
    exact h
  | none =>
    rw [get_of_none hc]
    intro i t hr
    have hold : c.LeftBehind t := .inl (by rw [hc]; exact nofun)
    have hnew : c.add.LeftBehind t := .inl fun hcache => Nat.ne_of_gt (hs.known i t hr) (Option.some.inj hcache)
    exact iff_of_true ((h i t hr).mpr hold) hnew

theorem patch (h : c.Tracks gone before) (hs : c.Slotted existed alive) (hc : c.ledger.cache = some ref)
    {d : WorkflowState} (hd : d ≠ .teardown) : (c.patch o d ref).Tracks gone before := by
  intro i t hr
  have hold := h i t (runs_disarm.mp hr).2
  rw [LeftBehind, ledger_patch, Ledger.requested_mark, ← List.append_assoc, List.any_append]
  show (gone || ((before ++ c.ledger.requested).any t.kind.past || [d].any t.kind.past)) = true ↔ c.LeftBehind t
  cases hk : t.kind.guards? with
  | none =>
    rw [List.any_cons, TimerKind.past_eq_false hk hd, List.any_nil, Bool.or_false, Bool.or_false]
    exact hold
  | some state =>
    -- a timer for a state of another WorkflowInfo, which was left before
    have hne := hs.disarmed ref i t hr (by rw [hk]; rfl)
    have hleft : c.LeftBehind t := .inl fun hcache => hne (Option.some.inj (hcache.symm.trans hc))
    refine iff_of_true ?_ hleft
    rw [← Bool.or_assoc, hold.mpr hleft]
    rfl

/-- Whatever was seen before, all timers are left behind. -/
theorem tearDown (gone : Bool) (before : List WorkflowState) (hc : c.ledger.cache = some ref) :
    (c.tearDown ref).Tracks gone before := by
  intro i t hr
  rw [LeftBehind, ledger_tearDown]
  refine iff_of_true ?_ ?_
  · have hrequested : (c.ledger.tearDown ref).requested = c.ledger.requested ++ [.teardown] :=
      c.ledger.requested_mark .teardownWorkflow
    rw [hrequested]
    simp [t.kind.past_teardown]
  · by_cases href : t.winfo = ref
    · refine .inr ?_
      rw [href, Ledger.tearDown, Ledger.flags_setFlags_self]
    · exact .inl fun hcache => href (Option.some.inj (hcache.symm.trans hc))

/-- A timer is started that is left behind exactly if Teardown has been asked for. -/
theorem start (h : c.Tracks gone before) (hc : c.ledger.cache = some ref)
    (hp : (gone || (before ++ c.ledger.requested).any kind.past) = true ↔ (c.ledger.flags ref).toredown = true) :
    (c.start kind ref).Tracks gone before := by
  intro i t hr
  rcases runs_start.mp hr with hr | ⟨rfl, rfl⟩
  · exact h i t hr
  · refine hp.trans ⟨.inr, fun hleft => hleft.resolve_left fun hne => hne hc⟩

theorem ite_arm (timeout : Bool) (h : c.Tracks gone before) (hc : c.ledger.cache = some ref)
    (hp : (gone || (before ++ c.ledger.requested).any kind.past) = true ↔ (c.ledger.flags ref).toredown = true) :
    (if timeout then c.arm kind ref else c).Tracks gone before := by
  cases timeout with
  | false => exact h
  | true => exact (h.start hc hp).less rfl (fun _ => rfl) rfl fun _ _ => id

theorem timed {d : WorkflowState} (h : c.Tracks gone before) (hc : c.ledger.cache = some ref)
    (hr : c.ledger.requested = [d]) (hd : MayMove gone before d (c.ledger.flags ref).toredown)
    (ht : c.Timed cfg d ref c') : c'.Tracks gone before := by
  have hp (kind : TimerKind) (hk : d.rank ≤ kind.last.rank) :
      (gone || (before ++ c.ledger.requested).any kind.past) = true ↔ (c.ledger.flags ref).toredown = true := by
    rw [hr]
    exact hd.past_iff hk
  cases d with
  | setup =>
    obtain ⟨nodes, lustre, rfl⟩ := ht
    exact h.ite_arm _ hc (hp _ (Nat.le_refl _))
  | preRun =>
    have hpreRun : c' = if cfg.prerunTimeout then c.arm .preRun ref else c := ht
    exact hpreRun ▸ h.ite_arm _ hc (hp _ (Nat.le_refl _))
  | postRun =>
    dsimp only [Timed] at ht
    subst ht
    cases cfg.teardownAfter with
    | false => exact h.ite_arm _ hc (hp _ (Nat.le_refl _))
    | true =>
      have hstart := h.start hc (hp .teardownAfter (Nat.le_succ _))
      exact hstart.ite_arm _ hc (hp .postRun (Nat.le_refl _))
  | _ =>
    have hsame : c' = c := ht
    exact hsame ▸ h

end Tracks

/-! ### One callback -/

/-- What a callback starts from. -/
structure Opens (existed alive : Prop) (gone : Bool) (before : List WorkflowState) (c : Clock) : Prop where
  slotted : c.Slotted existed alive
  heeds : c.ledger.Heeds existed alive before
  tracks : c.Tracks gone before
  gone : gone = true → existed ∧ ¬ alive
  silent : c.ledger.requested = []

namespace Opens
variable {existed alive : Prop} {gone : Bool} {before : List WorkflowState} {c c' : Clock} {ref i : Nat}

theorem get (h : c.Opens existed alive gone before) : c.get.Opens existed alive gone before := by
  refine ⟨h.slotted.get, ?_, h.tracks.get h.slotted, h.gone, ?_⟩
  · rw [ledger_get]
    exact h.heeds.get
  · rw [ledger_get, Ledger.requested_get]
    exact h.silent

theorem abort (h : c.Opens existed alive gone before) : c.abort.Opens existed alive gone before := by
  refine ⟨h.slotted.abort, ?_, ?_, h.gone, h.get.silent⟩
  · rw [ledger_abort]
    exact h.heeds.abort
  · exact h.get.tracks.setFlags _ (f := fun f => {f with epilogRemoved := true}) fun _ => rfl

theorem moved {d : WorkflowState} (h : c.Opens existed alive gone before) (hc : c.ledger.cache = some ref)
    (hf : o.found = true → alive) (hd : d ≠ .teardown) (hsorted : c'.Sorted before) (hm : c.Moved cfg o d ref c') :
    c'.Tracks gone before := by
  have hpatch := h.tracks.patch (o := o) h.slotted hc hd
  have hrequested : (c.patch o d ref).ledger.requested = [d] := by
    rw [ledger_patch, Ledger.requested_mark, h.silent]
    rfl
  have hmoved : c'.ledger.requested = [d] := by
    obtain ⟨n, hn, -⟩ := hm.ledger
    rw [hn, ← ledger_patch, ← hrequested]
    rfl
  cases hm with
  | refused ho => exact hpatch
  | taken ho ht =>
    have halive : alive := hf (by
      rw [Outcomes.applies, Bool.and_eq_true] at ho
      exact ho.1)
    refine hpatch.timed ?_ hrequested ⟨?_, ?_, fun hno x hx => ?_⟩ ht
    · rw [ledger_patch]
      exact hc
    · rw [← Bool.not_eq_true]
      exact fun hgone => (h.gone hgone).2 halive
    · rw [ledger_patch]
      exact h.heeds.toredown_iff halive hc h.silent
    · rw [Sorted, hmoved] at hsorted
      have hlast := hsorted fun ht => (List.mem_append.mp ht).elim hno fun ht => hd (List.mem_singleton.mp ht).symm
      exact (pairwise_append_singleton.mp hlast).2 x hx

theorem checked {ok : Bool} (h : c.Opens existed alive gone before) (hc : o.found = true → c.ledger.cache = some ref)
    (hl : c.Checked o ref ok c') : c'.Settles gone before := by
  cases hl with
  | failed => exact h.tracks.settles
  | tornDown hfound => exact (Tracks.tearDown gone before (hc hfound)).settles
  | released => exact fun hne => absurd rfl hne

theorem tornDown {ok : Bool} (h : c.Opens existed alive gone before) (hc : c.ledger.cache = some ref)
    (hl : c.TornDown o ref ok c') : c'.Settles gone before := by
  cases hl with
  | before => exact h.tracks.settles
  | now _ hl => exact h.checked (fun _ => hc) hl

theorem handled {workflow : Workflow} {ok : Bool} (h : c.Opens existed alive gone before)
    (hc : c.ledger.cache = some ref) (hf : o.found = true → alive) (hsorted : c'.Sorted before)
    (hh : c.Handled cfg o workflow ref ok c') : c'.Tracks gone before := by
  cases hh with
  | nothing => exact h.tracks
  | released => exact h.tracks.release ref
  | deleted => exact ((h.tracks.release ref).mark rfl).setFlags ref fun _ => rfl
  | moved hstate hnext ht hmoved => exact h.moved hc hf (WorkflowState.next_ne_teardown hnext) hsorted hmoved
  | prologRemoved => exact (h.tracks.mark rfl).disarm ref
  | tornDown => exact .tearDown gone before hc

theorem noted {event : Snapshot} (h : c.Opens existed alive gone before) (hf : o.found = true → alive)
    (hsorted : c'.Sorted before) (hn : c.Noted cfg o event c') : c'.Settles gone before := by
  have hcache := Slotted.cache_get c
  cases hn with
  | unread => exact h.tracks.settles
  | forgotten => exact fun hne => absurd rfl hne
  | handled hr hh => exact (h.get.handled hcache hf hsorted hh).settles
  | failed hh => exact (Tracks.tearDown gone before (hh.ledger.cache.trans hcache)).settles

theorem requested {r : Rpc} {ok : Bool} (h : c.Opens existed alive gone before) (hf : o.found = true → alive)
    (hcreate : r.isCreate = true → ∀ i t, ¬ c.Runs i t) (hsorted : c'.Sorted before)
    (hl : c.Requested cfg o ok c' r) : c'.Settles gone before := by
  have hcache := Slotted.cache_get c
  cases r with
  | create failureTolerance =>
    rcases hl with rfl | ⟨-, rfl | rfl⟩
    · exact h.tracks.settles
    · exact (h.tracks.mark rfl).settles
    · exact fun _ i t hr => absurd hr (hcreate rfl i t)
  | setup nodelist =>
    rcases hl with ⟨-, hm⟩ | ⟨-, rfl⟩
    · exact (h.get.moved (d := .setup) hcache hf nofun hsorted hm).settles
    · exact h.tracks.settles
  | postRun runStarted =>
    cases runStarted with
    | true =>
      dsimp only [Requested] at hl
      split at hl
      · exact hl.2 ▸ h.get.tracks.settles
      · exact (h.get.moved (d := .postRun) hcache hf nofun hsorted hl.2).settles
    | false => exact h.get.tornDown hcache hl
  | teardown => exact h.get.tornDown hcache hl
  | abort =>
    obtain ⟨ok, hl⟩ := hl
    exact h.abort.tornDown hcache hl

theorem fired {timer : Timer} (h : c.Opens existed alive gone before) (hf : o.found = true → alive)
    (hr : c.Runs i timer) (hl : c.Fired o timer i c') : c'.Settles gone before := by
  rw [Fired] at hl
  split at hl
  · obtain ⟨ok, c₁, hchecked, rfl⟩ := hl
    have hsettles := h.checked (fun hfound => (h.slotted.held i timer hr).2 (hf hfound)) hchecked
    exact fun hne => (hsettles hne).stop i
  · exact (hl ▸ h.tracks.stop i).settles

end Opens
end Clock

/-! ### The result -/

/-- A timer fires while its WorkflowInfo is the one of the job and notes no teardown. -/
def FiresInTime (s : System) : Action → Prop
  | .timer i _ => ∀ t ∈ s.service.timers[i]?, s.service.cache = some t.winfo ∧
      (s.service.winfos t.winfo).toredown = false
  | _ => True

/-- What was seen of a run is what the clock says. -/
structure Tracked (s : System) (w : Sight) : Prop where
  known : Asking s.view ∧ Existing s.view
  ordered : s.Ordered
  opens : s.clock.Opens (s.versions ≠ []) ((currentWorkflow s.versions).isSome = true) w.gone s.requested

theorem tracked_init : Tracked {} {} :=
  ⟨⟨asking_init, existing_init⟩, ordered_init, ⟨slotted_init, heeds_init, (fun _ _ h => nomatch h.1), nofun, rfl⟩⟩

theorem settles_tick {s : System} {w : Sight} {a : Action} {c : Clock} (h : Tracked s w)
    (hsorted : c.Sorted s.requested) (ht : s.Ticks cfg a c) : c.Settles w.gone s.requested := by
  cases ht with
  | outside => exact h.opens.tracks.settles
  | serve hr hf hl =>
    refine h.opens.requested hf.found.symm.trans (fun hcreate i t hrun => ?_) hsorted hl
    exact countP_ne_zero hr hcreate (h.known.2.created (h.opens.slotted.held i t hrun).1).2
  | watch hn hf hl => exact h.opens.noted hf.found.symm.trans hsorted hl
  | timer ht hf hl => exact h.opens.fired hf.found.symm.trans ht hl
  | killInTc hf => exact h.opens.get.tracks.settles

/-- A workflow that is gone stays so. -/
theorem gone_next (timeout : Bool) {s : System} {w : Sight} {a : Action} (h : Tracked s w) (he : a.Enabled s)
    (hgone : (w.see s a (a.next cfg timeout s)).gone = true) :
    (a.next cfg timeout s).versions ≠ [] ∧ ¬ (currentWorkflow (a.next cfg timeout s).versions).isSome = true := by
  have hstep := view_next cfg timeout s a he
  rcases Bool.or_eq_true_iff.mp hgone with hw | hforgotten
  · obtain ⟨hexisted, hdead⟩ := h.opens.gone hw
    exact ⟨existed_step hstep hexisted, fun halive => hdead (alive_step h.known.2 hstep hexisted halive)⟩
  · simp only [System.forgotten, Bool.and_eq_true, Bool.not_eq_true', List.isEmpty_eq_false_iff,
      Option.isNone_iff_eq_none] at hforgotten
    refine ⟨hforgotten.1.1, ?_⟩
    rw [hforgotten.1.2]
    decide

/-- At the end of a callback, what it asked for is added to what was seen. -/
theorem tracks_see {s t : System} {w : Sight} {a : Action} {c : Clock} {out : List Out} (hs : t.Slotted)
    (h : c.Settles w.gone s.requested) (hg : s.Goes t c out) : t.clock.Tracks (w.see s a t).gone t.requested := by
  intro i timer hr
  have hcache : t.service.cache = c.ledger.cache := congrArg (fun c => c.ledger.cache) hg.clock
  have hsee : (w.see s a t).gone = (w.gone || t.forgotten) := rfl
  obtain ⟨hexisted, hheld⟩ := hs.held i timer hr
  rw [hg.clock] at hr ⊢
  have hfresh : t.requested ++ c.fresh.ledger.requested = s.requested ++ c.ledger.requested :=
    (List.append_nil _).trans (requested_goes hg)
  rw [hfresh, hsee]
  cases hnone : c.ledger.cache with
  | none =>
    -- the workflow is gone: its timers run, and the WorkflowInfo is forgotten
    have hforgotten : t.forgotten = true := by
      have hdead : currentWorkflow t.versions = none := by
        rw [← Option.not_isSome_iff_eq_none]
        intro halive
        have hheld' := hheld halive
        rw [hg.clock] at hheld'
        exact absurd (hnone.symm.trans hheld') nofun
      rw [System.forgotten, hdead, hcache, hnone]
      simp [hexisted]
    refine iff_of_true (by simp [hforgotten]) (.inl ?_)
    rw [show c.fresh.ledger.cache = none from hnone]
    nofun
  | some ref =>
    have hkept : t.forgotten = false := by
      rw [System.forgotten, hcache, hnone]
      exact Bool.and_false _
    rw [hkept, Bool.or_false]
    exact h (by rw [hnone]; nofun) i timer hr

theorem tracked_next (timeout : Bool) {s : System} {w : Sight} {a : Action} (h : Tracked s w) (he : a.Enabled s) :
    Tracked (a.next cfg timeout s) (w.see s a (a.next cfg timeout s)) := by
  obtain ⟨c, out, ht, hg⟩ := ticks_next cfg timeout s a he
  have hslotted : (a.next cfg timeout s).Slotted := slotted_next timeout h.known.2 h.opens.slotted he
  have hordered : (a.next cfg timeout s).Ordered := ordered_next timeout h.ordered he
  have hsorted : c.Sorted s.requested := by
    rw [Clock.Sorted, ← requested_goes hg]
    exact hordered.sorted
  exact ⟨known_next timeout h.known he, hordered, ⟨hslotted,
    heeds_next timeout h.known.2 h.opens.slotted h.opens.heeds he,
    tracks_see hslotted (settles_tick h hsorted ht) hg, gone_next timeout h he, rfl⟩⟩

/-- Whatever a timer does, it is seen in the log. -/
theorem any_acts_timer (cfg : Config) (timeout : Bool) {s : System} {i : Nat} (o : Outcomes) {t : Timer}
    (ht : s.service.timers[i]? = some t) :
    ((Action.next cfg timeout s (.timer i o)).log.drop s.log.length).any Out.acts = true := by
  have hends := ends_timerCallback_acts cfg o i t {s.service with out := []}
  dsimp only [Action.next]
  rw [ht]
  dsimp only [System.run, respond]
  rw [Prog.Ends] at hends
  cases hexec : Prog.exec (timerCallback i (t.callback cfg o)) {s.service with out := []} with
  | mk r u =>
    rw [hexec] at hends
    cases r with
    | ok a =>
      show ((s.log ++ u.out).drop s.log.length).any Out.acts = true
      rw [List.drop_left]
      exact hends
    | error e =>
      show ((s.log ++ u.out).drop s.log.length).any Out.acts = true
      rw [List.drop_left]
      exact hends

theorem misfired_next_iff (timeout : Bool) {s : System} {w : Sight} {a : Action} (h : Tracked s w)
    (hw : w.misfired = false) (he : a.Enabled s) :
    (w.see s a (a.next cfg timeout s)).misfired = false ↔ FiresInTime s a := by
  cases a with
  | timer i o =>
    obtain ⟨⟨t, ht, hrun⟩, -⟩ := he
    have hacts := any_acts_timer cfg timeout o ht
    have htracks : w.left s t.kind = true ↔ s.clock.LeftBehind t := by
      have hiff := h.opens.tracks i t ⟨ht, hrun⟩
      rw [h.opens.silent, List.append_nil] at hiff
      exact hiff
    show (w.misfired || ((s.service.timers[i]?).any (fun timer => w.left s timer.kind) &&
      ((Action.next cfg timeout s (.timer i o)).log.drop s.log.length).any Out.acts)) = false ↔ _
    rw [hw, hacts, ht, Option.any_some, Bool.false_or, Bool.and_true, ← Bool.not_eq_true, htracks]
    constructor
    · intro hleft t' ht'
      obtain rfl := Option.some.inj (ht.symm.trans ht')
      obtain ⟨hcache, hflag⟩ := not_or.mp hleft
      exact ⟨not_not.mp hcache, Bool.not_eq_true _ ▸ hflag⟩
    · intro hin
      obtain ⟨hcache, hflag⟩ := hin t ht
      rintro (hne | htorn)
      · exact hne hcache
      · exact absurd (hflag.symm.trans htorn) (by decide)
  | _ =>
    refine iff_of_true ?_ trivial
    show (w.misfired || false) = false
    rw [hw]
    rfl

/-- **Stale timers do nothing** in a run exactly when every timer fires in time. -/
theorem stale_silent_iff (cfg : Config) (timeout : Bool) {actions : List Action}
    (h : (systemMachine cfg timeout).Possible (systemMachine cfg timeout).init actions) :
    (sightMachine cfg timeout).Always (fun s => s.2.misfired = false) (sightMachine cfg timeout).init actions ↔
      (systemMachine cfg timeout).Legal FiresInTime (systemMachine cfg timeout).init actions :=
  Machine.observed_always_iff_legal (P := fun s : System × Sight => s.2.misfired = false) (fun s => Tracked s.1 s.2)
    (fun _ _ _ hs he _ => tracked_next timeout hs he) (fun _ _ _ hs hw he => misfired_next_iff timeout hs hw he)
    tracked_init rfl h

instance (s : System) : (a : Action) → Decidable (FiresInTime s a)
  | .timer i _ => inferInstanceAs (Decidable (∀ t ∈ s.service.timers[i]?, s.service.cache = some t.winfo ∧
      (s.service.winfos t.winfo).toredown = false))
  | .job _ | .lookup _ _ _ | .reply _ | .remove _ | .serve _ _ | .watch _ _ | .killInTc _ _ | .status _
  | .teardown | .vanish => .isTrue trivial

/-- A service with `postrun_timeout` and `teardown_after`. -/
def dataOutConfig : Config := {nodeConfig with postrunTimeout := true, teardownAfter := true}

/-- The job ends, and its workflow is to unmount and move its data. -/
def movingOut : List Action := running ++
  [.job .finish, .job (.finishCb {}), .job (.cleanupCb {}), .serve (.postRun true) {}, .reply ⟨.postRun true, true⟩]

/-- It moves the data within the time it has; `teardown_after` runs on. -/
def finishedEarly : List Action := movingOut ++
  [.status (complete .postRun), .watch 2 {}, .status (complete .dataOut), .watch 2 {}, .timer 0 {}]

/-- A service with `setup_timeout`. -/
def setupConfig : Config := {nodeConfig with setupTimeout := true}

/-- The workflow is to be torn down when it is set up, and the timer for that is started. -/
def setUpLate : List Action := lookedUpLate ++ [.timer 0 {}]

set_option maxRecDepth 4000 in
theorem stale_misfires :
    ((systemMachine dataOutConfig true).Possible (systemMachine dataOutConfig true).init finishedEarly ∧
      ¬ (sightMachine dataOutConfig true).Always (fun s => s.2.misfired = false)
        (sightMachine dataOutConfig true).init finishedEarly) ∧
    (systemMachine setupConfig true).Possible (systemMachine setupConfig true).init setUpLate ∧
      ¬ (sightMachine setupConfig true).Always (fun s => s.2.misfired = false)
        (sightMachine setupConfig true).init setUpLate :=
  ⟨⟨by decide, fun h => absurd h.last (by decide)⟩, by decide, fun h => absurd h.last (by decide)⟩

/-- It is stuck in the unmounting until `teardown_after` is over. -/
def stuckUntilTeardown : List Action := movingOut ++ [.timer 0 {}, .teardown, .status (complete .teardown), .watch 3 {}]

set_option maxRecDepth 4000 in
theorem stuckUntilTeardown_silent : (sightMachine dataOutConfig true).Always (fun s => s.2.misfired = false)
    (sightMachine dataOutConfig true).init stuckUntilTeardown :=
  (stale_silent_iff dataOutConfig true (by decide)).mpr (by decide)

end FluxCoral2.Dws
