import FluxCoral2.Dws.Clock

/-! What each handler of the service does to the clock and the ledger, and whether it raises.

One theorem for each handler (`ends_setupCb`, `ends_postRunCb`, ..), for any clock and
any outcomes of what it reads and of its steps. Callers of a handler use these and never
look inside it. Each relation between clocks has one between ledgers that follows from it,
for the results that do not need the timers. -/
namespace FluxCoral2.Dws
open Library

variable {cfg : Config} {o : Outcomes}

/-! ### Moving a workflow -/

/-- The patch of the workflow takes effect. -/
def Outcomes.applies (o : Outcomes) : Bool := o.found && (o.raises .patchWorkflow).isNone

/-- What a request to move the workflow does: timers are started when it takes effect. -/
def Moved (o : Outcomes) (desiredState : WorkflowState) (ref : Nat) (l l' : Ledger) : Prop :=
  ∃ n, l' = (l.mark (.patchDesired desiredState o.applies)).startTimers n ref ∧
    (0 < n → o.applies = true)

namespace Clock

/-- The patch that asks for a state. -/
def patch (o : Outcomes) (desiredState : WorkflowState) (ref : Nat) (c : Clock) : Clock :=
  (c.disarm ref).mark (.patchDesired desiredState o.applies)

/-- The timers that are started for a state which was asked for. -/
def Timed (cfg : Config) (desiredState : WorkflowState) (ref : Nat) (c c' : Clock) : Prop :=
  match desiredState with
  | .setup => ∃ nodes lustre, c' = if cfg.setupTimeout then c.arm (.setup nodes lustre) ref else c
  | .preRun => c' = if cfg.prerunTimeout then c.arm .preRun ref else c
  | .postRun =>
    let c₁ := if cfg.teardownAfter then c.start .teardownAfter ref else c
    c' = if cfg.postrunTimeout then c₁.arm .postRun ref else c₁
  | _ => c' = c

/-- What a request to move the workflow does. -/
inductive Moved (cfg : Config) (o : Outcomes) (desiredState : WorkflowState) (ref : Nat) (c : Clock) : Clock → Prop
  | refused (ho : o.applies = false) : Moved cfg o desiredState ref c (c.patch o desiredState ref)
  | taken {c' : Clock} (ho : o.applies = true) (ht : Timed cfg desiredState ref (c.patch o desiredState ref) c') :
    Moved cfg o desiredState ref c c'

variable {c c' : Clock} {desiredState : WorkflowState} {ref : Nat}

theorem ledger_patch : (c.patch o desiredState ref).ledger = c.ledger.mark (.patchDesired desiredState o.applies) :=
  congrArg (Ledger.mark · _) (c.ledger_disarm ref)

theorem ledger_ite_arm (c : Clock) (ref : Nat) (timeout : Bool) (kind : TimerKind) : ∃ n,
    (if timeout then c.arm kind ref else c).ledger = c.ledger.startTimers n ref := by
  cases timeout with
  | false => exact ⟨0, (Ledger.startTimers_zero _ _).symm⟩
  | true => exact ⟨1, rfl⟩

theorem ledger_ite_start (c : Clock) (ref : Nat) (timeout : Bool) (kind : TimerKind) : ∃ n,
    (if timeout then c.start kind ref else c).ledger = c.ledger.startTimers n ref := by
  cases timeout with
  | false => exact ⟨0, (Ledger.startTimers_zero _ _).symm⟩
  | true => exact ⟨1, rfl⟩

theorem Timed.ledger (h : Timed cfg desiredState ref c c') : ∃ n, c'.ledger = c.ledger.startTimers n ref := by
  cases desiredState with
  | setup =>
    obtain ⟨nodes, lustre, rfl⟩ := h
    exact ledger_ite_arm _ _ _ _
  | preRun =>
    have hpreRun : c' = if cfg.prerunTimeout then c.arm .preRun ref else c := h
    exact hpreRun ▸ ledger_ite_arm _ _ _ _
  | postRun =>
    dsimp only [Timed] at h
    subst h
    obtain ⟨n, hn⟩ := ledger_ite_start c ref cfg.teardownAfter .teardownAfter
    generalize (if cfg.teardownAfter then c.start .teardownAfter ref else c) = c₁ at hn ⊢
    obtain ⟨m, hm⟩ := ledger_ite_arm c₁ ref cfg.postrunTimeout .postRun
    exact ⟨n + m, by rw [hm, hn, Ledger.startTimers_startTimers]⟩
  | _ =>
    have hsame : c' = c := h
    exact ⟨0, hsame ▸ (Ledger.startTimers_zero _ _).symm⟩

theorem Moved.ledger (h : Moved cfg o desiredState ref c c') : Dws.Moved o desiredState ref c.ledger c'.ledger := by
  cases h with
  | refused ho =>
    refine ⟨0, ?_, fun h => absurd h (Nat.lt_irrefl 0)⟩
    rw [Ledger.startTimers_zero, ledger_patch]
  | taken ho ht =>
    obtain ⟨n, hn⟩ := ht.ledger
    exact ⟨n, hn.trans (congrArg (Ledger.startTimers · n ref) ledger_patch), fun _ => ho⟩

end Clock

theorem ends_moveDesiredstate (ref : Nat) (desiredState : WorkflowState) (s : Service) :
    Prog.Ends (moveDesiredstate o ref desiredState) s fun r t =>
      r.isOk = o.applies ∧ t.clock = s.clock.patch o desiredState ref := by
  obtain ⟨t₁, h₁, hc₁⟩ := exec_stopStateTimer ref s
  obtain ⟨t₂, h₂, hc₂⟩ := exec_emit (.patchDesired desiredState o.applies) rfl t₁
  refine .bind_ok h₁ (.bind_ok h₂ ?_)
  rw [Clock.patch, ← hc₁, ← hc₂]
  unfold Outcomes.applies attempt
  cases o.found with
  | false => exact ⟨rfl, rfl⟩
  | true => cases o.raises .patchWorkflow <;> exact ⟨rfl, rfl⟩

/-- A request to move the workflow, and what follows it when it takes effect. -/
theorem ends_moveDesiredstate_bind {α : Type} {desiredState : WorkflowState} {ref : Nat} {s : Service}
    {next : Cb α} {P : Except Exn α → Prop} (herror : o.applies = false → ∀ e, P (.error e))
    (hnext : ∀ t : Service, o.applies = true → t.clock = s.clock.patch o desiredState ref →
      Prog.Ends next t fun r u => P r ∧ t.clock.Timed cfg desiredState ref u.clock) :
    Prog.Ends (do moveDesiredstate o ref desiredState; next) s fun r t =>
      P r ∧ s.clock.Moved cfg o desiredState ref t.clock := by
  refine .bind (ends_moveDesiredstate ref desiredState s) (fun _ t h => ?_) fun e t h => ?_
  · have happlies : o.applies = true := h.1.symm
    exact (hnext t happlies h.2).mono fun _ _ hu => ⟨hu.1, .taken happlies (h.2 ▸ hu.2)⟩
  · have hrefused : o.applies = false := h.1.symm
    exact ⟨herror hrefused e, h.2 ▸ .refused hrefused⟩

theorem ends_if_startStateTimer (timeout : Bool) (kind : TimerKind) (ref : Nat) (s : Service) :
    Prog.Ends (if timeout then startStateTimer kind ref else pure ()) s fun r t =>
      r.isOk = true ∧ t.clock = if timeout then s.clock.arm kind ref else s.clock := by
  cases timeout with
  | false => exact .pure ⟨rfl, rfl⟩
  | true =>
    obtain ⟨t, ht, hc⟩ := exec_startStateTimer kind ref s
    exact .of_exec ht ⟨rfl, hc⟩

/-! ### Tearing a workflow down -/

theorem exec_moveToTeardown (o : Outcomes) (ref : Nat) (s : Service) : ∃ t,
    Prog.exec (moveToTeardown o ref false) s = (.ok (), t) ∧ t.clock = s.clock.tearDown ref := by
  obtain ⟨t₁, h₁, hc₁⟩ := exec_stopStateTimer ref s
  obtain ⟨t₂, h₂, hc₂⟩ := exec_emit .teardownWorkflow rfl t₁
  obtain ⟨t₃, h₃, hc₃⟩ := exec_modifyFlags ref (fun w => {w with toredown := true})
    (fun f => {f with toredown := true}) (fun _ => rfl) (fun _ => rfl) t₂
  refine ⟨t₃, (Prog.exec_bind_ok h₁ _).trans ((Prog.exec_bind_ok h₂ _).trans h₃), ?_⟩
  rw [hc₃, hc₂, hc₁]
  rfl

/-- What `check_existence_and_move_to_teardown` does; the flag says that it returns. -/
inductive Checked (o : Outcomes) (ref : Nat) (l : Ledger) : Bool → Ledger → Prop
  | failed : Checked o ref l false l
  | tornDown (hfound : o.found = true) : Checked o ref l true (l.tearDown ref)
  | released (hfound : o.found = false) : Checked o ref l true (l.forget.mark .epilogRemove)

/-- A workflow object that exists is not reported missing. -/
def Outcomes.Sound (o : Outcomes) : Prop := o.raises .getWorkflow ≠ some (.apiException 404)

namespace Clock

/-- What `check_existence_and_move_to_teardown` does: it fails to read a workflow that
exists, or finds that the WorkflowInfo of one that does not was forgotten before. -/
inductive Checked (o : Outcomes) (ref : Nat) (c : Clock) : Bool → Clock → Prop
  | failed (h : o.found = true ∨ c.ledger.cache = none) : Checked o ref c false c
  | tornDown (hfound : o.found = true) : Checked o ref c true (c.tearDown ref)
  | released (hfound : o.found = false) (hc : c.ledger.cache.isSome = true) :
    Checked o ref c true (c.forget.mark .epilogRemove)

/-- What tearing down on request does: nothing when it has been done already. -/
inductive TornDown (o : Outcomes) (ref : Nat) (c : Clock) : Bool → Clock → Prop
  | before (ht : (c.ledger.flags ref).toredown = true) : TornDown o ref c true c
  | now {ok : Bool} {c' : Clock} (ht : (c.ledger.flags ref).toredown = false) (h : Checked o ref c ok c') :
    TornDown o ref c ok c'

variable {c c' : Clock} {ref : Nat} {ok : Bool}

theorem Checked.ledger (h : Checked o ref c ok c') : Dws.Checked o ref c.ledger ok c'.ledger := by
  cases h with
  | failed => exact .failed
  | tornDown hf =>
    rw [ledger_tearDown]
    exact .tornDown hf
  | released hf => exact .released hf

end Clock

theorem exec_existence_missing (hf : o.found = false) (s : Service) :
    Prog.exec (tryCatch (do getWorkflow o; pure true) fun e =>
      if e = .apiException 404 then pure false else throw e : Cb Bool) s = (.ok false, s) := by
  rw [getWorkflow, hf]
  rfl

/-- A workflow that exists is found, or its look-up fails. -/
theorem exec_existence (ho : o.Sound) (hf : o.found = true) (s : Service) : ∃ r : Except Exn Bool,
    Prog.exec (tryCatch (do getWorkflow o; pure true) fun e =>
      if e = .apiException 404 then pure false else throw e : Cb Bool) s = (r, s) ∧
    (r = .ok true ∨ ∃ e, r = .error e) := by
  rw [Outcomes.Sound] at ho
  rw [getWorkflow, hf, attempt]
  cases hr : o.raises .getWorkflow with
  | none => exact ⟨.ok true, rfl, .inl rfl⟩
  | some e =>
    have he : ¬ e = .apiException 404 := fun h => ho (hr.trans (congrArg some h))
    refine ⟨.error e, ?_, .inr ⟨e, rfl⟩⟩
    refine (Prog.exec_tryCatch_error rfl _).trans ?_
    rw [if_neg he]
    rfl

theorem ends_checkExistenceAndMoveToTeardown (ho : o.Sound) (ref : Nat) (s : Service) :
    Prog.Ends (checkExistenceAndMoveToTeardown o ref) s fun r t => s.clock.Checked o ref r.isOk t.clock := by
  cases hf : o.found with
  | false =>
    refine .bind_ok (exec_existence_missing hf s) ?_
    cases hc : s.cache with
    | none => exact .bind_error (exec_remove_none hc) (.failed (.inr hc))
    | some ref' =>
      have hcache : s.cache.isSome = true := Option.isSome_iff_exists.mpr ⟨ref', hc⟩
      obtain ⟨t₁, h₁, hc₁⟩ := exec_remove hcache
      obtain ⟨t₂, h₂, hc₂⟩ := exec_emit .epilogRemove rfl t₁
      rw [hc₁] at hc₂
      exact .bind_ok h₁ (.of_exec h₂ (hc₂ ▸ .released hf hcache))
  | true =>
    obtain ⟨r, hr, rfl | ⟨e, rfl⟩⟩ := exec_existence ho hf s
    · obtain ⟨t, ht, hc⟩ := exec_moveToTeardown o ref s
      exact .bind_ok hr (.of_exec ht (hc ▸ .tornDown hf))
    · exact .bind_error hr (.failed (.inl hf))

/-- The flag of the WorkflowInfo says whether the workflow is looked for. -/
theorem ends_unless_toredown (ho : o.Sound) (ref : Nat) (s : Service) :
    Prog.Ends (do if !(← readWinfo ref).toredown then checkExistenceAndMoveToTeardown o ref) s fun r t =>
      s.clock.TornDown o ref r.isOk t.clock := by
  refine .bind_ok (exec_readWinfo ref s) ?_
  cases ht : (s.winfos ref).toredown with
  | true => exact .pure (.before ht)
  | false => exact (ends_checkExistenceAndMoveToTeardown ho ref s).mono fun _ _ h => .now ht h

/-! ### Requests of the plugin -/

theorem ends_createCb (failureTolerance : Int) (s : Service) :
    Prog.Ends (createCb o failureTolerance) s fun _ t => t.clock = s.clock ∨ o.found = false ∧
      (t.clock = s.clock.mark .created ∨ t.clock = (s.clock.mark .created).add) := by
  refine .bind ((still_attempt o .validate).ends s) (fun _ t₁ h₁ => ?_) fun _ t₁ h₁ => .inl h₁
  cases o.found with
  | true => exact .bind_error rfl (.inl h₁)
  | false =>
    refine .bind ((still_attempt o .createObject).ends t₁) (fun _ t₂ h₂ => ?_) fun _ t₂ h₂ =>
      .inl (h₂.trans h₁)
    obtain ⟨t₃, h₃, hc₃⟩ := exec_emit .created rfl t₂
    have hcreated : t₃.clock = s.clock.mark .created := by rw [hc₃, h₂, h₁]
    refine .bind_ok h₃ ?_
    by_cases hneg : failureTolerance < 0
    · rw [if_pos hneg]
      exact .bind_error rfl (.inr ⟨rfl, .inl hcreated⟩)
    · rw [if_neg hneg]
      obtain ⟨t₄, h₄, hc₄⟩ := exec_add failureTolerance t₃
      exact .bind_ok h₄ (.pure (.inr ⟨rfl, .inr (hc₄.trans (congrArg Clock.add hcreated))⟩))

/-- The setup request gets as far as the patch of the workflow. -/
def Outcomes.reachesSetup (cfg : Config) (o : Outcomes) (nodelist : List String) : Bool :=
  match Rabbit.hostlist cfg.lib nodelist with
  | none => false
  | some hosts =>
    o.found && (o.raises .getWorkflow).isNone && (o.raises .servers).isNone &&
      (Rabbit.nodesPerNnf cfg.layout (cfg.lib.uniq hosts) (.empty, 0)).isSome

theorem Outcomes.found_of_reachesSetup {cfg : Config} {o : Outcomes} {nodelist : List String}
    (h : o.reachesSetup cfg nodelist = true) : o.found = true := by
  unfold Outcomes.reachesSetup at h
  split at h
  · cases h
  · simp only [Bool.and_eq_true] at h
    exact h.1.1.1

theorem ends_setupCb (nodelist : List String) (s : Service) :
    Prog.Ends (setupCb cfg o nodelist) s fun _ t =>
      o.reachesSetup cfg nodelist = true ∧ s.clock.get.Moved cfg o .setup s.ledger.getRef t.clock ∨
      o.reachesSetup cfg nodelist = false ∧ t.clock = s.clock := by
  unfold setupCb Outcomes.reachesSetup getWorkflow attempt
  cases Rabbit.hostlist cfg.lib nodelist with
  | none => exact .throw (.inr ⟨rfl, rfl⟩)
  | some hosts =>
    dsimp only
    cases o.found with
    | false => exact .bind_error rfl (.inr ⟨rfl, rfl⟩)
    | true =>
      cases o.raises .getWorkflow with
      | some e => exact .bind_error rfl (.inr ⟨rfl, rfl⟩)
      | none =>
        refine .bind_ok (a := ()) rfl ?_
        cases Rabbit.nodesPerNnf cfg.layout (cfg.lib.uniq hosts) (.empty, 0) with
        | none => exact .throw (.inr ⟨by simp, rfl⟩)
        | some _ =>
          cases o.raises .servers with
          | some e => exact .bind_error rfl (.inr ⟨rfl, rfl⟩)
          | none =>
            obtain ⟨t₁, h₁, hc₁⟩ := exec_get s
            obtain ⟨t₂, h₂, hc₂⟩ := exec_modifyFlags s.ledger.getRef
              (fun w => {w with hlist := some (cfg.lib.uniq hosts)}) id (fun _ => rfl) (fun _ => rfl) t₁
            rw [Clock.setFlags_id, hc₁] at hc₂
            refine .bind_ok (a := ()) rfl (.bind_ok h₁ (.bind_ok h₂ ?_))
            rw [← hc₂]
            have hmove : Prog.Ends (do
                moveDesiredstate o s.ledger.getRef .setup
                if cfg.setupTimeout then
                  startStateTimer (.setup (cfg.lib.uniq hosts) (lustreOfBreakdowns o.breakdowns)) s.ledger.getRef) t₂
                fun _ t => True ∧ t₂.clock.Moved cfg o .setup s.ledger.getRef t.clock :=
              ends_moveDesiredstate_bind (P := fun _ => True) (fun _ _ => trivial) fun t _ _ =>
                (ends_if_startStateTimer cfg.setupTimeout _ _ t).mono fun _ _ h => ⟨trivial, _, _, h.2⟩
            exact hmove.mono fun _ _ h => .inl ⟨rfl, h.2⟩

theorem ends_postRunCb_started (s : Service) :
    Prog.Ends (postRunCb cfg o true) s fun r t =>
      if (s.ledger.get.flags s.ledger.getRef).toredown then r.isOk = true ∧ t.clock = s.clock.get
      else r.isOk = o.applies ∧ s.clock.get.Moved cfg o .postRun s.ledger.getRef t.clock := by
  obtain ⟨t, ht, hc⟩ := exec_get s
  refine .bind_ok ht (.bind_ok (exec_readWinfo _ t) ?_)
  have hledger : t.ledger = s.ledger.get := (congrArg Clock.ledger hc).trans s.clock.ledger_get
  have hflag : (t.winfos s.ledger.getRef).toredown = (s.ledger.get.flags s.ledger.getRef).toredown := by
    rw [← hledger]
    rfl
  rw [hflag, ← hc]
  cases (s.ledger.get.flags s.ledger.getRef).toredown with
  | true => exact .pure ⟨rfl, rfl⟩
  | false =>
    refine ends_moveDesiredstate_bind (P := fun r => r.isOk = o.applies) (fun h _ => h.symm) fun t₁ ho _ => ?_
    rw [ho]
    dsimp only [Clock.Timed]
    cases cfg.teardownAfter with
    | false => exact ends_if_startStateTimer cfg.postrunTimeout _ _ t₁
    | true =>
      obtain ⟨t₂, h₂, hc₂⟩ := exec_startTimer .teardownAfter s.ledger.getRef t₁
      exact .bind_ok h₂ ((ends_if_startStateTimer cfg.postrunTimeout _ _ t₂).mono fun _ _ h => ⟨h.1, hc₂ ▸ h.2⟩)

theorem ends_postRunCb_unstarted (ho : o.Sound) (s : Service) :
    Prog.Ends (postRunCb cfg o false) s fun r t => s.clock.get.TornDown o s.ledger.getRef r.isOk t.clock := by
  obtain ⟨t, ht, hc⟩ := exec_get s
  rw [← hc]
  refine .bind_ok ht (.bind_ok (exec_readWinfo _ t) ?_)
  cases hflag : (t.winfos s.ledger.getRef).toredown with
  | true => exact .pure (.before hflag)
  | false => exact (ends_checkExistenceAndMoveToTeardown ho _ t).mono fun _ _ h => .now hflag h

theorem ends_teardownCb (ho : o.Sound) (s : Service) : Prog.Ends (teardownCb o) s fun r t =>
    s.clock.get.TornDown o s.ledger.getRef r.isOk t.clock := by
  obtain ⟨t, ht, hc⟩ := exec_get s
  rw [← hc]
  exact .bind_ok ht (ends_unless_toredown ho _ t)

/-- The epilog is over already, says the plugin. -/
def Ledger.abort (l : Ledger) : Ledger :=
  l.get.setFlags l.getRef fun f => {f with epilogRemoved := true}

def Clock.abort (c : Clock) : Clock :=
  c.get.setFlags c.ledger.getRef fun f => {f with epilogRemoved := true}

@[simp] theorem Clock.ledger_abort (c : Clock) : c.abort.ledger = c.ledger.abort := by
  rw [abort, ledger_setFlags, ledger_get]
  rfl

theorem ends_abortCb (ho : o.Sound) (s : Service) : Prog.Ends (abortCb o) s fun _ t =>
    ∃ ok, s.clock.abort.TornDown o s.ledger.getRef ok t.clock := by
  obtain ⟨t₁, h₁, hc₁⟩ := exec_get s
  obtain ⟨t₂, h₂, hc₂⟩ := exec_modifyFlags s.ledger.getRef (fun w => {w with epilogRemoved := true})
    (fun f => {f with epilogRemoved := true}) (fun _ => rfl) (fun _ => rfl) t₁
  have habort : t₂.clock = s.clock.abort := by rw [hc₂, hc₁]; rfl
  rw [← habort]
  refine .bind_ok h₁ (.bind_ok h₂ (.bind_ok (exec_readWinfo _ t₂) ?_))
  cases hflag : (t₂.winfos s.ledger.getRef).toredown with
  | true =>
    have hbefore : t₂.clock.TornDown o s.ledger.getRef true t₂.clock := .before hflag
    exact ((still_disable o).ends t₂).mono fun _ _ h => ⟨true, h ▸ hbefore⟩
  | false =>
    exact .bind (ends_checkExistenceAndMoveToTeardown ho _ t₂)
      (fun _ t h => ((still_disable o).ends t).mono fun _ _ hu => ⟨_, .now hflag (hu ▸ h)⟩)
      fun _ _ h => ⟨_, .now hflag h⟩

/-! ### Timers -/

/-- Timers that guard states at the end of the job. -/
def TimerKind.tearsDown : TimerKind → Bool
  | .postRun => true
  | .teardownAfter => true
  | _ => false

/-- What a timer does that fires: two kinds of timers see whether the workflow exists and tear it down. -/
def Clock.Fired (o : Outcomes) (timer : Timer) (i : Nat) (c c' : Clock) : Prop :=
  if timer.kind.tearsDown then ∃ ok c₁, c.Checked o timer.winfo ok c₁ ∧ c' = c₁.stop i else c' = c.stop i

/-- Whatever the callback of a timer does, the timer is stopped after it. -/
theorem ends_timerCallback {callback : Cb Unit} {i : Nat} {s : Service} {Q : Clock → Prop}
    (h : Prog.Ends callback s fun _ t => Q t.clock) :
    Prog.Ends (timerCallback i callback) s fun _ t => ∃ c, Q c ∧ t.clock = c.stop i := by
  have hcaught : Prog.Ends (tryCatch callback fun _ => emit (.jobRaise "dws-timer-error" 0)) s fun r t =>
      Q t.clock ∧ r = .ok () := by
    refine .tryCatch (Q := fun _ t => Q t.clock) h (fun _ _ h => ⟨h, rfl⟩) fun _ t h => ?_
    have hclock := still_emit (x := .jobRaise "dws-timer-error" 0) rfl t
    exact .of_exec rfl ⟨hclock ▸ h, rfl⟩
  refine .bind hcaught (fun _ t h => ?_) fun _ _ h => nomatch h.2
  obtain ⟨u, hu, hc⟩ := exec_stopTimer i t
  exact .of_exec hu ⟨t.clock, h.1, hc⟩

/-- Both timers of the end of a job tear the workflow down, whatever that raises. -/
theorem ends_teardown_timer (ho : o.Sound) (ref : Nat) (s : Service) {rest : Cb Unit} (hrest : Still rest) :
    Prog.Ends (do tryCatch (checkExistenceAndMoveToTeardown o ref) fun _ => pure (); rest) s fun _ t =>
      ∃ ok, s.clock.Checked o ref ok t.clock := by
  refine .bind (Q := fun _ t => ∃ ok, s.clock.Checked o ref ok t.clock) ?_
    (fun _ t h => (hrest.ends t).mono fun _ _ hu => hu ▸ h) fun _ _ h => h
  exact .tryCatch (ends_checkExistenceAndMoveToTeardown ho ref s) (fun _ _ h => ⟨_, h⟩)
    fun _ _ h => .pure ⟨_, h⟩

theorem ends_timer (ho : o.Sound) (i : Nat) (timer : Timer) (s : Service) :
    Prog.Ends (timerCallback i (timer.callback cfg o)) s fun _ t => s.clock.Fired o timer i t.clock := by
  have hquiet (h : timer.kind.tearsDown = false) (hstill : Still (timer.callback cfg o)) :
      Prog.Ends (timerCallback i (timer.callback cfg o)) s fun _ t => s.clock.Fired o timer i t.clock := by
    refine (ends_timerCallback (Q := (· = s.clock)) (hstill.ends s)).mono fun _ t ht => ?_
    obtain ⟨_, rfl, hc⟩ := ht
    rw [Clock.Fired, h]
    exact hc
  have hchecked (h : timer.kind.tearsDown = true)
      (hends : Prog.Ends (timer.callback cfg o) s fun _ t => ∃ ok, s.clock.Checked o timer.winfo ok t.clock) :
      Prog.Ends (timerCallback i (timer.callback cfg o)) s fun _ t => s.clock.Fired o timer i t.clock := by
    refine (ends_timerCallback (Q := fun c => ∃ ok, s.clock.Checked o timer.winfo ok c) hends).mono fun _ t ht => ?_
    obtain ⟨c, ⟨ok, hc⟩, hstop⟩ := ht
    rw [Clock.Fired, h]
    exact ⟨ok, c, hc, hstop⟩
  unfold Timer.callback at hquiet hchecked ⊢
  cases hkind : timer.kind with
  | setup computeNodes lustre =>
    rw [hkind] at hquiet
    exact hquiet rfl (still_setupTimeoutCb cfg o _ _ _)
  | preRun =>
    rw [hkind] at hquiet
    exact hquiet rfl (still_prerunTimeoutCb cfg o _)
  | postRun =>
    rw [hkind] at hchecked
    exact hchecked rfl (ends_teardown_timer ho _ s (.bind (still_emit rfl) fun _ => still_attempt o _))
  | teardownAfter =>
    rw [hkind] at hchecked
    exact hchecked rfl (ends_teardown_timer ho _ s (still_emit rfl))

theorem ends_killWorkflowInTc (tcTimeout : Int) (s : Service) :
    Prog.Ends (do let _ ← killWorkflowInTc cfg o tcTimeout) s fun _ t =>
      t.clock = s.clock ∨ t.clock = s.clock.get := by
  have hforget : Still (modify fun s => {s with inTc := none} : Cb PUnit) := .modify fun _ => rfl
  have hnotify (transCond : TransientConditionInfo) :
      Prog.Ends (killWorkflowInTc.notifyInTc cfg o transCond) s fun _ t =>
        t.clock = s.clock ∨ t.clock = s.clock.get := by
    rw [killWorkflowInTc.notifyInTc]
    split
    · refine .bind (Q := fun _ t => t.clock = s.clock) ((still_setProperty cfg _).ends s) (fun _ s' hs' => ?_)
        fun _ _ h => .inl h
      obtain ⟨t, ht, hc⟩ := exec_get s'
      rw [hs'] at hc
      have hstill : Still (tryCatch (do
          notifyOfNodeFailure cfg o s'.ledger.getRef (getClientmountsNotInState "mounted" o.clientMounts)
          pure true) fun e => if e = .valueError then pure false else throw e : Cb Bool) :=
        .tryCatch (.bind (still_notifyOfNodeFailure cfg o _ _) fun _ => .pure _) fun e =>
          .ite (.pure _) (.throw e)
      exact .bind_ok ht ((hstill.ends t).mono fun _ _ h => .inr (h.trans hc))
    · exact .pure (.inl rfl)
  refine .bind (Q := fun _ t => t.clock = s.clock ∨ t.clock = s.clock.get) ?_
    (fun _ _ h => .pure h) fun _ _ h => h
  refine .bind_ok (Prog.exec_get s) ?_
  cases s.inTc with
  | none => exact .pure (.inl rfl)
  | some transCond =>
    dsimp only
    split
    · exact .pure (.inl rfl)
    refine .bind (hnotify transCond) (fun notified t h => ?_) fun _ _ h => h
    cases notified with
    | true =>
      have hstill : Still (do modify fun s => {s with inTc := none}; pure true : Cb Bool) :=
        .bind hforget fun _ => .pure _
      exact (hstill.ends t).mono fun _ _ hu => hu ▸ h
    | false =>
      have hstill : Still (do
          emit (.jobRaise "exception" 0)
          modify fun s => {s with inTc := none}
          pure false : Cb Bool) :=
        .bind (still_emit rfl) fun _ => .bind hforget fun _ => .pure _
      exact (hstill.ends t).mono fun _ _ hu => hu ▸ h

/-! ### Events of the workflow -/

/-- The state the service moves a workflow to when it has completed one, but for Teardown. -/
def WorkflowState.next? : WorkflowState → Option WorkflowState
  | .setup => some .dataIn
  | .dataIn => some .preRun
  | .postRun => some .dataOut
  | _ => none

theorem WorkflowState.next_spec {state d : WorkflowState} (h : state.next? = some d) :
    d.rank = state.rank + 1 ∧ d.rank < 6 ∧ state ≠ .proposal ∧ d ≠ .postRun ∧
      (d = .dataOut → state = .postRun) := by
  cases state <;> cases h <;> decide

/-- Teardown is asked for in another way. -/
theorem WorkflowState.next_ne_teardown {state d : WorkflowState} (h : state.next? = some d) : d ≠ .teardown := by
  rintro rfl
  exact absurd (next_spec h).2.1 (by decide)

theorem desiredState_of_complete {workflow : Workflow} {state : WorkflowState}
    (h : stateComplete workflow state = true) : workflow.desiredState = state := by
  unfold stateComplete stateActive at h
  simp only [Bool.and_eq_true, decide_eq_true_eq] at h
  exact h.1.1

/-- The epilog is to be removed, unless the plugin has done so. -/
def Ledger.release (l : Ledger) (ref : Nat) : Ledger :=
  if (l.flags ref).epilogRemoved then l else l.mark .epilogRemove

/-- What the service may do about a version of the workflow. -/
inductive Handled (o : Outcomes) (workflow : Workflow) (ref : Nat) (l : Ledger) : Ledger → Prop
  | nothing : Handled o workflow ref l l
  | released (h : stateComplete workflow .teardown = true) (hd : (l.flags ref).deleted = false) :
    Handled o workflow ref l (l.release ref)
  | deleted (h : stateComplete workflow .teardown = true) (hd : (l.flags ref).deleted = false) :
    Handled o workflow ref l
      (((l.release ref).mark .deleteWorkflow).setFlags ref fun f => {f with deleted := true})
  | moved {state desiredState : WorkflowState} {l' : Ledger} (h : stateComplete workflow state = true)
    (hnext : state.next? = some desiredState) (ht : (l.flags ref).toredown = false)
    (hm : Moved o desiredState ref l l') : Handled o workflow ref l l'
  | prologRemoved (h : stateComplete workflow .preRun = true) (ht : (l.flags ref).toredown = false) :
    Handled o workflow ref l (l.mark .prologRemove)
  | tornDown (h : stateComplete workflow .dataOut = true) (ht : (l.flags ref).toredown = false) :
    Handled o workflow ref l (l.tearDown ref)

theorem Handled.cache {o : Outcomes} {workflow : Workflow} {ref : Nat} {l l' : Ledger}
    (h : Handled o workflow ref l l') : l'.cache = l.cache := by
  have hrelease : (l.release ref).cache = l.cache := by
    unfold Ledger.release
    split <;> rfl
  cases h with
  | released hs hd => exact hrelease
  | deleted hs hd => exact hrelease
  | moved hs hnext ht hm =>
    obtain ⟨n, rfl, -⟩ := hm
    rfl
  | _ => rfl

/-- What an event of the watch does: an error tears the workflow down. -/
inductive Noted (o : Outcomes) (l : Ledger) : Snapshot → Ledger → Prop
  | unread (event : Snapshot) : Noted o l event l
  | forgotten : Noted o l .deleted l.get.forget
  | handled {workflow : Workflow} {l' : Ledger} (h : Handled o workflow l.getRef l.get l') :
    Noted o l (.workflow workflow) l'
  | failed {workflow : Workflow} {l' : Ledger} (h : Handled o workflow l.getRef l.get l') :
    Noted o l (.workflow workflow) (l'.tearDown l.getRef)

namespace Clock

def release (c : Clock) (ref : Nat) : Clock :=
  if (c.ledger.flags ref).epilogRemoved then c else c.mark .epilogRemove

@[simp] theorem ledger_release (c : Clock) (ref : Nat) : (c.release ref).ledger = c.ledger.release ref := by
  rw [release, Ledger.release]
  split <;> rfl

/-- What the service may do about a version of the workflow; the flag says that nothing is raised. -/
inductive Handled (cfg : Config) (o : Outcomes) (workflow : Workflow) (ref : Nat) (c : Clock) : Bool → Clock → Prop
  | nothing (ok : Bool) : Handled cfg o workflow ref c ok c
  | released (h : stateComplete workflow .teardown = true) (hd : (c.ledger.flags ref).deleted = false) :
    Handled cfg o workflow ref c false (c.release ref)
  | deleted (h : stateComplete workflow .teardown = true) (hd : (c.ledger.flags ref).deleted = false) :
    Handled cfg o workflow ref c true
      (((c.release ref).mark .deleteWorkflow).setFlags ref fun f => {f with deleted := true})
  | moved {state desiredState : WorkflowState} {ok : Bool} {c' : Clock} (h : stateComplete workflow state = true)
    (hnext : state.next? = some desiredState) (ht : (c.ledger.flags ref).toredown = false)
    (hm : c.Moved cfg o desiredState ref c') (hok : ok = true → o.applies = true) : Handled cfg o workflow ref c ok c'
  | prologRemoved (h : stateComplete workflow .preRun = true) (hd : (c.ledger.flags ref).deleted = false)
    (ht : (c.ledger.flags ref).toredown = false) (hj : o.raises .jobEnvironment = none) :
    Handled cfg o workflow ref c true ((c.mark .prologRemove).disarm ref)
  | tornDown (h : stateComplete workflow .dataOut = true) (ht : (c.ledger.flags ref).toredown = false) :
    Handled cfg o workflow ref c true (c.tearDown ref)

/-- What an event of the watch does: an error tears the workflow down. -/
inductive Noted (cfg : Config) (o : Outcomes) (c : Clock) : Snapshot → Clock → Prop
  | unread (event : Snapshot) : Noted cfg o c event c
  | forgotten : Noted cfg o c .deleted c.get.forget
  | handled {workflow : Workflow} {c' : Clock} (hr : o.raises .readEvent = none)
    (h : c.get.Handled cfg o workflow c.ledger.getRef true c') : Noted cfg o c (.workflow workflow) c'
  | failed {workflow : Workflow} {c' : Clock} (h : c.get.Handled cfg o workflow c.ledger.getRef false c') :
    Noted cfg o c (.workflow workflow) (c'.tearDown c.ledger.getRef)

variable {c c' : Clock} {ref : Nat}

theorem Handled.ledger {workflow : Workflow} {ok : Bool} (h : Handled cfg o workflow ref c ok c') :
    Dws.Handled o workflow ref c.ledger c'.ledger := by
  cases h with
  | nothing => exact .nothing
  | released h hd =>
    rw [ledger_release]
    exact .released h hd
  | deleted h hd =>
    rw [ledger_setFlags, ledger_mark, ledger_release]
    exact .deleted h hd
  | moved h hnext ht hm hok => exact .moved h hnext ht hm.ledger
  | prologRemoved h hd ht hj =>
    rw [ledger_disarm]
    exact .prologRemoved h ht
  | tornDown h ht =>
    rw [ledger_tearDown]
    exact .tornDown h ht

theorem Noted.ledger {event : Snapshot} (h : Noted cfg o c event c') : Dws.Noted o c.ledger event c'.ledger := by
  cases h with
  | unread => exact .unread event
  | forgotten =>
    rw [ledger_forget, ledger_get]
    exact .forgotten
  | handled hr h => exact .handled (c.ledger_get ▸ h.ledger)
  | failed h =>
    rw [ledger_tearDown]
    exact .failed (c.ledger_get ▸ h.ledger)

end Clock

theorem ends_release (ref : Nat) (s : Service) {next : Cb Bool} {Q : Except Exn Bool → Service → Prop}
    (hnext : ∀ t : Service, t.clock = s.clock.release ref → Prog.Ends next t Q) :
    Prog.Ends (do
      if !(← readWinfo ref).epilogRemoved then emit .epilogRemove
      next) s Q := by
  have hflag : (s.clock.ledger.flags ref).epilogRemoved = (s.winfos ref).epilogRemoved := rfl
  rw [Clock.release, hflag] at hnext
  refine .bind_ok (exec_readWinfo ref s) ?_
  cases he : (s.winfos ref).epilogRemoved with
  | true =>
    rw [he] at hnext
    exact hnext s rfl
  | false =>
    rw [he] at hnext
    obtain ⟨t, ht, hc⟩ := exec_emit .epilogRemove rfl s
    exact .bind_ok ht (hnext t hc)

theorem ends_handled_move {state desiredState : WorkflowState} {workflow : Workflow} {ref : Nat}
    {s : Service} {next : Cb Bool} (h : stateComplete workflow state = true)
    (hstate : state.next? = some desiredState) (ht : (s.ledger.flags ref).toredown = false)
    (hnext : ∀ t : Service, t.clock = s.clock.patch o desiredState ref →
      Prog.Ends next t fun _ u => t.clock.Timed cfg desiredState ref u.clock) :
    Prog.Ends (do moveDesiredstate o ref desiredState; next) s fun r t =>
      s.clock.Handled cfg o workflow ref r.isOk t.clock := by
  refine (ends_moveDesiredstate_bind (P := fun r => r.isOk = true → o.applies = true) (fun _ _ => nofun)
    fun t ho hc => ?_).mono fun _ _ hu => .moved h hstate ht hu.2 hu.1
  exact (hnext t hc).mono fun _ _ hu => ⟨fun _ => ho, hu⟩

/-- The workflow has completed Teardown: the job is released, and the workflow deleted. -/
theorem ends_delete {workflow : Workflow} (ref : Nat) (s : Service) (h : stateComplete workflow .teardown = true)
    (hd : (s.ledger.flags ref).deleted = false) :
    Prog.Ends (do
      if !(← readWinfo ref).epilogRemoved then emit .epilogRemove
      attempt o .markRabbitsFree
      emit .deleteWorkflow
      modifyWinfo ref fun w => {w with deleted := true}
      pure true) s fun r t => s.clock.Handled cfg o workflow ref r.isOk t.clock := by
  refine ends_release ref s fun t₁ h₁ => ?_
  refine .bind ((still_attempt o .markRabbitsFree).ends t₁) (fun _ t₂ h₂ => ?_) fun _ _ h₂ => ?_
  · obtain ⟨t₃, h₃, hc₃⟩ := exec_emit .deleteWorkflow rfl t₂
    obtain ⟨t₄, h₄, hc₄⟩ := exec_modifyFlags ref (fun w => {w with deleted := true})
      (fun f => {f with deleted := true}) (fun _ => rfl) (fun _ => rfl) t₃
    refine .bind_ok h₃ (.bind_ok h₄ (.pure ?_))
    rw [hc₄, hc₃, h₂, h₁]
    exact .deleted h hd
  · rw [h₂, h₁]
    exact .released h hd

/-- The workflow has completed PreRun: the prolog is released. -/
theorem ends_prologRemove {workflow : Workflow} (ref : Nat) (s : Service) (h : stateComplete workflow .preRun = true)
    (hd : (s.ledger.flags ref).deleted = false) (ht : (s.ledger.flags ref).toredown = false) :
    Prog.Ends (do
      attempt o .jobEnvironment
      emit .prologRemove
      stopStateTimer ref
      pure true) s fun r t => s.clock.Handled cfg o workflow ref r.isOk t.clock := by
  rw [attempt]
  cases hj : o.raises .jobEnvironment with
  | some e => exact .bind_error rfl (.nothing false)
  | none =>
    obtain ⟨t₁, h₁, hc₁⟩ := exec_emit .prologRemove rfl s
    obtain ⟨t₂, h₂, hc₂⟩ := exec_stopStateTimer ref t₁
    refine .bind_ok (a := ()) rfl (.bind_ok h₁ (.bind_ok h₂ (.pure ?_)))
    rw [hc₂, hc₁]
    exact .prologRemoved h hd ht hj

theorem ends_stateChange (ref : Nat) (workflow : Workflow) (s : Service)
    (hd : (s.ledger.flags ref).deleted = false) :
    Prog.Ends (stateChange cfg o ref workflow) s fun r t =>
      s.clock.Handled cfg o workflow ref r.isOk t.clock := by
  have hnothing {p : Cb Unit} (hp : Still p) : Prog.Ends (do p; pure true) s fun r t =>
      s.clock.Handled cfg o workflow ref r.isOk t.clock :=
    .bind (hp.ends s) (fun _ _ h => .pure (h ▸ .nothing true)) fun _ _ h => h ▸ .nothing false
  rw [stateChange]
  refine .ite (fun _ => hnothing (still_attempt o .removeFinalizer)) fun _ => ?_
  refine .ite (fun hteardown => ends_delete ref s hteardown hd) fun _ => ?_
  refine .bind_ok (exec_readWinfo ref s) (.ite (fun _ => .pure (.nothing true)) fun ht => ?_)
  have ht : (s.ledger.flags ref).toredown = false := Bool.not_eq_true _ ▸ ht
  refine .ite (fun _ => hnothing (still_handleProposalState cfg o)) fun _ => .ite (fun hsetup => ?_) fun _ =>
    .ite (fun hdataIn => ?_) fun _ => .ite (fun hpreRun => ends_prologRemove ref s hpreRun hd ht) fun _ =>
    .ite (fun hpostRun => ?_) fun _ => .ite (fun hdataOut => ?_) fun _ => .pure (.nothing true)
  · refine ends_handled_move hsetup rfl ht fun t _ => ?_
    exact .bind ((still_patchComputesObject cfg o ref).ends t) (fun _ _ h => .pure h) fun _ _ h => h
  · refine ends_handled_move hdataIn rfl ht fun t _ => ?_
    dsimp only [Clock.Timed]
    cases cfg.prerunTimeout with
    | false => exact .pure rfl
    | true =>
      obtain ⟨u, hu, hc⟩ := exec_startStateTimer .preRun ref t
      exact .bind_ok hu (.pure hc)
  · exact ends_handled_move hpostRun rfl ht fun t _ => .pure rfl
  · obtain ⟨t, h, hc⟩ := exec_moveToTeardown o ref s
    exact .bind_ok h (.pure (hc ▸ .tornDown hdataOut ht))

theorem ends_handleWorkflowErrors (workflow : Workflow) (s : Service) :
    Prog.Ends (handleWorkflowErrors o workflow) s fun r t => r.isOk = true ∧ t.clock = s.clock := by
  have hstill := still_handleWorkflowErrors o workflow s
  refine ⟨?_, hstill⟩
  rw [handleWorkflowErrors]
  split <;> rfl

theorem ends_workflowStateChangeCbInner (ref : Nat) (workflow : Workflow) (s : Service) :
    Prog.Ends (workflowStateChangeCbInner cfg o ref workflow) s fun r t =>
      s.clock.Handled cfg o workflow ref r.isOk t.clock := by
  unfold workflowStateChangeCbInner
  split
  · exact .pure (.nothing true)
  refine .bind_ok (exec_readWinfo ref s) ?_
  cases hd : (s.winfos ref).deleted with
  | true => exact .pure (.nothing true)
  | false =>
    refine .bind (ends_stateChange ref workflow s hd) (fun goesOn t h => ?_) fun _ _ h => h
    cases goesOn with
    | true =>
      refine (ends_handleWorkflowErrors workflow t).mono fun r u hu => ?_
      rw [hu.1, hu.2]
      exact h
    | false => exact .pure h

theorem ends_workflowStateChangeCb (event : Snapshot) (s : Service) :
    Prog.Ends (workflowStateChangeCb cfg o event) s fun _ t => s.clock.Noted cfg o event t.clock := by
  unfold workflowStateChangeCb
  split
  · exact .pure (.unread event)
  rename_i hread
  have hread : o.raises .readEvent = none := Option.not_isSome_iff_eq_none.mp hread
  obtain ⟨t, ht, hc⟩ := exec_get s
  refine .bind_ok ht ?_
  cases event with
  | deleted =>
    have hcache : t.clock.ledger.cache = some s.ledger.getRef := by
      rw [hc, Clock.ledger_get]
      exact s.ledger.cache_get
    obtain ⟨u, hu, hcu⟩ := exec_remove (Option.isSome_iff_exists.mpr ⟨_, hcache⟩)
    exact .of_exec hu (hcu ▸ hc ▸ .forgotten)
  | workflow workflow =>
    refine .tryCatch (ends_workflowStateChangeCbInner _ workflow t) (fun _ u hu => .handled hread (hc ▸ hu)) ?_
    intro e u hu
    obtain ⟨v, hv, hcv⟩ := exec_moveToTeardown o s.ledger.getRef u
    obtain ⟨w, hw, hcw⟩ := exec_modifyFlags s.ledger.getRef (fun w => {w with toredown := true})
      (fun f => {f with toredown := true}) (fun _ => rfl) (fun _ => rfl) v
    rw [hcv, Clock.setFlags_tearDown] at hcw
    have hfailed : s.clock.Noted cfg o (.workflow workflow) w.clock := hcw ▸ .failed (hc ▸ hu)
    refine .bind_ok (Prog.exec_tryCatch_ok ((Prog.exec_bind_ok hv _).trans hw) _) ?_
    exact ((still_emit (x := .jobRaise "exception" 0) rfl).ends w).mono fun _ _ h => h ▸ hfailed

end FluxCoral2.Dws
