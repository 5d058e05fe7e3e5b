import Mathlib.Data.List.Induction
import FluxCoral2.Dws.NodeFailure

/-! The timeout of Setup (`setup_cb`, `setup_timeout_cb`).

`setup_cb` walks the breakdowns and the hosts of a job, and arms a timer with whether the
job has a Lustre file system, and with its hosts. A job with Lustre is to be killed when
the timer fires, and any other to lose the computes whose rabbit is not ready. The flag
is that of the last breakdown only (`setup_timer_iff`), and the hosts include the rabbits
in R, for which the timer has no rabbit to look up (`setup_timer_tolerant_iff`). -/
namespace FluxCoral2.Dws
open Library

/-! ### The flag -/

/-- Some breakdown with storage has a Lustre label. -/
def HasLustre (breakdowns : List (Option (List String))) : Prop :=
  ∃ labels, some labels ∈ breakdowns ∧ checkIsLustre labels = true

/-- The last breakdown with storage has a Lustre label, if there is one. -/
def LastIsLustre (breakdowns : List (Option (List String))) : Prop :=
  ∀ labels, (breakdowns.filterMap id).getLast? = some labels → checkIsLustre labels = true

theorem lustreOfBreakdowns_eq (breakdowns : List (Option (List String))) :
    lustreOfBreakdowns breakdowns = ((breakdowns.filterMap id).getLast?.map checkIsLustre).getD false := by
  unfold lustreOfBreakdowns
  induction breakdowns using List.reverseRecOn with
  | nil => rfl
  | append_singleton rest b ih =>
    rw [List.foldl_append, List.foldl_cons, List.foldl_nil, ih, List.filterMap_append]
    cases b with
    | none => simp
    | some labels => simp

theorem hasLustre_of_flag {breakdowns : List (Option (List String))} (h : lustreOfBreakdowns breakdowns = true) :
    HasLustre breakdowns := by
  rw [lustreOfBreakdowns_eq] at h
  cases hlast : (breakdowns.filterMap id).getLast? with
  | none =>
    rw [hlast] at h
    cases h
  | some labels =>
    rw [hlast] at h
    have hmem := List.mem_of_getLast? hlast
    rw [List.mem_filterMap] at hmem
    obtain ⟨b, hb, rfl⟩ := hmem
    exact ⟨labels, hb, h⟩

theorem flag_iff_last {breakdowns : List (Option (List String))} (h : HasLustre breakdowns) :
    lustreOfBreakdowns breakdowns = true ↔ LastIsLustre breakdowns := by
  rw [lustreOfBreakdowns_eq, LastIsLustre]
  cases hlast : (breakdowns.filterMap id).getLast? with
  | none =>
    obtain ⟨labels, hmem, -⟩ := h
    have hne : labels ∈ breakdowns.filterMap id := List.mem_filterMap.mpr ⟨_, hmem, rfl⟩
    rw [List.getLast?_eq_none_iff.mp hlast] at hne
    cases hne
  | some labels => exact ⟨fun h _ heq => Option.some.inj heq ▸ h, fun h => h labels rfl⟩

/-! ### The timer that is armed -/

/-- `setup_cb` arms this timer. -/
def Armed (cfg : Config) (o : Outcomes) (nodelist : List String) (s : Service) (timer : Timer) : Prop :=
  (Prog.exec (setupCb cfg o nodelist) s).2.timers[s.timers.length]? = some timer

/-- How many timers there are. -/
def Service.timerCount (s : Service) : Nat := s.timers.length

/-- A step that arms no timer. -/
abbrev Armless {α : Type} (p : Cb α) : Prop := p.Keeps Service.timerCount

theorem armless_attempt (o : Outcomes) (site : Site) : Armless (attempt o site) := by
  unfold attempt
  cases o.raises site with
  | none => exact .pure ()
  | some e => exact .throw e

theorem armless_stopStateTimer (ref : Nat) : Armless (stopStateTimer ref) := by
  refine .bind (fun _ => rfl) fun w => ?_
  cases w.stateTimer with
  | none => exact .pure ()
  | some timer => exact fun s => List.length_modify ..

theorem armless_moveDesiredstate (o : Outcomes) (ref : Nat) (desiredState : WorkflowState) :
    Armless (moveDesiredstate o ref desiredState) :=
  .bind (armless_stopStateTimer ref) fun _ => .bind (fun _ => rfl) fun _ => .ite (.throw _) (armless_attempt o _)

theorem armless_get : Armless WorkflowInfo.get := by
  refine .bind .get fun s => ?_
  cases s.cache with
  | none => exact fun _ => rfl
  | some ref => exact .pure ref

/-- The timer has the hosts of R and the flag. -/
theorem kind_of_armed {cfg : Config} {o : Outcomes} {nodelist : List String} {s : Service} {timer : Timer}
    (h : Armed cfg o nodelist s timer) : ∃ hosts nodes, Rabbit.hostlist cfg.lib nodelist = some hosts ∧
      Rabbit.nodesPerNnf cfg.layout (cfg.lib.uniq hosts) (.empty, 0) = some nodes ∧
      timer.kind = .setup (cfg.lib.uniq hosts) (lustreOfBreakdowns o.breakdowns) := by
  have hold {t : Service} (ht : t.timerCount = s.timerCount) (h : t.timers[s.timers.length]? = some timer) :
      False := by
    have hle : t.timers.length ≤ s.timers.length := Nat.le_of_eq ht
    rw [List.getElem?_eq_none hle] at h
    cases h
  revert h
  show Prog.Ends (setupCb cfg o nodelist) s fun _ t => t.timers[s.timers.length]? = some timer → _
  unfold setupCb
  cases hhosts : Rabbit.hostlist cfg.lib nodelist with
  | none => exact .throw fun h => (hold rfl h).elim
  | some hosts =>
    have hget : Armless (getWorkflow o) := .ite (.throw _) (armless_attempt o _)
    refine .bind (hget.ends s) (fun _ t₁ h₁ => ?_) fun _ t₁ h₁ h => (hold h₁ h).elim
    cases hnodes : Rabbit.nodesPerNnf cfg.layout (cfg.lib.uniq hosts) (.empty, 0) with
    | none => exact .throw fun h => (hold h₁ h).elim
    | some nodes =>
      refine .bind ((armless_attempt o .servers).ends t₁) (fun _ t₂ h₂ => ?_)
        fun _ t₂ h₂ h => (hold (h₂.trans h₁) h).elim
      refine .bind (armless_get.ends t₂) (fun ref t₃ h₃ => ?_)
        fun _ t₃ h₃ h => (hold (h₃.trans (h₂.trans h₁)) h).elim
      have h₄ := h₃.trans (h₂.trans h₁)
      refine .bind_ok (a := ()) (t := _) rfl ?_
      refine .bind ((armless_moveDesiredstate o ref .setup).ends _) (fun _ t₅ h₅ => ?_)
        fun _ t₅ h₅ h => (hold (h₅.trans h₄) h).elim
      have hcount : t₅.timers.length = s.timers.length := h₅.trans h₄
      refine .ite (fun _ => ?_) fun _ => .pure fun h => (hold hcount h).elim
      intro h
      change (t₅.timers ++ [Timer.mk _ ref true])[s.timers.length]? = some timer at h
      rw [← hcount, List.getElem?_concat_length] at h
      obtain rfl := Option.some.inj h
      exact ⟨hosts, nodes, rfl, hnodes, rfl⟩

/-! ### The firing of the timer -/

/-- A name that is decoded stands for one host. -/
def Plain (lib : Rabbit.HostlistPackage) : Prop :=
  ∀ nodelist hosts, Rabbit.hostlist lib nodelist = some hosts → ∀ h ∈ hosts, lib.decode h = some [h]

/-- The service after the timer has fired. -/
def fired (cfg : Config) (o : Outcomes) (n : Nat) (timer : Timer) (s : Service) : Service :=
  (Prog.exec (timerCallback n (timer.callback cfg o)) s).2

/-- The computes of a job whose rabbit is not ready; a rabbit in R is no compute. -/
def unready (layout : Rabbit.Layout) (servers : Option (List Servers)) (hosts : List String) : List String :=
  hosts.filter fun h => !layout.rabbitsToHostlists.contains h &&
    (layout.hostnamesToRabbits.get? h).any (· ∈ getServersWithCondition notReady servers)

/-- The hosts whose rabbit is not ready, rabbits or not. -/
theorem nodeFailures_some {layout : Rabbit.Layout} {notReady hosts : List String}
    (h : ∀ host ∈ hosts, (layout.hostnamesToRabbits.get? host).isSome) : nodeFailures layout notReady hosts =
      some (hosts.filter fun host => (layout.hostnamesToRabbits.get? host).any (· ∈ notReady)) := by
  induction hosts with
  | nil => rfl
  | cons host rest ih =>
    obtain ⟨hhost, hrest⟩ := List.forall_mem_cons.mp h
    obtain ⟨rabbit, hrabbit⟩ := Option.isSome_iff_exists.mp hhost
    rw [nodeFailures, hrabbit, ih hrest, List.filter_cons, hrabbit, Option.any_some]
    by_cases hmem : rabbit ∈ notReady <;> simp [hmem]

theorem nodeFailures_none {layout : Rabbit.Layout} {notReady hosts : List String} {host : String}
    (hmem : host ∈ hosts) (hnone : layout.hostnamesToRabbits.get? host = none) :
    nodeFailures layout notReady hosts = none := by
  induction hosts with
  | nil => cases hmem
  | cons first rest ih =>
    rw [nodeFailures]
    rcases List.mem_cons.mp hmem with rfl | hmem
    · rw [hnone]
      rfl
    · cases layout.hostnamesToRabbits.get? first with
      | none => rfl
      | some rabbit =>
        rw [ih hmem]
        rfl

theorem nodeFailures_computes {layout : Rabbit.Layout} {hosts : List String} {counts nodes : Dict String Nat × Nat}
    (hnodes : Rabbit.nodesPerNnf layout hosts counts = some nodes)
    (hcomputes : ∀ h ∈ hosts, layout.rabbitsToHostlists.contains h = false) (servers : Option (List Servers)) :
    nodeFailures layout (getServersWithCondition notReady servers) hosts = some (unready layout servers hosts) := by
  have hspec := Rabbit.nodesPerNnf_spec layout hosts counts
  rw [hnodes] at hspec
  rw [nodeFailures_some fun h hh => ?_]
  · unfold unready
    congr 1
    refine List.filter_congr fun h hh => ?_
    rw [hcomputes h hh]
    rfl
  · obtain ⟨rabbit, hrabbit⟩ := hspec.1 h hh (hcomputes h hh)
    rw [hrabbit]
    rfl

section Fired
variable {cfg : Config} {o : Outcomes} {timer : Timer} {hosts nodes : List String} {lustre : Bool}

/-- The wrapper adds an exception for what the callback raises. -/
theorem out_fired (hkind : timer.kind = .setup hosts lustre) {s t : Service} {r : Except Exn Unit}
    (h : Prog.exec (setupTimeoutCb cfg o timer.winfo hosts lustre) s = (r, t)) (n : Nat) :
    (fired cfg o n timer s).out = t.out ++ if r.isOk then [] else [.jobRaise "dws-timer-error" 0] := by
  rw [fired, Timer.callback, hkind, timerCallback, Prog.exec_bind, Prog.exec_tryCatch]
  dsimp only
  rw [h]
  cases r with
  | ok _ => exact (List.append_nil t.out).symm
  | error e => rfl

theorem fired_killed (hkind : timer.kind = .setup hosts lustre) {s : Service}
    (h : (s.winfos timer.winfo).failureTolerance ≤ 0 ∨ lustre = true) (n : Nat) :
    (fired cfg o n timer s).out = s.out ++ [.jobRaise "dws-timeout" 0] := by
  have hguard : ((s.winfos timer.winfo).failureTolerance ≤ 0 || lustre) = true := by simpa using h
  have hcallback : Prog.exec (setupTimeoutCb cfg o timer.winfo hosts lustre) s =
      (.ok (), {s with out := s.out ++ [.jobRaise "dws-timeout" 0]}) := by
    rw [setupTimeoutCb, Prog.exec_bind_ok (exec_readWinfo timer.winfo s), if_pos hguard]
    rfl
  rw [out_fired hkind hcallback n]
  exact List.append_nil _

/-- A timer that is not to kill the job looks for the nodes that failed. -/
theorem exec_setupTimeoutCb {s : Service} (hpos : 0 < (s.winfos timer.winfo).failureTolerance) :
    Prog.exec (setupTimeoutCb cfg o timer.winfo hosts false) s = Prog.exec
      (match nodeFailures cfg.layout (getServersWithCondition notReady o.servers) hosts with
      | none => throw .keyError
      | some failures =>
        tryCatch (notifyOfNodeFailure cfg o timer.winfo failures) fun e =>
          if e = .valueError then emit (.jobRaise "dws-timeout" 0) else throw e) s := by
  have hguard : ¬ ((s.winfos timer.winfo).failureTolerance ≤ 0 || false) = true := by simpa using hpos
  refine (Prog.exec_bind_ok (exec_readWinfo timer.winfo s) _).trans ?_
  exact congrArg (fun callback => Prog.exec callback s) (if_neg hguard)

theorem fired_error (hkind : timer.kind = .setup hosts false) {s : Service}
    (hpos : 0 < (s.winfos timer.winfo).failureTolerance)
    (hnone : nodeFailures cfg.layout (getServersWithCondition notReady o.servers) hosts = none) (n : Nat) :
    (fired cfg o n timer s).out = s.out ++ [.jobRaise "dws-timer-error" 0] := by
  refine out_fired hkind (r := .error .keyError) ?_ n
  rw [exec_setupTimeoutCb hpos, hnone]
  rfl

/-- What comes of the report of some nodes, when the API server takes the patch. -/
def outcome (cfg : Config) (winfo : WorkflowInfo) (nodes : List String) : List Out :=
  if (cfg.lib.uniq (winfo.failures ++ cfg.lib.uniq nodes)).length ≤ winfo.failureTolerance then
    [.jobRaise "dws-node-failure" 1, .forceReady nodes true]
  else [.jobRaise "dws-timeout" 0]

theorem ends_reported (ref : Nat) {s : Service} (hplain : Rabbit.hostlist cfg.lib nodes = some nodes) :
    Prog.Ends (tryCatch (notifyOfNodeFailure cfg o ref nodes) fun e =>
        if e = .valueError then emit (.jobRaise "dws-timeout" 0) else throw e) s
      fun r t => ∃ rest, t.out = s.out ++ .notify nodes :: rest ∧
        (o.applies = true → r = .ok () ∧ rest = outcome cfg (s.winfos ref) nodes) := by
  refine .tryCatch (Q := fun r t => ∃ rest, t.out = s.out ++ .notify nodes :: rest ∧
      (o.applies = true → r = .ok () ∧ rest = outcome cfg (s.winfos ref) nodes ∨
        r = .error .valueError ∧ rest ++ [.jobRaise "dws-timeout" 0] = outcome cfg (s.winfos ref) nodes)) ?_ ?_ ?_
  · unfold notifyOfNodeFailure outcome
    rw [hplain]
    refine .bind_ok (a := ()) rfl (.bind_ok (a := ()) rfl (.bind_ok (exec_readWinfo ref _) ?_))
    dsimp only
    rw [Function.update_self]
    dsimp only
    split
    · refine .bind_ok (a := ()) rfl (.bind_ok (a := ()) rfl ?_)
      unfold attempt Outcomes.applies
      cases o.found with
      | false => exact .throw ⟨_, by simp only [List.append_assoc]; rfl, nofun⟩
      | true =>
        cases o.raises .patchWorkflow with
        | some e => exact .throw ⟨_, by simp only [List.append_assoc]; rfl, nofun⟩
        | none => exact .pure ⟨_, by simp only [List.append_assoc]; rfl, fun _ => .inl ⟨rfl, rfl⟩⟩
    · exact .throw ⟨[], rfl, fun _ => .inr ⟨rfl, rfl⟩⟩
  · rintro a t ⟨rest, hrest, h⟩
    exact ⟨rest, hrest, fun ho => (h ho).resolve_right fun h => nomatch h.1⟩
  · rintro e t ⟨rest, hrest, h⟩
    by_cases he : e = .valueError
    · rw [if_pos he]
      refine ⟨rest ++ [.jobRaise "dws-timeout" 0], ?_, fun ho => ⟨rfl, ?_⟩⟩
      · show t.out ++ _ = _
        rw [hrest, List.append_assoc, List.cons_append]
      · exact ((h ho).resolve_left fun h => nomatch h.1).2
    · rw [if_neg he]
      refine .throw ⟨rest, hrest, fun ho => ?_⟩
      rcases h ho with h | h
      · exact nomatch h.1
      · exact absurd (Except.error.inj h.1) he

theorem fired_reported (hkind : timer.kind = .setup hosts false) {s : Service}
    (hpos : 0 < (s.winfos timer.winfo).failureTolerance)
    (hsome : nodeFailures cfg.layout (getServersWithCondition notReady o.servers) hosts = some nodes)
    (hplain : Rabbit.hostlist cfg.lib nodes = some nodes) (n : Nat) :
    ∃ rest, (fired cfg o n timer s).out = s.out ++ .notify nodes :: rest ∧
      (o.applies = true → rest = outcome cfg (s.winfos timer.winfo) nodes) := by
  have hends := ends_reported (o := o) timer.winfo (s := s) hplain
  have hexec : Prog.exec (setupTimeoutCb cfg o timer.winfo hosts false) s = _ := exec_setupTimeoutCb hpos
  rw [hsome] at hexec
  unfold Prog.Ends at hends
  rw [← hexec] at hends
  cases hrun : Prog.exec (setupTimeoutCb cfg o timer.winfo hosts false) s with
  | mk r t =>
    rw [hrun] at hends
    obtain ⟨rest, hrest, h⟩ := hends
    rw [out_fired hkind hrun n]
    dsimp only at hrest
    rw [hrest, List.append_assoc, List.cons_append]
    refine ⟨_, rfl, fun ho => ?_⟩
    obtain ⟨hok, rfl⟩ := h ho
    dsimp only at hok
    rw [hok]
    exact List.append_nil _

end Fired

/-! ### What the timer does to the job -/

/-- The firing raises `dws-timeout`, and does not make the workflow go on. -/
def Raised (s t : Service) : Prop :=
  ∃ new, t.out = s.out ++ new ∧ .jobRaise "dws-timeout" 0 ∈ new ∧
    ∀ nodes applied, .forceReady nodes applied ∉ new

/-- The firing reports these nodes as failed, first of all. -/
def Reports (s t : Service) (nodes : List String) : Prop := ∃ rest, t.out = s.out ++ .notify nodes :: rest

section Armed
variable {cfg : Config} {o : Outcomes} {nodelist hosts : List String} {s : Service} {timer : Timer}

/-- R of a job, and the timer that is armed for it. -/
structure SetUp (cfg : Config) (o : Outcomes) (nodelist hosts : List String) (s : Service) (timer : Timer) : Prop where
  hosts_eq : (Rabbit.hostlist cfg.lib nodelist).map cfg.lib.uniq = some hosts
  armed : Armed cfg o nodelist s timer

theorem SetUp.spec (h : SetUp cfg o nodelist hosts s timer) : hosts.Nodup ∧
    (∃ nodes, Rabbit.nodesPerNnf cfg.layout hosts (.empty, 0) = some nodes) ∧
      timer.kind = .setup hosts (lustreOfBreakdowns o.breakdowns) := by
  obtain ⟨decoded, nodes, hdecoded, hnodes, hkind⟩ := kind_of_armed h.armed
  have heq := h.hosts_eq
  rw [hdecoded] at heq
  obtain rfl := Option.some.inj heq
  exact ⟨cfg.lib.nodup_uniq _, ⟨nodes, hnodes⟩, hkind⟩

theorem SetUp.plain (h : SetUp cfg o nodelist hosts s timer) (hplain : Plain cfg.lib) {nodes : List String}
    (hsub : nodes ⊆ hosts) : Rabbit.hostlist cfg.lib nodes = some nodes := by
  obtain ⟨decoded, hdecoded, rfl⟩ := Option.map_eq_some_iff.mp h.hosts_eq
  exact Rabbit.hostlist_of_plain fun host hhost =>
    hplain nodelist decoded hdecoded host ((cfg.lib.mem_uniq _ _).mp (hsub hhost))

/-- Without rabbits in R, the computes whose rabbit is not ready are reported. -/
theorem SetUp.reports (h : SetUp cfg o nodelist hosts s timer) (hplain : Plain cfg.lib)
    (hflag : lustreOfBreakdowns o.breakdowns = false)
    (hcomputes : ∀ host ∈ hosts, cfg.layout.rabbitsToHostlists.contains host = false) (found : Outcomes)
    {s' : Service} (hpos : 0 < (s'.winfos timer.winfo).failureTolerance) (n : Nat) :
    ∃ rest, (fired cfg found n timer s').out = s'.out ++ .notify (unready cfg.layout found.servers hosts) :: rest ∧
      (found.applies = true →
        rest = outcome cfg (s'.winfos timer.winfo) (unready cfg.layout found.servers hosts)) := by
  obtain ⟨-, ⟨nodes, hnodes⟩, hkind⟩ := h.spec
  rw [hflag] at hkind
  exact fired_reported hkind hpos (nodeFailures_computes hnodes hcomputes found.servers)
    (h.plain hplain List.filter_sublist.subset) n

/-- A service in which jobs have this tolerance. -/
def tolerating (tolerance : Int) : Service := {winfos := fun _ => {failureTolerance := tolerance}}

/-- A listing of Servers in which this rabbit is not ready. -/
def onlyUnready (rabbit : String) : Outcomes := {servers := some [[some [(rabbit, ⟨some false, 0⟩)]]]}

/-- With a rabbit in R, the timer fails or reports the rabbit. -/
theorem SetUp.not_reports (h : SetUp cfg o nodelist hosts s timer) (hplain : Plain cfg.lib)
    (hflag : lustreOfBreakdowns o.breakdowns = false) {tolerance : Int} (hpos : 0 < tolerance) {host : String}
    (hhost : host ∈ hosts) (hrabbit : cfg.layout.rabbitsToHostlists.contains host = true) :
    ∃ found : Outcomes, found.applies = true ∧ ∀ n, ¬ Reports (tolerating tolerance)
      (fired cfg found n timer (tolerating tolerance)) (unready cfg.layout found.servers hosts) := by
  obtain ⟨-, -, hkind⟩ := h.spec
  rw [hflag] at hkind
  by_cases hattached : ∀ h ∈ hosts, (cfg.layout.hostnamesToRabbits.get? h).isSome
  · obtain ⟨rabbit, hget⟩ := Option.isSome_iff_exists.mp (hattached host hhost)
    refine ⟨onlyUnready rabbit, rfl, fun n ⟨rest, hrest⟩ => ?_⟩
    have hsome : nodeFailures cfg.layout (getServersWithCondition notReady (onlyUnready rabbit).servers) hosts = _ :=
      nodeFailures_some hattached
    have hpos' : 0 < ((tolerating tolerance).winfos timer.winfo).failureTolerance := hpos
    obtain ⟨rest', hrest', -⟩ := fired_reported hkind hpos' hsome (h.plain hplain List.filter_sublist.subset) n
    rw [hrest'] at hrest
    have hsame := Out.notify.inj (List.cons.inj (List.append_cancel_left hrest)).1
    have hmem : host ∈ unready cfg.layout (onlyUnready rabbit).servers hosts := by
      rw [← hsame, List.mem_filter, hget]
      exact ⟨hhost, by simp [onlyUnready, getServersWithCondition, rabbitsOfResource, notReady]⟩
    rw [unready, List.mem_filter, hrabbit] at hmem
    exact absurd hmem.2 (by simp)
  · simp only [not_forall, Option.not_isSome_iff_eq_none] at hattached
    obtain ⟨alone, halone, hnone⟩ := hattached
    refine ⟨{}, rfl, fun n ⟨rest, hrest⟩ => ?_⟩
    rw [fired_error hkind hpos (nodeFailures_none halone hnone) n] at hrest
    exact absurd (List.cons.inj (List.append_cancel_left hrest)).1 nofun

/-- Without the flag, the timer fails or sets `forceReady` when every rabbit is ready. -/
theorem SetUp.not_raised (h : SetUp cfg o nodelist hosts s timer)
    (hflag : lustreOfBreakdowns o.breakdowns = false) {tolerance : Int} (hpos : 0 < tolerance) (n : Nat) :
    ¬ Raised (tolerating tolerance) (fired cfg {} n timer (tolerating tolerance)) := by
  obtain ⟨-, -, hkind⟩ := h.spec
  rw [hflag] at hkind
  have hpos' : 0 < ((tolerating tolerance).winfos timer.winfo).failureTolerance := hpos
  rintro ⟨new, hnew, hraised, hnever⟩
  by_cases hattached : ∀ h ∈ hosts, (cfg.layout.hostnamesToRabbits.get? h).isSome
  · have hsome : nodeFailures cfg.layout (getServersWithCondition notReady ({} : Outcomes).servers) hosts =
        some [] := by
      rw [nodeFailures_some hattached, List.filter_eq_nil_iff.mpr fun host _ => ?_]
      simp [getServersWithCondition]
    obtain ⟨rest, hrest, houtcome⟩ := fired_reported hkind hpos' hsome rfl n
    have hnone : cfg.lib.uniq ([] ++ cfg.lib.uniq []) = [] :=
      List.eq_nil_iff_forall_not_mem.mpr fun x => by simp [cfg.lib.mem_uniq]
    rw [houtcome rfl, outcome, if_pos ?_] at hrest
    · rw [hrest] at hnew
      have hsame := List.append_cancel_left hnew
      exact hnever [] true (hsame ▸ by simp)
    · show ((cfg.lib.uniq ([] ++ cfg.lib.uniq [])).length : Int) ≤ tolerance
      rw [hnone]
      exact Int.le_of_lt hpos
  · simp only [not_forall, Option.not_isSome_iff_eq_none] at hattached
    obtain ⟨alone, halone, hnone⟩ := hattached
    rw [fired_error hkind hpos' (nodeFailures_none halone hnone) n] at hnew
    have hsame := List.append_cancel_left hnew
    rw [← hsame] at hraised
    exact absurd hraised (by simp)

/-- **A job with Lustre** is killed by the timer of Setup, and any other that tolerates failures
loses the computes whose rabbit is not ready, exactly when the last breakdown with storage
shows whether there is Lustre and no host of R is a rabbit. -/
theorem setup_timer_iff (h : SetUp cfg o nodelist hosts s timer) (hplain : Plain cfg.lib) (tolerance : Int) :
    (∀ (found : Outcomes) (n : Nat) (s' : Service), (s'.winfos timer.winfo).failureTolerance = tolerance →
      (HasLustre o.breakdowns → Raised s' (fired cfg found n timer s')) ∧
      (¬ HasLustre o.breakdowns → 0 < tolerance →
        Reports s' (fired cfg found n timer s') (unready cfg.layout found.servers hosts))) ↔
    (HasLustre o.breakdowns → tolerance ≤ 0 ∨ LastIsLustre o.breakdowns) ∧
      (¬ HasLustre o.breakdowns → 0 < tolerance →
        ∀ host ∈ hosts, cfg.layout.rabbitsToHostlists.contains host = false) := by
  obtain ⟨-, -, hkind⟩ := h.spec
  constructor
  · intro hall
    refine ⟨fun hlustre => ?_, fun hnone hpos host hhost => ?_⟩
    · by_contra hnot
      obtain ⟨hpos, hlast⟩ := not_or.mp hnot
      have hflag := Bool.eq_false_iff.mpr (hlast ∘ (flag_iff_last hlustre).mp)
      exact h.not_raised hflag (Int.not_le.mp hpos) 0 ((hall {} 0 (tolerating tolerance) rfl).1 hlustre)
    · by_contra hrabbit
      have hflag := Bool.eq_false_iff.mpr (hnone ∘ hasLustre_of_flag)
      obtain ⟨found, -, hnot⟩ := h.not_reports hplain hflag hpos hhost (Bool.not_eq_false _ ▸ hrabbit)
      exact hnot 0 ((hall found 0 (tolerating tolerance) rfl).2 hnone hpos)
  · rintro ⟨hlast, hcomputes⟩ found n s' htolerance
    refine ⟨fun hlustre => ?_, fun hnone hpos => ?_⟩
    · refine ⟨_, fired_killed hkind ?_ n, List.mem_singleton_self _, fun nodes applied hmem => ?_⟩
      · rw [htolerance, flag_iff_last hlustre]
        exact hlast hlustre
      · exact absurd (List.mem_singleton.mp hmem) nofun
    · have hflag := Bool.eq_false_iff.mpr (hnone ∘ hasLustre_of_flag)
      obtain ⟨rest, hrest, -⟩ := h.reports hplain hflag (hcomputes hnone hpos) found (htolerance ▸ hpos) n
      exact ⟨rest, hrest⟩

/-- A rabbit with one compute, and a timeout of Setup. -/
def oneCompute : Config := {lib := Rabbit.namedHosts, layout := Rabbit.oneRabbit, setupTimeout := true}

theorem plain_oneCompute : Plain oneCompute.lib := fun _ _ _ _ _ => rfl

/-- A job on these hosts with these breakdowns is set up by a new service. -/
theorem setUp_oneCompute : SetUp oneCompute {breakdowns := [some ["xfs"], some ["mdt", "ost"]]} ["node1"] ["node1"] {}
    ⟨.setup ["node1"] true, 0, true⟩ := ⟨rfl, rfl⟩

/-- The metadata targets come last, and the job is killed. -/
theorem lustreLast_killed :
    (∀ (found : Outcomes) (n : Nat) (s' : Service), (s'.winfos 0).failureTolerance = 1 →
      (HasLustre [some ["xfs"], some ["mdt", "ost"]] →
        Raised s' (fired oneCompute found n ⟨.setup ["node1"] true, 0, true⟩ s')) ∧
      (¬ HasLustre [some ["xfs"], some ["mdt", "ost"]] → (0 : Int) < 1 →
        Reports s' (fired oneCompute found n ⟨.setup ["node1"] true, 0, true⟩ s')
          (unready oneCompute.layout found.servers ["node1"]))) ↔
    (HasLustre [some ["xfs"], some ["mdt", "ost"]] →
        (1 : Int) ≤ 0 ∨ LastIsLustre [some ["xfs"], some ["mdt", "ost"]]) ∧
      (¬ HasLustre [some ["xfs"], some ["mdt", "ost"]] → (0 : Int) < 1 →
        ∀ host ∈ ["node1"], oneCompute.layout.rabbitsToHostlists.contains host = false) :=
  setup_timer_iff setUp_oneCompute plain_oneCompute 1

/-- Metadata targets, and then node-local storage. -/
def lustreFirst : Outcomes := {breakdowns := [some ["mdt", "ost"], some ["xfs"]]}

/-- A job with Lustre in its first directive goes on without its file system. -/
theorem lustreFirst_goesOn :
    SetUp oneCompute lustreFirst ["node1"] ["node1"] {} ⟨.setup ["node1"] false, 0, true⟩ ∧
      HasLustre lustreFirst.breakdowns ∧
      (fired oneCompute (onlyUnready "rabbit1") 0 ⟨.setup ["node1"] false, 0, true⟩ (tolerating 1)).out =
        [.notify ["node1"], .jobRaise "dws-node-failure" 1, .forceReady ["node1"] true] ∧
      ¬ Raised (tolerating 1)
        (fired oneCompute (onlyUnready "rabbit1") 0 ⟨.setup ["node1"] false, 0, true⟩ (tolerating 1)) := by
  have hout : (fired oneCompute (onlyUnready "rabbit1") 0 ⟨.setup ["node1"] false, 0, true⟩ (tolerating 1)).out =
      [.notify ["node1"], .jobRaise "dws-node-failure" 1, .forceReady ["node1"] true] := by rfl
  refine ⟨⟨rfl, rfl⟩, ⟨["mdt", "ost"], List.mem_cons_self, rfl⟩, hout, ?_⟩
  rintro ⟨new, hnew, -, hnever⟩
  rw [hout] at hnew
  refine hnever ["node1"] true ?_
  rw [← show _ = new from hnew]
  decide

/-- **The timeout of Setup** finishes without an error and reports the computes whose rabbit is
not ready, each once, exactly when no host of R is a rabbit. -/
theorem setup_timer_tolerant_iff (h : SetUp cfg o nodelist hosts s timer) (hplain : Plain cfg.lib)
    (hflag : lustreOfBreakdowns o.breakdowns = false) :
    (∀ (found : Outcomes) (n : Nat) (s' : Service), 0 < (s'.winfos timer.winfo).failureTolerance →
      found.applies = true → (unready cfg.layout found.servers hosts).Nodup ∧
        ∃ rest, (fired cfg found n timer s').out =
            s'.out ++ .notify (unready cfg.layout found.servers hosts) :: rest ∧
          .jobRaise "dws-timer-error" 0 ∉ rest) ↔
    ∀ host ∈ hosts, cfg.layout.rabbitsToHostlists.contains host = false := by
  constructor
  · intro hall host hhost
    by_contra hrabbit
    obtain ⟨found, happlies, hnot⟩ := h.not_reports hplain hflag Int.one_pos hhost (Bool.not_eq_false _ ▸ hrabbit)
    obtain ⟨-, rest, hrest, -⟩ := hall found 0 (tolerating 1) Int.one_pos happlies
    exact hnot 0 ⟨rest, hrest⟩
  · intro hcomputes found n s' hpos happlies
    obtain ⟨hnodup, -, -⟩ := h.spec
    obtain ⟨rest, hrest, houtcome⟩ := h.reports hplain hflag hcomputes found hpos n
    refine ⟨hnodup.filter _, rest, hrest, ?_⟩
    rw [houtcome happlies, outcome]
    split <;> simp

theorem setUp_nodeLocal : SetUp oneCompute {breakdowns := [some ["xfs"]]} ["node1"] ["node1"] {}
    ⟨.setup ["node1"] false, 0, true⟩ := ⟨rfl, rfl⟩

/-- A job without Lustre on one compute. -/
theorem nodeLocal_reported :
    (∀ (found : Outcomes) (n : Nat) (s' : Service), 0 < (s'.winfos 0).failureTolerance →
      found.applies = true → (unready oneCompute.layout found.servers ["node1"]).Nodup ∧
        ∃ rest, (fired oneCompute found n ⟨.setup ["node1"] false, 0, true⟩ s').out =
            s'.out ++ .notify (unready oneCompute.layout found.servers ["node1"]) :: rest ∧
          .jobRaise "dws-timer-error" 0 ∉ rest) ↔
    ∀ host ∈ ["node1"], oneCompute.layout.rabbitsToHostlists.contains host = false :=
  setup_timer_tolerant_iff setUp_nodeLocal plain_oneCompute rfl

/-- With the rabbit itself in R the timer fails, though the job would tolerate the loss. -/
theorem rabbitInR_fails :
    SetUp oneCompute {breakdowns := [some ["xfs"]]} ["rabbit1", "node1"] ["rabbit1", "node1"] {}
        ⟨.setup ["rabbit1", "node1"] false, 0, true⟩ ∧
      (fired oneCompute {} 0 ⟨.setup ["rabbit1", "node1"] false, 0, true⟩ (tolerating 1)).out =
        [.jobRaise "dws-timer-error" 0] :=
  ⟨⟨rfl, rfl⟩, rfl⟩

end Armed

end FluxCoral2.Dws
