import Mathlib.Data.List.Count
import FluxCoral2.Dws.Asking

/-! The desired states the service asks for.

The workflow is to move forward only. The service sees to that with the events of the
workflow, which come in order, and with `toredown`; two requests of the plugin get past
both: `dws.setup`, whose callback does not look at `toredown` and which waits for a
lookup in the KVS, and `dws.post_run` for a WorkflowInfo that was forgotten.
`forward_iff_in_order`: these two are all that can go wrong. -/
namespace FluxCoral2.Dws
open Library Jobtap

def Out.requested? : Out → Option WorkflowState
  | .patchDesired desiredState _ => some desiredState
  | .teardownWorkflow => some .teardown
  | _ => none

/-- The desired states the service has asked for, in order. -/
def System.requested (s : System) : List WorkflowState := s.log.filterMap Out.requested?

/-- No state is asked for after a later one. -/
def System.Forward (s : System) : Prop := s.requested.Pairwise fun a b => a.rank ≤ b.rank

def View.requested (v : View) : List WorkflowState := v.ledger.marks.filterMap Out.requested?

theorem View.requested_get (v : View) : v.get.requested = v.requested :=
  congrArg (List.filterMap Out.requested?) v.ledger.marks_get

/-- A callback starts with the WorkflowInfo of the job. -/
theorem View.absorb_fresh_get (v : View) : v.absorb v.ledger.fresh.get = v.get := by
  rw [absorb_get, absorb_fresh]

theorem filterMap_requested (out : List Out) :
    (out.filter Out.isMark).filterMap Out.requested? = out.filterMap Out.requested? := by
  rw [List.filterMap_filter]
  refine List.filterMap_congr fun x _ => ?_
  cases x <;> rfl

theorem requested_view (s : System) : s.view.requested = s.requested := filterMap_requested s.log

/-! ### The order of the versions -/

/-- The rank of the last version the watch has given to the service. -/
def seen (versions : List Snapshot) : Nat := (versions.head?.map Snapshot.rank).getD 0

theorem seen_append {versions : List Snapshot} (h : versions ≠ []) (l : List Snapshot) :
    seen (versions ++ l) = seen versions := by
  cases versions with
  | nil => exact absurd rfl h
  | cons x rest => rfl

/-- What a run keeps in which the two requests that get past the events come in order. -/
structure Moving (v : View) : Prop where
  sorted : v.requested.Pairwise fun a b => a.rank ≤ b.rank
  ordered : v.versions.Pairwise fun a b => a.rank ≤ b.rank
  asked : ∀ w, .workflow w ∈ v.versions → w.desiredState = .proposal ∨ w.desiredState ∈ v.requested
  ahead : ∀ d ∈ v.requested, d ≠ .teardown → d.rank ≤ seen v.versions + 1
  toredown : .teardown ∈ v.requested →
    (∃ ref, v.ledger.cache = some ref ∧ (v.ledger.flags ref).toredown = true) ∨ seen v.versions = 6
  made : v.requested ≠ [] → v.versions ≠ []
  created : v.versions ≠ [] → v.job.state ≠ .new ∧ v.rpcs.countP Rpc.isCreate = 0
  setUp : ∀ d ∈ v.requested, d ≠ .teardown → v.looked = true ∧ v.rpcs.countP Rpc.isSetup = 0
  ran : .postRun ∈ v.requested ∨ .dataOut ∈ v.requested →
    v.job.epilogActive = true ∧ v.rpcs.countP Rpc.isPostRun = 0
  prolog : .prologRemove ∈ v.ledger.marks → .preRun ∈ v.requested ∧ 3 ≤ seen v.versions
  deleting : .deleteWorkflow ∈ v.ledger.marks → seen v.versions = 6
  vanished : .deleted ∈ v.versions → .deleteWorkflow ∈ v.ledger.marks ∧ currentWorkflow v.versions = none
  timers : (currentWorkflow v.versions).isSome = true → ∀ ref ∈ v.ledger.timers, v.ledger.cache = some ref
  untimed : v.versions = [] → v.ledger.timers = []

/-- The workflow may be moved to this state now. -/
structure Ready (v : View) (d : WorkflowState) : Prop where
  later : ∀ x ∈ v.requested, x.rank ≤ d.rank
  ne : d ≠ .teardown
  next : d.rank ≤ seen v.versions + 1
  made : v.versions ≠ []
  setUp : v.looked = true ∧ v.rpcs.countP Rpc.isSetup = 0
  ran : d = .postRun ∨ d = .dataOut → v.job.epilogActive = true ∧ v.rpcs.countP Rpc.isPostRun = 0

theorem Ready.get {v : View} {d : WorkflowState} (h : Ready v d) : Ready v.get d := by
  have hreq := v.requested_get
  exact ⟨hreq ▸ h.later, h.ne, h.next, h.made, h.setUp, h.ran⟩

theorem moving_init : Moving (System.view {}) :=
  ⟨.nil, .nil, fun _ => nofun, fun _ => nofun, nofun, fun h => absurd rfl h, fun h => absurd rfl h,
    fun _ => nofun, nofun, nofun, nofun, nofun, nofun, fun _ => rfl⟩

theorem requested_mark (v : View) (x : Out) : (v.mark x).requested = v.requested ++ x.requested?.toList := by
  show (v.ledger.marks ++ [x]).filterMap Out.requested? = _
  rw [List.filterMap_append]
  cases h : x.requested? <;> simp [View.requested, h]

namespace Moving
variable {v : View}

/-- Something is logged that is no request to move the workflow. -/
theorem log (h : Moving v) (x : Out) (hr : x.requested? = none) (hv : x.version v.versions = v.versions)
    (hp : x = .prologRemove → .preRun ∈ v.requested ∧ 3 ≤ seen v.versions)
    (hd : x = .deleteWorkflow → seen v.versions = 6) : Moving (v.mark x) := by
  have hreq : (v.mark x).requested = v.requested := by
    rw [requested_mark, hr]
    exact List.append_nil _
  have hver : (v.mark x).versions = v.versions := hv
  refine ⟨?_, ?_, ?_, ?_, ?_, ?_, ?_, ?_, ?_, fun hm => ?_, fun hm => ?_, fun hm => ?_, ?_, ?_⟩
  · rw [hreq]
    exact h.sorted
  · rw [hver]
    exact h.ordered
  · rw [hreq, hver]
    exact h.asked
  · rw [hreq, hver]
    exact h.ahead
  · rw [hreq, hver]
    exact h.toredown
  · rw [hreq, hver]
    exact h.made
  · rw [hver]
    exact h.created
  · rw [hreq]
    exact h.setUp
  · rw [hreq]
    exact h.ran
  · rw [hreq, hver]
    exact (List.mem_append.mp hm).elim h.prolog fun hx => hp (List.mem_singleton.mp hx).symm
  · rw [hver]
    exact (List.mem_append.mp hm).elim h.deleting fun hx => hd (List.mem_singleton.mp hx).symm
  · rw [hver] at hm ⊢
    exact (h.vanished hm).imp_left (List.mem_append_left _)
  · rw [hver]
    exact h.timers
  · rw [hver]
    exact h.untimed

/-- A change of the cache, the flags or the timers. -/
theorem withLedger (h : Moving v) {l : Ledger} (hm : l.marks = v.ledger.marks)
    (ht : .teardown ∈ v.requested →
      (∃ ref, l.cache = some ref ∧ (l.flags ref).toredown = true) ∨ seen v.versions = 6)
    (htimers : (currentWorkflow v.versions).isSome = true → ∀ ref ∈ l.timers, l.cache = some ref)
    (huntimed : v.versions = [] → l.timers = []) : Moving {v with ledger := l} := by
  have hreq : View.requested {v with ledger := l} = v.requested := congrArg (List.filterMap Out.requested?) hm
  refine ⟨?_, h.ordered, ?_, ?_, ?_, ?_, h.created, ?_, ?_, ?_, ?_, ?_, htimers, huntimed⟩
  · rw [hreq]
    exact h.sorted
  · rw [hreq]
    exact h.asked
  · rw [hreq]
    exact h.ahead
  · rw [hreq]
    exact ht
  · rw [hreq]
    exact h.made
  · rw [hreq]
    exact h.setUp
  · rw [hreq]
    exact h.ran
  · rw [hreq, hm]
    exact h.prolog
  · rw [hm]
    exact h.deleting
  · rw [hm]
    exact h.vanished

/-- Once the workflow is gone, the service has seen its end. -/
theorem gone (h : Moving v) (hg : currentWorkflow v.versions = none) (hr : v.requested ≠ []) :
    seen v.versions = 6 := by
  by_cases hd : .deleted ∈ v.versions
  · exact h.deleting (h.vanished hd).1
  · have hsome := current_isSome (h.made hr) hd
    rw [hg] at hsome
    cases hsome

theorem get (h : Moving v) : Moving v.get := by
  have hmarks := v.ledger.marks_get
  cases hc : v.ledger.cache with
  | some ref =>
    have hsame : v.ledger.get = v.ledger := by
      unfold Ledger.get
      rw [hc]
      rfl
    unfold View.get
    rw [hsame]
    exact h
  | none =>
    refine h.withLedger hmarks (fun ht => ?_) (fun hs ref href => ?_) fun hv => ?_
    · rcases h.toredown ht with ⟨ref, href, -⟩ | hs
      · rw [hc] at href
        cases href
      · exact .inr hs
    · rw [Ledger.timers_get] at href
      have hcache := h.timers hs ref href
      rw [hc] at hcache
      cases hcache
    · rw [Ledger.timers_get]
      exact h.untimed hv

/-- The WorkflowInfo is forgotten when there is no workflow. -/
theorem forget (h : Moving v) (hg : currentWorkflow v.versions = none) : Moving v.forget := by
  refine h.withLedger rfl (fun ht => .inr (h.gone hg (List.ne_nil_of_mem ht))) (fun hs => ?_) h.untimed
  rw [hg] at hs
  cases hs

/-- Flags change, but no teardown is taken back. -/
theorem setFlags (h : Moving v) (ref : Nat) (f : Flags → Flags)
    (hf : (v.ledger.flags ref).toredown = true → (f (v.ledger.flags ref)).toredown = true) :
    Moving (v.setFlags ref f) := by
  refine h.withLedger rfl (fun ht => (h.toredown ht).imp_left fun ⟨r, hr, hflag⟩ => ⟨r, hr, ?_⟩) h.timers h.untimed
  by_cases hrr : r = ref
  · subst hrr
    rw [Ledger.flags_setFlags_self]
    exact hf hflag
  · rw [Ledger.flags_setFlags_ne _ _ hrr]
    exact hflag

theorem startTimers (h : Moving v) (n : Nat) {ref : Nat} (hc : v.ledger.cache = some ref)
    (hv : 0 < n → v.versions ≠ []) : Moving (v.startTimers n ref) := by
  refine h.withLedger rfl h.toredown (fun hs r hr => ?_) fun hnil => ?_
  · rcases List.mem_append.mp hr with hr | hr
    · exact h.timers hs r hr
    · rw [(List.mem_replicate.mp hr).2]
      exact hc
  · cases n with
    | zero =>
      show v.ledger.timers ++ [] = []
      rw [h.untimed hnil, List.append_nil]
    | succ n => exact absurd hnil (hv (Nat.succ_pos n))

/-- All that was asked for, and the versions, come before a state that comes after what
was asked for. -/
theorem versions_le (h : Moving v) {d : WorkflowState} (hle : ∀ x ∈ v.requested, x.rank ≤ d.rank) {w : Workflow}
    (hw : .workflow w ∈ v.versions) : w.desiredState.rank ≤ d.rank := by
  rcases h.asked w hw with hp | hr
  · rw [hp]
    exact Nat.zero_le _
  · exact hle _ hr

/-- The workflow is moved to a state that comes after all that was asked for. -/
theorem request (h : Moving v) {d : WorkflowState} (hd : Ready v d) (applied : Bool) :
    Moving (v.mark (.patchDesired d applied)) := by
  have hreq : (v.mark (.patchDesired d applied)).requested = v.requested ++ [d] := requested_mark v _
  have hold {x : WorkflowState} (hx : x ∈ v.requested ++ [d]) : x ∈ v.requested ∨ x = d :=
    (List.mem_append.mp hx).imp_right List.mem_singleton.mp
  -- the versions stay, or one with the new state is added to a workflow that exists
  have hver : (v.mark (.patchDesired d applied)).versions = v.versions ∨ ∃ w, currentWorkflow v.versions = some w ∧
      (v.mark (.patchDesired d applied)).versions = v.versions ++ [.workflow {w with desiredState := d}] :=
    version_patch d applied v.versions
  generalize hvs : (v.mark (.patchDesired d applied)).versions = versions at hver
  have hseen' : seen versions = seen v.versions := by
    rcases hver with rfl | ⟨w, -, rfl⟩
    · rfl
    · exact seen_append hd.made _
  have hne : versions ≠ [] := by
    rcases hver with rfl | ⟨w, -, rfl⟩
    · exact hd.made
    · simp
  have hcurrent : (currentWorkflow versions).isSome = true → (currentWorkflow v.versions).isSome = true := by
    rcases hver with rfl | ⟨w, hw, -⟩
    · exact id
    · exact fun _ => by rw [hw]; rfl
  refine ⟨?_, hvs ▸ ?_, hvs ▸ ?_, hvs ▸ ?_, hvs ▸ ?_, fun _ => hvs ▸ hne, fun _ => h.created hd.made, ?_, ?_, ?_, ?_,
    hvs ▸ ?_, fun hs => h.timers (hcurrent (hvs ▸ hs)), fun hnil => absurd (hvs ▸ hnil) hne⟩
  · rw [hreq, pairwise_append_singleton]
    exact ⟨h.sorted, hd.later⟩
  · rcases hver with rfl | ⟨w, hw, rfl⟩
    · exact h.ordered
    · refine pairwise_append_singleton.mpr ⟨h.ordered, fun x hx => ?_⟩
      cases x with
      | workflow w => exact h.versions_le hd.later hx
      | deleted => exact absurd ((h.vanished hx).2.symm.trans hw) (by simp)
  · rw [hreq]
    rcases hver with rfl | ⟨w, hw, rfl⟩
    · exact fun w hw => (h.asked w hw).imp_right (List.mem_append_left _)
    · refine fun x hx => (List.mem_append.mp hx).elim
        (fun hx => (h.asked x hx).imp_right (List.mem_append_left _)) fun hx => ?_
      rw [Snapshot.workflow.inj (List.mem_singleton.mp hx)]
      exact .inr (List.mem_append_right _ (List.mem_singleton.mpr rfl))
  · rw [hreq, hseen']
    intro x hx hne
    rcases hold hx with hx | rfl
    · exact h.ahead x hx hne
    · exact hd.next
  · rw [hreq, hseen']
    exact fun ht => h.toredown ((hold ht).resolve_right hd.ne.symm)
  · rw [hreq]
    exact fun x hx hne => (hold hx).elim (fun hx => h.setUp x hx hne) fun _ => hd.setUp
  · rw [hreq]
    intro hx
    rcases hx with hx | hx <;> rcases hold hx with hx | hx
    · exact h.ran (.inl hx)
    · exact hd.ran (.inl hx.symm)
    · exact h.ran (.inr hx)
    · exact hd.ran (.inr hx.symm)
  · rw [hreq, hvs, hseen']
    exact fun hp => (h.prolog (mem_of_mem_concat hp nofun)).imp_left (List.mem_append_left _)
  · rw [hvs, hseen']
    exact fun hm => h.deleting (mem_of_mem_concat hm nofun)
  · intro hx
    rcases hver with rfl | ⟨w, hw, rfl⟩
    · exact (h.vanished hx).imp_left (List.mem_append_left _)
    · have hmem : .deleted ∈ v.versions := by simpa using hx
      exact absurd ((h.vanished hmem).2.symm.trans hw) (by simp)

/-- The workflow is torn down, by the WorkflowInfo in the cache. -/
theorem tearDown (h : Moving v) {ref : Nat} (hc : v.ledger.cache = some ref) (hv : v.versions ≠ []) :
    Moving (v.tearDown ref) := by
  have hreq : (v.tearDown ref).requested = v.requested ++ [.teardown] := requested_mark v _
  refine ⟨?_, h.ordered, ?_, ?_, fun _ => .inl ⟨ref, hc, ?_⟩, fun _ => hv, h.created, ?_, ?_, fun hp => ?_,
    fun hm => h.deleting (mem_of_mem_concat hm nofun),
    fun hm => (h.vanished hm).imp_left (List.mem_append_left _), h.timers,
    h.untimed⟩
  · rw [hreq, pairwise_append_singleton]
    exact ⟨h.sorted, fun d _ => d.rank_le⟩
  · rw [hreq]
    exact fun w hw => (h.asked w hw).imp_right (List.mem_append_left _)
  · rw [hreq]
    exact fun d hd hne => h.ahead d (mem_of_mem_concat hd hne) hne
  · exact congrArg Flags.toredown
      ((v.ledger.mark .teardownWorkflow).flags_setFlags_self ref fun f => {f with toredown := true})
  · rw [hreq]
    exact fun d hd hne => h.setUp d (mem_of_mem_concat hd hne) hne
  · rw [hreq]
    refine fun hr => h.ran ?_
    rcases hr with hr | hr
    · exact .inl (mem_of_mem_concat hr nofun)
    · exact .inr (mem_of_mem_concat hr nofun)
  · rw [hreq]
    exact (h.prolog (mem_of_mem_concat hp nofun)).imp_left (List.mem_append_left _)

/-- A version of the workflow that is not before the last one, or its end. -/
theorem append (h : Moving v) (x : Snapshot) (hs : (currentWorkflow v.versions).isSome = true)
    (hle : ∀ y ∈ v.versions, y.rank ≤ x.rank)
    (hw : ∀ w, x = .workflow w → w.desiredState = .proposal ∨ w.desiredState ∈ v.requested)
    (hd : x = .deleted → .deleteWorkflow ∈ v.ledger.marks) : Moving {v with versions := v.versions ++ [x]} := by
  have hne := ne_nil_of_current hs
  have hseen : seen (v.versions ++ [x]) = seen v.versions := seen_append hne [x]
  have hmem {y : Snapshot} (hy : y ∈ v.versions ++ [x]) : y ∈ v.versions ∨ y = x :=
    (List.mem_append.mp hy).imp_right List.mem_singleton.mp
  refine ⟨h.sorted, pairwise_append_singleton.mpr ⟨h.ordered, hle⟩, fun w hmemw => ?_, hseen ▸ h.ahead,
    hseen ▸ h.toredown, fun _ => by simp, fun _ => h.created hne, h.setUp, h.ran, hseen ▸ h.prolog,
    hseen ▸ h.deleting, fun hmemd => ?_, fun _ => h.timers hs, fun hnil => absurd hnil (by simp)⟩
  · rcases hmem hmemw with hold | hx
    · exact h.asked w hold
    · exact hw w hx.symm
  · rcases hmem hmemd with hold | rfl
    · exact absurd ((h.vanished hold).2 ▸ hs) (by simp)
    · exact ⟨hd rfl, current_append v.versions .deleted⟩

/-- No version is before an earlier one. -/
theorem rank_le_current (h : Moving v) {w : Workflow} (hw : currentWorkflow v.versions = some w) {x : Snapshot}
    (hx : x ∈ v.versions) : x.rank ≤ w.desiredState.rank := by
  obtain ⟨l, hl⟩ := exists_append_of_current hw
  have hordered := h.ordered
  rw [hl] at hx hordered
  rcases List.mem_append.mp hx with hx | hx
  · exact (pairwise_append_singleton.mp hordered).2 x hx
  · rw [List.mem_singleton.mp hx]
    exact Nat.le_refl _

/-- The watch goes on to a version, which the service has then seen. -/
theorem seen_drop (h : Moving v) {n : Nat} {event : Snapshot} (hn : v.versions[n]? = some event) :
    seen (v.versions.drop n) = event.rank ∧ seen v.versions ≤ event.rank := by
  constructor
  · rw [drop_event hn]
    rfl
  · cases n with
    | zero =>
      rw [seen, List.head?_eq_getElem?, hn]
      exact Nat.le_refl _
    | succ n =>
      cases hv : v.versions with
      | nil =>
        rw [hv] at hn
        cases hn
      | cons x rest =>
        have hordered := h.ordered
        rw [hv] at hn hordered
        exact (List.pairwise_cons.mp hordered).1 event (List.mem_of_getElem? hn)

theorem advance (h : Moving v) {n : Nat} {event : Snapshot} (hn : v.versions[n]? = some event) :
    Moving {v with versions := v.versions.drop n} := by
  obtain ⟨hseen, hle⟩ := h.seen_drop hn
  have hne := drop_ne_nil hn
  have hold : v.versions ≠ [] := List.ne_nil_of_mem (List.mem_of_getElem? hn)
  have hcurrent := current_drop hn
  have hsix (hs : seen v.versions = 6) : event.rank = 6 := Nat.le_antisymm event.rank_le (hs ▸ hle)
  refine ⟨h.sorted, h.ordered.sublist (List.drop_sublist n _), fun w hw => h.asked w (List.mem_of_mem_drop hw),
    fun d hd hdne => ?_, fun ht => ?_, fun _ => hne, fun _ => h.created hold, h.setUp, h.ran, fun hp => ?_,
    fun hm => ?_, fun hd => ?_, fun hs => h.timers (hcurrent ▸ hs), fun hnil => absurd hnil hne⟩
  · have hahead := h.ahead d hd hdne
    show d.rank ≤ seen (v.versions.drop n) + 1
    omega
  · exact (h.toredown ht).imp_right fun hs => hseen.trans (hsix hs)
  · obtain ⟨hr, hp⟩ := h.prolog hp
    refine ⟨hr, ?_⟩
    show 3 ≤ seen (v.versions.drop n)
    omega
  · exact hseen.trans (hsix (h.deleting hm))
  · obtain ⟨hm, hnone⟩ := h.vanished (List.mem_of_mem_drop hd)
    exact ⟨hm, hcurrent.trans hnone⟩

/-! ### The workflow is made -/

theorem requested_eq_nil (h : Moving v) (hv : v.versions = []) : v.requested = [] := by
  by_contra hr
  exact h.made hr hv

/-- A workflow is made when there has been none. -/
theorem create (h : Moving v) (hv : v.versions = []) (hs : v.job.state ≠ .new)
    (hr : v.rpcs.countP Rpc.isCreate = 0) : Moving (v.mark .created) := by
  have hnone : (v.mark .created).requested = [] := by
    rw [requested_mark, h.requested_eq_nil hv]
    rfl
  have hversions : (v.mark .created).versions =
      [.workflow {desiredState := .proposal, state := none, ready := false}] :=
    congrArg (· ++ _) hv
  have hno {d : WorkflowState} (hd : d ∈ (v.mark .created).requested) : False := by
    rw [hnone] at hd
    cases hd
  refine ⟨?_, ?_, fun w hw => .inl ?_, fun d hd => (hno hd).elim, fun hd => (hno hd).elim,
    fun hne => absurd hnone hne, fun _ => ⟨hs, hr⟩, fun d hd => (hno hd).elim,
    fun hd => (hd.elim hno hno).elim, fun hp => ?_, fun hm => ?_, fun hd => ?_, fun _ ref href => ?_, fun _ => ?_⟩
  · rw [hnone]
    exact .nil
  · rw [hversions]
    exact List.pairwise_singleton _ _
  · rw [hversions] at hw
    rw [Snapshot.workflow.inj (List.mem_singleton.mp hw)]
  · have hrequested := (h.prolog (mem_of_mem_concat hp nofun)).1
    rw [h.requested_eq_nil hv] at hrequested
    cases hrequested
  · have hseen := h.deleting (mem_of_mem_concat hm nofun)
    rw [hv] at hseen
    cases hseen
  · rw [hversions] at hd
    cases List.mem_singleton.mp hd
  · rw [show (v.mark .created).ledger.timers = [] from h.untimed hv] at href
    cases href
  · exact h.untimed hv

/-- A WorkflowInfo for a workflow that has been made just now. -/
theorem add (h : Moving v) (hr : v.requested = []) (ht : v.ledger.timers = []) : Moving v.add := by
  refine h.withLedger rfl (fun hm => ?_) (fun _ ref href => ?_) fun _ => ht
  · rw [hr] at hm
    cases hm
  · rw [show v.ledger.add.timers = [] from ht] at href
    cases href

/-- Requests are taken out of flight. -/
theorem serve (h : Moving v) {rpcs : List Rpc} (hr : rpcs.Sublist v.rpcs) (replies answered : List Reply) :
    Moving {v with rpcs := rpcs, replies := replies, answered := answered} := by
  have hzero {p : Rpc → Bool} (hp : v.rpcs.countP p = 0) : rpcs.countP p = 0 := countP_eq_zero_of_sublist hr hp
  exact ⟨h.sorted, h.ordered, h.asked, h.ahead, h.toredown, h.made, fun hv => (h.created hv).imp_right hzero,
    fun d hd hne => (h.setUp d hd hne).imp_right hzero, fun hd => (h.ran hd).imp_right hzero, h.prolog, h.deleting,
    h.vanished, h.timers, h.untimed⟩

/-- An event of the job. A request is sent once, so none of those that were served. -/
theorem event (h : Moving v) (ha : Asking v) {timeout : Bool} {e : Event}
    (he : e.isMessage = false → e.Enabled v.job) {removes : List Remove} {replies : List Reply} {looked : Bool}
    (hlooked : v.looked = true → looked = true) (hfetch : ∀ R c s, e = .fetchR R c s → v.looked = false) :
    Moving (View.event timeout {v with removes := removes, replies := replies, looked := looked} e) := by
  refine ⟨h.sorted, h.ordered, h.asked, h.ahead, h.toredown, h.made, fun hv => ?_, fun d hd hne => ?_,
    fun hd => ?_, h.prolog, h.deleting, h.vanished, h.timers, h.untimed⟩
  · exact uncreated_apply he (h.created hv)
  · obtain ⟨hl, hzero⟩ := h.setUp d hd hne
    exact ⟨hlooked hl, countP_setups_sent hzero fun R c s he => absurd (hl.symm.trans (hfetch R c s he)) (by decide)⟩
  · obtain ⟨hactive, hzero⟩ := h.ran hd
    exact ⟨active_apply hactive, countP_postRuns_sent hzero ha.once he hactive⟩

/-! ### What a callback does -/

theorem checked {o : Outcomes} {ref : Nat} {l l' : Ledger} {ok : Bool} (h : Moving (v.absorb l))
    (hc : Checked o ref l ok l') (hf : o.found = (currentWorkflow (v.absorb l).versions).isSome)
    (hcache : o.found = true → l.cache = some ref) : Moving (v.absorb l') := by
  cases hc with
  | failed => exact h
  | tornDown hfound =>
    rw [View.absorb_tearDown]
    exact h.tearDown (hcache hfound) (ne_nil_of_current (hf.symm.trans hfound))
  | released hfound =>
    rw [View.absorb_mark, View.absorb_forget]
    have hgone : currentWorkflow (v.absorb l).versions = none := by
      rw [← Option.not_isSome_iff_eq_none, ← hf, hfound]
      exact Bool.false_ne_true
    exact (h.forget hgone).log .epilogRemove rfl rfl nofun nofun

theorem release {l : Ledger} (h : Moving (v.absorb l)) (ref : Nat) :
    Moving (v.absorb (l.release ref)) ∧ (v.absorb (l.release ref)).versions = (v.absorb l).versions := by
  unfold Ledger.release
  split
  · exact ⟨h, rfl⟩
  · rw [View.absorb_mark]
    exact ⟨h.log .epilogRemove rfl rfl nofun nofun, rfl⟩

/-- A request to move the workflow, with the timers it starts. -/
theorem moved {o : Outcomes} {d : WorkflowState} {ref : Nat} {l l' : Ledger} (h : Moving (v.absorb l))
    (hm : Moved o d ref l l') (hc : l.cache = some ref) (hd : Ready (v.absorb l) d) : Moving (v.absorb l') := by
  obtain ⟨n, rfl, -⟩ := hm
  rw [View.absorb_startTimers, View.absorb_mark]
  exact (h.request hd o.applies).startTimers n hc fun _ => (Out.patchDesired d o.applies).version_ne_nil hd.made

/-- What the service does about the version it has seen last. -/
theorem handled {o : Outcomes} {workflow : Workflow} {ref : Nat} {l l' : Ledger} (h : Moving (v.absorb l))
    (hh : Handled o workflow ref l l') (hc : l.cache = some ref)
    (hseen : seen (v.absorb l).versions = workflow.desiredState.rank)
    (hw : .workflow workflow ∈ (v.absorb l).versions) : Moving (v.absorb l') := by
  have hne : (v.absorb l).versions ≠ [] := List.ne_nil_of_mem hw
  cases hh with
  | nothing => exact h
  | released hs hd => exact (h.release ref).1
  | deleted hs hd =>
    obtain ⟨hrelease, hversions⟩ := h.release ref
    rw [View.absorb_setFlags, View.absorb_mark]
    refine (hrelease.log .deleteWorkflow rfl rfl nofun fun _ => ?_).setFlags ref _ id
    rw [hversions, hseen, desiredState_of_complete hs]
    rfl
  | moved hs hnext ht hm =>
    rename_i state d
    have hstate := desiredState_of_complete hs
    obtain ⟨hrank, hlt, hproposal, hpostRun, hdataOut⟩ := WorkflowState.next_spec hnext
    rw [hstate] at hseen
    have hmem : state ∈ (v.absorb l).requested := by
      rw [← hstate] at hproposal ⊢
      exact (h.asked workflow hw).resolve_left hproposal
    have htorn : .teardown ∉ (v.absorb l).requested := by
      intro htorn
      rcases h.toredown htorn with ⟨r, hr, hflag⟩ | hsix
      · have hrr : r = ref := Option.some.inj (hr.symm.trans hc)
        subst hrr
        exact absurd (ht.symm.trans hflag) (by decide)
      · omega
    have hsetUp := h.setUp state hmem fun hst => htorn (hst ▸ hmem)
    refine h.moved hm hc
      ⟨fun x hx => ?_, WorkflowState.next_ne_teardown hnext, by omega, hne, hsetUp, fun hd => ?_⟩
    · have hahead := h.ahead x hx fun hxt => htorn (hxt ▸ hx)
      omega
    · exact h.ran (.inl (hdataOut (hd.resolve_left hpostRun) ▸ hmem))
  | prologRemoved hs ht =>
    rw [View.absorb_mark]
    have hstate := desiredState_of_complete hs
    refine h.log .prologRemove rfl rfl (fun _ => ⟨?_, ?_⟩) nofun
    · have hasked := h.asked workflow hw
      rw [hstate] at hasked
      exact hasked.resolve_left nofun
    · rw [hseen, hstate]
      exact Nat.le_refl 3
  | tornDown hs ht =>
    rw [View.absorb_tearDown]
    exact h.tearDown hc hne

/-- An event of the watch, when it is the version the service has seen last. -/
theorem noted {o : Outcomes} {l : Ledger} {event : Snapshot} (h : Moving v) (hn : Noted o v.ledger.fresh event l)
    (hseen : seen v.versions = event.rank) (hmem : event ∈ v.versions) : Moving (v.absorb l) := by
  have hget := v.absorb_fresh_get
  have hmoving : Moving (v.absorb v.ledger.fresh.get) := by
    rw [hget]
    exact h.get
  have hcache := v.ledger.fresh.cache_get
  cases hn with
  | unread =>
    rw [View.absorb_fresh]
    exact h
  | forgotten =>
    rw [View.absorb_forget, hget]
    exact h.get.forget (h.vanished hmem).2
  | handled hh => exact hmoving.handled hh hcache (hget ▸ hseen) (hget ▸ hmem)
  | failed hh =>
    rw [View.absorb_tearDown]
    exact (hmoving.handled hh hcache (hget ▸ hseen) (hget ▸ hmem)).tearDown (hh.cache.trans hcache)
      (v.absorb_versions_ne_nil _ (List.ne_nil_of_mem hmem))

/-! ### What a request does -/

/-- While the setup request is in flight, nothing but Teardown has been asked for. -/
theorem eq_teardown (h : Moving v) {nodelist : List String} (hr : .setup nodelist ∈ v.rpcs) {d : WorkflowState}
    (hd : d ∈ v.requested) : d = .teardown := by
  by_contra hne
  exact countP_ne_zero hr rfl (h.setUp d hd hne).2

/-- The tasks have run when the end of them is reported: the service has released the prolog. -/
theorem preRun_of_postRun (h : Moving v) (ha : Asking v) (hr : .postRun true ∈ v.rpcs) :
    .preRun ∈ v.requested ∧ 3 ≤ seen v.versions :=
  h.prolog (ha.prolog_of_postRun hr)

theorem requested {cfg : Config} {o : Outcomes} {r : Rpc} {ok : Bool} {l : Ledger} (h : Moving v)
    (hf : o.found = (currentWorkflow v.versions).isSome)
    (hcreate : ∀ t, r = .create t → o.found = false →
      v.versions = [] ∧ v.job.state ≠ .new ∧ v.rpcs.countP Rpc.isCreate = 0)
    (hsetup : ∀ nodelist, r = .setup nodelist → o.reachesSetup cfg nodelist = true → Ready v .setup)
    (hpostRun : r = .postRun true →
      (v.ledger.fresh.get.flags v.ledger.fresh.getRef).toredown = false → Ready v .postRun)
    (hl : Requested cfg o v.ledger.fresh ok l r) : Moving (v.absorb l) := by
  have hget := v.absorb_fresh_get
  have hmoving : Moving (v.absorb v.ledger.fresh.get) := hget ▸ h.get
  have hcache := v.ledger.fresh.cache_get
  cases r with
  | create failureTolerance =>
    rcases hl with rfl | ⟨hfound, rfl | rfl⟩
    · rw [View.absorb_fresh]
      exact h
    · obtain ⟨hv, hs, hr⟩ := hcreate _ rfl hfound
      rw [View.absorb_mark, View.absorb_fresh]
      exact h.create hv hs hr
    · obtain ⟨hv, hs, hr⟩ := hcreate _ rfl hfound
      rw [View.absorb_add, View.absorb_mark, View.absorb_fresh]
      refine (h.create hv hs hr).add ?_ (h.untimed hv)
      rw [requested_mark, h.requested_eq_nil hv]
      rfl
  | setup nodelist =>
    rcases hl with ⟨hreach, hm⟩ | ⟨-, rfl⟩
    · exact hmoving.moved hm hcache (hget ▸ (hsetup nodelist rfl hreach).get)
    · rw [View.absorb_fresh]
      exact h
  | postRun runStarted =>
    dsimp only [Requested] at hl
    cases ht : (v.ledger.fresh.get.flags v.ledger.fresh.getRef).toredown with
    | true =>
      rw [ht, if_pos rfl] at hl
      obtain ⟨-, rfl⟩ := hl
      exact hmoving
    | false =>
      rw [ht, if_neg Bool.false_ne_true] at hl
      cases runStarted with
      | true => exact hmoving.moved hl.2 hcache (hget ▸ (hpostRun rfl ht).get)
      | false => exact hmoving.checked hl (hget ▸ hf) fun _ => hcache
  | teardown =>
    rcases hl with ⟨-, rfl⟩ | ⟨_, hc⟩
    · exact hmoving
    · exact hmoving.checked hc (hget ▸ hf) fun _ => hcache
  | abort =>
    have habort : v.absorb v.ledger.fresh.abort =
        v.get.setFlags v.ledger.fresh.getRef fun f => {f with epilogRemoved := true} := by
      unfold Ledger.abort
      rw [View.absorb_setFlags, hget]
    have hmoving : Moving (v.absorb v.ledger.fresh.abort) := by
      rw [habort]
      exact h.get.setFlags _ _ id
    rcases hl with ⟨-, rfl⟩ | ⟨_, hc⟩
    · exact hmoving
    · exact hmoving.checked hc (habort ▸ hf) fun _ => hcache

end Moving

/-! ### The result -/

/-- A request that gets past the events of the workflow finds it where it belongs:
`dws.setup` gets as far as the patch only when Teardown has not been asked for, and the end
of the tasks is reported while a teardown that was asked for is on record. -/
def InOrder (cfg : Config) (s : System) : Action → Prop
  | .serve (.setup nodelist) o => o.reachesSetup cfg nodelist = true → .teardown ∉ s.requested
  | .serve (.postRun true) _ => .teardown ∈ s.requested →
      ∃ ref ∈ s.service.cache, (s.service.winfos ref).toredown = true
  | _ => True

/-- What is asked for when the requests in flight are those of `Asking`. -/
structure Asked (v : View) : Prop where
  asking : Asking v
  moving : Moving v

theorem Asked.ready_setup {v : View} (h : Asked v) {nodelist : List String} (hr : .setup nodelist ∈ v.rpcs)
    (hv : v.versions ≠ []) (ht : .teardown ∉ v.requested) (replies answered : List Reply) :
    Ready {v with rpcs := v.rpcs.erase (.setup nodelist), replies := replies, answered := answered} .setup := by
  refine ⟨fun x hx => ?_, nofun, Nat.le_add_left 1 _, hv, ⟨h.asking.looked_of_setup hr, ?_⟩, nofun⟩
  · exact absurd (h.moving.eq_teardown hr hx ▸ hx) ht
  · exact countP_erase_eq_zero hr rfl h.asking.setups

theorem Asked.ready_postRun {v : View} (h : Asked v) (hr : .postRun true ∈ v.rpcs)
    (ht : .teardown ∉ v.requested) (replies answered : List Reply) :
    Ready {v with rpcs := v.rpcs.erase (.postRun true), replies := replies, answered := answered} .postRun := by
  obtain ⟨hpreRun, hseen⟩ := h.moving.preRun_of_postRun h.asking hr
  obtain ⟨hlooked, hsetups⟩ := h.moving.setUp .preRun hpreRun nofun
  refine ⟨fun x hx => ?_, nofun, Nat.succ_le_succ hseen, h.moving.made (List.ne_nil_of_mem hpreRun),
    ⟨hlooked, countP_eq_zero_of_sublist List.erase_sublist hsetups⟩,
    fun _ => ⟨h.asking.active_of_postRun hr, countP_erase_eq_zero hr rfl h.asking.postRuns⟩⟩
  cases x with
  | teardown => exact absurd hx ht
  | dataOut => exact absurd (h.moving.ran (.inr hx)).2 (countP_ne_zero hr rfl)
  | _ => decide

theorem asked_step {cfg : Config} {timeout : Bool} {v v' : View} {a : Action} (h : Asked v)
    (hs : View.Step cfg timeout v a v')
    (hsetup : ∀ nodelist o, a = .serve (.setup nodelist) o → o.reachesSetup cfg nodelist = true →
      .teardown ∉ v.requested)
    (hpostRun : ∀ o, a = .serve (.postRun true) o → .teardown ∈ v.requested →
      ∃ ref ∈ v.ledger.cache, (v.ledger.flags ref).toredown = true) : Asked v' := by
  refine ⟨asking_step h.asking hs, ?_⟩
  obtain ⟨ha, h'⟩ := h
  cases hs with
  | job hm he =>
    refine h'.event ha (fun _ => he) id fun R c s hf => ?_
    subst hf
    cases hm
  | lookup R calloc setup hl => exact h'.event ha (Event.enabled_of_message rfl) (fun _ => rfl) fun _ _ _ _ => hl
  | reply hm he =>
    obtain ⟨hmsg, hfetch, -⟩ := Reply.event_spec he
    exact h'.event ha (Event.enabled_of_message hmsg) id fun R c s hf => absurd hf (hfetch R c s)
  | unread hm he =>
    exact ⟨h'.sorted, h'.ordered, h'.asked, h'.ahead, h'.toredown, h'.made, h'.created, h'.setUp, h'.ran, h'.prolog,
      h'.deleting, h'.vanished, h'.timers, h'.untimed⟩
  | remove hr =>
    rename_i r
    cases r <;> exact h'.event ha (Event.enabled_of_message rfl) id nofun
  | serve hr hf hl =>
    rename_i r o ok l
    refine (h'.serve List.erase_sublist _ _).requested hf ?_ ?_ ?_ hl
    · rintro t rfl -
      refine ⟨?_, fun hs => countP_ne_zero hr rfl (ha.new hs), countP_erase_eq_zero hr rfl ha.creates⟩
      by_contra hv
      exact countP_ne_zero hr rfl (h'.created hv).2
    · rintro nodelist rfl hreach
      have hv := ne_nil_of_current (hf.symm.trans (Outcomes.found_of_reachesSetup hreach))
      exact Asked.ready_setup ⟨ha, h'⟩ hr hv (hsetup nodelist o rfl hreach) _ _
    · rintro rfl hfalse
      refine Asked.ready_postRun ⟨ha, h'⟩ hr (fun ht => ?_) _ _
      obtain ⟨ref, hc, hflag⟩ := hpostRun o rfl ht
      have hget := congrArg Flags.toredown (Ledger.flags_getRef (l := v.ledger.fresh) hc)
      exact absurd (hfalse.symm.trans (hget.trans hflag)) (by decide)
  | watch hn hf hl =>
    refine (h'.advance hn).noted hl (h'.seen_drop hn).1 ?_
    exact drop_event hn ▸ List.mem_cons_self
  | timer href hf hl =>
    rcases hl with rfl | ⟨ok, hl⟩
    · rw [View.absorb_fresh]
      exact h'
    · have hfresh := v.absorb_fresh
      exact Moving.checked (hfresh.symm ▸ h') hl (hfresh.symm ▸ hf)
        fun hfound => h'.timers (hf.symm.trans hfound) _ href
  | killInTc hl =>
    rcases hl with rfl | rfl
    · rw [View.absorb_fresh]
      exact h'
    · rw [View.absorb_get, View.absorb_fresh]
      exact h'.get
  | status hw hd =>
    rename_i w workflow
    refine h'.append _ (hw ▸ rfl) (fun y hy => ?_) (fun x hx => ?_) nofun
    · rw [Snapshot.rank, hd]
      exact h'.rank_le_current hw hy
    · rw [← Snapshot.workflow.inj hx, hd]
      exact h'.asked w (mem_of_current hw)
  | teardown hm hw =>
    refine h'.append _ (hw ▸ rfl) (fun y _ => y.rank_le) (fun x hx => .inr ?_) nofun
    rw [← Snapshot.workflow.inj hx]
    exact List.mem_filterMap.mpr ⟨_, hm, rfl⟩
  | vanish hm hw => exact h'.append _ hw (fun y _ => y.rank_le) (fun _ => nofun) fun _ => hm

theorem asked_next {cfg : Config} {s : System} {a : Action} (timeout : Bool) (h : Asked s.view) (he : a.Enabled s)
    (hc : InOrder cfg s a) : Asked (a.next cfg timeout s).view := by
  refine asked_step h (view_next cfg timeout s a he) ?_ ?_
  · rintro nodelist o rfl
    rw [requested_view]
    exact hc
  · rintro o rfl
    rw [requested_view]
    exact hc

/-- What a request to move the workflow asks for comes after what was asked for, when it moves it forward. -/
theorem later_of_moved {o : Outcomes} {d : WorkflowState} {ref : Nat} {l l' : Ledger} {v : View}
    (hm : Moved o d ref l l') (h : (v.absorb l').requested.Pairwise fun a b => a.rank ≤ b.rank)
    (ht : .teardown ∈ (v.absorb l).requested) : d = .teardown := by
  obtain ⟨n, rfl, -⟩ := hm
  rw [View.absorb_startTimers, View.absorb_mark] at h
  have hreq := requested_mark (v.absorb l) (.patchDesired d o.applies)
  have hle := (pairwise_append_singleton.mp (hreq ▸ h)).2 _ ht
  exact WorkflowState.rank_eq_six (Nat.le_antisymm d.rank_le hle)

/-- A request that moves the workflow forward comes in order. -/
theorem inOrder_of_forward {cfg : Config} {timeout : Bool} {s : System} {a : Action} (he : a.Enabled s)
    (h : (a.next cfg timeout s).Forward) : InOrder cfg s a := by
  unfold System.Forward at h
  rw [← requested_view] at h
  have hs := view_next cfg timeout s a he
  generalize (a.next cfg timeout s).view = v' at h hs
  cases hs with
  | serve hr hf hl =>
    rename_i r o ok l
    have hcontra {d : WorkflowState} (hm : Moved o d s.view.ledger.fresh.getRef s.view.ledger.fresh.get l)
        (ht : .teardown ∈ s.requested) : d = .teardown := by
      refine later_of_moved hm h ?_
      rw [← requested_view, ← View.requested_get, ← View.absorb_fresh_get] at ht
      exact ht
    cases r with
    | setup nodelist =>
      intro hreach ht
      rcases hl with ⟨-, hm⟩ | ⟨hno, -⟩
      · exact absurd (hcontra hm ht) (by decide)
      · exact absurd (hreach.symm.trans hno) (by decide)
    | postRun runStarted =>
      cases runStarted with
      | false => trivial
      | true =>
        intro ht
        by_contra hno
        dsimp only [Requested] at hl
        rw [if_neg ?_] at hl
        · exact absurd (hcontra hl.2 ht) (by decide)
        · exact fun hflag => hno (Ledger.toredown_of_get hflag)
    | _ => trivial
  | _ => trivial

/-- **The desired states move forward** in a run exactly when the two requests of the plugin
that get past the events of the workflow come in order. -/
theorem forward_iff_in_order (cfg : Config) (timeout : Bool) {actions : List Action}
    (h : (systemMachine cfg timeout).Possible (systemMachine cfg timeout).init actions) :
    (systemMachine cfg timeout).Always System.Forward (systemMachine cfg timeout).init actions ↔
      (systemMachine cfg timeout).Legal (InOrder cfg) (systemMachine cfg timeout).init actions := by
  refine Machine.always_iff_legal (fun s => Asked s.view) (fun s a hs he hc => asked_next timeout hs he hc)
    (fun s a hs _ he => ⟨inOrder_of_forward he, fun hc => ?_⟩) ⟨asking_init, moving_init⟩ .nil h
  unfold System.Forward
  rw [← requested_view]
  exact (asked_next timeout hs he hc).moving.sorted

instance (s : System) : Decidable s.Forward := inferInstanceAs (Decidable (List.Pairwise _ _))

instance (cfg : Config) (s : System) (a : Action) : Decidable (InOrder cfg s a) := by
  unfold InOrder
  split
  · infer_instance
  · cases s.service.cache <;> simp only [Option.mem_def] <;> infer_instance
  · infer_instance

/-- R is looked up until the job has had an exception and its workflow is being torn down. -/
def lookedUpLate : List Action :=
  [.job (.depend 0 .ok), .serve (.create 0) {found := false}, .reply ⟨.create 0, true⟩,
    .status (complete .proposal), .watch 1 {}, .job (.run {}), .job (.exception 0 (some "cancel") true),
    .job (.cleanupCb {}), .serve (.postRun false) {}, .lookup (some ["node1"]) true .ok, .serve (.setup ["node1"]) {}]

set_option maxRecDepth 4000 in
theorem lookedUpLate_back :
    (systemMachine nodeConfig false).Possible (systemMachine nodeConfig false).init lookedUpLate ∧
      ¬ (systemMachine nodeConfig false).Always System.Forward (systemMachine nodeConfig false).init
        lookedUpLate := by
  refine ⟨by decide, fun h => absurd h.last (by decide)⟩

set_option maxRecDepth 4000 in
theorem completed_forward : (systemMachine nodeConfig false).Always System.Forward
    (systemMachine nodeConfig false).init completed :=
  (forward_iff_in_order nodeConfig false (by decide)).mpr (by decide)

end FluxCoral2.Dws
