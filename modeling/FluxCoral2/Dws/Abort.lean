import Mathlib.Data.List.Count
import FluxCoral2.Dws.Existence

/-! After an abort.

`dws.abort` comes when the plugin has given up on the epilog, and its callback notes that
there is nothing more to release. The note is on the WorkflowInfo of the job, and one of
the two places that ask for the release does not look at it: without a workflow object,
`check_existence_and_move_to_teardown` asks again, and drops the note with the WorkflowInfo
(`gaveUpEarly_released`). `silent_after_abort`: this is all that can go wrong. -/
namespace FluxCoral2.Dws
open Library Jobtap

variable {cfg : Config} {o : Outcomes}

/-! ### Callbacks that see whether the workflow exists -/

/-- Requests that move the workflow to Teardown, unless that was done before. -/
def Jobtap.Rpc.checks : Rpc → Bool
  | .postRun runStarted => !runStarted
  | .teardown => true
  | .abort => true
  | _ => false

/-- Actions after which the service may look for the workflow. -/
def Action.looks : Action → Bool
  | .serve _ _ => true
  | .timer _ _ => true
  | _ => false

/-- What such a request does before it looks. -/
def Ledger.begin (r : Rpc) (l : Ledger) : Ledger :=
  match r with
  | .abort => l.abort
  | _ => l.get

@[simp] theorem Ledger.marks_begin (r : Rpc) (l : Ledger) : (l.begin r).marks = l.marks := by
  cases r <;> exact l.marks_get

theorem Ledger.toredown_begin (r : Rpc) (l : Ledger) :
    ((l.begin r).flags l.getRef).toredown = (l.get.flags l.getRef).toredown := by
  cases r with
  | abort =>
    show ((l.get.setFlags l.getRef fun f => {f with epilogRemoved := true}).flags l.getRef).toredown = _
    rw [Ledger.flags_setFlags_self]
  | _ => rfl

theorem Moved.marks {d : WorkflowState} {ref : Nat} {l l' : Ledger} (h : Moved o d ref l l') :
    l'.marks = l.marks ++ [.patchDesired d o.applies] := by
  obtain ⟨n, rfl, -⟩ := h
  rfl

/-- What such a request does when it has looked. -/
inductive Tidied (o : Outcomes) (ref : Nat) (l : Ledger) : Ledger → Prop
  | done (ht : (l.flags ref).toredown = true) : Tidied o ref l l
  | failed (hf : o.found = true) : Tidied o ref l l
  | tornDown (hf : o.found = true) : Tidied o ref l (l.tearDown ref)
  | released (ht : (l.flags ref).toredown = false) (hf : o.found = false) : Tidied o ref l (l.forget.mark .epilogRemove)

theorem Tidied.of_checked {ref : Nat} {l l' : Ledger} {ok : Bool} (hf : o.found = true) (h : Checked o ref l ok l') :
    Tidied o ref l l' := by
  cases h with
  | failed => exact .failed hf
  | tornDown hf => exact .tornDown hf
  | released hfalse => exact absurd (hf.symm.trans hfalse) (by decide)

theorem Tidied.of_tornDown {ref : Nat} {c c' : Clock} {ok : Bool} (hc : c.ledger.cache.isSome = true)
    (h : c.TornDown o ref ok c') : Tidied o ref c.ledger c'.ledger := by
  cases h with
  | before ht => exact .done ht
  | now ht h =>
    cases h with
    | failed h =>
      refine .failed (h.resolve_right fun hnone => ?_)
      rw [hnone] at hc
      cases hc
    | tornDown hf =>
      rw [Clock.ledger_tearDown]
      exact .tornDown hf
    | released hf => exact .released ht hf

/-- With the flag of the WorkflowInfo, such a request looks for the workflow or does not. -/
theorem Tidied.of_requested {r : Rpc} {c c' : Clock} {ok : Bool} (hr : r.checks = true)
    (h : c.Requested cfg o ok c' r) : Tidied o c.ledger.getRef (c.ledger.begin r) c'.ledger := by
  have hget {ok : Bool} (h : c.get.TornDown o c.ledger.getRef ok c') :
      Tidied o c.ledger.getRef c.ledger.get c'.ledger := by
    rw [← c.ledger_get]
    refine .of_tornDown ?_ h
    rw [c.ledger_get, Ledger.cache_get]
    rfl
  cases r with
  | create failureTolerance => cases hr
  | setup nodelist => cases hr
  | postRun runStarted =>
    cases runStarted with
    | true => cases hr
    | false => exact hget h
  | teardown => exact hget h
  | abort =>
    obtain ⟨ok, h⟩ := h
    show Tidied o c.ledger.getRef c.ledger.abort c'.ledger
    rw [← c.ledger_abort]
    refine .of_tornDown ?_ h
    rw [Clock.abort, Clock.ledger_setFlags, c.ledger_get]
    show c.ledger.get.cache.isSome = true
    rw [Ledger.cache_get]
    rfl

theorem view_serve_checks (cfg : Config) (timeout : Bool) (s : System) {r : Rpc} (hr : r.checks = true) (ho : o.Sound) :
    ∃ ok l, Tidied o s.view.ledger.fresh.getRef (s.view.ledger.fresh.begin r) l ∧
      (Action.next cfg timeout s (.serve r o)).view = View.absorb {s.view with
        rpcs := s.view.rpcs.erase r
        replies := s.view.replies ++ [Reply.mk r ok]
        answered := s.view.answered ++ [Reply.mk r ok]} l := by
  obtain ⟨ok, c, hc, hv⟩ := view_serve cfg timeout s ho
  exact ⟨ok, c.ledger, .of_requested hr hc, hv⟩

/-- A timer that guards no state at the end of the job. -/
theorem Clock.Fired.quiet {timer : Timer} {i : Nat} {c c' : Clock} (h : c.Fired o timer i c')
    (hk : timer.kind.tearsDown = false) : c'.ledger = c.ledger := by
  rw [Fired, hk] at h
  exact h ▸ c.ledger_stop i

/-- The other timers, when there is no workflow. -/
theorem Clock.Fired.missing {timer : Timer} {i : Nat} {c c' : Clock} (h : c.Fired o timer i c')
    (hk : timer.kind.tearsDown = true) (hf : o.found = false) :
    c'.ledger = if c.ledger.cache.isSome then c.ledger.forget.mark .epilogRemove else c.ledger := by
  rw [Fired, hk] at h
  obtain ⟨ok, c₁, h, rfl⟩ := h
  rw [ledger_stop]
  cases h with
  | failed h =>
    rw [h.resolve_left (by rw [hf]; decide)]
    rfl
  | tornDown hfound => exact absurd (hf.symm.trans hfound) (by decide)
  | released _ hc =>
    rw [hc]
    rfl

/-! ### After the abort -/

/-- The note is in the cache, and the callback has not asked for the release. -/
structure Ledger.Over (l : Ledger) : Prop where
  noted : ∃ ref, l.cache = some ref ∧ (l.flags ref).epilogRemoved = true
  silent : .epilogRemove ∉ l.marks

namespace Ledger.Over
variable {l l' : Ledger} {ref : Nat}

theorem get (h : l.Over) : l.get = l := by
  obtain ⟨ref, hc, -⟩ := h.noted
  rw [Ledger.get, hc]
  rfl

theorem mark (h : l.Over) {x : Out} (hx : x ≠ .epilogRemove) : (l.mark x).Over :=
  ⟨h.noted, fun hm => h.silent (mem_of_mem_concat hm (Ne.symm hx))⟩

theorem setFlags (h : l.Over) (ref : Nat) (f : Flags → Flags)
    (hf : ∀ w, w.epilogRemoved = true → (f w).epilogRemoved = true) : (l.setFlags ref f).Over := by
  obtain ⟨r, hc, hnoted⟩ := h.noted
  refine ⟨⟨r, hc, ?_⟩, h.silent⟩
  by_cases hr : r = ref
  · subst hr
    rw [flags_setFlags_self]
    exact hf _ hnoted
  · rw [flags_setFlags_ne _ _ hr]
    exact hnoted

theorem tearDown (h : l.Over) (ref : Nat) : (l.tearDown ref).Over := by
  have hmark := h.mark (x := .teardownWorkflow) nofun
  exact hmark.setFlags ref _ fun _ hw => hw

theorem begin (h : l.Over) (r : Rpc) : (l.begin r).Over := by
  cases r with
  | abort =>
    show (l.get.setFlags l.getRef fun f => {f with epilogRemoved := true}).Over
    rw [h.get]
    exact h.setFlags _ _ fun _ _ => rfl
  | _ =>
    show l.get.Over
    rw [h.get]
    exact h

theorem tidied (h : l.Over) (ht : Tidied o ref l l') (hg : (l.flags ref).toredown = true ∨ o.found = true) :
    l'.Over := by
  cases ht with
  | done ht => exact h
  | failed hf => exact h
  | tornDown hf => exact h.tearDown ref
  | released ht hf =>
    rcases hg with hg | hg
    · exact absurd (ht.symm.trans hg) (by decide)
    · exact absurd (hf.symm.trans hg) (by decide)

theorem moved (h : l.Over) {d : WorkflowState} (hm : Moved o d ref l l') : l'.Over := by
  obtain ⟨n, rfl, -⟩ := hm
  have hmark := h.mark (x := .patchDesired d o.applies) nofun
  exact ⟨hmark.noted, hmark.silent⟩

theorem handled (h : l.Over) {workflow : Workflow} (hc : l.cache = some ref) (hh : Handled o workflow ref l l') :
    l'.Over := by
  have hrelease : l.release ref = l := by
    obtain ⟨r, hr, hnoted⟩ := h.noted
    obtain rfl := Option.some.inj (hr.symm.trans hc)
    rw [Ledger.release, hnoted]
    rfl
  cases hh with
  | nothing => exact h
  | released hs hd => exact hrelease.symm ▸ h
  | deleted hs hd =>
    rw [hrelease]
    have hmark := h.mark (x := .deleteWorkflow) (by decide)
    exact hmark.setFlags ref _ fun _ hw => hw
  | moved hs hnext ht hm => exact h.moved hm
  | prologRemoved hs ht => exact h.mark (by decide)
  | tornDown hs ht => exact h.tearDown ref

/-- A version of the workflow leaves the note; its end drops it with the WorkflowInfo. -/
theorem noted_cases (h : l.Over) {event : Snapshot} (hn : Noted o l event l') :
    l'.Over ∨ event = .deleted ∧ l' = l.forget := by
  have hget := h.get
  have hc : l.get.cache = some l.getRef := l.cache_get
  rw [hget] at hc
  cases hn with
  | unread => exact .inl h
  | forgotten => exact .inr ⟨rfl, by rw [hget]⟩
  | handled hh =>
    rw [hget] at hh
    exact .inl (h.handled hc hh)
  | failed hh =>
    rw [hget] at hh
    exact .inl ((h.handled hc hh).tearDown _)

end Ledger.Over

/-- After the abort: what was asked for so far is all, since the note is there, or the
workflow is gone. -/
structure Aborted (n : Nat) (v : View) : Prop where
  made : v.versions ≠ []
  finished : (∃ ref, v.ledger.cache = some ref ∧ (v.ledger.flags ref).epilogRemoved = true) ∨ v.versions = [.deleted]
  count : v.ledger.marks.count .epilogRemove = n

theorem count_append_of_not_mem {α : Type} [DecidableEq α] {l l' : List α} {a : α} (h : a ∉ l') :
    (l ++ l').count a = l.count a := by
  rw [List.count_append, List.count_eq_zero.mpr h, Nat.add_zero]

namespace Aborted
variable {n : Nat} {v : View} {l : Ledger}

theorem of_over (hv : v.versions ≠ []) (hn : v.ledger.marks.count .epilogRemove = n) (hl : l.Over) :
    Aborted n (v.absorb l) :=
  ⟨v.absorb_versions_ne_nil l hv, .inl hl.noted, (count_append_of_not_mem hl.silent).trans hn⟩

theorem of_ended (hv : v.versions = [.deleted]) (hn : v.ledger.marks.count .epilogRemove = n)
    (hcreated : .created ∉ l.marks) (hsilent : .epilogRemove ∉ l.marks) : Aborted n (v.absorb l) := by
  have hversions : (v.absorb l).versions = [.deleted] := by
    show l.marks.foldl Out.version v.versions = _
    rw [hv]
    exact foldl_version_of_gone hcreated rfl
  exact ⟨by rw [hversions]; exact List.cons_ne_nil _ _, .inr hversions, (count_append_of_not_mem hsilent).trans hn⟩

theorem fresh_over (h : ∃ ref, v.ledger.cache = some ref ∧ (v.ledger.flags ref).epilogRemoved = true) :
    v.ledger.fresh.Over := ⟨h, List.not_mem_nil⟩

/-- While there is a workflow, the note is there. -/
theorem noted (h : Aborted n v) (hw : (currentWorkflow v.versions).isSome = true) :
    ∃ ref, v.ledger.cache = some ref ∧ (v.ledger.flags ref).epilogRemoved = true := by
  refine h.finished.resolve_right fun hv => ?_
  rw [hv] at hw
  cases hw

theorem get (h : Aborted n v) : Aborted n v.get := by
  rcases h.finished with hover | hv
  · have hsame : v.ledger.get = v.ledger := by
      obtain ⟨ref, hc, -⟩ := hover
      rw [Ledger.get, hc]
      rfl
    rw [View.get, hsame]
    exact h
  · exact ⟨h.made, .inr hv, (congrArg (List.count Out.epilogRemove) v.ledger.marks_get).trans h.count⟩

theorem append (h : Aborted n v) (hw : (currentWorkflow v.versions).isSome = true) (x : Snapshot) :
    Aborted n {v with versions := v.versions ++ [x]} :=
  ⟨by simp, .inl (h.noted hw), h.count⟩

/-- The end of the workflow is seen last. -/
theorem watched (h : Aborted n v) (hx : Existing v) {i : Nat} {event : Snapshot} (hi : v.versions[i]? = some event)
    (hl : Noted o v.ledger.fresh event l) : Aborted n (View.absorb {v with versions := v.versions.drop i} l) := by
  obtain ⟨hdrop, hadvanced⟩ := hx.advance hi
  have hhead : (v.versions.drop i).head? = some event := by
    rw [List.head?_drop]
    exact hi
  have hdeleted (he : event = .deleted) : v.versions.drop i = [.deleted] := by
    cases hlist : v.versions.drop i with
    | nil => exact absurd hlist hdrop
    | cons x rest =>
      rw [hlist] at hhead
      obtain rfl := (Option.some.inj hhead).trans he
      cases rest with
      | nil => rfl
      | cons y rest =>
        have hended := hadvanced.ended
        rw [show ({v with versions := v.versions.drop i} : View).versions = .deleted :: y :: rest from hlist] at hended
        exact absurd List.mem_cons_self hended
  rcases h.finished with hover | hv
  · rcases (fresh_over hover).noted_cases hl with hover | ⟨he, rfl⟩
    · exact of_over hdrop h.count hover
    · exact of_ended (hdeleted he) h.count List.not_mem_nil List.not_mem_nil
  · have hevent : event = .deleted := by
      have hmem := List.mem_of_getElem? hi
      rw [hv] at hmem
      exact List.mem_singleton.mp hmem
    subst hevent
    have hmarks : l.marks = [] := by
      cases hl with
      | unread => rfl
      | forgotten => exact v.ledger.fresh.marks_get
    exact of_ended (hdeleted rfl) h.count (hmarks ▸ List.not_mem_nil) (hmarks ▸ List.not_mem_nil)

/-- Requests that do not look for the workflow, but for the one that creates it. -/
theorem unchecked (h : Aborted n v) {r : Rpc} {ok : Bool} (hr : r.checks = false) (hcreate : r.isCreate = false)
    (hl : Requested cfg o v.ledger.fresh ok l r) : Aborted n (v.absorb l) := by
  -- without a workflow, the requests to move it are logged and have no effect
  have hmoved {d : WorkflowState} (hm : Moved o d v.ledger.fresh.getRef v.ledger.fresh.get l) :
      Aborted n (v.absorb l) := by
    rcases h.finished with hover | hv
    · exact of_over h.made h.count (((fresh_over hover).begin .teardown).moved hm)
    · have hmarks : l.marks = [.patchDesired d o.applies] := by
        rw [hm.marks, Ledger.marks_get]
        rfl
      exact of_ended hv h.count (by simp [hmarks]) (by simp [hmarks])
  have hfresh : Aborted n (v.absorb v.ledger.fresh) := by
    rw [View.absorb_fresh]
    exact h
  cases r with
  | create failureTolerance => cases hcreate
  | setup nodelist =>
    rcases hl with ⟨-, hm⟩ | ⟨-, rfl⟩
    · exact hmoved hm
    · exact hfresh
  | postRun runStarted =>
    cases runStarted with
    | false => cases hr
    | true =>
      dsimp only [Requested] at hl
      split at hl
      · rw [hl.2, View.absorb_get, View.absorb_fresh]
        exact h.get
      · exact hmoved hl.2
  | teardown => cases hr
  | abort => cases hr

/-- Requests that look for the workflow, when it is there or torn down already. -/
theorem checked (h : Aborted n v) {r : Rpc}
    (hg : (∃ ref, v.ledger.cache = some ref ∧ (v.ledger.flags ref).toredown = true) ∨ o.found = true)
    (hf : o.found = (currentWorkflow v.versions).isSome)
    (hl : Tidied o v.ledger.fresh.getRef (v.ledger.fresh.begin r) l) : Aborted n (v.absorb l) := by
  rcases hg with ⟨ref, hc, ht⟩ | hfound
  · have hflag : ((v.ledger.fresh.begin r).flags v.ledger.fresh.getRef).toredown = true := by
      rw [Ledger.toredown_begin, Ledger.flags_getRef (l := v.ledger.fresh) hc]
      exact ht
    rcases h.finished with hover | hv
    · exact of_over h.made h.count (((fresh_over hover).begin r).tidied hl (.inl hflag))
    · rw [hv] at hf
      have hmissing {P : Prop} (hfound : o.found = true) : P := absurd (hf.symm.trans hfound) (by decide)
      cases hl with
      | done => exact of_ended hv h.count (by simp [Ledger.fresh]) (by simp [Ledger.fresh])
      | failed hfound => exact hmissing hfound
      | tornDown hfound => exact hmissing hfound
      | released hno => exact absurd (hno.symm.trans hflag) (by decide)
  · have hover := fresh_over (h.noted (hf.symm.trans hfound))
    exact of_over h.made h.count ((hover.begin r).tidied hl (.inr hfound))

theorem other (h : Aborted n v) (hx : Existing v) {timeout : Bool} {a : Action} {v' : View}
    (hs : View.Step cfg timeout v a v') (ha : a.looks = false) : Aborted n v' := by
  cases hs with
  | serve hr hf hl => cases ha
  | timer href hf hl => cases ha
  | watch hi hf hl => exact h.watched hx hi hl
  | killInTc hl =>
    rcases hl with rfl | rfl
    · rw [View.absorb_fresh]
      exact h
    · rw [View.absorb_get, View.absorb_fresh]
      exact h.get
  | status hw hd => exact h.append (hw ▸ rfl) _
  | teardown hm hw => exact h.append (hw ▸ rfl) _
  | vanish hm hw => exact h.append hw _
  | _ => exact ⟨h.made, h.finished, h.count⟩

end Aborted

/-! ### The result -/

/-- The WorkflowInfo in the cache notes a teardown. -/
def System.Toredown (s : System) : Prop := ∃ ref ∈ s.service.cache, (s.service.winfos ref).toredown = true

/-- Whoever looks for the workflow finds it, unless a teardown was noted, or the WorkflowInfo
was forgotten when a timer looks. -/
def FindsWorkflow (s : System) : Action → Prop
  | .serve r _ => r.checks = true → s.Toredown ∨ (currentWorkflow s.versions).isSome = true
  | .timer i _ => ∀ t ∈ s.service.timers[i]?, t.kind.tearsDown = true →
      s.service.cache = none ∨ (currentWorkflow s.versions).isSome = true
  | _ => True

theorem aborted_next (timeout : Bool) {n : Nat} {s : System} {a : Action} (he : a.Enabled s)
    (hx : Existing s.view) (h : Aborted n s.view) (hc : FindsWorkflow s a) :
    Aborted n (a.next cfg timeout s).view := by
  have hs := view_next cfg timeout s a he
  cases a with
  | serve r o =>
    have hserved (ok : Bool) : Aborted n {s.view with
        rpcs := s.view.rpcs.erase r
        replies := s.view.replies ++ [Reply.mk r ok]
        answered := s.view.answered ++ [Reply.mk r ok]} := ⟨h.made, h.finished, h.count⟩
    cases hr : r.checks with
    | true =>
      obtain ⟨ok, l, hl, hv⟩ := view_serve_checks cfg timeout s hr he.2.sound
      rw [hv]
      refine (hserved ok).checked ((hc hr).imp id fun hw => ?_) he.2.found hl
      exact he.2.found.trans hw
    | false =>
      generalize (Action.next cfg timeout s (.serve r o)).view = v' at hs ⊢
      cases hs with
      | serve hmem hf hl =>
        refine (hserved _).unchecked hr ?_ hl
        rw [← Bool.not_eq_true]
        exact fun hcreate => countP_ne_zero hmem hcreate (hx.created h.made).2
  | timer i o =>
    obtain ⟨⟨t, ht, -⟩, hf⟩ := he
    have hfresh : Aborted n (s.view.absorb s.view.ledger.fresh) := by
      rw [View.absorb_fresh]
      exact h
    cases hk : t.kind.tearsDown with
    | false =>
      obtain ⟨c, hc, hl⟩ := leads_timer cfg timeout s hf.sound ht
      have hquiet : c.ledger = s.view.ledger.fresh := hc.quiet hk
      rw [hl.view, hquiet]
      exact hfresh
    | true =>
      cases hfound : o.found with
      | true =>
        obtain ⟨c, hc, hl⟩ := leads_timer cfg timeout s hf.sound ht
        have hledger : c.ledger = s.view.ledger.fresh ∨ ∃ ok, Checked o t.winfo s.view.ledger.fresh ok c.ledger :=
          hc.ledger
        rw [hl.view]
        rcases hledger with hsame | ⟨ok, hl⟩
        · rw [hsame]
          exact hfresh
        · have hover := Aborted.fresh_over (h.noted (hf.found.symm.trans hfound))
          exact .of_over h.made h.count (hover.tidied (.of_checked hfound hl) (.inr hfound))
      | false =>
        have hforgotten : s.service.cache = none := by
          refine (hc t ht hk).resolve_right fun hw => ?_
          exact absurd (hfound.symm.trans (hf.found.trans hw)) (by decide)
        obtain ⟨c, hc, hl⟩ := leads_timer cfg timeout s hf.sound ht
        have hmissing := hc.missing hk hfound
        rw [show s.clock.ledger.cache = none from hforgotten] at hmissing
        have hsame : c.ledger = s.view.ledger.fresh := hmissing
        rw [hl.view, hsame]
        exact hfresh
  | _ => exact h.other hx hs rfl

theorem count_view (s : System) : s.view.ledger.marks.count .epilogRemove = s.log.count .epilogRemove :=
  List.count_filter rfl

/-- The abort itself, when there is a workflow or the teardown was noted. -/
theorem aborted_abort (timeout : Bool) {s : System} (he : Action.Enabled s (.serve .abort o)) (hx : Existing s.view)
    (hc : FindsWorkflow s (.serve .abort o)) :
    Aborted (s.log.count .epilogRemove) (Action.next cfg timeout s (.serve .abort o)).view := by
  obtain ⟨ok, l, hl, hv⟩ := view_serve_checks cfg (r := .abort) timeout s rfl he.2.sound
  have hover : (s.view.ledger.fresh.begin .abort).Over := by
    refine ⟨⟨s.view.ledger.fresh.getRef, s.view.ledger.fresh.cache_get, ?_⟩, by simp [Ledger.fresh]⟩
    show ((s.view.ledger.fresh.get.setFlags s.view.ledger.fresh.getRef fun f =>
      {f with epilogRemoved := true}).flags s.view.ledger.fresh.getRef).epilogRemoved = true
    rw [Ledger.flags_setFlags_self]
  rw [hv]
  rcases hc rfl with ⟨ref, hcache, ht⟩ | hw
  · have hflag : ((s.view.ledger.fresh.begin .abort).flags s.view.ledger.fresh.getRef).toredown = true := by
      rw [Ledger.toredown_begin, Ledger.flags_getRef (l := s.view.ledger.fresh) hcache]
      exact ht
    exact .of_over (hx.toredown ref ht) (count_view s) (hover.tidied hl (.inl hflag))
  · exact .of_over (ne_nil_of_current hw) (count_view s) (hover.tidied hl (.inr (he.2.found.trans hw)))

theorem count_lt_of_released {s s' : System} {v : View} {l : Ledger} (hv : s'.view = v.absorb (l.mark .epilogRemove))
    (hm : v.ledger.marks = s.view.ledger.marks) : s.log.count .epilogRemove < s'.log.count .epilogRemove := by
  rw [← count_view s, ← count_view s', hv]
  show _ < (v.ledger.marks ++ (l.marks ++ [Out.epilogRemove])).count .epilogRemove
  rw [hm, List.count_append, List.count_append, List.count_singleton_self]
  omega

/-- Whoever looks for the workflow and does not find it asks for the release. -/
theorem count_lt_of_missing (cfg : Config) (timeout : Bool) {s : System} {a : Action} (he : a.Enabled s)
    (hc : ¬ FindsWorkflow s a) :
    s.log.count .epilogRemove < (a.next cfg timeout s).log.count .epilogRemove := by
  cases a with
  | serve r o =>
    obtain ⟨hr, hno⟩ := Classical.not_imp.mp hc
    obtain ⟨htorn, hw⟩ := not_or.mp hno
    have hmissing {P : Prop} (hfound : o.found = true) : P := absurd (he.2.found.symm.trans hfound) hw
    obtain ⟨ok, l, hl, hv⟩ := view_serve_checks cfg timeout s hr he.2.sound
    cases hl with
    | done ht =>
      rw [Ledger.toredown_begin] at ht
      exact absurd (Ledger.toredown_of_get ht) htorn
    | failed hfound => exact hmissing hfound
    | tornDown hfound => exact hmissing hfound
    | released ht hf => exact count_lt_of_released hv rfl
  | timer i o =>
    obtain ⟨t, hno⟩ := not_forall.mp hc
    obtain ⟨ht, hno⟩ := Classical.not_imp.mp hno
    obtain ⟨hk, hno⟩ := Classical.not_imp.mp hno
    obtain ⟨hcache, hw⟩ := not_or.mp hno
    have hf : o.found = false := he.2.found.trans (Bool.not_eq_true _ ▸ hw)
    obtain ⟨c, hc, hl⟩ := leads_timer cfg timeout s he.2.sound ht
    have hreleased := hc.missing hk hf
    rw [if_pos (show s.clock.ledger.cache.isSome = true from Option.isSome_iff_ne_none.mpr hcache)] at hreleased
    exact count_lt_of_released (hl.view.trans (congrArg s.view.absorb hreleased)) rfl
  | _ => exact absurd trivial hc

/-- Once aborted, a run asks for no release exactly as long as whoever looks for the workflow finds it. -/
theorem silent_iff_finds (timeout : Bool) {n : Nat} {s : System} (hk : Asking s.view ∧ Existing s.view)
    (h : Aborted n s.view) {actions : List Action} (hp : (systemMachine cfg timeout).Possible s actions) :
    (systemMachine cfg timeout).Always (fun t => t.log.count .epilogRemove = n) s actions ↔
      (systemMachine cfg timeout).Legal FindsWorkflow s actions := by
  have hcount {t : System} (h : Aborted n t.view) : t.log.count .epilogRemove = n := (count_view t).symm.trans h.count
  refine Machine.always_iff_legal (P := fun t : System => t.log.count .epilogRemove = n)
    (fun t : System => (Asking t.view ∧ Existing t.view) ∧ Aborted n t.view)
    (fun t a h he hc => ⟨known_next timeout h.1 he, aborted_next timeout he h.1.2 h.2 hc⟩)
    (fun t a h ht he => ⟨fun hn => ?_, fun hc => hcount (aborted_next timeout he h.1.2 h.2 hc)⟩)
    ⟨hk, h⟩ (hcount h) hp
  by_contra hc
  have hlt := count_lt_of_missing cfg timeout he hc
  rw [ht] at hlt
  exact Nat.ne_of_gt hlt hn

/-- **No release after an abort** in a run exactly when from the abort on whoever looks for the
workflow finds it. -/
theorem silent_after_abort (cfg : Config) (timeout : Bool) (before after : List Action) (o : Outcomes) {s : System}
    (hs : (systemMachine cfg timeout).Reaches (systemMachine cfg timeout).init before s)
    (hp : (systemMachine cfg timeout).Possible s (.serve .abort o :: after)) :
    (systemMachine cfg timeout).Always (fun t => t.log.count .epilogRemove = s.log.count .epilogRemove) s
        (.serve .abort o :: after) ↔
      (systemMachine cfg timeout).Legal FindsWorkflow s (.serve .abort o :: after) := by
  have hknown : Asking s.view ∧ Existing s.view := by
    rw [← hs.2]
    exact Machine.invariant (C := fun _ _ => True) (fun s => Asking s.view ∧ Existing s.view)
      ⟨asking_init, existing_init⟩ (fun s a h he _ => known_next timeout h he) hs.1
  obtain ⟨he, -, hafter⟩ : Action.Enabled s (.serve .abort o) ∧ _ ∧ _ := hp
  have hrest (hc : FindsWorkflow s (.serve .abort o)) := silent_iff_finds timeout (known_next timeout hknown he)
    (aborted_abort timeout he hknown.2 hc) hafter
  constructor
  · rintro ⟨-, h⟩
    have hc : FindsWorkflow s (.serve .abort o) :=
      by_contra fun hc => absurd h.here (Nat.ne_of_gt (count_lt_of_missing cfg timeout he hc))
    exact ⟨he, hc, (hrest hc).mp h⟩
  · rintro ⟨-, hc, h⟩
    exact ⟨rfl, (hrest hc).mpr h⟩

instance (s : System) : Decidable s.Toredown :=
  inferInstanceAs (Decidable (∃ ref ∈ s.service.cache, (s.service.winfos ref).toredown = true))

instance (s : System) : (a : Action) → Decidable (FindsWorkflow s a)
  | .serve r _ =>
    inferInstanceAs (Decidable (r.checks = true → s.Toredown ∨ (currentWorkflow s.versions).isSome = true))
  | .timer i _ => inferInstanceAs (Decidable (∀ t ∈ s.service.timers[i]?, t.kind.tearsDown = true →
      s.service.cache = none ∨ (currentWorkflow s.versions).isSome = true))
  | .job _ | .lookup _ _ _ | .reply _ | .remove _ | .watch _ _ | .killInTc _ _ | .status _ | .teardown
  | .vanish => .isTrue trivial

/-- The service does not create the workflow, and the epilog of the job times out. -/
def gaveUpEarly : List Action :=
  [.job (.depend 0 .ok),
    .serve (.create 0) {found := false, raises := fun site => if site = .validate then some .other else none},
    .reply ⟨.create 0, false⟩, .job (.exception 0 (some "dws-create") true), .job (.cleanupCb {}), .job .epilogTimer,
    .job (.exception 0 (some "dws-epilog-timeout") true)]

/-- The abort of that job. -/
def abortUncreated : Action := .serve .abort {found := false}

set_option maxRecDepth 4000 in
theorem gaveUpEarly_released : (systemMachine nodeConfig true).Possible (systemMachine nodeConfig true).init
    (gaveUpEarly ++ [abortUncreated]) ∧
      ¬ (systemMachine nodeConfig true).Always
        (fun t => t.log.count .epilogRemove =
          ((systemMachine nodeConfig true).run (systemMachine nodeConfig true).init
            gaveUpEarly).log.count .epilogRemove)
        ((systemMachine nodeConfig true).run (systemMachine nodeConfig true).init gaveUpEarly) [abortUncreated] := by
  refine ⟨by decide, fun h => absurd h.last (by decide)⟩

/-- The workflow of a job is stuck in PostRun, and the epilog times out. -/
def stuckUnmounting : List Action := running ++
  [.job .finish, .job (.finishCb {}), .job (.cleanupCb {}), .serve (.postRun true) {}, .reply ⟨.postRun true, true⟩,
    .job .epilogTimer, .job (.exception 0 (some "dws-epilog-timeout") true)]

set_option maxRecDepth 4000 in
theorem stuckUnmounting_silent : (systemMachine nodeConfig true).Always
    (fun t => t.log.count .epilogRemove =
      ((systemMachine nodeConfig true).run (systemMachine nodeConfig true).init
        stuckUnmounting).log.count .epilogRemove)
    ((systemMachine nodeConfig true).run (systemMachine nodeConfig true).init stuckUnmounting)
    [.serve .abort {}, .teardown, .status (complete .teardown), .watch 3 {}, .vanish, .watch 1 {found := false}] :=
  (silent_after_abort nodeConfig true stuckUnmounting [.teardown, .status (complete .teardown), .watch 3 {}, .vanish,
    .watch 1 {found := false}] {} ⟨by decide, rfl⟩ (by decide)).mpr (by decide)

end FluxCoral2.Dws
