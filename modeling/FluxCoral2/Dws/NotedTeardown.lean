import FluxCoral2.Dws.DesiredState
import FluxCoral2.Dws.Timers

/-! The teardown that is on record.

Once Teardown has been asked for, the WorkflowInfo of the job says so as long as there is a
workflow, and none says so before. `Heeds` states this of a ledger; it holds in every run
(`heeds_next`), whatever comes out of order. Until then nothing is out of order
(`ordered_next`). -/
namespace FluxCoral2.Dws
open Library Jobtap

variable {cfg : Config} {o : Outcomes}

/-! ### Any callback -/

namespace Ledger

/-- The desired states that a callback has asked for. -/
def requested (l : Ledger) : List WorkflowState := l.marks.filterMap Out.requested?

theorem requested_mark (l : Ledger) (x : Out) : (l.mark x).requested = l.requested ++ x.requested?.toList := by
  show (l.marks ++ [x]).filterMap Out.requested? = _
  rw [List.filterMap_append]
  cases h : x.requested? <;> simp [requested, h]

theorem requested_get (l : Ledger) : l.get.requested = l.requested :=
  congrArg (List.filterMap Out.requested?) l.marks_get

/-- `existed` and `alive` say that there has been a workflow and that there is one, `before` what was
asked for before the callback. -/
structure Heeds (existed alive : Prop) (before : List WorkflowState) (l : Ledger) : Prop where
  noted : .teardown ∈ before ++ l.requested →
    existed ∧ (alive → ∃ ref, l.cache = some ref ∧ (l.flags ref).toredown = true)
  asked : ∀ ref, (l.flags ref).toredown = true → .teardown ∈ before ++ l.requested

namespace Heeds
variable {existed alive : Prop} {before : List WorkflowState} {l l' : Ledger} {ref : Nat}

/-- Nothing is asked for, and neither the cache nor the records change. -/
theorem same (h : l.Heeds existed alive before) (hrequested : l'.requested = l.requested)
    (hcache : l'.cache = l.cache) (hflags : ∀ ref, (l'.flags ref).toredown = (l.flags ref).toredown) :
    l'.Heeds existed alive before := by
  refine ⟨fun ht => ?_, fun ref hr => ?_⟩
  · rw [hrequested] at ht
    obtain ⟨he, hn⟩ := h.noted ht
    refine ⟨he, fun ha => ?_⟩
    obtain ⟨ref, hc, hflag⟩ := hn ha
    exact ⟨ref, hcache.trans hc, (hflags ref).trans hflag⟩
  · rw [hrequested]
    exact h.asked ref ((hflags ref).symm.trans hr)

theorem mark (h : l.Heeds existed alive before) {x : Out} (hx : x.requested? = none) :
    (l.mark x).Heeds existed alive before := by
  refine h.same ?_ rfl fun _ => rfl
  rw [requested_mark, hx]
  exact List.append_nil _

theorem setFlags (h : l.Heeds existed alive before) (ref : Nat) {f : Flags → Flags}
    (hf : ∀ g, (f g).toredown = g.toredown) : (l.setFlags ref f).Heeds existed alive before :=
  h.same rfl rfl (l.toredown_setFlags ref hf)

theorem startTimers (h : l.Heeds existed alive before) (n ref : Nat) :
    (l.startTimers n ref).Heeds existed alive before :=
  h.same rfl rfl fun _ => rfl

/-- A WorkflowInfo is made, while there is none or nothing is on record. -/
theorem add (h : l.Heeds existed alive before) (hn : l.cache = none ∨ ¬ existed) :
    l.add.Heeds existed alive before := by
  refine ⟨fun ht => ?_, fun ref hr => ?_⟩
  · obtain ⟨he, hnoted⟩ := h.noted ht
    refine ⟨he, fun ha => ?_⟩
    obtain ⟨ref, hc, -⟩ := hnoted ha
    rcases hn with hn | hn
    · rw [hn] at hc
      cases hc
    · exact absurd he hn
  · rcases l.flags_add ref with hf | hf <;> rw [hf] at hr
    · exact h.asked ref hr
    · cases hr

theorem get (h : l.Heeds existed alive before) : l.get.Heeds existed alive before := by
  unfold Ledger.get
  split
  · exact h
  · rename_i hc
    exact h.add (.inl (Option.not_isSome_iff_eq_none.mp hc))

theorem forget (h : l.Heeds existed alive before) (ha : ¬ alive) : l.forget.Heeds existed alive before :=
  ⟨fun ht => ⟨(h.noted ht).1, fun halive => absurd halive ha⟩, h.asked⟩

/-- Whatever was on record, Teardown is now. -/
theorem tearDown (before : List WorkflowState) (hc : l.cache = some ref) (he : existed) :
    (l.tearDown ref).Heeds existed alive before := by
  have hrequested : (l.tearDown ref).requested = l.requested ++ [.teardown] := l.requested_mark .teardownWorkflow
  refine ⟨fun _ => ⟨he, fun _ => ⟨ref, hc, ?_⟩⟩, fun _ _ => ?_⟩
  · rw [Ledger.tearDown, flags_setFlags_self]
  · rw [hrequested]
    simp

theorem moved (h : l.Heeds existed alive before) {d : WorkflowState} (hd : d ≠ .teardown)
    (hm : Moved o d ref l l') : l'.Heeds existed alive before := by
  obtain ⟨n, rfl, -⟩ := hm
  have hmark : (l.mark (.patchDesired d o.applies)).Heeds existed alive before := by
    refine ⟨fun ht => h.noted ?_, fun r hr => ?_⟩
    · rw [requested_mark, ← List.append_assoc] at ht
      exact mem_of_mem_concat ht hd.symm
    · rw [requested_mark, ← List.append_assoc]
      exact List.mem_append_left _ (h.asked r hr)
  exact hmark.startTimers n ref

theorem checked {ok : Bool} (h : l.Heeds existed alive before) (hl : Checked o ref l ok l')
    (hf : o.found = true → existed ∧ l.cache = some ref) (ha : alive → o.found = true) :
    l'.Heeds existed alive before := by
  cases hl with
  | failed => exact h
  | tornDown hfound => exact .tearDown before (hf hfound).2 (hf hfound).1
  | released hfound =>
    have hforget := h.forget fun halive => absurd (hfound.symm.trans (ha halive)) (by decide)
    exact hforget.mark rfl

theorem release (h : l.Heeds existed alive before) (ref : Nat) : (l.release ref).Heeds existed alive before := by
  unfold Ledger.release
  split
  · exact h
  · exact h.mark rfl

theorem handled {workflow : Workflow} (h : l.Heeds existed alive before) (hc : l.cache = some ref)
    (hh : Handled o workflow ref l l') (he : existed) : l'.Heeds existed alive before := by
  cases hh with
  | nothing => exact h
  | released => exact h.release ref
  | deleted => exact ((h.release ref).mark rfl).setFlags ref fun _ => rfl
  | moved hs hnext ht hm => exact h.moved (WorkflowState.next_ne_teardown hnext) hm
  | prologRemoved => exact h.mark rfl
  | tornDown => exact .tearDown before hc he

theorem abort (h : l.Heeds existed alive before) : l.abort.Heeds existed alive before := by
  rw [Ledger.abort]
  exact h.get.setFlags _ fun _ => rfl

theorem of_noted {event : Snapshot} (h : l.Heeds existed alive before) (hn : Noted o l event l') (he : existed)
    (hd : event = .deleted → ¬ alive) : l'.Heeds existed alive before := by
  have hcache := l.cache_get
  cases hn with
  | unread => exact h
  | forgotten => exact h.get.forget (hd rfl)
  | handled hh => exact h.get.handled hcache hh he
  | failed hh => exact .tearDown before (hh.cache.trans hcache) he

theorem of_requested {r : Rpc} {ok : Bool} (h : l.Heeds existed alive before) (hl : Requested cfg o l ok l' r)
    (hf : o.found = true → existed) (ha : alive → o.found = true) (hr : r.isCreate = true → ¬ existed) :
    l'.Heeds existed alive before := by
  have hcache := l.cache_get
  cases r with
  | create failureTolerance =>
    rcases hl with rfl | ⟨-, rfl | rfl⟩
    · exact h
    · exact h.mark rfl
    · exact (h.mark rfl).add (.inr (hr rfl))
  | setup nodelist =>
    rcases hl with ⟨-, hm⟩ | ⟨-, rfl⟩
    · exact h.get.moved (d := .setup) nofun hm
    · exact h
  | postRun runStarted =>
    dsimp only [Requested] at hl
    split at hl
    · exact hl.2 ▸ h.get
    · split at hl
      · exact h.get.moved (d := .postRun) nofun hl.2
      · exact h.get.checked hl (fun hfound => ⟨hf hfound, hcache⟩) ha
  | teardown =>
    rcases hl with ⟨-, rfl⟩ | ⟨_, hc⟩
    · exact h.get
    · exact h.get.checked hc (fun hfound => ⟨hf hfound, hcache⟩) ha
  | abort =>
    rcases hl with ⟨-, rfl⟩ | ⟨_, hc⟩
    · exact h.abort
    · exact h.abort.checked hc (fun hfound => ⟨hf hfound, hcache⟩) ha

/-- While there is a workflow, the WorkflowInfo of the job tells. -/
theorem toredown_iff (h : l.Heeds existed alive before) (ha : alive) (hc : l.cache = some ref)
    (hr : l.requested = []) : (l.flags ref).toredown = true ↔ .teardown ∈ before := by
  have happend : before ++ l.requested = before := by rw [hr, List.append_nil]
  refine ⟨fun ht => happend ▸ h.asked ref ht, fun ht => ?_⟩
  obtain ⟨ref', hc', hflag⟩ := (h.noted (happend.symm ▸ ht)).2 ha
  exact Option.some.inj (hc'.symm.trans hc) ▸ hflag

end Heeds
end Ledger

/-! ### Steps of the system -/

theorem requested_goes {s t : System} {c : Clock} {out : List Out} (h : s.Goes t c out) :
    t.requested = s.requested ++ c.ledger.requested := by
  rw [System.requested, h.log, List.filterMap_append, ← filterMap_requested out, h.marks]
  rfl

/-- What was asked for in a run is on record. -/
def System.Heeds (s : System) : Prop :=
  s.clock.ledger.Heeds (s.versions ≠ []) ((currentWorkflow s.versions).isSome = true) s.requested

theorem heeds_init : System.Heeds {} := ⟨nofun, fun _ => nofun⟩

theorem heeds_tick {s : System} {a : Action} {c : Clock} (hx : Existing s.view) (hs : s.Slotted) (h : s.Heeds)
    (ht : s.Ticks cfg a c) :
    c.ledger.Heeds (s.versions ≠ []) ((currentWorkflow s.versions).isSome = true) s.requested := by
  cases ht with
  | outside => exact h
  | serve hr hf hl =>
    refine Ledger.Heeds.of_requested h hl.ledger (fun hfound => ?_) hf.found.trans fun hcreate he => ?_
    · exact ne_nil_of_current (hf.found.symm.trans hfound)
    · exact countP_ne_zero hr hcreate (hx.created he).2
  | watch hn hf hl =>
    refine Ledger.Heeds.of_noted h hl.ledger (List.ne_nil_of_mem (List.mem_of_getElem? hn)) fun hd halive => ?_
    subst hd
    exact hx.ended.not_mem halive (List.mem_of_getElem? hn)
  | timer ht hf hl =>
    obtain ⟨he, hcached⟩ := hs.held _ _ ht
    rw [Clock.Fired] at hl
    split at hl
    · obtain ⟨ok, c₁, hc, rfl⟩ := hl
      exact Ledger.Heeds.checked h hc.ledger (fun hfound => ⟨he, hcached (hf.found.symm.trans hfound)⟩) hf.found.trans
    · exact hl ▸ h
  | killInTc hf =>
    rw [Clock.ledger_get]
    exact Ledger.Heeds.get h

theorem heeds_next (timeout : Bool) {s : System} {a : Action} (hx : Existing s.view) (hs : s.Slotted) (h : s.Heeds)
    (he : a.Enabled s) : (a.next cfg timeout s).Heeds := by
  obtain ⟨c, out, ht, hg⟩ := ticks_next cfg timeout s a he
  have hstep := view_next cfg timeout s a he
  have htick := heeds_tick hx hs h ht
  rw [System.Heeds, hg.clock, requested_goes hg]
  have happend : s.requested ++ c.ledger.requested ++ c.fresh.ledger.requested = s.requested ++ c.ledger.requested :=
    List.append_nil _
  refine ⟨fun hm => ?_, fun ref hr => ?_⟩
  · obtain ⟨hexisted, hnoted⟩ := htick.noted (happend ▸ hm)
    exact ⟨existed_step hstep hexisted, fun halive => hnoted (alive_step hx hstep hexisted halive)⟩
  · rw [happend]
    exact htick.asked ref hr

/-- Until Teardown is asked for, what is asked for comes in order. -/
def System.Ordered (s : System) : Prop := .teardown ∉ s.requested → Asked s.view

theorem ordered_init : System.Ordered {} := fun _ => ⟨asking_init, moving_init⟩

theorem inOrder_of_not_mem {s : System} (h : .teardown ∉ s.requested) (a : Action) : InOrder cfg s a := by
  unfold InOrder
  split
  · exact fun _ => h
  · exact fun ht => absurd ht h
  · trivial

theorem ordered_next (timeout : Bool) {s : System} {a : Action} (h : s.Ordered) (he : a.Enabled s) :
    (a.next cfg timeout s).Ordered := by
  intro ht
  obtain ⟨c, out, -, hg⟩ := ticks_next cfg timeout s a he
  rw [requested_goes hg] at ht
  have hno : .teardown ∉ s.requested := fun hm => ht (List.mem_append_left _ hm)
  exact asked_next timeout (h hno) he (inOrder_of_not_mem hno a)

theorem System.Ordered.sorted {s : System} (h : s.Ordered) (ht : .teardown ∉ s.requested) :
    s.requested.Pairwise fun a b => a.rank ≤ b.rank :=
  requested_view s ▸ (h ht).moving.sorted

end FluxCoral2.Dws
