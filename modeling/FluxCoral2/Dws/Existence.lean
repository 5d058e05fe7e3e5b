import Mathlib.Data.List.TakeDrop
import FluxCoral2.Dws.Asking

/-! Whether there is a workflow.

It is created once, by the one request for it, and its deletion is its last version.
`Existing` says so of a view; no callback but that of the request creates a workflow
(`Ledger.Mild`), and a teardown is noted only when there has been one. -/
namespace FluxCoral2.Dws
open Library Jobtap

variable {cfg : Config} {o : Outcomes}

/-! ### Any callback -/

/-- What a callback leaves that creates no workflow: a teardown is noted when there has been one. -/
structure Ledger.Mild (existed : Prop) (l : Ledger) : Prop where
  uncreated : .created ∉ l.marks
  toredown : ∀ ref, (l.flags ref).toredown = true → existed

namespace Ledger.Mild
variable {existed : Prop} {l l' : Ledger} {ref : Nat}

theorem mark (h : l.Mild existed) {x : Out} (hx : x ≠ .created) : (l.mark x).Mild existed :=
  ⟨fun hm => h.uncreated (mem_of_mem_concat hm (Ne.symm hx)), h.toredown⟩

theorem get (h : l.Mild existed) : l.get.Mild existed := by
  refine ⟨by rw [marks_get]; exact h.uncreated, fun r hr => ?_⟩
  rcases l.flags_get r with hf | hf <;> rw [hf] at hr
  · exact h.toredown r hr
  · cases hr

theorem forget (h : l.Mild existed) : l.forget.Mild existed := ⟨h.uncreated, h.toredown⟩

theorem setFlags (h : l.Mild existed) {f : Flags → Flags} (hf : (f (l.flags ref)).toredown = true → existed) :
    (l.setFlags ref f).Mild existed := by
  refine ⟨h.uncreated, fun r hr => ?_⟩
  by_cases hrr : r = ref
  · subst hrr
    rw [flags_setFlags_self] at hr
    exact hf hr
  · rw [flags_setFlags_ne _ _ hrr] at hr
    exact h.toredown r hr

theorem tearDown (h : l.Mild existed) (ref : Nat) (he : existed) : (l.tearDown ref).Mild existed := by
  have hmark := h.mark (x := .teardownWorkflow) nofun
  exact hmark.setFlags fun _ => he

theorem abort (h : l.Mild existed) : l.abort.Mild existed := by
  rw [Ledger.abort]
  exact h.get.setFlags fun hr => h.get.toredown _ hr

theorem checked (h : l.Mild existed) {ok : Bool} (hc : Checked o ref l ok l') (hf : o.found = true → existed) :
    l'.Mild existed := by
  cases hc with
  | failed => exact h
  | tornDown hfound => exact h.tearDown ref (hf hfound)
  | released hfound => exact h.forget.mark nofun

theorem moved (h : l.Mild existed) {d : WorkflowState} (hm : Moved o d ref l l') : l'.Mild existed := by
  obtain ⟨n, rfl, -⟩ := hm
  have hmark := h.mark (x := .patchDesired d o.applies) nofun
  exact ⟨hmark.uncreated, hmark.toredown⟩

theorem release (h : l.Mild existed) (ref : Nat) : (l.release ref).Mild existed := by
  unfold Ledger.release
  split
  · exact h
  · exact h.mark nofun

theorem handled (h : l.Mild existed) {workflow : Workflow} (hh : Handled o workflow ref l l') (he : existed) :
    l'.Mild existed := by
  cases hh with
  | nothing => exact h
  | released hs hd => exact h.release ref
  | deleted hs hd =>
    have hmark := (h.release ref).mark (x := .deleteWorkflow) nofun
    exact hmark.setFlags fun _ => he
  | moved hs hnext ht hm => exact h.moved hm
  | prologRemoved hs ht => exact h.mark nofun
  | tornDown hs ht => exact h.tearDown ref he

theorem noted (h : l.Mild existed) {event : Snapshot} (hn : Noted o l event l') (he : existed) : l'.Mild existed := by
  cases hn with
  | unread => exact h
  | forgotten => exact h.get.forget
  | handled hh => exact h.get.handled hh he
  | failed hh => exact (h.get.handled hh he).tearDown _ he

theorem requested (h : l.Mild existed) {r : Rpc} {ok : Bool} (hl : Requested cfg o l ok l' r)
    (hf : o.found = true → existed) (hr : r.isCreate = false) : l'.Mild existed := by
  cases r with
  | create failureTolerance => cases hr
  | setup nodelist =>
    rcases hl with ⟨-, hm⟩ | ⟨-, rfl⟩
    · exact h.get.moved hm
    · exact h
  | postRun runStarted =>
    dsimp only [Requested] at hl
    split at hl
    · exact hl.2 ▸ h.get
    · split at hl
      · exact h.get.moved hl.2
      · exact h.get.checked hl hf
  | teardown =>
    rcases hl with ⟨-, rfl⟩ | ⟨_, hc⟩
    · exact h.get
    · exact h.get.checked hc hf
  | abort =>
    rcases hl with ⟨-, rfl⟩ | ⟨_, hc⟩
    · exact h.abort
    · exact h.abort.checked hc hf

end Ledger.Mild

/-! ### The versions -/

/-- The deletion of the workflow is its last version. -/
def Ended (versions : List Snapshot) : Prop := .deleted ∉ versions.dropLast

theorem Ended.not_mem {versions : List Snapshot} (h : Ended versions) (hw : (currentWorkflow versions).isSome = true) :
    .deleted ∉ versions := by
  obtain ⟨w, hw⟩ := Option.isSome_iff_exists.mp hw
  obtain ⟨l, rfl⟩ := exists_append_of_current hw
  rw [Ended, List.dropLast_concat] at h
  exact fun hd => h (mem_of_mem_concat hd nofun)

theorem Ended.append {versions : List Snapshot} (h : Ended versions) (hw : (currentWorkflow versions).isSome = true)
    (x : Snapshot) : Ended (versions ++ [x]) := by
  rw [Ended, List.dropLast_concat]
  exact h.not_mem hw

theorem Ended.drop {versions : List Snapshot} (h : Ended versions) (n : Nat) : Ended (versions.drop n) := by
  rw [Ended, List.dropLast_drop_eq_drop_dropLast]
  exact fun hd => h (List.mem_of_mem_drop hd)

/-- Without a workflow object, no version is made but by its creation. -/
theorem version_of_gone {x : Out} (hx : x ≠ .created) {versions : List Snapshot}
    (h : currentWorkflow versions = none) : x.version versions = versions := by
  cases x with
  | created => exact absurd rfl hx
  | patchDesired desiredState applied =>
    rcases version_patch desiredState applied versions with hv | ⟨w, hw, -⟩
    · exact hv
    · rw [h] at hw
      cases hw
  | _ => rfl

theorem foldl_version_of_gone {out : List Out} (hout : .created ∉ out) {versions : List Snapshot}
    (h : currentWorkflow versions = none) : out.foldl Out.version versions = versions := by
  induction out with
  | nil => rfl
  | cons x rest ih =>
    rw [List.mem_cons, not_or] at hout
    rw [List.foldl_cons, version_of_gone (Ne.symm hout.1) h]
    exact ih hout.2

theorem Ended.foldl {out : List Out} (hout : .created ∉ out) {versions : List Snapshot} (h : Ended versions) :
    Ended (out.foldl Out.version versions) := by
  induction out generalizing versions with
  | nil => exact h
  | cons x rest ih =>
    rw [List.mem_cons, not_or] at hout
    refine ih hout.2 ?_
    cases x with
    | created => exact absurd rfl hout.1
    | patchDesired desiredState applied =>
      rcases version_patch desiredState applied versions with hv | ⟨w, hw, hv⟩
      · rw [hv]
        exact h
      · rw [hv]
        exact h.append (hw ▸ rfl) _
    | _ => exact h

/-- The workflow of the job is created once, and its end is its end. -/
structure Existing (v : View) : Prop where
  created : v.versions ≠ [] → v.job.state ≠ .new ∧ v.rpcs.countP Rpc.isCreate = 0
  ended : Ended v.versions
  toredown : ∀ ref, (v.ledger.flags ref).toredown = true → v.versions ≠ []

theorem existing_init : Existing (System.view {}) := ⟨fun h => absurd rfl h, nofun, nofun⟩

theorem versions_ne_nil_of_foldl {out : List Out} (hout : .created ∉ out) {versions : List Snapshot}
    (h : out.foldl Out.version versions ≠ []) : versions ≠ [] := by
  rintro rfl
  exact h (foldl_version_of_gone hout rfl)

namespace Existing
variable {v : View} {l : Ledger}

theorem fresh (h : Existing v) : v.ledger.fresh.Mild (v.versions ≠ []) := ⟨nofun, h.toredown⟩

theorem absorb (h : Existing v) (hl : l.Mild (v.versions ≠ [])) : Existing (v.absorb l) :=
  ⟨fun hv => h.created (versions_ne_nil_of_foldl hl.uncreated hv), h.ended.foldl hl.uncreated,
    fun ref hr => v.absorb_versions_ne_nil l (hl.toredown ref hr)⟩

/-- An event of the job: a workflow is created when the job is new. -/
theorem event (h : Existing v) {timeout : Bool} {e : Event} (he : e.isMessage = false → e.Enabled v.job)
    (removes : List Remove) (replies : List Reply) (looked : Bool) :
    Existing (View.event timeout {v with removes := removes, replies := replies, looked := looked} e) :=
  ⟨fun hv => uncreated_apply he (h.created hv), h.ended, h.toredown⟩

/-- The workflow is created. -/
theorem create (h : Existing v) (hv : v.versions = []) (hs : v.job.state ≠ .new)
    (hr : v.rpcs.countP Rpc.isCreate = 0) : Existing (v.mark .created) := by
  have hversions : (v.mark .created).versions =
      [.workflow {desiredState := .proposal, state := none, ready := false}] := by
    show v.versions ++ _ = _
    rw [hv]
    rfl
  refine ⟨fun _ => ⟨hs, hr⟩, ?_, fun ref ht => absurd hv (h.toredown ref ht)⟩
  rw [hversions]
  exact List.not_mem_nil

/-- A WorkflowInfo is made. -/
theorem add (h : Existing v) : Existing v.add := by
  refine ⟨h.created, h.ended, fun ref ht => ?_⟩
  have hflag : (v.ledger.add.flags ref).toredown = true := ht
  rcases v.ledger.flags_add ref with hf | hf <;> rw [hf] at hflag
  · exact h.toredown ref hflag
  · cases hflag

/-- What the request to create the workflow does. -/
theorem created_of_requested (h : Existing v) {failureTolerance : Int} {ok : Bool} (hv : v.versions = [])
    (hs : v.job.state ≠ .new) (hr : v.rpcs.countP Rpc.isCreate = 0)
    (hl : Requested cfg o v.ledger.fresh ok l (.create failureTolerance)) : Existing (v.absorb l) := by
  rcases hl with rfl | ⟨-, rfl | rfl⟩
  · exact h.absorb h.fresh
  · rw [View.absorb_mark, View.absorb_fresh]
    exact h.create hv hs hr
  · rw [View.absorb_add, View.absorb_mark, View.absorb_fresh]
    exact (h.create hv hs hr).add

/-- A version of a workflow that exists, or its end. -/
theorem append (h : Existing v) (hw : (currentWorkflow v.versions).isSome = true) (x : Snapshot) :
    Existing {v with versions := v.versions ++ [x]} :=
  ⟨fun _ => h.created (ne_nil_of_current hw), h.ended.append hw x, fun _ _ => by simp⟩

/-- Requests are taken out of flight. -/
theorem serve (h : Existing v) (r : Rpc) (replies answered : List Reply) :
    Existing {v with rpcs := v.rpcs.erase r, replies := replies, answered := answered} := by
  exact ⟨fun hv => (h.created hv).imp_right (countP_eq_zero_of_sublist List.erase_sublist), h.ended, h.toredown⟩

/-- The watch goes on to a later version. -/
theorem advance (h : Existing v) {n : Nat} {event : Snapshot} (hn : v.versions[n]? = some event) :
    v.versions.drop n ≠ [] ∧ Existing {v with versions := v.versions.drop n} := by
  have hdrop := drop_ne_nil hn
  refine ⟨hdrop, fun _ => h.created fun hnil => ?_, h.ended.drop n, fun _ _ => hdrop⟩
  rw [hnil] at hn
  cases hn

end Existing

theorem existing_step {timeout : Bool} {v v' : View} {a : Action} (ha : Asking v) (h : Existing v)
    (hs : View.Step cfg timeout v a v') : Existing v' := by
  cases hs with
  | job hm he => exact h.event (fun _ => he) v.removes v.replies v.looked
  | lookup R calloc setup hl => exact h.event (Event.enabled_of_message rfl) v.removes v.replies true
  | reply hm he => exact h.event (Event.enabled_of_message (Reply.event_spec he).1) v.removes _ v.looked
  | unread hm he => exact ⟨h.created, h.ended, h.toredown⟩
  | remove hr =>
    rename_i r
    cases r <;> exact h.event (Event.enabled_of_message rfl) _ v.replies v.looked
  | serve hr hf hl =>
    rename_i r o ok l
    have hserved := h.serve r (v.replies ++ [Reply.mk r ok]) (v.answered ++ [Reply.mk r ok])
    cases hcreate : r.isCreate with
    | false =>
      exact hserved.absorb (h.fresh.requested hl (fun hfound => ne_nil_of_current (hf.symm.trans hfound)) hcreate)
    | true =>
      cases r with
      | create failureTolerance =>
        have hv : v.versions = [] := by
          by_contra hv
          exact countP_ne_zero hr hcreate (h.created hv).2
        have hnew : v.job.state ≠ .new := fun hs => countP_ne_zero hr hcreate (ha.new hs)
        exact hserved.created_of_requested hv hnew (countP_erase_eq_zero hr hcreate ha.creates) hl
      | _ => cases hcreate
  | watch hn hf hl =>
    obtain ⟨hdrop, hadvanced⟩ := h.advance hn
    exact hadvanced.absorb (hadvanced.fresh.noted hl hdrop)
  | timer href hf hl =>
    rcases hl with rfl | ⟨ok, hl⟩
    · exact h.absorb h.fresh
    · exact h.absorb (h.fresh.checked hl fun hfound => ne_nil_of_current (hf.symm.trans hfound))
  | killInTc hl =>
    rcases hl with rfl | rfl
    · exact h.absorb h.fresh
    · exact h.absorb h.fresh.get
  | status hw hd => exact h.append (hw ▸ rfl) _
  | teardown hm hw => exact h.append (hw ▸ rfl) _
  | vanish hm hw => exact h.append hw _

/-- A workflow that has been there stays in the versions. -/
theorem existed_step {timeout : Bool} {v v' : View} {a : Action} (hs : View.Step cfg timeout v a v')
    (hv : v.versions ≠ []) : v'.versions ≠ [] := by
  cases hs with
  | serve hr hf hl => exact View.absorb_versions_ne_nil _ _ hv
  | watch hn hf hl =>
    exact View.absorb_versions_ne_nil _ _ (drop_ne_nil hn)
  | timer href hf hl => exact View.absorb_versions_ne_nil _ _ hv
  | killInTc hl => exact View.absorb_versions_ne_nil _ _ hv
  | status hw hd => simp
  | teardown hm hw => simp
  | vanish hm hw => simp
  | _ => exact hv

/-- A workflow that is gone stays so. -/
theorem alive_step {timeout : Bool} {v v' : View} {a : Action} (h : Existing v) (hs : View.Step cfg timeout v a v')
    (hv : v.versions ≠ []) (hw' : (currentWorkflow v'.versions).isSome = true) :
    (currentWorkflow v.versions).isSome = true := by
  by_contra hw
  have hgone : currentWorkflow v.versions = none := Option.not_isSome_iff_eq_none.mp hw
  have habsorb {v₁ : View} {l : Ledger} (hcurrent : currentWorkflow v₁.versions = none) (hl : l.Mild (v.versions ≠ []))
      (h' : (currentWorkflow (v₁.absorb l).versions).isSome = true) : False := by
    rw [show (v₁.absorb l).versions = v₁.versions from foldl_version_of_gone hl.uncreated hcurrent, hcurrent] at h'
    cases h'
  have hnone {w : Workflow} (h : currentWorkflow v.versions = some w) : False := by
    rw [hgone] at h
    cases h
  cases hs with
  | serve hr hf hl =>
    refine habsorb hgone (h.fresh.requested hl (fun _ => hv) ?_) hw'
    rw [← Bool.not_eq_true]
    exact fun hcreate => countP_ne_zero hr hcreate (h.created hv).2
  | watch hn hf hl =>
    exact habsorb ((current_drop hn).trans hgone) (h.fresh.noted hl hv) hw'
  | timer href hf hl =>
    rcases hl with rfl | ⟨ok, hl⟩
    · exact habsorb hgone h.fresh hw'
    · exact habsorb hgone (h.fresh.checked hl fun _ => hv) hw'
  | killInTc hl =>
    rcases hl with rfl | rfl
    · exact habsorb hgone h.fresh hw'
    · exact habsorb hgone h.fresh.get hw'
  | status hw hd => exact hnone hw
  | teardown hm hw => exact hnone hw
  | vanish hm hw =>
    rw [hgone] at hw
    cases hw
  | _ => exact hw hw'

theorem known_next (timeout : Bool) {s : System} {a : Action} (h : Asking s.view ∧ Existing s.view)
    (he : a.Enabled s) : Asking (a.next cfg timeout s).view ∧ Existing (a.next cfg timeout s).view := by
  have hstep := view_next cfg timeout s a he
  exact ⟨asking_step h.1 hstep, existing_step h.1 h.2 hstep⟩

end FluxCoral2.Dws
