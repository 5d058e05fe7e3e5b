import FluxCoral2.Dws.Existence

/-! The course of the workflow up to the end of its job.

The service asks for a state when it has seen the one before it completed, and the events
come in order; Setup and PostRun are asked for by requests that the plugin sends once. So
what the service asked for says which versions of the workflow it may still see. `Course`
is kept by every step (`course_next`), whatever is torn down in between. -/
namespace FluxCoral2.Dws
open Library Jobtap

variable {cfg : Config} {o : Outcomes}

/-! ### What a callback logs -/

/-- Marks that have no part in it: they neither move the workflow to another state than
Teardown nor release the prolog. -/
def Out.dull : Out → Bool
  | .created => false
  | .patchDesired _ applied => !applied
  | .prologRemove => false
  | _ => true

/-- Nothing is logged between two ledgers but dull marks. -/
def Ledger.Dull (l l' : Ledger) : Prop := ∃ rest, l'.marks = l.marks ++ rest ∧ ∀ x ∈ rest, x.dull = true

namespace Ledger.Dull
variable {l₀ l l' : Ledger} {ref : Nat}

theorem of_marks (h : l'.marks = l.marks) : l.Dull l' := ⟨[], by rw [h, List.append_nil], nofun⟩

theorem refl (l : Ledger) : l.Dull l := of_marks rfl

theorem trans (h : l₀.Dull l) (h' : l.Dull l') : l₀.Dull l' := by
  obtain ⟨rest, hl, hrest⟩ := h
  obtain ⟨rest', hl', hrest'⟩ := h'
  refine ⟨rest ++ rest', by rw [hl', hl, List.append_assoc], fun x hx => ?_⟩
  exact (List.mem_append.mp hx).elim (hrest x) (hrest' x)

theorem mark (l : Ledger) {x : Out} (hx : x.dull = true) : l.Dull (l.mark x) :=
  ⟨[x], rfl, fun _ hy => List.mem_singleton.mp hy ▸ hx⟩

theorem get (l : Ledger) : l.Dull l.get := of_marks l.marks_get

theorem tearDown (l : Ledger) (ref : Nat) : l.Dull (l.tearDown ref) := mark (x := .teardownWorkflow) l rfl

theorem release (l : Ledger) (ref : Nat) : l.Dull (l.release ref) := by
  rw [Ledger.release]
  split
  · exact refl l
  · exact mark l rfl

theorem checked {ok : Bool} (h : Checked o ref l ok l') : l.Dull l' := by
  cases h with
  | failed => exact refl l
  | tornDown => exact tearDown l ref
  | released => exact mark (x := .epilogRemove) l rfl

theorem moved {d : WorkflowState} (h : Moved o d ref l l') : (l.mark (.patchDesired d o.applies)).Dull l' := by
  obtain ⟨n, rfl, -⟩ := h
  exact of_marks rfl

theorem abort (l : Ledger) : l.Dull l.abort := get l

end Ledger.Dull

/-- What is logged about a version of the workflow: it is moved on, or the prolog released. -/
theorem Handled.dull {workflow : Workflow} {ref : Nat} {l l' : Ledger} (h : Handled o workflow ref l l') :
    l.Dull l' ∨ (∃ d, workflow.desiredState.next? = some d ∧ (l.mark (.patchDesired d o.applies)).Dull l') ∨
      workflow.desiredState = .preRun ∧ (l.mark .prologRemove).Dull l' := by
  cases h with
  | nothing => exact .inl (.refl l)
  | released => exact .inl (.release l ref)
  | deleted => exact .inl ((Ledger.Dull.release l ref).trans (.mark (x := .deleteWorkflow) _ rfl))
  | moved hs hnext ht hm =>
    rename_i d
    exact .inr (.inl ⟨d, (desiredState_of_complete hs).symm ▸ hnext, .moved hm⟩)
  | prologRemoved hs => exact .inr (.inr ⟨desiredState_of_complete hs, .refl _⟩)
  | tornDown => exact .inl (.tearDown l ref)

/-! ### The course -/

/-- What the service asked for, and the versions from the last one it was given on. -/
structure Course (v : View) : Prop where
  asked : ∀ w, .workflow w ∈ v.versions →
    w.desiredState = .proposal ∨ w.desiredState = .teardown ∨ .patchDesired w.desiredState true ∈ v.ledger.marks
  ordered : v.versions.Pairwise fun a b => a.rank = 2 ∨ a.rank = 3 → a.rank ≤ b.rank
  setUp : ∀ d, .patchDesired d true ∈ v.ledger.marks →
    v.versions ≠ [] ∧ v.looked = true ∧ v.rpcs.countP Rpc.isSetup = 0
  preRun : .patchDesired .preRun true ∈ v.ledger.marks → ∀ x ∈ v.versions, 2 ≤ x.rank
  prolog : .prologRemove ∈ v.ledger.marks →
    .patchDesired .preRun true ∈ v.ledger.marks ∧ ∀ x ∈ v.versions, 3 ≤ x.rank
  ran : .patchDesired .postRun true ∈ v.ledger.marks →
    .prologRemove ∈ v.ledger.marks ∧ v.job.epilogActive = true ∧ v.rpcs.countP Rpc.isPostRun = 0

theorem course_init : Course (System.view {}) :=
  ⟨fun _ => nofun, .nil, fun _ => nofun, nofun, nofun, nofun⟩

/-- A state that the service may ask for now. -/
structure Due (v : View) (d : WorkflowState) : Prop where
  setUp : v.versions ≠ [] ∧ v.looked = true ∧ v.rpcs.countP Rpc.isSetup = 0
  later : ∀ x ∈ v.versions, x.rank = 2 ∨ x.rank = 3 → x.rank ≤ d.rank
  preRun : .patchDesired .preRun true ∈ v.ledger.marks ∨ d = .preRun →
    2 ≤ d.rank ∧ ∀ x ∈ v.versions, 2 ≤ x.rank
  prolog : .prologRemove ∈ v.ledger.marks → 3 ≤ d.rank
  ran : d = .postRun → .prologRemove ∈ v.ledger.marks ∧ v.job.epilogActive = true ∧ v.rpcs.countP Rpc.isPostRun = 0

namespace Course
variable {v v' : View} {l l₀ : Ledger}

/-- Versions are left behind, and dull marks are logged. -/
theorem mono (h : Course v) (hversions : v'.versions.Sublist v.versions)
    (hmarks : ∀ x, x.dull = false → (x ∈ v'.ledger.marks ↔ x ∈ v.ledger.marks))
    (hsetUp : v.versions ≠ [] ∧ v.looked = true ∧ v.rpcs.countP Rpc.isSetup = 0 →
      v'.versions ≠ [] ∧ v'.looked = true ∧ v'.rpcs.countP Rpc.isSetup = 0)
    (hran : v.job.epilogActive = true ∧ v.rpcs.countP Rpc.isPostRun = 0 →
      v'.job.epilogActive = true ∧ v'.rpcs.countP Rpc.isPostRun = 0) : Course v' := by
  refine ⟨fun w hw => ?_, h.ordered.sublist hversions, fun d hd => hsetUp (h.setUp d ((hmarks _ rfl).mp hd)),
    fun hp x hx => h.preRun ((hmarks _ rfl).mp hp) x (hversions.mem hx), fun hp => ?_, fun hp => ?_⟩
  · rw [hmarks _ rfl]
    exact h.asked w (hversions.mem hw)
  · obtain ⟨hpreRun, hrank⟩ := h.prolog ((hmarks _ rfl).mp hp)
    exact ⟨(hmarks _ rfl).mpr hpreRun, fun x hx => hrank x (hversions.mem hx)⟩
  · obtain ⟨hprolog, hrest⟩ := h.ran ((hmarks _ rfl).mp hp)
    exact ⟨(hmarks _ rfl).mpr hprolog, hran hrest⟩

theorem version_of_dull {x : Out} (hx : x.dull = true) (versions : List Snapshot) : x.version versions = versions := by
  cases x with
  | created => cases hx
  | patchDesired d applied =>
    cases applied with
    | false => rfl
    | true => cases hx
  | _ => rfl

theorem foldl_version_of_dull {out : List Out} (hout : ∀ x ∈ out, x.dull = true) (versions : List Snapshot) :
    out.foldl Out.version versions = versions := by
  induction out with
  | nil => rfl
  | cons x rest ih =>
    rw [List.foldl_cons, version_of_dull (hout x List.mem_cons_self)]
    exact ih fun y hy => hout y (List.mem_cons_of_mem x hy)

/-- What a callback does beside the marks that have a part in it is left out. -/
theorem absorb (h : Course (v.absorb l₀)) (hl : l₀.Dull l) : Course (v.absorb l) := by
  obtain ⟨rest, hmarks, hdull⟩ := hl
  have hversions : (v.absorb l).versions = (v.absorb l₀).versions := by
    show l.marks.foldl Out.version v.versions = _
    rw [hmarks, List.foldl_append, foldl_version_of_dull hdull]
    rfl
  refine h.mono (hversions ▸ List.Sublist.refl _) (fun x hx => ?_) (fun hs => ⟨hversions ▸ hs.1, hs.2⟩) id
  show x ∈ v.ledger.marks ++ l.marks ↔ x ∈ v.ledger.marks ++ l₀.marks
  have hno : x ∉ rest := fun hr => absurd ((hdull x hr).symm.trans hx) (by decide)
  rw [hmarks, ← List.append_assoc, List.mem_append, or_iff_left hno]

theorem fresh (h : Course v) (hl : v.ledger.fresh.Dull l) : Course (v.absorb l) :=
  absorb (v.absorb_fresh.symm ▸ h) hl

/-- A mark, and dull ones after it. -/
theorem marked {x : Out} (h : Course (v.mark x)) (hl : (v.ledger.fresh.mark x).Dull l) : Course (v.absorb l) := by
  refine absorb ?_ hl
  rw [View.absorb_mark, View.absorb_fresh]
  exact h

/-- A later version of the workflow, or its end. -/
theorem append (h : Course v) {x : Snapshot}
    (hx : ∀ w, x = .workflow w →
      w.desiredState = .proposal ∨ w.desiredState = .teardown ∨ .patchDesired w.desiredState true ∈ v.ledger.marks)
    (hlater : ∀ y ∈ v.versions, y.rank = 2 ∨ y.rank = 3 → y.rank ≤ x.rank)
    (hpreRun : .patchDesired .preRun true ∈ v.ledger.marks → 2 ≤ x.rank)
    (hprolog : .prologRemove ∈ v.ledger.marks → 3 ≤ x.rank) : Course {v with versions := v.versions ++ [x]} := by
  have hall {P : Snapshot → Prop} (hold : ∀ y ∈ v.versions, P y) (hnew : P x) : ∀ y ∈ v.versions ++ [x], P y :=
    fun y hy => (List.mem_append.mp hy).elim (hold y) fun hy => List.mem_singleton.mp hy ▸ hnew
  refine ⟨fun w hw => ?_, pairwise_append_singleton.mpr ⟨h.ordered, hlater⟩,
    fun d hd => ⟨by simp, (h.setUp d hd).2⟩, fun hp => hall (h.preRun hp) (hpreRun hp),
    fun hp => ⟨(h.prolog hp).1, hall (h.prolog hp).2 (hprolog hp)⟩, h.ran⟩
  exact (List.mem_append.mp hw).elim (h.asked w) fun hw => hx w (List.mem_singleton.mp hw).symm

/-- A version that comes after one of those the service may still see. -/
theorem append_of_le (h : Course v) {x y : Snapshot}
    (hx : ∀ w, x = .workflow w →
      w.desiredState = .proposal ∨ w.desiredState = .teardown ∨ .patchDesired w.desiredState true ∈ v.ledger.marks)
    (hlater : ∀ y ∈ v.versions, y.rank = 2 ∨ y.rank = 3 → y.rank ≤ x.rank) (hy : y ∈ v.versions)
    (hle : y.rank ≤ x.rank) : Course {v with versions := v.versions ++ [x]} :=
  h.append hx hlater (fun hp => Nat.le_trans (h.preRun hp y hy) hle) fun hp => Nat.le_trans ((h.prolog hp).2 y hy) hle

/-- The service asks for a state. -/
theorem request (h : Course v) {d : WorkflowState} (hd : Due v d) (applied : Bool) :
    Course (v.mark (.patchDesired d applied)) := by
  cases applied with
  | false =>
    refine h.mono (List.Sublist.refl _) (fun x hx => ⟨fun hm => mem_of_mem_concat hm ?_, List.mem_append_left _⟩) id id
    rintro rfl
    cases hx
  | true =>
    have hpatch {e : WorkflowState} (he : .patchDesired e true ∈ v.ledger.marks ++ [Out.patchDesired d true]) :
        .patchDesired e true ∈ v.ledger.marks ∨ e = d := by
      refine (List.mem_append.mp he).imp_right fun he => ?_
      exact (Out.patchDesired.inj (List.mem_singleton.mp he)).1
    have hremove (hp : .prologRemove ∈ v.ledger.marks ++ [Out.patchDesired d true]) : .prologRemove ∈ v.ledger.marks :=
      mem_of_mem_concat hp nofun
    have hmarked : Course {v with ledger := v.ledger.mark (.patchDesired d true)} := by
      refine ⟨fun w hw => (h.asked w hw).imp_right fun hm => hm.imp_right (List.mem_append_left _), h.ordered,
        fun e he => (hpatch he).elim (h.setUp e) fun _ => hd.setUp,
        fun hp => (hd.preRun ((hpatch hp).imp_right Eq.symm)).2, fun hp => ?_, fun hp => ?_⟩
      · obtain ⟨hpreRun, hrank⟩ := h.prolog (hremove hp)
        exact ⟨List.mem_append_left _ hpreRun, hrank⟩
      · obtain ⟨hprolog, hrest⟩ := (hpatch hp).elim h.ran fun he => hd.ran he.symm
        exact ⟨List.mem_append_left _ hprolog, hrest⟩
    have hview : v.mark (.patchDesired d true) =
        {v with
          ledger := v.ledger.mark (.patchDesired d true)
          versions := (Out.patchDesired d true).version v.versions} := by
      show View.mk _ _ _ _ (v.removes ++ []) _ _ _ = _
      rw [List.append_nil]
    rw [hview]
    rcases version_patch d true v.versions with hv | ⟨w, -, hv⟩
    · rw [hv]
      exact hmarked
    · rw [hv]
      refine hmarked.append (fun w' hw' => ?_) hd.later (fun hp => (hd.preRun ((hpatch hp).imp_right Eq.symm)).1)
        fun hp => hd.prolog (hremove hp)
      rw [← Snapshot.workflow.inj hw']
      exact .inr (.inr (List.mem_append_right _ (List.mem_singleton.mpr rfl)))

/-- The service releases the prolog. -/
theorem remove (h : Course v) (hpreRun : .patchDesired .preRun true ∈ v.ledger.marks)
    (hrank : ∀ x ∈ v.versions, 3 ≤ x.rank) : Course (v.mark .prologRemove) := by
  have hold {e : WorkflowState} (he : .patchDesired e true ∈ v.ledger.marks ++ [Out.prologRemove]) :
      .patchDesired e true ∈ v.ledger.marks := mem_of_mem_concat he nofun
  exact ⟨fun w hw => (h.asked w hw).imp_right fun hm => hm.imp_right (List.mem_append_left _), h.ordered,
    fun d hd => h.setUp d (hold hd), fun hp => h.preRun (hold hp), fun _ => ⟨List.mem_append_left _ hpreRun, hrank⟩,
    fun hp => (h.ran (hold hp)).imp_left (List.mem_append_left _)⟩

/-- The workflow is created. -/
theorem create (h : Course v) (hv : v.versions = []) : Course (v.mark .created) := by
  have hversions : (v.mark .created).versions =
      [.workflow {desiredState := .proposal, state := none, ready := false}] := congrArg (· ++ _) hv
  have hno {P : Prop} {d : WorkflowState} (hd : .patchDesired d true ∈ v.ledger.marks ++ [Out.created]) : P :=
    absurd hv (h.setUp d (mem_of_mem_concat hd nofun)).1
  refine ⟨fun w hw => .inl ?_, ?_, fun d hd => hno hd, fun hp => hno hp, fun hp => ?_, fun hp => hno hp⟩
  · rw [hversions] at hw
    rw [Snapshot.workflow.inj (List.mem_singleton.mp hw)]
  · rw [hversions]
    exact List.pairwise_singleton _ _
  · exact absurd hv (h.setUp _ (h.prolog (mem_of_mem_concat hp nofun)).1).1

/-! ### Events of the workflow -/

section Event
variable {workflow : Workflow} {rest : List Snapshot}

/-- The version that is given to the service has been asked for, if it is past Proposal. -/
theorem asked_event (h : Course v) (hv : v.versions = .workflow workflow :: rest)
    (hproposal : workflow.desiredState ≠ .proposal) (hteardown : workflow.desiredState ≠ .teardown) :
    .patchDesired workflow.desiredState true ∈ v.ledger.marks := by
  have hasked := h.asked workflow (hv ▸ List.mem_cons_self)
  exact (hasked.resolve_left hproposal).resolve_left hteardown

theorem le_of_event (h : Course v) (hv : v.versions = .workflow workflow :: rest)
    (hrank : workflow.desiredState.rank = 2 ∨ workflow.desiredState.rank = 3) :
    ∀ x ∈ v.versions, workflow.desiredState.rank ≤ x.rank := by
  have hordered := h.ordered
  rw [hv] at hordered ⊢
  intro x hx
  rcases List.mem_cons.mp hx with rfl | hx
  · exact Nat.le_refl _
  · exact (List.pairwise_cons.mp hordered).1 x hx hrank

/-- A version that comes before DataIn: PreRun has not been asked for. -/
theorem not_preRun (h : Course v) {x : Snapshot} (hx : x ∈ v.versions) (hrank : x.rank < 2) :
    .patchDesired .preRun true ∉ v.ledger.marks :=
  fun hp => Nat.not_le.mpr hrank (h.preRun hp x hx)

/-- A version that comes before PreRun: the prolog has not been released. -/
theorem not_prolog (h : Course v) {x : Snapshot} (hx : x ∈ v.versions) (hrank : x.rank < 3) :
    .prologRemove ∉ v.ledger.marks :=
  fun hp => Nat.not_le.mpr hrank ((h.prolog hp).2 x hx)

theorem preRun_of_rank (h : Course v) {x : Snapshot} (hx : x ∈ v.versions) (hrank : x.rank = 3) :
    .patchDesired .preRun true ∈ v.ledger.marks := by
  cases x with
  | deleted => cases hrank
  | workflow w =>
    have hstate : w.desiredState = .preRun := by
      show w.desiredState = .preRun
      rw [Snapshot.rank] at hrank
      cases hd : w.desiredState <;> rw [hd] at hrank <;> first | rfl | cases hrank
    have hasked := h.asked w hx
    rw [hstate] at hasked
    exact (hasked.resolve_left nofun).resolve_left nofun

/-- What the service asks for when a state is completed is due. -/
theorem due_next (h : Course v) (hv : v.versions = .workflow workflow :: rest) {d : WorkflowState}
    (hd : workflow.desiredState.next? = some d) : Due v d := by
  have hmem : .workflow workflow ∈ v.versions := hv ▸ List.mem_cons_self
  have hle := h.le_of_event hv
  have hasked := h.asked_event hv
  have hnotPreRun := h.not_preRun hmem
  have hnotProlog := h.not_prolog hmem
  show Due v d
  rw [Snapshot.rank] at hnotPreRun hnotProlog
  cases hstate : workflow.desiredState with
  | setup =>
    rw [hstate] at hd hasked hnotPreRun hnotProlog
    cases hd
    refine ⟨h.setUp .setup (hasked nofun nofun), fun x hx hrank => ?_, fun hp => ?_,
      fun hp => absurd hp (hnotProlog (by decide)), nofun⟩
    · rcases hrank with hrank | hrank
      · exact Nat.le_of_eq hrank
      · exact absurd (h.preRun_of_rank hx hrank) (hnotPreRun (by decide))
    · exact absurd (hp.resolve_right nofun) (hnotPreRun (by decide))
  | dataIn =>
    rw [hstate] at hd hasked hle
    cases hd
    refine ⟨h.setUp .dataIn (hasked nofun nofun), fun x hx hrank => ?_, fun _ => ⟨by decide, hle (.inl rfl)⟩,
      fun _ => Nat.le_refl 3, nofun⟩
    show x.rank ≤ 3
    omega
  | postRun =>
    rw [hstate] at hd hasked
    cases hd
    refine ⟨h.setUp .postRun (hasked nofun nofun), fun x hx hrank => ?_, fun hp => ⟨by decide, ?_⟩, fun _ => by decide,
      nofun⟩
    · show x.rank ≤ 5
      omega
    · exact h.preRun (hp.resolve_right nofun)
  | _ =>
    rw [hstate] at hd
    cases hd

end Event

/-- What the service does about a version of the workflow. -/
theorem noted (h : Course v) {event : Snapshot} {rest : List Snapshot} (hv : v.versions = event :: rest)
    (hn : Noted o v.ledger.fresh event l) : Course (v.absorb l) := by
  have hhandled {workflow : Workflow} {l' : Ledger} (hw : event = .workflow workflow)
      (hh : Handled o workflow v.ledger.fresh.getRef v.ledger.fresh.get l') : Course (v.absorb l') := by
    subst hw
    have hget : Course (v.absorb v.ledger.fresh.get) := h.fresh (.get _)
    have hmark {x : Out} (hx : Course (v.mark x)) (hl : (v.ledger.fresh.get.mark x).Dull l') :
        Course (v.absorb l') := by
      refine marked hx (.trans (.of_marks ?_) hl)
      show v.ledger.fresh.get.marks ++ [x] = v.ledger.fresh.marks ++ [x]
      rw [Ledger.marks_get]
    rcases hh.dull with hl | ⟨d, hd, hl⟩ | ⟨hpreRun, hl⟩
    · exact hget.absorb hl
    · exact hmark (h.request (h.due_next hv hd) o.applies) hl
    · have hasked := h.asked_event hv
      have hle := h.le_of_event hv
      rw [hpreRun] at hasked hle
      exact hmark (h.remove (hasked nofun nofun) (hle (.inr rfl))) hl
  cases hn with
  | unread => exact h.fresh (.refl _)
  | forgotten => exact h.fresh (.get _)
  | handled hh => exact hhandled rfl hh
  | failed hh => exact (hhandled rfl hh).absorb (.tearDown _ _)

/-! ### Requests of the plugin -/

/-- While the setup request is in flight, no state has been asked for. -/
theorem unasked (h : Course v) {nodelist : List String} (hr : .setup nodelist ∈ v.rpcs) (d : WorkflowState) :
    .patchDesired d true ∉ v.ledger.marks :=
  fun hd => countP_ne_zero hr rfl (h.setUp d hd).2.2

/-- While the end of the tasks is not reported, PostRun has not been asked for. -/
theorem not_postRun (h : Course v) {runStarted : Bool} (hr : .postRun runStarted ∈ v.rpcs) :
    .patchDesired .postRun true ∉ v.ledger.marks :=
  fun hd => countP_ne_zero hr rfl (h.ran hd).2.2

theorem due_setup (h : Course v) (ha : Asking v) {nodelist : List String} (hr : .setup nodelist ∈ v.rpcs)
    (hv : v.versions ≠ []) (replies answered : List Reply) :
    Due {v with rpcs := v.rpcs.erase (.setup nodelist), replies := replies, answered := answered} .setup := by
  have hlooked := ha.looked_of_setup hr
  have hno := h.unasked hr
  refine ⟨⟨hv, hlooked, countP_erase_eq_zero hr rfl ha.setups⟩, fun x hx hrank => ?_,
    fun hp => absurd (hp.resolve_right nofun) (hno _), fun hp => absurd (h.prolog hp).1 (hno _), nofun⟩
  cases x with
  | deleted => exact absurd hrank (by decide)
  | workflow w =>
    rcases h.asked w hx with hd | hd | hd
    · rw [Snapshot.rank, hd] at hrank
      exact absurd hrank (by decide)
    · rw [Snapshot.rank, hd] at hrank
      exact absurd hrank (by decide)
    · exact absurd hd (hno _)

theorem due_postRun (h : Course v) (ha : Asking v) (hr : .postRun true ∈ v.rpcs) (replies answered : List Reply) :
    Due {v with rpcs := v.rpcs.erase (.postRun true), replies := replies, answered := answered} .postRun := by
  have hprolog := ha.prolog_of_postRun hr
  obtain ⟨hpreRun, -⟩ := h.prolog hprolog
  obtain ⟨hv, hlooked, hsetups⟩ := h.setUp _ hpreRun
  refine ⟨⟨hv, hlooked, countP_eq_zero_of_sublist List.erase_sublist hsetups⟩, fun x hx hrank => ?_,
    fun _ => ⟨by decide, h.preRun hpreRun⟩, fun _ => by decide,
    fun _ => ⟨hprolog, ha.active_of_postRun hr, countP_erase_eq_zero hr rfl ha.postRuns⟩⟩
  show x.rank ≤ 4
  omega

/-- What the service does about a request. -/
theorem requested (h : Course v) {r : Rpc} {ok : Bool} (hcreate : r.isCreate = true → v.versions = [])
    (hsetup : ∀ nodelist, r = .setup nodelist → o.found = true → Due v .setup)
    (hpostRun : r = .postRun true → Due v .postRun) (hl : Requested cfg o v.ledger.fresh ok l r) :
    Course (v.absorb l) := by
  have hget : Course (v.absorb v.ledger.fresh.get) := h.fresh (.get _)
  have habort : Course (v.absorb v.ledger.fresh.abort) := h.fresh (.abort _)
  have hmoved {d : WorkflowState} (hd : Due v d) (hm : Moved o d v.ledger.fresh.getRef v.ledger.fresh.get l) :
      Course (v.absorb l) := by
    refine marked (h.request hd o.applies) (.trans (.of_marks ?_) (.moved hm))
    show v.ledger.fresh.get.marks ++ _ = v.ledger.fresh.marks ++ _
    rw [Ledger.marks_get]
  cases r with
  | create failureTolerance =>
    rcases hl with rfl | ⟨-, rfl | rfl⟩
    · exact h.fresh (.refl _)
    · exact marked (h.create (hcreate rfl)) (.refl _)
    · exact marked (h.create (hcreate rfl)) (.of_marks rfl)
  | setup nodelist =>
    rcases hl with ⟨hreach, hm⟩ | ⟨-, rfl⟩
    · exact hmoved (hsetup nodelist rfl (Outcomes.found_of_reachesSetup hreach)) hm
    · exact h.fresh (.refl _)
  | postRun runStarted =>
    dsimp only [Requested] at hl
    split at hl
    · exact hl.2 ▸ hget
    · cases runStarted with
      | true => exact hmoved (hpostRun rfl) hl.2
      | false => exact hget.absorb (.checked hl)
  | teardown =>
    rcases hl with ⟨-, rfl⟩ | ⟨_, hc⟩
    · exact hget
    · exact hget.absorb (.checked hc)
  | abort =>
    rcases hl with ⟨-, rfl⟩ | ⟨_, hc⟩
    · exact habort
    · exact habort.absorb (.checked hc)

/-- An event of the job. Setup and PostRun are requested once. -/
theorem event (h : Course v) (ha : Asking v) {timeout : Bool} {e : Event} (he : e.isMessage = false → e.Enabled v.job)
    {removes : List Remove} {replies : List Reply} {looked : Bool} (hlooked : v.looked = true → looked = true)
    (hfetch : ∀ R c s, e = .fetchR R c s → v.looked = false) :
    Course (View.event timeout {v with removes := removes, replies := replies, looked := looked} e) := by
  refine h.mono (List.Sublist.refl _) (fun _ _ => Iff.rfl) ?_ ?_
  · rintro ⟨hv, hl, hzero⟩
    refine ⟨hv, hlooked hl, countP_setups_sent hzero fun R c s he => ?_⟩
    exact absurd (hl.symm.trans (hfetch R c s he)) (by decide)
  · rintro ⟨hactive, hzero⟩
    exact ⟨active_apply hactive, countP_postRuns_sent hzero ha.once he hactive⟩

end Course

theorem course_step {timeout : Bool} {v v' : View} {a : Action} (ha : Asking v) (hx : Existing v) (h : Course v)
    (hs : View.Step cfg timeout v a v') : Course v' := by
  cases hs with
  | job hm he =>
    refine h.event ha (fun _ => he) id fun R c s hf => ?_
    subst hf
    cases hm
  | lookup R calloc setup hl => exact h.event ha (Event.enabled_of_message rfl) (fun _ => rfl) fun _ _ _ _ => hl
  | reply hm he =>
    obtain ⟨hmsg, hfetch, -⟩ := Reply.event_spec he
    exact h.event ha (Event.enabled_of_message hmsg) id fun R c s hf => absurd hf (hfetch R c s)
  | unread hm he => exact h.mono (List.Sublist.refl _) (fun _ _ => Iff.rfl) id id
  | remove hr =>
    rename_i r
    cases r <;> exact h.event ha (Event.enabled_of_message rfl) id nofun
  | serve hr hf hl =>
    rename_i r o ok l
    have hzero {p : Rpc → Bool} (hp : v.rpcs.countP p = 0) : (v.rpcs.erase r).countP p = 0 :=
      countP_eq_zero_of_sublist List.erase_sublist hp
    have hserved : Course {v with
        rpcs := v.rpcs.erase r
        replies := v.replies ++ [Reply.mk r ok]
        answered := v.answered ++ [Reply.mk r ok]} :=
      h.mono (List.Sublist.refl _) (fun _ _ => Iff.rfl) (fun hs => ⟨hs.1, hs.2.1, hzero hs.2.2⟩)
        fun hs => ⟨hs.1, hzero hs.2⟩
    refine hserved.requested (fun hcreate => ?_) (fun nodelist hsetup hfound => ?_) (fun hpostRun => ?_) hl
    · show v.versions = []
      by_contra hv
      exact countP_ne_zero hr hcreate (hx.created hv).2
    · subst hsetup
      exact h.due_setup ha hr (ne_nil_of_current (hf.symm.trans hfound)) _ _
    · subst hpostRun
      exact h.due_postRun ha hr _ _
  | @watch n _ _ _ hn hf hl =>
    have hadvanced : Course {v with versions := v.versions.drop n} :=
      h.mono (List.drop_sublist _ _) (fun _ _ => Iff.rfl) (fun hs => ⟨drop_ne_nil hn, hs.2⟩) id
    exact hadvanced.noted (drop_event hn) hl
  | timer href hf hl =>
    rcases hl with rfl | ⟨ok, hl⟩
    · exact h.fresh (.refl _)
    · exact h.fresh (.checked hl)
  | killInTc hl =>
    rcases hl with rfl | rfl
    · exact h.fresh (.refl _)
    · exact h.fresh (.get _)
  | status hw hd =>
    obtain ⟨l, hl⟩ := exists_append_of_current hw
    have hmem := mem_of_current hw
    have hordered := h.ordered
    refine h.append_of_le (fun w' hw' => ?_) (fun x hx hrank => ?_) hmem ?_
    · rw [← Snapshot.workflow.inj hw', hd]
      exact h.asked _ hmem
    · rw [hl] at hx hordered
      rw [Snapshot.rank, hd]
      rcases List.mem_append.mp hx with hx | hx
      · exact (pairwise_append_singleton.mp hordered).2 x hx hrank
      · rw [List.mem_singleton.mp hx]
        exact Nat.le_refl _
    · exact Nat.le_of_eq (congrArg WorkflowState.rank hd.symm)
  | teardown hm hw =>
    refine h.append_of_le (fun w' hw' => .inr (.inl ?_)) (fun x _ _ => x.rank_le) (mem_of_current hw)
      (Snapshot.rank_le _)
    rw [← Snapshot.workflow.inj hw']
  | vanish hm hw =>
    obtain ⟨w, hw⟩ := Option.isSome_iff_exists.mp hw
    exact h.append_of_le (fun _ => nofun) (fun x _ _ => x.rank_le) (mem_of_current hw) (Snapshot.rank_le _)

theorem course_next (timeout : Bool) {s : System} {a : Action} (hk : Asking s.view ∧ Existing s.view)
    (h : Course s.view) (he : a.Enabled s) : Course (a.next cfg timeout s).view :=
  course_step hk.1 hk.2 h (view_next cfg timeout s a he)

end FluxCoral2.Dws
