import FluxCoral2.Slingshot.CxiService
import FluxCoral2.Slingshot.VniIsolation

/-! The reservation of a job, in the pool and in its event (`cray-slingshot.c`).

The plugin reserves VNIs when the job enters RUN and tells the rest of the system by the
`cray-slingshot` event it posts, which `flux-slingshot` reads on the job's nodes and checks
by a rule of its own. `reservations_agree`: from then on to the job's cleanup, the event and
the pool say the same, and the reader accepts it; after the cleanup nothing is reserved.

The callbacks take what the job manager gives them, and say what they ask of it (`Call`).
Of the steps of `post_event` any may fail; the other allocations do not. -/
namespace FluxCoral2.Slingshot
open Library

/-! ### The plugin -/

/-- `struct cray_slingshot`, as `calloc` leaves it. -/
structure CraySlingshot where
  vnipool : Vnipool := vnipoolCreate
  vnisPerJob : Int := 0
  vniReserveFatal : Bool := false

def vniPoolDefault : String := "1024-65535"
def vnisPerJobDefault : Int := 1
def vniReserveFatalDefault : Bool := true

/-- A JSON integer is unpacked to an `int`. -/
def unpackInt (n : Int) : Int := (BitVec.ofInt 32 n).toInt

/-- The `cray-slingshot` table of the configuration. -/
structure Conf where
  vniPool : Option String := none
  vnisPerJob : Option Int := none
  vniReserveFatal : Option Bool := none

/-- A configuration of the wrong types is not unpacked. The values of one that is in range
are in force even if its pool is refused. -/
def confUpdateCb (X : Externals) (ctx : CraySlingshot) (conf : Except String Conf) :
    CraySlingshot × Except String Unit :=
  match conf with
  | .error text => (ctx, .error ("cray-slingshot: error unpacking conf.update arguments: " ++ text))
  | .ok conf =>
    let vnisPerJob := (conf.vnisPerJob.map unpackInt).getD vnisPerJobDefault
    if vnisPerJob < 0 || vnisPerJob > 4 then
      (ctx, .error "cray-slingshot: cray-slingshot.vnis-per-job value out of range (0-4)")
    else
      let configured := vnipoolConfigure X ctx.vnipool (conf.vniPool.getD vniPoolDefault)
      ({vnipool := configured.1
        vnisPerJob := vnisPerJob
        vniReserveFatal := conf.vniReserveFatal.getD vniReserveFatalDefault},
        configured.2.mapError FluxError.text)

/-- The context of a `cray-slingshot` event. -/
structure Context where
  vnis : List Nat
  emptyReason : Option String := none
  deriving DecidableEq

/-- What the plugin asks of the job manager about a job. -/
inductive Call
  | eventPost (id : BitVec 64) (context : Context)
  | raiseException (id : BitVec 64) (text : String)
  deriving DecidableEq

/-- How far a call of `post_event` gets. -/
inductive Post | posted | noContext | notPosted
  deriving DecidableEq

def postEvent (post : Post) (id : BitVec 64) (vnis : List Nat) (emptyReason : Option String) : Except String Call :=
  match post with
  | .posted => .ok (.eventPost id {vnis := vnis, emptyReason := emptyReason})
  | .noContext => .error "error constructing cray-slingshot event context"
  | .notPosted => .error "error posting cray-slingshot event"

/-- The `vnicount` member of the shell options. -/
inductive Vnicount
  | absent
  | integer (n : Int)
  | other
  deriving DecidableEq

/-- The `cray-slingshot` shell options, by their JSON type. -/
inductive ShellOptions
  | string (s : String)
  | object (vnicount : Vnicount)
  | other
  deriving DecidableEq

/-- What the shell options ask for; `-1` is no count of their own. -/
inductive Request
  | off
  | count (n : Int)
  | malformed
  deriving DecidableEq

def shellRequest : Option ShellOptions → Request
  | none => .count (-1)
  | some (.string s) => if s = "off" then .off else .malformed
  | some (.object .absent) => .count (-1)
  | some (.object (.integer n)) => .count (unpackInt n)
  | some (.object .other) => .malformed
  | some .other => .malformed

/-- The exit `empty` of `job_state_run_cb`. -/
def postEmpty (post : Post) (id : BitVec 64) (emptyReason : String) : Call :=
  match postEvent post id [] (some emptyReason) with
  | .ok call => call
  | .error text => .raiseException id text

/-- `job.state.run`; an error of the arguments says that they have no shell options to be read. -/
def jobStateRunCb (X : Externals) (pick : Pick) (post : Post) (ctx : CraySlingshot) (id : BitVec 64)
    (options : Except String (Option ShellOptions)) (jerror : String) : CraySlingshot × Call :=
  match options with
  | .error text => (ctx, .raiseException id ("error unpacking job info: " ++ text))
  | .ok options =>
    match shellRequest options with
    | .off => (ctx, postEmpty post id "disabled by user request")
    | .malformed => (ctx, .raiseException id ("error parsing cray-slingshot shell options: " ++ jerror))
    | .count n =>
      let vnicount := if n = -1 then ctx.vnisPerJob else n
      if vnicount = 0 then (ctx, postEmpty post id "none requested")
      else
        match vnipoolReserve X {} pick ctx.vnipool id.toNat vnicount with
        | (vnipool, .error e) =>
          ({ctx with vnipool := vnipool},
            if ctx.vniReserveFatal then .raiseException id e.text else postEmpty post id e.text)
        | (vnipool, .ok vnis) =>
          match postEvent post id vnis none with
          | .ok call => ({ctx with vnipool := vnipool}, call)
          | .error text =>
            ({ctx with vnipool := (vnipoolRelease X vnipool id.toNat).1}, .raiseException id text)

/-- `job.state.cleanup`, with the job's id. A job without a reservation is no error. -/
def jobStateCleanupCb (X : Externals) (ctx : CraySlingshot) (id : Option (BitVec 64)) : CraySlingshot × Bool :=
  match id with
  | none => (ctx, false)
  | some id =>
    match vnipoolRelease X ctx.vnipool id.toNat with
    | (vnipool, .error e) => ({ctx with vnipool := vnipool}, e.errno = .ENOENT)
    | (vnipool, .ok ()) => ({ctx with vnipool := vnipool}, true)

/-! ### Jobs and configurations over time -/

/-- `ran` and `cleaned` are the jobs whose callbacks were called, `calls` what was asked of
the job manager. -/
structure Plugin where
  ctx : CraySlingshot := {}
  ran : List (BitVec 64) := []
  cleaned : List (BitVec 64) := []
  calls : List Call := []

inductive PluginOp
  | confUpdate (conf : Except String Conf)
  | run (pick : Pick) (post : Post) (id : BitVec 64) (options : Except String (Option ShellOptions))
      (jerror : String)
  | cleanup (id : BitVec 64)

/-- A job enters RUN once at most, and before its cleanup. -/
def PluginOp.Enabled (s : Plugin) : PluginOp → Prop
  | .run _ _ id _ _ => id ∉ s.ran ∧ id ∉ s.cleaned
  | _ => True

def PluginOp.next (X : Externals) (s : Plugin) : PluginOp → Plugin
  | .confUpdate conf => {s with ctx := (confUpdateCb X s.ctx conf).1}
  | .run pick post id options jerror =>
    let done := jobStateRunCb X pick post s.ctx id options jerror
    {s with ctx := done.1, ran := id :: s.ran, calls := s.calls ++ [done.2]}
  | .cleanup id => {s with ctx := (jobStateCleanupCb X s.ctx (some id)).1, cleaned := id :: s.cleaned}

def pluginMachine (X : Externals) : Machine Plugin PluginOp := ⟨{}, PluginOp.Enabled, PluginOp.next X⟩

def Call.posts (id : BitVec 64) : Call → Option Context
  | .eventPost id' context => if id' = id then some context else none
  | .raiseException _ _ => none

/-- The contexts of the events posted for a job. -/
def Plugin.posted (s : Plugin) (id : BitVec 64) : List Context := s.calls.filterMap (Call.posts id)

/-- The reservation of a job in the pool. -/
def Plugin.reservation (X : Externals) (s : Plugin) (id : BitVec 64) : Option (List Nat) :=
  s.ctx.vnipool.jobs.get? (X.idf58 id.toNat)

/-! ### What a job has -/

/-- What the pool has for a job and what was posted for it, between its run and its cleanup. -/
inductive Reserved (reservation : Option (List Nat)) (posted : List Context) : Prop
  | silent (hr : reservation = none) (hp : posted = [])
  | empty (emptyReason : String) (hr : reservation = none)
    (hp : posted = [{vnis := [], emptyReason := some emptyReason}])
  | granted {vnis : List Nat} (hr : reservation = some vnis) (hp : posted = [{vnis := vnis}]) (hne : vnis ≠ [])
    (hlength : vnis.length ≤ cxiSvcMaxVnis) (hnodup : vnis.Nodup) (hvalid : ∀ v ∈ vnis, v ∈ validVnis)

theorem reserved_raiseException {id : BitVec 64} {text : String} {reservation : Option (List Nat)}
    (hr : reservation = none) : Reserved reservation ((Call.raiseException id text).posts id).toList :=
  .silent hr rfl

theorem reserved_postEmpty (post : Post) (id : BitVec 64) (emptyReason : String) {reservation : Option (List Nat)}
    (hr : reservation = none) : Reserved reservation ((postEmpty post id emptyReason).posts id).toList := by
  cases post with
  | posted =>
    refine .empty emptyReason hr ?_
    show (if id = id then some (Context.mk [] (some emptyReason)) else none).toList = _
    rw [if_pos rfl]
    rfl
  | noContext => exact .silent hr rfl
  | notPosted => exact .silent hr rfl

/-- What `job_state_run_cb` may do to the pool and ask for. -/
structure RunDone (X : Externals) (ctx ctx' : CraySlingshot) (id : BitVec 64) (call : Call) : Prop where
  conserved : Conserved ctx'.vnipool
  others : ∀ k ≠ X.idf58 id.toNat, ctx'.vnipool.jobs.get? k = ctx.vnipool.jobs.get? k
  silent : ∀ id' ≠ id, call.posts id' = none
  reserved : Reserved (ctx'.vnipool.jobs.get? (X.idf58 id.toNat)) (call.posts id).toList

theorem posts_postEmpty (post : Post) {id id' : BitVec 64} (emptyReason : String) (h : id' ≠ id) :
    (postEmpty post id emptyReason).posts id' = none := by
  cases post with
  | posted => exact if_neg (Ne.symm h)
  | _ => rfl

section Run
variable {X : Externals} {ctx : CraySlingshot} {id : BitVec 64}

/-- An exit that files nothing, and that posts an empty event or none. -/
theorem RunDone.unfiled {vnipool : Vnipool} {call : Call} (hc : Conserved vnipool)
    (hjobs : vnipool.jobs = ctx.vnipool.jobs) (hn : ctx.vnipool.jobs.get? (X.idf58 id.toNat) = none)
    (hcall : (∃ text, call = .raiseException id text) ∨ ∃ post reason, call = postEmpty post id reason) :
    RunDone X ctx {ctx with vnipool := vnipool} id call := by
  have hnone : vnipool.jobs.get? (X.idf58 id.toNat) = none := hjobs ▸ hn
  rcases hcall with ⟨text, rfl⟩ | ⟨post, reason, rfl⟩
  · exact ⟨hc, fun k _ => by rw [← hjobs], fun _ _ => rfl, reserved_raiseException hnone⟩
  · exact ⟨hc, fun k _ => by rw [← hjobs], fun _ h => posts_postEmpty post reason h,
      reserved_postEmpty post id reason hnone⟩

theorem Malloc.integers (i : Nat) : ((({} : Malloc).jsonInteger i) && (({} : Malloc).arrayAppend i)) = true := rfl

/-- The exits after the reservation was granted: the event is posted, or the reservation goes back. -/
theorem runDone_granted (hc : Conserved ctx.vnipool) (hn : ctx.vnipool.jobs.get? (X.idf58 id.toNat) = none)
    {pick : Pick} {vnicount : Int} (hcount : vnicount ≠ 0) {vp : Vnipool} {vnis : List Nat}
    (h : vnipoolReserve X {} pick ctx.vnipool id.toNat vnicount = (vp, .ok vnis)) :
    RunDone X ctx {ctx with vnipool := vp} id (.eventPost id {vnis := vnis}) ∧
      ∀ text, RunDone X ctx {ctx with vnipool := (vnipoolRelease X vp id.toNat).1} id (.raiseException id text) := by
  have hconserved : Conserved vp := by
    have := conserved_reserve X (m := {}) rfl pick ctx.vnipool id.toNat vnicount hn hc
    rwa [h] at this
  obtain ⟨hlength, hle, mid, ht, rfl⟩ := vnipoolReserve_ok X Malloc.integers h
  have hother (k : String) (hk : k ≠ X.idf58 id.toNat) :
      (mid.jobs.set (X.idf58 id.toNat) vnis).get? k = ctx.vnipool.jobs.get? k := by
    rw [Dict.get?_set_ne _ _ hk, ht.jobs]
  have hne : vnis ≠ [] := by
    rintro rfl
    exact hcount hlength.symm
  have hvalid : ∀ v ∈ vnis, v ∈ validVnis := fun v hv => hc.valid (hc.configured (ht.free v hv))
  refine ⟨⟨hconserved, hother, fun _ hid => if_neg (Ne.symm hid), ?_⟩,
    fun text => ⟨?_, fun k hk => ?_, fun _ _ => rfl, ?_⟩⟩
  · refine .granted (Dict.get?_set_self _ _ _) ?_ hne hle ht.nodup hvalid
    show (if id = id then some (Context.mk vnis none) else none).toList = _
    rw [if_pos rfl]
    rfl
  · exact conserved_release X _ id.toNat hconserved
  · rw [get?_vnipoolRelease, if_neg hk]
    exact hother k hk
  · refine reserved_raiseException ?_
    rw [get?_vnipoolRelease, if_pos rfl]

theorem runDone (hc : Conserved ctx.vnipool) (hn : ctx.vnipool.jobs.get? (X.idf58 id.toNat) = none) (pick : Pick)
    (post : Post) (options : Except String (Option ShellOptions)) (jerror : String) :
    RunDone X ctx (jobStateRunCb X pick post ctx id options jerror).1 id
      (jobStateRunCb X pick post ctx id options jerror).2 := by
  have hsame (call : Call)
      (hcall : (∃ text, call = .raiseException id text) ∨ ∃ post reason, call = postEmpty post id reason) :
      RunDone X ctx ctx id call := .unfiled hc rfl hn hcall
  unfold jobStateRunCb
  cases options with
  | error text => exact hsame _ (.inl ⟨_, rfl⟩)
  | ok options =>
    dsimp only
    cases shellRequest options with
    | off => exact hsame _ (.inr ⟨post, _, rfl⟩)
    | malformed => exact hsame _ (.inl ⟨_, rfl⟩)
    | count n =>
      dsimp only
      generalize (if n = -1 then ctx.vnisPerJob else n) = vnicount
      by_cases hcount : vnicount = 0
      · rw [if_pos hcount]
        exact hsame _ (.inr ⟨post, _, rfl⟩)
      rw [if_neg hcount]
      cases hr : vnipoolReserve X {} pick ctx.vnipool id.toNat vnicount with
      | mk vp result =>
        cases result with
        | error e =>
          have hconserved := conserved_reserve X (m := {}) rfl pick ctx.vnipool id.toNat vnicount hn hc
          rw [hr] at hconserved
          refine .unfiled hconserved (vnipoolReserve_error X hr) hn ?_
          cases ctx.vniReserveFatal with
          | true => exact .inl ⟨e.text, rfl⟩
          | false => exact .inr ⟨post, e.text, rfl⟩
        | ok vnis =>
          obtain ⟨hposted, hback⟩ := runDone_granted hc hn hcount hr
          cases post with
          | posted => exact hposted
          | _ => exact hback _

end Run

/-! ### Over every run -/

structure Consistent (X : Externals) (s : Plugin) : Prop where
  conserved : Conserved s.ctx.vnipool
  unposted : ∀ id, id ∉ s.ran → s.posted id = []
  unreserved : ∀ id, id ∉ s.ran ∨ id ∈ s.cleaned → s.reservation X id = none
  running : ∀ id ∈ s.ran, id ∉ s.cleaned → Reserved (s.reservation X id) (s.posted id)

/-- Jobs have printed ids of their own. -/
def DistinctIds (X : Externals) : Prop := Function.Injective fun id : BitVec 64 => X.idf58 id.toNat

namespace Consistent
variable {X : Externals} {s : Plugin}

theorem init : Consistent X {} :=
  ⟨conserved_create, fun _ _ => rfl, fun _ _ => rfl, nofun⟩

/-- A change of the pool that leaves the reservations. -/
theorem withCtx (h : Consistent X s) {ctx : CraySlingshot} (hc : Conserved ctx.vnipool)
    (hjobs : ctx.vnipool.jobs = s.ctx.vnipool.jobs) : Consistent X {s with ctx := ctx} := by
  have hreservation (id : BitVec 64) : Plugin.reservation X {s with ctx := ctx} id = s.reservation X id :=
    congrArg (fun jobs : Dict String (List Nat) => jobs.get? (X.idf58 id.toNat)) hjobs
  refine ⟨hc, h.unposted, fun id hid => ?_, fun id hran hcleaned => ?_⟩
  · rw [hreservation]
    exact h.unreserved id hid
  · rw [hreservation]
    exact h.running id hran hcleaned

theorem confUpdate (h : Consistent X s) (conf : Except String Conf) :
    Consistent X {s with ctx := (confUpdateCb X s.ctx conf).1} := by
  unfold confUpdateCb
  cases conf with
  | error text => exact h
  | ok conf =>
    dsimp only
    generalize (conf.vnisPerJob.map unpackInt).getD vnisPerJobDefault = vnisPerJob
    split
    · exact h
    · exact h.withCtx (conserved_configure X _ _ h.conserved) (jobs_vnipoolConfigure X _ _)

/-- A job enters RUN: what it has is new, and what others have stays. -/
theorem run (hX : DistinctIds X) (h : Consistent X s) {id : BitVec 64} (hran : id ∉ s.ran)
    (hcleaned : id ∉ s.cleaned) {ctx : CraySlingshot} {call : Call} (hd : RunDone X s.ctx ctx id call) :
    Consistent X {s with ctx := ctx, ran := id :: s.ran, calls := s.calls ++ [call]} := by
  have hother {id' : BitVec 64} (hid : id' ≠ id) : Plugin.reservation X {s with ctx := ctx} id' = s.reservation X id' :=
    hd.others _ fun hkey => hid (hX hkey)
  have hposted (id' : BitVec 64) : Plugin.posted {s with calls := s.calls ++ [call]} id' =
      s.posted id' ++ (call.posts id').toList := by
    unfold Plugin.posted
    rw [List.filterMap_append]
    cases hp : call.posts id' <;> simp [hp]
  refine ⟨hd.conserved, fun id' hid => ?_, fun id' hid => ?_, fun id' hid hc => ?_⟩
  · rw [List.mem_cons, not_or] at hid
    refine (hposted id').trans ?_
    rw [h.unposted id' hid.2, hd.silent id' hid.1]
    rfl
  · have hne : id' ≠ id := by
      rintro rfl
      exact hid.elim (fun hid => hid List.mem_cons_self) hcleaned
    refine (hother hne).trans (h.unreserved id' (hid.imp_left fun hid hmem => hid (List.mem_cons_of_mem id hmem)))
  · by_cases hne : id' = id
    · subst hne
      have hnew : Plugin.posted {s with calls := s.calls ++ [call]} id' = (call.posts id').toList := by
        rw [hposted, h.unposted id' hran]
        rfl
      have hreserved := hd.reserved
      rw [← hnew] at hreserved
      exact hreserved
    · have hold : Plugin.posted {s with calls := s.calls ++ [call]} id' = s.posted id' := by
        rw [hposted, hd.silent id' hne]
        exact List.append_nil _
      have hrunning := h.running id' ((List.mem_cons.mp hid).resolve_left hne) hc
      rw [← hother hne, ← hold] at hrunning
      exact hrunning

theorem cleanup (hX : DistinctIds X) (h : Consistent X s) (id : BitVec 64) : Consistent X
    {s with ctx := (jobStateCleanupCb X s.ctx (some id)).1, cleaned := id :: s.cleaned} := by
  have hpool : (jobStateCleanupCb X s.ctx (some id)).1.vnipool = (vnipoolRelease X s.ctx.vnipool id.toNat).1 := by
    unfold jobStateCleanupCb
    dsimp only
    split <;> rename_i hr <;> rw [hr]
  have hreservation (id' : BitVec 64) : Plugin.reservation X
      {s with ctx := (jobStateCleanupCb X s.ctx (some id)).1} id' = if id' = id then none else s.reservation X id' := by
    unfold Plugin.reservation
    dsimp only
    rw [hpool, get?_vnipoolRelease]
    exact if_congr hX.eq_iff rfl rfl
  refine ⟨?_, h.unposted, fun id' hid => ?_, fun id' hran hcleaned => ?_⟩
  · show Conserved (jobStateCleanupCb X s.ctx (some id)).1.vnipool
    rw [hpool]
    exact conserved_release X _ _ h.conserved
  · refine (hreservation id').trans ?_
    by_cases hne : id' = id
    · exact if_pos hne
    · rw [if_neg hne]
      exact h.unreserved id' (hid.imp_right fun hc => (List.mem_cons.mp hc).resolve_left hne)
  · rw [List.mem_cons, not_or] at hcleaned
    have hrunning := h.running id' hran hcleaned.2
    rw [← (hreservation id').trans (if_neg hcleaned.1)] at hrunning
    exact hrunning

end Consistent

/-- The `vnis` array of an event, as JSON. -/
def Context.field (context : Context) : VnisField := .array ((context.vnis.map Int.ofNat).map .integer)

/-- The pool, the event posted for a job and the reader of the event agree. -/
structure Agrees (X : Externals) (s : Plugin) (id : BitVec 64) : Prop where
  once : (s.posted id).length ≤ 1
  reserved : (s.reservation X id).isSome = true ↔ ∃ context ∈ s.posted id, context.vnis ≠ []
  same : ∀ context ∈ s.posted id, context.vnis ≠ [] → s.reservation X id = some context.vnis
  bounded : ∀ context ∈ s.posted id, context.vnis ≠ [] →
    1 ≤ context.vnis.length ∧ context.vnis.length ≤ 4 ∧ context.vnis.Nodup
  accepted : ∀ context ∈ s.posted id, parseReservationVnis (some context.field) = some context.field

/-- Between the run and the cleanup of a job, and after its cleanup. -/
def ReservationsAgree (X : Externals) (s : Plugin) : Prop :=
  (∀ id ∈ s.ran, id ∉ s.cleaned → Agrees X s id) ∧ ∀ id ∈ s.cleaned, s.reservation X id = none

theorem accepted_of_valid {vnis : List Nat} (emptyReason : Option String) (hlength : vnis.length ≤ cxiSvcMaxVnis)
    (hvalid : ∀ v ∈ vnis, v ∈ validVnis) :
    parseReservationVnis (some (Context.mk vnis emptyReason).field) = some (Context.mk vnis emptyReason).field := by
  refine parseReservationVnis_integers ((List.length_map _).trans_le hlength) fun v hv => ?_
  obtain ⟨n, hn, rfl⟩ := List.mem_map.mp hv
  exact (isVni_iff n).mpr (hvalid n hn)

theorem agrees_of_reserved {X : Externals} {s : Plugin} {id : BitVec 64}
    (h : Reserved (s.reservation X id) (s.posted id)) : Agrees X s id := by
  cases h with
  | silent hr hp => constructor <;> simp [hr, hp]
  | empty emptyReason hr hp =>
    have hempty : parseReservationVnis (some (Context.mk [] (some emptyReason)).field) =
        some (Context.mk [] (some emptyReason)).field := accepted_of_valid _ (Nat.zero_le _) nofun
    constructor <;> simp [hr, hp, hempty]
  | granted hr hp hne hlength hnodup hvalid =>
    have haccepted := accepted_of_valid none hlength hvalid
    have hpos := List.length_pos_iff.mpr hne
    refine ⟨by rw [hp]; rfl, by simp [hr, hp, hne], ?_, ?_, ?_⟩ <;> intro context hc <;>
      rw [hp, List.mem_singleton] at hc <;> subst hc
    · exact fun _ => hr
    · exact fun _ => ⟨hpos, hlength, hnodup⟩
    · exact haccepted

theorem consistent_step {X : Externals} (hX : DistinctIds X) {s : Plugin} (h : Consistent X s) {op : PluginOp}
    (he : op.Enabled s) : Consistent X (op.next X s) := by
  cases op with
  | confUpdate conf => exact h.confUpdate conf
  | run pick post id options jerror =>
    exact h.run hX he.1 he.2 (runDone h.conserved (h.unreserved id (.inl he.1)) pick post options jerror)
  | cleanup id => exact h.cleanup hX id

/-- **The reservation event, the pool and the reader agree** in every state between the run and the
cleanup of a job, whatever the configurations, and after the cleanup the job has no reservation. -/
theorem reservations_agree (X : Externals) (hX : DistinctIds X) (ops : List PluginOp)
    (hp : (pluginMachine X).Possible (pluginMachine X).init ops) :
    (pluginMachine X).Always (ReservationsAgree X) (pluginMachine X).init ops := by
  refine Machine.always_from (C := fun _ _ => True) (Consistent X) (fun s h => ?_)
    (fun s op h he _ => consistent_step hX h he) Consistent.init hp
  exact ⟨fun id hran hcleaned => agrees_of_reserved (h.running id hran hcleaned),
    fun id hcleaned => h.unreserved id (.inr hcleaned)⟩

/-! ### Printed job ids -/

def f58Value (digits : List Char) (n : Nat) : Nat := digits.foldl (fun n c => 58 * n + base58.idxOf c) n

theorem f58Value_cons (c : Char) (digits : List Char) (n : Nat) :
    f58Value (c :: digits) n = f58Value digits (58 * n + base58.idxOf c) := by
  rw [f58Value, f58Value, List.foldl_cons]

theorem idxOf_base58 {d : Nat} (h : d < 58) : base58.idxOf (base58.getD d '1') = d := by
  have hall : ∀ d : Fin 58, base58.idxOf (base58.getD d '1') = d := by decide +kernel
  exact hall ⟨d, h⟩

/-- The digits of a number, read back. -/
theorem f58Value_digits {fuel n : Nat} (h : n < 58 ^ fuel) (hfuel : 0 < fuel) (acc : List Char) :
    f58Value (f58Digits fuel n acc) 0 = f58Value acc n := by
  induction fuel generalizing n acc with
  | zero => exact absurd hfuel (Nat.lt_irrefl 0)
  | succ fuel ih =>
    rw [f58Digits]
    split
    · rename_i hn
      rw [f58Value_cons, idxOf_base58 hn, Nat.mul_zero, Nat.zero_add]
    · rename_i hn
      rw [Nat.pow_succ] at h
      have hdiv : n / 58 < 58 ^ fuel := by omega
      have hpos : 0 < fuel := by
        refine Nat.pos_of_ne_zero fun hzero => ?_
        subst hzero
        omega
      rw [ih hdiv hpos, f58Value_cons, idxOf_base58 (Nat.mod_lt n (by decide)), Nat.div_add_mod]

theorem rfcExternals_distinctIds : DistinctIds rfcExternals := by
  intro a b h
  have hdigits : f58Digits 11 a.toNat [] = f58Digits 11 b.toNat [] :=
    (List.cons.inj (String.ofList_injective h)).2
  have hlt (id : BitVec 64) : id.toNat < 58 ^ 11 := Nat.lt_trans id.isLt (by decide)
  refine BitVec.eq_of_toNat_eq ?_
  calc a.toNat = f58Value (f58Digits 11 a.toNat []) 0 := (f58Value_digits (hlt a) (by decide) []).symm
    _ = f58Value (f58Digits 11 b.toNat []) 0 := by rw [hdigits]
    _ = b.toNat := f58Value_digits (hlt b) (by decide) []

/-- Of two jobs one gets no event, the other an event and then its cleanup; a third asks for none. -/
def threeJobs : List PluginOp :=
  [.confUpdate (.ok {vniPool := some "2-3"}), .run lowest .notPosted 7 (.ok none) "",
    .run lowest .posted 8 (.ok (some (.object (.integer 2)))) "", .confUpdate (.ok {}), .cleanup 8,
    .run lowest .posted 9 (.ok (some (.string "off"))) ""]

theorem threeJobs_agree : (pluginMachine rfcExternals).Always (ReservationsAgree rfcExternals)
    (pluginMachine rfcExternals).init threeJobs := by
  have hsecond : (8 : BitVec 64) ∉ [7] := by decide
  have hthird : (9 : BitVec 64) ∉ [8, 7] ∧ (9 : BitVec 64) ∉ [8] := by decide
  exact reservations_agree rfcExternals rfcExternals_distinctIds threeJobs
    ⟨trivial, trivial, ⟨nofun, nofun⟩, trivial, ⟨hsecond, nofun⟩, trivial, trivial, trivial, trivial, trivial, hthird,
      trivial, trivial⟩

end FluxCoral2.Slingshot
