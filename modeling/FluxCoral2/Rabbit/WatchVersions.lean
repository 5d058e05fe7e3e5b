import FluxCoral2.Library.ChangeLog
import FluxCoral2.Rabbit.Watch

/-! What a watch passes on (`watch.py`, and the list of `init_rabbits` in `storage.py`).

The server keeps a log of the changes of the resources. It answers a request from a version
with the changes after it, or with all that exists and then the changes, if the version is 0,
or with 410 in one of three ways. `watch_loses_nothing`: whenever a call has returned, the
watch has passed on each resource as it is, if that is not after the watch's version; and this
goes back to 0 on a 410 only. -/
namespace FluxCoral2.K8s
open Library

/-! ### Versions -/

theorem laterVersion_toString (current new : Nat) :
    laterVersion (toString current) (toString new) = toString (max current new) := by
  unfold laterVersion
  rw [IntString.parseInt_toString, IntString.parseInt_toString]
  dsimp only
  rcases Nat.lt_or_ge current new with h | h
  · rw [if_pos (Int.ofNat_lt.mpr h), Nat.max_eq_right (Nat.le_of_lt h)]
  · rw [if_neg (by omega), Nat.max_eq_left h]

/-! ### Requests -/

section Requests
variable {α σ : Type}

/-- `watch`, with its requests answered by `ask`. -/
def watchFrom (ask : Cb α σ (List (Event α) × Option Int)) (callback : α → Prog Exn σ Unit) : Nat → Cb α σ Unit
  | 0 => throw .recursionError
  | depth + 1 => do
    let stream ← retrying ask ask
    retrying (serve callback (watchFrom ask callback depth) stream.1 stream.2) (watchFrom ask callback depth)

theorem watch_eq_watchFrom (callback : α → Prog Exn σ Unit) (depth : Nat) :
    watch callback depth = watchFrom openStream callback depth := by
  induction depth with
  | zero => rfl
  | succ depth ih => rw [watch, watchFrom, ih]

end Requests

/-! ### The server -/

/-- How the server says that a version is too old. -/
inductive Gone | refused | event | exception

/-- What the server does on a request: the changes made before it and while its stream is on,
whether it finds the version too old, the order of what exists, and where the stream ends. -/
structure Handling (κ β : Type) where
  before : List (Write κ β) := []
  gone : Option Gone := none
  order : Shuffle (Change κ β) := .id
  during : List (Write κ β) := []
  delivered : Nat

def events {κ β : Type} (cs : List (Change κ β)) : List (Event (Change κ β)) :=
  changes (cs.map fun c => (toString c.version, c))

namespace Handling
variable {κ β : Type}

/-- Version 0 is never too old. -/
def tooOld (handling : Handling κ β) (version : Nat) : Option Gone := if version = 0 then none else handling.gone

theorem tooOld_zero (handling : Handling κ β) : handling.tooOld 0 = none := if_pos rfl

def log (handling : Handling κ β) (log : ChangeLog κ β) : ChangeLog κ β :=
  (log.writes handling.before).writes handling.during

/-- The stream from a version, on the log as it was before the request. -/
def stream [DecidableEq κ] (handling : Handling κ β) (version : Nat) (log : ChangeLog κ β) : List (Change κ β) :=
  let now := log.writes handling.before
  let later := handling.log log
  if version = 0 then handling.order.apply now.existing ++ (later.since now.last).take handling.delivered
  else (later.since version).take handling.delivered

def answer [DecidableEq κ] (handling : Handling κ β) (version : Nat) (log : ChangeLog κ β) :
    Except Exn (List (Event (Change κ β)) × Option Int) :=
  match handling.tooOld version with
  | some .refused => .error (.apiException 410)
  | some .event => .ok ([.error 410], none)
  | some .exception => .ok ([], some 410)
  | none => .ok (events (handling.stream version log), none)

end Handling

/-- The server, with how often it was asked and said 410, what was passed to the callback,
and what the callback works on. -/
structure Session (κ β σ : Type) where
  log : ChangeLog κ β
  requests : Nat := 0
  gone : Nat := 0
  passed : List (Change κ β) := []
  service : σ

section Server
variable {κ β σ : Type}

def Session.handle (s : Session κ β σ) (handling : Handling κ β) (version : Nat) : Session κ β σ :=
  {s with
    log := handling.log s.log
    requests := s.requests + 1
    gone := s.gone + if (handling.tooOld version).isSome then 1 else 0}

/-- The version of a watch. The number 0 that a watch starts from is its text here, which `int`
reads alike. -/
def Watch.version (w : Watch (Change κ β) (Session κ β σ)) : Nat :=
  ((IntString.parseInt w.resourceVersion.toList).getD 0).toNat

/-- `list_namespaced_custom_object`, in the state the server is in at its n-th request. -/
def ask [DecidableEq κ] (server : Nat → Handling κ β) :
    Cb (Change κ β) (Session κ β σ) (List (Event (Change κ β)) × Option Int) := do
  let w ← get
  let handling := server w.service.requests
  set {w with service := w.service.handle handling w.version}
  Prog.ofExcept (handling.answer w.version w.service.log)

/-- The callback, with what it is passed. -/
def record (callback : Change κ β → Prog Exn σ Unit) (c : Change κ β) : Prog Exn (Session κ β σ) Unit :=
  ExceptT.mk fun s =>
    ((Prog.exec (callback c) s.service).1,
      {s with passed := s.passed ++ [c], service := (Prog.exec (callback c) s.service).2})

/-- The loop of `init_rabbits` over the list of the rabbits. -/
def initRabbits (callback : Change κ β → Prog Exn σ Unit) (items : List (Change κ β)) :
    Cb (Change κ β) (Session κ β σ) Unit :=
  items.forM fun rabbit => do
    modify fun w => {w with resourceVersion := toString rabbit.version}
    call (record callback rabbit)

/-- How a watch starts: from version 0, or behind a list of what exists. -/
inductive Start (κ β : Type)
  | fresh
  | listed (order : Shuffle (Change κ β))

def Start.watch [DecidableEq κ] (start : Start κ β) (callback : Change κ β → Prog Exn σ Unit) (log : ChangeLog κ β)
    (service : σ) : Watch (Change κ β) (Session κ β σ) :=
  let new : Watch (Change κ β) (Session κ β σ) := ⟨"0", [], {log := log, service := service}⟩
  match start with
  | .fresh => new
  | .listed order => (Prog.exec (initRabbits callback (order.apply log.existing)) new).2

end Server

/-! ### A stream -/

section Streams
variable {κ β σ : Type} {callback : Change κ β → Prog Exn σ Unit}
  {again : Cb (Change κ β) (Session κ β σ) Unit} {w : Watch (Change κ β) (Session κ β σ)}

/-- The callback returns. -/
def Returns (callback : Change κ β → Prog Exn σ Unit) : Prop := ∀ c s, (Prog.exec (callback c) s).1 = .ok ()

/-- The watch after it has passed on some changes, at a version. -/
def Watch.pass (w : Watch (Change κ β) (Session κ β σ)) (version : Nat) (cs : List (Change κ β)) (service : σ) :
    Watch (Change κ β) (Session κ β σ) :=
  ⟨toString version, w.answers, {w.service with passed := w.service.passed ++ cs, service := service}⟩

theorem version_toString {v : Nat} (h : w.resourceVersion = toString v) : w.version = v := by
  unfold Watch.version
  rw [h, IntString.parseInt_toString]
  rfl

theorem exec_record (hreturns : Returns callback) (c : Change κ β) (s : Session κ β σ) : ∃ service,
    Prog.exec (record callback c) s = (.ok (), {s with passed := s.passed ++ [c], service := service}) :=
  ⟨_, Prod.ext (hreturns c s.service) rfl⟩

theorem exec_serve_events (again : Cb (Change κ β) (Session κ β σ) Unit) (hreturns : Returns callback) {v : Nat}
    (hv : w.resourceVersion = toString v) (cs : List (Change κ β)) : ∃ service,
    Prog.exec (serve (record callback) again (events cs) none) w =
      (.ok (), w.pass (ChangeLog.reached v cs) cs service) := by
  induction cs generalizing w v with
  | nil =>
    refine ⟨w.service.service, Prod.ext rfl ?_⟩
    show w = Watch.mk (toString v) _ _
    rw [← hv, List.append_nil]
  | cons c rest ih =>
    obtain ⟨service, hrecord⟩ := exec_record hreturns c w.service
    obtain ⟨service', hrest⟩ := ih (w := w.pass (max v c.version) [c] service) rfl
    refine ⟨service', ?_⟩
    rw [show events (c :: rest) = .changed (toString c.version) c :: events rest from rfl, exec_serve_changed,
      hrecord, hv, laterVersion_toString]
    refine hrest.trans (Prod.ext rfl ?_)
    simp [Watch.pass, ChangeLog.reached, List.append_assoc]

/-- The version of the list of rabbits is that of one of them. -/
theorem exec_initRabbits (hreturns : Returns callback) {v : Nat} (hv : w.resourceVersion = toString v)
    (items : List (Change κ β)) :
    ∃ v' service, Prog.exec (initRabbits callback items) w = (.ok (), w.pass v' items service) ∧
      (v' = v ∨ ∃ c ∈ items, v' = c.version) := by
  induction items generalizing w v with
  | nil =>
    refine ⟨v, w.service.service, Prod.ext rfl ?_, .inl rfl⟩
    show w = Watch.mk (toString v) _ _
    rw [← hv, List.append_nil]
  | cons c rest ih =>
    obtain ⟨service, hrecord⟩ := exec_record hreturns c w.service
    obtain ⟨v', service', hrest, hv'⟩ := ih (w := w.pass c.version [c] service) rfl
    have hfirst : Prog.exec (do
        modify fun w : Watch (Change κ β) (Session κ β σ) => {w with resourceVersion := toString c.version}
        call (record callback c)) w = (.ok (), w.pass c.version [c] service) := by
      refine (Prog.exec_bind_ok (Prog.exec_modify _ w) _).trans ?_
      rw [exec_call, hrecord]
      rfl
    refine ⟨v', service', (Prog.exec_bind_ok hfirst _).trans (hrest.trans (Prod.ext rfl ?_)), .inr ?_⟩
    · simp [Watch.pass, List.append_assoc]
    · rcases hv' with rfl | ⟨d, hd, rfl⟩
      · exact ⟨c, List.mem_cons_self, rfl⟩
      · exact ⟨d, List.mem_cons_of_mem c hd, rfl⟩

theorem exec_retrying_gone {γ : Type} {attempt again : Cb (Change κ β) (Session κ β σ) γ}
    {t : Watch (Change κ β) (Session κ β σ)} (h : Prog.exec attempt w = (.error (.apiException 410), t)) :
    Prog.exec (retrying attempt again) w = Prog.exec again {t with resourceVersion := "0"} := by
  rw [retrying, Prog.exec_tryCatch_error h, if_pos rfl]
  rfl

theorem exec_serve_gone (f : Change κ β → Prog Exn (Session κ β σ) Unit) :
    Prog.exec (serve f again [.error 410] none) w = Prog.exec again {w with resourceVersion := "0"} := by
  rw [serve, if_pos rfl]
  rfl

end Streams

/-! ### A call -/

section Calls
variable {κ β σ : Type} {server : Nat → Handling κ β} {callback : Change κ β → Prog Exn σ Unit}
  {w : Watch (Change κ β) (Session κ β σ)} {v : Nat}

/-- What the server does on the next request. -/
def Watch.handling (w : Watch (Change κ β) (Session κ β σ)) (server : Nat → Handling κ β) : Handling κ β :=
  server w.service.requests

/-- The watch behind the next request. -/
def Watch.asked (w : Watch (Change κ β) (Session κ β σ)) (server : Nat → Handling κ β) :
    Watch (Change κ β) (Session κ β σ) :=
  {w with service := w.service.handle (w.handling server) w.version}

/-- The watch after it was told 410. -/
def Watch.restarted (w : Watch (Change κ β) (Session κ β σ)) (server : Nat → Handling κ β) :
    Watch (Change κ β) (Session κ β σ) :=
  {w.asked server with resourceVersion := "0"}

theorem version_restarted (w : Watch (Change κ β) (Session κ β σ)) (server : Nat → Handling κ β) :
    (w.restarted server).resourceVersion = toString 0 := rfl

theorem gone_restarted {gone : Gone} (hv : w.resourceVersion = toString v)
    (hgone : (w.handling server).tooOld v = some gone) :
    (w.restarted server).service.gone = w.service.gone + 1 := by
  unfold Watch.restarted Watch.asked Session.handle
  rw [version_toString hv, hgone]
  rfl

/-- The version of a watch rises with what it passes on, from where it was, or from 0 after a 410. -/
def Rises (w t : Watch (Change κ β) (Session κ β σ)) : Prop :=
  ∃ base cs, (base = w.version ∨ base = 0 ∧ w.service.gone < t.service.gone) ∧
    t.service.passed = w.service.passed ++ cs ∧ t.version = ChangeLog.reached base cs

/-- The version goes back only if the server said 410. -/
theorem Rises.le {t : Watch (Change κ β) (Session κ β σ)} (h : Rises w t) (hgone : t.service.gone = w.service.gone) :
    w.version ≤ t.version := by
  obtain ⟨base, cs, hbase, -, hv⟩ := h
  rw [hv]
  rcases hbase with rfl | ⟨-, hlt⟩
  · exact ChangeLog.le_reached _ cs
  · exact absurd hgone.symm (Nat.ne_of_lt hlt)

variable [DecidableEq κ]

/-- The watch is at a version, of what it has passed on. -/
structure Current (w : Watch (Change κ β) (Session κ β σ)) (v : Nat) : Prop where
  version : w.resourceVersion = toString v
  caughtUp : ChangeLog.CaughtUp w.service.log v w.service.passed

theorem caughtUp_stream (handling : Handling κ β) {log : ChangeLog κ β} {seen : List (Change κ β)}
    (h : ChangeLog.CaughtUp log v seen) : ChangeLog.CaughtUp (handling.log log)
      (ChangeLog.reached v (handling.stream v log)) (seen ++ handling.stream v log) := by
  unfold Handling.stream
  by_cases hv : v = 0
  · subst hv
    exact ChangeLog.CaughtUp.list (log.writes handling.before) handling.order handling.during handling.delivered seen
  · rw [if_neg hv]
    exact ((h.writes handling.before).writes handling.during).read handling.delivered

theorem exec_ask (server : Nat → Handling κ β) (hv : w.resourceVersion = toString v) : Prog.exec (ask server) w =
    ((w.handling server).answer v w.service.log, w.asked server) := by
  rw [← version_toString hv]
  exact (Prog.exec_bind_ok (Prog.exec_get w) _).trans
    ((Prog.exec_bind_ok (Prog.exec_set _ w) _).trans (Prog.exec_ofExcept _ _))

/-- A request that is not too old. -/
theorem exec_ask_stream (hv : w.resourceVersion = toString v) (hno : (w.handling server).tooOld v = none) :
    Prog.exec (ask server) w = (.ok (events ((w.handling server).stream v w.service.log), none), w.asked server) := by
  rw [exec_ask server hv, Handling.answer, hno]

/-- The watch behind a stream that it was answered. -/
def Watch.read (w : Watch (Change κ β) (Session κ β σ)) (server : Nat → Handling κ β) (v : Nat) (service : σ) :
    Watch (Change κ β) (Session κ β σ) :=
  let cs := (w.handling server).stream v w.service.log
  (w.asked server).pass (ChangeLog.reached v cs) cs service

theorem exec_retrying_serve (server : Nat → Handling κ β) (hreturns : Returns callback)
    (again : Cb (Change κ β) (Session κ β σ) Unit) (hv : w.resourceVersion = toString v) : ∃ service,
    Prog.exec
      (retrying (serve (record callback) again (events ((w.handling server).stream v w.service.log)) none) again)
      (w.asked server) = (.ok (), w.read server v service) := by
  have hasked : (w.asked server).resourceVersion = toString v := hv
  obtain ⟨service, hserve⟩ := exec_serve_events again hreturns hasked ((w.handling server).stream v w.service.log)
  exact ⟨service, Prog.exec_tryCatch_ok hserve _⟩

/-- The watch passes on the stream, if there is one. -/
theorem exec_watch_stream (hreturns : Returns callback) (depth : Nat) (hv : w.resourceVersion = toString v)
    (hno : (w.handling server).tooOld v = none) : ∃ service,
    Prog.exec (watchFrom (ask server) (record callback) (depth + 1)) w = (.ok (), w.read server v service) := by
  obtain ⟨service, hserve⟩ := exec_retrying_serve server hreturns
    (watchFrom (ask server) (record callback) depth) hv
  refine ⟨service, ?_⟩
  rw [watchFrom]
  exact (Prog.exec_bind_ok (Prog.exec_tryCatch_ok (exec_ask_stream hv hno) _) _).trans hserve

/-- After a 410 the watch starts again, from version 0. -/
theorem exec_watch_gone (hreturns : Returns callback) (depth : Nat) (hv : w.resourceVersion = toString v) {gone : Gone}
    (hgone : (w.handling server).tooOld v = some gone) : ∃ service,
    Prog.exec (watchFrom (ask server) (record callback) (depth + 2)) w =
      (.ok (), (w.restarted server).read server 0 service) := by
  have hask := exec_ask server hv
  rw [Handling.answer, hgone] at hask
  have hzero := version_restarted w server
  have hno := Handling.tooOld_zero ((w.restarted server).handling server)
  obtain ⟨service, hagain⟩ := exec_watch_stream hreturns depth hzero hno
  rw [watchFrom]
  cases gone with
  | refused =>
    have hopen : Prog.exec (retrying (ask server) (ask server)) w = _ :=
      (exec_retrying_gone hask).trans (exec_ask_stream hzero hno)
    obtain ⟨service, hserve⟩ := exec_retrying_serve server hreturns
      (watchFrom (ask server) (record callback) (depth + 1)) hzero
    exact ⟨service, (Prog.exec_bind_ok hopen _).trans hserve⟩
  | event =>
    refine ⟨service, (Prog.exec_bind_ok (Prog.exec_tryCatch_ok hask _) _).trans ?_⟩
    exact Prog.exec_tryCatch_ok ((exec_serve_gone _).trans hagain) _
  | exception =>
    refine ⟨service, (Prog.exec_bind_ok (Prog.exec_tryCatch_ok hask _) _).trans ?_⟩
    exact (exec_retrying_gone rfl).trans hagain

theorem gone_read (h : w.resourceVersion = toString v) (hno : (w.handling server).tooOld v = none) (service : σ) :
    (w.read server v service).service.gone = w.service.gone := by
  unfold Watch.read Watch.pass Watch.asked Session.handle
  rw [version_toString h, hno]
  rfl

/-- A call returns, and what it passes on is what there is up to its version. -/
theorem call_returns (server : Nat → Handling κ β) (hreturns : Returns callback) (depth : Nat) (h : Current w v) :
    ∃ t v', Prog.exec (watchFrom (ask server) (record callback) (depth + 2)) w = (.ok (), t) ∧ Current t v' ∧
      Rises w t := by
  cases hgone : (w.handling server).tooOld v with
  | none =>
    obtain ⟨service, hwatch⟩ := exec_watch_stream hreturns (depth + 1) h.version hgone
    refine ⟨_, _, hwatch, ⟨rfl, caughtUp_stream (w.handling server) h.caughtUp⟩, v, _, ?_, rfl, version_toString rfl⟩
    exact .inl (version_toString h.version).symm
  | some gone =>
    obtain ⟨service, hwatch⟩ := exec_watch_gone hreturns depth h.version hgone
    have hcaught := ChangeLog.caughtUp_zero (w.restarted server).service.log (w.restarted server).service.passed
    refine ⟨_, _, hwatch, ⟨rfl, caughtUp_stream ((w.restarted server).handling server) hcaught⟩, 0, _, .inr ⟨rfl, ?_⟩,
      rfl, version_toString rfl⟩
    rw [gone_read (version_restarted w server) (Handling.tooOld_zero _), gone_restarted h.version hgone]
    exact Nat.lt_succ_self _

/-! ### Runs -/

/-- The watch after some calls. -/
def afterCalls (server : Nat → Handling κ β) (callback : Change κ β → Prog Exn σ Unit) (depth : Nat)
    (w : Watch (Change κ β) (Session κ β σ)) : Nat → Watch (Change κ β) (Session κ β σ)
  | 0 => w
  | calls + 1 =>
    (Prog.exec (watchFrom (ask server) (record callback) depth) (afterCalls server callback depth w calls)).2

theorem current_start (hreturns : Returns callback) (start : Start κ β) (log : ChangeLog κ β) (service : σ) :
    ∃ v, Current (start.watch callback log service) v := by
  cases start with
  | fresh => exact ⟨0, rfl, ChangeLog.caughtUp_zero log []⟩
  | listed order =>
    obtain ⟨v, service', hinit, hv⟩ := exec_initRabbits hreturns
      (w := ⟨"0", [], {log := log, service := service}⟩) (v := 0) rfl (order.apply log.existing)
    have hwatch : (Start.listed order).watch callback log service = _ := congrArg Prod.snd hinit
    rw [hwatch]
    refine ⟨v, rfl, ?_, fun c hc _ => List.mem_append_right _ ((order.perm _).mem_iff.mpr hc)⟩
    rcases hv with rfl | ⟨c, hc, rfl⟩
    · exact Nat.zero_le _
    · exact log.bounded c (ChangeLog.mem_existing.mp ((order.perm _).mem_iff.mp hc)).1

theorem current_afterCalls (server : Nat → Handling κ β) (hreturns : Returns callback) (depth : Nat)
    (h : Current w v) (calls : Nat) :
    ∃ v', Current (afterCalls server callback (depth + 2) w calls) v' := by
  induction calls with
  | zero => exact ⟨v, h⟩
  | succ calls ih =>
    obtain ⟨v', hcurrent⟩ := ih
    obtain ⟨t, v'', hexec, ht, -⟩ := call_returns server hreturns depth hcurrent
    rw [afterCalls, hexec]
    exact ⟨v'', ht⟩

/-- **A watch loses nothing**: each call returns, and then all that exists, up to the version of
the watch, has been passed on as it is; the version rises with what is passed on, but for 410. -/
theorem watch_loses_nothing (server : Nat → Handling κ β) (hreturns : Returns callback) (start : Start κ β)
    (log : ChangeLog κ β) (service : σ) (depth calls : Nat) :
    let w := afterCalls server callback (depth + 2) (start.watch callback log service) calls
    let call := Prog.exec (watchFrom (ask server) (record callback) (depth + 2)) w
    call.1 = .ok () ∧
      (∀ c ∈ call.2.service.log.existing, c.version ≤ call.2.version → c ∈ call.2.service.passed) ∧
      Rises w call.2 ∧ (call.2.service.gone = w.service.gone → w.version ≤ call.2.version) := by
  intro w call
  obtain ⟨v, hstart⟩ := current_start hreturns start log service
  obtain ⟨v', hcurrent⟩ := current_afterCalls server hreturns depth hstart calls
  obtain ⟨t, v'', hexec, ht, hrises⟩ := call_returns server hreturns depth hcurrent
  have hcall : call = (.ok (), t) := hexec
  rw [hcall]
  refine ⟨rfl, ?_, hrises, hrises.le⟩
  rw [version_toString ht.version]
  exact ht.caughtUp.seen

end Calls

/-- The server is asked first from 0; the second time the version is too old, and the rabbits
are listed the other way round. -/
def restless : Nat → Handling String Unit
  | 0 => {during := [{name := "rabbit2", object := ()}, {name := "rabbit1", object := ()}], delivered := 1}
  | 1 => {gone := some .event, delivered := 0}
  | _ => {order := .reverse, delivered := 3}

theorem restless_passed :
    let start := Start.fresh.watch (fun _ => pure ()) (ChangeLog.empty.write {name := "rabbit1", object := ()}) ()
    let call := Prog.exec (watchFrom (ask restless) (record fun _ => pure ()) 2)
      (afterCalls restless (fun _ => pure ()) 2 start 1)
    ∀ c ∈ call.2.service.log.existing, c.version ≤ call.2.version → c ∈ call.2.service.passed :=
  (watch_loses_nothing restless (fun _ _ => rfl) .fresh _ () 0 1).2.1

end FluxCoral2.K8s
