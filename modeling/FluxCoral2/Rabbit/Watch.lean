import FluxCoral2.Library.IntString
import FluxCoral2.Library.Prog

/-! Watches on resources (`watch.py`).

A watch asks the API server for a stream of events and calls back for each of them. If the
resource version it asks from is too old, the server says so with the code 410, in an
exception or in an ERROR event, and the watch starts again from version 0.

Nothing but an exception of the API server is caught. So a watch goes on behind events whose
callbacks return (`exec_serve_ok`), raises what the first other one raises
(`exec_serve_error`), and returns if there is none (`watch_returns`). -/
namespace FluxCoral2.K8s
open Library

inductive Exn
  | apiException (status : Int)
  | keyError (key : String)
  | valueError
  | recursionError
  | other
  deriving DecidableEq

/-- An event of a stream: one of an object, or an ERROR event, which has no resource version. -/
inductive Event (α : Type)
  | changed (resourceVersion : String) (object : α)
  | error (code : Int)

/-- What the API server answers: an exception, or events and then an exception or none. -/
inductive Answer (α : Type)
  | refused (status : Int)
  | stream (events : List (Event α)) (raises : Option Int)

/-- A watch, the answers that are to come, and what the callback works on. -/
structure Watch (α σ : Type) where
  resourceVersion : String
  answers : List (Answer α)
  service : σ

variable {α σ : Type}

abbrev Cb (α σ : Type) := Prog Exn (Watch α σ)

/-- The next answer; a server that does not answer is some other exception. -/
def openStream : Cb α σ (List (Event α) × Option Int) := do
  let w ← get
  match w.answers with
  | [] => throw .other
  | .refused status :: answers => do
    set {w with answers := answers}
    throw (.apiException status)
  | .stream events raises :: answers => do
    set {w with answers := answers}
    pure (events, raises)

def reset : Cb α σ Unit := modify fun w => {w with resourceVersion := "0"}

/-- Tries something else from version 0 if the version was too old. -/
def retrying {β : Type} (attempt again : Cb α σ β) : Cb α σ β :=
  tryCatch attempt fun e =>
    if e = .apiException 410 then do
      reset
      again
    else throw e

/-- The later of two versions; if one is no number, the new one. -/
def laterVersion (current new : String) : String :=
  match IntString.parseInt new.toList, IntString.parseInt current.toList with
  | some n, some c => if c < n then new else current
  | _, _ => new

/-- Runs a callback. -/
def call {β : Type} (callback : Prog Exn σ β) : Cb α σ β :=
  ExceptT.mk fun w => ((Prog.exec callback w.service).1, {w with service := (Prog.exec callback w.service).2})

/-- The loop over a stream; `watch` is `self.watch()`. -/
def serve (callback : α → Prog Exn σ Unit) (watch : Cb α σ Unit) :
    List (Event α) → Option Int → Cb α σ Unit
  | [], none => pure ()
  | [], some status => throw (.apiException status)
  | .error code :: _, _ =>
    if code = 410 then do
      reset
      watch
    else throw (.keyError "resourceVersion")
  | .changed version object :: rest, raises => do
    modify fun w => {w with resourceVersion := laterVersion w.resourceVersion version}
    call (callback object)
    serve callback watch rest raises

/-- `watch`, which calls itself at most this often. -/
def watch (callback : α → Prog Exn σ Unit) : Nat → Cb α σ Unit
  | 0 => throw .recursionError
  | depth + 1 => do
    let stream ← retrying openStream openStream
    retrying (serve callback (watch callback depth) stream.1 stream.2) (watch callback depth)

/-! ### What a watch does -/

/-- The events of these objects, with their resource versions. -/
def changes (objects : List (String × α)) : List (Event α) := objects.map fun o => .changed o.1 o.2

/-- Calls back for the objects in order. -/
def callAll (callback : α → Prog Exn σ Unit) (objects : List (String × α)) : Prog Exn σ Unit :=
  objects.forM fun o => callback o.2

variable {callback : α → Prog Exn σ Unit} {again : Cb α σ Unit} {objects : List (String × α)}
  {rest : List (Event α)} {raises : Option Int} {w : Watch α σ} {s : σ}

theorem exec_call {β : Type} (callback : Prog Exn σ β) : Prog.exec (call callback) w =
    ((Prog.exec callback w.service).1, {w with service := (Prog.exec callback w.service).2}) := rfl

theorem exec_serve_changed (version : String) (object : α) :
    Prog.exec (serve callback again (.changed version object :: rest) raises) w =
      match Prog.exec (callback object) w.service with
      | (.ok _, s) =>
        Prog.exec (serve callback again rest raises) ⟨laterVersion w.resourceVersion version, w.answers, s⟩
      | (.error e, s) => (.error e, ⟨laterVersion w.resourceVersion version, w.answers, s⟩) := by
  rw [serve, Prog.exec_bind_ok (Prog.exec_modify _ w), Prog.exec_bind, exec_call]
  cases Prog.exec (callback object) w.service with
  | mk r s => cases r <;> rfl

theorem callAll_cons (o : String × α) (objects : List (String × α)) :
    callAll callback (o :: objects) = callback o.2 >>= fun _ => callAll callback objects := rfl

/-- Behind callbacks that return the watch goes on with the next event. -/
theorem exec_serve_ok (h : Prog.exec (callAll callback objects) w.service = (.ok (), s)) :
    ∃ version, Prog.exec (serve callback again (changes objects ++ rest) raises) w =
      Prog.exec (serve callback again rest raises) {w with resourceVersion := version, service := s} := by
  induction objects generalizing w with
  | nil =>
    obtain ⟨-, rfl⟩ := Prod.mk.inj h
    exact ⟨w.resourceVersion, rfl⟩
  | cons o objects ih =>
    rw [callAll_cons] at h
    obtain ⟨_, s', hfirst, hrest⟩ := Prog.exec_bind_eq_ok.mp h
    rw [changes, List.map_cons, List.cons_append, exec_serve_changed, hfirst]
    exact ih hrest

/-- An exception of a callback ends the loop. -/
theorem exec_serve_error {e : Exn} (h : Prog.exec (callAll callback objects) w.service = (.error e, s)) :
    ∃ version, Prog.exec (serve callback again (changes objects ++ rest) raises) w =
      (.error e, {w with resourceVersion := version, service := s}) := by
  induction objects generalizing w with
  | nil => cases h
  | cons o objects ih =>
    rw [callAll_cons, Prog.exec_bind] at h
    rw [changes, List.map_cons, List.cons_append, exec_serve_changed]
    cases hfirst : Prog.exec (callback o.2) w.service with
    | mk r s' =>
      rw [hfirst] at h
      cases r with
      | ok _ => exact ih h
      | error e' =>
        obtain ⟨heq, rfl⟩ := Prod.mk.inj h
        exact ⟨_, by rw [Except.error.inj heq]⟩

/-- Calling back for all objects raises what one of the callbacks may raise. -/
theorem raises_callAll {P : Exn → Prop} (h : ∀ object, Prog.Raises P (callback object))
    (objects : List (String × α)) : Prog.Raises P (callAll callback objects) := by
  induction objects with
  | nil => exact .pure ()
  | cons o objects ih => exact .bind (h o.2) fun _ => ih

section
variable {answers : List (Answer α)} (hstream : w.answers = .stream (changes objects) none :: answers) (depth : Nat)
include hstream

theorem exec_watch : Prog.exec (watch callback (depth + 1)) w =
    Prog.exec (retrying (serve callback (watch callback depth) (changes objects) none) (watch callback depth))
      {w with answers := answers} := by
  have hopen : Prog.exec (retrying openStream openStream) w =
      (.ok (changes objects, none), {w with answers := answers}) := by
    refine Prog.exec_tryCatch_ok ?_ _
    unfold openStream
    rw [Prog.exec_bind_ok (Prog.exec_get w), hstream]
    rfl
  rw [watch, Prog.exec_bind_ok hopen]

theorem exec_watch_ok (h : Prog.exec (callAll callback objects) w.service = (.ok (), s)) :
    ∃ version, Prog.exec (watch callback (depth + 1)) w = (.ok (), ⟨version, answers, s⟩) := by
  obtain ⟨version, hserve⟩ : ∃ version,
      Prog.exec (serve callback (watch callback depth) (changes objects ++ []) none) {w with answers := answers} =
        (.ok (), ⟨version, answers, s⟩) := exec_serve_ok h
  rw [List.append_nil] at hserve
  exact ⟨version, by rw [exec_watch hstream]; exact Prog.exec_tryCatch_ok hserve _⟩

/-- An exception that is not caught ends the watch, and the service is left as it is. -/
theorem exec_watch_error {e : Exn} (hne : e ≠ .apiException 410)
    (h : Prog.exec (callAll callback objects) w.service = (.error e, s)) :
    ∃ version, Prog.exec (watch callback (depth + 1)) w = (.error e, ⟨version, answers, s⟩) := by
  obtain ⟨version, hserve⟩ : ∃ version,
      Prog.exec (serve callback (watch callback depth) (changes objects ++ []) none) {w with answers := answers} =
        (.error e, ⟨version, answers, s⟩) := exec_serve_error h
  rw [List.append_nil] at hserve
  refine ⟨version, ?_⟩
  rw [exec_watch hstream, retrying, Prog.exec_tryCatch_error hserve, if_neg hne]
  rfl

/-- **A watch returns** exactly if all callbacks do, where they raise nothing that is caught. -/
theorem watch_returns (hcaught : ∀ object, Prog.Raises (fun e => e ≠ .apiException 410) (callback object)) :
    (∃ t, Prog.exec (watch callback (depth + 1)) w = (.ok (), t) ∧ t.service = s) ↔
      Prog.exec (callAll callback objects) w.service = (.ok (), s) := by
  constructor
  · rintro ⟨t, hreturns, rfl⟩
    cases hall : Prog.exec (callAll callback objects) w.service with
    | mk r s =>
      cases r with
      | ok _ =>
        obtain ⟨version, hwatch⟩ := exec_watch_ok hstream depth hall
        rw [hwatch] at hreturns
        rw [← (Prod.mk.inj hreturns).2]
      | error e =>
        have hne : e ≠ .apiException 410 := raises_callAll hcaught objects _ _ _ hall
        obtain ⟨version, hwatch⟩ := exec_watch_error hstream depth hne hall
        rw [hwatch] at hreturns
        cases hreturns
  · intro h
    obtain ⟨version, hwatch⟩ := exec_watch_ok hstream depth h
    exact ⟨_, hwatch, rfl⟩

end

end FluxCoral2.K8s
