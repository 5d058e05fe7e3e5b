import Mathlib.Algebra.Order.Monoid.Unbundled.WithTop
import Mathlib.Algebra.Order.Ring.Rat

/-! Waiting for an event of a job's eventlog (`eventlog.c`).

Each line of the eventlog is one event. A line is decoded, checked and taken apart, and then it
is the event that is waited for, or one behind which it does not come any more, or it is
skipped. The wait behind a skipped line has the time that is left. -/
namespace FluxCoral2.Eventlog

abbrev Text := List Char

/-- A JSON value, as the JSON library has it: an integer is a `json_int_t`. -/
inductive Json
  | null
  | bool (b : Bool)
  | integer (n : BitVec 64)
  | real (value : ℚ)
  | string (text : Text)
  | array (values : List Json)
  | object (members : List (Text × Json))

namespace Json

/-- `json_object_get`. -/
def get? (key : Text) : Json → Option Json
  | object members => members.lookup key
  | _ => none

def isObject : Json → Bool
  | object _ => true
  | _ => false

def isString : Json → Bool
  | string _ => true
  | _ => false

def isNumber : Json → Bool
  | integer _ => true
  | real _ => true
  | _ => false

end Json

/-! ### An entry -/

def keyName : Text := ['n', 'a', 'm', 'e']

def keyTimestamp : Text := ['t', 'i', 'm', 'e', 's', 't', 'a', 'm', 'p']

def keyContext : Text := ['c', 'o', 'n', 't', 'e', 'x', 't']

def keySeverity : Text := ['s', 'e', 'v', 'e', 'r', 'i', 't', 'y']

def start : Text := ['s', 't', 'a', 'r', 't']

def exception : Text := ['e', 'x', 'c', 'e', 'p', 't', 'i', 'o', 'n']

/-- A string as C has it, up to the first NUL. -/
def cString (text : Text) : Text := text.takeWhile fun c => c ≠ '\x00'

def eventlogEntryValidate (entry : Json) : Bool :=
  entry.isObject && (entry.get? keyName).any Json.isString && (entry.get? keyTimestamp).any Json.isNumber &&
    (entry.get? keyContext).all Json.isObject

/-- `json_loads` is that of the JSON library, which takes objects and arrays, and NULs in strings. -/
def eventlogEntryDecode (jsonLoads : Text → Option Json) (entry : Text) : Option Json :=
  if entry = [] then none
  else if entry.getLast? ≠ some '\n' then none
  else if entry.idxOf '\n' ≠ entry.length - 1 then none
  else
    match jsonLoads entry with
    | none => none
    | some o => if eventlogEntryValidate o then some o else none

/-- The name and the context of an entry. Nobody asks for the timestamp, which has to be there. -/
def eventlogEntryParse (entry : Json) : Option (Text × Option Json) :=
  if !(entry.get? keyTimestamp).any Json.isNumber then none
  else
    match entry.get? keyName with
    | some (.string name) =>
      match entry.get? keyContext with
      | none => some (cString name, none)
      | some context => if context.isObject then some (cString name, some context) else none
    | _ => none

/-! ### The loop -/

/-- What comes of a wait: the time until it is there, the time it takes to look at it, and the
line, or none if the eventlog ends or fails. -/
structure Response where
  arrival : ℚ≥0
  processing : ℚ≥0
  line : Option Text

/-- A call of `flux_future_wait_for`, which waits without an end if its timeout is negative. -/
structure Call where
  timeout : ℚ
  waited : WithTop ℚ

/-- What a failure says of the job's eventlog: that it is not read, or an entry not parsed. -/
inductive WaitError | reading | parsing

/-- A result, of which `obj` is written only if there is no failure. -/
inductive Outcome
  | failed (error : WaitError)
  | returned (obj : Option Json)
  | waiting

/-- The outcome, the calls, and the responses that are left. -/
structure Run where
  outcome : Outcome
  calls : List Call
  left : List Response

/-- The severity of an exception, unpacked into an int, is zero. -/
def isFatal (context : Option Json) : Bool :=
  match context.bind (Json.get? keySeverity) with
  | some (.integer severity) => severity.setWidth 32 = 0
  | _ => false

/-- What is returned behind an entry, if the loop is done. -/
def doneWith (eventName name : Text) (context : Option Json) : Option (Option Json) :=
  if name = start then some none
  else if name = exception then if isFatal context then some none else none
  else if name = eventName then some context
  else none

def adjustTimeout (timeout : ℚ) (since : ℚ) : ℚ := timeout - since

def eventlogWaitFor (jsonLoads : Text → Option Json) (eventName : Text) (timeout : ℚ) : List Response → Run
  | [] => if timeout < 0 then ⟨.waiting, [⟨timeout, ⊤⟩], []⟩ else ⟨.failed .reading, [⟨timeout, timeout⟩], []⟩
  | response :: left =>
    -- the response is too late
    if 0 ≤ timeout ∧ timeout < response.arrival then ⟨.failed .reading, [⟨timeout, timeout⟩], response :: left⟩
    else
      let call : Call := ⟨timeout, (response.arrival : ℚ)⟩
      match response.line with
      | none => ⟨.failed .reading, [call], left⟩
      | some s =>
        match (eventlogEntryDecode jsonLoads s).bind eventlogEntryParse with
        | none => ⟨.failed .parsing, [call], left⟩
        | some (name, context) =>
          match doneWith eventName name context with
          | some obj => ⟨.returned obj, [call], left⟩
          | none =>
            let timeout :=
              if 0 ≤ timeout then adjustTimeout timeout (response.arrival + response.processing) else timeout
            let run := eventlogWaitFor jsonLoads eventName timeout left
            {run with calls := call :: run.calls}

variable {jsonLoads : Text → Option Json} {eventName s : Text}

/-- What a line makes of the wait, or none if the loop goes on behind it. -/
def verdict (jsonLoads : Text → Option Json) (eventName s : Text) : Option Outcome :=
  match (eventlogEntryDecode jsonLoads s).bind eventlogEntryParse with
  | none => some (.failed .parsing)
  | some (name, context) => (doneWith eventName name context).map .returned

/-- The time that is left behind a skipped response. -/
def remaining (timeout : ℚ) (response : Response) : ℚ :=
  if 0 ≤ timeout then adjustTimeout timeout (response.arrival + response.processing) else timeout

/-- A response that is there before its timeout. -/
def InTime (timeout : ℚ) (response : Response) : Prop := 0 ≤ timeout → response.arrival ≤ timeout

theorem eventlogWaitFor_done {timeout : ℚ} {response : Response} {o : Outcome} {left : List Response}
    (ht : InTime timeout response) (hl : response.line = some s) (hv : verdict jsonLoads eventName s = some o) :
    eventlogWaitFor jsonLoads eventName timeout (response :: left) =
      ⟨o, [⟨timeout, (response.arrival : ℚ)⟩], left⟩ := by
  have hlate : ¬ (0 ≤ timeout ∧ timeout < response.arrival) := fun ⟨h₁, h₂⟩ => not_lt.mpr (ht h₁) h₂
  unfold verdict at hv
  rw [eventlogWaitFor, if_neg hlate, hl]
  grind

theorem eventlogWaitFor_skip {timeout : ℚ} {response : Response} {left : List Response}
    (ht : InTime timeout response) (hl : response.line = some s) (hv : verdict jsonLoads eventName s = none) :
    eventlogWaitFor jsonLoads eventName timeout (response :: left) =
      let run := eventlogWaitFor jsonLoads eventName (remaining timeout response) left
      {run with calls := ⟨timeout, (response.arrival : ℚ)⟩ :: run.calls} := by
  have hlate : ¬ (0 ≤ timeout ∧ timeout < response.arrival) := fun ⟨h₁, h₂⟩ => not_lt.mpr (ht h₁) h₂
  unfold verdict at hv
  rw [eventlogWaitFor, if_neg hlate, hl]
  grind [remaining]

end FluxCoral2.Eventlog
