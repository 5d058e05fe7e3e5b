import FluxCoral2.Eventlog.WaitFor
import Mathlib.Data.List.Basic
import Mathlib.Data.NNRat.Defs
import Mathlib.Tactic.NormNum

/-! Which event decides a wait (`eventlog.c`).

A decoder, a check and a parser look at the same things more than once. `Entry` says at once
which lines they take, and `Decides` which of these end the wait, in the words of the eventlog.
`decided_by_first`: without a timeout the first such line decides, and none behind it is read.
Names are read as C strings there, and the severity of an exception as an int. -/
namespace FluxCoral2.Eventlog

variable {jsonLoads : Text → Option Json} {eventName s : Text}

/-! ### Entries -/

/-- A line that is one object, with a name, a timestamp and, if there is one, a context. -/
structure Entry (jsonLoads : Text → Option Json) (s name : Text) (context : Option Json) : Prop where
  line : ∃ text, '\n' ∉ text ∧ s = text ++ ['\n']
  object : ∃ entry, jsonLoads s = some entry ∧ entry.isObject ∧ entry.get? keyName = some (.string name) ∧
    (entry.get? keyTimestamp).any Json.isNumber ∧ entry.get? keyContext = context
  context : context.all Json.isObject

/-- The newline is at the end, and nowhere else. -/
theorem line_iff :
    s.getLast? = some '\n' ∧ s.idxOf '\n' = s.length - 1 ↔ ∃ text, '\n' ∉ text ∧ s = text ++ ['\n'] := by
  constructor
  · rintro ⟨hlast, hidx⟩
    obtain ⟨text, rfl⟩ := List.getLast?_eq_some_iff.mp hlast
    refine ⟨text, fun hmem => ?_, rfl⟩
    have hlt := List.idxOf_lt_length_of_mem hmem
    rw [List.idxOf_append_of_mem hmem] at hidx
    simp at hidx
    omega
  · rintro ⟨text, hmem, rfl⟩
    rw [List.idxOf_append_of_notMem hmem]
    simp

theorem eventlogEntryDecode_iff {entry : Json} :
    eventlogEntryDecode jsonLoads s = some entry ↔
      (∃ text, '\n' ∉ text ∧ s = text ++ ['\n']) ∧ jsonLoads s = some entry ∧ eventlogEntryValidate entry := by
  rw [← line_iff]
  unfold eventlogEntryDecode
  grind

theorem eventlogEntryValidate_iff {entry : Json} :
    eventlogEntryValidate entry ↔ entry.isObject ∧ (∃ name, entry.get? keyName = some (.string name)) ∧
      (entry.get? keyTimestamp).any Json.isNumber ∧ (entry.get? keyContext).all Json.isObject := by
  have hname : (entry.get? keyName).any Json.isString ↔ ∃ name, entry.get? keyName = some (.string name) := by
    cases entry.get? keyName with
    | none => simp
    | some value => cases value <;> simp [Json.isString]
  simp only [eventlogEntryValidate, Bool.and_eq_true, hname, and_assoc]

theorem eventlogEntryParse_iff {entry : Json} {n : Text} {context : Option Json} :
    eventlogEntryParse entry = some (n, context) ↔
      (entry.get? keyTimestamp).any Json.isNumber ∧
      (∃ name, entry.get? keyName = some (.string name) ∧ cString name = n) ∧
      entry.get? keyContext = context ∧ context.all Json.isObject := by
  unfold eventlogEntryParse
  grind

/-- What is read of a line is the entry there, with its name as a C string. -/
theorem read_iff {n : Text} {context : Option Json} :
    (eventlogEntryDecode jsonLoads s).bind eventlogEntryParse = some (n, context) ↔
      ∃ name, Entry jsonLoads s name context ∧ cString name = n := by
  simp only [Option.bind_eq_some_iff, eventlogEntryDecode_iff, eventlogEntryValidate_iff, eventlogEntryParse_iff]
  constructor
  · rintro ⟨entry, ⟨hline, hloads, hobject, -⟩, htime, ⟨name, hname, rfl⟩, hcontext, hall⟩
    exact ⟨name, ⟨hline, ⟨entry, hloads, hobject, hname, htime, hcontext⟩, hall⟩, rfl⟩
  · rintro ⟨name, ⟨hline, ⟨entry, hloads, hobject, hname, htime, hcontext⟩, hall⟩, rfl⟩
    subst hcontext
    exact ⟨entry, ⟨hline, hloads, hobject, ⟨name, hname⟩, htime, hall⟩, htime, ⟨name, hname, rfl⟩, rfl, hall⟩

/-! ### The lines that decide -/

/-- How the name of an entry and the severity of an exception are read. -/
structure Reading where
  name : Text → Text
  isZero : BitVec 64 → Bool

def Reading.asWritten : Reading := ⟨id, fun severity => severity = 0⟩

/-- A name is read up to its first NUL, and a severity by its low bits. -/
def Reading.asInC : Reading := ⟨cString, fun severity => severity.setWidth 32 = 0⟩

/-- A line ends the wait: it is no entry, or a start, a fatal exception, or what is waited for. -/
inductive Decides (reading : Reading) (jsonLoads : Text → Option Json) (eventName s : Text) : Outcome → Prop
  | malformed : (∀ name context, ¬ Entry jsonLoads s name context) →
      Decides reading jsonLoads eventName s (.failed .parsing)
  | start {name : Text} {context : Option Json} : Entry jsonLoads s name context →
      reading.name name = start → Decides reading jsonLoads eventName s (.returned none)
  | exception {name : Text} {context : Option Json} {severity : BitVec 64} : Entry jsonLoads s name context →
      reading.name name = exception → context.bind (Json.get? keySeverity) = some (.integer severity) →
      reading.isZero severity → Decides reading jsonLoads eventName s (.returned none)
  | wanted {name : Text} {context : Option Json} : Entry jsonLoads s name context →
      reading.name name = eventName → Decides reading jsonLoads eventName s (.returned context)

/-- A response with a line that does not end the wait. -/
def Passes (reading : Reading) (jsonLoads : Text → Option Json) (eventName : Text) (response : Response) : Prop :=
  ∃ s, response.line = some s ∧ ∀ o, ¬ Decides reading jsonLoads eventName s o

/-- Without a timeout the first line that decides is the outcome, and the lines behind it are left.
If there is none, the wait goes on. -/
structure DecidedByFirst (reading : Reading) (jsonLoads : Text → Option Json) (eventName : Text) : Prop where
  first : ∀ timeout < 0, ∀ before response after s o,
    (∀ r ∈ before, Passes reading jsonLoads eventName r) → response.line = some s →
    Decides reading jsonLoads eventName s o →
    let run := eventlogWaitFor jsonLoads eventName timeout (before ++ response :: after)
    run.outcome = o ∧ run.left = after ∧ run.calls.length = before.length + 1
  undecided : ∀ timeout < 0, ∀ responses, (∀ r ∈ responses, Passes reading jsonLoads eventName r) →
    let run := eventlogWaitFor jsonLoads eventName timeout responses
    run.outcome = .waiting ∧ run.left = [] ∧ run.calls.length = responses.length + 1

theorem isFatal_iff {context : Option Json} :
    isFatal context ↔ ∃ severity, context.bind (Json.get? keySeverity) = some (.integer severity) ∧
      Reading.asInC.isZero severity := by
  unfold isFatal Reading.asInC
  grind

theorem doneWith_iff (hstart : eventName ≠ start) (hexception : eventName ≠ exception) {n : Text}
    {context obj : Option Json} :
    doneWith eventName n context = some obj ↔ n = start ∧ obj = none ∨
      n = exception ∧ isFatal context ∧ obj = none ∨ n = eventName ∧ obj = context := by
  have hne : exception ≠ start := by decide
  unfold doneWith
  grind

theorem verdict_iff (hstart : eventName ≠ start) (hexception : eventName ≠ exception) {o : Outcome} :
    verdict jsonLoads eventName s = some o ↔ Decides .asInC jsonLoads eventName s o := by
  constructor
  · intro h
    unfold verdict at h
    split at h
    · rename_i hread
      obtain rfl := Option.some.inj h
      exact .malformed fun name context hentry => by simp [read_iff.mpr ⟨name, hentry, rfl⟩] at hread
    · rename_i n context hread
      obtain ⟨name, hentry, rfl⟩ := read_iff.mp hread
      obtain ⟨obj, hdone, rfl⟩ := Option.map_eq_some_iff.mp h
      obtain ⟨hname, rfl⟩ | ⟨hname, hfatal, rfl⟩ | ⟨hname, rfl⟩ := (doneWith_iff hstart hexception).mp hdone
      · exact .start hentry hname
      · obtain ⟨severity, hseverity, hzero⟩ := isFatal_iff.mp hfatal
        exact .exception hentry hname hseverity hzero
      · exact .wanted hentry hname
  · -- an entry is read so, and the loop is done behind it
    have hdone {name context obj} (hentry : Entry jsonLoads s name context)
        (h : doneWith eventName (cString name) context = some obj) :
        verdict jsonLoads eventName s = some (.returned obj) := by
      simp [verdict, read_iff.mpr ⟨name, hentry, rfl⟩, h]
    rintro (hno | ⟨hentry, hname⟩ | ⟨hentry, hname, hseverity, hzero⟩ | ⟨hentry, hname⟩)
    · have hread : (eventlogEntryDecode jsonLoads s).bind eventlogEntryParse = none := by
        rw [Option.eq_none_iff_forall_ne_some]
        rintro ⟨n, context⟩ h
        obtain ⟨name, hentry, -⟩ := read_iff.mp h
        exact hno name context hentry
      simp [verdict, hread]
    · exact hdone hentry ((doneWith_iff hstart hexception).mpr (.inl ⟨hname, rfl⟩))
    · exact hdone hentry ((doneWith_iff hstart hexception).mpr
        (.inr (.inl ⟨hname, isFatal_iff.mpr ⟨_, hseverity, hzero⟩, rfl⟩)))
    · exact hdone hentry ((doneWith_iff hstart hexception).mpr (.inr (.inr ⟨hname, rfl⟩)))

/-! ### Lines with a NUL in the name, and a severity that is no int -/

def craySlingshot : Text := ['c', 'r', 'a', 'y', '-', 's', 'l', 'i', 'n', 'g', 's', 'h', 'o', 't']

/-- An entry at the time 1, with the members in `rest`. -/
def entryText (name rest : Text) : Text :=
  ['\x7b', '"'] ++ keyName ++ ['"', ':', '"'] ++ name ++ ['"', ',', '"'] ++ keyTimestamp ++ ['"', ':', '1'] ++ rest ++
    ['\x7d']

def wantedText : Text := entryText craySlingshot []

def wantedEntry : Json := .object [(keyName, .string craySlingshot), (keyTimestamp, .integer 1)]

/-- The decoder, on a line and on that of the event that is waited for. -/
def loadsTwo (text : Text) (entry : Json) (s : Text) : Option Json :=
  if s = text ++ ['\n'] then some entry else if s = wantedText ++ ['\n'] then some wantedEntry else none

def nulText : Text := entryText (start ++ ['\\', 'u', '0', '0', '0', '0']) []

def nulEntry : Json := .object [(keyName, .string (start ++ ['\x00'])), (keyTimestamp, .integer 1)]

def wideText : Text :=
  entryText exception ([',', '"'] ++ keyContext ++ ['"', ':', '\x7b', '"'] ++ keySeverity ++
    ['"', ':', '4', '2', '9', '4', '9', '6', '7', '2', '9', '6', '\x7d'])

def wideEntry : Json :=
  .object [(keyName, .string exception), (keyTimestamp, .integer 1),
    (keyContext, .object [(keySeverity, .integer 4294967296)])]

/-! ### The first line that decides -/

theorem verdict_of_passes (hstart : eventName ≠ start) (hexception : eventName ≠ exception) {response : Response}
    (h : Passes .asInC jsonLoads eventName response) :
    ∃ s, response.line = some s ∧ verdict jsonLoads eventName s = none := by
  obtain ⟨s, hline, hno⟩ := h
  refine ⟨s, hline, ?_⟩
  rw [Option.eq_none_iff_forall_ne_some]
  exact fun o ho => hno o ((verdict_iff hstart hexception).mp ho)

/-- The wait goes on unchanged behind the lines that do not decide. -/
theorem eventlogWaitFor_passes (hstart : eventName ≠ start) (hexception : eventName ≠ exception) {timeout : ℚ}
    (ht : timeout < 0) {before : List Response} (left : List Response)
    (h : ∀ r ∈ before, Passes .asInC jsonLoads eventName r) :
    let run := eventlogWaitFor jsonLoads eventName timeout (before ++ left)
    let last := eventlogWaitFor jsonLoads eventName timeout left
    run.outcome = last.outcome ∧ run.left = last.left ∧ run.calls.length = before.length + last.calls.length := by
  induction before with
  | nil => simp
  | cons r before ih =>
    obtain ⟨s, hline, hv⟩ := verdict_of_passes hstart hexception (h r (by simp))
    obtain ⟨houtcome, hleft, hcalls⟩ := ih fun r' hr' => h r' (List.mem_cons_of_mem r hr')
    have hneg : ¬ 0 ≤ timeout := not_le.mpr ht
    rw [List.cons_append, eventlogWaitFor_skip (fun h => absurd h hneg) hline hv, remaining, if_neg hneg]
    refine ⟨houtcome, hleft, ?_⟩
    simp only [List.length_cons, hcalls]
    omega

theorem decided_by_first (jsonLoads : Text → Option Json) (eventName : Text) (hstart : eventName ≠ start)
    (hexception : eventName ≠ exception) : DecidedByFirst .asInC jsonLoads eventName where
  first := by
    intro timeout ht before response after s o hbefore hline hdecides
    have hv := (verdict_iff hstart hexception).mpr hdecides
    have hintime : InTime timeout response := fun h => absurd h (not_le.mpr ht)
    have hpasses := eventlogWaitFor_passes hstart hexception ht (response :: after) hbefore
    rwa [eventlogWaitFor_done hintime hline hv] at hpasses
  undecided := by
    intro timeout ht responses hall
    have hpasses := eventlogWaitFor_passes hstart hexception ht [] hall
    rwa [List.append_nil, eventlogWaitFor, if_pos ht] at hpasses

theorem decided_craySlingshot : DecidedByFirst .asInC (loadsTwo nulText nulEntry) craySlingshot :=
  decided_by_first (loadsTwo nulText nulEntry) craySlingshot (by decide) (by decide)

theorem Entry.unique {name name' : Text} {context context' : Option Json} (h : Entry jsonLoads s name context)
    (h' : Entry jsonLoads s name' context') : name' = name ∧ context' = context := by
  obtain ⟨entry, hloads, -, hname, -, rfl⟩ := h.object
  obtain ⟨entry', hloads', -, hname', -, rfl⟩ := h'.object
  obtain rfl := Option.some.inj (hloads'.symm.trans hloads)
  have hsame := Option.some.inj (hname'.symm.trans hname)
  exact ⟨Json.string.inj hsame, rfl⟩

/-- An entry that does not end the wait as it is written, but ends it as it is read. -/
theorem not_decidedByFirst {o o' : Outcome} {wanted : Text} (hskip : ∀ o, ¬ Decides .asWritten jsonLoads eventName s o)
    (hv : verdict jsonLoads eventName s = some o) (hwanted : Decides .asWritten jsonLoads eventName wanted o') :
    ¬ DecidedByFirst .asWritten jsonLoads eventName := by
  intro h
  have hbefore : ∀ r ∈ [(⟨0, 0, some s⟩ : Response)], Passes .asWritten jsonLoads eventName r := by
    rintro r hr
    obtain rfl := List.mem_singleton.mp hr
    exact ⟨s, rfl, hskip⟩
  have hleft := (h.first (-1) (by norm_num) _ ⟨0, 0, some wanted⟩ [] wanted o' hbefore rfl hwanted).2.1
  have hintime : InTime (-1) ⟨0, 0, some s⟩ := fun h => by norm_num at h
  rw [List.singleton_append, eventlogWaitFor_done hintime rfl hv] at hleft
  cases hleft

section Lines
variable {text : Text} {entry : Json}

theorem loadsTwo_text : loadsTwo text entry (text ++ ['\n']) = some entry := if_pos rfl

theorem loadsTwo_wanted (hne : text ≠ wantedText) :
    loadsTwo text entry (wantedText ++ ['\n']) = some wantedEntry := by
  rw [loadsTwo, if_neg (by simpa using hne.symm), if_pos rfl]

theorem wanted_decides (hne : text ≠ wantedText) :
    Decides .asWritten (loadsTwo text entry) craySlingshot (wantedText ++ ['\n']) (.returned none) := by
  have hentry : Entry (loadsTwo text entry) (wantedText ++ ['\n']) craySlingshot none :=
    ⟨⟨_, by decide, rfl⟩, ⟨_, loadsTwo_wanted hne, rfl, rfl, rfl, rfl⟩, rfl⟩
  exact .wanted hentry rfl

theorem nulEntry_read : Entry (loadsTwo nulText nulEntry) (nulText ++ ['\n']) (start ++ ['\x00']) none :=
  ⟨⟨_, by decide, rfl⟩, ⟨_, loadsTwo_text, rfl, rfl, rfl, rfl⟩, rfl⟩

theorem wideEntry_read : Entry (loadsTwo wideText wideEntry) (wideText ++ ['\n']) exception
    (some (.object [(keySeverity, .integer 4294967296)])) :=
  ⟨⟨_, by decide, rfl⟩, ⟨_, loadsTwo_text, rfl, rfl, rfl, rfl⟩, rfl⟩

end Lines

theorem craySlingshot_ne : craySlingshot ≠ start ∧ craySlingshot ≠ exception := by decide

/-- An event `start` with a NUL behind it is taken for the start, and an exception of a severity
that is no int for a fatal one, where the event that is waited for comes behind them. -/
theorem nul_and_wide_decide :
    ¬ DecidedByFirst .asWritten (loadsTwo nulText nulEntry) craySlingshot ∧
      ¬ DecidedByFirst .asWritten (loadsTwo wideText wideEntry) craySlingshot := by
  obtain ⟨hstart, hexception⟩ := craySlingshot_ne
  constructor
  · refine not_decidedByFirst (fun o ho => ?_)
      ((verdict_iff hstart hexception).mpr (.start nulEntry_read rfl)) (wanted_decides (by decide))
    rcases ho with hno | ⟨hentry, hname⟩ | ⟨hentry, hname, -, -⟩ | ⟨hentry, hname⟩
    · exact hno _ _ nulEntry_read
    all_goals
      obtain ⟨rfl, -⟩ := nulEntry_read.unique hentry
      exact absurd hname (by decide)
  · refine not_decidedByFirst (fun o ho => ?_)
      ((verdict_iff hstart hexception).mpr (.exception wideEntry_read rfl rfl rfl)) (wanted_decides (by decide))
    rcases ho with hno | ⟨hentry, hname⟩ | ⟨hentry, hname, hseverity, hzero⟩ | ⟨hentry, hname⟩
    · exact hno _ _ wideEntry_read
    · obtain ⟨rfl, -⟩ := wideEntry_read.unique hentry
      exact absurd hname (by decide)
    · obtain ⟨-, rfl⟩ := wideEntry_read.unique hentry
      obtain rfl := Json.integer.inj (Option.some.inj hseverity)
      exact absurd hzero (by decide)
    · obtain ⟨rfl, -⟩ := wideEntry_read.unique hentry
      exact absurd hname (by decide)

end FluxCoral2.Eventlog
