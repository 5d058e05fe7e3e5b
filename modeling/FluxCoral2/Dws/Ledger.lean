import FluxCoral2.Dws.Service

/-! What the handlers of the service do, in terms of a ledger.

A ledger is what the two-party results need to know of the service: which WorkflowInfo
is in the cache, the flags of each, whose timers there are, and what was sent of the
requests to move the workflow, to delete it, and to release the job (`Out.isMark`).
Each handler has one lemma that says what it does to the ledger. -/
namespace FluxCoral2.Dws
open Library

/-! ### Ledgers -/

structure Flags where
  toredown : Bool := false
  deleted : Bool := false
  epilogRemoved : Bool := false

def WorkflowInfo.flags (w : WorkflowInfo) : Flags := ⟨w.toredown, w.deleted, w.epilogRemoved⟩

/-- Entries of the log that move or delete the workflow or release the job. -/
def Out.isMark : Out → Bool
  | .created => true
  | .patchDesired _ _ => true
  | .teardownWorkflow => true
  | .deleteWorkflow => true
  | .prologRemove => true
  | .epilogRemove => true
  | _ => false

structure Ledger where
  cache : Option Nat
  made : Nat
  flags : Nat → Flags
  timers : List Nat
  marks : List Out

def Service.ledger (s : Service) : Ledger where
  cache := s.cache
  made := s.made
  flags := fun ref => (s.winfos ref).flags
  timers := s.timers.map Timer.winfo
  marks := s.out.filter Out.isMark

namespace Ledger

def mark (l : Ledger) (x : Out) : Ledger := {l with marks := l.marks ++ [x]}

def setFlags (l : Ledger) (ref : Nat) (f : Flags → Flags) : Ledger :=
  {l with flags := Function.update l.flags ref (f (l.flags ref))}

/-- A new WorkflowInfo in the cache. -/
def add (l : Ledger) : Ledger :=
  {l with cache := some l.made, made := l.made + 1, flags := Function.update l.flags l.made {}}

/-- The WorkflowInfo of the job, made when the cache has none. -/
def getRef (l : Ledger) : Nat := l.cache.getD l.made

def get (l : Ledger) : Ledger := if l.cache.isSome then l else l.add

/-- The cache has no WorkflowInfo of the job any more. -/
def forget (l : Ledger) : Ledger := {l with cache := none}

def startTimers (l : Ledger) (n : Nat) (ref : Nat) : Ledger :=
  {l with timers := l.timers ++ List.replicate n ref}

/-- The workflow is to be torn down. -/
def tearDown (l : Ledger) (ref : Nat) : Ledger :=
  (l.mark .teardownWorkflow).setFlags ref fun f => {f with toredown := true}

@[simp] theorem cache_get (l : Ledger) : l.get.cache = some l.getRef := by
  unfold get getRef add
  cases h : l.cache <;> simp [h]

@[simp] theorem marks_get (l : Ledger) : l.get.marks = l.marks := by
  unfold get
  split <;> rfl

@[simp] theorem timers_get (l : Ledger) : l.get.timers = l.timers := by
  unfold get
  split <;> rfl

/-- A WorkflowInfo that is made has no flag set. -/
theorem flags_add (l : Ledger) (ref : Nat) : l.add.flags ref = l.flags ref ∨ l.add.flags ref = {} := by
  show Function.update l.flags l.made {} ref = _ ∨ Function.update l.flags l.made {} ref = _
  by_cases h : ref = l.made
  · subst h
    exact .inr (Function.update_self _ _ _)
  · exact .inl (Function.update_of_ne h _ _)

theorem flags_get (l : Ledger) (ref : Nat) : l.get.flags ref = l.flags ref ∨ l.get.flags ref = {} := by
  unfold get
  split
  · exact .inl rfl
  · exact l.flags_add ref

theorem flags_setFlags_self (l : Ledger) (ref : Nat) (f : Flags → Flags) :
    (l.setFlags ref f).flags ref = f (l.flags ref) := Function.update_self _ _ _

theorem flags_setFlags_ne (l : Ledger) {ref r : Nat} (f : Flags → Flags) (h : r ≠ ref) :
    (l.setFlags ref f).flags r = l.flags r := Function.update_of_ne h _ _

theorem toredown_setFlags (l : Ledger) (ref : Nat) {f : Flags → Flags} (hf : ∀ g, (f g).toredown = g.toredown)
    (r : Nat) : ((l.setFlags ref f).flags r).toredown = (l.flags r).toredown := by
  by_cases h : r = ref
  · subst h
    rw [flags_setFlags_self, hf]
  · rw [flags_setFlags_ne _ _ h]

@[simp] theorem startTimers_zero (l : Ledger) (ref : Nat) : l.startTimers 0 ref = l := by
  unfold startTimers
  simp

theorem startTimers_startTimers (l : Ledger) (n m ref : Nat) :
    (l.startTimers n ref).startTimers m ref = l.startTimers (n + m) ref := by
  unfold startTimers
  simp [List.replicate_append_replicate]

@[simp] theorem setFlags_id (l : Ledger) (ref : Nat) : l.setFlags ref id = l := by
  unfold setFlags
  simp

theorem setFlags_tearDown (l : Ledger) (ref : Nat) :
    (l.tearDown ref).setFlags ref (fun f => {f with toredown := true}) = l.tearDown ref := by
  unfold tearDown setFlags
  simp

theorem flags_getRef {l : Ledger} {ref : Nat} (h : l.cache = some ref) :
    l.get.flags l.getRef = l.flags ref := by
  unfold Ledger.get Ledger.getRef
  rw [h]
  rfl

/-- A WorkflowInfo that records a teardown has not been made just now. -/
theorem toredown_of_get {l : Ledger} (h : (l.get.flags l.getRef).toredown = true) :
    ∃ ref, l.cache = some ref ∧ (l.flags ref).toredown = true := by
  cases hc : l.cache with
  | some ref =>
    rw [Ledger.flags_getRef hc] at h
    exact ⟨ref, rfl, h⟩
  | none =>
    have hnew : l.get.flags l.getRef = {} := by
      unfold Ledger.get Ledger.getRef
      rw [hc]
      exact Function.update_self _ _ _
    rw [hnew] at h
    cases h

end Ledger

/-! ### Steps that leave the ledger alone -/

abbrev Quiet {α : Type} (p : Cb α) : Prop := p.Keeps Service.ledger

theorem ledger_emit (x : Out) (s : Service) :
    (Prog.exec (emit x) s).2.ledger = if x.isMark then s.ledger.mark x else s.ledger := by
  show Service.ledger {s with out := s.out ++ [x]} = _
  unfold Service.ledger Ledger.mark
  cases h : x.isMark <;> simp [h]

theorem ledger_modifyWinfo (ref : Nat) (f : WorkflowInfo → WorkflowInfo) (g : Flags → Flags)
    (h : ∀ w, (f w).flags = g w.flags) (s : Service) :
    (Prog.exec (modifyWinfo ref f) s).2.ledger = s.ledger.setFlags ref g := by
  show Service.ledger {s with winfos := Function.update s.winfos ref (f (s.winfos ref))} = _
  unfold Service.ledger Ledger.setFlags
  congr 1
  funext r
  by_cases hr : r = ref
  · subst hr
    simp [h]
  · simp [hr]

end FluxCoral2.Dws
