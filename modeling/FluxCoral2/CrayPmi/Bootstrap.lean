import Mathlib.Data.List.Basic
import FluxCoral2.Library.Machine

/-! Port numbers for Cray's libpmi (`cray-pmi-bootstrap.c`).

The plugin keeps the free ports of a configured range on an array stack with a
fill counter. A job that starts on more than one node gets two of them; they are
posted in the job's eventlog and stored on the job, and go back on the stack when
the job cleans up. Any library call of a start may fail (`RunCalls`). -/
namespace FluxCoral2.CrayPmi
open Library

/-! ### The stack of free ports -/

/-- An array of `maxsize` ports, of which the first `fill` are free. -/
structure PortRange where
  availablePorts : List Int
  fill : Nat
  maxsize : Nat
  length_eq : availablePorts.length = maxsize
  fill_le : fill ≤ maxsize

/-- A port, or -1 (ENOENT) when none is left. -/
def getPort (range : PortRange) : Int × PortRange :=
  if h : range.fill = 0 then (-1, range)
  else
    (range.availablePorts.get ⟨range.fill - 1, by have := range.fill_le; have := range.length_eq; omega⟩,
      {range with fill := range.fill - 1, fill_le := by have := range.fill_le; omega})

/-- 0, or -1 (ERANGE) when the array is full. -/
def setPort (range : PortRange) (port : Int) : Int × PortRange :=
  if h : range.fill ≥ range.maxsize then (-1, range)
  else
    (0, {range with
      availablePorts := range.availablePorts.set range.fill port
      fill := range.fill + 1
      length_eq := by rw [List.length_set, range.length_eq]
      fill_le := by omega})

def PortRange.available (range : PortRange) : List Int := range.availablePorts.take range.fill

theorem PortRange.length_available (range : PortRange) : range.available.length = range.fill := by
  have := range.fill_le
  have := range.length_eq
  simp [available]
  omega

/-- A port handed out was on top of the stack. -/
theorem getPort_spec (range : PortRange) :
    range.available = [] ∧ getPort range = (-1, range) ∨
      range.available = (getPort range).2.available ++ [(getPort range).1] ∧
        (getPort range).2.maxsize = range.maxsize := by
  by_cases h : range.fill = 0
  · left
    simp [PortRange.available, getPort, h]
  · right
    have hlt : range.fill - 1 < range.availablePorts.length := by
      have := range.fill_le
      have := range.length_eq
      omega
    have htop := List.take_succ_eq_append_getElem hlt
    rw [Nat.sub_add_cancel (by omega : 1 ≤ range.fill)] at htop
    unfold getPort
    rw [dif_neg h]
    exact ⟨htop, rfl⟩

/-- A port returned goes on top, unless the array is full. -/
theorem setPort_spec (range : PortRange) (port : Int) (h : range.fill < range.maxsize) :
    (setPort range port).1 = 0 ∧ (setPort range port).2.available = range.available ++ [port] ∧
      (setPort range port).2.maxsize = range.maxsize := by
  have hlen : range.fill < (range.availablePorts.set range.fill port).length := by
    rw [List.length_set, range.length_eq]
    exact h
  have htop := List.take_succ_eq_append_getElem hlen
  rw [List.getElem_set_self, List.take_set_of_le (Nat.le_refl _)] at htop
  unfold setPort
  rw [dif_neg (by omega)]
  exact ⟨rfl, htop, rfl⟩

/-! ### Loading the plugin -/

/-- Which calls of `flux_plugin_init` succeed, besides reading the configuration. -/
structure InitCalls where
  sodiumInit : Bool := true
  malloc : Bool := true
  addHandlers : Bool := true

/-- The configured port-min and port-max, or the defaults when they are not both given. -/
def portBounds (conf : Option (Int × Int)) : Int × Int := conf.getD (11000, 12000)

def fluxPluginInit (c : InitCalls) (conf : Option (Int × Int)) : Option PortRange :=
  let portMin := (portBounds conf).1
  let portMax := (portBounds conf).2
  if !c.sodiumInit then none
  else if portMin < 1024 || portMax < 1024 || portMax > 65536 then none
  else
    let size := portMax - portMin
    if size < 50 then none
    else if !c.malloc then none
    else if !c.addHandlers then none
    else some
      { availablePorts := (List.range size.toNat).map fun (i : Nat) => portMin + (i : Int)
        fill := size.toNat
        maxsize := size.toNat
        length_eq := by simp
        fill_le := Nat.le_refl _ }

/-! ### Job callbacks -/

/-- Which library calls of one `run_cb` succeed, once R has been read. -/
structure RunCalls where
  jsonPack : Bool := true
  eventPost : Bool := true
  auxSet : Bool := true

/-- A cray-pmi-bootstrap event in a job's eventlog. -/
structure Event where
  id : Nat
  ports : List Int
  randomInteger : Int

inductive Phase | waiting | ran | cleaned
  deriving DecidableEq

/-- A job as the plugin sees it; `aux` is the array stored as cray::libpmi::ports. -/
structure Job where
  phase : Phase := .waiting
  aux : Option (List Int) := none

structure Plugin where
  range : PortRange
  jobs : Nat → Job
  events : List Event

/-- `run_cb` for a job whose R decodes to the given hosts, or does not decode. Returns
the code, the stack, and what was posted and stored. -/
def runCb (c : RunCalls) (nodelist : Option (List String)) (range : PortRange) :
    Int × PortRange × Option (List Int) × Option (List Int) :=
  match nodelist with
  | none => (-1, range, none, none)
  | some hlist =>
    if hlist.length = 1 then (0, range, none, none)
    else
      let (port1, range) := getPort range
      if port1 < 0 then (-1, range, none, none)
      else
        let (port2, range) := getPort range
        if port2 < 0 then (-1, range, none, none)
        else if !c.jsonPack then (-1, range, none, none)
        else if !c.eventPost then (-1, range, none, none)
        else if !c.auxSet then (-1, range, some [port1, port2], none)
        else (0, range, some [port1, port2], some [port1, port2])

inductive Cleanup | ok | malformed | overflow
  deriving DecidableEq

/-- The loop of `cleanup_cb` over the stored array. -/
def returnPorts (range : PortRange) : List Int → Cleanup × PortRange
  | [] => (.ok, range)
  | portnum :: rest =>
    if portnum = 0 then (.malformed, range)
    else
      let (code, range) := setPort range portnum
      if code < 0 then (.overflow, range) else returnPorts range rest

/-- `cleanup_cb`: nothing to return for a job with no stored array. The array is made by
`run_cb`, so the check that it is one always passes. -/
def cleanupCb (range : PortRange) (aux : Option (List Int)) : Cleanup × PortRange :=
  match aux with
  | none => (.ok, range)
  | some array => returnPorts range array

/-! ### The plugin as a machine -/

inductive Op
  | run (id : Nat) (c : RunCalls) (nodelist : Option (List String)) (random : Int)
  | cleanup (id : Nat)

/-- A job runs at most once, and cleans up at most once, after which it does not run. -/
def Op.Enabled (s : Plugin) : Op → Prop
  | .run id _ _ _ => (s.jobs id).phase = .waiting
  | .cleanup id => (s.jobs id).phase ≠ .cleaned

def Op.apply (s : Plugin) : Op → Plugin
  | .run id c nodelist random =>
    let (_, range, posted, aux) := runCb c nodelist s.range
    { range := range
      jobs := Function.update s.jobs id ⟨.ran, aux⟩
      events := s.events ++ (posted.toList.map fun ports => ⟨id, ports, random⟩) }
  | .cleanup id =>
    {s with
      range := (cleanupCb s.range (s.jobs id).aux).2
      jobs := Function.update s.jobs id {s.jobs id with phase := .cleaned}}

instance (s : Plugin) (op : Op) : Decidable (op.Enabled s) := by
  cases op
  · exact inferInstanceAs (Decidable (_ = _))
  · exact inferInstanceAs (Decidable (¬ _ = _))

def bootstrapMachine (range : PortRange) : Machine Plugin Op :=
  ⟨⟨range, fun _ => {}, []⟩, Op.Enabled, Op.apply⟩

/-- The ports of a job that has run and not cleaned up. -/
def Plugin.recorded (s : Plugin) (id : Nat) : Option (List Int) :=
  if (s.jobs id).phase = .ran then (s.jobs id).aux else none

/-- A start takes ports off the top of the stack; if it stores any, they are those. -/
theorem runCb_spec (c : RunCalls) (nodelist : Option (List String)) (range : PortRange) :
    ∃ taken, range.available = (runCb c nodelist range).2.1.available ++ taken.reverse ∧
      (runCb c nodelist range).2.1.maxsize = range.maxsize ∧
      ((runCb c nodelist range).2.2.2 = none ∨ (runCb c nodelist range).2.2.2 = some taken) := by
  unfold runCb
  split
  · exact ⟨[], by simp, rfl, .inl rfl⟩
  · split
    · exact ⟨[], by simp, rfl, .inl rfl⟩
    · rcases getPort_spec range with ⟨_, hempty⟩ | ⟨htop, hsize⟩
      · rw [hempty]
        exact ⟨[], by simp, rfl, .inl rfl⟩
      · dsimp only
        split
        · exact ⟨[(getPort range).1], by simpa using htop, hsize, .inl rfl⟩
        · rcases getPort_spec (getPort range).2 with ⟨_, hempty'⟩ | ⟨htop', hsize'⟩
          · rw [hempty']
            exact ⟨[(getPort range).1], by simpa using htop, hsize, .inl rfl⟩
          · have htwo : range.available = (getPort (getPort range).2).2.available ++
                [(getPort range).1, (getPort (getPort range).2).1].reverse := by
              rw [htop, htop']
              simp
            have hsize₂ := hsize'.trans hsize
            split
            · exact ⟨_, htwo, hsize₂, .inl rfl⟩
            split
            · exact ⟨_, htwo, hsize₂, .inl rfl⟩
            split
            · exact ⟨_, htwo, hsize₂, .inl rfl⟩
            split
            · exact ⟨_, htwo, hsize₂, .inl rfl⟩
            · exact ⟨_, htwo, hsize₂, .inr rfl⟩

end FluxCoral2.CrayPmi
