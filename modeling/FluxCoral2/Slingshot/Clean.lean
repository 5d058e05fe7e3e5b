import FluxCoral2.Slingshot.Commands
import FluxCoral2.Slingshot.VniIsolation

/-! Cleaning a node (`cmd_clean` of `flux-slingshot.c`).

`clean` destroys, on every device, all services that have a VNI of the configured pool and are
no system services. `clean_ends`: whatever fails, no other service is touched; a destroy that
fails crashes it, with nothing tried again, and a status of 0 says that none of the services is
left on the devices that were opened and listed. -/
namespace FluxCoral2.Slingshot
open Library

/-! ### The command -/

def matchVnipool (vnipool : Idset) (desc : CxiSvcDesc) : Bool :=
  if !desc.isSystemSvc then
    (List.range desc.numVldVnis).any fun i => (desc.vnis.toList.getD i 0).toNat ∈ vnipool
  else false

/-- The pool of the configuration, as the broker answers: an error, or the value if there is one. -/
def lookupVnipool (X : Externals) (config : Except Unit (Option String)) : Option Idset :=
  match config with
  | .error () => none
  | .ok vnipool =>
    match X.decode (vnipool.getD vniPoolDefault) with
    | .error _ => none
    | .ok vnipool => some vnipool

structure CleanArgs where
  freeArguments : Bool := false
  retryBusy : Option (Option ℚ) := none
  dryRun : Bool := false
  broker : Bool := true
  config : Except Unit (Option String)

def cmdClean (X : Externals) (args : CleanArgs) (rounds : List Round) (devs : List CxilDev) : Exit × List CxilDev :=
  if args.freeArguments then (.code 1, devs)
  else
    match args.retryBusy.getD (some (-1)) with
    | none => (.code 1, devs)
    | some timeout =>
      if !args.broker then (.code 1, devs)
      else
        match lookupVnipool X args.config with
        | none => (.code 1, devs)
        | some vnipool => retryLoop args.dryRun true (matchVnipool vnipool) timeout rounds devs

/-! ### A device -/

/-- A service that is tried cannot be destroyed. -/
def Libcxi.Refuses (c : Libcxi) (matchfun : CxiSvcDesc → Bool) (dev : CxilDev) : Prop :=
  ∃ desc ∈ dev.svcs, matchfun desc = true ∧ c.destroySvc dev.info.devId desc.svcId ≠ none

section Device
variable {c : Libcxi} {matchfun : CxiSvcDesc → Bool}

/-- With `all`, the services that match go one after another, until one of them cannot be destroyed. -/
theorem destroyLoop_all (c : Libcxi) (matchfun : CxiSvcDesc → Bool) (descs : List CxiSvcDesc) (dev : CxilDev)
    (matchcount busycount : Nat) :
    ((∃ e ∈ descs, matchfun e = true ∧ c.destroySvc dev.info.devId e.svcId ≠ none) →
      (destroyLoop c false true matchfun descs dev matchcount busycount).1 = .error .crash) ∧
    ((∀ e ∈ descs, matchfun e = true → c.destroySvc dev.info.devId e.svcId = none) →
      (destroyLoop c false true matchfun descs dev matchcount busycount).1 = .ok busycount ∧
      (destroyLoop c false true matchfun descs dev matchcount busycount).2.svcs =
        dev.svcs.filter fun desc => !descs.any fun e => matchfun e && decide (desc.svcId = e.svcId)) := by
  induction descs generalizing dev matchcount with
  | nil => simp [destroyLoop]
  | cons e rest ih =>
    rw [destroyLoop]
    simp only [Bool.true_or, if_true, List.exists_mem_cons_iff, List.forall_mem_cons]
    cases hmatch : matchfun e with
    | false =>
      obtain ⟨hcrash, hok⟩ := ih dev matchcount
      refine ⟨fun h => hcrash (h.resolve_left fun h => Bool.false_ne_true h.1), fun h => ?_⟩
      simpa [hmatch] using hok h.2
    | true =>
      simp only [if_true, Bool.false_eq_true, if_false, cxilDestroySvc, true_and, forall_const]
      cases hdestroy : c.destroySvc dev.info.devId e.svcId with
      | some error => exact ⟨fun _ => rfl, fun h => absurd h.1 (Option.some_ne_none error)⟩
      | none =>
        obtain ⟨hcrash, hok⟩ := ih (dev.remove e.svcId) (matchcount + 1)
        refine ⟨fun h => hcrash (h.resolve_left fun h => h rfl), fun h => ?_⟩
        obtain ⟨hcount, hsvcs⟩ := hok h.2
        refine ⟨hcount, hsvcs.trans ?_⟩
        simp only [CxilDev.remove, List.filter_filter, List.any_cons, hmatch, Bool.true_and]
        refine List.filter_congr fun desc _ => ?_
        by_cases hid : desc.svcId = e.svcId <;> simp [hid]

variable {dev : CxilDev}

/-- A device crashes the command exactly when a service that is tried cannot be destroyed. -/
theorem destroyOn_crash_iff : (destroyOn c false true matchfun dev).1 = .error .crash ↔
    c.Reaches dev ∧ c.Refuses matchfun dev := by
  by_cases hreach : c.Reaches dev
  · obtain ⟨hcrash, hok⟩ := destroyLoop_all c matchfun dev.svcs dev 0 0
    rw [destroyOn_reached hreach]
    refine ⟨fun h => ⟨hreach, by_contra fun hnone => ?_⟩, fun h => hcrash h.2⟩
    have hall : ∀ e ∈ dev.svcs, matchfun e = true → c.destroySvc dev.info.devId e.svcId = none :=
      fun e he hmatch => by_contra fun hrefuses => hnone ⟨e, he, hmatch, hrefuses⟩
    rw [(hok hall).1] at h
    cases h
  · rw [destroyOn_unreached hreach]
    exact iff_of_false nofun fun h => hreach h.1

/-- The ids of a device tell that no other service goes. -/
theorem destroyOn_all_gone (hreach : c.Reaches dev) (hok : (destroyOn c false true matchfun dev).1 = .ok 0) :
    Gone matchfun (destroyOn c false true matchfun dev).2 := by
  have hnone : ∀ e ∈ dev.svcs, matchfun e = true → c.destroySvc dev.info.devId e.svcId = none := by
    refine fun e he hmatch => by_contra fun hrefuses => ?_
    rw [destroyOn_crash_iff.mpr ⟨hreach, e, he, hmatch, hrefuses⟩] at hok
    cases hok
  obtain ⟨-, hsvcs⟩ := (destroyLoop_all c matchfun dev.svcs dev 0 0).2 hnone
  rw [destroyOn_reached hreach, Gone, hsvcs]
  intro desc hdesc
  obtain ⟨hmem, hstays⟩ := List.mem_filter.mp hdesc
  refine Bool.eq_false_iff.mpr fun hmatch => ?_
  rw [Bool.not_eq_true', List.any_eq_false] at hstays
  exact hstays desc hmem (by simp [hmatch])

end Device

/-! ### The command's end -/

/-- How a clean ends that makes this round. -/
structure Cleaned (round : Round) (matchfun : CxiSvcDesc → Bool) (devs : List CxilDev) (exit : Exit)
    (devs' : List CxilDev) : Prop where
  shrunk : AllShrunk matchfun devs devs'
  ends : exit = .code 0 ∨ exit = .code 1 ∨ exit = .crashed
  failed_iff : exit = .code 1 ↔ round.calls.getDeviceList = false
  crashed_iff : exit = .crashed ↔ round.calls.getDeviceList = true ∧
    ∃ dev ∈ devs, round.isListed dev = true ∧ round.calls.Reaches dev ∧ round.calls.Refuses matchfun dev
  gone : exit = .code 0 → ∀ (i : Nat) (dev dev' : CxilDev), devs[i]? = some dev → devs'[i]? = some dev' →
    round.isListed dev = true → round.calls.Reaches dev → Gone matchfun dev'

theorem Round.Ends.cleaned {round : Round} {matchfun : CxiSvcDesc → Bool} {devs devs' : List CxilDev} {exit : Exit}
    (hshrunk : AllShrunk matchfun devs devs') (h : round.Ends false true matchfun devs (exit, devs')) :
    Cleaned round matchfun devs exit devs' where
  shrunk := hshrunk
  ends := by cases h <;> simp
  failed_iff := by
    cases h with
    | unlisted hlist => exact iff_of_true rfl hlist
    | done hlist _ => exact iff_of_false nofun (by simp [hlist])
    | crashed hlist _ => exact iff_of_false nofun (by simp [hlist])
  crashed_iff := by
    cases h with
    | unlisted hlist => exact iff_of_false nofun (by simp [hlist])
    | done hlist hok =>
      refine iff_of_false nofun ?_
      rintro ⟨-, dev, hdev, hlisted, hcrash⟩
      have hcrash := destroyOn_crash_iff.mpr hcrash
      rw [hok dev hdev hlisted] at hcrash
      cases hcrash
    | crashed hlist hcrash =>
      obtain ⟨dev, hdev, hlisted, hcrash⟩ := hcrash
      exact iff_of_true rfl ⟨hlist, dev, hdev, hlisted, destroyOn_crash_iff.mp hcrash⟩
  gone := by
    rintro rfl i dev dev' hi hi' hlisted hreach
    cases h with
    | done hlist hok =>
      rw [List.getElem?_map, hi] at hi'
      obtain rfl := Option.some.inj hi'
      rw [Round.one, if_pos hlisted]
      exact destroyOn_all_gone hreach (hok dev (List.mem_of_getElem? hi) hlisted)

end FluxCoral2.Slingshot
