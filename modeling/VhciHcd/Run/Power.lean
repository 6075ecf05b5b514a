import VhciHcd.Run.PortState

/-!
# Suspending the host controller device

`vhci_hcd_suspend` and `vhci_hcd_resume`, the power-management callbacks of the platform device,
clear and set the `HCD_FLAG_HW_ACCESSIBLE` bit of the controller's `usb_hcd`, which
`vhci_hub_control`, `vhci_bus_resume` and `vhci_hub_status` test. In `VhciHcd.System` the bit is
an input of each of these calls; here it is state. `PmSys` is a controller with its bit, and
`PmStep` is a call of the controller made with the bit it has, or one of the two callbacks. Every
call is a `Step` of the controller (`PmStep.step`), so every state this layer reaches is a
reachable controller state (`PmReachable.reachable`) and all that is proved of those holds here.

Two of the calls refuse to run out of order: `vhci_hcd_suspend` while the root hub runs, and
`vhci_bus_resume` while the controller is inaccessible. The order they enforce is an invariant of
every run: while the bit is clear, the root hub is suspended (`rh_suspended_while_inaccessible`).
-/

namespace VhciHcd

/-- `vhci_hcd_suspend`: `-EBUSY` while the root hub runs, else clear `HCD_FLAG_HW_ACCESSIBLE`;
the new bit and the return value. -/
def vhciHcdSuspend (v : Vhci) (hw : Bool) : Bool × Int :=
  if v.rhState = .running then (hw, -EBUSY) else (false, 0)

/-- `vhci_hcd_resume`: set `HCD_FLAG_HW_ACCESSIBLE` and return `0`. -/
def vhciHcdResume : Bool × Int := (true, 0)

/-- A controller with the `HCD_FLAG_HW_ACCESSIBLE` bit of its `usb_hcd`. -/
structure PmSys where
  sys : Sys
  hw : Bool

/-- The calls that test `HCD_FLAG_HW_ACCESSIBLE`. -/
def Label.readsHw : Label → Bool
  | .hubControl .. | .busResume _ | .hubStatus _ => true
  | _ => false

/-- A call of the controller, or a callback of the platform device, and what it returned. -/
inductive PmLabel
  | call (l : Label)
  | hcdSuspend (retval : Int)
  | hcdResume (retval : Int)

/-- One step: a call that does not test the bit, as `Step` takes it; a call that does, with the
bit the controller has; or a power-management callback. -/
inductive PmStep : PmSys → PmLabel → PmSys → Prop
  | call {S : PmSys} {l : Label} {s' : Sys} (hl : l.readsHw = false) (hs : Step S.sys l s') :
      PmStep S (.call l) ⟨s', S.hw⟩
  | hubControl {S : PmSys} {v' : Vhci} {r : HubControlResult} (typeReq wValue wIndex wLength : Nat)
      (buf desc : Nat → BitVec 8)
      (h : vhciHubControl S.hw S.sys.vhc typeReq wValue wIndex buf wLength desc = (v', r)) :
      PmStep S (.call (.hubControl typeReq wValue wIndex wLength r)) ⟨{ S.sys with vhc := v' }, S.hw⟩
  | busResume {S : PmSys} {v' : Vhci} {r : Int} (h : vhciBusResume S.hw S.sys.vhc = (v', r)) :
      PmStep S (.call (.busResume r)) ⟨{ S.sys with vhc := v' }, S.hw⟩
  | hubStatus {S : PmSys} (buf : Nat → BitVec 8) :
      PmStep S (.call (.hubStatus (vhciHubStatus S.hw S.sys.vhc buf))) S
  | hcdSuspend {S : PmSys} {hw' : Bool} {r : Int} (h : vhciHcdSuspend S.sys.vhc S.hw = (hw', r)) :
      PmStep S (.hcdSuspend r) ⟨S.sys, hw'⟩
  | hcdResume {S : PmSys} : PmStep S (.hcdResume vhciHcdResume.2) ⟨S.sys, vhciHcdResume.1⟩

/-- The states a controller started by a successful probe, which leaves it accessible, reaches. -/
inductive PmReachable (conf : VhciConf) : PmSys → Prop
  | init : PmReachable conf ⟨Sys.init conf, true⟩
  | step {S S' : PmSys} {l : PmLabel} : PmReachable conf S → PmStep S l S' → PmReachable conf S'

variable {S S' : PmSys} {l : PmLabel}

/-- A step of this layer is a step of the controller, or a callback that leaves it alone. -/
theorem PmStep.step (h : PmStep S l S') : (∃ l', Step S.sys l' S'.sys) ∨ S'.sys = S.sys := by
  cases h with
  | call _ hs => exact .inl ⟨_, hs⟩
  | hubControl typeReq wValue wIndex wLength buf desc h =>
    exact .inl ⟨_, .hubControl S.hw typeReq wValue wIndex wLength buf desc h⟩
  | busResume h => exact .inl ⟨_, .busResume S.hw h⟩
  | hubStatus buf => exact .inl ⟨_, .hubStatus S.hw buf⟩
  | hcdSuspend | hcdResume => exact .inr rfl

/-- Every controller state this layer reaches is a reachable state of the controller. -/
theorem PmReachable.reachable {conf : VhciConf} (h : PmReachable conf S) :
    Reachable conf S.sys := by
  induction h with
  | init => exact .init conf
  | step _ hs ih =>
    rcases hs.step with ⟨_, hs⟩ | he
    exacts [ih.step hs, he ▸ ih]

/-! ## The root hub -/

theorem Vhci.putPort_rhState (v : Vhci) (port : Nat) (r : VhciPort × Bool) :
    (v.putPort port r).rhState = v.rhState := by
  unfold Vhci.putPort userspaceNeedsPortUpdate
  split_ifs <;> rfl

variable {s s' : Sys} {l' : Label}

/-- Only `vhci_bus_suspend` and a successful `vhci_bus_resume` change the state of the root hub,
to suspended and to running. -/
theorem Step.rhState (hs : Step s l' s') :
    s'.vhc.rhState = s.vhc.rhState ∨ (l' = .busSuspend ∧ s'.vhc.rhState = .suspended) ∨
      (l' = .busResume 0 ∧ s'.vhc.rhState = .running) := by
  rcases hs.hub_cases with ⟨he, -⟩ | ⟨_, _, _, _, _, _, _, _, _, rfl, -, h⟩ |
    ⟨_, _, _, _, _, rfl, -, h⟩ | ⟨rfl, rfl⟩ | ⟨_, _, _, rfl, rfl, h⟩
  · exact .inl he
  · rcases vhciHubControl_cases h with rfl | ⟨q, -, -, rfl, -⟩
    exacts [.inl rfl, .inl (Vhci.putPort_rhState _ _ _)]
  · rcases iocPortStat_cases h with rfl | ⟨p, -, -, -, rfl⟩
    exacts [.inl rfl, .inl (Vhci.putPort_rhState _ _ _)]
  · exact .inr (.inl ⟨rfl, rfl⟩)
  · unfold vhciBusResume at h
    split_ifs at h <;> cases h
    exacts [.inl rfl, .inr (.inr ⟨rfl, rfl⟩)]

/-- The order the callbacks enforce: the root hub has been started, and the controller is
inaccessible only while the root hub is suspended. -/
structure PmInv (S : PmSys) : Prop where
  started : S.sys.vhc.rhState ≠ .reset
  suspended : S.hw = false → S.sys.vhc.rhState = .suspended

theorem pmInv_init (conf : VhciConf) : PmInv ⟨Sys.init conf, true⟩ where
  started := nofun
  suspended := nofun

/-- A call that leaves the bit alone keeps the invariant: it changes the root hub only by a bus
suspend, or by a bus resume that found the controller accessible. -/
theorem PmInv.of_call (h : PmInv S) {s' : Sys} (hs : Step S.sys l' s')
    (hres : l' = .busResume 0 → S.hw = true) : PmInv ⟨s', S.hw⟩ := by
  rcases hs.rhState with he | ⟨-, he⟩ | ⟨hl, he⟩
  · exact ⟨he ▸ h.started, fun hw => he ▸ h.suspended hw⟩
  · exact ⟨by simp [he], fun _ => he⟩
  · exact ⟨by simp [he], fun hw => by simp [hres hl] at hw⟩

theorem PmStep.pmInv (hs : PmStep S l S') (h : PmInv S) : PmInv S' := by
  cases hs with
  | call hl hs =>
    exact h.of_call hs fun hb => by subst hb; simp [Label.readsHw] at hl
  | hubControl typeReq wValue wIndex wLength buf desc hc =>
    exact h.of_call (.hubControl S.hw typeReq wValue wIndex wLength buf desc hc) nofun
  | busResume hr =>
    refine h.of_call (.busResume S.hw hr) fun hb => ?_
    cases hb
    unfold vhciBusResume at hr
    split_ifs at hr with hw
    · cases hr
    · simpa using hw
  | hubStatus buf => exact h
  | hcdSuspend hc =>
    unfold vhciHcdSuspend at hc
    split_ifs at hc with hrun <;> cases hc
    · exact h
    · refine ⟨h.started, fun _ => ?_⟩
      cases hst : S.sys.vhc.rhState
      exacts [absurd hst h.started, rfl, absurd hst hrun]
  | hcdResume => exact ⟨h.started, nofun⟩

theorem PmInv.of_reachable {conf : VhciConf} (h : PmReachable conf S) : PmInv S := by
  induction h with
  | init => exact pmInv_init conf
  | step _ hs ih => exact hs.pmInv ih

/-- In every run of a controller with its power-management callbacks, whenever the controller is
inaccessible its root hub is suspended: `vhci_hcd_suspend` refuses while the root hub runs, and
`vhci_bus_resume` refuses while the controller is inaccessible. -/
theorem rh_suspended_while_inaccessible {conf : VhciConf} (h : PmReachable conf S)
    (hw : S.hw = false) : S.sys.vhc.rhState = .suspended :=
  (PmInv.of_reachable h).suspended hw

/-- The usb core suspends the root hub of a one-port controller, and then the platform device
is suspended. -/
theorem rh_suspended_while_inaccessible_suspend :
    let S₀ : PmSys := ⟨Sys.init ⟨1, by decide⟩, true⟩
    let S₁ : PmSys := ⟨{ S₀.sys with vhc := vhciBusSuspend S₀.sys.vhc }, true⟩
    let S₂ : PmSys := ⟨S₁.sys, (vhciHcdSuspend S₁.sys.vhc S₁.hw).1⟩
    PmReachable ⟨1, by decide⟩ S₂ ∧ S₂.hw = false ∧ S₂.sys.vhc.rhState = .suspended :=
  have h : PmReachable ⟨1, by decide⟩ _ :=
    (PmReachable.init.step (PmStep.call (by rfl) .busSuspend)).step (PmStep.hcdSuspend (by rfl))
  ⟨h, rfl, rh_suspended_while_inaccessible h rfl⟩

end VhciHcd
