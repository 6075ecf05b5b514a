import VhciHcd.Port.Invariant

/-!
# The port state machine

The source cites the port state diagram of the USB 2.0 specification (section 11.5) for each
register change it makes. `PortState` is that diagram's view of a port, read off its status
register by `VhciPort.state`, with the driver's resuming flag standing for a resume the hub
driver asked for. The diagram's edges are split by who takes them, and each is labelled by what
takes it: `HubMove typeReq wValue` for the requests of the hub driver (power, reset, disable,
suspend and resume), `DeviceMove change` for the events the worker reports for the device
(connect, disconnect, disable, end of a resume, end of a reset).

Each per-port function of `VhciHcd.Hub.Control` either keeps the state of a port that satisfies
`PortInv` or takes one edge of its side, the one its request or change word names. Conversely,
from every port in the source state of an edge, the request or report that labels the edge takes
it (`HubMove.taken`, `DeviceMove.taken`). The proofs read every state through
`VhciPort.state_eq`, which turns it into `PortState.ofBits` of six register bits, and close with
one of the row lemmas of `PortState.ofBits` or get the bits back from a state by its inversion
lemmas.
-/

namespace VhciHcd

/-- The states of a downstream port (USB 2.0, 11.5), with `resuming` a suspended port whose
resume the hub driver has asked for. -/
inductive PortState
  | poweredOff
  | disconnected
  | disabled
  | resetting
  | enabled
  | suspended
  | resuming
deriving DecidableEq, Repr

/-- The diagram's state for the power, connection, reset, enable and suspend bits and the
resuming flag, each row testing one more bit. -/
def PortState.ofBits : Bool → Bool → Bool → Bool → Bool → Bool → PortState
  | false, _, _, _, _, _ => .poweredOff
  | true, false, _, _, _, _ => .disconnected
  | true, true, true, _, _, _ => .resetting
  | true, true, false, false, _, _ => .disabled
  | true, true, false, true, false, _ => .enabled
  | true, true, false, true, true, false => .suspended
  | true, true, false, true, true, true => .resuming

/-- The state of a port, read off its registers. -/
def VhciPort.state (p : VhciPort) : PortState :=
  PortState.ofBits (p.portStatus &&& USB_PORT_STAT_POWER ≠ 0)
    (p.portStatus &&& USB_PORT_STAT_CONNECTION ≠ 0) (p.portStatus &&& USB_PORT_STAT_RESET ≠ 0)
    (p.portStatus &&& USB_PORT_STAT_ENABLE ≠ 0) (p.portStatus &&& USB_PORT_STAT_SUSPEND ≠ 0)
    (p.portFlags &&& USB_VHCI_PORT_STAT_FLAG_RESUMING ≠ 0)

/-- The edges the hub driver takes, each by the request that names it (`typeReq`, `wValue`):
switching port power off and on, starting a reset of a connected port, disabling an enabled port,
suspending it, and asking a suspended port to resume. -/
inductive HubMove : Nat → Nat → PortState → PortState → Prop
  | powerOff (a : PortState) : HubMove ClearPortFeature USB_PORT_FEAT_POWER a .poweredOff
  | powerOn : HubMove SetPortFeature USB_PORT_FEAT_POWER .poweredOff .disconnected
  | reset {a : PortState} (h : a ∈ [.disabled, .enabled, .suspended, .resuming]) :
      HubMove SetPortFeature USB_PORT_FEAT_RESET a .resetting
  | disable {a : PortState} (h : a ∈ [.enabled, .suspended, .resuming]) :
      HubMove ClearPortFeature USB_PORT_FEAT_ENABLE a .disabled
  | suspend : HubMove SetPortFeature USB_PORT_FEAT_SUSPEND .enabled .suspended
  | resume : HubMove ClearPortFeature USB_PORT_FEAT_SUSPEND .suspended .resuming

/-- The edges the device takes, each by the change word of the worker's report that names it: a
disconnect or a connect on a powered port, the device disabling an enabled port, the end of a
resume, and the end of a reset, which leaves the port disabled when the report also names
`C_ENABLE`. -/
inductive DeviceMove : BitVec 16 → PortState → PortState → Prop
  | disconnect {a : PortState} (h : a ≠ .poweredOff) :
      DeviceMove USB_PORT_STAT_C_CONNECTION a .disconnected
  | connect {a : PortState} (h : a ≠ .poweredOff) : DeviceMove USB_PORT_STAT_C_CONNECTION a .disabled
  | disable {a : PortState} (h : a ∈ [.enabled, .suspended, .resuming]) :
      DeviceMove USB_PORT_STAT_C_ENABLE a .disabled
  | resumed {a : PortState} (h : a ∈ [.suspended, .resuming]) :
      DeviceMove USB_PORT_STAT_C_SUSPEND a .enabled
  | resetDone {b : PortState} (h : b ∈ [.enabled, .disabled]) :
      DeviceMove USB_PORT_STAT_C_RESET .resetting b
  | resetDisabled : DeviceMove (USB_PORT_STAT_C_RESET ||| USB_PORT_STAT_C_ENABLE) .resetting .disabled

/-! ## Reading the registers -/

namespace PortState

@[simp] theorem ofBits_poweredOff (c r e s f : Bool) : ofBits false c r e s f = .poweredOff := rfl
@[simp] theorem ofBits_disconnected (r e s f : Bool) : ofBits true false r e s f = .disconnected :=
  rfl
@[simp] theorem ofBits_resetting (e s f : Bool) : ofBits true true true e s f = .resetting := rfl
@[simp] theorem ofBits_disabled (s f : Bool) : ofBits true true false false s f = .disabled := rfl
@[simp] theorem ofBits_enabled (f : Bool) : ofBits true true false true false f = .enabled := rfl
@[simp] theorem ofBits_suspended : ofBits true true false true true false = .suspended := rfl
@[simp] theorem ofBits_resuming : ofBits true true false true true true = .resuming := rfl

theorem ofBits_ne_poweredOff (c r e s f : Bool) : ofBits true c r e s f ≠ .poweredOff := by
  cases c <;> cases r <;> cases e <;> cases s <;> cases f <;> decide

/-- A connected port that is not resetting, the states a reset starts from. -/
theorem ofBits_connected (e s f : Bool) :
    ofBits true true false e s f ∈ [.disabled, .enabled, .suspended, .resuming] := by
  cases e <;> cases s <;> cases f <;> decide

/-- An enabled port, the states a disable starts from. -/
theorem ofBits_active (s f : Bool) :
    ofBits true true false true s f ∈ [.enabled, .suspended, .resuming] := by
  cases s <;> cases f <;> decide

theorem ofBits_suspendedOrResuming (f : Bool) :
    ofBits true true false true true f ∈ [.suspended, .resuming] := by
  cases f <;> decide

/-- A port that has left its reset, enabled or not. -/
theorem ofBits_resetDone (e f : Bool) :
    ofBits true true false e false f ∈ [.enabled, .disabled] := by
  cases e <;> simp

/-! The bits each state of the diagram fixes. -/

section Inversion

variable {pw c r e s f : Bool}

theorem ofBits_eq_poweredOff (h : ofBits pw c r e s f = .poweredOff) : pw = false := by
  revert h; revert pw c r e s f; decide

theorem ofBits_powered (h : ofBits pw c r e s f ≠ .poweredOff) : pw = true := by
  revert h; revert pw c r e s f; decide

theorem ofBits_mem_connected
    (h : ofBits pw c r e s f ∈ [.disabled, .enabled, .suspended, .resuming]) :
    pw = true ∧ c = true ∧ r = false := by
  revert h; revert pw c r e s f; decide

theorem ofBits_mem_active (h : ofBits pw c r e s f ∈ [.enabled, .suspended, .resuming]) :
    pw = true ∧ c = true ∧ r = false ∧ e = true := by
  revert h; revert pw c r e s f; decide

theorem ofBits_eq_enabled (h : ofBits pw c r e s f = .enabled) :
    pw = true ∧ c = true ∧ r = false ∧ e = true ∧ s = false := by
  revert h; revert pw c r e s f; decide

theorem ofBits_mem_suspendedOrResuming (h : ofBits pw c r e s f ∈ [.suspended, .resuming]) :
    pw = true ∧ c = true ∧ r = false ∧ e = true ∧ s = true := by
  revert h; revert pw c r e s f; decide

theorem ofBits_eq_resetting (h : ofBits pw c r e s f = .resetting) :
    pw = true ∧ c = true ∧ r = true := by
  revert h; revert pw c r e s f; decide

end Inversion

end PortState

/-- `VhciPort.state` with each register test read as one bit. -/
theorem VhciPort.state_eq (p : VhciPort) : p.state = PortState.ofBits (p.portStatus.getLsbD 8)
    (p.portStatus.getLsbD 0) (p.portStatus.getLsbD 4) (p.portStatus.getLsbD 1)
    (p.portStatus.getLsbD 2) (p.portFlags.getLsbD 0) := by
  simp only [VhciPort.state, USB_PORT_STAT_POWER_eq, USB_PORT_STAT_CONNECTION_eq,
    USB_PORT_STAT_RESET_eq, USB_PORT_STAT_ENABLE_eq, USB_PORT_STAT_SUSPEND_eq,
    USB_VHCI_PORT_STAT_FLAG_RESUMING_eq, BitVec.ofNat_eq_ofNat, and_twoPow_ne_zero,
    Bool.decide_eq_true]

variable {p p' : VhciPort}

/-! Five consequences of the bit order of `PortInv`. -/

theorem PortInv.connection_false (hp : PortInv p) (h8 : p.portStatus.getLsbD 8 = false) :
    p.portStatus.getLsbD 0 = false := by
  obtain ⟨-, -, -, h08, -⟩ := (portInv_iff p).1 hp
  cases h0 : p.portStatus.getLsbD 0
  · rfl
  · simp [h08 h0] at h8

theorem PortInv.reset_false (hp : PortInv p) (h1 : p.portStatus.getLsbD 1 = true) :
    p.portStatus.getLsbD 4 = false := by
  obtain ⟨-, -, -, -, -, -, h4, -⟩ := (portInv_iff p).1 hp
  cases h : p.portStatus.getLsbD 4
  · rfl
  · simp [(h4 h).2] at h1

theorem PortInv.enable_false (hp : PortInv p) (h4 : p.portStatus.getLsbD 4 = true) :
    p.portStatus.getLsbD 1 = false := by
  cases h1 : p.portStatus.getLsbD 1
  · rfl
  · simp [hp.reset_false h1] at h4

theorem PortInv.suspend_false (hp : PortInv p) (h1 : p.portStatus.getLsbD 1 = false) :
    p.portStatus.getLsbD 2 = false := by
  obtain ⟨-, -, -, -, -, h21, -⟩ := (portInv_iff p).1 hp
  cases h2 : p.portStatus.getLsbD 2
  · rfl
  · simp [h21 h2] at h1

theorem PortInv.resuming_false (hp : PortInv p) (h2 : p.portStatus.getLsbD 2 = false) :
    p.portFlags.getLsbD 0 = false := by
  obtain ⟨-, -, -, -, -, -, -, -, -, hf2⟩ := (portInv_iff p).1 hp
  cases hf : p.portFlags.getLsbD 0
  · rfl
  · simp [hf2 hf] at h2

/-! ## The hub driver's requests -/

theorem clearPortSuspend_move (hp : PortInv p) :
    (clearPortSuspend p).1.state = p.state ∨
      HubMove ClearPortFeature USB_PORT_FEAT_SUSPEND p.state (clearPortSuspend p).1.state := by
  obtain ⟨-, -, -, h08, h10, h21, -⟩ := (portInv_iff p).1 hp
  unfold clearPortSuspend
  split_ifs with h
  · simp only [USB_PORT_STAT_SUSPEND_eq, ne_eq, BitVec.ofNat_eq_ofNat, and_twoPow_eq_zero,
      Bool.not_eq_false] at h
    have h1 := h21 h
    cases hf : p.portFlags.getLsbD 0
    · exact .inr (by simpa [VhciPort.state_eq, h, h1, h10 h1, h08 (h10 h1), hp.reset_false h1, hf]
        using HubMove.resume)
    · exact .inl (by simp [VhciPort.state_eq, hf])
  · exact .inl rfl

/-- Switching power off takes any powered port to `poweredOff`. -/
theorem clearPortPower_move (p : VhciPort) :
    (clearPortPower p).1.state = p.state ∨
      HubMove ClearPortFeature USB_PORT_FEAT_POWER p.state (clearPortPower p).1.state := by
  unfold clearPortPower
  split_ifs
  · exact .inr (by simpa [VhciPort.state_eq] using HubMove.powerOff p.state)
  · exact .inl rfl

theorem clearPortEnable_move (hp : PortInv p) :
    (clearPortEnable p).1.state = p.state ∨
      HubMove ClearPortFeature USB_PORT_FEAT_ENABLE p.state (clearPortEnable p).1.state := by
  obtain ⟨-, -, -, h08, h10, -⟩ := (portInv_iff p).1 hp
  unfold clearPortEnable
  split_ifs with h
  · simp only [USB_PORT_STAT_ENABLE_eq, ne_eq, BitVec.ofNat_eq_ofNat, and_twoPow_eq_zero,
      Bool.not_eq_false] at h
    exact .inr (by simpa [VhciPort.state_eq, h, h10 h, h08 (h10 h), hp.reset_false h] using
      HubMove.disable (PortState.ofBits_active (p.portStatus.getLsbD 2) (p.portFlags.getLsbD 0)))
  · exact .inl rfl

theorem clearPortChange_state (wValue : Nat) (p : VhciPort) :
    (clearPortChange wValue p).1.state = p.state := by
  unfold clearPortChange
  split_ifs <;> rfl

theorem setPortSuspend_move (hp : PortInv p) :
    (setPortSuspend p).1.state = p.state ∨
      HubMove SetPortFeature USB_PORT_FEAT_SUSPEND p.state (setPortSuspend p).1.state := by
  obtain ⟨-, -, -, h08, h10, -⟩ := (portInv_iff p).1 hp
  unfold setPortSuspend
  split_ifs with h
  · simp only [USB_PORT_STAT_ENABLE_eq, USB_PORT_STAT_SUSPEND_eq, ne_eq, BitVec.ofNat_eq_ofNat,
      and_twoPow_eq_zero, Bool.not_eq_false] at h
    obtain ⟨h1, h2⟩ := h
    exact .inr (by simpa [VhciPort.state_eq, h1, h2, h10 h1, h08 (h10 h1), hp.reset_false h1,
      hp.resuming_false h2] using HubMove.suspend)
  · exact .inl rfl

theorem setPortPower_move (hp : PortInv p) :
    (setPortPower p).1.state = p.state ∨
      HubMove SetPortFeature USB_PORT_FEAT_POWER p.state (setPortPower p).1.state := by
  unfold setPortPower
  split_ifs with h
  · simp only [USB_PORT_STAT_POWER_eq, BitVec.ofNat_eq_ofNat, and_twoPow_eq_zero] at h
    exact .inr (by simpa [VhciPort.state_eq, h, hp.connection_false h] using HubMove.powerOn)
  · exact .inl rfl

theorem setPortReset_move (hp : PortInv p) :
    (setPortReset p).1.state = p.state ∨
      HubMove SetPortFeature USB_PORT_FEAT_RESET p.state (setPortReset p).1.state := by
  obtain ⟨-, -, -, h08, -⟩ := (portInv_iff p).1 hp
  unfold setPortReset
  split_ifs with h
  · simp only [USB_PORT_STAT_CONNECTION_eq, USB_PORT_STAT_RESET_eq, ne_eq, BitVec.ofNat_eq_ofNat,
      and_twoPow_eq_zero, Bool.not_eq_false] at h
    obtain ⟨h0, h4⟩ := h
    exact .inr (by simpa [VhciPort.state_eq, h0, h4, h08 h0] using
      HubMove.reset (PortState.ofBits_connected (p.portStatus.getLsbD 1) (p.portStatus.getLsbD 2)
        (p.portFlags.getLsbD 0)))
  · exact .inl rfl

theorem setPortChange_state (wValue : Nat) (p : VhciPort) :
    (setPortChange wValue p).1.state = p.state := by
  unfold setPortChange
  split_ifs <;> rfl

/-- One port of `vhci_bus_suspend`: an enabled port is suspended, any other is left alone. -/
theorem suspendPort_move (hp : PortInv p) : (suspendPort p).1.state = p.state ∨
    (p.state = .enabled ∧ (suspendPort p).1.state = .suspended) := by
  obtain ⟨-, -, -, h08, h10, -⟩ := (portInv_iff p).1 hp
  unfold suspendPort
  split_ifs with h
  · simp only [USB_PORT_STAT_ENABLE_eq, USB_PORT_STAT_SUSPEND_eq, ne_eq, BitVec.ofNat_eq_ofNat,
      and_twoPow_eq_zero, Bool.not_eq_false] at h
    obtain ⟨h1, h2⟩ := h
    exact .inr (by simp [VhciPort.state_eq, h1, h2, h10 h1, h08 (h10 h1), hp.reset_false h1,
      hp.resuming_false h2])
  · exact .inl rfl

/-- What `ClearPortFeature` computes for a port, with the feature that selects each case. -/
theorem clearPortFeature_some {wValue : Nat} {r : VhciPort × Bool}
    (hr : clearPortFeature wValue p = some r) :
    wValue = USB_PORT_FEAT_SUSPEND ∧ r = clearPortSuspend p ∨
    wValue = USB_PORT_FEAT_POWER ∧ r = clearPortPower p ∨
    wValue = USB_PORT_FEAT_ENABLE ∧ r = clearPortEnable p ∨ r = (p, false) ∨
    wValue ∈ [USB_PORT_FEAT_C_CONNECTION, USB_PORT_FEAT_C_ENABLE, USB_PORT_FEAT_C_SUSPEND,
      USB_PORT_FEAT_C_OVER_CURRENT, USB_PORT_FEAT_C_RESET] ∧ r = clearPortChange wValue p := by
  simp only [clearPortFeature, ite_eq_iff, Option.some.injEq, reduceCtorEq, and_false,
    or_false] at hr
  rcases hr with ⟨h, rfl⟩ | ⟨-, ⟨h, rfl⟩ | ⟨-, ⟨h, rfl⟩ | ⟨-, ⟨-, rfl⟩ | ⟨-, h, rfl⟩⟩⟩⟩
  exacts [.inl ⟨h, rfl⟩, .inr (.inl ⟨h, rfl⟩), .inr (.inr (.inl ⟨h, rfl⟩)),
    .inr (.inr (.inr (.inl rfl))), .inr (.inr (.inr (.inr ⟨h, rfl⟩)))]

/-- What `SetPortFeature` computes for a port, with the feature that selects each case. -/
theorem setPortFeature_some {wValue : Nat} {r : VhciPort × Bool}
    (hr : setPortFeature wValue p = some r) :
    wValue = USB_PORT_FEAT_SUSPEND ∧ r = setPortSuspend p ∨
    wValue = USB_PORT_FEAT_POWER ∧ r = setPortPower p ∨
    wValue = USB_PORT_FEAT_RESET ∧ r = setPortReset p ∨ r = (p, false) ∨
    r = setPortChange wValue p := by
  simp only [setPortFeature, ite_eq_iff, Option.some.injEq, reduceCtorEq, and_false, or_false] at hr
  rcases hr with ⟨h, rfl⟩ | ⟨-, ⟨h, rfl⟩ | ⟨-, ⟨h, rfl⟩ | ⟨-, ⟨-, rfl⟩ | ⟨-, -, rfl⟩⟩⟩⟩
  exacts [.inl ⟨h, rfl⟩, .inr (.inl ⟨h, rfl⟩), .inr (.inr (.inl ⟨h, rfl⟩)),
    .inr (.inr (.inr (.inl rfl))), .inr (.inr (.inr (.inr rfl)))]

/-- A `ClearPortFeature` request keeps the port's state or takes the hub edge it names. -/
theorem clearPortFeature_move {wValue : Nat} {r : VhciPort × Bool}
    (hr : clearPortFeature wValue p = some r) (hp : PortInv p) :
    r.1.state = p.state ∨ HubMove ClearPortFeature wValue p.state r.1.state := by
  rcases clearPortFeature_some hr with ⟨rfl, rfl⟩ | ⟨rfl, rfl⟩ | ⟨rfl, rfl⟩ | rfl | ⟨-, rfl⟩
  exacts [clearPortSuspend_move hp, clearPortPower_move p, clearPortEnable_move hp, .inl rfl,
    .inl (clearPortChange_state _ p)]

/-- A `SetPortFeature` request keeps the port's state or takes the hub edge it names. -/
theorem setPortFeature_move {wValue : Nat} {r : VhciPort × Bool}
    (hr : setPortFeature wValue p = some r) (hp : PortInv p) :
    r.1.state = p.state ∨ HubMove SetPortFeature wValue p.state r.1.state := by
  rcases setPortFeature_some hr with ⟨rfl, rfl⟩ | ⟨rfl, rfl⟩ | ⟨rfl, rfl⟩ | rfl | rfl
  exacts [setPortSuspend_move hp, setPortPower_move hp, setPortReset_move hp, .inl rfl,
    .inl (setPortChange_state _ p)]

/-! ## The worker's reports -/

/-- A connect or disconnect report on a powered port. -/
theorem portStatConnection_move {status : BitVec 16} (hpw : p.portStatus.getLsbD 8 = true) :
    DeviceMove USB_PORT_STAT_C_CONNECTION p.state (portStatConnection status p).state := by
  have hne : p.state ≠ .poweredOff := by
    rw [VhciPort.state_eq, hpw]
    exact PortState.ofBits_ne_poweredOff _ _ _ _ _
  by_cases hc : status &&& USB_PORT_STAT_CONNECTION ≠ 0
  · simp only [portStatConnection, if_pos hc]
    split_ifs <;> simpa [VhciPort.state_eq] using DeviceMove.connect hne
  · simp only [portStatConnection, if_neg hc]
    simpa [VhciPort.state_eq] using DeviceMove.disconnect hne

theorem portStatEnable_move {status : BitVec 16} (hr : portStatEnable status p = some p')
    (hp : PortInv p) : p'.state = p.state ∨ DeviceMove USB_PORT_STAT_C_ENABLE p.state p'.state := by
  obtain ⟨-, -, -, h08, -⟩ := (portInv_iff p).1 hp
  unfold portStatEnable at hr
  split_ifs at hr with h
  cases hr
  simp only [USB_PORT_STAT_CONNECTION_eq, USB_PORT_STAT_RESET_eq, USB_PORT_STAT_ENABLE_eq, ne_eq,
    BitVec.ofNat_eq_ofNat, and_twoPow_eq_zero, Bool.not_eq_false, not_or] at h
  obtain ⟨h0, h4, -⟩ := h
  cases h1 : p.portStatus.getLsbD 1
  · exact .inl (by simp [VhciPort.state_eq, h0, h4, h1, h08 h0])
  · exact .inr (by simpa [VhciPort.state_eq, h0, h4, h1, h08 h0] using
      DeviceMove.disable (PortState.ofBits_active (p.portStatus.getLsbD 2) (p.portFlags.getLsbD 0)))

theorem portStatSuspend_move {status : BitVec 16} (hr : portStatSuspend status p = some p')
    (hp : PortInv p) :
    p'.state = p.state ∨ DeviceMove USB_PORT_STAT_C_SUSPEND p.state p'.state := by
  obtain ⟨-, -, -, h08, -⟩ := (portInv_iff p).1 hp
  unfold portStatSuspend at hr
  split_ifs at hr with h
  cases hr
  simp only [USB_PORT_STAT_CONNECTION_eq, USB_PORT_STAT_ENABLE_eq, USB_PORT_STAT_RESET_eq,
    USB_PORT_STAT_SUSPEND_eq, ne_eq, BitVec.ofNat_eq_ofNat, and_twoPow_eq_zero,
    Bool.not_eq_false, not_or] at h
  obtain ⟨h0, h1, h4, -⟩ := h
  cases h2 : p.portStatus.getLsbD 2
  · exact .inl (by simp [VhciPort.state_eq, h0, h1, h4, h2, h08 h0, hp.resuming_false h2])
  · exact .inr (by simpa [VhciPort.state_eq, h0, h1, h4, h2, h08 h0] using
      DeviceMove.resumed (PortState.ofBits_suspendedOrResuming (p.portFlags.getLsbD 0)))

/-- The overcurrent bit is not part of the diagram. -/
theorem portStatOvercurrent_state (status : BitVec 16) (p : VhciPort) :
    (portStatOvercurrent status p).state = p.state := by
  simp [portStatOvercurrent, VhciPort.state_eq]

/-- The end of a reset always leaves `resetting`: disabled when the report names `C_ENABLE`,
else enabled only if the worker says so. -/
theorem portStatReset_move {status change : BitVec 16}
    (hc : change ∈ [USB_PORT_STAT_C_RESET, USB_PORT_STAT_C_RESET ||| USB_PORT_STAT_C_ENABLE])
    (hr : portStatReset status change p = some p') (hp : PortInv p) :
    DeviceMove change p.state p'.state := by
  obtain ⟨-, -, -, h08, -, -, h4, -⟩ := (portInv_iff p).1 hp
  unfold portStatReset at hr
  split_ifs at hr with h hce <;> cases hr <;>
    simp only [USB_PORT_STAT_CONNECTION_eq, USB_PORT_STAT_RESET_eq, ne_eq, BitVec.ofNat_eq_ofNat,
      and_twoPow_eq_zero, not_or, Bool.not_eq_false] at h <;> obtain ⟨h0, h4', -⟩ := h <;>
    have h1 := (h4 h4').2 <;> simp only [List.mem_cons, List.mem_singleton, List.not_mem_nil,
      or_false] at hc
  · rcases hc with rfl | rfl
    · exact absurd hce (by decide)
    · simpa [VhciPort.state_eq, h0, h4', h1, hp.suspend_false h1, h08 h0] using
        DeviceMove.resetDisabled
  · rcases hc with rfl | rfl
    · simpa [VhciPort.state_eq, h0, h4', h1, hp.suspend_false h1, h08 h0] using
        DeviceMove.resetDone (PortState.ofBits_resetDone (status.getLsbD 1) (p.portFlags.getLsbD 0))
    · exact absurd hce (by decide)

/-- What `ioc_port_stat` computes for a powered port: the function its change word selects. -/
theorem portStat_cases {status change : BitVec 16} (hr : portStat status change p = some p') :
    p.portStatus.getLsbD 8 = true ∧
    (change = USB_PORT_STAT_C_CONNECTION ∧ p' = portStatConnection status p ∨
      change = USB_PORT_STAT_C_ENABLE ∧ portStatEnable status p = some p' ∨
      change = USB_PORT_STAT_C_SUSPEND ∧ portStatSuspend status p = some p' ∨
      change = USB_PORT_STAT_C_OVERCURRENT ∧ p' = portStatOvercurrent status p ∨
      change ∉ [USB_PORT_STAT_C_CONNECTION, USB_PORT_STAT_C_ENABLE, USB_PORT_STAT_C_SUSPEND,
        USB_PORT_STAT_C_OVERCURRENT] ∧ portStatReset status change p = some p') := by
  simp only [portStat, ite_eq_iff, Option.some.injEq, reduceCtorEq, and_false, false_or] at hr
  rcases hr with ⟨h8, ⟨hc, rfl⟩ | ⟨h₁, ⟨hc, h⟩ | ⟨h₂, ⟨hc, h⟩ | ⟨h₃, ⟨hc, rfl⟩ | ⟨h₄, h⟩⟩⟩⟩⟩
  all_goals refine ⟨by simpa using h8, ?_⟩
  exacts [.inl ⟨hc, rfl⟩, .inr (.inl ⟨hc, h⟩), .inr (.inr (.inl ⟨hc, h⟩)),
    .inr (.inr (.inr (.inl ⟨hc, rfl⟩))), .inr (.inr (.inr (.inr ⟨by
      simpa only [List.mem_cons, List.mem_singleton, List.not_mem_nil, or_false, not_or] using
        ⟨h₁, h₂, h₃, h₄⟩, h⟩)))]

/-- A report of the worker with a change word `ioc_port_stat` accepts keeps the port's state or
takes the device edge the change word names. -/
theorem portStat_move {status change : BitVec 16} (hc : change ∈ portStatChanges)
    (hr : portStat status change p = some p') (hp : PortInv p) :
    p'.state = p.state ∨ DeviceMove change p.state p'.state := by
  rcases portStat_cases hr with ⟨h8, ⟨rfl, rfl⟩ | ⟨rfl, h⟩ | ⟨rfl, h⟩ | ⟨-, rfl⟩ | ⟨hn, h⟩⟩
  · exact .inr (portStatConnection_move h8)
  · exact portStatEnable_move h hp
  · exact portStatSuspend_move h hp
  · exact .inl (portStatOvercurrent_state status p)
  · have hsplit : change ∈ [USB_PORT_STAT_C_CONNECTION, USB_PORT_STAT_C_ENABLE,
        USB_PORT_STAT_C_SUSPEND, USB_PORT_STAT_C_OVERCURRENT] ++
        [USB_PORT_STAT_C_RESET, USB_PORT_STAT_C_RESET ||| USB_PORT_STAT_C_ENABLE] := hc
    exact .inr (portStatReset_move ((List.mem_append.1 hsplit).resolve_left hn) h hp)

/-! ## The change word

A change bit is set by the request or report that changes the port, and only `ClearPortFeature`
clears one: the bit its `C_*` feature names, every bit but `C_OVER_CURRENT` when it switches the
power off, and `C_ENABLE` and `C_SUSPEND` when it disables the port (`clearPortFeature_clears`).
The other functions only add bits. -/

theorem bitsIn_or_self {w : Nat} (x y : BitVec w) : BitsIn x (x ||| y) :=
  bitsIn_iff.2 fun _ h => by simp [h]

theorem bitsIn_refl {w : Nat} (x : BitVec w) : BitsIn x x := bitsIn_iff.2 fun _ h => h

theorem setPortFeature_changes {wValue : Nat} {r : VhciPort × Bool}
    (hr : setPortFeature wValue p = some r) : BitsIn p.portChange r.1.portChange := by
  rcases setPortFeature_cases hr with rfl | rfl | rfl | rfl | ⟨-, rfl⟩
  · unfold setPortSuspend; split_ifs <;> exact bitsIn_refl _
  · unfold setPortPower; split_ifs <;> exact bitsIn_refl _
  · unfold setPortReset; split_ifs <;> exact bitsIn_refl _
  · exact bitsIn_refl _
  · unfold setPortChange; split_ifs
    exacts [bitsIn_or_self _ _, bitsIn_refl _]

theorem portStat_changes {status change : BitVec 16} (hr : portStat status change p = some p') :
    BitsIn p.portChange p'.portChange := by
  rcases portStat_cases hr with ⟨-, ⟨-, rfl⟩ | ⟨-, h⟩ | ⟨-, h⟩ | ⟨-, rfl⟩ | ⟨-, h⟩⟩
  · exact bitsIn_or_self _ _
  · unfold portStatEnable at h
    split_ifs at h
    cases h
    exact bitsIn_or_self _ _
  · unfold portStatSuspend at h
    split_ifs at h
    cases h
    exact bitsIn_or_self _ _
  · exact bitsIn_or_self _ _
  · unfold portStatReset at h
    split_ifs at h <;> cases h
    exacts [bitsIn_iff.2 fun _ h => by simp [h], bitsIn_or_self _ _]

theorem suspendPort_portChange (p : VhciPort) : (suspendPort p).1.portChange = p.portChange := by
  unfold suspendPort
  split_ifs <;> rfl

/-- The change bits a `ClearPortFeature` request clears. -/
theorem clearPortFeature_clears {wValue j : Nat} {r : VhciPort × Bool}
    (hr : clearPortFeature wValue p = some r) (hb : p.portChange.getLsbD j = true)
    (ha : r.1.portChange.getLsbD j = false) :
    wValue = j + 16 ∨ wValue = USB_PORT_FEAT_POWER ∧ j ≠ 3 ∨
      wValue = USB_PORT_FEAT_ENABLE ∧ (j = 1 ∨ j = 2) := by
  have hj : j < 16 := BitVec.lt_of_getLsbD hb
  rcases clearPortFeature_some hr with ⟨rfl, rfl⟩ | ⟨rfl, rfl⟩ | ⟨rfl, rfl⟩ | rfl | ⟨hw, rfl⟩
  · -- `SUSPEND` writes only the flags
    unfold clearPortSuspend at ha
    split_ifs at ha <;> simp [hb] at ha
  · -- `POWER` keeps only `C_OVER_CURRENT`
    unfold clearPortPower at ha
    split_ifs at ha
    · exact .inr (.inl ⟨rfl, by rintro rfl; simp [hb] at ha⟩)
    · simp [hb] at ha
  · -- `ENABLE` clears `C_ENABLE` and `C_SUSPEND`
    unfold clearPortEnable at ha
    split_ifs at ha
    · exact .inr (.inr ⟨rfl, by simp [hb, hj] at ha; omega⟩)
    · simp [hb] at ha
  · simp [hb] at ha
  · -- `C_*` clears the bit it names
    unfold clearPortChange at ha
    split_ifs at ha
    · have hk : j = wValue - 16 := by simp [hb, hj] at ha; omega
      simp only [List.mem_cons, List.mem_singleton, List.not_mem_nil, or_false,
        USB_PORT_FEAT_C_CONNECTION, USB_PORT_FEAT_C_ENABLE, USB_PORT_FEAT_C_SUSPEND,
        USB_PORT_FEAT_C_OVER_CURRENT, USB_PORT_FEAT_C_RESET] at hw
      exact .inl (by omega)
    · simp [hb] at ha

/-! ## Every edge is taken

The converse of the move lemmas: from every port in the source state of an edge, the request or
report that labels it takes the edge. -/

/-- Every edge of the hub driver is taken, from every port in its source state, by the request
that names it. -/
theorem HubMove.taken {typeReq wValue : Nat} {b : PortState} (hp : PortInv p)
    (h : HubMove typeReq wValue p.state b) :
    ∃ q, (typeReq = ClearPortFeature ∧ clearPortFeature wValue p = some q ∨
      typeReq = SetPortFeature ∧ setPortFeature wValue p = some q) ∧ q.1.state = b := by
  generalize ha : p.state = a at h
  rw [VhciPort.state_eq] at ha
  cases h with
  | powerOff =>
    refine ⟨clearPortPower p, .inl ⟨rfl, rfl⟩, ?_⟩
    unfold clearPortPower
    split_ifs with hg
    · simp [VhciPort.state_eq]
    · simp only [USB_PORT_STAT_POWER_eq, ne_eq, BitVec.ofNat_eq_ofNat, and_twoPow_eq_zero,
        Bool.not_eq_false, Decidable.not_not] at hg
      simp [VhciPort.state_eq, hg]
  | powerOn =>
    have h8 := PortState.ofBits_eq_poweredOff ha
    refine ⟨setPortPower p, .inr ⟨rfl, rfl⟩, ?_⟩
    simp [setPortPower, h8, VhciPort.state_eq, hp.connection_false h8]
  | reset hm =>
    obtain ⟨h8, h0, h4⟩ := PortState.ofBits_mem_connected (ha ▸ hm)
    refine ⟨setPortReset p, .inr ⟨rfl, rfl⟩, ?_⟩
    simp [setPortReset, h0, h4, VhciPort.state_eq, h8]
  | disable hm =>
    obtain ⟨h8, h0, h4, h1⟩ := PortState.ofBits_mem_active (ha ▸ hm)
    refine ⟨clearPortEnable p, .inl ⟨rfl, rfl⟩, ?_⟩
    simp [clearPortEnable, h1, VhciPort.state_eq, h8, h0, h4]
  | suspend =>
    obtain ⟨h8, h0, h4, h1, h2⟩ := PortState.ofBits_eq_enabled ha
    refine ⟨setPortSuspend p, .inr ⟨rfl, rfl⟩, ?_⟩
    simp [setPortSuspend, h1, h2, VhciPort.state_eq, h8, h0, h4, hp.resuming_false h2]
  | resume =>
    obtain ⟨h8, h0, h4, h1, h2⟩ := PortState.ofBits_mem_suspendedOrResuming (by rw [ha]; simp)
    refine ⟨clearPortSuspend p, .inl ⟨rfl, rfl⟩, ?_⟩
    simp [clearPortSuspend, h2, VhciPort.state_eq, h8, h0, h4, h1]

/-- The device's edges all leave a powered port. -/
theorem DeviceMove.powered {change : BitVec 16} {a b : PortState} (h : DeviceMove change a b) :
    a ≠ .poweredOff := by
  cases h with
  | disconnect h | connect h => exact h
  | disable h | resumed h => rintro rfl; simp at h
  | resetDone | resetDisabled => nofun

/-- Every edge of the device is taken, from every port in its source state, by a report with the
change word that names it. -/
theorem DeviceMove.taken {change : BitVec 16} {b : PortState} (hp : PortInv p)
    (h : DeviceMove change p.state b) :
    ∃ status p', portStat status change p = some p' ∧ p'.state = b := by
  have hpw : ¬p.portStatus &&& USB_PORT_STAT_POWER = 0 := by
    simp [PortState.ofBits_powered (p.state_eq ▸ h.powered)]
  generalize ha : p.state = a at h
  rw [VhciPort.state_eq] at ha
  cases h with
  | disconnect =>
    refine ⟨0, _, by rw [portStat, if_neg hpw, if_pos rfl], ?_⟩
    simp [portStatConnection, VhciPort.state_eq]
  | connect =>
    refine ⟨USB_PORT_STAT_CONNECTION, _, by rw [portStat, if_neg hpw, if_pos rfl], ?_⟩
    have hc : USB_PORT_STAT_CONNECTION &&& USB_PORT_STAT_CONNECTION ≠ 0 := by decide
    have hl : ¬USB_PORT_STAT_CONNECTION &&& USB_PORT_STAT_LOW_SPEED ≠ 0 := by decide
    have hh : ¬USB_PORT_STAT_CONNECTION &&& USB_PORT_STAT_HIGH_SPEED ≠ 0 := by decide
    simp only [portStatConnection, if_pos hc, if_neg hl, if_neg hh]
    simp [VhciPort.state_eq]
  | disable hm =>
    obtain ⟨h8, h0, h4, -⟩ := PortState.ofBits_mem_active (ha ▸ hm)
    refine ⟨0, ?_⟩
    rw [portStat, if_neg hpw, if_neg (by decide), if_pos rfl]
    simp [portStatEnable, h0, h4, VhciPort.state_eq, h8]
  | resumed hm =>
    obtain ⟨h8, h0, h4, h1, -⟩ := PortState.ofBits_mem_suspendedOrResuming (ha ▸ hm)
    refine ⟨0, ?_⟩
    rw [portStat, if_neg hpw, if_neg (by decide), if_neg (by decide), if_pos rfl]
    simp [portStatSuspend, h0, h1, h4, VhciPort.state_eq, h8]
  | resetDone hb =>
    obtain ⟨h8, h0, h4⟩ := PortState.ofBits_eq_resetting ha
    have h1 := hp.enable_false h4
    simp only [List.mem_cons, List.mem_singleton, List.not_mem_nil, or_false] at hb
    rcases hb with rfl | rfl
    · refine ⟨USB_PORT_STAT_ENABLE, ?_⟩
      rw [portStat, if_neg hpw, if_neg (by decide), if_neg (by decide), if_neg (by decide),
        if_neg (by decide)]
      simp [portStatReset, h0, h4, VhciPort.state_eq, h8, h1, hp.suspend_false h1]
    · refine ⟨0, ?_⟩
      rw [portStat, if_neg hpw, if_neg (by decide), if_neg (by decide), if_neg (by decide),
        if_neg (by decide)]
      simp [portStatReset, h0, h4, VhciPort.state_eq, h8, h1]
  | resetDisabled =>
    obtain ⟨h8, h0, h4⟩ := PortState.ofBits_eq_resetting ha
    refine ⟨0, ?_⟩
    rw [portStat, if_neg hpw, if_neg (by decide), if_neg (by decide), if_neg (by decide),
      if_neg (by decide)]
    simp [portStatReset, h0, h4, VhciPort.state_eq, h8, hp.enable_false h4]

/-- `vhci_bus_suspend` suspends an enabled port. -/
theorem suspendPort_enabled (hp : PortInv p) (h : p.state = .enabled) :
    (suspendPort p).1.state = .suspended := by
  obtain ⟨h8, h0, h4, h1, h2⟩ := PortState.ofBits_eq_enabled (p.state_eq.symm.trans h)
  simp [suspendPort, h1, h2, VhciPort.state_eq, h8, h0, h4, hp.resuming_false h2]

end VhciHcd
