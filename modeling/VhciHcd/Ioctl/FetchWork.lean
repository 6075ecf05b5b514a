import VhciHcd.Hub.Control
import VhciHcd.Urb.Core

/-!
# Fetching work

`ioc_fetch_work` waits for work without the lock, then takes `vhc->lock` and hands out one unit
by strict priority: the oldest urb of `urbp_list_cancel`, else a port of `port_update` in
round-robin order from `port_sched_offset`, else the oldest urb of `urbp_list_inbox`. An inbox
urb that fails the checks is given back with `-EPIPE` through `vhci_urb_giveback`, which drops
the lock; the call then takes it again at `repeat:` and looks at the inbox only. So the call is
two sections: `iocFetchWorkLocked` from the lock to the first return or give-back, and
`fetchWorkRepeat` for each pass through `repeat:`. Before them, `fetchWorkWait` is the wait and
`WaitRet` what the kernel's waits can return to it; with a negative timeout a call never gets past
the wait, since `wait_event_interruptible` returns `0` once there is work and the source reads
that as a timeout.

What the worker reads back is the last unit written; the fields `ioc_fetch_work` writes for an
urb it then rejects are not modelled, since the call goes on to overwrite them or to return
`-ENODATA`.
-/

namespace VhciHcd

/-- Modelled from the spec: the worker's transfer classes (`USB_VHCI_URB_TYPE_*` of the missing
header `usb-vhci.h`): control, bulk, interrupt and isochronous. -/
inductive UsbVhciUrbType
  | iso
  | int
  | bulk
  | control
deriving DecidableEq, Repr

/-- `conv_urb_type`. -/
def convUrbType : PipeType → UsbVhciUrbType
  | .isochronous => .iso
  | .interrupt => .int
  | .bulk => .bulk
  | .control => .control

def URB_SHORT_NOT_OK : Nat := 0x0001
def URB_ISO_ASAP : Nat := 0x0002
def URB_ZERO_PACKET : Nat := 0x0040

/-- Modelled from the spec: the worker's urb flags (`USB_VHCI_URB_FLAGS_*` of the missing header),
one per kernel flag that `conv_urb_flags` translates. -/
structure UsbVhciUrbFlags where
  shortNotOk : Bool
  isoAsap : Bool
  zeroPacket : Bool
deriving DecidableEq, Repr

/-- `conv_urb_flags`. -/
def convUrbFlags (flags : Nat) : UsbVhciUrbFlags :=
  ⟨flags &&& URB_SHORT_NOT_OK != 0, flags &&& URB_ISO_ASAP != 0, flags &&& URB_ZERO_PACKET != 0⟩

/-- The `work.urb` part of a `PROCESS_URB` unit. -/
structure UrbWork where
  address : Nat
  endpoint : Nat
  type : UsbVhciUrbType
  flags : UsbVhciUrbFlags
  bufferLength : Nat
  setupPacket : Option UsbCtrlRequest
  interval : Int
  packetCount : Int
deriving DecidableEq, Repr

/-- A unit of work as `ioc_fetch_work` writes it to the worker. -/
inductive Work
  | cancelUrb (handle : Nat)
  | portStat (index : Nat) (status change : BitVec 16) (flags : BitVec 8)
  | processUrb (handle : Nat) (urb : UrbWork)
deriving DecidableEq, Repr

/-- The checks `ioc_fetch_work` makes before it hands an urb to the worker: `none` is
`goto invalid_urb`, `some len` the `buffer_length` it reports. -/
def fetchWorkCheck (urb : Urb) : Option Nat :=
  if usbPipecontrol urb.pipe then
    match urb.setupPacket with
    | none => none
    | some cmd =>
      if cmd.wLength > urb.transferBufferLength then none
      else if cmd.bRequestType &&& 0x80 ≠ 0 then
        if cmd.wLength = 0 ∨ urb.transferBuffer = 0 then none else some cmd.wLength
      else if cmd.wLength ≠ 0 ∧ urb.transferBuffer = 0 then none
      else some cmd.wLength
  else if usbPipein urb.pipe then
    if urb.transferBufferLength = 0 ∨ urb.transferBuffer = 0 then none
    else some urb.transferBufferLength
  else if urb.transferBufferLength ≠ 0 ∧ urb.transferBuffer = 0 then none
  else some urb.transferBufferLength

/-- The `PROCESS_URB` unit for an urb that passed the checks with length `len`. -/
def urbWork (urb : Urb) (len : Nat) : UrbWork where
  address := urb.pipe.device
  endpoint := urb.pipe.endpoint ||| (if usbPipein urb.pipe then 0x80 else 0x00)
  type := convUrbType urb.pipe.type
  flags := convUrbFlags urb.transferFlags
  bufferLength := len
  setupPacket := if usbPipecontrol urb.pipe then urb.setupPacket else none
  interval := urb.interval
  packetCount := urb.numberOfPackets

/-- How a section of `ioc_fetch_work` ends: it returns `retval` with the unit it wrote, or it
gives an invalid urb back and the call goes on at `repeat:`. -/
inductive FetchWorkOutcome
  | done (retval : Int) (work : Option Work)
  | rejected (g : Giveback)
deriving DecidableEq, Repr

/-- One pass through `repeat:`: the head of the inbox goes to the worker if it passes the
checks, and is given back with `-EPIPE` otherwise; `-ENODATA` on an empty inbox. -/
def fetchWorkRepeat (s : Sys) : Sys × FetchWorkOutcome :=
  match s.vhc.urbpListInbox with
  | [] => (s, .done (-ENODATA) none)
  | e :: _ =>
    match fetchWorkCheck (s.urbs e.urb) with
    | some len =>
      ({ s with vhc := s.vhc.listMoveTail e .fetched },
        .done 0 (some (.processUrb e.urb (urbWork (s.urbs e.urb) len))))
    | none =>
      let r := vhciUrbGiveback s (maybeSetStatus e (-EPIPE))
      (r.1, .rejected r.2)

/-- What one pass through `repeat:` can do: nothing on an empty inbox; else hand the head to the
worker and move it to `fetched`, or give it back. -/
theorem fetchWorkRepeat_cases {s s' : Sys} {o : FetchWorkOutcome}
    (h : fetchWorkRepeat s = (s', o)) :
    (s.vhc.urbpList .inbox = [] ∧ s' = s ∧ o = .done (-ENODATA) none) ∨
    ∃ e rest, s.vhc.urbpList .inbox = e :: rest ∧
      ((∃ len, fetchWorkCheck (s.urbs e.urb) = some len ∧
          s' = { s with vhc := s.vhc.listMoveTail e .fetched } ∧
          o = .done 0 (some (.processUrb e.urb (urbWork (s.urbs e.urb) len)))) ∨
        (fetchWorkCheck (s.urbs e.urb) = none ∧
          s' = (vhciUrbGiveback s (maybeSetStatus e (-EPIPE))).1 ∧
          o = .rejected (vhciUrbGiveback s (maybeSetStatus e (-EPIPE))).2)) := by
  unfold fetchWorkRepeat at h
  split at h <;> rename_i hi
  · cases h
    exact .inl ⟨hi, rfl, rfl⟩
  · split at h <;> rename_i hc <;> cases h
    · exact .inr ⟨_, _, hi, .inl ⟨_, hc, rfl, rfl⟩⟩
    · exact .inr ⟨_, _, hi, .inr ⟨hc, rfl, rfl⟩⟩

theorem fetchWorkRepeat_hub {s s' : Sys} {o : FetchWorkOutcome}
    (h : fetchWorkRepeat s = (s', o)) : s'.vhc.hub = s.vhc.hub := by
  rcases fetchWorkRepeat_cases h with ⟨-, rfl, -⟩ | ⟨e, rest, -, ⟨len, -, rfl, -⟩ | ⟨-, rfl, -⟩⟩ <;>
    simp

/-- The bit of `port_update` that stands for port `port` (one-based): `1 << port`. -/
def portBit (port : Nat) : BitVec 32 := 1#32 <<< port

/-- The port part of `ioc_fetch_work`: with `port_update` non-zero, reset an out-of-range
`port_sched_offset`, then scan the ports from it and report the first whose bit is set. -/
def fetchWorkPorts (v : Vhci) : Vhci × Option Work :=
  if v.portUpdate = 0 then (v, none)
  else
    let off := if v.portSchedOffset ≥ v.portCount then 0 else v.portSchedOffset
    let v := { v with portSchedOffset := off }
    match (List.range v.portCount).find?
        (fun k => v.portUpdate &&& portBit ((k + off) % v.portCount + 1) ≠ 0) with
    | none => (v, none)
    | some k =>
      let port := (k + off) % v.portCount
      ({ v with
          portUpdate := v.portUpdate &&& ~~~(portBit (port + 1))
          portSchedOffset := port + 1 },
        some (.portStat (port + 1) (v.ports port).portStatus (v.ports port).portChange
          (v.ports port).portFlags))

/-- The port part of `ioc_fetch_work` writes `port_update` and `port_sched_offset` only. -/
theorem fetchWorkPorts_fst (v : Vhci) : ∃ pu off,
    (fetchWorkPorts v).1 = { v with portUpdate := pu, portSchedOffset := off } := by
  unfold fetchWorkPorts
  split_ifs <;> dsimp only <;> (try split) <;> exact ⟨_, _, rfl⟩

@[simp] theorem fetchWorkPorts_urbpList (v : Vhci) (k : UrbpList) :
    (fetchWorkPorts v).1.urbpList k = v.urbpList k := by
  obtain ⟨pu, off, h⟩ := fetchWorkPorts_fst v
  rw [h]; cases k <;> rfl

@[simp] theorem fetchWorkPorts_allUrbps (v : Vhci) :
    (fetchWorkPorts v).1.allUrbps = v.allUrbps := by
  simp [Vhci.allUrbps_eq]

@[simp] theorem fetchWorkPorts_ports (v : Vhci) : (fetchWorkPorts v).1.ports = v.ports := by
  obtain ⟨pu, off, h⟩ := fetchWorkPorts_fst v
  rw [h]

@[simp] theorem fetchWorkPorts_portCount (v : Vhci) :
    (fetchWorkPorts v).1.portCount = v.portCount := by
  obtain ⟨pu, off, h⟩ := fetchWorkPorts_fst v
  rw [h]

/-- The port part of `ioc_fetch_work` hands out a `PORT_STAT` unit with a port's registers. -/
theorem fetchWorkPorts_snd {v : Vhci} {w : Work} (h : (fetchWorkPorts v).2 = some w) :
    ∃ port, w = .portStat (port + 1) (v.ports port).portStatus (v.ports port).portChange
      (v.ports port).portFlags := by
  unfold fetchWorkPorts at h
  split_ifs at h <;> dsimp only at h <;> split at h <;> cases h
  all_goals exact ⟨_, rfl⟩

/-- `ioc_fetch_work` from `spin_lock_irqsave` to its first return or give-back. -/
def iocFetchWorkLocked (s : Sys) : Sys × FetchWorkOutcome :=
  match s.vhc.urbpListCancel with
  | e :: _ =>
    ({ s with vhc := s.vhc.listMoveTail e .canceling }, .done 0 (some (.cancelUrb e.urb)))
  | [] =>
    match fetchWorkPorts s.vhc with
    | (v, some w) => ({ s with vhc := v }, .done 0 (some w))
    | (v, none) => fetchWorkRepeat { s with vhc := v }

/-- What the first section of `ioc_fetch_work` can do: hand out the head of `cancel` and move it
to `canceling`; else report a port; else go on as a pass through `repeat:`. -/
theorem iocFetchWorkLocked_cases {s s' : Sys} {o : FetchWorkOutcome}
    (h : iocFetchWorkLocked s = (s', o)) :
    (∃ e rest, s.vhc.urbpList .cancel = e :: rest ∧
      s' = { s with vhc := s.vhc.listMoveTail e .canceling } ∧
      o = .done 0 (some (.cancelUrb e.urb))) ∨
    (s.vhc.urbpList .cancel = [] ∧ ∃ w, (fetchWorkPorts s.vhc).2 = some w ∧
      s' = { s with vhc := (fetchWorkPorts s.vhc).1 } ∧ o = .done 0 (some w)) ∨
    (s.vhc.urbpList .cancel = [] ∧ (fetchWorkPorts s.vhc).2 = none ∧
      fetchWorkRepeat { s with vhc := (fetchWorkPorts s.vhc).1 } = (s', o)) := by
  unfold iocFetchWorkLocked at h
  split at h <;> rename_i hc
  · cases h
    exact .inl ⟨_, _, hc, rfl, rfl⟩
  · split at h <;> rename_i v w hp
    · cases h
      exact .inr (.inl ⟨hc, w, by rw [hp], by rw [hp], rfl⟩)
    · exact .inr (.inr ⟨hc, by rw [hp], by rw [hp]; exact h⟩)

/-- `has_work`. -/
def hasWork (v : Vhci) : Bool :=
  v.portUpdate != 0 || !v.urbpListCancel.isEmpty || !v.urbpListInbox.isEmpty

/-- The wait at the head of `ioc_fetch_work`, for the worker's `timeout`: `none` lets the call
go on to take the lock, `some r` returns `r`. `wret` is what the wait returned (it only runs for
a non-zero timeout, which the source first caps at 1000 ms). -/
def fetchWorkWait (timeout : Int) (hasWork : Bool) (wret : Int) : Option Int :=
  if timeout ≠ 0 then
    if wret < 0 then some (if wret = -ERESTARTSYS then -EINTR else wret)
    else if wret = 0 then some (-ETIMEDOUT)
    else none
  else if !hasWork then some (-ETIMEDOUT)
  else none

/-- What the kernel's waits return to `ioc_fetch_work`, with `work` the value of `has_work` when
the wait ends. For a positive timeout, `wait_event_interruptible_timeout` returns `-ERESTARTSYS`
on a signal, `0` when the time ran out without work, and the jiffies left, at least `1`, once
there is work. For a negative one, `wait_event_interruptible` returns `-ERESTARTSYS` on a signal
and `0` once there is work. -/
def WaitRet (timeout : Int) (work : Bool) (wret : Int) : Prop :=
  wret = -ERESTARTSYS ∨
    if 0 < timeout then (work = false ∧ wret = 0) ∨ (work = true ∧ 0 < wret)
    else work = true ∧ wret = 0

instance (timeout : Int) (work : Bool) (wret : Int) : Decidable (WaitRet timeout work wret) :=
  inferInstanceAs (Decidable (wret = -ERESTARTSYS ∨
    if 0 < timeout then (work = false ∧ wret = 0) ∨ (work = true ∧ 0 < wret)
    else work = true ∧ wret = 0))

/-- With a negative timeout the wait ends with `0` once there is work, which the source reads as
a timeout. -/
example : WaitRet (-1) true 0 ∧ fetchWorkWait (-1) true 0 = some (-ETIMEDOUT) := by decide

end VhciHcd
