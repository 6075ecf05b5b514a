import VhciHcd.State

/-!
# Root-hub control

`vhci_hub_control`, `ioc_port_stat`, `vhci_bus_suspend`, `vhci_bus_resume`, `vhci_hub_status`
and `hub_descriptor`. The source changes a port through the pointers `ps`, `pc` and `pf`; here
the per-port part of each request is a function on one `VhciPort` that returns the new
registers and whether `userspace_needs_port_update` is called (`clearPortFeature`,
`setPortFeature`, `portStat`, `suspendPort`), and the request itself only looks the port up,
stores the result and raises the port's bit. A `none` from a per-port function is the source's
`goto err` (or its `-EPROTO` returns). Each `case` of their switches that writes a register is a
function of its own, so that each transition of the port is stated, and proved about, once.

Buffers are byte maps `Nat → BitVec 8`, so "any prior contents of `buf`" is any such map.
-/

namespace VhciHcd

/-! Request types (`ClearHubFeature` and the others of `hcd.h`). -/

def ClearHubFeature : Nat := 0x2001
def SetHubFeature : Nat := 0x2003
def ClearPortFeature : Nat := 0x2301
def SetPortFeature : Nat := 0x2303
def GetHubDescriptor : Nat := 0xa006
def GetHubStatus : Nat := 0xa000
def GetPortStatus : Nat := 0xa300

/-- `USB_DT_HUB_NONVAR_SIZE`. -/
def USB_DT_HUB_NONVAR_SIZE : Nat := 7

/-- `memset(buf + off, c, n)`. -/
def memset (buf : Nat → BitVec 8) (off : Nat) (c : BitVec 8) (n : Nat) : Nat → BitVec 8 :=
  fun i => if off ≤ i ∧ i < off + n then c else buf i

/-- `memcpy(dst, src, n)`. -/
def memcpy (dst src : Nat → BitVec 8) (n : Nat) : Nat → BitVec 8 :=
  fun i => if i < n then src i else dst i

namespace Vhci

/-- Store the registers of the port at zero-based index `i`. -/
def setPort (v : Vhci) (i : Nat) (p : VhciPort) : Vhci :=
  { v with ports := Function.update v.ports i p }

@[simp] theorem setPort_ports (v : Vhci) (i : Nat) (p : VhciPort) :
    (v.setPort i p).ports = Function.update v.ports i p := rfl
@[simp] theorem setPort_portCount (v : Vhci) (i : Nat) (p : VhciPort) :
    (v.setPort i p).portCount = v.portCount := rfl
@[simp] theorem setPort_portUpdate (v : Vhci) (i : Nat) (p : VhciPort) :
    (v.setPort i p).portUpdate = v.portUpdate := rfl
@[simp] theorem setPort_portSchedOffset (v : Vhci) (i : Nat) (p : VhciPort) :
    (v.setPort i p).portSchedOffset = v.portSchedOffset := rfl
@[simp] theorem setPort_urbpList (v : Vhci) (i : Nat) (p : VhciPort) (k : UrbpList) :
    (v.setPort i p).urbpList k = v.urbpList k := by cases k <;> rfl

end Vhci

/-- `userspace_needs_port_update`: raise bit `port` (one-based) of `port_update`. -/
def userspaceNeedsPortUpdate (v : Vhci) (port : Nat) : Vhci :=
  { v with portUpdate := v.portUpdate ||| 1#32 <<< port }

/-- Store a port's new registers, raising its bit when the source calls
`userspace_needs_port_update`. -/
def Vhci.putPort (v : Vhci) (port : Nat) (r : VhciPort × Bool) : Vhci :=
  if r.2 then userspaceNeedsPortUpdate (v.setPort (port - 1) r.1) port
  else v.setPort (port - 1) r.1

/-! The cases of the `ClearPortFeature` and `SetPortFeature` switches that change registers. -/

/-- `ClearPortFeature(USB_PORT_FEAT_SUSPEND)`: a suspended port starts resuming. -/
def clearPortSuspend (p : VhciPort) : VhciPort × Bool :=
  if p.portStatus &&& USB_PORT_STAT_SUSPEND ≠ 0 then
    ({ p with portFlags := p.portFlags ||| USB_VHCI_PORT_STAT_FLAG_RESUMING }, true)
  else (p, false)

/-- `ClearPortFeature(USB_PORT_FEAT_POWER)`. -/
def clearPortPower (p : VhciPort) : VhciPort × Bool :=
  if p.portStatus &&& USB_PORT_STAT_POWER ≠ 0 then
    (⟨p.portStatus &&& USB_PORT_STAT_OVERCURRENT, p.portChange &&& USB_PORT_STAT_C_OVERCURRENT,
      p.portFlags &&& ~~~USB_VHCI_PORT_STAT_FLAG_RESUMING⟩, true)
  else (p, false)

/-- `ClearPortFeature(USB_PORT_FEAT_ENABLE)`. -/
def clearPortEnable (p : VhciPort) : VhciPort × Bool :=
  if p.portStatus &&& USB_PORT_STAT_ENABLE ≠ 0 then
    (⟨p.portStatus &&& ~~~(USB_PORT_STAT_ENABLE ||| USB_PORT_STAT_SUSPEND),
      p.portChange &&& ~~~(USB_PORT_STAT_C_ENABLE ||| USB_PORT_STAT_C_SUSPEND),
      p.portFlags &&& ~~~USB_VHCI_PORT_STAT_FLAG_RESUMING⟩, true)
  else (p, false)

/-- `ClearPortFeature(USB_PORT_FEAT_C_*)`: change bit `wValue - 16`. -/
def clearPortChange (wValue : Nat) (p : VhciPort) : VhciPort × Bool :=
  if p.portChange &&& 1#16 <<< (wValue - 16) ≠ 0 then
    ({ p with portChange := p.portChange &&& ~~~(1#16 <<< (wValue - 16)) }, true)
  else (p, false)

/-- `SetPortFeature(USB_PORT_FEAT_SUSPEND)`. -/
def setPortSuspend (p : VhciPort) : VhciPort × Bool :=
  if p.portStatus &&& USB_PORT_STAT_ENABLE ≠ 0 ∧ p.portStatus &&& USB_PORT_STAT_SUSPEND = 0 then
    ({ p with portStatus := p.portStatus ||| USB_PORT_STAT_SUSPEND }, true)
  else (p, false)

/-- `SetPortFeature(USB_PORT_FEAT_POWER)`. -/
def setPortPower (p : VhciPort) : VhciPort × Bool :=
  if p.portStatus &&& USB_PORT_STAT_POWER = 0 then
    ({ p with portStatus := p.portStatus ||| USB_PORT_STAT_POWER }, true)
  else (p, false)

/-- `SetPortFeature(USB_PORT_FEAT_RESET)`: starts a reset of a connected port. -/
def setPortReset (p : VhciPort) : VhciPort × Bool :=
  if p.portStatus &&& USB_PORT_STAT_CONNECTION ≠ 0 ∧ p.portStatus &&& USB_PORT_STAT_RESET = 0 then
    (⟨(p.portStatus &&& (USB_PORT_STAT_POWER ||| USB_PORT_STAT_CONNECTION |||
        USB_PORT_STAT_LOW_SPEED ||| USB_PORT_STAT_HIGH_SPEED ||| USB_PORT_STAT_OVERCURRENT)) |||
        USB_PORT_STAT_RESET,
      p.portChange, p.portFlags &&& ~~~USB_VHCI_PORT_STAT_FLAG_RESUMING⟩, true)
  else (p, false)

/-- `SetPortFeature(USB_PORT_FEAT_C_*)`: change bit `wValue - 16`. -/
def setPortChange (wValue : Nat) (p : VhciPort) : VhciPort × Bool :=
  if p.portChange &&& 1#16 <<< (wValue - 16) = 0 then
    ({ p with portChange := p.portChange ||| 1#16 <<< (wValue - 16) }, true)
  else (p, false)

/-- The `ClearPortFeature` switch on one port. -/
def clearPortFeature (wValue : Nat) (p : VhciPort) : Option (VhciPort × Bool) :=
  if wValue = USB_PORT_FEAT_SUSPEND then some (clearPortSuspend p)
  else if wValue = USB_PORT_FEAT_POWER then some (clearPortPower p)
  else if wValue = USB_PORT_FEAT_ENABLE then some (clearPortEnable p)
  else if wValue ∈ [USB_PORT_FEAT_CONNECTION, USB_PORT_FEAT_OVER_CURRENT, USB_PORT_FEAT_RESET,
      USB_PORT_FEAT_LOWSPEED, USB_PORT_FEAT_HIGHSPEED, USB_PORT_FEAT_INDICATOR] then
    some (p, false)
  else if wValue ∈ [USB_PORT_FEAT_C_CONNECTION, USB_PORT_FEAT_C_ENABLE, USB_PORT_FEAT_C_SUSPEND,
      USB_PORT_FEAT_C_OVER_CURRENT, USB_PORT_FEAT_C_RESET] then
    some (clearPortChange wValue p)
  else none

/-- The `SetPortFeature` switch on one port. -/
def setPortFeature (wValue : Nat) (p : VhciPort) : Option (VhciPort × Bool) :=
  if wValue = USB_PORT_FEAT_SUSPEND then some (setPortSuspend p)
  else if wValue = USB_PORT_FEAT_POWER then some (setPortPower p)
  else if wValue = USB_PORT_FEAT_RESET then some (setPortReset p)
  else if wValue ∈ [USB_PORT_FEAT_CONNECTION, USB_PORT_FEAT_OVER_CURRENT, USB_PORT_FEAT_LOWSPEED,
      USB_PORT_FEAT_HIGHSPEED, USB_PORT_FEAT_INDICATOR] then
    some (p, false)
  else if wValue ∈ [USB_PORT_FEAT_C_CONNECTION, USB_PORT_FEAT_C_ENABLE, USB_PORT_FEAT_C_SUSPEND,
      USB_PORT_FEAT_C_OVER_CURRENT, USB_PORT_FEAT_C_RESET] then
    some (setPortChange wValue p)
  else none

/-- What `ClearPortFeature` computes for a port: one of its per-feature functions, or the port
unchanged. -/
theorem clearPortFeature_cases {wValue : Nat} {p : VhciPort} {r : VhciPort × Bool}
    (h : clearPortFeature wValue p = some r) :
    r = clearPortSuspend p ∨ r = clearPortPower p ∨ r = clearPortEnable p ∨ r = (p, false) ∨
      r = clearPortChange wValue p := by
  simp only [clearPortFeature, ite_eq_iff, Option.some.injEq, reduceCtorEq, and_false, or_false] at h
  rcases h with ⟨-, rfl⟩ | ⟨-, ⟨-, rfl⟩ | ⟨-, ⟨-, rfl⟩ | ⟨-, ⟨-, rfl⟩ | ⟨-, -, rfl⟩⟩⟩⟩
  exacts [.inl rfl, .inr (.inl rfl), .inr (.inr (.inl rfl)), .inr (.inr (.inr (.inl rfl))),
    .inr (.inr (.inr (.inr rfl)))]

/-- What `SetPortFeature` computes for a port; a change bit it sets is one of the five. -/
theorem setPortFeature_cases {wValue : Nat} {p : VhciPort} {r : VhciPort × Bool}
    (h : setPortFeature wValue p = some r) :
    r = setPortSuspend p ∨ r = setPortPower p ∨ r = setPortReset p ∨ r = (p, false) ∨
      (wValue ∈ [USB_PORT_FEAT_C_CONNECTION, USB_PORT_FEAT_C_ENABLE, USB_PORT_FEAT_C_SUSPEND,
        USB_PORT_FEAT_C_OVER_CURRENT, USB_PORT_FEAT_C_RESET] ∧ r = setPortChange wValue p) := by
  simp only [setPortFeature, ite_eq_iff, Option.some.injEq, reduceCtorEq, and_false, or_false] at h
  rcases h with ⟨-, rfl⟩ | ⟨-, ⟨-, rfl⟩ | ⟨-, ⟨-, rfl⟩ | ⟨-, ⟨-, rfl⟩ | ⟨-, hc, rfl⟩⟩⟩⟩
  exacts [.inl rfl, .inr (.inl rfl), .inr (.inr (.inl rfl)), .inr (.inr (.inr (.inl rfl))),
    .inr (.inr (.inr (.inr ⟨hc, rfl⟩)))]

/-- The length `hub_descriptor` settles on for a request of `len` bytes, and `buf` with the two
port bitmaps written into it. -/
def hubBitmaps (portCount : Nat) (buf : Nat → BitVec 8) (len : Nat) : Nat × (Nat → BitVec 8) :=
  let portArrLen := portCount / 8 + 1
  let l := USB_DT_HUB_NONVAR_SIZE + 2 * portArrLen
  if len > USB_DT_HUB_NONVAR_SIZE then
    let l := if len < l then len else l
    if l > USB_DT_HUB_NONVAR_SIZE then
      let buf := memset buf USB_DT_HUB_NONVAR_SIZE 0 (l - USB_DT_HUB_NONVAR_SIZE)
      if l > USB_DT_HUB_NONVAR_SIZE + portArrLen then
        (l, memset buf (USB_DT_HUB_NONVAR_SIZE + portArrLen) 0xff
          (l - (USB_DT_HUB_NONVAR_SIZE + portArrLen)))
      else (l, buf)
    else (l, buf)
  else (len, buf)

/-- `hub_descriptor`: `desc` is the stack contents of the local `struct usb_hub_descriptor`
before the function writes to it. -/
def hubDescriptor (v : Vhci) (buf : Nat → BitVec 8) (len : Nat) (desc : Nat → BitVec 8) :
    Nat → BitVec 8 :=
  let desc := memset desc 0 0 USB_DT_HUB_NONVAR_SIZE
  let lb := hubBitmaps v.portCount buf len
  let desc := Function.update desc 0 (BitVec.ofNat 8 lb.1)
  let desc := Function.update desc 1 0x29
  let desc := Function.update desc 2 (BitVec.ofNat 8 v.portCount)
  let desc := Function.update (Function.update desc 3 0x09) 4 0x00
  memcpy lb.2 desc lb.1

/-- The `switch(typeReq)` of `vhci_hub_control`, taken under the lock; `none` is `goto err`. -/
def hubControlLocked (v : Vhci) (typeReq wValue wIndex : Nat) (buf : Nat → BitVec 8)
    (wLength : Nat) (desc : Nat → BitVec 8) : Option (Vhci × (Nat → BitVec 8)) :=
  if typeReq = ClearHubFeature ∨ typeReq = SetHubFeature then
    if wIndex ≠ 0 ∨ wLength ≠ 0 ∨ (wValue ≠ C_HUB_LOCAL_POWER ∧ wValue ≠ C_HUB_OVER_CURRENT) then
      none
    else some (v, buf)
  else if typeReq = ClearPortFeature then
    if wIndex = 0 ∨ wIndex > v.portCount ∨ wLength ≠ 0 then none
    else (clearPortFeature wValue (v.ports (wIndex - 1))).map fun r => (v.putPort wIndex r, buf)
  else if typeReq = GetHubDescriptor then
    if wIndex ≠ 0 then none else some (v, hubDescriptor v buf wLength desc)
  else if typeReq = GetHubStatus then
    if wValue ≠ 0 ∨ wIndex ≠ 0 ∨ wLength ≠ 4 then none
    else some (v, memset buf 0 0 4)
  else if typeReq = GetPortStatus then
    if wValue ≠ 0 ∨ wIndex = 0 ∨ wIndex > v.portCount ∨ wLength ≠ 4 then none
    else
      let p := v.ports (wIndex - 1)
      some (v, Function.update (Function.update (Function.update (Function.update buf
        0 (p.portStatus.setWidth 8)) 1 ((p.portStatus >>> 8).setWidth 8))
        2 (p.portChange.setWidth 8)) 3 ((p.portChange >>> 8).setWidth 8))
  else if typeReq = SetPortFeature then
    if wIndex = 0 ∨ wIndex > v.portCount ∨ wLength ≠ 0 then none
    else (setPortFeature wValue (v.ports (wIndex - 1))).map fun r => (v.putPort wIndex r, buf)
  else none

/-- Whether some port has a change bit set: the `has_changes` loop of `vhci_hub_control`. -/
def hasChanges (v : Vhci) : Bool :=
  (List.range v.portCount).any fun port => (v.ports port).portChange != 0

/-- What `vhci_hub_control` returns: its return value, the buffer, and whether it calls
`usb_hcd_poll_rh_status`. -/
structure HubControlResult where
  retval : Int
  buf : Nat → BitVec 8
  poll : Bool

/-- `vhci_hub_control`. `hw` is `HCD_FLAG_HW_ACCESSIBLE`; `desc` the stack contents that
`hub_descriptor` starts from. -/
def vhciHubControl (hw : Bool) (v : Vhci) (typeReq wValue wIndex : Nat) (buf : Nat → BitVec 8)
    (wLength : Nat) (desc : Nat → BitVec 8) : Vhci × HubControlResult :=
  if !hw then (v, ⟨-ETIMEDOUT, buf, false⟩)
  else
    match hubControlLocked v typeReq wValue wIndex buf wLength desc with
    | some (v', buf') => (v', ⟨0, buf', hasChanges v'⟩)
    | none => (v, ⟨-EPIPE, buf, hasChanges v⟩)

/-! The cases of the `switch(change)` of `ioc_port_stat`; `none` is a `-EPROTO` return. -/

/-- `case USB_PORT_STAT_C_CONNECTION`: a device was plugged in or out. -/
def portStatConnection (status : BitVec 16) (p : VhciPort) : VhciPort :=
  let overcurrent := p.portStatus &&& USB_PORT_STAT_OVERCURRENT
  ⟨if status &&& USB_PORT_STAT_CONNECTION ≠ 0 then
      USB_PORT_STAT_POWER ||| USB_PORT_STAT_CONNECTION |||
        (if status &&& USB_PORT_STAT_LOW_SPEED ≠ 0 then USB_PORT_STAT_LOW_SPEED
          else if status &&& USB_PORT_STAT_HIGH_SPEED ≠ 0 then USB_PORT_STAT_HIGH_SPEED
          else 0) ||| overcurrent
    else USB_PORT_STAT_POWER ||| overcurrent,
    p.portChange ||| USB_PORT_STAT_C_CONNECTION,
    p.portFlags &&& ~~~USB_VHCI_PORT_STAT_FLAG_RESUMING⟩

/-- `case USB_PORT_STAT_C_ENABLE`: the device disabled the port. -/
def portStatEnable (status : BitVec 16) (p : VhciPort) : Option VhciPort :=
  if p.portStatus &&& USB_PORT_STAT_CONNECTION = 0 ∨ p.portStatus &&& USB_PORT_STAT_RESET ≠ 0 ∨
      status &&& USB_PORT_STAT_ENABLE ≠ 0 then none
  else some ⟨p.portStatus &&& ~~~USB_PORT_STAT_ENABLE &&& ~~~USB_PORT_STAT_SUSPEND,
    p.portChange ||| USB_PORT_STAT_C_ENABLE,
    p.portFlags &&& ~~~USB_VHCI_PORT_STAT_FLAG_RESUMING⟩

/-- `case USB_PORT_STAT_C_SUSPEND`: the port left suspend. -/
def portStatSuspend (status : BitVec 16) (p : VhciPort) : Option VhciPort :=
  if p.portStatus &&& USB_PORT_STAT_CONNECTION = 0 ∨ p.portStatus &&& USB_PORT_STAT_ENABLE = 0 ∨
      p.portStatus &&& USB_PORT_STAT_RESET ≠ 0 ∨ status &&& USB_PORT_STAT_SUSPEND ≠ 0 then none
  else some ⟨p.portStatus &&& ~~~USB_PORT_STAT_SUSPEND,
    p.portChange ||| USB_PORT_STAT_C_SUSPEND,
    p.portFlags &&& ~~~USB_VHCI_PORT_STAT_FLAG_RESUMING⟩

/-- `case USB_PORT_STAT_C_OVERCURRENT`: the overcurrent bit follows the worker. -/
def portStatOvercurrent (status : BitVec 16) (p : VhciPort) : VhciPort :=
  ⟨p.portStatus &&& ~~~USB_PORT_STAT_OVERCURRENT ||| status &&& USB_PORT_STAT_OVERCURRENT,
    p.portChange ||| USB_PORT_STAT_C_OVERCURRENT, p.portFlags⟩

/-- `default` (`USB_PORT_STAT_C_RESET`, possibly with `USB_PORT_STAT_C_ENABLE`): a reset ended. -/
def portStatReset (status change : BitVec 16) (p : VhciPort) : Option VhciPort :=
  if p.portStatus &&& USB_PORT_STAT_CONNECTION = 0 ∨ p.portStatus &&& USB_PORT_STAT_RESET = 0 ∨
      status &&& USB_PORT_STAT_RESET ≠ 0 then none
  else if change &&& USB_PORT_STAT_C_ENABLE ≠ 0 then
    if status &&& USB_PORT_STAT_ENABLE ≠ 0 then none
    else some ⟨p.portStatus &&& ~~~USB_PORT_STAT_RESET,
      p.portChange ||| USB_PORT_STAT_C_ENABLE ||| USB_PORT_STAT_C_RESET, p.portFlags⟩
  else some ⟨(p.portStatus ||| status &&& USB_PORT_STAT_ENABLE) &&& ~~~USB_PORT_STAT_RESET,
    p.portChange ||| USB_PORT_STAT_C_RESET, p.portFlags⟩

/-- The `switch(change)` of `ioc_port_stat` on one port, from its power check on. -/
def portStat (status change : BitVec 16) (p : VhciPort) : Option VhciPort :=
  if p.portStatus &&& USB_PORT_STAT_POWER = 0 then none
  else if change = USB_PORT_STAT_C_CONNECTION then some (portStatConnection status p)
  else if change = USB_PORT_STAT_C_ENABLE then portStatEnable status p
  else if change = USB_PORT_STAT_C_SUSPEND then portStatSuspend status p
  else if change = USB_PORT_STAT_C_OVERCURRENT then some (portStatOvercurrent status p)
  else portStatReset status change p

/-- The change words `ioc_port_stat` accepts. -/
def portStatChanges : List (BitVec 16) :=
  [USB_PORT_STAT_C_CONNECTION, USB_PORT_STAT_C_ENABLE, USB_PORT_STAT_C_SUSPEND,
    USB_PORT_STAT_C_OVERCURRENT, USB_PORT_STAT_C_RESET,
    USB_PORT_STAT_C_RESET ||| USB_PORT_STAT_C_ENABLE]

/-- `ioc_port_stat`, for the `index`, `status` and `change` the worker wrote. -/
def iocPortStat (v : Vhci) (index : Nat) (status change : BitVec 16) : Vhci × Int :=
  if index = 0 ∨ index > v.portCount then (v, -EINVAL)
  else if change ∉ portStatChanges then (v, -EINVAL)
  else
    match portStat status change (v.ports (index - 1)) with
    | none => (v, -EPROTO)
    | some p => (v.putPort index (p, true), 0)

/-- One iteration of the port loop of `vhci_bus_suspend`. -/
def suspendPort (p : VhciPort) : VhciPort × Bool :=
  if p.portStatus &&& USB_PORT_STAT_ENABLE ≠ 0 ∧ p.portStatus &&& USB_PORT_STAT_SUSPEND = 0 then
    (⟨p.portStatus ||| USB_PORT_STAT_SUSPEND, p.portChange,
      p.portFlags &&& ~~~USB_VHCI_PORT_STAT_FLAG_RESUMING⟩, true)
  else (p, false)

/-- `vhci_bus_suspend`. -/
def vhciBusSuspend (v : Vhci) : Vhci :=
  { (List.range v.portCount).foldl (fun v port => v.putPort (port + 1) (suspendPort (v.ports port)))
      v with rhState := .suspended }

/-- `vhci_bus_resume`: `-ENODEV` unless `HCD_FLAG_HW_ACCESSIBLE` is set. -/
def vhciBusResume (hw : Bool) (v : Vhci) : Vhci × Int :=
  if !hw then (v, -ENODEV) else ({ v with rhState := .running }, 0)

/-- What `vhci_hub_status` returns: its return value, the bitmap, and whether it calls
`usb_hcd_resume_root_hub`. -/
structure HubStatusResult where
  retval : Int
  buf : Nat → BitVec 8
  resume : Bool

/-- `vhci_hub_status`. -/
def vhciHubStatus (hw : Bool) (v : Vhci) (buf : Nat → BitVec 8) : HubStatusResult :=
  let buf := memset buf 0 0 (1 + v.portCount / 8)
  if !hw then ⟨0, buf, false⟩
  else
    let r := (List.range v.portCount).foldl (fun (r : Int × (Nat → BitVec 8)) port =>
      if (v.ports port).portChange ≠ 0 then
        let absBit := port + 1
        (1, Function.update r.2 (absBit / 8) (r.2 (absBit / 8) ||| 1#8 <<< (absBit % 8)))
      else r) (0, buf)
    ⟨r.1, r.2, v.rhState = .suspended⟩

/-! ## What the requests of the root hub write -/

namespace Vhci

/-- `v'` differs from `v` at most in the root hub's state, the ports and `port_update`. -/
def HubWrite (v v' : Vhci) : Prop :=
  ∃ rh ps pu, v' = { v with rhState := rh, ports := ps, portUpdate := pu }

theorem HubWrite.refl (v : Vhci) : HubWrite v v := ⟨_, _, _, rfl⟩

theorem HubWrite.trans {u v w : Vhci} (h₁ : HubWrite u v) (h₂ : HubWrite v w) : HubWrite u w := by
  obtain ⟨_, _, _, rfl⟩ := h₁
  obtain ⟨_, _, _, rfl⟩ := h₂
  exact ⟨_, _, _, rfl⟩

theorem HubWrite.urbpList {v v' : Vhci} (h : HubWrite v v') (k : UrbpList) :
    v'.urbpList k = v.urbpList k := by
  obtain ⟨_, _, _, rfl⟩ := h
  cases k <;> rfl

theorem HubWrite.allUrbps {v v' : Vhci} (h : HubWrite v v') : v'.allUrbps = v.allUrbps := by
  simp only [allUrbps_eq, h.urbpList]

theorem HubWrite.portCount {v v' : Vhci} (h : HubWrite v v') : v'.portCount = v.portCount := by
  obtain ⟨_, _, _, rfl⟩ := h
  rfl

theorem HubWrite.portSchedOffset {v v' : Vhci} (h : HubWrite v v') :
    v'.portSchedOffset = v.portSchedOffset := by
  obtain ⟨_, _, _, rfl⟩ := h
  rfl

theorem hubWrite_putPort (v : Vhci) (port : Nat) (r : VhciPort × Bool) :
    HubWrite v (v.putPort port r) := by
  unfold putPort userspaceNeedsPortUpdate
  split_ifs <;> exact ⟨_, _, _, rfl⟩

end Vhci

open Vhci

/-- What the `switch(typeReq)` of `vhci_hub_control` can do to the controller: nothing, or store
in one existing port what `ClearPortFeature` or `SetPortFeature` computed for it. -/
theorem hubControlLocked_cases {v v' : Vhci} {typeReq wValue wIndex wLength : Nat}
    {buf buf' desc : Nat → BitVec 8}
    (h : hubControlLocked v typeReq wValue wIndex buf wLength desc = some (v', buf')) :
    v' = v ∨ ∃ q, 1 ≤ wIndex ∧ wIndex ≤ v.portCount ∧ v' = v.putPort wIndex q ∧
      (clearPortFeature wValue (v.ports (wIndex - 1)) = some q ∨
        setPortFeature wValue (v.ports (wIndex - 1)) = some q) := by
  unfold hubControlLocked at h
  simp only [ite_eq_iff, Option.map_eq_some', Option.some.injEq, Prod.mk.injEq, reduceCtorEq,
    and_false, false_or, or_false] at h
  -- one alternative per request: hub feature, ClearPortFeature, GetHubDescriptor,
  -- GetHubStatus, GetPortStatus, SetPortFeature
  rcases h with ⟨-, -, rfl, -⟩ | ⟨-, ⟨-, hi, q, hq, rfl, -⟩ | ⟨-, ⟨-, -, rfl, -⟩ | ⟨-, ⟨-, -, rfl, -⟩ |
    ⟨-, ⟨-, -, rfl, -⟩ | ⟨-, -, hi, q, hq, rfl, -⟩⟩⟩⟩⟩
  exacts [.inl rfl, .inr ⟨q, by omega, by omega, rfl, .inl hq⟩, .inl rfl, .inl rfl, .inl rfl,
    .inr ⟨q, by omega, by omega, rfl, .inr hq⟩]

/-- `vhci_hub_control` fails, with the controller as it was, or returns `0` after its switch. -/
theorem vhciHubControl_retval_cases {hw : Bool} {v v' : Vhci} {typeReq wValue wIndex wLength : Nat}
    {buf desc : Nat → BitVec 8} {r : HubControlResult}
    (h : vhciHubControl hw v typeReq wValue wIndex buf wLength desc = (v', r)) :
    (r.retval ≠ 0 ∧ v' = v) ∨
      (r.retval = 0 ∧ ∃ buf', hubControlLocked v typeReq wValue wIndex buf wLength desc = some (v', buf')) := by
  unfold vhciHubControl at h
  split_ifs at h
  · cases h; exact .inl ⟨(by decide : -ETIMEDOUT ≠ (0 : Int)), rfl⟩
  · split at h <;> cases h
    · exact .inr ⟨rfl, _, ‹_›⟩
    · exact .inl ⟨(by decide : -EPIPE ≠ (0 : Int)), rfl⟩

/-- What a request of `vhci_hub_control` can do to the controller: nothing, or store in one
existing port what `ClearPortFeature` or `SetPortFeature` computed for it. -/
theorem vhciHubControl_cases {hw : Bool} {v v' : Vhci} {typeReq wValue wIndex wLength : Nat}
    {buf desc : Nat → BitVec 8} {r : HubControlResult}
    (h : vhciHubControl hw v typeReq wValue wIndex buf wLength desc = (v', r)) :
    v' = v ∨ ∃ q, 1 ≤ wIndex ∧ wIndex ≤ v.portCount ∧ v' = v.putPort wIndex q ∧
      (clearPortFeature wValue (v.ports (wIndex - 1)) = some q ∨
        setPortFeature wValue (v.ports (wIndex - 1)) = some q) := by
  rcases vhciHubControl_retval_cases h with ⟨-, rfl⟩ | ⟨-, _, hl⟩
  exacts [.inl rfl, hubControlLocked_cases hl]

theorem vhciHubControl_hubWrite {hw : Bool} {v v' : Vhci} {typeReq wValue wIndex wLength : Nat}
    {buf desc : Nat → BitVec 8} {r : HubControlResult}
    (h : vhciHubControl hw v typeReq wValue wIndex buf wLength desc = (v', r)) : HubWrite v v' := by
  rcases vhciHubControl_cases h with rfl | ⟨q, -, -, rfl, -⟩
  exacts [.refl _, hubWrite_putPort _ _ _]

/-- `ioc_port_stat` fails, with the controller as it was, or returns `0` after storing the new
registers of one existing port and asking for its update. -/
theorem iocPortStat_retval_cases {v v' : Vhci} {index : Nat} {status change : BitVec 16} {r : Int}
    (h : iocPortStat v index status change = (v', r)) :
    (r ≠ 0 ∧ v' = v) ∨ (r = 0 ∧ ∃ p, 1 ≤ index ∧ index ≤ v.portCount ∧
      portStat status change (v.ports (index - 1)) = some p ∧ v' = v.putPort index (p, true)) := by
  unfold iocPortStat at h
  split_ifs at h
  · cases h; exact .inl ⟨by decide, rfl⟩
  · split at h <;> cases h
    · exact .inl ⟨by decide, rfl⟩
    · exact .inr ⟨rfl, _, by omega, by omega, ‹_›, rfl⟩
  · cases h; exact .inl ⟨by decide, rfl⟩

/-- What `ioc_port_stat` can do to the controller: nothing, or store the new registers of one
existing port, asking for its update. -/
theorem iocPortStat_cases {v v' : Vhci} {index : Nat} {status change : BitVec 16} {r : Int}
    (h : iocPortStat v index status change = (v', r)) :
    v' = v ∨ ∃ p, 1 ≤ index ∧ index ≤ v.portCount ∧
      portStat status change (v.ports (index - 1)) = some p ∧ v' = v.putPort index (p, true) := by
  rcases iocPortStat_retval_cases h with ⟨-, rfl⟩ | ⟨-, hp⟩
  exacts [.inl rfl, .inr hp]

theorem iocPortStat_hubWrite {v v' : Vhci} {index : Nat} {status change : BitVec 16} {r : Int}
    (h : iocPortStat v index status change = (v', r)) : HubWrite v v' := by
  rcases iocPortStat_cases h with rfl | ⟨p, -, -, -, rfl⟩
  exacts [.refl _, hubWrite_putPort _ _ _]

theorem vhciBusSuspend_hubWrite (v : Vhci) : HubWrite v (vhciBusSuspend v) := by
  suffices h : ∀ (ports : List Nat) (w : Vhci), HubWrite v w → HubWrite v
      (ports.foldl (fun v port => v.putPort (port + 1) (suspendPort (v.ports port))) w) by
    obtain ⟨_, ps, pu, h⟩ := h (List.range v.portCount) v (.refl v)
    exact ⟨.suspended, ps, pu, by simp only [vhciBusSuspend, h]⟩
  intro ports
  induction ports with
  | nil => exact fun _ h => h
  | cons port ports ih => exact fun w h => ih _ (h.trans (hubWrite_putPort _ _ _))

theorem vhciBusResume_hubWrite {hw : Bool} {v v' : Vhci} {r : Int}
    (h : vhciBusResume hw v = (v', r)) : HubWrite v v' := by
  unfold vhciBusResume at h
  split_ifs at h <;> cases h
  · exact .refl v
  · exact ⟨_, _, _, rfl⟩

end VhciHcd
