import VhciHcd.Basic

/-!
# Port registers

One emulated hub port is the triple `struct vhci_port` of the driver: the USB-standard status
and change words (`u16`) and the driver's private flag byte (`u8`). They are fixed-width words
here, `BitVec 16` and `BitVec 8`, so that the worker's arbitrary status words and every mask of
`vhci_hub_control` and `ioc_port_stat` are taken at their C width.

The masks are single bits. Each is rewritten to `BitVec.twoPow`, and a test `x & MASK` of the
source is then a test of one bit of `x`: `and_twoPow_ne_zero` is the lemma every register proof
goes through.
-/

namespace VhciHcd

/-! Port status bits (`linux/usb/ch11.h`). -/

def USB_PORT_STAT_CONNECTION : BitVec 16 := 0x0001#16
def USB_PORT_STAT_ENABLE : BitVec 16 := 0x0002#16
def USB_PORT_STAT_SUSPEND : BitVec 16 := 0x0004#16
def USB_PORT_STAT_OVERCURRENT : BitVec 16 := 0x0008#16
def USB_PORT_STAT_RESET : BitVec 16 := 0x0010#16
def USB_PORT_STAT_POWER : BitVec 16 := 0x0100#16
def USB_PORT_STAT_LOW_SPEED : BitVec 16 := 0x0200#16
def USB_PORT_STAT_HIGH_SPEED : BitVec 16 := 0x0400#16

/-! Port change bits. -/

def USB_PORT_STAT_C_CONNECTION : BitVec 16 := 0x0001#16
def USB_PORT_STAT_C_ENABLE : BitVec 16 := 0x0002#16
def USB_PORT_STAT_C_SUSPEND : BitVec 16 := 0x0004#16
def USB_PORT_STAT_C_OVERCURRENT : BitVec 16 := 0x0008#16
def USB_PORT_STAT_C_RESET : BitVec 16 := 0x0010#16

/-- Modelled from the spec: the header `usb-vhci.h` that defines the driver-private flag is not
among the sources; the spec names one flag, "resuming in progress", taken here as bit 0. -/
def USB_VHCI_PORT_STAT_FLAG_RESUMING : BitVec 8 := 0x01#8

/-! Port feature selectors (`wValue` of `ClearPortFeature` and `SetPortFeature`). -/

def USB_PORT_FEAT_CONNECTION : Nat := 0
def USB_PORT_FEAT_ENABLE : Nat := 1
def USB_PORT_FEAT_SUSPEND : Nat := 2
def USB_PORT_FEAT_OVER_CURRENT : Nat := 3
def USB_PORT_FEAT_RESET : Nat := 4
def USB_PORT_FEAT_POWER : Nat := 8
def USB_PORT_FEAT_LOWSPEED : Nat := 9
def USB_PORT_FEAT_HIGHSPEED : Nat := 10
def USB_PORT_FEAT_C_CONNECTION : Nat := 16
def USB_PORT_FEAT_C_ENABLE : Nat := 17
def USB_PORT_FEAT_C_SUSPEND : Nat := 18
def USB_PORT_FEAT_C_OVER_CURRENT : Nat := 19
def USB_PORT_FEAT_C_RESET : Nat := 20
def USB_PORT_FEAT_INDICATOR : Nat := 22

/-! Hub feature selectors. -/

def C_HUB_LOCAL_POWER : Nat := 0
def C_HUB_OVER_CURRENT : Nat := 1

/-- `struct vhci_port`. -/
structure VhciPort where
  portStatus : BitVec 16
  portChange : BitVec 16
  portFlags : BitVec 8
deriving DecidableEq, Repr

/-- The all-zero port that `kzalloc` gives `vhci_start`. -/
instance : Inhabited VhciPort := ⟨⟨0, 0, 0⟩⟩

/-- `enum vhci_rh_state`. -/
inductive VhciRhState
  | reset
  | suspended
  | running
deriving DecidableEq, Repr

/-! ## Single-bit masks -/

theorem and_twoPow_ne_zero {w k : Nat} (x : BitVec w) :
    x &&& BitVec.twoPow w k ≠ 0#w ↔ x.getLsbD k = true := by
  rw [BitVec.and_twoPow]
  by_cases hx : x.getLsbD k
  · have hk : k < w := BitVec.lt_of_getLsbD hx
    have hpow : BitVec.twoPow w k ≠ 0#w := fun h => by
      simpa [hk] using congrArg (BitVec.getLsbD · k) h
    simp [hx, hpow]
  · simp [hx]

@[simp] theorem and_twoPow_eq_zero {w k : Nat} (x : BitVec w) :
    x &&& BitVec.twoPow w k = 0#w ↔ x.getLsbD k = false := by
  rw [← Bool.not_eq_true, ← and_twoPow_ne_zero, not_not]

@[simp] theorem USB_PORT_STAT_CONNECTION_eq : USB_PORT_STAT_CONNECTION = BitVec.twoPow 16 0 := rfl
@[simp] theorem USB_PORT_STAT_ENABLE_eq : USB_PORT_STAT_ENABLE = BitVec.twoPow 16 1 := rfl
@[simp] theorem USB_PORT_STAT_SUSPEND_eq : USB_PORT_STAT_SUSPEND = BitVec.twoPow 16 2 := rfl
@[simp] theorem USB_PORT_STAT_OVERCURRENT_eq :
    USB_PORT_STAT_OVERCURRENT = BitVec.twoPow 16 3 := rfl
@[simp] theorem USB_PORT_STAT_RESET_eq : USB_PORT_STAT_RESET = BitVec.twoPow 16 4 := rfl
@[simp] theorem USB_PORT_STAT_POWER_eq : USB_PORT_STAT_POWER = BitVec.twoPow 16 8 := rfl
@[simp] theorem USB_PORT_STAT_LOW_SPEED_eq : USB_PORT_STAT_LOW_SPEED = BitVec.twoPow 16 9 := rfl
@[simp] theorem USB_PORT_STAT_HIGH_SPEED_eq : USB_PORT_STAT_HIGH_SPEED = BitVec.twoPow 16 10 := rfl
@[simp] theorem USB_PORT_STAT_C_CONNECTION_eq :
    USB_PORT_STAT_C_CONNECTION = BitVec.twoPow 16 0 := rfl
@[simp] theorem USB_PORT_STAT_C_ENABLE_eq : USB_PORT_STAT_C_ENABLE = BitVec.twoPow 16 1 := rfl
@[simp] theorem USB_PORT_STAT_C_SUSPEND_eq : USB_PORT_STAT_C_SUSPEND = BitVec.twoPow 16 2 := rfl
@[simp] theorem USB_PORT_STAT_C_OVERCURRENT_eq :
    USB_PORT_STAT_C_OVERCURRENT = BitVec.twoPow 16 3 := rfl
@[simp] theorem USB_PORT_STAT_C_RESET_eq : USB_PORT_STAT_C_RESET = BitVec.twoPow 16 4 := rfl
@[simp] theorem USB_VHCI_PORT_STAT_FLAG_RESUMING_eq :
    USB_VHCI_PORT_STAT_FLAG_RESUMING = BitVec.twoPow 8 0 := rfl

end VhciHcd
