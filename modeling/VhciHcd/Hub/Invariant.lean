import VhciHcd.Port.Invariant

/-!
# The port invariant of the controller

`PortsInv` says that every port of a `struct vhci` satisfies `PortInv`. Every request of the root
hub keeps it: the requests that write a port store the result of one of the per-port functions
of `VhciHcd.Hub.Control`, which keep `PortInv` by `VhciHcd.Port.Invariant`, and `putPort` leaves
the other ports alone.
-/

namespace VhciHcd

/-- Every port satisfies the register invariant. -/
def PortsInv (v : Vhci) : Prop := ∀ i, PortInv (v.ports i)

theorem portsInv_vhciStart (conf : VhciConf) : PortsInv (vhciStart conf) :=
  fun _ => portInv_default

variable {v v' : Vhci}

theorem PortsInv.putPort (hv : PortsInv v) {port : Nat} {r : VhciPort × Bool}
    (hr : PortInv r.1) : PortsInv (v.putPort port r) := by
  intro i
  unfold Vhci.putPort userspaceNeedsPortUpdate
  by_cases hi : i = port - 1 <;> split_ifs <;> simp [hi, hr, hv i]

theorem vhciHubControl_portsInv {hw : Bool} {typeReq wValue wIndex wLength : Nat}
    {buf desc : Nat → BitVec 8} {r : HubControlResult}
    (h : vhciHubControl hw v typeReq wValue wIndex buf wLength desc = (v', r)) (hv : PortsInv v) :
    PortsInv v' := by
  rcases vhciHubControl_cases h with rfl | ⟨q, -, -, rfl, hq | hq⟩
  exacts [hv, hv.putPort (clearPortFeature_inv hq (hv _)), hv.putPort (setPortFeature_inv hq (hv _))]

theorem iocPortStat_portsInv {index : Nat} {status change : BitVec 16} {r : Int}
    (h : iocPortStat v index status change = (v', r)) (hv : PortsInv v) : PortsInv v' := by
  rcases iocPortStat_cases h with rfl | ⟨p, -, -, hp, rfl⟩
  exacts [hv, hv.putPort (show PortInv (p, true).1 from portStat_inv hp (hv _))]

/-- The port loop of `vhci_bus_suspend`, from any prefix of the ports on. -/
theorem PortsInv.suspendLoop (ports : List Nat) (hv : PortsInv v) :
    PortsInv (ports.foldl (fun v port => v.putPort (port + 1) (suspendPort (v.ports port))) v) := by
  induction ports generalizing v with
  | nil => exact hv
  | cons port ports ih => exact ih (hv.putPort (suspendPort_inv (hv port)))

theorem vhciBusSuspend_portsInv (hv : PortsInv v) : PortsInv (vhciBusSuspend v) :=
  hv.suspendLoop _

theorem vhciBusResume_portsInv {hw : Bool} {r : Int} (h : vhciBusResume hw v = (v', r))
    (hv : PortsInv v) : PortsInv v' := by
  unfold vhciBusResume at h
  split_ifs at h <;> cases h <;> exact hv

end VhciHcd
