import VhciHcd.System
import VhciHcd.Hub.Invariant

/-!
# The port invariant in every reachable state

The urb side of the driver never writes a port (its sections keep `Vhci.hub`), the port part of
`ioc_fetch_work` writes only `port_update` and `port_sched_offset`, and the requests of the root
hub keep `PortsInv` by `VhciHcd.Hub.Invariant`. So every step keeps it, and it holds in every
state a run from `vhci_start` reaches, whatever the usb core, the hub driver and the worker do
in between.
-/

namespace VhciHcd

theorem PortsInv.of_hub_eq {v v' : Vhci} (hv : PortsInv v) (h : v'.hub = v.hub) :
    PortsInv v' := by
  have hp : v'.ports = v.ports := congrArg (fun x => x.2.1) h
  exact fun i => hp ▸ hv i

/-- Every step keeps the port invariant. -/
theorem Step.portsInv {s s' : Sys} {l : Label} (h : Step s l s') (hv : PortsInv s.vhc) :
    PortsInv s'.vhc := by
  cases h with
  | urbEnqueue _ _ _ _ _ _ _ h => exact hv.of_hub_eq (by simpa using vhciUrbEnqueue_hub h)
  | urbDequeue _ _ h => exact hv.of_hub_eq (vhciUrbDequeue_hub h)
  | fetchWorkWait => exact hv
  | fetchWork h =>
    have hp : PortsInv (fetchWorkPorts s.vhc).1 := fun i => by simpa using hv i
    rcases iocFetchWorkLocked_cases h with ⟨e, rest, -, rfl, -⟩ | ⟨-, w, -, rfl, -⟩ | ⟨-, -, h⟩
    · exact hv.of_hub_eq (by simp)
    · simpa using hp
    · simpa using hp.of_hub_eq (fetchWorkRepeat_hub h)
  | fetchWorkRepeat _ h =>
    have hh := fetchWorkRepeat_hub h
    simpa using hv.of_hub_eq hh
  | giveback _ h => exact hv.of_hub_eq (iocGivebackCommon_hub h)
  | fetchData _ h => exact hv.of_hub_eq (iocFetchDataCommon_hub h)
  | hcdRemove _ h => exact (hv.of_hub_eq (hcdRemoveStep_hub h) :)
  | hcdRemoveDone => exact hv
  | hubControl _ _ _ _ _ _ _ h => exact vhciHubControl_portsInv h hv
  | portStat _ _ _ h => exact iocPortStat_portsInv h hv
  | busSuspend => exact vhciBusSuspend_portsInv hv
  | busResume _ h => exact vhciBusResume_portsInv h hv
  | hubStatus => exact hv

/-- Every port of every reachable state satisfies the register invariant. -/
theorem portInv_of_reachable {conf : VhciConf} {s : Sys} (h : Reachable conf s) (i : Nat) :
    PortInv (s.vhc.ports i) := by
  have hv : PortsInv s.vhc :=
    Reachable.induction (portsInv_vhciStart conf) (fun _ _ _ _ hv hs => hs.portsInv hv) h
  exact hv i

/-- A one-port controller whose port the hub driver has just powered on. -/
theorem portInv_of_reachable_powerOn :
    Reachable ⟨1, by decide⟩ { Sys.init ⟨1, by decide⟩ with
      vhc := (vhciHubControl true (vhciStart ⟨1, by decide⟩) SetPortFeature USB_PORT_FEAT_POWER 1
        (fun _ => 0) 0 (fun _ => 0)).1 } ∧
    PortInv ((vhciHubControl true (vhciStart ⟨1, by decide⟩) SetPortFeature USB_PORT_FEAT_POWER 1
        (fun _ => 0) 0 (fun _ => 0)).1.ports 0) :=
  have hr := (Reachable.init _).step (Step.hubControl true SetPortFeature USB_PORT_FEAT_POWER 1 0
    (fun _ => 0) (fun _ => 0) rfl)
  ⟨hr, portInv_of_reachable hr 0⟩

end VhciHcd
