import VhciHcd.Port.State
import VhciHcd.Run.Ports
import VhciHcd.Hub.Update

/-!
# Every port follows the USB 2.0 diagram

`PortMove i l a b` is what a step labelled `l` may do to the state of the zero-based port `i`:
nothing; an edge of the hub driver, by a `ClearPortFeature` or `SetPortFeature` request for the
port that returns `0`; enabled to suspended, by `vhci_bus_suspend`; or an edge of the device, by
a `PORT_STAT` report of the worker for the port that returns `0`. Every step from a state that
satisfies `PortsInv` moves every port so (`Step.portMove`): the register arithmetic of
`vhci_hub_control`, `ioc_port_stat` and `vhci_bus_suspend` refines the diagram the source cites,
with each edge taken by the party that owns it, and nothing else in the driver touches a port.
Along every run from `vhci_start` this gives `port_moves_of_run`, and two consequences: only a
report of the worker enables a port (`port_enabled_only_by_worker`), and only the hub driver
brings a port out of `poweredOff` (`port_powered_only_by_hub`). Conversely, from every reachable
state each edge leaving a port's state is taken by the call that labels it (`port_edges_taken`),
so the ports follow exactly the diagram.

The change word obeys a discipline of its own: a change bit, once set, stays set until a
`ClearPortFeature` request for the port (`change_bit_cleared_only_by_clear`).
-/

namespace VhciHcd

/-- How a step labelled `l` may take port `i` (zero-based) from one state to another. -/
inductive PortMove (i : Nat) : Label → PortState → PortState → Prop
  | stay {l : Label} {a : PortState} : PortMove i l a a
  | hub {typeReq wValue wLength : Nat} {r : HubControlResult} {a b : PortState}
      (hr : r.retval = 0) (h : HubMove typeReq wValue a b) :
      PortMove i (.hubControl typeReq wValue (i + 1) wLength r) a b
  | busSuspend : PortMove i .busSuspend .enabled .suspended
  | device {status change : BitVec 16} {a b : PortState} (h : DeviceMove change a b) :
      PortMove i (.portStat (i + 1) status change 0) a b

/-- What a request of `vhci_hub_control` can do to the controller, with the request named:
nothing, or, returning `0`, store in one existing port what `ClearPortFeature` or
`SetPortFeature` computed for it. -/
theorem vhciHubControl_port_cases {hw : Bool} {v v' : Vhci} {typeReq wValue wIndex wLength : Nat}
    {buf desc : Nat → BitVec 8} {r : HubControlResult}
    (h : vhciHubControl hw v typeReq wValue wIndex buf wLength desc = (v', r)) :
    v' = v ∨ r.retval = 0 ∧ ∃ q, 1 ≤ wIndex ∧ v' = v.putPort wIndex q ∧
      (typeReq = ClearPortFeature ∧ clearPortFeature wValue (v.ports (wIndex - 1)) = some q ∨
        typeReq = SetPortFeature ∧ setPortFeature wValue (v.ports (wIndex - 1)) = some q) := by
  rcases vhciHubControl_retval_cases h with ⟨-, rfl⟩ | ⟨hr, _, hl⟩
  · exact .inl rfl
  unfold hubControlLocked at hl
  simp only [ite_eq_iff, Option.map_eq_some', Option.some.injEq, Prod.mk.injEq, reduceCtorEq,
    and_false, false_or, or_false] at hl
  rcases hl with ⟨-, -, rfl, -⟩ | ⟨-, ⟨hc, hi, q, hq, rfl, -⟩ | ⟨-, ⟨-, -, rfl, -⟩ |
    ⟨-, ⟨-, -, rfl, -⟩ |
    ⟨-, ⟨-, -, rfl, -⟩ | ⟨-, hs, hi, q, hq, rfl, -⟩⟩⟩⟩⟩
  exacts [.inl rfl, .inr ⟨hr, q, by omega, rfl, .inl ⟨hc, hq⟩⟩, .inl rfl, .inl rfl, .inl rfl,
    .inr ⟨hr, q, by omega, rfl, .inr ⟨hs, hq⟩⟩]

/-- `ioc_port_stat` returns `0` only for a change word it accepts. -/
theorem iocPortStat_change_mem {v v' : Vhci} {index : Nat} {status change : BitVec 16}
    (h : iocPortStat v index status change = (v', 0)) : change ∈ portStatChanges := by
  by_contra hc
  unfold iocPortStat at h
  split_ifs at h <;> exact absurd (congrArg Prod.snd h) (by decide : ¬(-EINVAL : Int) = 0)

theorem Vhci.putPort_ports_apply (v : Vhci) {port : Nat} (hp : 1 ≤ port) (q : VhciPort × Bool)
    (i : Nat) : (v.putPort port q).ports i = if port = i + 1 then q.1 else v.ports i := by
  rw [Vhci.putPort_ports]
  by_cases hi : port = i + 1
  · rw [if_pos hi, hi, Nat.add_sub_cancel, Function.update_same]
  · rw [if_neg hi, Function.update_noteq (by omega)]

variable {s s' : Sys} {l : Label}

/-- Nothing but the four requests of the root hub touches the root hub's state or a port: a
step is one of them, with what it computed, or leaves both alone. -/
theorem Step.hub_cases (hs : Step s l s') :
    (s'.vhc.rhState = s.vhc.rhState ∧ s'.vhc.ports = s.vhc.ports) ∨
    (∃ hw typeReq wValue wIndex wLength buf desc v' r, s' = { s with vhc := v' } ∧
      l = .hubControl typeReq wValue wIndex wLength r ∧
      vhciHubControl hw s.vhc typeReq wValue wIndex buf wLength desc = (v', r)) ∨
    (∃ index status change v' r, s' = { s with vhc := v' } ∧ l = .portStat index status change r ∧
      iocPortStat s.vhc index status change = (v', r)) ∨
    (s' = { s with vhc := vhciBusSuspend s.vhc } ∧ l = .busSuspend) ∨
    (∃ hw v' r, s' = { s with vhc := v' } ∧ l = .busResume r ∧
      vhciBusResume hw s.vhc = (v', r)) := by
  have of_hub {v v' : Vhci} (h : v'.hub = v.hub) : v'.rhState = v.rhState ∧ v'.ports = v.ports :=
    ⟨congrArg (·.1) h, congrArg (·.2.1) h⟩
  cases hs with
  | urbEnqueue _ _ _ _ _ _ _ h => exact .inl (of_hub (by simpa using vhciUrbEnqueue_hub h))
  | urbDequeue _ _ h => exact .inl (of_hub (vhciUrbDequeue_hub h))
  | fetchWorkWait | hcdRemoveDone | hubStatus => exact .inl ⟨rfl, rfl⟩
  | fetchWork h =>
    obtain ⟨pu, off, hp⟩ := fetchWorkPorts_fst s.vhc
    rw [Sys.parkFetcher_vhc]
    rcases iocFetchWorkLocked_cases h with ⟨e, rest, -, rfl, -⟩ | ⟨-, w, -, rfl, -⟩ | ⟨-, -, h⟩
    · exact .inl (of_hub (by simp))
    · exact .inl (by rw [hp]; exact ⟨rfl, rfl⟩)
    · exact .inl (by simpa [hp] using of_hub (fetchWorkRepeat_hub h))
  | fetchWorkRepeat _ h =>
    rw [Sys.parkFetcher_vhc]
    have hh := fetchWorkRepeat_hub h
    exact .inl (of_hub hh)
  | giveback _ h => exact .inl (of_hub (iocGivebackCommon_hub h))
  | fetchData _ h => exact .inl (of_hub (iocFetchDataCommon_hub h))
  | hcdRemove _ h =>
    have hh := hcdRemoveStep_hub h
    exact .inl (of_hub hh)
  | hubControl hw typeReq wValue wIndex wLength buf desc h =>
    exact .inr (.inl ⟨hw, typeReq, wValue, wIndex, wLength, buf, desc, _, _, rfl, rfl, h⟩)
  | portStat index status change h =>
    exact .inr (.inr (.inl ⟨index, status, change, _, _, rfl, rfl, h⟩))
  | busSuspend => exact .inr (.inr (.inr (.inl ⟨rfl, rfl⟩)))
  | busResume hw h => exact .inr (.inr (.inr (.inr ⟨hw, _, _, rfl, rfl, h⟩)))

/-- What a step does to one port: nothing; store what a `ClearPortFeature` or `SetPortFeature`
request for it computed, returning `0`; store what a `PORT_STAT` report for it computed,
returning `0`; or store what `vhci_bus_suspend` computed for it. -/
theorem Step.port_cases (hs : Step s l s') (i : Nat) :
    s'.vhc.ports i = s.vhc.ports i ∨
    (∃ typeReq wValue wLength r q, l = .hubControl typeReq wValue (i + 1) wLength r ∧
      r.retval = 0 ∧ s'.vhc.ports i = q.1 ∧
      (typeReq = ClearPortFeature ∧ clearPortFeature wValue (s.vhc.ports i) = some q ∨
        typeReq = SetPortFeature ∧ setPortFeature wValue (s.vhc.ports i) = some q)) ∨
    (∃ status change p, l = .portStat (i + 1) status change 0 ∧ change ∈ portStatChanges ∧
      VhciHcd.portStat status change (s.vhc.ports i) = some p ∧ s'.vhc.ports i = p) ∨
    (l = .busSuspend ∧ s'.vhc.ports i = (suspendPort (s.vhc.ports i)).1) := by
  rcases hs.hub_cases with ⟨-, he⟩ |
    ⟨_, typeReq, wValue, wIndex, wLength, _, _, _, r, rfl, rfl, h⟩ |
    ⟨index, status, change, _, _, rfl, rfl, h⟩ | ⟨rfl, rfl⟩ | ⟨_, _, _, rfl, rfl, h⟩
  · exact .inl (congrFun he i)
  · rcases vhciHubControl_port_cases h with rfl | ⟨hr, q, h1, rfl, hq⟩
    · exact .inl rfl
    dsimp only
    rw [Vhci.putPort_ports_apply _ h1]
    split_ifs with hi
    · subst hi
      rw [Nat.add_sub_cancel] at hq
      exact .inr (.inl ⟨typeReq, wValue, wLength, _, q, rfl, hr, rfl, hq⟩)
    · exact .inl rfl
  · rcases iocPortStat_retval_cases h with ⟨-, rfl⟩ | ⟨rfl, p, h1, -, hp, rfl⟩
    · exact .inl rfl
    dsimp only
    rw [Vhci.putPort_ports_apply _ h1]
    split_ifs with hi
    · subst hi
      rw [Nat.add_sub_cancel] at hp
      exact .inr (.inr (.inl ⟨status, change, p, rfl, iocPortStat_change_mem h, hp, rfl⟩))
    · exact .inl rfl
  · have hp : (vhciBusSuspend s.vhc).ports =
        (suspendLoop (List.range s.vhc.portCount) s.vhc).ports := by rw [vhciBusSuspend_eq]
    dsimp only
    rw [hp, suspendLoop_ports (List.nodup_range _)]
    split_ifs
    exacts [.inr (.inr (.inr ⟨rfl, rfl⟩)), .inl rfl]
  · unfold vhciBusResume at h
    split_ifs at h <;> cases h <;> exact .inl rfl

/-- Every step moves every port along the diagram, each edge by the request or report that
names it. -/
theorem Step.portMove (hs : Step s l s') (hv : PortsInv s.vhc) (i : Nat) :
    PortMove i l (s.vhc.ports i).state (s'.vhc.ports i).state := by
  rcases hs.port_cases i with he | ⟨_, _, _, _, q, rfl, hr, he, ⟨rfl, hq⟩ | ⟨rfl, hq⟩⟩ |
    ⟨_, _, p, rfl, hc, hp, he⟩ | ⟨rfl, he⟩ <;> rw [he]
  · exact .stay
  · rcases clearPortFeature_move hq (hv i) with he | hm
    exacts [he ▸ .stay, .hub hr hm]
  · rcases setPortFeature_move hq (hv i) with he | hm
    exacts [he ▸ .stay, .hub hr hm]
  · rcases portStat_move hc hp (hv i) with he | hm
    exacts [he ▸ .stay, .device hm]
  · rcases suspendPort_move (hv i) with he | ⟨ha, hb⟩
    · exact he ▸ .stay
    · rw [ha, hb]
      exact .busSuspend

/-- The change bits a step clears: only a `ClearPortFeature` request for the port that returns
`0` clears one, the bit its `C_*` feature names, or, switching power off, any bit but
`C_OVER_CURRENT`, or, disabling the port, `C_ENABLE` or `C_SUSPEND`. -/
theorem Step.change_cleared (hs : Step s l s') {i j : Nat}
    (hb : (s.vhc.ports i).portChange.getLsbD j = true)
    (ha : (s'.vhc.ports i).portChange.getLsbD j = false) :
    ∃ wValue wLength r, l = .hubControl ClearPortFeature wValue (i + 1) wLength r ∧
      r.retval = 0 ∧ (wValue = j + 16 ∨ wValue = USB_PORT_FEAT_POWER ∧ j ≠ 3 ∨
        wValue = USB_PORT_FEAT_ENABLE ∧ (j = 1 ∨ j = 2)) := by
  have kept {y : BitVec 16} (h : BitsIn (s.vhc.ports i).portChange y) (ha : y.getLsbD j = false) :
      False := by
    simp [bitsIn_iff.1 h j hb] at ha
  rcases hs.port_cases i with he | ⟨_, wValue, wLength, r, q, rfl, hr, he, ⟨rfl, hq⟩ | ⟨-, hq⟩⟩ |
    ⟨_, _, p, rfl, -, hp, he⟩ | ⟨rfl, he⟩ <;> rw [he] at ha
  · exact (kept (bitsIn_refl _) ha).elim
  · exact ⟨wValue, wLength, r, rfl, hr, clearPortFeature_clears hq hb ha⟩
  · exact (kept (setPortFeature_changes hq) ha).elim
  · exact (kept (portStat_changes hp) ha).elim
  · rw [suspendPort_portChange] at ha
    exact (kept (bitsIn_refl _) ha).elim

namespace PortMove

variable {i : Nat}

/-- Only the worker's report of the end of a resume or of a reset ends in `enabled`. -/
theorem to_enabled {a : PortState} (h : PortMove i l a .enabled) (ha : a ≠ .enabled) :
    (∃ status, l = .portStat (i + 1) status USB_PORT_STAT_C_SUSPEND 0 ∧
      a ∈ [.suspended, .resuming]) ∨
    (∃ status, l = .portStat (i + 1) status USB_PORT_STAT_C_RESET 0 ∧ a = .resetting) := by
  cases h with
  | stay => exact absurd rfl ha
  | hub _ h => nomatch h
  | device h =>
    cases h with
    | resumed h => exact .inl ⟨_, rfl, h⟩
    | resetDone => exact .inr ⟨_, rfl, rfl⟩

/-- Only `SetPortFeature(POWER)` leaves `poweredOff`, to `disconnected`. -/
theorem from_poweredOff {b : PortState} (h : PortMove i l .poweredOff b) (hb : b ≠ .poweredOff) :
    (∃ wLength r, l = .hubControl SetPortFeature USB_PORT_FEAT_POWER (i + 1) wLength r ∧
      r.retval = 0) ∧ b = .disconnected := by
  cases h with
  | stay => exact absurd rfl hb
  | hub hr h =>
    cases h with
    | powerOff => exact absurd rfl hb
    | powerOn => exact ⟨⟨_, _, rfl, hr⟩, rfl⟩
    | reset h | disable h => simp at h
  | device h =>
    cases h with
    | disconnect h | connect h => exact absurd rfl h
    | disable h | resumed h => simp at h

end PortMove

/-- Every reachable state satisfies `PortsInv`. -/
theorem PortsInv.of_reachable {conf : VhciConf} (h : Reachable conf s) : PortsInv s.vhc :=
  Reachable.induction (portsInv_vhciStart conf) (fun _ _ _ _ hv hs => hs.portsInv hv) h

/-- Every step of a run from `vhci_start` moves every port along the diagram. -/
theorem Run.portMove {conf : VhciConf} {ts : List (Sys × Label × Sys)}
    (hr : Run (Sys.init conf) ts s) {x : Sys × Label × Sys} (hx : x ∈ ts) (i : Nat) :
    PortMove i x.2.1 (x.1.vhc.ports i).state (x.2.2.vhc.ports i).state := by
  obtain ⟨⟨_, hr'⟩, hs⟩ := hr.step_of_mem hx
  exact hs.portMove (PortsInv.of_reachable ⟨_, hr'⟩) i

/-- In every run from `vhci_start`, every step moves every port along the USB 2.0 diagram: the
hub driver's edges only by a `ClearPortFeature` or `SetPortFeature` request for the port that
returns `0`, suspension also by `vhci_bus_suspend`, and the device's edges only by a `PORT_STAT`
report of the worker for the port that returns `0`. -/
theorem port_moves_of_run {conf : VhciConf} {ts : List (Sys × Label × Sys)}
    (hr : Run (Sys.init conf) ts s) {x : Sys × Label × Sys} (hx : x ∈ ts) (i : Nat) :
    PortMove i x.2.1 (x.1.vhc.ports i).state (x.2.2.vhc.ports i).state :=
  hr.portMove hx i

/-- A run of one step: `SetPortFeature(PORT_POWER)` on the port of a one-port controller. -/
theorem port_moves_of_run_powerOn :
    let s₀ : Sys := Sys.init ⟨1, by decide⟩
    let c : Vhci × HubControlResult := vhciHubControl true s₀.vhc SetPortFeature
      USB_PORT_FEAT_POWER 1 (fun _ => 0) 0 (fun _ => 0)
    let x : Sys × Label × Sys :=
      (s₀, .hubControl SetPortFeature USB_PORT_FEAT_POWER 1 0 c.2, { s₀ with vhc := c.1 })
    Run s₀ [x] x.2.2 ∧ PortMove 0 x.2.1 (x.1.vhc.ports 0).state (x.2.2.vhc.ports 0).state :=
  have hr : Run (Sys.init ⟨1, by decide⟩) _ _ := (Run.nil _).snoc (Step.hubControl true
    SetPortFeature USB_PORT_FEAT_POWER 1 0 (fun _ => 0) (fun _ => 0) rfl)
  ⟨hr, port_moves_of_run hr (List.mem_singleton_self _) 0⟩

/-! ## Every edge is taken -/

/-- A `ClearPortFeature` or `SetPortFeature` request for an existing port, with no data stage,
stores what the request computed for the port and returns `0`. -/
theorem vhciHubControl_port {v : Vhci} {typeReq wValue i : Nat} {q : VhciPort × Bool}
    (hi : i < v.portCount)
    (hq : typeReq = ClearPortFeature ∧ clearPortFeature wValue (v.ports i) = some q ∨
      typeReq = SetPortFeature ∧ setPortFeature wValue (v.ports i) = some q)
    (buf desc : Nat → BitVec 8) :
    (vhciHubControl true v typeReq wValue (i + 1) buf 0 desc).1 = v.putPort (i + 1) q ∧
      (vhciHubControl true v typeReq wValue (i + 1) buf 0 desc).2.retval = 0 := by
  have hw : ¬(i + 1 = 0 ∨ i + 1 > v.portCount ∨ (0 : Nat) ≠ 0) := by omega
  unfold vhciHubControl hubControlLocked
  rcases hq with ⟨rfl, hq⟩ | ⟨rfl, hq⟩
  · rw [if_neg (by decide), if_pos rfl, if_neg hw, Nat.add_sub_cancel, hq]
    exact ⟨rfl, rfl⟩
  · rw [if_neg (by decide), if_neg (by decide), if_neg (by decide), if_neg (by decide),
      if_neg (by decide), if_pos rfl, if_neg hw, Nat.add_sub_cancel, hq]
    exact ⟨rfl, rfl⟩

/-- A report for an existing port with a change word `ioc_port_stat` accepts, which the port's
registers allow, is stored and returns `0`. -/
theorem iocPortStat_port {v : Vhci} {i : Nat} {status change : BitVec 16} {p : VhciPort}
    (hi : i < v.portCount) (hc : change ∈ portStatChanges)
    (hp : portStat status change (v.ports i) = some p) :
    iocPortStat v (i + 1) status change = (v.putPort (i + 1) (p, true), 0) := by
  unfold iocPortStat
  rw [if_neg (by omega), if_neg (not_not.2 hc), Nat.add_sub_cancel, hp]

theorem DeviceMove.change_mem {change : BitVec 16} {a b : PortState} (h : DeviceMove change a b) :
    change ∈ portStatChanges := by
  cases h <;> decide

/-- From every reachable state, each edge of the diagram leaving the state of an existing port
is taken by the call that labels it: each edge of the hub driver by its `ClearPortFeature` or
`SetPortFeature` request for the port, which returns `0`; each edge of the device by a
`PORT_STAT` report of the worker with its change word, which returns `0`; and enabled to
suspended by `vhci_bus_suspend`. With `port_moves_of_run`, the ports of the controller follow
exactly the USB 2.0 diagram. -/
theorem port_edges_taken {conf : VhciConf} (h : Reachable conf s) {i : Nat}
    (hi : i < s.vhc.portCount) :
    (∀ typeReq wValue b, HubMove typeReq wValue (s.vhc.ports i).state b →
      ∃ r s', Step s (.hubControl typeReq wValue (i + 1) 0 r) s' ∧ r.retval = 0 ∧
        (s'.vhc.ports i).state = b) ∧
    (∀ change b, DeviceMove change (s.vhc.ports i).state b →
      ∃ status s', Step s (.portStat (i + 1) status change 0) s' ∧ (s'.vhc.ports i).state = b) ∧
    ((s.vhc.ports i).state = .enabled →
      ∃ s', Step s .busSuspend s' ∧ (s'.vhc.ports i).state = .suspended) := by
  have hv := PortsInv.of_reachable h
  refine ⟨fun typeReq wValue b hm => ?_, fun change b hm => ?_, fun he => ?_⟩
  · obtain ⟨q, hq, hb⟩ := hm.taken (hv i)
    obtain ⟨hv', hr⟩ := vhciHubControl_port hi hq (fun _ => 0) (fun _ => 0)
    rcases hc : vhciHubControl true s.vhc typeReq wValue (i + 1) (fun _ => 0) 0 (fun _ => 0) with
      ⟨v', r⟩
    rw [hc] at hv' hr
    refine ⟨r, _, .hubControl true typeReq wValue (i + 1) 0 (fun _ => 0) (fun _ => 0) hc, hr, ?_⟩
    show (v'.ports i).state = b
    rw [show v' = _ from hv', Vhci.putPort_ports_apply _ (Nat.le_add_left 1 i), if_pos rfl, hb]
  · obtain ⟨status, p, hp, hb⟩ := hm.taken (hv i)
    refine ⟨status, _, .portStat (i + 1) status change (iocPortStat_port hi hm.change_mem hp), ?_⟩
    rw [Vhci.putPort_ports_apply _ (Nat.le_add_left 1 i), if_pos rfl, hb]
  · refine ⟨_, .busSuspend, ?_⟩
    have hp : (vhciBusSuspend s.vhc).ports =
        (suspendLoop (List.range s.vhc.portCount) s.vhc).ports := by rw [vhciBusSuspend_eq]
    dsimp only
    rw [hp, suspendLoop_ports (List.nodup_range _), if_pos (List.mem_range.2 hi)]
    exact suspendPort_enabled (hv i) he

/-- The hub driver powers the port of a one-port controller, the worker reports a device, the hub
driver resets the port and the worker reports the end of the reset. From the enabled port the
edges of the hub driver, those of the device and the bus suspend are all taken. -/
theorem port_edges_taken_enabled :
    let s₀ : Sys := Sys.init ⟨1, by decide⟩
    let s₁ : Sys := { s₀ with vhc := (vhciHubControl true s₀.vhc SetPortFeature
      USB_PORT_FEAT_POWER 1 (fun _ => 0) 0 (fun _ => 0)).1 }
    let s₂ : Sys := { s₁ with vhc := (iocPortStat s₁.vhc 1 USB_PORT_STAT_CONNECTION
      USB_PORT_STAT_C_CONNECTION).1 }
    let s₃ : Sys := { s₂ with vhc := (vhciHubControl true s₂.vhc SetPortFeature
      USB_PORT_FEAT_RESET 1 (fun _ => 0) 0 (fun _ => 0)).1 }
    let s : Sys := { s₃ with vhc := (iocPortStat s₃.vhc 1 USB_PORT_STAT_ENABLE
      USB_PORT_STAT_C_RESET).1 }
    Reachable ⟨1, by decide⟩ s ∧ 0 < s.vhc.portCount ∧ (s.vhc.ports 0).state = .enabled ∧
    (∀ typeReq wValue b, HubMove typeReq wValue (s.vhc.ports 0).state b →
      ∃ r s', Step s (.hubControl typeReq wValue (0 + 1) 0 r) s' ∧ r.retval = 0 ∧
        (s'.vhc.ports 0).state = b) ∧
    (∀ change b, DeviceMove change (s.vhc.ports 0).state b →
      ∃ status s', Step s (.portStat (0 + 1) status change 0) s' ∧
        (s'.vhc.ports 0).state = b) ∧
    ((s.vhc.ports 0).state = .enabled →
      ∃ s', Step s .busSuspend s' ∧ (s'.vhc.ports 0).state = .suspended) :=
  have hr : Reachable ⟨1, by decide⟩ _ := ⟨_, ((((Run.nil _).snoc (Step.hubControl true
    SetPortFeature USB_PORT_FEAT_POWER 1 0 (fun _ => 0) (fun _ => 0) rfl)).snoc
    (Step.portStat 1 USB_PORT_STAT_CONNECTION USB_PORT_STAT_C_CONNECTION (by rfl))).snoc
    (Step.hubControl true SetPortFeature USB_PORT_FEAT_RESET 1 0 (fun _ => 0) (fun _ => 0)
      (by rfl))).snoc (Step.portStat 1 USB_PORT_STAT_ENABLE USB_PORT_STAT_C_RESET (by rfl))⟩
  ⟨hr, by decide, by decide, port_edges_taken hr (by decide)⟩

/-- In every run from `vhci_start`, a port becomes enabled only in a step that is a `PORT_STAT`
report of the worker for it returning `0`: the end of a resume (`C_SUSPEND`) of a suspended or
resuming port, or the end of a reset (`C_RESET`) of a resetting port. Neither a request of the
hub driver nor the bus suspend enables a port. -/
theorem port_enabled_only_by_worker {conf : VhciConf} {ts : List (Sys × Label × Sys)}
    (hr : Run (Sys.init conf) ts s) {x : Sys × Label × Sys} (hx : x ∈ ts) {i : Nat}
    (hb : (x.1.vhc.ports i).state ≠ .enabled) (ha : (x.2.2.vhc.ports i).state = .enabled) :
    (∃ status, x.2.1 = .portStat (i + 1) status USB_PORT_STAT_C_SUSPEND 0 ∧
      (x.1.vhc.ports i).state ∈ [.suspended, .resuming]) ∨
    (∃ status, x.2.1 = .portStat (i + 1) status USB_PORT_STAT_C_RESET 0 ∧
      (x.1.vhc.ports i).state = .resetting) :=
  (ha ▸ hr.portMove hx i).to_enabled hb

/-- The hub driver powers the port of a one-port controller, the worker reports a device, the hub
driver resets the port, and the worker reports the end of the reset with the port enabled. -/
theorem port_enabled_only_by_worker_reset :
    let s₀ : Sys := Sys.init ⟨1, by decide⟩
    let c₁ : Vhci × HubControlResult := vhciHubControl true s₀.vhc SetPortFeature
      USB_PORT_FEAT_POWER 1 (fun _ => 0) 0 (fun _ => 0)
    let s₁ : Sys := { s₀ with vhc := c₁.1 }
    let c₂ : Vhci × Int := iocPortStat s₁.vhc 1 USB_PORT_STAT_CONNECTION USB_PORT_STAT_C_CONNECTION
    let s₂ : Sys := { s₁ with vhc := c₂.1 }
    let c₃ : Vhci × HubControlResult := vhciHubControl true s₂.vhc SetPortFeature
      USB_PORT_FEAT_RESET 1 (fun _ => 0) 0 (fun _ => 0)
    let s₃ : Sys := { s₂ with vhc := c₃.1 }
    let c₄ : Vhci × Int := iocPortStat s₃.vhc 1 USB_PORT_STAT_ENABLE USB_PORT_STAT_C_RESET
    let s₄ : Sys := { s₃ with vhc := c₄.1 }
    let x : Sys × Label × Sys := (s₃, .portStat 1 USB_PORT_STAT_ENABLE USB_PORT_STAT_C_RESET c₄.2, s₄)
    Run s₀ [(s₀, .hubControl SetPortFeature USB_PORT_FEAT_POWER 1 0 c₁.2, s₁),
      (s₁, .portStat 1 USB_PORT_STAT_CONNECTION USB_PORT_STAT_C_CONNECTION c₂.2, s₂),
      (s₂, .hubControl SetPortFeature USB_PORT_FEAT_RESET 1 0 c₃.2, s₃), x] s₄ ∧
    (x.1.vhc.ports 0).state ≠ .enabled ∧ (x.2.2.vhc.ports 0).state = .enabled ∧
    ((∃ status, x.2.1 = .portStat (0 + 1) status USB_PORT_STAT_C_SUSPEND 0 ∧
      (x.1.vhc.ports 0).state ∈ [.suspended, .resuming]) ∨
    (∃ status, x.2.1 = .portStat (0 + 1) status USB_PORT_STAT_C_RESET 0 ∧
      (x.1.vhc.ports 0).state = .resetting)) :=
  have hr : Run (Sys.init ⟨1, by decide⟩) _ _ := ((((Run.nil _).snoc (Step.hubControl true
    SetPortFeature USB_PORT_FEAT_POWER 1 0 (fun _ => 0) (fun _ => 0) rfl)).snoc
    (Step.portStat 1 USB_PORT_STAT_CONNECTION USB_PORT_STAT_C_CONNECTION (by rfl))).snoc
    (Step.hubControl true SetPortFeature USB_PORT_FEAT_RESET 1 0 (fun _ => 0) (fun _ => 0)
      (by rfl))).snoc (Step.portStat 1 USB_PORT_STAT_ENABLE USB_PORT_STAT_C_RESET (by rfl))
  ⟨hr, by decide, by decide,
    @port_enabled_only_by_worker _ _ _ hr _ (List.mem_append_right _ (List.mem_singleton_self _))
      0 (by decide) (by decide)⟩

/-- In every run from `vhci_start`, a powered-off port leaves that state only by a
`SetPortFeature(POWER)` request for it that returns `0`, and comes up disconnected: no report of
the worker and no other request reaches a powered-off port. -/
theorem port_powered_only_by_hub {conf : VhciConf} {ts : List (Sys × Label × Sys)}
    (hr : Run (Sys.init conf) ts s) {x : Sys × Label × Sys} (hx : x ∈ ts) {i : Nat}
    (hb : (x.1.vhc.ports i).state = .poweredOff) (ha : (x.2.2.vhc.ports i).state ≠ .poweredOff) :
    (∃ wLength r, x.2.1 = .hubControl SetPortFeature USB_PORT_FEAT_POWER (i + 1) wLength r ∧
      r.retval = 0) ∧ (x.2.2.vhc.ports i).state = .disconnected :=
  (hb ▸ hr.portMove hx i).from_poweredOff ha

/-- A run of one step: `SetPortFeature(PORT_POWER)` on the port of a one-port controller. -/
theorem port_powered_only_by_hub_powerOn :
    let s₀ : Sys := Sys.init ⟨1, by decide⟩
    let c : Vhci × HubControlResult := vhciHubControl true s₀.vhc SetPortFeature
      USB_PORT_FEAT_POWER 1 (fun _ => 0) 0 (fun _ => 0)
    let x : Sys × Label × Sys :=
      (s₀, .hubControl SetPortFeature USB_PORT_FEAT_POWER 1 0 c.2, { s₀ with vhc := c.1 })
    Run s₀ [x] x.2.2 ∧ (x.1.vhc.ports 0).state = .poweredOff ∧
    (x.2.2.vhc.ports 0).state ≠ .poweredOff ∧
    (∃ wLength r, x.2.1 = .hubControl SetPortFeature USB_PORT_FEAT_POWER (0 + 1) wLength r ∧
      r.retval = 0) ∧ (x.2.2.vhc.ports 0).state = .disconnected :=
  have hr : Run (Sys.init ⟨1, by decide⟩) _ _ := (Run.nil _).snoc (Step.hubControl true
    SetPortFeature USB_PORT_FEAT_POWER 1 0 (fun _ => 0) (fun _ => 0) rfl)
  ⟨hr, by decide, by decide,
    @port_powered_only_by_hub _ _ _ hr _ (List.mem_singleton_self _) 0 (by decide) (by decide)⟩

/-- Along any run, a change bit of a port that is set at the start and clear at the end was
cleared by a `ClearPortFeature` request for the port that returned `0` and that names the bit,
switches power off (any bit but `C_OVER_CURRENT`) or disables the port (`C_ENABLE` or
`C_SUSPEND`): no other request, no report of the worker and no urb call loses a change the hub
driver has not acknowledged. -/
theorem change_bit_cleared_only_by_clear {ts : List (Sys × Label × Sys)} (hr : Run s ts s')
    {i j : Nat} (hb : (s.vhc.ports i).portChange.getLsbD j = true)
    (ha : (s'.vhc.ports i).portChange.getLsbD j = false) :
    ∃ x ∈ ts, ∃ wValue wLength r, x.2.1 = .hubControl ClearPortFeature wValue (i + 1) wLength r ∧
      r.retval = 0 ∧ (wValue = j + 16 ∨ wValue = USB_PORT_FEAT_POWER ∧ j ≠ 3 ∨
        wValue = USB_PORT_FEAT_ENABLE ∧ (j = 1 ∨ j = 2)) := by
  induction hr with
  | nil => simp [hb] at ha
  | @snoc t u ts l hr hs ih =>
    by_cases ht : (t.vhc.ports i).portChange.getLsbD j
    · exact ⟨(t, l, u), by simp, hs.change_cleared ht ha⟩
    · obtain ⟨x, hx, hc⟩ := ih (by simpa using ht)
      exact ⟨x, List.mem_append_left _ hx, hc⟩

/-- The worker reports a device on the powered port of a one-port controller, which sets its
`C_CONNECTION` bit, and the hub driver acknowledges it with `ClearPortFeature(C_CONNECTION)`. -/
theorem change_bit_cleared_only_by_clear_ack :
    let s₀ : Sys := Sys.init ⟨1, by decide⟩
    let s₁ : Sys := { s₀ with vhc := (vhciHubControl true s₀.vhc SetPortFeature
      USB_PORT_FEAT_POWER 1 (fun _ => 0) 0 (fun _ => 0)).1 }
    let s₂ : Sys := { s₁ with
      vhc := (iocPortStat s₁.vhc 1 USB_PORT_STAT_CONNECTION USB_PORT_STAT_C_CONNECTION).1 }
    let c : Vhci × HubControlResult := vhciHubControl true s₂.vhc ClearPortFeature
      USB_PORT_FEAT_C_CONNECTION 1 (fun _ => 0) 0 (fun _ => 0)
    let x : Sys × Label × Sys :=
      (s₂, .hubControl ClearPortFeature USB_PORT_FEAT_C_CONNECTION 1 0 c.2, { s₂ with vhc := c.1 })
    Run s₂ [x] x.2.2 ∧ (s₂.vhc.ports 0).portChange.getLsbD 0 = true ∧
    (x.2.2.vhc.ports 0).portChange.getLsbD 0 = false ∧
    ∃ y ∈ [x], ∃ wValue wLength r,
      y.2.1 = .hubControl ClearPortFeature wValue (0 + 1) wLength r ∧ r.retval = 0 ∧
        (wValue = 0 + 16 ∨ wValue = USB_PORT_FEAT_POWER ∧ 0 ≠ 3 ∨
          wValue = USB_PORT_FEAT_ENABLE ∧ (0 = 1 ∨ 0 = 2)) :=
  have hr := (Run.nil _).snoc (Step.hubControl true ClearPortFeature USB_PORT_FEAT_C_CONNECTION 1 0
    (fun _ => 0) (fun _ => 0) rfl)
  ⟨hr, by decide, by decide, @change_bit_cleared_only_by_clear _ _ _ hr 0 0 (by decide) (by decide)⟩

end VhciHcd
