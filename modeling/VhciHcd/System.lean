import VhciHcd.Ioctl.FetchWork
import VhciHcd.Ioctl.Transfer

/-!
# Runs of the controller

A step is one critical section of `vhc->lock`, taken by the usb core, by the worker through an
ioctl, or by the platform driver, in any order: the lock serialises them, and between two
sections anything may run, including the completion handler that `usb_hcd_giveback_urb` calls
after `vhci_urb_giveback` dropped the lock. A call whose section ended in such a give-back and
that takes the lock again is parked in `Sys`: `ioc_fetch_work` at `repeat:` (`fetchers`), and
`vhci_hcd_remove` in its loops (`remover`). The sections of `vhci_urb_dequeue`,
`ioc_giveback_common` and `ioc_fetch_data_common` return right after taking the lock back, so
they are one section each.

The environment's side is stated on the constructors: the usb core submits an urb at a
non-`NULL` address, only while its `hcpriv` is `NULL`, with a `transfer_buffer_length` of at most
`INT_MAX`, a positive `number_of_packets` for an isochronous urb and a setup packet for a control
one (`usb_submit_urb` refuses it otherwise); it unlinks with a non-zero status; `kzalloc` returns
memory not in use; a wait of `ioc_fetch_work` ends as `WaitRet` says; and `ioc_giveback` and
`ioc_fetch_data` refuse a `NULL` handle with `-EINVAL` before they take the lock, so their
sections run on a non-`NULL` one. The owner's request is any urb. The labels record each call
with its result.
-/

namespace VhciHcd

/-- The system after `vhci_start`: no urb of the usb core is queued at this controller. -/
def Sys.init (conf : VhciConf) : Sys := ⟨vhciStart conf, fun _ => default, 0, none⟩

/-- Park an `ioc_fetch_work` call at `repeat:` when its section gave an urb back. -/
def Sys.parkFetcher (s : Sys) : FetchWorkOutcome → Sys
  | .rejected _ => { s with fetchers := s.fetchers + 1 }
  | .done _ _ => s

@[simp] theorem Sys.parkFetcher_vhc (s : Sys) (o : FetchWorkOutcome) :
    (s.parkFetcher o).vhc = s.vhc := by
  cases o <;> rfl

@[simp] theorem Sys.parkFetcher_urbs (s : Sys) (o : FetchWorkOutcome) :
    (s.parkFetcher o).urbs = s.urbs := by
  cases o <;> rfl

/-- A call and what it returned. -/
inductive Label
  | urbEnqueue (u : Nat) (retval : Int)
  | urbDequeue (u : Nat) (retval : Int) (gb : Option Giveback)
  | fetchWorkWait (retval : Int)
  | fetchWork (o : FetchWorkOutcome)
  | fetchWorkRepeat (o : FetchWorkOutcome)
  | giveback (a : GivebackArgs) (r : GivebackResult)
  | fetchData (a : FetchDataArgs) (r : FetchDataResult)
  | hcdRemove (gb : Option Giveback)
  | hubControl (typeReq wValue wIndex wLength : Nat) (r : HubControlResult)
  | portStat (index : Nat) (status change : BitVec 16) (retval : Int)
  | busSuspend
  | busResume (retval : Int)
  | hubStatus (r : HubStatusResult)

/-- The `usb_hcd_giveback_urb` calls a call's section ends in. -/
def Label.givebacks : Label → List Giveback
  | .urbDequeue _ _ g => g.toList
  | .fetchWork (.rejected g) => [g]
  | .fetchWorkRepeat (.rejected g) => [g]
  | .giveback _ r => r.gb.toList
  | .fetchData _ r => r.gb.toList
  | .hcdRemove g => g.toList
  | _ => []

/-- One critical section of the driver. -/
inductive Step : Sys → Label → Sys → Prop
  | urbEnqueue {s s' : Sys} {r : Int} (u : Nat) (req : Urb) (alloc : Option Nat) (linkRet : Int)
      (hfree : (s.urbs u).hcpriv = none) (hlen : req.transferBufferLength ≤ INT_MAX)
      (halloc : ∀ a, alloc = some a → a ∉ s.vhc.allUrbps.map (·.addr))
      (h : vhciUrbEnqueue (s.updUrb u (usbSubmitUrb · req)) u alloc linkRet = (s', r))
      (hu : u ≠ 0) (hiso : usbPipeisoc req.pipe → 0 < req.numberOfPackets)
      (hctrl : usbPipecontrol req.pipe → req.setupPacket.isSome) :
      Step s (.urbEnqueue u r) s'
  | urbDequeue {s s' : Sys} {r : Int} {g : Option Giveback} (u : Nat) (status : Int)
      (h : vhciUrbDequeue s u status = (s', r, g)) (hst : status ≠ 0) :
      Step s (.urbDequeue u r g) s'
  | fetchWorkWait {s : Sys} {r : Int} (timeout wret : Int)
      (h : fetchWorkWait timeout (hasWork s.vhc) wret = some r)
      (hw : timeout ≠ 0 → WaitRet timeout (hasWork s.vhc) wret) :
      Step s (.fetchWorkWait r) s
  | fetchWork {s s' : Sys} {o : FetchWorkOutcome} (h : iocFetchWorkLocked s = (s', o)) :
      Step s (.fetchWork o) (s'.parkFetcher o)
  | fetchWorkRepeat {s s' : Sys} {o : FetchWorkOutcome} (hp : 0 < s.fetchers)
      (h : fetchWorkRepeat { s with fetchers := s.fetchers - 1 } = (s', o)) :
      Step s (.fetchWorkRepeat o) (s'.parkFetcher o)
  | giveback {s s' : Sys} {r : GivebackResult} (a : GivebackArgs)
      (h : iocGivebackCommon s a = some (s', r)) (ha : a.handle ≠ 0) :
      Step s (.giveback a r) s'
  | fetchData {s s' : Sys} {r : FetchDataResult} (a : FetchDataArgs)
      (h : iocFetchDataCommon s a = some (s', r)) (ha : a.handle ≠ 0) :
      Step s (.fetchData a r) s'
  | hcdRemove {s s' : Sys} {g : Giveback} {ks ks' : List UrbpList}
      (hks : s.remover = some ks ∨ (s.remover = none ∧ ks = removeOrder))
      (h : hcdRemoveStep s ks = some (ks', s', g)) :
      Step s (.hcdRemove (some g)) { s' with remover := some ks' }
  | hcdRemoveDone {s : Sys} {ks : List UrbpList}
      (hks : s.remover = some ks ∨ (s.remover = none ∧ ks = removeOrder))
      (h : hcdRemoveStep s ks = none) :
      Step s (.hcdRemove none) { s with remover := none }
  | hubControl {s : Sys} {v' : Vhci} {r : HubControlResult} (hw : Bool)
      (typeReq wValue wIndex wLength : Nat) (buf desc : Nat → BitVec 8)
      (h : vhciHubControl hw s.vhc typeReq wValue wIndex buf wLength desc = (v', r)) :
      Step s (.hubControl typeReq wValue wIndex wLength r) { s with vhc := v' }
  | portStat {s : Sys} {v' : Vhci} {r : Int} (index : Nat) (status change : BitVec 16)
      (h : iocPortStat s.vhc index status change = (v', r)) :
      Step s (.portStat index status change r) { s with vhc := v' }
  | busSuspend {s : Sys} : Step s .busSuspend { s with vhc := vhciBusSuspend s.vhc }
  | busResume {s : Sys} {v' : Vhci} {r : Int} (hw : Bool) (h : vhciBusResume hw s.vhc = (v', r)) :
      Step s (.busResume r) { s with vhc := v' }
  | hubStatus {s : Sys} (hw : Bool) (buf : Nat → BitVec 8) :
      Step s (.hubStatus (vhciHubStatus hw s.vhc buf)) s

/-- A run: the steps taken, oldest first, each with the states before and after it. -/
inductive Run : Sys → List (Sys × Label × Sys) → Sys → Prop
  | nil (s : Sys) : Run s [] s
  | snoc {s t u : Sys} {ts : List (Sys × Label × Sys)} {l : Label} :
      Run s ts t → Step t l u → Run s (ts ++ [(t, l, u)]) u

/-- The states some run from `vhci_start` reaches. -/
def Reachable (conf : VhciConf) (s : Sys) : Prop := ∃ ts, Run (Sys.init conf) ts s

theorem Reachable.init (conf : VhciConf) : Reachable conf (Sys.init conf) := ⟨[], .nil _⟩

theorem Reachable.step {conf : VhciConf} {s s' : Sys} {l : Label} (h : Reachable conf s)
    (hs : Step s l s') : Reachable conf s' :=
  let ⟨_, hr⟩ := h; ⟨_, hr.snoc hs⟩

/-- A submission to a controller fresh from `vhci_start`: no entry is listed there, so any address
`kzalloc` returns is free. -/
theorem Step.urbEnqueue_init {conf : VhciConf} (u : Nat) (req : Urb) (addr : Nat) (linkRet : Int)
    (hok : req.transferBufferLength ≤ INT_MAX ∧ u ≠ 0 ∧
      (usbPipeisoc req.pipe → 0 < req.numberOfPackets) ∧
      (usbPipecontrol req.pipe → req.setupPacket.isSome)) :
    Step (Sys.init conf)
      (.urbEnqueue u (vhciUrbEnqueue ((Sys.init conf).updUrb u (usbSubmitUrb · req)) u (some addr)
        linkRet).2)
      (vhciUrbEnqueue ((Sys.init conf).updUrb u (usbSubmitUrb · req)) u (some addr) linkRet).1 :=
  .urbEnqueue u req (some addr) linkRet rfl hok.1 (by simp [Sys.init, vhciStart, Vhci.allUrbps])
    rfl hok.2.1 hok.2.2.1 hok.2.2.2

/-- A property that holds after `vhci_start` and that every step keeps holds in every reachable
state. -/
theorem Reachable.induction {conf : VhciConf} {P : Sys → Prop} (h0 : P (Sys.init conf))
    (hstep : ∀ s l s', Reachable conf s → P s → Step s l s' → P s') {s : Sys}
    (h : Reachable conf s) : P s := by
  obtain ⟨ts, hr⟩ := h
  induction hr with
  | nil => exact h0
  | snoc hr hs ih => exact hstep _ _ _ ⟨_, hr⟩ ih hs

/-- Each step recorded in a run was taken from a state the run reached. -/
theorem Run.step_of_mem {s u : Sys} {ts : List (Sys × Label × Sys)} (hr : Run s ts u)
    {x : Sys × Label × Sys} (hx : x ∈ ts) : (∃ ts', Run s ts' x.1) ∧ Step x.1 x.2.1 x.2.2 := by
  induction hr with
  | nil => cases hx
  | snoc hr hst ih =>
    rcases List.mem_append.1 hx with hx | hx
    · exact ih hx
    · obtain rfl := List.mem_singleton.1 hx
      exact ⟨⟨_, hr⟩, hst⟩

/-- Every state of a run from a reachable state is reachable. -/
theorem Run.reachable {conf : VhciConf} {s t : Sys} {ts : List (Sys × Label × Sys)}
    (hr : Run s ts t) (hs : Reachable conf s) : Reachable conf t := by
  induction hr with
  | nil => exact hs
  | snoc _ hst ih => exact ih.step hst

end VhciHcd
