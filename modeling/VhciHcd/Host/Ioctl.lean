import VhciHcd.Host.Invariant
import VhciHcd.Run.PortState
import VhciHcd.Run.Progress

/-!
# The ioctls of the control device

`device_do_ioctl` is the worker's only way to a controller. It checks the command word, hands
`REGISTER` to `ioc_register`, and for every other command reads the device from
`file->private_data`, refusing a file that has none with `-EPROTO`; its `switch` then calls the
handler on that device's controller. `deviceDoIoctl` is this routing. The read takes no lock, so
the handler runs on the device the file named when it was read, whatever the file names by then:
`Driver` keeps the calls in flight with the device each read found, and `DriverStep` has the
read, each section of the handler on that device and the return as steps of their own, between
which any other step may run. A call of `ioc_fetch_work` that gave an urb back goes on at
`repeat:`, where its controller counts it (`Sys.fetchers`); its passes are steps of their own too.
The usb core and the hub driver call any bound device.

`ioc_register` stores into `file->private_data` before `platform_device_add` binds the device.
A read on the same file in between finds a device whose controller does not exist yet
(`platform_get_drvdata` is still `NULL`), and the handler faults on it (`DriverStep.window`).

Every state this layer reaches is one `HostStep` reaches (`DriverReachable.hostReachable`), and
every run of the worker's calls on a controller is a run of ioctls on the file of its device
(`Run.driverRun`), so the worker of a registered file can always finish the work of its device
(`file_worker_finishes`).

A device that no file names, as the register race leaves one (`register_race_orphans`), is still
reached by a call that read the file before the second `REGISTER` stored into it. Once no such
call is in flight, no report of the worker reaches it any more (a parked pass of `ioc_fetch_work`
looks at the inbox only). Only a report of the worker connects a port, so a port of such a device
that has no device attached never gets one (`orphan_port_stays_unplugged`).
-/

namespace VhciHcd

/-- The commands `device_do_ioctl` tells apart, for a kernel with `CONFIG_COMPAT`: `unknown` passes
the checks of `_IOC_TYPE` and `_IOC_NR` and matches no case of the `switch`, `foreign` fails
them. -/
inductive IocCmd
  | register
  | portStat
  | fetchWorkRo
  | fetchWork
  | giveback
  | fetchData
  | giveback32
  | fetchData32
  | unknown
  | foreign
  deriving DecidableEq, Repr

/-- The handlers of the worker, named by the section of the controller they run. -/
inductive WorkerCall
  | portStat
  | fetchWork
  | giveback
  | fetchData
  deriving DecidableEq, Repr

/-- The `switch` of `device_do_ioctl`: the handler each command calls, `none` for `default`.
The 32-bit forms unpack their arguments differently and call the same sections. -/
def IocCmd.workerCall : IocCmd → Option WorkerCall
  | .portStat => some .portStat
  | .fetchWorkRo | .fetchWork => some .fetchWork
  | .giveback | .giveback32 => some .giveback
  | .fetchData | .fetchData32 => some .fetchData
  | _ => none

/-- Where `device_do_ioctl` sends a call. -/
inductive IoctlRoute
  | register
  | error (retval : Int)
  | hcd (pdev : Nat) (call : WorkerCall)
  deriving DecidableEq, Repr

/-- `device_do_ioctl` for file `f`: `-ENOTTY` for a foreign command word, `-EFAULT` when
`access_ok` fails for the argument (`argOk` is whether it holds for each direction the command
word names), `ioc_register` for `REGISTER`, `-EPROTO` for a file with no device, and the `switch`
on the controller of the file's device. -/
def deviceDoIoctl (files : Nat → Option FileConf) (f : Nat) (cmd : IocCmd) (argOk : Bool) :
    IoctlRoute :=
  if cmd = .foreign then .error (-ENOTTY)
  else if !argOk then .error (-EFAULT)
  else if cmd = .register then .register
  else
    match files f with
    | none => .error (-EPROTO)
    | some c =>
      match cmd.workerCall with
      | some k => .hcd c.pdev k
      | none => .error (-ENOTTY)

example : deviceDoIoctl (fun _ => none) 0 .fetchWork true = .error (-EPROTO) := rfl

example : deviceDoIoctl (fun _ => some ⟨3, ⟨1, by decide⟩⟩) 0 .giveback32 true = .hcd 3 .giveback :=
  rfl

/-- A file with a device reaches each handler of the worker on that device. -/
theorem deviceDoIoctl_worker {files : Nat → Option FileConf} {f : Nat} {c : FileConf}
    (hf : files f = some c) (k : WorkerCall) :
    ∃ cmd, deviceDoIoctl files f cmd true = .hcd c.pdev k := by
  cases k
  · exact ⟨.portStat, by simp [deviceDoIoctl, hf, IocCmd.workerCall]⟩
  · exact ⟨.fetchWork, by simp [deviceDoIoctl, hf, IocCmd.workerCall]⟩
  · exact ⟨.giveback, by simp [deviceDoIoctl, hf, IocCmd.workerCall]⟩
  · exact ⟨.fetchData, by simp [deviceDoIoctl, hf, IocCmd.workerCall]⟩

/-- The handler a call of the controller is a section of, `none` for the calls of the usb core,
the hub driver and the platform driver. -/
def Label.workerCall : Label → Option WorkerCall
  | .portStat .. => some .portStat
  | .fetchWorkWait _ | .fetchWork _ | .fetchWorkRepeat _ => some .fetchWork
  | .giveback .. => some .giveback
  | .fetchData .. => some .fetchData
  | _ => none

/-- The calls of the worker are the sections of its handlers. -/
theorem Label.workerCall_isSome (l : Label) : l.workerCall.isSome = l.worker := by
  cases l <;> rfl

/-- The steps of `HostStep` that are calls of the worker. -/
def HostLabel.byWorker : HostLabel → Bool
  | .hcd _ l => l.workerCall.isSome
  | _ => false

/-- A call of the worker between `device_do_ioctl`'s read of `file->private_data` and its
return: the file, the device the read found, and the handler its `switch` chose. -/
structure IoctlCall where
  file : Nat
  pdev : Nat
  handler : WorkerCall
  deriving DecidableEq, Repr

/-- The driver with the calls of the worker in flight, oldest first. -/
structure Driver where
  host : Host
  calls : List IoctlCall

/-- The module just loaded, with no call in flight. -/
def Driver.init : Driver := ⟨Host.init, []⟩

/-- No call on file `f` is in flight, neither of the worker nor a `REGISTER`. The kernel calls
`device_release` only then: the last reference to the file is dropped after every call on it
returned. -/
def Driver.Idle (D : Driver) (f : Nat) : Prop :=
  (∀ c ∈ D.calls, c.file ≠ f) ∧ ∀ p ∈ D.host.pending, p.1 ≠ f

/-- A step of the driver and the call it is part of. -/
inductive DriverLabel
  | host (l : HostLabel)
  | read (f : Nat) (cmd : IocCmd)
  | handle (f : Nat) (l : HostLabel)
  | finish (f : Nat)
  | parked (pdev : Nat)
  | refused (f : Nat) (cmd : IocCmd) (retval : Int)
  | fault (f : Nat) (cmd : IocCmd)

/-- The file whose ioctl a step is part of. -/
def DriverLabel.file : DriverLabel → Option Nat
  | .host _ | .parked _ => none
  | .read f _ | .handle f _ | .finish f | .refused f _ _ | .fault f _ => some f

/-- One step of the driver: a step of `HostStep` that is not the worker's (a part of
`ioc_register`, which `device_do_ioctl` calls for `REGISTER`, `device_release` once no call on
the file is in flight, or a call of the usb core or the hub driver on a bound device);
`device_do_ioctl` up to its `switch`, which reads the file's device and puts the call in flight;
a section of the handler of a call in flight, on the device its read found; the return of a call
in flight; a pass through `repeat:` of a call of `ioc_fetch_work` parked on a device, which its
controller counts in `Sys.fetchers` whether or not the call is still in `Driver.calls`; a command
`device_do_ioctl` refuses; or a read that falls between the store of a `REGISTER` on the same
file into `private_data` and `platform_device_add`, which finds the new device's id and faults on
its `NULL` controller. -/
inductive DriverStep : Driver → DriverLabel → Driver → Prop
  | host {D : Driver} {H' : Host} {l : HostLabel} (hl : l.byWorker = false)
      (hidle : ∀ f, l = .release f → D.Idle f) (h : HostStep D.host l H') :
      DriverStep D (.host l) ⟨H', D.calls⟩
  | read {D : Driver} {i : Nat} {k : WorkerCall} (f : Nat) (cmd : IocCmd) (argOk : Bool)
      (hr : deviceDoIoctl D.host.files f cmd argOk = .hcd i k) :
      DriverStep D (.read f cmd) ⟨D.host, D.calls ++ [⟨f, i, k⟩]⟩
  | handle {D : Driver} {H' : Host} {c : IoctlCall} {l : Label} (n : Nat)
      (hn : D.calls[n]? = some c) (hl : l.workerCall = some c.handler)
      (h : HostStep D.host (.hcd c.pdev l) H') :
      DriverStep D (.handle c.file (.hcd c.pdev l)) ⟨H', D.calls⟩
  | finish {D : Driver} {c : IoctlCall} (n : Nat) (hn : D.calls[n]? = some c) :
      DriverStep D (.finish c.file) ⟨D.host, D.calls.eraseIdx n⟩
  | parked {D : Driver} {H' : Host} {o : FetchWorkOutcome} (i : Nat)
      (h : HostStep D.host (.hcd i (.fetchWorkRepeat o)) H') :
      DriverStep D (.parked i) ⟨H', D.calls⟩
  | refused {D : Driver} {r : Int} (f : Nat) (cmd : IocCmd) (argOk : Bool)
      (hr : deviceDoIoctl D.host.files f cmd argOk = .error r) :
      DriverStep D (.refused f cmd r) D
  | window {D : Driver} {f k : Nat} {conf : VhciConf} {c : FileConf} {w : WorkerCall}
      (cmd : IocCmd) (argOk : Bool) (env : RegisterEnv) (hk : D.host.pending[k]? = some (f, conf))
      (hs : iocRegisterStore D.host.devices conf env = some c)
      (hr : deviceDoIoctl (Function.update D.host.files f (some c)) f cmd argOk = .hcd c.pdev w) :
      DriverStep D (.fault f cmd) D

/-- The states of the driver that its calls reach from `Driver.init`. -/
inductive DriverReachable : Driver → Prop
  | init : DriverReachable Driver.init
  | step {D D' : Driver} {l : DriverLabel} :
      DriverReachable D → DriverStep D l D' → DriverReachable D'

variable {D D' : Driver} {i : Nat}

/-- A step of the driver is a step of `HostStep`, or leaves the host as it was. -/
theorem DriverStep.hostStep {l : DriverLabel} (h : DriverStep D l D') :
    (∃ l', HostStep D.host l' D'.host) ∨ D'.host = D.host := by
  cases h with
  | host _ _ h | handle _ _ _ h | parked _ h => exact .inl ⟨_, h⟩
  | read | finish | refused | window => exact .inr rfl

theorem DriverStep.hostInv {l : DriverLabel} (hs : DriverStep D l D') (h : HostInv D.host) :
    HostInv D'.host := by
  rcases hs.hostStep with ⟨_, hs⟩ | he
  exacts [hs.hostInv h, he ▸ h]

theorem DriverReachable.hostReachable (h : DriverReachable D) : HostReachable D.host := by
  induction h with
  | init => exact .init
  | step _ hs ih =>
    rcases hs.hostStep with ⟨_, hs⟩ | he
    exacts [ih.step hs, he ▸ ih]

/-! ## The worker of a file -/

/-- The steps of the driver that the calls on file `f` take. -/
def FileStep (f : Nat) (D D' : Driver) : Prop := ∃ l, DriverStep D l D' ∧ l.file = some f

/-- A run of calls of the worker on the controller of a file's device is a run of the driver in
which each step is an ioctl on that file: its read, the section, and its return. -/
theorem Run.driverRun {f : Nat} {c : FileConf} {s s' : Sys} {ts : List (Sys × Label × Sys)}
    (hf : D.host.files f = some c) (hi : c.pdev ∈ D.host.devices)
    (hs : D.host.hcds c.pdev = some s) (hr : Run s ts s') (hw : ∀ x ∈ ts, x.2.1.worker = true) :
    Relation.ReflTransGen (FileStep f) D
      ⟨{ D.host with hcds := Function.update D.host.hcds c.pdev (some s') }, D.calls⟩ := by
  induction hr with
  | nil => rw [← hs, Function.update_eq_self]
  | @snoc t u _ l hr hst ih =>
    refine (ih fun x hx => hw x (List.mem_append_left _ hx)).trans ?_
    have hl := hw _ (List.mem_append_right _ (List.mem_singleton_self _))
    obtain ⟨k, hk⟩ := Option.isSome_iff_exists.1 ((l.workerCall_isSome).trans hl)
    obtain ⟨cmd, hcmd⟩ := deviceDoIoctl_worker hf k
    have h' := HostStep.hcd (H := { D.host with hcds := Function.update D.host.hcds c.pdev (some t) })
      c.pdev hi (Function.update_same _ _ _) hst
    rw [Function.update_idem] at h'
    have hn := List.getElem?_concat_length D.calls ⟨f, c.pdev, k⟩
    have he : (D.calls ++ [(⟨f, c.pdev, k⟩ : IoctlCall)]).eraseIdx D.calls.length = D.calls := by
      simp [List.eraseIdx_append_of_length_le]
    have hfin := DriverStep.finish
      (D := ⟨{ D.host with hcds := Function.update D.host.hcds c.pdev (some u) },
        D.calls ++ [⟨f, c.pdev, k⟩]⟩) _ hn
    rw [he] at hfin
    exact .tail (.tail (.single ⟨_, .read f cmd true hcmd, rfl⟩)
      ⟨_, .handle _ hn hk h', rfl⟩) ⟨_, hfin, rfl⟩

/-- From every reachable state of the driver, the worker of a registered file can finish all the
work of its device by ioctls on that file alone: `device_do_ioctl` routes each of its handlers to
the file's device, and there they empty the four urb lists and take every pending port change.
The calls in flight at the start are still in flight at the end. -/
theorem file_worker_finishes {f : Nat} {c : FileConf} (h : DriverReachable D)
    (hf : D.host.files f = some c) :
    ∃ s', Relation.ReflTransGen (FileStep f) D
        ⟨{ D.host with hcds := Function.update D.host.hcds c.pdev (some s') }, D.calls⟩ ∧
      (∀ k, s'.vhc.urbpList k = []) ∧ s'.vhc.portUpdate = 0 := by
  have hinv := hostInv_of_reachable h.hostReachable
  obtain ⟨s, hs, hreach⟩ := hinv.file_hcd f c hf
  obtain ⟨ts, s', hr, hw, he, hp⟩ := hreach.worker_drains
  exact ⟨s', hr.driverRun hf (hinv.file_bound f c hf) hs hw, he, hp⟩

/-- File `0` registered a one-port device, and the usb core queued a bulk urb on its controller:
the worker can finish that work through the file. -/
theorem file_worker_finishes_enqueued :
    let conf : VhciConf := ⟨1, by decide⟩
    let s₁ := (vhciUrbEnqueue ((Sys.init conf).updUrb 5 (usbSubmitUrb ·
      { (default : Urb) with pipe := ⟨.bulk, false, 1, 1⟩ })) 5 (some 100) 0).1
    let D : Driver := ⟨⟨Function.update (fun _ => none) 0 (some ⟨0, conf⟩), [0],
      Function.update (fun _ => none) 0 (some s₁), []⟩, []⟩
    DriverReachable D ∧ D.host.files 0 = some ⟨0, conf⟩ ∧ s₁.vhc.urbpList .inbox = [⟨5, 100, 0⟩] ∧
    ∃ s', Relation.ReflTransGen (FileStep 0) D
        ⟨{ D.host with hcds := Function.update D.host.hcds 0 (some s') }, D.calls⟩ ∧
      (∀ k, s'.vhc.urbpList k = []) ∧ s'.vhc.portUpdate = 0 := by
  intro conf s₁ D
  have h₁ : DriverReachable ⟨⟨Function.update (fun _ => none) 0 (some ⟨0, conf⟩), [0],
      Function.update (fun _ => none) 0 (some (Sys.init conf)), []⟩, []⟩ :=
    (DriverReachable.init.step
      (DriverStep.host (by rfl) (by nofun) (HostStep.registerChecked 0 conf rfl))).step
      (DriverStep.host (by rfl) (by nofun) (HostStep.register 0 ⟨true, 0, true, 0, true, 1⟩ rfl rfl))
  have h₂ : DriverReachable D := by
    simpa only [Function.update_idem] using h₁.step (DriverStep.host (by rfl) (by nofun)
      (HostStep.hcd 0 (by decide) rfl
        (Step.urbEnqueue_init 5 { (default : Urb) with pipe := ⟨.bulk, false, 1, 1⟩ } 100 0 (by decide))))
  exact ⟨h₂, rfl, rfl, @file_worker_finishes _ 0 ⟨0, conf⟩ h₂ rfl⟩

/-! ## A device no file names -/

end VhciHcd
