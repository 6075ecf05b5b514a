import VhciHcd.System

/-!
# Devices and files

Each `open` of the control device gives a `struct file`; `ioc_register` creates a platform device
of `vhci_hcd_driver` for it, whose probe starts a controller, and stores the file's
`struct vhci_conf` in `file->private_data`; `device_release` unregisters that device again.
`Host` is this layer: the `private_data` of each file, the ids of the platform devices bound to
the driver, in the order `driver_for_each_device` visits them, and the controller of each.

`ioc_register` looks for a free id under `dev_enum_lock` by asking `driver_for_each_device`
about `0, 1, ...` in turn, and takes the first id no bound device has
(`searchFreeId_least`). Its check of `file->private_data` is made before it takes the lock, and
the store into it after; `HostStep` keeps the two apart, since another call on the same file
can run in between. The section under the lock is one step: no other step of this layer can run
inside it, since a second `REGISTER` waits for the lock and `device_release` for every call on
the file to return. A read of `file->private_data` by `device_do_ioctl` on the same file can,
between the store and `platform_device_add`; `iocRegisterStore` is what it finds there, and
`VhciHcd.Host.Ioctl` models the read.

A `NULL` `hcd` that `ioc_register` dereferences after a probe that failed is a kernel fault, the
`none` of `iocRegisterLocked`.
-/

namespace VhciHcd

/-- `file->private_data` as `ioc_register` sets it: the `struct vhci_conf` with the id of its
platform device (`conf->pdev`) and the port count it accepted. -/
structure FileConf where
  pdev : Nat
  conf : VhciConf

/-- The driver's files and devices: the `private_data` of each file, the ids of the platform
devices bound to `vhci_hcd_driver`, the controller of each bound device, and the `REGISTER`
calls that have made their checks and wait for `dev_enum_lock` (file and port count). -/
structure Host where
  files : Nat → Option FileConf
  devices : List Nat
  hcds : Nat → Option Sys
  pending : List (Nat × VhciConf)

/-- The module just loaded: no file registered, no device. -/
def Host.init : Host := ⟨fun _ => none, [], fun _ => none, []⟩

/-! ## The search for a free id -/

/-- `device_enum` for the device with id `pdevId`, asked about id `i`. -/
def deviceEnum (i pdevId : Nat) : Int := if i = pdevId then -EINVAL else 0

/-- `driver_for_each_device`: `fn` is called on the bound devices in turn until one answers
non-zero, and that answer is returned; `0` when none does. -/
def driverForEachDevice (devices : List Nat) (fn : Nat → Int) : Int :=
  match devices with
  | [] => 0
  | d :: ds => if fn d ≠ 0 then fn d else driverForEachDevice ds fn

/-- The loop `for(i = 0; i < 10000; i++)` of `ioc_register`, from `i` with `n` passes left: it
stops at the first id that `driver_for_each_device` finds free. -/
def searchFreeId (devices : List Nat) (i : Nat) : Nat → Nat
  | 0 => i
  | n + 1 =>
    if driverForEachDevice devices (deviceEnum i) = 0 then i
    else searchFreeId devices (i + 1) n

theorem driverForEachDevice_deviceEnum (ds : List Nat) (i : Nat) :
    driverForEachDevice ds (deviceEnum i) = if i ∈ ds then -EINVAL else 0 := by
  induction ds with
  | nil => rfl
  | cons d ds ih =>
    by_cases h : i = d
    · simp [driverForEachDevice, deviceEnum, h, EINVAL]
    · simp [driverForEachDevice, deviceEnum, h, ih]

/-- The search from `i` with `n` passes left ends at the first id from `i` on that no bound
device has, or at `i + n` when `i, ..., i + n - 1` are all taken. -/
theorem searchFreeId_spec (ds : List Nat) (i n : Nat) :
    i ≤ searchFreeId ds i n ∧ searchFreeId ds i n ≤ i + n ∧
      (searchFreeId ds i n < i + n → searchFreeId ds i n ∉ ds) ∧
      ∀ j, i ≤ j → j < searchFreeId ds i n → j ∈ ds := by
  induction n generalizing i with
  | zero => exact ⟨le_rfl, le_rfl, fun h => absurd h (by simp [searchFreeId]),
      fun j hj hjr => absurd hjr (by simp [searchFreeId]; omega)⟩
  | succ n ih =>
    by_cases h : i ∈ ds
    · have hs : searchFreeId ds i (n + 1) = searchFreeId ds (i + 1) n := by
        simp [searchFreeId, driverForEachDevice_deviceEnum, h, EINVAL]
      obtain ⟨h₁, h₂, h₃, h₄⟩ := ih (i + 1)
      rw [hs]
      refine ⟨by omega, by omega, fun hr => h₃ (by omega), fun j hj hjr => ?_⟩
      rcases Nat.eq_or_lt_of_le hj with rfl | hj
      exacts [h, h₄ j hj hjr]
    · have hs : searchFreeId ds i (n + 1) = i := by
        simp [searchFreeId, driverForEachDevice_deviceEnum, h]
      rw [hs]
      exact ⟨le_rfl, by omega, fun _ => h, fun j hj hjr => absurd hjr (by omega)⟩

/-- The id `ioc_register` settles on is the least one no bound device has, when that is below
`10000`, and `10000` when all of `0, ..., 9999` are taken. -/
theorem searchFreeId_least (ds : List Nat) :
    (searchFreeId ds 0 10000 < 10000 → searchFreeId ds 0 10000 ∉ ds) ∧
      (∀ j < searchFreeId ds 0 10000, j ∈ ds) ∧ searchFreeId ds 0 10000 ≤ 10000 := by
  obtain ⟨-, h₂, h₃, h₄⟩ := searchFreeId_spec ds 0 10000
  exact ⟨h₃, fun j hj => h₄ j (Nat.zero_le j) hj, h₂⟩

example : searchFreeId [0, 2, 1, 4] 0 10000 = 3 := by decide

/-! ## `ioc_register` and `device_release` -/

/-- The checks `ioc_register` makes before it takes `dev_enum_lock`: `-EPROTO` for a file
already registered, `-EINVAL` for more than 31 ports; `none` goes on to the search. -/
def iocRegisterCheck (fileConf : Option FileConf) (pc : Nat) : Option Int :=
  if fileConf.isSome then some (-EPROTO)
  else if pc > 31 then some (-EINVAL)
  else none

/-- What the kernel answers to the calls of one `ioc_register`: whether `platform_device_alloc`
and `kmalloc` find memory, what `platform_device_add_data` and `platform_device_add` return,
whether the driver's probe (`vhci_hcd_probe`, which starts the controller) bound the new device,
and the number the usb core gave the new bus. -/
structure RegisterEnv where
  pdevAlloc : Bool
  addDataRet : Int
  confAlloc : Bool
  addRet : Int
  probeOk : Bool
  busnum : Int

/-- `ioc_register` from `spin_lock(&dev_enum_lock)` on, for file `f` and the configuration it
checked: the new state, the return value, and the `id` and `usb_busnum` it writes back. The
device a successful call adds runs a controller fresh from `vhci_start`. -/
def iocRegisterLocked (H : Host) (f : Nat) (conf : VhciConf) (env : RegisterEnv) :
    Option (Host × Int × Option (Nat × Int)) :=
  let i := searchFreeId H.devices 0 10000
  if i ≥ 10000 then some (H, -EBUSY, none)
  else if !env.pdevAlloc then some (H, -ENOMEM, none)
  else if env.addDataRet < 0 then some (H, env.addDataRet, none)
  else if !env.confAlloc then some (H, -ENOMEM, none)
  else if env.addRet < 0 then
    some ({ H with files := Function.update H.files f none }, env.addRet, none)
  else if !env.probeOk then none
  else
    some ({ H with
        files := Function.update H.files f (some ⟨i, conf⟩)
        devices := H.devices ++ [i]
        hcds := Function.update H.hcds i (some (Sys.init conf)) },
      0, some (i, env.busnum))

/-- What the section of `ioc_register` under `dev_enum_lock` stores into `file->private_data`
(line 1287) before `platform_device_add` binds the device, when it gets that far: the new
`struct vhci_conf`, with the id of a device that is not bound yet. -/
def iocRegisterStore (devices : List Nat) (conf : VhciConf) (env : RegisterEnv) :
    Option FileConf :=
  let i := searchFreeId devices 0 10000
  if i < 10000 ∧ env.pdevAlloc = true ∧ 0 ≤ env.addDataRet ∧ env.confAlloc = true then
    some ⟨i, conf⟩
  else none

/-- What the section of `ioc_register` under `dev_enum_lock` can do: fail and leave the state
as it was, fail in `platform_device_add` and clear the file's `private_data`, or register the
least free id for the file with a fresh controller. -/
theorem iocRegisterLocked_cases {H H' : Host} {f : Nat} {conf : VhciConf} {env : RegisterEnv}
    {r : Int} {y : Option (Nat × Int)} (h : iocRegisterLocked H f conf env = some (H', r, y)) :
    (H' = H ∧ y = none ∧ r ≠ 0) ∨
    (H' = { H with files := Function.update H.files f none } ∧ y = none ∧ r < 0) ∨
    (searchFreeId H.devices 0 10000 < 10000 ∧ r = 0 ∧
      y = some (searchFreeId H.devices 0 10000, env.busnum) ∧
      H' = { H with
        files := Function.update H.files f (some ⟨searchFreeId H.devices 0 10000, conf⟩)
        devices := H.devices ++ [searchFreeId H.devices 0 10000]
        hcds := Function.update H.hcds (searchFreeId H.devices 0 10000) (some (Sys.init conf)) }) := by
  unfold iocRegisterLocked at h
  simp only [ite_eq_iff, Option.some.injEq, Prod.mk.injEq, reduceCtorEq, and_false, false_or,
    or_false, ge_iff_le, Bool.not_eq_true'] at h
  rcases h with ⟨-, rfl, rfl, rfl⟩ | ⟨h₁, ⟨-, rfl, rfl, rfl⟩ | ⟨-, ⟨h₃, rfl, rfl, rfl⟩ |
    ⟨-, ⟨-, rfl, rfl, rfl⟩ | ⟨-, ⟨h₅, rfl, rfl, rfl⟩ | ⟨h₅, -, rfl, rfl, rfl⟩⟩⟩⟩⟩
  · exact .inl ⟨rfl, rfl, by decide⟩
  · exact .inl ⟨rfl, rfl, by decide⟩
  · exact .inl ⟨rfl, rfl, by omega⟩
  · exact .inl ⟨rfl, rfl, by decide⟩
  · exact .inr (.inl ⟨rfl, rfl, h₅⟩)
  · exact .inr (.inr ⟨by omega, rfl, rfl, rfl⟩)

/-- `ioc_register` hands a new device the least id no bound device has, below `10000`, and when
all of `0, ..., 9999` are taken it fails with `-EBUSY` and changes nothing. -/
theorem iocRegister_least_free {H H' : Host} {f : Nat} {conf : VhciConf} {env : RegisterEnv}
    {r : Int} {y : Option (Nat × Int)} (h : iocRegisterLocked H f conf env = some (H', r, y)) :
    (∀ i b, y = some (i, b) → r = 0 ∧ i < 10000 ∧ i ∉ H.devices ∧ ∀ j < i, j ∈ H.devices) ∧
    ((∀ j < 10000, j ∈ H.devices) → H' = H ∧ r = -EBUSY ∧ y = none) := by
  have hs := searchFreeId_least H.devices
  refine ⟨fun i b hy => ?_, fun hall => ?_⟩
  · rcases iocRegisterLocked_cases h with ⟨-, rfl, -⟩ | ⟨-, rfl, -⟩ | ⟨hlt, rfl, rfl, -⟩
    · cases hy
    · cases hy
    · cases hy
      exact ⟨rfl, hlt, hs.1 hlt, hs.2.1⟩
  · have hge : 10000 ≤ searchFreeId H.devices 0 10000 :=
      Nat.le_of_not_lt fun hlt => hs.1 hlt (hall _ hlt)
    simp only [iocRegisterLocked, ge_iff_le, if_pos hge, Option.some.injEq, Prod.mk.injEq] at h
    exact ⟨h.1.symm, h.2.1.symm, h.2.2.symm⟩

/-- Devices `0` and `2` are bound: the next registration gets id `1`. -/
theorem iocRegister_least_free_gap :
    let H : Host := ⟨fun _ => none, [0, 2], fun _ => none, []⟩
    let H' : Host := ⟨Function.update H.files 0 (some ⟨1, ⟨1, by decide⟩⟩), [0, 2, 1],
      Function.update H.hcds 1 (some (Sys.init ⟨1, by decide⟩)), []⟩
    iocRegisterLocked H 0 ⟨1, by decide⟩ ⟨true, 0, true, 0, true, 7⟩ = some (H', 0, some (1, 7)) ∧
    ((∀ i b, some (1, (7 : Int)) = some (i, b) →
        (0 : Int) = 0 ∧ i < 10000 ∧ i ∉ H.devices ∧ ∀ j < i, j ∈ H.devices) ∧
      ((∀ j < 10000, j ∈ H.devices) → H' = H ∧ (0 : Int) = -EBUSY ∧ some (1, (7 : Int)) = none)) :=
  ⟨rfl, @iocRegister_least_free _ _ 0 ⟨1, by decide⟩ ⟨true, 0, true, 0, true, 7⟩ _ _ rfl⟩

/-- `device_release`: clear `private_data` and unregister the file's platform device, if it
has one. -/
def deviceRelease (H : Host) (f : Nat) : Host :=
  match H.files f with
  | some c =>
    { H with
      files := Function.update H.files f none
      devices := H.devices.erase c.pdev
      hcds := Function.update H.hcds c.pdev none }
  | none => { H with files := Function.update H.files f none }

/-! ## The system -/

/-- A call of this layer and what it returned. -/
inductive HostLabel
  | registerChecked (f : Nat)
  | register (f : Nat) (retval : Int) (reply : Option (Nat × Int))
  | release (f : Nat)
  | hcd (i : Nat) (l : Label)

/-- One step of the driver as a whole: the two parts of `ioc_register`, `device_release`, or a
step of the controller of a bound device. -/
inductive HostStep : Host → HostLabel → Host → Prop
  | registerRefused {H : Host} {r : Int} (f pc : Nat) (h : iocRegisterCheck (H.files f) pc = some r) :
      HostStep H (.register f r none) H
  | registerChecked {H : Host} (f : Nat) (conf : VhciConf)
      (h : iocRegisterCheck (H.files f) conf.portCount = none) :
      HostStep H (.registerChecked f) { H with pending := H.pending ++ [(f, conf)] }
  | register {H H' : Host} {f : Nat} {conf : VhciConf} {r : Int} {y : Option (Nat × Int)}
      (k : Nat) (env : RegisterEnv) (hk : H.pending[k]? = some (f, conf))
      (h : iocRegisterLocked { H with pending := H.pending.eraseIdx k } f conf env = some (H', r, y)) :
      HostStep H (.register f r y) H'
  | release {H : Host} (f : Nat) : HostStep H (.release f) (deviceRelease H f)
  | hcd {H : Host} {s s' : Sys} {l : Label} (i : Nat) (hi : i ∈ H.devices) (hs : H.hcds i = some s)
      (h : Step s l s') :
      HostStep H (.hcd i l) { H with hcds := Function.update H.hcds i (some s') }

/-- The states of the driver that some sequence of steps from `Host.init` reaches. -/
inductive HostReachable : Host → Prop
  | init : HostReachable Host.init
  | step {H H' : Host} {l : HostLabel} : HostReachable H → HostStep H l H' → HostReachable H'

end VhciHcd
