import VhciHcd.Host.Basic

/-!
# The devices in every reachable state

`HostInv` is what the driver keeps of its devices and files: the bound devices have distinct ids
below `10000`, a registered file names a bound device that no other file names, and every bound
device runs a controller that a run from `vhci_start` reaches, with the file's port count when a
file names it. Every step keeps it (`HostStep.hostInv`), so every reachable state satisfies it,
and each theorem about a reachable controller holds of every device the driver has bound.

`ioc_register` checks `file->private_data` without a lock and stores into it under
`dev_enum_lock`, so two `REGISTER` calls on one file can both get past the check. The second
store then overwrites the first: the first device stays bound with no file naming it
(`Host.Orphan`), and since `device_release` unregisters only the device its file names and the
search never hands out a bound id, it stays so for good (`register_race_orphans`).
-/

namespace VhciHcd

/-- No file names device `i`. -/
def Host.Orphan (H : Host) (i : Nat) : Prop := ∀ f c, H.files f = some c → c.pdev ≠ i

/-- What holds of the devices and files in every reachable state. -/
structure HostInv (H : Host) : Prop where
  nodup : H.devices.Nodup
  lt : ∀ i ∈ H.devices, i < 10000
  file_bound : ∀ f c, H.files f = some c → c.pdev ∈ H.devices
  file_inj : ∀ f g c d, H.files f = some c → H.files g = some d → c.pdev = d.pdev → f = g
  file_hcd : ∀ f c, H.files f = some c → ∃ s, H.hcds c.pdev = some s ∧ Reachable c.conf s
  hcd_reachable : ∀ i ∈ H.devices, ∃ conf s, H.hcds i = some s ∧ Reachable conf s

theorem files_update_none {files : Nat → Option FileConf} {f g : Nat} {c : FileConf}
    (h : Function.update files f none g = some c) : g ≠ f ∧ files g = some c := by
  by_cases hg : g = f
  · subst hg; simp at h
  · exact ⟨hg, by rwa [Function.update_noteq hg] at h⟩

namespace HostInv

variable {H : Host}

theorem init : HostInv Host.init where
  nodup := List.nodup_nil
  lt _ h := nomatch h
  file_bound _ _ h := nomatch h
  file_inj _ _ _ _ h := nomatch h
  file_hcd _ _ h := nomatch h
  hcd_reachable _ h := nomatch h

theorem pending (h : HostInv H) (p : List (Nat × VhciConf)) : HostInv { H with pending := p } :=
  ⟨h.nodup, h.lt, h.file_bound, h.file_inj, h.file_hcd, h.hcd_reachable⟩

/-- Clearing the `private_data` of a file keeps the invariant. -/
theorem clearFile (h : HostInv H) (f : Nat) :
    HostInv { H with files := Function.update H.files f none } := by
  exact ⟨h.nodup, h.lt, fun g c hc => h.file_bound g c (files_update_none hc).2,
    fun g g' c d hc hd => h.file_inj g g' c d (files_update_none hc).2 (files_update_none hd).2,
    fun g c hc => h.file_hcd g c (files_update_none hc).2, h.hcd_reachable⟩

/-- Registering a file on an id no bound device has, below `10000`, with a fresh controller,
keeps the invariant. -/
theorem add (h : HostInv H) {f i : Nat} (conf : VhciConf) (hi : i ∉ H.devices) (hlt : i < 10000) :
    HostInv { H with
      files := Function.update H.files f (some ⟨i, conf⟩)
      devices := H.devices ++ [i]
      hcds := Function.update H.hcds i (some (Sys.init conf)) } := by
  have hne : ∀ j ∈ H.devices, j ≠ i := fun j hj he => hi (he ▸ hj)
  have hf : ∀ g c, Function.update H.files f (some ⟨i, conf⟩) g = some c →
      (g = f ∧ c = ⟨i, conf⟩) ∨ (g ≠ f ∧ H.files g = some c) := fun g c => by
    by_cases hg : g = f
    · subst hg; simp [eq_comm]
    · simp [Function.update_noteq hg, hg]
  refine ⟨List.nodup_append.2 ⟨h.nodup, List.nodup_singleton i, by simpa using hi⟩,
    fun j hj => ?_, fun g c hc => ?_, fun g g' c d hc hd hcd => ?_, fun g c hc => ?_,
    fun j hj => ?_⟩ <;> dsimp only at *
  · rcases List.mem_append.1 hj with hj | hj
    exacts [h.lt j hj, (List.mem_singleton.1 hj).symm ▸ hlt]
  · rcases hf g c hc with ⟨-, rfl⟩ | ⟨-, hc'⟩
    exacts [List.mem_append_right _ (List.mem_singleton_self i),
      List.mem_append_left _ (h.file_bound g c hc')]
  · rcases hf g c hc with ⟨hg, rfl⟩ | ⟨hg, hc'⟩ <;>
      rcases hf g' d hd with ⟨hg', rfl⟩ | ⟨hg', hd'⟩
    · exact hg.trans hg'.symm
    · exact absurd hcd.symm (hne _ (h.file_bound _ _ hd'))
    · exact absurd hcd (hne _ (h.file_bound _ _ hc'))
    · exact h.file_inj g g' c d hc' hd' hcd
  · rcases hf g c hc with ⟨-, rfl⟩ | ⟨-, hc'⟩
    · exact ⟨_, Function.update_same _ _ _, Reachable.init conf⟩
    · rw [Function.update_noteq (hne _ (h.file_bound g c hc'))]
      exact h.file_hcd g c hc'
  · rcases List.mem_append.1 hj with hj | hj
    · rw [Function.update_noteq (hne j hj)]
      exact h.hcd_reachable j hj
    · rw [List.mem_singleton.1 hj, Function.update_same]
      exact ⟨conf, _, rfl, Reachable.init conf⟩

theorem register (h : HostInv H) {H' : Host} {f : Nat} {conf : VhciConf} {env : RegisterEnv}
    {r : Int} {y : Option (Nat × Int)} (hr : iocRegisterLocked H f conf env = some (H', r, y)) :
    HostInv H' := by
  rcases iocRegisterLocked_cases hr with ⟨rfl, -⟩ | ⟨rfl, -⟩ | ⟨hlt, -, -, rfl⟩
  · exact h
  · exact h.clearFile f
  · exact h.add conf ((searchFreeId_least H.devices).1 hlt) hlt

theorem release (h : HostInv H) (f : Nat) : HostInv (deviceRelease H f) := by
  unfold deviceRelease
  split
  · rename_i c hc
    have hne : ∀ g d, g ≠ f → H.files g = some d → d.pdev ≠ c.pdev :=
      fun g d hg hd he => hg (h.file_inj g f d c hd hc he)
    refine ⟨h.nodup.erase _, fun j hj => h.lt j (List.mem_of_mem_erase hj),
      fun g d hd => ?_,
      fun g g' d d' hd hd' =>
        h.file_inj g g' d d' (files_update_none hd).2 (files_update_none hd').2,
      fun g d hd => ?_, fun j hj => ?_⟩ <;> dsimp only at *
    · obtain ⟨hg, hd⟩ := files_update_none hd
      exact (h.nodup.mem_erase_iff).2 ⟨hne g d hg hd, h.file_bound g d hd⟩
    · obtain ⟨hg, hd⟩ := files_update_none hd
      rw [Function.update_noteq (hne g d hg hd)]
      exact h.file_hcd g d hd
    · obtain ⟨hj, hj'⟩ := (h.nodup.mem_erase_iff).1 hj
      rw [Function.update_noteq hj]
      exact h.hcd_reachable j hj'
  · exact h.clearFile f

theorem hcd (h : HostInv H) {i : Nat} {s s' : Sys} {l : Label} (hs : H.hcds i = some s)
    (hst : Step s l s') : HostInv { H with hcds := Function.update H.hcds i (some s') } := by
  refine ⟨h.nodup, h.lt, h.file_bound, h.file_inj, fun f c hc => ?_, fun j hj => ?_⟩
  · obtain ⟨t, ht, hr⟩ := h.file_hcd f c hc
    by_cases hj : c.pdev = i
    · subst hj
      rw [hs] at ht
      cases ht
      exact ⟨s', Function.update_same _ _ _, hr.step hst⟩
    · exact ⟨t, (Function.update_noteq hj _ _).trans ht, hr⟩
  · obtain ⟨conf, t, ht, hr⟩ := h.hcd_reachable j hj
    by_cases hji : j = i
    · subst hji
      rw [hs] at ht
      cases ht
      exact ⟨conf, s', Function.update_same _ _ _, hr.step hst⟩
    · exact ⟨conf, t, (Function.update_noteq hji _ _).trans ht, hr⟩

end HostInv

/-- Every step keeps the invariant. -/
theorem HostStep.hostInv {H H' : Host} {l : HostLabel} (hs : HostStep H l H') (h : HostInv H) :
    HostInv H' := by
  cases hs with
  | registerRefused => exact h
  | registerChecked => exact h.pending _
  | register k env hk hr => exact (h.pending _).register hr
  | release f => exact h.release f
  | hcd i hi hs hst => exact h.hcd hs hst

theorem hostInv_of_reachable {H : Host} (h : HostReachable H) : HostInv H := by
  induction h with
  | init => exact HostInv.init
  | step _ hs ih => exact hs.hostInv ih

/-- In every state the driver reaches, whatever the order of `REGISTER` calls, closes and
controller calls: the bound devices have distinct ids below `10000`; a registered file names a
bound device, which runs a controller reached from `vhci_start` with the file's port count; no
two files name the same device; and every bound device runs a controller some run from
`vhci_start` reaches. -/
theorem devices_of_reachable {H : Host} (h : HostReachable H) :
    H.devices.Nodup ∧ (∀ i ∈ H.devices, i < 10000) ∧
    (∀ f c, H.files f = some c →
      c.pdev ∈ H.devices ∧ ∃ s, H.hcds c.pdev = some s ∧ Reachable c.conf s) ∧
    (∀ f g c d, H.files f = some c → H.files g = some d → c.pdev = d.pdev → f = g) ∧
    (∀ i ∈ H.devices, ∃ conf s, H.hcds i = some s ∧ Reachable conf s) :=
  let hi := hostInv_of_reachable h
  ⟨hi.nodup, hi.lt, fun f c hc => ⟨hi.file_bound f c hc, hi.file_hcd f c hc⟩, hi.file_inj,
    hi.hcd_reachable⟩

/-- File `0` registered a one-port controller as device `0`. -/
theorem devices_of_reachable_oneFile :
    let H : Host := ⟨Function.update (fun _ => none) 0 (some ⟨0, ⟨1, by decide⟩⟩), [0],
      Function.update (fun _ => none) 0 (some (Sys.init ⟨1, by decide⟩)), []⟩
    HostReachable H ∧
    (H.devices.Nodup ∧ (∀ i ∈ H.devices, i < 10000) ∧
      (∀ f c, H.files f = some c →
        c.pdev ∈ H.devices ∧ ∃ s, H.hcds c.pdev = some s ∧ Reachable c.conf s) ∧
      (∀ f g c d, H.files f = some c → H.files g = some d → c.pdev = d.pdev → f = g) ∧
      (∀ i ∈ H.devices, ∃ conf s, H.hcds i = some s ∧ Reachable conf s)) :=
  have hr : HostReachable ⟨Function.update (fun _ => none) 0 (some ⟨0, ⟨1, by decide⟩⟩), [0],
      Function.update (fun _ => none) 0 (some (Sys.init ⟨1, by decide⟩)), []⟩ :=
    (HostReachable.init.step (HostStep.registerChecked 0 ⟨1, by decide⟩ rfl)).step
      (HostStep.register 0 ⟨true, 0, true, 0, true, 1⟩ rfl rfl)
  ⟨hr, devices_of_reachable hr⟩

/-! ## Two registrations of one file -/

/-- A bound device that no file names stays so across a step: `device_release` unregisters only
the device of its own file, and a registration takes a free id. -/
theorem HostStep.orphan {H H' : Host} {l : HostLabel} {i : Nat} (hs : HostStep H l H')
    (h : HostInv H) (hi : i ∈ H.devices) (ho : H.Orphan i) : i ∈ H'.devices ∧ H'.Orphan i := by
  cases hs with
  | registerRefused => exact ⟨hi, ho⟩
  | registerChecked => exact ⟨hi, ho⟩
  | @register _ f _ _ _ k env hk hr =>
    rcases iocRegisterLocked_cases hr with ⟨rfl, -⟩ | ⟨rfl, -⟩ | ⟨hlt, -, -, rfl⟩
    · exact ⟨hi, ho⟩
    · exact ⟨hi, fun g c hc => ho g c (files_update_none hc).2⟩
    · have hj : searchFreeId H.devices 0 10000 ≠ i := fun he =>
        (searchFreeId_least H.devices).1 hlt (he ▸ hi)
      refine ⟨List.mem_append_left _ hi, fun g c hc => ?_⟩
      dsimp only at hc
      by_cases hg : g = f
      · subst hg
        rw [Function.update_same, Option.some.injEq] at hc
        exact hc ▸ hj
      · rw [Function.update_noteq hg] at hc
        exact ho g c hc
  | release f =>
    unfold deviceRelease
    split
    · rename_i c hc
      exact ⟨(h.nodup.mem_erase_iff).2 ⟨(ho f c hc).symm, hi⟩,
        fun g d hd => ho g d (files_update_none hd).2⟩
    · exact ⟨hi, fun g d hd => ho g d (files_update_none hd).2⟩
  | hcd => exact ⟨hi, ho⟩

/-- A `REGISTER` call that succeeds on a file that already has a device (it passed the check of
`file->private_data` before the earlier call stored into it) leaves the earlier device bound
with no file naming it, and it stays so in every state the driver goes on to reach: nothing
unregisters it and its id is never handed out again. -/
theorem register_race_orphans {H H₁ H₂ : Host} {f i : Nat} {b : Int} {c : FileConf}
    (h : HostReachable H) (hf : H.files f = some c)
    (hs : HostStep H (.register f 0 (some (i, b))) H₁)
    (hr : Relation.ReflTransGen (fun H H' => ∃ l, HostStep H l H') H₁ H₂) :
    c.pdev ∈ H₂.devices ∧ H₂.Orphan c.pdev := by
  have hinv := hostInv_of_reachable h
  have hc := hinv.file_bound f c hf
  have h₁ : c.pdev ∈ H₁.devices ∧ H₁.Orphan c.pdev := by
    cases hs with
    | register k env hk hreg =>
      rcases iocRegisterLocked_cases hreg with ⟨-, ⟨⟩, -⟩ | ⟨-, ⟨⟩, -⟩ | ⟨hlt, -, -, rfl⟩
      have hj : searchFreeId H.devices 0 10000 ≠ c.pdev := fun he =>
        (searchFreeId_least H.devices).1 hlt (he ▸ hc)
      refine ⟨List.mem_append_left _ hc, fun g d hd => ?_⟩
      dsimp only at hd
      by_cases hg : g = f
      · subst hg
        rw [Function.update_same, Option.some.injEq] at hd
        exact hd ▸ hj
      · rw [Function.update_noteq hg] at hd
        exact fun he => hg (hinv.file_inj g f d c hd hf he)
  have hrun : HostInv H₂ ∧ c.pdev ∈ H₂.devices ∧ H₂.Orphan c.pdev := by
    induction hr with
    | refl => exact ⟨hs.hostInv hinv, h₁⟩
    | tail _ hst ih =>
      obtain ⟨l, hst⟩ := hst
      exact ⟨hst.hostInv ih.1, hst.orphan ih.1 ih.2.1 ih.2.2⟩
  exact hrun.2

/-- Two `REGISTER` calls on file `0` both pass the check before either takes `dev_enum_lock`:
the first registers device `0`, the second device `1`, and device `0` is left to no file. -/
theorem register_race_orphans_twoCalls :
    let conf : VhciConf := ⟨1, by decide⟩
    let H : Host := ⟨Function.update (fun _ => none) 0 (some ⟨0, conf⟩), [0],
      Function.update (fun _ => none) 0 (some (Sys.init conf)), [(0, conf)]⟩
    let H₁ : Host := ⟨Function.update H.files 0 (some ⟨1, conf⟩), [0, 1],
      Function.update H.hcds 1 (some (Sys.init conf)), []⟩
    HostReachable H ∧ H.files 0 = some ⟨0, conf⟩ ∧
      HostStep H (.register 0 0 (some (1, 1))) H₁ ∧
      Relation.ReflTransGen (fun H H' => ∃ l, HostStep H l H') H₁ H₁ ∧
      (0 ∈ H₁.devices ∧ H₁.Orphan 0) :=
  have h₀ : HostReachable ⟨fun _ => none, [], fun _ => none,
      [(0, ⟨1, by decide⟩), (0, ⟨1, by decide⟩)]⟩ :=
    (HostReachable.init.step (HostStep.registerChecked 0 ⟨1, by decide⟩ rfl)).step
      (HostStep.registerChecked 0 ⟨1, by decide⟩ rfl)
  have hr : HostReachable ⟨Function.update (fun _ => none) 0 (some ⟨0, ⟨1, by decide⟩⟩), [0],
      Function.update (fun _ => none) 0 (some (Sys.init ⟨1, by decide⟩)), [(0, ⟨1, by decide⟩)]⟩ :=
    h₀.step (HostStep.register 0 ⟨true, 0, true, 0, true, 1⟩ rfl rfl)
  have hs : HostStep ⟨Function.update (fun _ => none) 0 (some ⟨0, ⟨1, by decide⟩⟩), [0],
      Function.update (fun _ => none) 0 (some (Sys.init ⟨1, by decide⟩)), [(0, ⟨1, by decide⟩)]⟩
      (.register 0 0 (some (1, 1)))
      ⟨Function.update (Function.update (fun _ => none) 0 (some ⟨0, ⟨1, by decide⟩⟩)) 0
        (some ⟨1, ⟨1, by decide⟩⟩), [0, 1],
        Function.update (Function.update (fun _ => none) 0 (some (Sys.init ⟨1, by decide⟩))) 1
          (some (Sys.init ⟨1, by decide⟩)), []⟩ :=
    HostStep.register 0 ⟨true, 0, true, 0, true, 1⟩ rfl rfl
  ⟨hr, rfl, hs, .refl, @register_race_orphans _ _ _ 0 1 1 ⟨0, ⟨1, by decide⟩⟩ hr rfl hs .refl⟩

end VhciHcd
