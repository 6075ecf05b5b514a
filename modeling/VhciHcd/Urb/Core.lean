import VhciHcd.State

/-!
# Submission, unlinking and give-back

`Sys` is the driver's `struct vhci` together with the usb core's urbs, addressed by pointer, and
the calls that are parked between two critical sections of one call (see `VhciHcd.System`).
Every driver function below is one critical section of `vhc->lock`, from `spin_lock_irqsave` to
the matching unlock, or to the unlock inside `vhci_urb_giveback`; a section that gives an urb
back ends there and reports the `usb_hcd_giveback_urb(urb, status)` call it leads to as a
`Giveback`.

The three functions of the usb core the driver calls are modelled from their kernel code:
`usb_hcd_link_urb_to_ep` with its verdict as an input (it fails on a rejected urb, a disabled
endpoint, a device that cannot submit or a halted controller, all state of the core),
`usb_hcd_check_unlink_urb` and `usb_hcd_unlink_urb_from_ep`.
-/

namespace VhciHcd

/-- The driver, the usb core's urbs, and the parked calls: `ioc_fetch_work` calls that gave an
invalid urb back and will take the lock again at `repeat:`, and the loops of
`vhci_hcd_remove` that are still to run when it is parked in one of them. -/
structure Sys where
  vhc : Vhci
  urbs : Nat → Urb
  fetchers : Nat
  remover : Option (List UrbpList)

/-- What `vhci_urb_giveback` passes to `usb_hcd_giveback_urb` after dropping the lock. -/
structure Giveback where
  urb : Nat
  status : Int
deriving DecidableEq, Repr

namespace Sys

/-- Rewrite the urb at address `u`. -/
def updUrb (s : Sys) (u : Nat) (f : Urb → Urb) : Sys :=
  { s with urbs := Function.update s.urbs u (f (s.urbs u)) }

@[simp] theorem updUrb_vhc (s : Sys) (u : Nat) (f : Urb → Urb) : (s.updUrb u f).vhc = s.vhc := rfl
@[simp] theorem updUrb_fetchers (s : Sys) (u : Nat) (f : Urb → Urb) :
    (s.updUrb u f).fetchers = s.fetchers := rfl
@[simp] theorem updUrb_remover (s : Sys) (u : Nat) (f : Urb → Urb) :
    (s.updUrb u f).remover = s.remover := rfl

theorem updUrb_urbs (s : Sys) (u : Nat) (f : Urb → Urb) (u' : Nat) :
    (s.updUrb u f).urbs u' = if u' = u then f (s.urbs u) else s.urbs u' := by
  simp only [updUrb, Function.update_apply]

theorem updUrb_updUrb (s : Sys) (u : Nat) (f g : Urb → Urb) :
    (s.updUrb u f).updUrb u g = s.updUrb u (g ∘ f) := by
  simp [updUrb]

end Sys

/-- `usb_submit_urb` as far as this driver sees it: the owner's request `r` is stored at `u`,
the core's bookkeeping of the urb is kept, and `actual_length` starts at `0`. -/
def usbSubmitUrb (old r : Urb) : Urb :=
  { r with hcpriv := old.hcpriv, linked := old.linked, unlinked := old.unlinked, actualLength := 0 }

/-- `usb_hcd_link_urb_to_ep`, with the core's verdict `ret`. -/
def usbHcdLinkUrbToEp (s : Sys) (u : Nat) (ret : Int) : Except Int Sys :=
  if ret ≠ 0 then .error ret
  else .ok (s.updUrb u fun urb => { urb with linked := true, unlinked := 0 })

/-- `usb_hcd_check_unlink_urb`: the urb must still be queued and not already unlinked. -/
def usbHcdCheckUnlinkUrb (s : Sys) (u : Nat) (status : Int) : Except Int Sys :=
  if !(s.urbs u).linked then .error (-EIDRM)
  else if (s.urbs u).unlinked ≠ 0 then .error (-EBUSY)
  else .ok (s.updUrb u fun urb => { urb with unlinked := status })

theorem usbHcdLinkUrbToEp_ok {s s₁ : Sys} {u : Nat} {ret : Int} :
    usbHcdLinkUrbToEp s u ret = .ok s₁ ↔
      ret = 0 ∧ s₁ = s.updUrb u fun urb => { urb with linked := true, unlinked := 0 } := by
  by_cases h : ret = 0 <;> simp [usbHcdLinkUrbToEp, h, eq_comm]

theorem usbHcdCheckUnlinkUrb_ok {s s₁ : Sys} {u : Nat} {status : Int} :
    usbHcdCheckUnlinkUrb s u status = .ok s₁ ↔ (s.urbs u).linked ∧ (s.urbs u).unlinked = 0 ∧
      s₁ = s.updUrb u fun urb => { urb with unlinked := status } := by
  by_cases h1 : (s.urbs u).linked <;> by_cases h2 : (s.urbs u).unlinked = 0 <;>
    simp [usbHcdCheckUnlinkUrb, h1, h2, eq_comm]

/-- `maybe_set_status` of the default build: `atomic_cmpxchg(&urbp->status, -EINPROGRESS, s)`. -/
def maybeSetStatus (e : VhciUrbPriv) (status : Int) : VhciUrbPriv :=
  if e.status = -EINPROGRESS then { e with status := status } else e

/-- `vhci_urb_giveback`, up to the unlock: read the status, clear `hcpriv`, `list_del`, and
`usb_hcd_unlink_urb_from_ep`. -/
def vhciUrbGiveback (s : Sys) (e : VhciUrbPriv) : Sys × Giveback :=
  ({ s.updUrb e.urb (fun urb => { urb with hcpriv := none, linked := false }) with
      vhc := s.vhc.listDel e.addr }, ⟨e.urb, e.status⟩)

@[simp] theorem maybeSetStatus_urb (e : VhciUrbPriv) (status : Int) :
    (maybeSetStatus e status).urb = e.urb := by
  unfold maybeSetStatus; split_ifs <;> rfl

@[simp] theorem maybeSetStatus_addr (e : VhciUrbPriv) (status : Int) :
    (maybeSetStatus e status).addr = e.addr := by
  unfold maybeSetStatus; split_ifs <;> rfl

@[simp] theorem vhciUrbGiveback_vhc (s : Sys) (e : VhciUrbPriv) :
    (vhciUrbGiveback s e).1.vhc = s.vhc.listDel e.addr := rfl
@[simp] theorem vhciUrbGiveback_urbs (s : Sys) (e : VhciUrbPriv) :
    (vhciUrbGiveback s e).1.urbs =
      Function.update s.urbs e.urb { s.urbs e.urb with hcpriv := none, linked := false } := rfl
@[simp] theorem vhciUrbGiveback_fetchers (s : Sys) (e : VhciUrbPriv) :
    (vhciUrbGiveback s e).1.fetchers = s.fetchers := rfl
@[simp] theorem vhciUrbGiveback_remover (s : Sys) (e : VhciUrbPriv) :
    (vhciUrbGiveback s e).1.remover = s.remover := rfl
@[simp] theorem vhciUrbGiveback_snd (s : Sys) (e : VhciUrbPriv) :
    (vhciUrbGiveback s e).2 = ⟨e.urb, e.status⟩ := rfl

@[simp] theorem vhciUrbGiveback_maybeSetStatus (s : Sys) (e : VhciUrbPriv) (status : Int) :
    (vhciUrbGiveback s (maybeSetStatus e status)).1 = (vhciUrbGiveback s e).1 := by
  unfold maybeSetStatus; split_ifs <;> rfl

theorem maybeSetStatus_of_ne {e : VhciUrbPriv} (h : e.status ≠ -EINPROGRESS) (status : Int) :
    maybeSetStatus e status = e := by
  simp [maybeSetStatus, h]

/-- `vhci_urb_enqueue` for the urb at `u`. `alloc` is what `kzalloc` returned (`none` for
`NULL`); the new `vhci_urb_priv` is zeroed, so its `status` is `0`. -/
def vhciUrbEnqueue (s : Sys) (u : Nat) (alloc : Option Nat) (linkRet : Int) : Sys × Int :=
  if (s.urbs u).transferBuffer = 0 ∧ (s.urbs u).transferBufferLength ≠ 0 then (s, -EINVAL)
  else
    match alloc with
    | none => (s, -ENOMEM)
    | some addr =>
      match usbHcdLinkUrbToEp s u linkRet with
      | .error r => (s, r)
      | .ok s =>
        ({ s.updUrb u (fun urb => { urb with hcpriv := some addr }) with
            vhc := s.vhc.listAddTail ⟨u, addr, 0⟩ .inbox }, 0)

/-- `vhci_urb_dequeue` for the urb at `u` and the unlink status the core passes. -/
def vhciUrbDequeue (s : Sys) (u : Nat) (status : Int) : Sys × Int × Option Giveback :=
  match usbHcdCheckUnlinkUrb s u status with
  | .error r => (s, r, none)
  | .ok s =>
    match s.vhc.findUrb .inbox u with
    | some e => let r := vhciUrbGiveback s e; (r.1, 0, some r.2)
    | none =>
      match s.vhc.findUrb .fetched u with
      | some e => ({ s with vhc := s.vhc.listMoveTail e .cancel }, 0, none)
      | none => (s, 0, none)

/-- What `vhci_urb_enqueue` can do: fail with the state unchanged and a non-zero return, or link
the urb and queue a zeroed entry for it, at a fresh address, at the tail of the inbox. -/
theorem vhciUrbEnqueue_cases {s s' : Sys} {u : Nat} {alloc : Option Nat} {linkRet r : Int}
    (h : vhciUrbEnqueue s u alloc linkRet = (s', r)) :
    (s' = s ∧ r ≠ 0) ∨
    ∃ addr, alloc = some addr ∧ r = 0 ∧
      ¬((s.urbs u).transferBuffer = 0 ∧ (s.urbs u).transferBufferLength ≠ 0) ∧
      s' = { s.updUrb u (fun urb => { urb with linked := true, unlinked := 0, hcpriv := some addr })
        with vhc := s.vhc.listAddTail ⟨u, addr, 0⟩ .inbox } := by
  unfold vhciUrbEnqueue at h
  split_ifs at h with hb
  · cases h
    exact .inl ⟨rfl, by decide⟩
  · split at h
    · cases h
      exact .inl ⟨rfl, by decide⟩
    · rename_i addr
      split at h <;> rename_i hl <;> cases h
      · refine .inl ⟨rfl, fun h0 => ?_⟩
        unfold usbHcdLinkUrbToEp at hl
        split_ifs at hl
        simp_all
      · obtain ⟨-, rfl⟩ := usbHcdLinkUrbToEp_ok.1 hl
        exact .inr ⟨addr, rfl, rfl, hb, by simp [Sys.updUrb_updUrb]; rfl⟩

theorem vhciUrbEnqueue_hub {s s' : Sys} {u : Nat} {alloc : Option Nat} {linkRet r : Int}
    (h : vhciUrbEnqueue s u alloc linkRet = (s', r)) : s'.vhc.hub = s.vhc.hub := by
  rcases vhciUrbEnqueue_cases h with ⟨rfl, -⟩ | ⟨addr, -, -, -, rfl⟩ <;> simp

/-- What `vhci_urb_dequeue` can do: fail in `usb_hcd_check_unlink_urb` with the state unchanged,
or record the unlink and then give the urb back from the inbox, move it from `fetched` to
`cancel`, or leave the lists as they are. -/
theorem vhciUrbDequeue_cases {s s' : Sys} {u : Nat} {status r : Int} {g : Option Giveback}
    (h : vhciUrbDequeue s u status = (s', r, g)) :
    (s' = s ∧ r ≠ 0 ∧ g = none) ∨
    ∃ s₁, usbHcdCheckUnlinkUrb s u status = .ok s₁ ∧ r = 0 ∧
      ((∃ e, s₁.vhc.findUrb .inbox u = some e ∧ s' = (vhciUrbGiveback s₁ e).1 ∧
          g = some (vhciUrbGiveback s₁ e).2) ∨
        (s₁.vhc.findUrb .inbox u = none ∧ ∃ e, s₁.vhc.findUrb .fetched u = some e ∧
          s' = { s₁ with vhc := s₁.vhc.listMoveTail e .cancel } ∧ g = none) ∨
        (s₁.vhc.findUrb .inbox u = none ∧ s₁.vhc.findUrb .fetched u = none ∧ s' = s₁ ∧ g = none)) := by
  unfold vhciUrbDequeue at h
  split at h <;> rename_i hc
  · cases h
    refine .inl ⟨rfl, ?_, rfl⟩
    unfold usbHcdCheckUnlinkUrb at hc
    split_ifs at hc <;> cases hc <;> decide
  · refine .inr ⟨_, hc, ?_⟩
    split at h <;> rename_i hi
    · cases h; exact ⟨rfl, .inl ⟨_, hi, rfl, rfl⟩⟩
    · split at h <;> rename_i hf <;> cases h
      · exact ⟨rfl, .inr (.inl ⟨hi, _, hf, rfl, rfl⟩)⟩
      · exact ⟨rfl, .inr (.inr ⟨hi, hf, rfl, rfl⟩)⟩

theorem vhciUrbDequeue_hub {s s' : Sys} {u : Nat} {status r : Int} {g : Option Giveback}
    (h : vhciUrbDequeue s u status = (s', r, g)) : s'.vhc.hub = s.vhc.hub := by
  rcases vhciUrbDequeue_cases h with ⟨rfl, -⟩ | ⟨s₁, hc, -, h⟩
  · rfl
  · obtain ⟨-, -, rfl⟩ := usbHcdCheckUnlinkUrb_ok.1 hc
    rcases h with ⟨e, -, rfl, -⟩ | ⟨-, e, -, rfl, -⟩ | ⟨-, -, rfl, -⟩ <;> simp

/-- The order in which `vhci_hcd_remove` drains the lists. -/
def removeOrder : List UrbpList := [.inbox, .fetched, .cancel, .canceling]

/-- One critical section of the loops of `vhci_hcd_remove`, entered with the loops `ks` still
to run: the head of the first non-empty list is given back with `-ESHUTDOWN`, and the call is
parked in that loop; `none` when every list left is empty. -/
def hcdRemoveStep (s : Sys) : List UrbpList → Option (List UrbpList × Sys × Giveback)
  | [] => none
  | k :: ks =>
    match s.vhc.urbpList k with
    | e :: _ => some (k :: ks, vhciUrbGiveback s (maybeSetStatus e (-ESHUTDOWN)))
    | [] => hcdRemoveStep s ks

/-- A section of `vhci_hcd_remove` gives back the head of one of the lists. -/
theorem hcdRemoveStep_some {s s' : Sys} {ks ks' : List UrbpList} {g : Giveback}
    (h : hcdRemoveStep s ks = some (ks', s', g)) :
    ∃ k e, e ∈ s.vhc.urbpList k ∧ s' = (vhciUrbGiveback s (maybeSetStatus e (-ESHUTDOWN))).1 ∧
      g = (vhciUrbGiveback s (maybeSetStatus e (-ESHUTDOWN))).2 := by
  induction ks with
  | nil => cases h
  | cons k ks ih =>
    unfold hcdRemoveStep at h
    split at h
    · rename_i e rest hk
      cases h
      exact ⟨k, e, hk ▸ List.mem_cons_self e rest, rfl, rfl⟩
    · exact ih h

theorem hcdRemoveStep_hub {s s' : Sys} {ks ks' : List UrbpList} {g : Giveback}
    (h : hcdRemoveStep s ks = some (ks', s', g)) : s'.vhc.hub = s.vhc.hub := by
  obtain ⟨k, e, -, rfl, -⟩ := hcdRemoveStep_some h
  simp

end VhciHcd
