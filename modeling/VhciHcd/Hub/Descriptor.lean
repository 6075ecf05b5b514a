import VhciHcd.Hub.Control

/-!
# The hub descriptor

`hub_descriptor` zeroes the first `USB_DT_HUB_NONVAR_SIZE` bytes of its local `desc`, writes the
two port bitmaps into `buf`, sets the header fields of `desc`, and then copies `l` bytes of
`desc` over `buf`. The copy covers the bitmaps as well, so from byte 7 on `buf` receives whatever
the stack held in `desc`: `hubDescriptor_apply` gives every byte of the result.
-/

namespace VhciHcd

/-- The `l` of `hub_descriptor`: the bytes it writes for a request of `len` bytes. -/
def hubDescriptorLength (portCount len : Nat) : Nat :=
  if len > USB_DT_HUB_NONVAR_SIZE then min len (USB_DT_HUB_NONVAR_SIZE + 2 * (portCount / 8 + 1))
  else len

theorem hubBitmaps_fst (portCount : Nat) (buf : Nat → BitVec 8) (len : Nat) :
    (hubBitmaps portCount buf len).1 = hubDescriptorLength portCount len := by
  unfold hubBitmaps hubDescriptorLength USB_DT_HUB_NONVAR_SIZE
  dsimp only
  split_ifs <;> omega

/-- The bitmaps stay below `l`, where the copy overwrites them. -/
theorem hubBitmaps_snd_of_le {portCount : Nat} {buf : Nat → BitVec 8} {len i : Nat}
    (h : (hubBitmaps portCount buf len).1 ≤ i) : (hubBitmaps portCount buf len).2 i = buf i := by
  unfold hubBitmaps USB_DT_HUB_NONVAR_SIZE at h ⊢
  dsimp only at h ⊢
  split_ifs at h ⊢ <;> simp only [memset] <;> split_ifs <;> first | rfl | omega

/-- Every byte of `buf` after `hub_descriptor`: the header, then `desc` up to `l`, and the old
contents past it. -/
theorem hubDescriptor_apply (v : Vhci) (buf : Nat → BitVec 8) (len : Nat)
    (desc : Nat → BitVec 8) (i : Nat) :
    hubDescriptor v buf len desc i =
      if i < hubDescriptorLength v.portCount len then
        if i = 0 then BitVec.ofNat 8 (hubDescriptorLength v.portCount len)
        else if i = 1 then 0x29
        else if i = 2 then BitVec.ofNat 8 v.portCount
        else if i = 3 then 0x09
        else if i < USB_DT_HUB_NONVAR_SIZE then 0
        else desc i
      else buf i := by
  simp only [hubDescriptor, memcpy, hubBitmaps_fst]
  by_cases hi : i < hubDescriptorLength v.portCount len
  · simp only [hi, if_true, Function.update_apply, memset, USB_DT_HUB_NONVAR_SIZE]
    -- the header bytes 0 to 4 compute; from byte 5 on only the bounds are left
    rcases i with _ | _ | _ | _ | _ | i
    iterate 5 rfl
    simp (disch := omega) only [if_neg, Nat.zero_le, true_and, Nat.zero_add]
  · simp only [hi, if_false]
    exact hubBitmaps_snd_of_le (by rw [hubBitmaps_fst]; omega)

theorem vhciHubControl_getHubDescriptor (v : Vhci) (wValue : Nat) (buf : Nat → BitVec 8)
    (wLength : Nat) (desc : Nat → BitVec 8) :
    vhciHubControl true v GetHubDescriptor wValue 0 buf wLength desc =
      (v, ⟨0, hubDescriptor v buf wLength desc, hasChanges v⟩) := by
  simp [vhciHubControl, hubControlLocked, GetHubDescriptor, ClearHubFeature, SetHubFeature,
    ClearPortFeature]

theorem getHubDescriptor_deviceRemovable :
    (vhciHubControl true (vhciStart ⟨1, by decide⟩) GetHubDescriptor 0 0 (fun _ => 0) 9
      (fun i => if i = 7 then 0xab else 0)).2.buf 7 = 0xab := by
  simp only [vhciHubControl_getHubDescriptor, hubDescriptor_apply]
  decide

end VhciHcd
