import VhciHcd.System
import VhciHcd.Hub.Update

/-!
# Priority of the units of work

`ioc_fetch_work` hands out the head of `urbp_list_cancel`, else a port of `port_update`, else the
head of the inbox, and its first section keeps that order (`iocFetchWorkLocked_priority`). An
invalid urb at the head of the inbox is given back through `vhci_urb_giveback`, which drops the
lock; the call takes it again at `repeat:`, and from there it reads the inbox only
(`fetchWorkRepeat_snd_eq`). A cancel request or a port change made while the lock was dropped
then waits behind the next urb of the inbox (`fetchWork_repeat_skips_port`).
-/

namespace VhciHcd

variable {s s' : Sys}

/-- The first section of `ioc_fetch_work` keeps the priority: it hands out an urb of the inbox
only when `urbp_list_cancel` is empty and no port of the controller has its bit in
`port_update`, and it returns `-ENODATA` only when the inbox is empty too. -/
theorem iocFetchWorkLocked_priority {o : FetchWorkOutcome} (h : iocFetchWorkLocked s = (s', o)) :
    (∀ u w, o = .done 0 (some (.processUrb u w)) → s.vhc.urbpList .cancel = [] ∧
      ∀ p, 1 ≤ p → p ≤ s.vhc.portCount → ¬s.vhc.portUpdate.getLsbD p) ∧
    (o = .done (-ENODATA) none → s.vhc.urbpList .cancel = [] ∧
      (∀ p, 1 ≤ p → p ≤ s.vhc.portCount → ¬s.vhc.portUpdate.getLsbD p) ∧
      s.vhc.urbpList .inbox = []) := by
  rcases iocFetchWorkLocked_cases h with ⟨e, rest, -, -, rfl⟩ | ⟨-, w', hw, -, rfl⟩ | ⟨hc, hp, hr⟩
  · exact ⟨fun _ _ ho => (nomatch ho), fun ho => (nomatch ho)⟩
  · obtain ⟨port, rfl⟩ := fetchWorkPorts_snd hw
    exact ⟨fun _ _ ho => (nomatch ho), fun ho => (nomatch ho)⟩
  have hbits : ∀ p, 1 ≤ p → p ≤ s.vhc.portCount → ¬s.vhc.portUpdate.getLsbD p := by
    rcases fetchWorkPorts_cases s.vhc with ⟨-, hnone, -⟩ | ⟨k, -, -, -, -, hsome⟩
    · exact hnone
    · rw [hsome] at hp; cases hp
  refine ⟨fun _ _ _ => ⟨hc, hbits⟩, fun ho => ⟨hc, hbits, ?_⟩⟩
  subst ho
  rcases fetchWorkRepeat_cases hr with ⟨hi, -, -⟩ | ⟨e, rest, -, ⟨len, -, -, ho⟩ | ⟨-, -, ho⟩⟩
  · simpa using hi
  · cases ho
  · cases ho

/-- A pass through `repeat:` reads neither `urbp_list_cancel` nor `port_update`. -/
theorem fetchWorkRepeat_snd_eq (s : Sys) (cancel : List VhciUrbPriv) (pu : BitVec 32) :
    (fetchWorkRepeat { s with vhc := { s.vhc with urbpListCancel := cancel, portUpdate := pu } }).2 =
      (fetchWorkRepeat s).2 := by
  unfold fetchWorkRepeat
  cases hi : s.vhc.urbpListInbox with
  | nil => simp only [hi]
  | cons e rest =>
    cases hc : fetchWorkCheck (s.urbs e.urb) <;> simp only [hc, vhciUrbGiveback_snd]

/-- Two urbs are queued, an invalid one (bulk IN with an empty buffer) and then a valid one.
`ioc_fetch_work` rejects the first and drops the lock in `vhci_urb_giveback`; meanwhile the hub
driver powers port 1, which raises its bit of `port_update`. Back at `repeat:`, the call hands
out `PROCESS_URB` for the second urb while that bit is set, and leaves it set. -/
theorem fetchWork_repeat_skips_port :
    let s₀ : Sys := Sys.init ⟨1, by decide⟩
    let s₁ := (vhciUrbEnqueue (s₀.updUrb 5 (usbSubmitUrb ·
      { (default : Urb) with pipe := ⟨.bulk, true, 1, 1⟩ })) 5 (some 100) 0).1
    let s₂ := (vhciUrbEnqueue (s₁.updUrb 6 (usbSubmitUrb ·
      { (default : Urb) with pipe := ⟨.bulk, false, 1, 1⟩ })) 6 (some 101) 0).1
    let s₃ := ((iocFetchWorkLocked s₂).1).parkFetcher (.rejected ⟨5, 0⟩)
    let c := vhciHubControl true s₃.vhc SetPortFeature USB_PORT_FEAT_POWER 1 (fun _ => 0) 0
      (fun _ => 0)
    let s₄ : Sys := { s₃ with vhc := c.1 }
    ∃ w s₅, Run s₀ [(s₀, .urbEnqueue 5 0, s₁), (s₁, .urbEnqueue 6 0, s₂),
        (s₂, .fetchWork (.rejected ⟨5, 0⟩), s₃),
        (s₃, .hubControl SetPortFeature USB_PORT_FEAT_POWER 1 0 c.2, s₄),
        (s₄, .fetchWorkRepeat (.done 0 (some (.processUrb 6 w))), s₅)] s₅ ∧
      s₄.vhc.portUpdate ≠ 0 ∧ s₅.vhc.portUpdate = s₄.vhc.portUpdate :=
  ⟨_, _, (((((Run.nil _).snoc
    (Step.urbEnqueue_init 5 { (default : Urb) with pipe := ⟨.bulk, true, 1, 1⟩ } 100 0 (by decide))).snoc
    (Step.urbEnqueue 6 { (default : Urb) with pipe := ⟨.bulk, false, 1, 1⟩ } (some 101) 0 (by rfl)
      (by decide) (by decide) rfl (by decide) (by decide) (by decide))).snoc (Step.fetchWork rfl)).snoc
    (Step.hubControl true SetPortFeature USB_PORT_FEAT_POWER 1 0 (fun _ => 0) (fun _ => 0) rfl)).snoc
    (Step.fetchWorkRepeat Nat.one_pos rfl), by decide, rfl⟩

end VhciHcd
