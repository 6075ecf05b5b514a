import VhciHcd.Run.PortUpdate

/-!
# Waking the worker

`ioc_fetch_work` sleeps until `has_work` holds and then takes `vhc->lock`. In every reachable
state the condition is exact for the section that follows: when `has_work` holds, the section
hands out a unit or gives an invalid urb back, and when it does not, the section finds nothing,
changes nothing and returns `-ENODATA` (`hasWork_exact`). The port half of this rests on
`port_update` naming only ports of the controller (`UpdateInv`).
-/

namespace VhciHcd

variable {s : Sys}

/-- With `urbp_list_cancel` empty and `port_update` zero, the first section of `ioc_fetch_work`
is a pass through `repeat:`. -/
theorem iocFetchWorkLocked_of_portUpdate (hc : s.vhc.urbpList .cancel = [])
    (hu : s.vhc.portUpdate = 0) : iocFetchWorkLocked s = fetchWorkRepeat s := by
  unfold iocFetchWorkLocked fetchWorkPorts
  rw [show s.vhc.urbpListCancel = [] from hc, if_pos hu]

/-- A pass through `repeat:` over a non-empty inbox hands its head to the worker or gives it
back. -/
theorem fetchWorkRepeat_progress (h : s.vhc.urbpList .inbox ≠ []) :
    (∃ w, (fetchWorkRepeat s).2 = .done 0 (some w)) ∨ ∃ g, (fetchWorkRepeat s).2 = .rejected g := by
  have he : fetchWorkRepeat s = ((fetchWorkRepeat s).1, (fetchWorkRepeat s).2) := rfl
  rcases fetchWorkRepeat_cases he with ⟨hi, -⟩ | ⟨e, rest, -, ⟨len, -, -, ho⟩ | ⟨-, -, ho⟩⟩
  exacts [absurd hi h, .inl ⟨_, ho⟩, .inr ⟨_, ho⟩]

/-- `has_work` is exact in every reachable state: when it holds, the section `ioc_fetch_work`
runs under the lock hands out a unit of work or gives an invalid urb back; when it does not, the
section returns `-ENODATA` and leaves the state as it was. -/
theorem hasWork_exact {conf : VhciConf} {ts : List (Sys × Label × Sys)}
    (hr : Run (Sys.init conf) ts s) :
    (hasWork s.vhc = true → (∃ w, (iocFetchWorkLocked s).2 = .done 0 (some w)) ∨
      ∃ g, (iocFetchWorkLocked s).2 = .rejected g) ∧
    (hasWork s.vhc = false → iocFetchWorkLocked s = (s, .done (-ENODATA) none)) := by
  refine ⟨fun hw => ?_, fun hw => ?_⟩
  · cases hc : s.vhc.urbpList .cancel with
    | cons e rest =>
      refine .inl ⟨.cancelUrb e.urb, ?_⟩
      unfold iocFetchWorkLocked
      rw [show s.vhc.urbpListCancel = e :: rest from hc]
    | nil =>
      by_cases hu : s.vhc.portUpdate = 0
      · have hi : s.vhc.urbpList .inbox ≠ [] := fun hi => by
          simp [hasWork, hu, show s.vhc.urbpListCancel = [] from hc,
            show s.vhc.urbpListInbox = [] from hi] at hw
        rw [iocFetchWorkLocked_of_portUpdate hc hu]
        exact fetchWorkRepeat_progress hi
      · obtain ⟨p, -, -, -, h⟩ := (UpdateInv.of_run hr).iocFetchWorkLocked hc hu
        exact .inl ⟨_, by rw [h]⟩
  · have h : s.vhc.portUpdate = 0 ∧ s.vhc.urbpListCancel = [] ∧ s.vhc.urbpListInbox = [] := by
      simpa [hasWork, and_assoc] using hw
    rw [iocFetchWorkLocked_of_portUpdate h.2.1 h.1]
    unfold fetchWorkRepeat
    rw [h.2.2]

/-- One urb submitted and not fetched yet: the worker is woken, and the section gives it the
urb. -/
theorem hasWork_exact_enqueued :
    let s₀ : Sys := Sys.init ⟨1, by decide⟩
    let s₁ : Sys := (vhciUrbEnqueue (s₀.updUrb 5 (usbSubmitUrb ·
      { (default : Urb) with pipe := ⟨.bulk, false, 1, 1⟩ })) 5 (some 100) 0).1
    Run s₀ [(s₀, .urbEnqueue 5 0, s₁)] s₁ ∧ hasWork s₁.vhc = true ∧
    ((hasWork s₁.vhc = true → (∃ w, (iocFetchWorkLocked s₁).2 = .done 0 (some w)) ∨
      ∃ g, (iocFetchWorkLocked s₁).2 = .rejected g) ∧
    (hasWork s₁.vhc = false → iocFetchWorkLocked s₁ = (s₁, .done (-ENODATA) none))) :=
  have hr : Run (Sys.init ⟨1, by decide⟩) _ _ := (Run.nil _).snoc
    (Step.urbEnqueue_init 5 { (default : Urb) with pipe := ⟨.bulk, false, 1, 1⟩ } 100 0 (by decide))
  ⟨hr, rfl, hasWork_exact hr⟩

end VhciHcd
