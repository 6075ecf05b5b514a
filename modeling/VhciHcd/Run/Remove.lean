import VhciHcd.Run.Registry

/-!
# Shutdown

`vhci_hcd_remove` runs four loops, over the inbox, `fetched`, `cancel` and `canceling`, and each
pass gives the head of its list back, dropping the lock in `vhci_urb_giveback`. When no other
call runs in between, the passes give back the entries of `allUrbps` in that order, each once,
and the call ends with the four lists empty (`hcdRemove_drain`). Each urb goes back with the
status `0` its entry has held since `kzalloc`: the `maybe_set_status(urbp, -ESHUTDOWN)` before
each give-back changes nothing (`hcdRemove_status_zero`).
-/

namespace VhciHcd

/-- A step followed by a run is a run. -/
theorem Run.cons {s t u : Sys} {l : Label} {ts : List (Sys × Label × Sys)} (hs : Step s l t)
    (hr : Run t ts u) : Run s ((s, l, t) :: ts) u := by
  induction hr with
  | nil => exact (Run.nil s).snoc hs
  | snoc _ hst ih => exact ih.snoc hst

/-- The loops `ks` still to run find nothing exactly when their lists are empty. -/
theorem hcdRemoveStep_eq_none (s : Sys) (ks : List UrbpList) :
    hcdRemoveStep s ks = none ↔ (ks.map s.vhc.urbpList).flatten = [] := by
  induction ks with
  | nil => simp [hcdRemoveStep]
  | cons k ks ih =>
    unfold hcdRemoveStep
    cases hk : s.vhc.urbpList k <;> simp [hk, ih]

/-- A pass gives back the first entry of the lists still to drain, and stays in its loop. -/
theorem hcdRemoveStep_of_join {s : Sys} {e : VhciUrbPriv} {rest : List VhciUrbPriv} :
    ∀ {ks : List UrbpList}, (ks.map s.vhc.urbpList).flatten = e :: rest →
      ∃ ks', hcdRemoveStep s ks = some (ks', vhciUrbGiveback s (maybeSetStatus e (-ESHUTDOWN))) ∧
        (ks'.map s.vhc.urbpList).flatten = e :: rest
  | [], h => nomatch h
  | k :: ks, h => by
    unfold hcdRemoveStep
    cases hk : s.vhc.urbpList k with
    | nil =>
      simp only [List.map_cons, List.flatten_cons, hk, List.nil_append] at h
      exact hcdRemoveStep_of_join h
    | cons e' rest' =>
      simp only [List.map_cons, List.flatten_cons, hk, List.cons_append, List.cons.injEq] at h
      obtain ⟨rfl, hrest⟩ := h
      refine ⟨k :: ks, rfl, ?_⟩
      simp only [List.map_cons, List.flatten_cons, hk, List.cons_append, hrest]

/-- The drain of `vhci_hcd_remove`, from a state with the registry invariant in which the loops
`ks` are still to run and hold every entry left: when no other call runs in between, its passes
give back every entry of the four lists, in the order of `allUrbps`, each once and with status
`0`, and the call ends with the four lists empty. -/
theorem hcdRemove_drain {s : Sys} {ks : List UrbpList} (h : RegistryInv s)
    (hks : s.remover = some ks ∨ (s.remover = none ∧ ks = removeOrder))
    (hall : (ks.map s.vhc.urbpList).flatten = s.vhc.allUrbps) :
    ∃ ts s', Run s ts s' ∧
      ts.map (·.2.1) = s.vhc.allUrbps.map (fun e => .hcdRemove (some ⟨e.urb, 0⟩)) ++
        [.hcdRemove none] ∧
      (∀ k, s'.vhc.urbpList k = []) ∧ s'.remover = none := by
  generalize hl : s.vhc.allUrbps = l at hall
  induction l generalizing s ks with
  | nil =>
    have hs := Step.hcdRemoveDone hks ((hcdRemoveStep_eq_none s ks).2 hall)
    refine ⟨_, _, (Run.nil s).snoc hs, rfl, fun k => ?_, rfl⟩
    exact List.eq_nil_of_sublist_nil (hl ▸ Vhci.urbpList_sublist_allUrbps s.vhc k)
  | cons e rest ih =>
    obtain ⟨ks', hr, hall'⟩ := hcdRemoveStep_of_join hall
    have he : e ∈ s.vhc.allUrbps := hl ▸ List.mem_cons_self e rest
    have hs := Step.hcdRemove hks hr
    have hrest : (s.vhc.listDel e.addr).allUrbps = rest := by
      rw [Vhci.allUrbps_listDel, filter_addr_eq_erase h.nodup_addr he, hl, List.erase_cons_head]
    have hall'' : (ks'.map (s.vhc.listDel e.addr).urbpList).flatten = rest := by
      have hmap : ks'.map (s.vhc.listDel e.addr).urbpList =
          (ks'.map s.vhc.urbpList).map (List.filter (·.addr != e.addr)) := by
        simp [Function.comp_def]
      rw [hmap, ← List.filter_flatten, hall', ← hl, ← Vhci.allUrbps_listDel, hrest]
    obtain ⟨ts, s', hrun, hlab, hempty, hrem⟩ :=
      ih (hs.registryInv h) (.inl rfl) (by simpa using hrest) (by simpa using hall'')
    refine ⟨_, s', hrun.cons hs, ?_, hempty, hrem⟩
    simp only [List.map_cons, hlab, hl, List.map_cons, List.cons_append, vhciUrbGiveback_snd,
      maybeSetStatus_urb, h.maybeSetStatus_status he]

/-- The four loops, in the order `vhci_hcd_remove` runs them, hold the entries of `allUrbps`. -/
theorem removeOrder_flatten (v : Vhci) : (removeOrder.map v.urbpList).flatten = v.allUrbps := by
  simp [removeOrder, Vhci.allUrbps_eq]

/-- `vhci_hcd_remove` from its start, in any state with the registry invariant. -/
theorem hcdRemove_drain_start {s : Sys} (h : RegistryInv s) (hn : s.remover = none) :
    ∃ ts s', Run s ts s' ∧
      ts.map (·.2.1) = s.vhc.allUrbps.map (fun e => .hcdRemove (some ⟨e.urb, 0⟩)) ++
        [.hcdRemove none] ∧
      (∀ k, s'.vhc.urbpList k = []) ∧ s'.remover = none :=
  hcdRemove_drain h (.inr ⟨hn, rfl⟩) (removeOrder_flatten s.vhc)

/-- One urb is queued and the controller is removed: `vhci_hcd_remove` gives it back once and
ends with the lists empty, but `maybe_set_status(urbp, -ESHUTDOWN)` leaves the `0` of `kzalloc`,
so the urb goes back with status `0`, and its owner sees a transfer that completed. -/
theorem hcdRemove_status_zero :
    let s₀ : Sys := Sys.init ⟨1, by decide⟩
    let s₁ := (vhciUrbEnqueue (s₀.updUrb 5 (usbSubmitUrb ·
      { (default : Urb) with pipe := ⟨.bulk, false, 1, 1⟩ })) 5 (some 100) 0).1
    let s₂ : Sys := { (vhciUrbGiveback s₁ (maybeSetStatus ⟨5, 100, 0⟩ (-ESHUTDOWN))).1 with
      remover := some removeOrder }
    let s₃ : Sys := { s₂ with remover := none }
    Run s₀ [(s₀, .urbEnqueue 5 0, s₁), (s₁, .hcdRemove (some ⟨5, 0⟩), s₂),
        (s₂, .hcdRemove none, s₃)] s₃ ∧
      (∀ k, s₃.vhc.urbpList k = []) ∧ (0 : Int) ≠ -ESHUTDOWN :=
  ⟨(((Run.nil _).snoc
    (Step.urbEnqueue_init 5 { (default : Urb) with pipe := ⟨.bulk, false, 1, 1⟩ } 100 0 (by decide))).snoc
    (Step.hcdRemove (.inr ⟨by rfl, rfl⟩) (by rfl))).snoc (Step.hcdRemoveDone (.inl (by rfl)) (by rfl)),
    fun k => by cases k <;> rfl, by decide⟩

end VhciHcd
