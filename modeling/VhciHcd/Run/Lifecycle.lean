import VhciHcd.Run.Registry

/-!
# The lifecycle of an urb

`Vhci.location` says which list holds an urb. `Moves` lists the changes of location the driver
is meant to make, each with the call that makes it: the usb core queues an urb and may dequeue
it, `ioc_fetch_work` hands it to the worker or rejects it and hands out cancel requests, the
worker gives it back under its own handle, and `vhci_hcd_remove` flushes everything. Under the
registry invariant, `Step.moves` shows that a step changes an urb's location only along one of
these moves.
-/

namespace VhciHcd

variable {s s' : Sys}

namespace RegistryInv

theorem eq_of_addr (h : RegistryInv s) {e e' : VhciUrbPriv} (he : e ∈ s.vhc.allUrbps)
    (he' : e' ∈ s.vhc.allUrbps) (ha : e.addr = e'.addr) : e = e' :=
  List.inj_on_of_nodup_map h.nodup_addr he he' ha

/-- A listed urb is at the list that holds it. -/
theorem location_of_mem (h : RegistryInv s) {k : UrbpList} {e : VhciUrbPriv}
    (he : e ∈ s.vhc.urbpList k) : s.vhc.location e.urb = some k :=
  Vhci.location_eq_some he rfl fun k' e' he' hu => by
    obtain rfl := h.eq_of_urb (Vhci.mem_allUrbps_of_mem he') (Vhci.mem_allUrbps_of_mem he) hu
    exact Vhci.eq_of_mem_urbpList (List.Nodup.of_map _ h.nodup_urb) he' he

/-- Unlinking a listed entry removes exactly the entries of its urb. -/
theorem mem_listDel (h : RegistryInv s) {e : VhciUrbPriv} (he : e ∈ s.vhc.allUrbps)
    {k : UrbpList} {x : VhciUrbPriv} :
    x ∈ (s.vhc.listDel e.addr).urbpList k ↔ x ∈ s.vhc.urbpList k ∧ x.urb ≠ e.urb := by
  simp only [Vhci.urbpList_listDel, List.mem_filter, bne_iff_ne, ne_eq]
  refine and_congr_right fun hx => not_congr ⟨fun ha => ?_, fun hu => ?_⟩
  · rw [h.eq_of_addr (Vhci.mem_allUrbps_of_mem hx) he ha]
  · rw [h.eq_of_urb (Vhci.mem_allUrbps_of_mem hx) he hu]

theorem location_listDel (h : RegistryInv s) {e : VhciUrbPriv} (he : e ∈ s.vhc.allUrbps)
    (u : Nat) :
    (s.vhc.listDel e.addr).location u = if u = e.urb then none else s.vhc.location u := by
  split_ifs with hu
  · exact Vhci.location_eq_none.2 fun k x hx hxu => ((h.mem_listDel he).1 hx).2 (hxu.trans hu)
  · refine Vhci.location_congr fun k => Bool.eq_iff_iff.2 ?_
    simp only [List.any_eq_true, beq_iff_eq, h.mem_listDel he]
    exact ⟨fun ⟨x, ⟨hx, _⟩, hxu⟩ => ⟨x, hx, hxu⟩,
      fun ⟨x, hx, hxu⟩ => ⟨x, ⟨hx, fun h' => hu (hxu ▸ h')⟩, hxu⟩⟩

/-- Moving a listed entry to list `k` takes every entry of its urb off the lists and puts it at
`k`. -/
theorem mem_listMoveTail (h : RegistryInv s) {e : VhciUrbPriv} (he : e ∈ s.vhc.allUrbps)
    (k k' : UrbpList) (x : VhciUrbPriv) : x ∈ (s.vhc.listMoveTail e k).urbpList k' ↔
      (x ∈ s.vhc.urbpList k' ∧ x.urb ≠ e.urb) ∨ (k' = k ∧ x = e) := by
  unfold Vhci.listMoveTail
  rw [Vhci.urbpList_listAddTail]
  split_ifs with hk
  · rw [List.mem_append, h.mem_listDel he, List.mem_singleton]
    simp [hk]
  · rw [h.mem_listDel he]
    simp [hk]

theorem location_listMoveTail (h : RegistryInv s) {e : VhciUrbPriv} (he : e ∈ s.vhc.allUrbps)
    (k : UrbpList) (u : Nat) :
    (s.vhc.listMoveTail e k).location u = if u = e.urb then some k else s.vhc.location u := by
  have hmem := h.mem_listMoveTail he k
  split_ifs with hu
  · subst hu
    refine Vhci.location_eq_some ((hmem k e).2 (.inr ⟨rfl, rfl⟩)) rfl fun k' x hx hxu => ?_
    rcases (hmem k' x).1 hx with ⟨-, hne⟩ | ⟨rfl, -⟩
    · exact absurd hxu hne
    · rfl
  · refine Vhci.location_congr fun k' => Bool.eq_iff_iff.2 ?_
    simp only [List.any_eq_true, beq_iff_eq, hmem]
    constructor
    · rintro ⟨x, ⟨hx, -⟩ | ⟨-, rfl⟩, hxu⟩
      · exact ⟨x, hx, hxu⟩
      · exact absurd hxu.symm hu
    · rintro ⟨x, hx, hxu⟩
      exact ⟨x, .inl ⟨hx, fun h' => hu (hxu ▸ h')⟩, hxu⟩

/-- The only urb whose location an unlinking changes is the unlinked one, which leaves its list. -/
theorem moved_listDel (h : RegistryInv s) {k : UrbpList} {e : VhciUrbPriv}
    (he : e ∈ s.vhc.urbpList k) {x : Nat}
    (hne : (s.vhc.listDel e.addr).location x ≠ s.vhc.location x) :
    x = e.urb ∧ s.vhc.location x = some k ∧ (s.vhc.listDel e.addr).location x = none := by
  rw [h.location_listDel (Vhci.mem_allUrbps_of_mem he)] at hne ⊢
  split_ifs at hne ⊢ with hx
  · exact ⟨hx, hx ▸ h.location_of_mem he, rfl⟩
  · exact absurd rfl hne

/-- The only urb whose location a move to list `k'` changes is the moved one, which goes from its
list to `k'`. -/
theorem moved_listMoveTail (h : RegistryInv s) {k k' : UrbpList} {e : VhciUrbPriv}
    (he : e ∈ s.vhc.urbpList k) {x : Nat}
    (hne : (s.vhc.listMoveTail e k').location x ≠ s.vhc.location x) :
    x = e.urb ∧ s.vhc.location x = some k ∧ (s.vhc.listMoveTail e k').location x = some k' := by
  rw [h.location_listMoveTail (Vhci.mem_allUrbps_of_mem he)] at hne ⊢
  split_ifs at hne ⊢ with hx
  · exact ⟨hx, hx ▸ h.location_of_mem he, rfl⟩
  · exact absurd rfl hne

end RegistryInv

/-- The changes of location the driver is meant to make to urb `u`, each with the call that
makes it: queued by `vhci_urb_enqueue`; handed to the worker, or rejected with `-EPIPE`, by
`ioc_fetch_work` (in its first section or after `repeat:`); given back from the inbox or marked
for cancelling by `vhci_urb_dequeue`; its cancel request handed out by `ioc_fetch_work`; given
back by the worker under its own handle, from any list but the inbox through
`ioc_giveback_common` and from the cancel lists through `ioc_fetch_data_common`; and flushed
from any list by `vhci_hcd_remove`. -/
inductive Moves (u : Nat) : Label → Option UrbpList → Option UrbpList → Prop
  | enqueue : Moves u (.urbEnqueue u 0) none (some .inbox)
  | process {w : UrbWork} :
      Moves u (.fetchWork (.done 0 (some (.processUrb u w)))) (some .inbox) (some .fetched)
  | processRepeat {w : UrbWork} :
      Moves u (.fetchWorkRepeat (.done 0 (some (.processUrb u w)))) (some .inbox) (some .fetched)
  | reject {g : Giveback} (hg : g.urb = u) : Moves u (.fetchWork (.rejected g)) (some .inbox) none
  | rejectRepeat {g : Giveback} (hg : g.urb = u) :
      Moves u (.fetchWorkRepeat (.rejected g)) (some .inbox) none
  | dequeue {g : Giveback} (hg : g.urb = u) : Moves u (.urbDequeue u 0 (some g)) (some .inbox) none
  | requestCancel : Moves u (.urbDequeue u 0 none) (some .fetched) (some .cancel)
  | cancel : Moves u (.fetchWork (.done 0 (some (.cancelUrb u)))) (some .cancel) (some .canceling)
  | giveback {k : UrbpList} {a : GivebackArgs} {r : GivebackResult} (hk : k ≠ .inbox)
      (ha : a.handle = u) : Moves u (.giveback a r) (some k) none
  | fetchData {k : UrbpList} {a : FetchDataArgs} {r : FetchDataResult}
      (hk : k = .cancel ∨ k = .canceling) (ha : a.handle = u) : Moves u (.fetchData a r) (some k) none
  | remove {k : UrbpList} {g : Giveback} (hg : g.urb = u) : Moves u (.hcdRemove (some g)) (some k) none

/-- One pass through `repeat:` moves the inbox's head only, to `fetched` with a `PROCESS_URB`
unit or out with a rejection. -/
theorem RegistryInv.fetchWorkRepeat_location (h : RegistryInv s) {o : FetchWorkOutcome}
    (hr : fetchWorkRepeat s = (s', o)) (x : Nat) (hne : s'.vhc.location x ≠ s.vhc.location x) :
    s.vhc.location x = some .inbox ∧
      ((∃ w, o = .done 0 (some (.processUrb x w)) ∧ s'.vhc.location x = some .fetched) ∨
        (∃ g, o = .rejected g ∧ g.urb = x ∧ s'.vhc.location x = none)) := by
  rcases fetchWorkRepeat_cases hr with ⟨-, rfl, -⟩ | ⟨e, rest, hi, hc⟩
  · exact absurd rfl hne
  have he : e ∈ s.vhc.urbpList .inbox := hi ▸ List.mem_cons_self _ _
  have hea := Vhci.mem_allUrbps_of_mem he
  rcases hc with ⟨len, -, rfl, rfl⟩ | ⟨-, rfl, rfl⟩
  · have hl := h.location_listMoveTail hea .fetched x
    split_ifs at hl with hx
    · subst hx
      exact ⟨h.location_of_mem he, .inl ⟨_, rfl, hl⟩⟩
    · exact absurd hl hne
  · have hl := h.location_listDel hea x
    simp only [vhciUrbGiveback_maybeSetStatus, vhciUrbGiveback_vhc] at hne ⊢
    split_ifs at hl with hx
    · subst hx
      exact ⟨h.location_of_mem he, .inr ⟨_, rfl, by simp, hl⟩⟩
    · exact absurd hl hne

/-- A step changes the location of an urb only along `Moves`. -/
theorem Step.moves {l : Label} (hs : Step s l s') (h : RegistryInv s) (x : Nat)
    (hne : s'.vhc.location x ≠ s.vhc.location x) :
    Moves x l (s.vhc.location x) (s'.vhc.location x) := by
  cases hs with
  | urbEnqueue u req alloc linkRet hfree _ _ he =>
    rcases vhciUrbEnqueue_cases he with ⟨rfl, -⟩ | ⟨addr, rfl, rfl, -, rfl⟩
    · exact absurd rfl hne
    have hu : ∀ e ∈ s.vhc.allUrbps, e.urb ≠ u := fun e he heu => by
      simp [← heu, h.hcpriv_eq e he] at hfree
    change (s.vhc.listAddTail ⟨u, addr, 0⟩ .inbox).location x ≠ _ at hne
    change Moves x _ _ ((s.vhc.listAddTail ⟨u, addr, 0⟩ .inbox).location x)
    rw [Vhci.location_listAddTail hu x] at hne ⊢
    split_ifs at hne ⊢ with hx
    · subst hx
      rw [Vhci.location_eq_none.2 fun k e he => hu e (Vhci.mem_allUrbps_of_mem he)]
      exact .enqueue
    · exact absurd rfl hne
  | urbDequeue u status hd =>
    rcases vhciUrbDequeue_cases hd with ⟨rfl, -⟩ | ⟨s₁, hc, rfl, hd⟩
    · exact absurd rfl hne
    obtain ⟨-, -, rfl⟩ := usbHcdCheckUnlinkUrb_ok.1 hc
    rcases hd with ⟨e, he, rfl, rfl⟩ | ⟨-, e, he, rfl, rfl⟩ | ⟨-, -, rfl, rfl⟩
    · obtain ⟨he, rfl⟩ := Vhci.findUrb_mem he
      obtain ⟨rfl, h₁, h₂⟩ := h.moved_listDel he hne
      change Moves _ _ _ ((s.vhc.listDel e.addr).location _)
      rw [h₁, h₂]
      exact .dequeue rfl
    · obtain ⟨he, rfl⟩ := Vhci.findUrb_mem he
      obtain ⟨rfl, h₁, h₂⟩ := h.moved_listMoveTail he hne
      change Moves _ _ _ ((s.vhc.listMoveTail e .cancel).location _)
      rw [h₁, h₂]
      exact .requestCancel
    · exact absurd rfl hne
  | fetchWorkWait => exact absurd rfl hne
  | fetchWork hf =>
    simp only [Sys.parkFetcher_vhc] at hne ⊢
    rcases iocFetchWorkLocked_cases hf with ⟨e, rest, hc, rfl, rfl⟩ | ⟨-, w, -, rfl, rfl⟩ | ⟨-, -, hr⟩
    · have he : e ∈ s.vhc.urbpList .cancel := hc ▸ List.mem_cons_self _ _
      obtain ⟨rfl, h₁, h₂⟩ := h.moved_listMoveTail he hne
      change Moves _ _ _ ((s.vhc.listMoveTail e .canceling).location _)
      rw [h₁, h₂]
      exact .cancel
    · exact absurd (congrFun (Vhci.location_eq_of_urbpList (by simp)) x) hne
    · have hv : (fetchWorkPorts s.vhc).1.location = s.vhc.location :=
        Vhci.location_eq_of_urbpList (by simp)
      obtain ⟨hin, ⟨w, rfl, hl⟩ | ⟨g, rfl, hg, hl⟩⟩ :=
        h.of_fetchWorkPorts.fetchWorkRepeat_location hr x (by simpa [hv] using hne)
      · simp only [hv] at hin
        rw [hin, hl]
        exact .process
      · simp only [hv] at hin
        rw [hin, hl]
        exact .reject hg
  | fetchWorkRepeat _ hr =>
    simp only [Sys.parkFetcher_vhc] at hne ⊢
    have h₁ : RegistryInv { s with fetchers := s.fetchers - 1 } := h.of_vhc_urbs rfl rfl
    obtain ⟨hin, ⟨w, rfl, hl⟩ | ⟨g, rfl, hg, hl⟩⟩ := h₁.fetchWorkRepeat_location hr x hne
    · rw [show s.vhc.location x = some .inbox from hin, hl]
      exact .processRepeat
    · rw [show s.vhc.location x = some .inbox from hin, hl]
      exact .rejectRepeat hg
  | giveback a hg =>
    rcases iocGivebackCommon_cases hg with ⟨-, rfl, -⟩ | ⟨e, rv, isIn, hl, -, hg⟩
    · exact absurd rfl hne
    obtain ⟨k, hk, he⟩ := givebackLookup_mem hl
    have hloc : s'.vhc.location x = (s.vhc.listDel e.addr).location x := by
      rcases hg with ⟨err, -, rfl, -⟩ | ⟨-, -, rfl, -⟩ <;> simp
    rw [hloc] at hne ⊢
    obtain ⟨rfl, h₁, h₂⟩ := h.moved_listDel he hne
    rw [h₁, h₂]
    exact .giveback hk (givebackLookup_some hl).1.symm
  | fetchData a hd =>
    rcases iocFetchDataCommon_cases hd with ⟨e, -, rfl, -⟩ | ⟨-, e, he, rfl, -⟩ | ⟨-, -, rfl, -⟩
    · exact absurd rfl hne
    · obtain ⟨ha, k, hk, he⟩ := findUrb_cancel_some he
      simp only [vhciUrbGiveback_vhc] at hne ⊢
      obtain ⟨rfl, h₁, h₂⟩ := h.moved_listDel he hne
      rw [h₁, h₂]
      exact .fetchData hk ha.symm
    · exact absurd rfl hne
  | hcdRemove _ hr =>
    obtain ⟨k, e, he, rfl, rfl⟩ := hcdRemoveStep_some hr
    simp only [vhciUrbGiveback_vhc, maybeSetStatus_addr] at hne ⊢
    obtain ⟨rfl, h₁, h₂⟩ := h.moved_listDel he hne
    rw [h₁, h₂]
    exact .remove (by simp)
  | hcdRemoveDone => exact absurd rfl hne
  | hubControl _ _ _ _ _ _ _ hc =>
    exact absurd (by simp [Vhci.location_eq_of_urbpList (vhciHubControl_hubWrite hc).urbpList]) hne
  | portStat _ _ _ hp =>
    exact absurd (by simp [Vhci.location_eq_of_urbpList (iocPortStat_hubWrite hp).urbpList]) hne
  | busSuspend =>
    exact absurd (by simp [Vhci.location_eq_of_urbpList (vhciBusSuspend_hubWrite _).urbpList]) hne
  | busResume _ hr =>
    exact absurd (by simp [Vhci.location_eq_of_urbpList (vhciBusResume_hubWrite hr).urbpList]) hne
  | hubStatus => exact absurd rfl hne

/-- In every run from `vhci_start`, each step changes the location of an urb only along
`Moves`. -/
theorem location_moves_of_run {conf : VhciConf} {ts : List (Sys × Label × Sys)}
    (hr : Run (Sys.init conf) ts s) :
    ∀ x ∈ ts, ∀ u, x.2.2.vhc.location u ≠ x.1.vhc.location u →
      Moves u x.2.1 (x.1.vhc.location u) (x.2.2.vhc.location u) := by
  intro x hx u hne
  obtain ⟨⟨ts', hr'⟩, hs⟩ := hr.step_of_mem hx
  exact hs.moves (registryInv_of_reachable ⟨ts', hr'⟩) u hne

/-- A run of one step: the usb core queues urb `5`, which moves from nowhere to the inbox. -/
theorem location_moves_of_run_enqueue :
    let s₀ := Sys.init ⟨1, by decide⟩
    let s₁ := (vhciUrbEnqueue (s₀.updUrb 5 (usbSubmitUrb ·
      { (default : Urb) with pipe := ⟨.bulk, false, 1, 1⟩ })) 5 (some 100) 0).1
    Run s₀ [(s₀, .urbEnqueue 5 0, s₁)] s₁ ∧
    ∀ x ∈ [(s₀, Label.urbEnqueue 5 0, s₁)], ∀ u, x.2.2.vhc.location u ≠ x.1.vhc.location u →
      Moves u x.2.1 (x.1.vhc.location u) (x.2.2.vhc.location u) :=
  have hr : Run (Sys.init ⟨1, by decide⟩) _ _ := (Run.nil _).snoc
    (Step.urbEnqueue_init 5 { (default : Urb) with pipe := ⟨.bulk, false, 1, 1⟩ } 100 0 (by decide))
  ⟨hr, location_moves_of_run hr⟩

end VhciHcd
