import VhciHcd.System

/-!
# The urb registry

`RegistryInv` ties the four urb lists to the usb core's view of its urbs: no urb and no address
is listed twice, an urb is linked to its endpoint exactly while it is listed, a listed urb's
`hcpriv` points at its own entry and an unlisted one's is `NULL`. Every entry's `status` stays
`0`: `kzalloc` zeroes it, and `maybe_set_status` only writes over `-EINPROGRESS`, which nothing
ever stores, so every give-back reports `0`.

A section does one of four things to the registry (`RegistryInv.updUrb`, `RegistryInv.enqueue`,
`RegistryInv.moveTail`, `RegistryInv.giveback`); `Step.registryInv` finds which from the
inversion lemma of its function, and `registryInv_of_reachable` closes the induction.
-/

namespace VhciHcd

/-- The registry invariant. -/
structure RegistryInv (s : Sys) : Prop where
  nodup_urb : (s.vhc.allUrbps.map (·.urb)).Nodup
  nodup_addr : (s.vhc.allUrbps.map (·.addr)).Nodup
  linked_iff : ∀ u, (s.urbs u).linked ↔ ∃ e ∈ s.vhc.allUrbps, e.urb = u
  hcpriv_eq : ∀ e ∈ s.vhc.allUrbps, (s.urbs e.urb).hcpriv = some e.addr
  hcpriv_none : ∀ u, (∀ e ∈ s.vhc.allUrbps, e.urb ≠ u) → (s.urbs u).hcpriv = none
  status_eq : ∀ e ∈ s.vhc.allUrbps, e.status = 0
  urb_ne_zero : ∀ e ∈ s.vhc.allUrbps, e.urb ≠ 0

theorem registryInv_init (conf : VhciConf) : RegistryInv (Sys.init conf) where
  nodup_urb := List.nodup_nil
  nodup_addr := List.nodup_nil
  linked_iff _ := by simp [Sys.init, vhciStart, Vhci.allUrbps, default]
  hcpriv_eq _ h := nomatch h
  hcpriv_none _ _ := rfl
  status_eq _ h := nomatch h
  urb_ne_zero _ h := nomatch h

variable {s s' : Sys}

namespace RegistryInv

theorem eq_of_urb (h : RegistryInv s) {e e' : VhciUrbPriv} (he : e ∈ s.vhc.allUrbps)
    (he' : e' ∈ s.vhc.allUrbps) (hu : e.urb = e'.urb) : e = e' :=
  List.inj_on_of_nodup_map h.nodup_urb he he' hu

/-- The invariant reads the urbs only through `hcpriv` and `linked`, and the lists only through
the entries they hold. -/
theorem congr (h : RegistryInv s) (hv : List.Perm s'.vhc.allUrbps s.vhc.allUrbps)
    (hu : ∀ u, (s'.urbs u).hcpriv = (s.urbs u).hcpriv ∧ (s'.urbs u).linked = (s.urbs u).linked) :
    RegistryInv s' where
  nodup_urb := (hv.map _).nodup_iff.2 h.nodup_urb
  nodup_addr := (hv.map _).nodup_iff.2 h.nodup_addr
  linked_iff u := by simp only [(hu u).2, h.linked_iff u, hv.mem_iff]
  hcpriv_eq e he := (hu _).1.trans (h.hcpriv_eq e (hv.mem_iff.1 he))
  hcpriv_none u hn := (hu u).1.trans (h.hcpriv_none u fun e he => hn e (hv.mem_iff.2 he))
  status_eq e he := h.status_eq e (hv.mem_iff.1 he)
  urb_ne_zero e he := h.urb_ne_zero e (hv.mem_iff.1 he)

theorem of_vhc_urbs (h : RegistryInv s) (hv : s'.vhc = s.vhc) (hu : s'.urbs = s.urbs) :
    RegistryInv s' :=
  h.congr (hv ▸ .refl _) fun _ => hu ▸ ⟨rfl, rfl⟩

/-- A write to an urb that keeps `hcpriv` and `linked`. -/
theorem updUrb (h : RegistryInv s) {u : Nat} {f : Urb → Urb}
    (hf : ∀ urb, (f urb).hcpriv = urb.hcpriv ∧ (f urb).linked = urb.linked) :
    RegistryInv (s.updUrb u f) :=
  h.congr (.refl _) fun v => by
    rw [Sys.updUrb_urbs]
    split_ifs with hv
    · exact hv ▸ hf _
    · exact ⟨rfl, rfl⟩

/-- `list_move_tail` of a listed entry. -/
theorem moveTail (h : RegistryInv s) {e : VhciUrbPriv} (he : e ∈ s.vhc.allUrbps) (k : UrbpList) :
    RegistryInv { s with vhc := s.vhc.listMoveTail e k } :=
  h.congr (Vhci.allUrbps_listMoveTail k h.nodup_addr he) fun _ => ⟨rfl, rfl⟩

/-- The successful end of `vhci_urb_enqueue`: the urb is not `NULL` and was free, and the address
is fresh. -/
theorem enqueue (h : RegistryInv s) {u addr : Nat} (hu0 : u ≠ 0) (hfree : (s.urbs u).hcpriv = none)
    (hfresh : addr ∉ s.vhc.allUrbps.map (·.addr)) :
    RegistryInv { s.updUrb u (fun urb => { urb with linked := true, unlinked := 0, hcpriv := some addr })
      with vhc := s.vhc.listAddTail ⟨u, addr, 0⟩ .inbox } := by
  have hu : ∀ e ∈ s.vhc.allUrbps, e.urb ≠ u := fun e he heu => by
    simp [← heu, h.hcpriv_eq e he] at hfree
  have hp := Vhci.allUrbps_listAddTail s.vhc ⟨u, addr, 0⟩ .inbox
  have hurb : u ∉ s.vhc.allUrbps.map (·.urb) := by simpa using hu
  refine ⟨?_, ?_, fun v => ?_, fun e he => ?_, fun v hv => ?_, fun e he => ?_, fun e he => ?_⟩
  · rw [(hp.map _).nodup_iff, List.map_append, List.map_singleton, ← List.concat_eq_append]
    exact h.nodup_urb.concat hurb
  · rw [(hp.map _).nodup_iff, List.map_append, List.map_singleton, ← List.concat_eq_append]
    exact h.nodup_addr.concat hfresh
  · simp only [hp.mem_iff, List.mem_append, List.mem_singleton, Sys.updUrb_urbs]
    by_cases hv : v = u
    · subst hv
      simp only [if_true]
      exact ⟨fun _ => ⟨_, .inr rfl, rfl⟩, fun _ => trivial⟩
    · simp only [hv, if_false, h.linked_iff v]
      exact ⟨fun ⟨x, hx, hxv⟩ => ⟨x, .inl hx, hxv⟩, fun ⟨x, hx, hxv⟩ =>
        hx.elim (fun hx => ⟨x, hx, hxv⟩) fun hx => absurd (hx ▸ hxv).symm hv⟩
  · rcases List.mem_append.1 (hp.mem_iff.1 he) with he | he
    · simp [Sys.updUrb_urbs, hu e he, h.hcpriv_eq e he]
    · obtain rfl := List.mem_singleton.1 he
      simp [Sys.updUrb_urbs]
  · have hvu : u ≠ v := hv ⟨u, addr, 0⟩ (hp.mem_iff.2 (by simp))
    simp only [Sys.updUrb_urbs, Ne.symm hvu, if_false]
    exact h.hcpriv_none v fun e he => hv e (hp.mem_iff.2 (List.mem_append_left _ he))
  · rcases List.mem_append.1 (hp.mem_iff.1 he) with he | he
    · exact h.status_eq e he
    · obtain rfl := List.mem_singleton.1 he
      rfl
  · rcases List.mem_append.1 (hp.mem_iff.1 he) with he | he
    · exact h.urb_ne_zero e he
    · obtain rfl := List.mem_singleton.1 he
      exact hu0

/-- `vhci_urb_giveback` of a listed entry: it leaves the lists, and its urb is unlinked with
`hcpriv` cleared. -/
theorem giveback (h : RegistryInv s) {e : VhciUrbPriv} (he : e ∈ s.vhc.allUrbps) :
    RegistryInv (vhciUrbGiveback s e).1 := by
  have hl : (vhciUrbGiveback s e).1.vhc.allUrbps = s.vhc.allUrbps.erase e := by
    rw [vhciUrbGiveback_vhc, Vhci.allUrbps_listDel, filter_addr_eq_erase h.nodup_addr he]
  have hmem : ∀ x, x ∈ s.vhc.allUrbps.erase e ↔ x ∈ s.vhc.allUrbps ∧ x.urb ≠ e.urb := fun x => by
    rw [(List.Nodup.of_map _ h.nodup_urb).mem_erase_iff]
    exact ⟨fun ⟨hne, hx⟩ => ⟨hx, fun hu => hne (h.eq_of_urb hx he hu)⟩,
      fun ⟨hx, hu⟩ => ⟨fun hxe => hu (hxe ▸ rfl), hx⟩⟩
  refine ⟨?_, ?_, fun u => ?_, fun x hx => ?_, fun u hu => ?_, fun x hx => ?_, fun x hx => ?_⟩
  · rw [hl]; exact h.nodup_urb.sublist ((List.erase_sublist _ _).map _)
  · rw [hl]; exact h.nodup_addr.sublist ((List.erase_sublist _ _).map _)
  · simp only [hl, hmem, vhciUrbGiveback_urbs, Function.update_apply]
    by_cases hu : u = e.urb
    · subst hu; simp
    · simp only [hu, if_false, h.linked_iff u]
      exact ⟨fun ⟨x, hx, hxu⟩ => ⟨x, ⟨hx, fun h' => hu (hxu ▸ h')⟩, hxu⟩,
        fun ⟨x, ⟨hx, _⟩, hxu⟩ => ⟨x, hx, hxu⟩⟩
  · rw [hl, hmem] at hx
    simp [Function.update_apply, hx.2, h.hcpriv_eq x hx.1]
  · rw [hl] at hu
    simp only [vhciUrbGiveback_urbs, Function.update_apply]
    split_ifs with hue
    · rfl
    · exact h.hcpriv_none u fun x hx hxu =>
        hu x ((hmem x).2 ⟨hx, fun h' => hue (hxu ▸ h')⟩) hxu
  · rw [hl, hmem] at hx
    exact h.status_eq x hx.1
  · rw [hl, hmem] at hx
    exact h.urb_ne_zero x hx.1

end RegistryInv

theorem RegistryInv.parkFetcher (h : RegistryInv s) (o : FetchWorkOutcome) :
    RegistryInv (s.parkFetcher o) :=
  h.of_vhc_urbs (by simp) (by simp)

/-- The port part of `ioc_fetch_work` leaves the lists alone. -/
theorem RegistryInv.of_fetchWorkPorts (h : RegistryInv s) :
    RegistryInv { s with vhc := (fetchWorkPorts s.vhc).1 } :=
  h.congr (by simp) fun _ => ⟨rfl, rfl⟩

theorem RegistryInv.of_fetchWorkRepeat (h : RegistryInv s) {o : FetchWorkOutcome}
    (hr : fetchWorkRepeat s = (s', o)) : RegistryInv s' := by
  rcases fetchWorkRepeat_cases hr with ⟨-, rfl, -⟩ | ⟨e, rest, hi, h'⟩
  · exact h
  have he : e ∈ s.vhc.allUrbps := Vhci.mem_allUrbps_of_mem (hi ▸ List.mem_cons_self _ _)
  rcases h' with ⟨len, -, rfl, -⟩ | ⟨-, rfl, -⟩
  · exact h.moveTail he _
  · simpa using h.giveback he

/-- Every step keeps the registry invariant. -/
theorem Step.registryInv {l : Label} (hs : Step s l s') (h : RegistryInv s) : RegistryInv s' := by
  cases hs with
  | urbEnqueue u req alloc linkRet hfree _ halloc he hu =>
    have h₀ : RegistryInv (s.updUrb u (usbSubmitUrb · req)) := h.updUrb fun _ => ⟨rfl, rfl⟩
    rcases vhciUrbEnqueue_cases he with ⟨rfl, -⟩ | ⟨addr, rfl, -, -, rfl⟩
    · exact h₀
    · exact h₀.enqueue hu (by simpa [Sys.updUrb_urbs, usbSubmitUrb] using hfree) (halloc addr rfl)
  | urbDequeue u status hd =>
    rcases vhciUrbDequeue_cases hd with ⟨rfl, -⟩ | ⟨s₁, hc, -, hd⟩
    · exact h
    obtain ⟨-, -, rfl⟩ := usbHcdCheckUnlinkUrb_ok.1 hc
    have h₁ : RegistryInv (s.updUrb u fun urb => { urb with unlinked := status }) :=
      h.updUrb fun _ => ⟨rfl, rfl⟩
    rcases hd with ⟨e, he, rfl, -⟩ | ⟨-, e, he, rfl, -⟩ | ⟨-, -, rfl, -⟩
    · exact h₁.giveback (Vhci.mem_allUrbps_of_mem (Vhci.findUrb_mem he).1)
    · exact h₁.moveTail (Vhci.mem_allUrbps_of_mem (Vhci.findUrb_mem he).1) _
    · exact h₁
  | fetchWorkWait => exact h
  | fetchWork hf =>
    refine RegistryInv.parkFetcher ?_ _
    rcases iocFetchWorkLocked_cases hf with ⟨e, rest, hc, rfl, -⟩ | ⟨-, w, -, rfl, -⟩ | ⟨-, -, hr⟩
    · exact h.moveTail (Vhci.mem_allUrbps_of_mem (hc ▸ List.mem_cons_self _ _)) _
    · exact h.congr (by simp) fun _ => ⟨rfl, rfl⟩
    · exact h.of_fetchWorkPorts.of_fetchWorkRepeat hr
  | fetchWorkRepeat _ hr =>
    have h₁ : RegistryInv { s with fetchers := s.fetchers - 1 } := h.of_vhc_urbs rfl rfl
    exact (h₁.of_fetchWorkRepeat hr).parkFetcher _
  | giveback a hg =>
    rcases iocGivebackCommon_cases hg with ⟨-, rfl, -⟩ | ⟨e, rv, isIn, hl, -, hg⟩
    · exact h
    obtain ⟨k, -, he⟩ := givebackLookup_mem hl
    replace he := Vhci.mem_allUrbps_of_mem he
    rcases hg with ⟨err, -, rfl, -⟩ | ⟨-, -, rfl, -⟩
    · exact h.giveback he
    · have h₁ : RegistryInv (s.updUrb e.urb (givebackApply · a)) := h.updUrb fun _ => ⟨rfl, rfl⟩
      simpa using h₁.giveback he
  | fetchData a hd =>
    rcases iocFetchDataCommon_cases hd with ⟨e, -, rfl, -⟩ | ⟨-, e, he, rfl, -⟩ | ⟨-, -, rfl, -⟩
    · exact h
    · obtain ⟨-, k, -, he⟩ := findUrb_cancel_some he
      exact h.giveback (Vhci.mem_allUrbps_of_mem he)
    · exact h
  | hcdRemove _ hr =>
    obtain ⟨k, e, he, rfl, -⟩ := hcdRemoveStep_some hr
    rw [vhciUrbGiveback_maybeSetStatus]
    exact (h.giveback (Vhci.mem_allUrbps_of_mem he)).of_vhc_urbs rfl rfl
  | hcdRemoveDone => exact h.of_vhc_urbs rfl rfl
  | hubControl _ _ _ _ _ _ _ hc =>
    exact h.congr (by rw [(vhciHubControl_hubWrite hc).allUrbps]) fun _ => ⟨rfl, rfl⟩
  | portStat _ _ _ hp =>
    exact h.congr (by rw [(iocPortStat_hubWrite hp).allUrbps]) fun _ => ⟨rfl, rfl⟩
  | busSuspend =>
    exact h.congr (by rw [(vhciBusSuspend_hubWrite _).allUrbps]) fun _ => ⟨rfl, rfl⟩
  | busResume _ hr =>
    exact h.congr (by rw [(vhciBusResume_hubWrite hr).allUrbps]) fun _ => ⟨rfl, rfl⟩
  | hubStatus => exact h

theorem registryInv_of_reachable {conf : VhciConf} (h : Reachable conf s) : RegistryInv s :=
  Reachable.induction (registryInv_init conf) (fun _ _ _ _ hi hs => hs.registryInv hi) h

/-- The four lists are free of duplicates and pairwise disjoint, they hold exactly the urbs the
controller has linked to their endpoints, and each listed urb's `hcpriv` points at its own
entry. -/
theorem registry_of_reachable {conf : VhciConf} (h : Reachable conf s) :
    (∀ k, ((s.vhc.urbpList k).map (·.urb)).Nodup) ∧
    (∀ k k', k ≠ k' → ∀ e ∈ s.vhc.urbpList k, ∀ e' ∈ s.vhc.urbpList k', e.urb ≠ e'.urb) ∧
    (∀ u, (s.urbs u).linked ↔ ∃ k, ∃ e ∈ s.vhc.urbpList k, e.urb = u) ∧
    (∀ k, ∀ e ∈ s.vhc.urbpList k, (s.urbs e.urb).hcpriv = some e.addr) := by
  have hi := registryInv_of_reachable h
  refine ⟨fun k => hi.nodup_urb.sublist ((Vhci.urbpList_sublist_allUrbps _ k).map _),
    fun k k' hk e he e' he' hu => ?_, fun u => ?_,
    fun k e he => hi.hcpriv_eq e (Vhci.mem_allUrbps_of_mem he)⟩
  · obtain rfl := hi.eq_of_urb (Vhci.mem_allUrbps_of_mem he) (Vhci.mem_allUrbps_of_mem he') hu
    exact hk (Vhci.eq_of_mem_urbpList (List.Nodup.of_map _ hi.nodup_urb) he he')
  · rw [hi.linked_iff u]
    exact ⟨fun ⟨e, he, hu⟩ => (Vhci.mem_allUrbps.1 he).elim fun k hk => ⟨k, e, hk, hu⟩,
      fun ⟨k, e, he, hu⟩ => ⟨e, Vhci.mem_allUrbps_of_mem he, hu⟩⟩

/-- Two bulk OUT urbs submitted, the first handed to the worker: one is in `fetched`, the other
in the inbox. -/
theorem registry_of_reachable_twoUrbs :
    let s₀ : Sys := Sys.init ⟨1, by decide⟩
    let s₁ := (vhciUrbEnqueue (s₀.updUrb 5 (usbSubmitUrb ·
      { (default : Urb) with pipe := ⟨.bulk, false, 1, 1⟩ })) 5 (some 100) 0).1
    let s₂ := (vhciUrbEnqueue (s₁.updUrb 6 (usbSubmitUrb ·
      { (default : Urb) with pipe := ⟨.bulk, false, 1, 1⟩ })) 6 (some 101) 0).1
    let s := (iocFetchWorkLocked s₂).1
    Reachable ⟨1, by decide⟩ s ∧
    s.vhc.urbpList .fetched = [⟨5, 100, 0⟩] ∧ s.vhc.urbpList .inbox = [⟨6, 101, 0⟩] ∧
    (∀ k, ((s.vhc.urbpList k).map (·.urb)).Nodup) ∧
    (∀ k k', k ≠ k' → ∀ e ∈ s.vhc.urbpList k, ∀ e' ∈ s.vhc.urbpList k', e.urb ≠ e'.urb) ∧
    (∀ u, (s.urbs u).linked ↔ ∃ k, ∃ e ∈ s.vhc.urbpList k, e.urb = u) ∧
    (∀ k, ∀ e ∈ s.vhc.urbpList k, (s.urbs e.urb).hcpriv = some e.addr) :=
  have hr : Reachable ⟨1, by decide⟩ _ := ⟨_, (((Run.nil _).snoc
    (Step.urbEnqueue_init 5 { (default : Urb) with pipe := ⟨.bulk, false, 1, 1⟩ } 100 0 (by decide))).snoc
    (Step.urbEnqueue 6 { (default : Urb) with pipe := ⟨.bulk, false, 1, 1⟩ } (some 101) 0 (by rfl)
      (by decide) (by decide) rfl (by decide) (by decide) (by decide))).snoc (Step.fetchWork rfl)⟩
  ⟨hr, rfl, rfl, registry_of_reachable hr⟩

/-! ## Give-back status -/

theorem RegistryInv.maybeSetStatus_status (h : RegistryInv s) {e : VhciUrbPriv}
    (he : e ∈ s.vhc.allUrbps) (status : Int) : (maybeSetStatus e status).status = 0 := by
  rw [maybeSetStatus_of_ne (by rw [h.status_eq e he]; decide)]
  exact h.status_eq e he

theorem RegistryInv.fetchWorkRepeat_status (h : RegistryInv s) {g : Giveback}
    (hr : fetchWorkRepeat s = (s', .rejected g)) : g.status = 0 := by
  rcases fetchWorkRepeat_cases hr with ⟨-, -, ho⟩ | ⟨e, rest, hi, ⟨len, -, -, ho⟩ | ⟨-, -, ho⟩⟩
  · cases ho
  · cases ho
  · cases ho
    exact h.maybeSetStatus_status (Vhci.mem_allUrbps_of_mem (hi ▸ List.mem_cons_self _ _)) _

/-- Every give-back a step leads to reports the status `0`. -/
theorem Step.givebacks_status {l : Label} (hs : Step s l s') (h : RegistryInv s) :
    ∀ g ∈ l.givebacks, g.status = 0 := by
  intro g hg
  cases hs with
  | urbEnqueue => cases hg
  | urbDequeue u status hd =>
    rcases vhciUrbDequeue_cases hd with ⟨-, -, rfl⟩ | ⟨s₁, hc, -, hd⟩
    · cases hg
    obtain ⟨-, -, rfl⟩ := usbHcdCheckUnlinkUrb_ok.1 hc
    rcases hd with ⟨e, he, -, rfl⟩ | ⟨-, e, -, -, rfl⟩ | ⟨-, -, -, rfl⟩ <;>
      simp only [Label.givebacks, Option.toList, List.mem_singleton, List.not_mem_nil] at hg
    subst hg
    exact h.status_eq e (Vhci.mem_allUrbps_of_mem (Vhci.findUrb_mem he).1)
  | fetchWorkWait => cases hg
  | @fetchWork _ o hf =>
    cases o with
    | done => cases hg
    | rejected g' =>
      obtain rfl := List.mem_singleton.1 hg
      rcases iocFetchWorkLocked_cases hf with ⟨_, _, _, _, ho⟩ | ⟨_, _, _, _, ho⟩ | ⟨-, -, hr⟩
      · cases ho
      · cases ho
      · exact h.of_fetchWorkPorts.fetchWorkRepeat_status hr
  | @fetchWorkRepeat _ o _ hr =>
    cases o with
    | done => cases hg
    | rejected g' =>
      obtain rfl := List.mem_singleton.1 hg
      have h₁ : RegistryInv { s with fetchers := s.fetchers - 1 } := h.of_vhc_urbs rfl rfl
      exact h₁.fetchWorkRepeat_status hr
  | giveback a hb =>
    rcases iocGivebackCommon_cases hb with ⟨-, -, rfl⟩ | ⟨e, rv, isIn, hl, -, hb⟩
    · cases hg
    obtain ⟨k, -, he⟩ := givebackLookup_mem hl
    replace he := Vhci.mem_allUrbps_of_mem he
    rcases hb with ⟨err, -, -, -, hgb⟩ | ⟨-, -, -, rfl⟩
    · simp only [Label.givebacks, hgb, Option.toList, List.mem_singleton] at hg
      subst hg
      exact h.status_eq e he
    · simp only [Label.givebacks, Option.toList, List.mem_singleton] at hg
      subst hg
      exact h.maybeSetStatus_status he _
  | fetchData a hd =>
    rcases iocFetchDataCommon_cases hd with ⟨e, -, -, tbLen, isIn, -, -, rfl⟩ | ⟨-, e, he, -, rfl⟩ |
        ⟨-, -, -, rfl⟩
    · simp [Label.givebacks] at hg
    · simp only [Label.givebacks, Option.toList, List.mem_singleton] at hg
      subst hg
      obtain ⟨-, k, -, he⟩ := findUrb_cancel_some he
      exact h.status_eq e (Vhci.mem_allUrbps_of_mem he)
    · cases hg
  | hcdRemove _ hr =>
    obtain ⟨k, e, he, -, rfl⟩ := hcdRemoveStep_some hr
    obtain rfl := List.mem_singleton.1 hg
    exact h.maybeSetStatus_status (Vhci.mem_allUrbps_of_mem he) _
  | hcdRemoveDone => cases hg
  | hubControl => cases hg
  | portStat => cases hg
  | busSuspend => cases hg
  | busResume => cases hg
  | hubStatus => cases hg

/-- In every run from `vhci_start`, no give-back hands its urb back with `-EINPROGRESS`. -/
theorem giveback_status_ne_inprogress {conf : VhciConf} {ts : List (Sys × Label × Sys)}
    (hr : Run (Sys.init conf) ts s) :
    ∀ x ∈ ts, ∀ g ∈ x.2.1.givebacks, g.status ≠ -EINPROGRESS := by
  intro x hx g hg
  obtain ⟨⟨ts', hr'⟩, hs⟩ := hr.step_of_mem hx
  rw [hs.givebacks_status (registryInv_of_reachable ⟨ts', hr'⟩) g hg]
  decide

/-- A bulk IN urb with an empty buffer is submitted, and `ioc_fetch_work` rejects it: the run
gives the urb back once, with status `0`. -/
theorem giveback_status_ne_inprogress_rejected :
    let s₀ : Sys := Sys.init ⟨1, by decide⟩
    let s₁ := (vhciUrbEnqueue (s₀.updUrb 5 (usbSubmitUrb ·
      { (default : Urb) with pipe := ⟨.bulk, true, 1, 1⟩ })) 5 (some 100) 0).1
    let s₂ := ((iocFetchWorkLocked s₁).1).parkFetcher (.rejected ⟨5, 0⟩)
    let ts : List (Sys × Label × Sys) :=
      [(s₀, .urbEnqueue 5 0, s₁), (s₁, .fetchWork (.rejected ⟨5, 0⟩), s₂)]
    Run s₀ ts s₂ ∧ ts.flatMap (·.2.1.givebacks) = [⟨5, 0⟩] ∧
      ∀ x ∈ ts, ∀ g ∈ x.2.1.givebacks, g.status ≠ -EINPROGRESS :=
  have hr : Run (Sys.init ⟨1, by decide⟩) _ _ := ((Run.nil _).snoc
    (Step.urbEnqueue_init 5 { (default : Urb) with pipe := ⟨.bulk, true, 1, 1⟩ } 100 0 (by decide))).snoc
    (Step.fetchWork rfl)
  ⟨hr, rfl, giveback_status_ne_inprogress hr⟩

/-- The entry `vhci_urb_enqueue` queues keeps the status `0` that `kzalloc` left, not
`-EINPROGRESS`. So when `ioc_fetch_work` rejects the urb (a bulk IN urb with an empty buffer),
its `maybe_set_status(urbp, -EPIPE)` changes nothing, and `vhci_urb_giveback` hands the urb back
with status `0`, as if it had completed. -/
theorem fetchWork_invalid_status_zero :
    let s₀ : Sys := Sys.init ⟨1, by decide⟩
    let s₁ := (vhciUrbEnqueue (s₀.updUrb 5 (usbSubmitUrb ·
      { (default : Urb) with pipe := ⟨.bulk, true, 1, 1⟩ })) 5 (some 100) 0).1
    let s₂ := ((iocFetchWorkLocked s₁).1).parkFetcher (.rejected ⟨5, 0⟩)
    Run s₀ [(s₀, .urbEnqueue 5 0, s₁), (s₁, .fetchWork (.rejected ⟨5, 0⟩), s₂)] s₂ ∧
      s₁.vhc.urbpList .inbox = [⟨5, 100, 0⟩] ∧ (0 : Int) ≠ -EINPROGRESS ∧ (0 : Int) ≠ -EPIPE :=
  ⟨((Run.nil _).snoc
    (Step.urbEnqueue_init 5 { (default : Urb) with pipe := ⟨.bulk, true, 1, 1⟩ } 100 0 (by decide))).snoc
    (Step.fetchWork rfl), rfl, by decide, by decide⟩

end VhciHcd
