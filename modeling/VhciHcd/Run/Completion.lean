import VhciHcd.Run.Order
import VhciHcd.Run.Remove

/-!
# Every submission is given back once

`vhci_urb_giveback` is the only way out of the four lists, and every call of it is recorded in
the label of its step. So a step changes how often an urb is listed by what it queues less what
it gives back (`Step.count_queued`), and over a run the give-backs of an urb and its listings
add up to its accepted submissions (`Run.count_queued`). Since the registry lists an urb at most
once, each accepted submission is given back exactly once, at the latest when `vhci_hcd_remove`
has drained the lists.

The usb core's unlink is seen by the worker in the same way. `vhci_urb_dequeue` takes an urb
whose unlink it accepted off the inbox and off `fetched` in the same critical section
(`UnlinkInv`), so the worker is never handed such an urb, and none of its calls on the urb's
handle succeeds.
-/

namespace VhciHcd

/-- The urbs the four lists hold, in the order of `allUrbps`. -/
def Vhci.queued (v : Vhci) : List Nat := v.allUrbps.map (·.urb)

/-- The urbs a call gives back. -/
def Label.givenBack (l : Label) : List Nat := l.givebacks.map (·.urb)

variable {s s' : Sys}

/-! ## Counting listings and give-backs -/

namespace Vhci

theorem count_queued_of_perm {v v' : Vhci} (h : List.Perm v'.allUrbps v.allUrbps) (u : Nat) :
    v'.queued.count u = v.queued.count u :=
  (h.map _).count_eq u

/-- `list_del` of a listed entry, all addresses being distinct, unlists its urb once. -/
theorem count_queued_listDel {v : Vhci} {e : VhciUrbPriv} (hn : (v.allUrbps.map (·.addr)).Nodup)
    (he : e ∈ v.allUrbps) (u : Nat) :
    (v.listDel e.addr).queued.count u + [e.urb].count u = v.queued.count u := by
  rw [queued, allUrbps_listDel, filter_addr_eq_erase hn he, queued,
    ((List.perm_cons_erase he).map (·.urb)).count_eq u]
  simp [List.count_cons]

theorem count_queued_listAddTail (v : Vhci) (e : VhciUrbPriv) (k : UrbpList) (u : Nat) :
    (v.listAddTail e k).queued.count u = v.queued.count u + [e.urb].count u := by
  rw [queued, ((allUrbps_listAddTail v e k).map _).count_eq, List.map_append, List.count_append]
  rfl

theorem HubWrite.queued {v v' : Vhci} (h : HubWrite v v') : v'.queued = v.queued := by
  rw [Vhci.queued, Vhci.queued, h.allUrbps]

end Vhci

/-- A section ending in `vhci_urb_giveback` of a listed entry. -/
theorem RegistryInv.count_queued_giveback (h : RegistryInv s) {e : VhciUrbPriv}
    (he : e ∈ s.vhc.allUrbps) (u : Nat) :
    (s.vhc.listDel e.addr).queued.count u + [e.urb].count u = s.vhc.queued.count u :=
  Vhci.count_queued_listDel h.nodup_addr he u

/-- A pass through `repeat:` gives back the urb it unlists, if any. -/
theorem RegistryInv.fetchWorkRepeat_count (h : RegistryInv s) {o : FetchWorkOutcome}
    (hr : fetchWorkRepeat s = (s', o)) (u : Nat) :
    s'.vhc.queued.count u + (Label.fetchWork o).givenBack.count u = s.vhc.queued.count u := by
  rcases fetchWorkRepeat_cases hr with ⟨-, rfl, rfl⟩ |
    ⟨e, rest, hi, ⟨len, -, rfl, rfl⟩ | ⟨-, rfl, rfl⟩⟩
  · rfl
  · have he := Vhci.mem_allUrbps_of_mem (hi ▸ List.mem_cons_self e rest)
    exact Vhci.count_queued_of_perm (Vhci.allUrbps_listMoveTail _ h.nodup_addr he) u
  · simpa [Label.givenBack, Label.givebacks] using
      h.count_queued_giveback (Vhci.mem_allUrbps_of_mem (hi ▸ List.mem_cons_self e rest)) u

theorem Label.givenBack_fetchWorkRepeat (o : FetchWorkOutcome) :
    (Label.fetchWorkRepeat o).givenBack = (Label.fetchWork o).givenBack := by
  cases o <;> rfl

/-- A step changes how often each urb is listed by what it queues less what it gives back. -/
theorem Step.count_queued {l : Label} (hs : Step s l s') (h : RegistryInv s) (u : Nat) :
    s'.vhc.queued.count u + l.givenBack.count u = s.vhc.queued.count u + l.enqueued.count u := by
  cases hs with
  | urbEnqueue x req alloc linkRet _ _ _ he =>
    rcases vhciUrbEnqueue_cases he with ⟨rfl, hr⟩ | ⟨addr, -, rfl, -, rfl⟩
    · simp [Label.givenBack, Label.givebacks, Label.enqueued, hr]
    · simp [Label.givenBack, Label.givebacks, Label.enqueued, Vhci.count_queued_listAddTail]
  | urbDequeue x status hd =>
    rcases vhciUrbDequeue_cases hd with ⟨rfl, -, rfl⟩ | ⟨s₁, hc, -, hd⟩
    · rfl
    obtain ⟨-, -, rfl⟩ := usbHcdCheckUnlinkUrb_ok.1 hc
    rcases hd with ⟨e, he, rfl, rfl⟩ | ⟨-, e, he, rfl, rfl⟩ | ⟨-, -, rfl, rfl⟩
    · simpa [Label.givenBack, Label.givebacks, Label.enqueued] using
        h.count_queued_giveback (Vhci.mem_allUrbps_of_mem (Vhci.findUrb_mem he).1) u
    · simpa [Label.givenBack, Label.givebacks, Label.enqueued] using Vhci.count_queued_of_perm
        (Vhci.allUrbps_listMoveTail _ h.nodup_addr
          (Vhci.mem_allUrbps_of_mem (Vhci.findUrb_mem he).1)) u
    · rfl
  | fetchWorkWait => rfl
  | fetchWork hf =>
    simp only [Sys.parkFetcher_vhc, Label.enqueued, List.count_nil, add_zero]
    rcases iocFetchWorkLocked_cases hf with ⟨e, rest, hc, rfl, rfl⟩ | ⟨-, w, -, rfl, rfl⟩ |
      ⟨-, -, hr⟩
    · exact Vhci.count_queued_of_perm (Vhci.allUrbps_listMoveTail _ h.nodup_addr
        (Vhci.mem_allUrbps_of_mem (hc ▸ List.mem_cons_self e rest))) u
    · exact Vhci.count_queued_of_perm (by simp) u
    · simpa [Vhci.queued] using h.of_fetchWorkPorts.fetchWorkRepeat_count hr u
  | fetchWorkRepeat _ hr =>
    simp only [Sys.parkFetcher_vhc, Label.enqueued, List.count_nil, add_zero,
      Label.givenBack_fetchWorkRepeat]
    have h₁ : RegistryInv { s with fetchers := s.fetchers - 1 } := h.of_vhc_urbs rfl rfl
    exact h₁.fetchWorkRepeat_count hr u
  | giveback a hg =>
    rcases iocGivebackCommon_cases hg with ⟨-, rfl, rfl⟩ | ⟨e, rv, isIn, hl, -, hg⟩
    · rfl
    obtain ⟨k, -, he⟩ := givebackLookup_mem hl
    have hc := h.count_queued_giveback (Vhci.mem_allUrbps_of_mem he) u
    rcases hg with ⟨err, -, rfl, -, hgb⟩ | ⟨-, -, rfl, rfl⟩
    · simpa [Label.givenBack, Label.givebacks, Label.enqueued, hgb] using hc
    · simpa [Label.givenBack, Label.givebacks, Label.enqueued] using hc
  | fetchData a hd =>
    rcases iocFetchDataCommon_cases hd with ⟨e, -, rfl, -, -, -, -, rfl⟩ | ⟨-, e, he, rfl, rfl⟩ |
      ⟨-, -, rfl, rfl⟩
    · simp [Label.givenBack, Label.givebacks, Label.enqueued]
    · obtain ⟨-, k, -, he⟩ := findUrb_cancel_some he
      simpa [Label.givenBack, Label.givebacks, Label.enqueued] using
        h.count_queued_giveback (Vhci.mem_allUrbps_of_mem he) u
    · rfl
  | hcdRemove _ hr =>
    obtain ⟨k, e, he, rfl, rfl⟩ := hcdRemoveStep_some hr
    simpa [Label.givenBack, Label.givebacks, Label.enqueued] using
      h.count_queued_giveback (Vhci.mem_allUrbps_of_mem he) u
  | hcdRemoveDone => rfl
  | hubControl _ _ _ _ _ _ _ hc =>
    exact congrArg (·.count u + 0) (vhciHubControl_hubWrite hc).queued
  | portStat _ _ _ hp => exact congrArg (·.count u + 0) (iocPortStat_hubWrite hp).queued
  | busSuspend => exact congrArg (·.count u + 0) (vhciBusSuspend_hubWrite _).queued
  | busResume _ hr => exact congrArg (·.count u + 0) (vhciBusResume_hubWrite hr).queued
  | hubStatus => rfl

/-- A run from a state with the registry invariant keeps it. -/
theorem Run.registryInv {ts : List (Sys × Label × Sys)} (hr : Run s ts s') (h : RegistryInv s) :
    RegistryInv s' := by
  induction hr with
  | nil => exact h
  | snoc _ hst ih => exact hst.registryInv ih

/-- Over a run, the give-backs of each urb and its listings add up to its submissions. -/
theorem Run.count_queued {ts : List (Sys × Label × Sys)} (hr : Run s ts s') (h : RegistryInv s)
    (u : Nat) :
    s'.vhc.queued.count u + (ts.flatMap (·.2.1.givenBack)).count u =
      s.vhc.queued.count u + (ts.flatMap (·.2.1.enqueued)).count u := by
  induction hr with
  | nil => rfl
  | snoc hr hst ih =>
    have hc := hst.count_queued (hr.registryInv h) u
    simp only [List.flatMap_append, List.flatMap_cons, List.flatMap_nil, List.append_nil,
      List.count_append]
    omega

/-- Every submission is given back exactly once. In every run from `vhci_start`, each urb has been
given back as often as `vhci_urb_enqueue` accepted it, less one while it is still listed, and it
is listed at most once. -/
theorem givebacks_match_submissions {conf : VhciConf} {ts : List (Sys × Label × Sys)}
    (hr : Run (Sys.init conf) ts s) (u : Nat) :
    (ts.flatMap (·.2.1.givenBack)).count u + s.vhc.queued.count u =
      (ts.flatMap (·.2.1.enqueued)).count u ∧ s.vhc.queued.count u ≤ 1 := by
  have hc := hr.count_queued (registryInv_init conf) u
  refine ⟨by simpa [Vhci.queued, Sys.init, vhciStart, Vhci.allUrbps, add_comm] using hc, ?_⟩
  exact List.nodup_iff_count_le_one.1 (hr.registryInv (registryInv_init conf)).nodup_urb u

/-- Urb `5`, a bulk IN urb with an empty buffer, is submitted, and `ioc_fetch_work` rejects it
and gives it back: one submission, one give-back. -/
theorem givebacks_match_submissions_rejected :
    let s₀ : Sys := Sys.init ⟨1, by decide⟩
    let s₁ := (vhciUrbEnqueue (s₀.updUrb 5 (usbSubmitUrb ·
      { (default : Urb) with pipe := ⟨.bulk, true, 1, 1⟩ })) 5 (some 100) 0).1
    let s₂ := ((iocFetchWorkLocked s₁).1).parkFetcher (.rejected ⟨5, 0⟩)
    let ts : List (Sys × Label × Sys) :=
      [(s₀, .urbEnqueue 5 0, s₁), (s₁, .fetchWork (.rejected ⟨5, 0⟩), s₂)]
    Run s₀ ts s₂ ∧ (ts.flatMap (·.2.1.givenBack)).count 5 = 1 ∧
    ((ts.flatMap (·.2.1.givenBack)).count 5 + s₂.vhc.queued.count 5 =
      (ts.flatMap (·.2.1.enqueued)).count 5 ∧ s₂.vhc.queued.count 5 ≤ 1) :=
  have hr : Run (Sys.init ⟨1, by decide⟩) _ _ := ((Run.nil _).snoc
    (Step.urbEnqueue_init 5 { (default : Urb) with pipe := ⟨.bulk, true, 1, 1⟩ } 100 0 (by decide))).snoc
    (Step.fetchWork rfl)
  ⟨hr, rfl, givebacks_match_submissions hr 5⟩

/-- `vhci_hcd_remove`, started in any reachable state, completes every submission: when no other
call runs until it returns, it gives back everything still listed and empties the four lists, and
over the whole run each urb has then been given back exactly as often as it was submitted. -/
theorem hcdRemove_gives_back_all {conf : VhciConf} {ts : List (Sys × Label × Sys)}
    (hr : Run (Sys.init conf) ts s) (hn : s.remover = none) :
    ∃ ts' s', Run s ts' s' ∧ (∀ x ∈ ts', ∃ g, x.2.1 = .hcdRemove g) ∧
      (∀ k, s'.vhc.urbpList k = []) ∧
      ∀ u, ((ts ++ ts').flatMap (·.2.1.givenBack)).count u =
        ((ts ++ ts').flatMap (·.2.1.enqueued)).count u := by
  have h := hr.registryInv (registryInv_init conf)
  obtain ⟨ts', s', hr', hl, he, -⟩ := hcdRemove_drain_start h hn
  refine ⟨ts', s', hr', fun x hx => ?_, he, fun u => ?_⟩
  · have hx' : x.2.1 ∈ ts'.map (·.2.1) := List.mem_map_of_mem _ hx
    rw [hl] at hx'
    simp only [List.mem_append, List.mem_map, List.mem_singleton] at hx'
    rcases hx' with ⟨e, -, he⟩ | he
    exacts [⟨_, he.symm⟩, ⟨_, he⟩]
  · have h₀ := hr.count_queued (registryInv_init conf) u
    have h₁ := hr'.count_queued h u
    have hq : s'.vhc.queued = [] := by simp [Vhci.queued, Vhci.allUrbps_eq, he]
    have hq₀ : (Sys.init conf).vhc.queued = [] := rfl
    simp only [hq, hq₀, List.count_nil, zero_add] at h₀ h₁
    simp only [List.flatMap_append, List.count_append]
    omega

theorem hcdRemove_gives_back_all_one :
    let s₀ : Sys := Sys.init ⟨1, by decide⟩
    let s₁ : Sys := (vhciUrbEnqueue (s₀.updUrb 5 (usbSubmitUrb ·
      { (default : Urb) with pipe := ⟨.bulk, false, 1, 1⟩ })) 5 (some 100) 0).1
    Run s₀ [(s₀, .urbEnqueue 5 0, s₁)] s₁ ∧ s₁.remover = none ∧
    ∃ ts' s', Run s₁ ts' s' ∧ (∀ x ∈ ts', ∃ g, x.2.1 = .hcdRemove g) ∧
      (∀ k, s'.vhc.urbpList k = []) ∧
      ∀ u, (([(s₀, Label.urbEnqueue 5 0, s₁)] ++ ts').flatMap (·.2.1.givenBack)).count u =
        (([(s₀, Label.urbEnqueue 5 0, s₁)] ++ ts').flatMap (·.2.1.enqueued)).count u :=
  have hr : Run (Sys.init ⟨1, by decide⟩) _ _ := (Run.nil _).snoc
    (Step.urbEnqueue_init 5 { (default : Urb) with pipe := ⟨.bulk, false, 1, 1⟩ } 100 0 (by decide))
  ⟨hr, rfl, hcdRemove_gives_back_all hr rfl⟩

/-! ## The unlink as the worker sees it -/

/-- An entry of the two lists the worker is served from: the inbox (`PROCESS_URB`) and `fetched`
(a give-back answered with `0`). -/
def Vhci.Live (v : Vhci) (e : VhciUrbPriv) : Prop :=
  e ∈ v.urbpList .inbox ∨ e ∈ v.urbpList .fetched

/-- No urb on the inbox or on `fetched` has had its unlink accepted by the usb core. -/
def UnlinkInv (s : Sys) : Prop := ∀ e, s.vhc.Live e → (s.urbs e.urb).unlinked = 0

@[simp] theorem vhciUrbGiveback_unlinked (s : Sys) (e : VhciUrbPriv) (u : Nat) :
    ((vhciUrbGiveback s e).1.urbs u).unlinked = (s.urbs u).unlinked := by
  by_cases hu : u = e.urb
  · subst hu; simp
  · simp [Function.update_noteq hu]

theorem Vhci.Live.of_listDel {v : Vhci} {a : Nat} {x : VhciUrbPriv} (hx : (v.listDel a).Live x) :
    v.Live x := by
  simp only [Live, urbpList_listDel, List.mem_filter] at hx
  exact hx.imp And.left And.left

namespace UnlinkInv

theorem init (conf : VhciConf) : UnlinkInv (Sys.init conf) := fun _ he => by
  rcases he with he | he <;> cases he

theorem of_live (h : UnlinkInv s)
    (hl : ∀ x, s'.vhc.Live x → s.vhc.Live x ∧ (s'.urbs x.urb).unlinked = (s.urbs x.urb).unlinked) :
    UnlinkInv s' :=
  fun x hx => (hl x hx).2.trans (h x (hl x hx).1)

theorem of_vhc_urbs (h : UnlinkInv s) (hv : s'.vhc = s.vhc) (hu : s'.urbs = s.urbs) :
    UnlinkInv s' :=
  h.of_live fun _ hx => ⟨hv ▸ hx, by rw [hu]⟩

theorem of_hubWrite (h : UnlinkInv s) {v' : Vhci} (hw : s.vhc.HubWrite v') :
    UnlinkInv { s with vhc := v' } :=
  h.of_live fun x hx => ⟨by simpa [Vhci.Live, hw.urbpList] using hx, rfl⟩

theorem updUrb (h : UnlinkInv s) {u : Nat} {f : Urb → Urb}
    (hf : ∀ urb, (f urb).unlinked = urb.unlinked) : UnlinkInv (s.updUrb u f) :=
  h.of_live fun x hx => ⟨hx, by
    rw [Sys.updUrb_urbs]
    split_ifs with hv
    · rw [hv]; exact hf _
    · rfl⟩

theorem giveback (h : UnlinkInv s) (e : VhciUrbPriv) : UnlinkInv (vhciUrbGiveback s e).1 :=
  h.of_live fun _ hx => ⟨Vhci.Live.of_listDel hx, vhciUrbGiveback_unlinked _ _ _⟩

/-- A move to a list the worker is not served from, or from the inbox to `fetched`. -/
theorem moveTail (h : UnlinkInv s) {e : VhciUrbPriv} {k : UrbpList}
    (hk : e ∈ s.vhc.urbpList .inbox ∨ (k ≠ .inbox ∧ k ≠ .fetched)) :
    UnlinkInv { s with vhc := s.vhc.listMoveTail e k } := by
  refine h.of_live fun x hx => ⟨?_, rfl⟩
  have hmem : ∀ k', x ∈ (s.vhc.listMoveTail e k).urbpList k' →
      x ∈ s.vhc.urbpList k' ∨ (k' = k ∧ x = e) := fun k' hx' => by
    simp only [Vhci.listMoveTail, Vhci.urbpList_listAddTail, Vhci.urbpList_listDel] at hx'
    split_ifs at hx' with hk' <;>
      simp only [List.mem_append, List.mem_filter, List.mem_singleton] at hx'
    · exact hx'.imp And.left (⟨hk', ·⟩)
    · exact .inl hx'.1
  rcases hx with hx | hx <;> rcases hmem _ hx with hx | ⟨rfl, rfl⟩
  · exact .inl hx
  · exact .inl (hk.resolve_right fun h => h.1 rfl)
  · exact .inr hx
  · exact .inl (hk.resolve_right fun h => h.2 rfl)

/-- The successful end of `vhci_urb_enqueue`: the new entry's urb has just been linked, with no
unlink. -/
theorem enqueue (h : UnlinkInv s) (hr : RegistryInv s) {u addr : Nat}
    (hfree : (s.urbs u).hcpriv = none) :
    UnlinkInv { s.updUrb u (fun urb =>
        { urb with linked := true, unlinked := 0, hcpriv := some addr })
      with vhc := s.vhc.listAddTail ⟨u, addr, 0⟩ .inbox } := by
  have hmem : ∀ k x, x ∈ (s.vhc.listAddTail ⟨u, addr, 0⟩ .inbox).urbpList k →
      x ∈ s.vhc.urbpList k ∨ x = ⟨u, addr, 0⟩ := fun k x hx => by
    rw [Vhci.urbpList_listAddTail] at hx
    split_ifs at hx
    · simpa using hx
    · exact .inl hx
  have hold : ∀ x, s.vhc.Live x → x.urb ≠ u := fun x hx hxu => by
    have := hr.hcpriv_eq x (hx.elim Vhci.mem_allUrbps_of_mem Vhci.mem_allUrbps_of_mem)
    rw [hxu, hfree] at this
    cases this
  intro x hx
  have hx' : s.vhc.Live x ∨ x = ⟨u, addr, 0⟩ := by
    rcases hx with hx | hx <;> rcases hmem _ x hx with hx | hx
    exacts [.inl (.inl hx), .inr hx, .inl (.inr hx), .inr hx]
  rcases hx' with hx' | rfl
  · dsimp only
    rw [Sys.updUrb_urbs, if_neg (hold x hx')]
    exact h x hx'
  · dsimp only
    rw [Sys.updUrb_urbs, if_pos rfl]

/-- `vhci_urb_dequeue` after `usb_hcd_check_unlink_urb` accepted the unlink of urb `u`: no entry
left on the inbox or on `fetched` holds `u`. -/
theorem unlink (h : UnlinkInv s) {u : Nat}
    (hu : ∀ v, v ≠ u → (s'.urbs v).unlinked = (s.urbs v).unlinked)
    (hl : ∀ x, s'.vhc.Live x → s.vhc.Live x ∧ x.urb ≠ u) : UnlinkInv s' :=
  h.of_live fun x hx => ⟨(hl x hx).1, hu _ (hl x hx).2⟩

theorem fetchWorkRepeat (h : UnlinkInv s) {o : FetchWorkOutcome}
    (hr : fetchWorkRepeat s = (s', o)) : UnlinkInv s' := by
  rcases fetchWorkRepeat_cases hr with ⟨-, rfl, -⟩ | ⟨e, rest, hi, ⟨len, -, rfl, -⟩ | ⟨-, rfl, -⟩⟩
  · exact h
  · exact h.moveTail (.inl (hi ▸ List.mem_cons_self e rest))
  · simpa using h.giveback e

end UnlinkInv

/-- Every step keeps `UnlinkInv`. -/
theorem Step.unlinkInv {l : Label} (hs : Step s l s') (hr : RegistryInv s) (h : UnlinkInv s) :
    UnlinkInv s' := by
  cases hs with
  | urbEnqueue u req alloc linkRet hfree _ _ he =>
    have h₀ : UnlinkInv (s.updUrb u (usbSubmitUrb · req)) := h.updUrb fun _ => rfl
    rcases vhciUrbEnqueue_cases he with ⟨rfl, -⟩ | ⟨addr, -, -, -, rfl⟩
    · exact h₀
    · exact h₀.enqueue (hr.updUrb fun _ => ⟨rfl, rfl⟩)
        (by simpa [Sys.updUrb_urbs, usbSubmitUrb] using hfree)
  | urbDequeue u status hd =>
    rcases vhciUrbDequeue_cases hd with ⟨rfl, -⟩ | ⟨s₁, hc, -, hd⟩
    · exact h
    obtain ⟨-, -, rfl⟩ := usbHcdCheckUnlinkUrb_ok.1 hc
    have hr₁ : RegistryInv (s.updUrb u fun urb => { urb with unlinked := status }) :=
      hr.updUrb fun _ => ⟨rfl, rfl⟩
    have hu₁ : ∀ v, v ≠ u →
        ((s.updUrb u fun urb => { urb with unlinked := status }).urbs v).unlinked =
          (s.urbs v).unlinked := fun v hv => by rw [Sys.updUrb_urbs, if_neg hv]
    rcases hd with ⟨e, he, rfl, -⟩ | ⟨-, e, he, rfl, -⟩ | ⟨hi, hf, rfl, -⟩
    · obtain ⟨he, rfl⟩ := Vhci.findUrb_mem he
      refine h.unlink (fun v hv => by rw [vhciUrbGiveback_unlinked, hu₁ v hv]) fun x hx => ?_
      simp only [Vhci.Live, vhciUrbGiveback_vhc,
        hr₁.mem_listDel (Vhci.mem_allUrbps_of_mem he)] at hx
      rcases hx with ⟨hx, hxu⟩ | ⟨hx, hxu⟩
      exacts [⟨.inl hx, hxu⟩, ⟨.inr hx, hxu⟩]
    · obtain ⟨he, rfl⟩ := Vhci.findUrb_mem he
      refine h.unlink hu₁ fun x hx => ?_
      simp only [Vhci.Live, hr₁.mem_listMoveTail (Vhci.mem_allUrbps_of_mem he)] at hx
      rcases hx with (⟨hx, hxu⟩ | ⟨hk, -⟩) | (⟨hx, hxu⟩ | ⟨hk, -⟩)
      exacts [⟨.inl hx, hxu⟩, (nomatch hk), ⟨.inr hx, hxu⟩, (nomatch hk)]
    · refine h.unlink hu₁ fun x hx => ⟨hx, fun hxu => ?_⟩
      rcases hx with hx | hx
      exacts [Vhci.findUrb_eq_none.1 hi x hx hxu, Vhci.findUrb_eq_none.1 hf x hx hxu]
  | fetchWorkWait => exact h
  | fetchWork hf =>
    refine UnlinkInv.of_vhc_urbs ?_ (Sys.parkFetcher_vhc _ _) (Sys.parkFetcher_urbs _ _)
    rcases iocFetchWorkLocked_cases hf with ⟨e, rest, hc, rfl, -⟩ | ⟨-, w, -, rfl, -⟩ | ⟨-, -, hr⟩
    · exact h.moveTail (.inr ⟨by decide, by decide⟩)
    · exact h.of_live fun x hx => ⟨by simpa [Vhci.Live] using hx, rfl⟩
    · have h₁ : UnlinkInv { s with vhc := (fetchWorkPorts s.vhc).1 } :=
        h.of_live fun x hx => ⟨by simpa [Vhci.Live] using hx, rfl⟩
      exact h₁.fetchWorkRepeat hr
  | fetchWorkRepeat _ hr =>
    refine UnlinkInv.of_vhc_urbs ?_ (Sys.parkFetcher_vhc _ _) (Sys.parkFetcher_urbs _ _)
    have h₁ : UnlinkInv { s with fetchers := s.fetchers - 1 } := h.of_vhc_urbs rfl rfl
    exact h₁.fetchWorkRepeat hr
  | giveback a hg =>
    rcases iocGivebackCommon_cases hg with ⟨-, rfl, -⟩ |
      ⟨e, rv, isIn, -, -, ⟨err, -, rfl, -⟩ | ⟨-, -, rfl, -⟩⟩
    · exact h
    · exact h.giveback e
    · have h₁ : UnlinkInv (s.updUrb e.urb (givebackApply · a)) := h.updUrb fun _ => rfl
      exact h₁.giveback _
  | fetchData a hd =>
    rcases iocFetchDataCommon_cases hd with ⟨e, -, rfl, -⟩ | ⟨-, e, -, rfl, -⟩ | ⟨-, -, rfl, -⟩
    exacts [h, h.giveback e, h]
  | hcdRemove _ hr' =>
    obtain ⟨k, e, -, rfl, -⟩ := hcdRemoveStep_some hr'
    exact (h.giveback _).of_vhc_urbs rfl rfl
  | hcdRemoveDone => exact h.of_vhc_urbs rfl rfl
  | hubControl _ _ _ _ _ _ _ hc => exact h.of_hubWrite (vhciHubControl_hubWrite hc)
  | portStat _ _ _ hp => exact h.of_hubWrite (iocPortStat_hubWrite hp)
  | busSuspend => exact h.of_hubWrite (vhciBusSuspend_hubWrite _)
  | busResume _ hb => exact h.of_hubWrite (vhciBusResume_hubWrite hb)
  | hubStatus => exact h

theorem unlinkInv_of_reachable {conf : VhciConf} (h : Reachable conf s) : UnlinkInv s :=
  Reachable.induction (UnlinkInv.init conf)
    (fun _ _ _ hs hi hst => hst.unlinkInv (registryInv_of_reachable hs) hi) h

/-- Once the usb core has accepted an urb's unlink, the worker is never served that urb: in every
reachable state, no call of `ioc_fetch_work` hands it out as `PROCESS_URB`, `ioc_giveback_common`
on its handle does not return `0`, and `ioc_fetch_data_common` on its handle returns `-ECANCELED`
or `-ENOENT`. -/
theorem unlinked_urb_never_served {conf : VhciConf} (h : Reachable conf s) {u : Nat}
    (hu : (s.urbs u).unlinked ≠ 0) :
    (∀ l s', Step s l s' → u ∉ l.processed) ∧
    (∀ a s' r, a.handle = u → iocGivebackCommon s a = some (s', r) → r.retval ≠ 0) ∧
    (∀ d s' r, d.handle = u → iocFetchDataCommon s d = some (s', r) →
      r.retval = -ECANCELED ∨ r.retval = -ENOENT) := by
  have hi := unlinkInv_of_reachable h
  have hlive : ∀ e, s.vhc.Live e → e.urb ≠ u := fun e he heu => hu (heu ▸ hi e he)
  refine ⟨fun l s' hs hp => ?_, fun a s' r ha hg => ?_, fun d s' r hd hf => ?_⟩
  · have hen : l.enqueued = [] := by
      cases l <;> simp_all [Label.processed, Label.enqueued]
    have hsub := ((hs.keepsOrder (registryInv_of_reachable h)).1.subset
      (List.mem_append_left _ hp))
    simp only [hen, List.append_nil, Vhci.urbsOf, List.mem_map] at hsub
    obtain ⟨e, he, rfl⟩ := hsub
    exact hlive e (.inl he) rfl
  · rcases iocGivebackCommon_cases hg with ⟨-, -, rfl⟩ | ⟨e, rv, isIn, hl, -, hcase⟩
    · decide
    obtain ⟨heu, ⟨hf, -⟩ | ⟨-, rfl⟩⟩ := givebackLookup_some hl
    · exact absurd (heu.trans ha) (hlive e (.inr hf))
    rcases hcase with ⟨err, ⟨hc, -⟩ | ⟨-, hc, -⟩, -, hr, -⟩ | ⟨-, -, -, rfl⟩
    · rcases givebackLengthCheck_err hc with rfl | rfl | rfl <;> rw [hr] <;> decide
    · rcases givebackDataStage_err hc with rfl | rfl <;> rw [hr] <;> decide
    · exact (by decide : -ECANCELED ≠ (0 : Int))
  · rcases iocFetchDataCommon_cases hf with ⟨e, he, -⟩ | ⟨-, -, -, -, rfl⟩ | ⟨-, -, -, rfl⟩
    · obtain ⟨he, heu⟩ := Vhci.findUrb_mem he
      exact absurd (heu.trans hd) (hlive e (.inr he))
    · exact .inl rfl
    · exact .inr rfl

/-- A bulk OUT urb is handed to the worker, and the usb core then unlinks it: the dequeue moves
it to `urbp_list_cancel`, and the worker is not served it any more. -/
theorem unlinked_urb_never_served_canceled :
    let s₀ : Sys := Sys.init ⟨1, by decide⟩
    let s₁ := (vhciUrbEnqueue (s₀.updUrb 5 (usbSubmitUrb ·
      { (default : Urb) with pipe := ⟨.bulk, false, 1, 1⟩ })) 5 (some 100) 0).1
    let s₂ := (iocFetchWorkLocked s₁).1
    let s₃ : Sys := (vhciUrbDequeue s₂ 5 (-ENOENT)).1
    Reachable ⟨1, by decide⟩ s₃ ∧ s₃.vhc.urbpList .cancel = [⟨5, 100, 0⟩] ∧
    (s₃.urbs 5).unlinked ≠ 0 ∧
    (∀ l s', Step s₃ l s' → 5 ∉ l.processed) ∧
    (∀ a s' r, a.handle = 5 → iocGivebackCommon s₃ a = some (s', r) → r.retval ≠ 0) ∧
    (∀ d s' r, d.handle = 5 → iocFetchDataCommon s₃ d = some (s', r) →
      r.retval = -ECANCELED ∨ r.retval = -ENOENT) :=
  have hr : Reachable ⟨1, by decide⟩ _ := ⟨_, (((Run.nil _).snoc
    (Step.urbEnqueue_init 5 { (default : Urb) with pipe := ⟨.bulk, false, 1, 1⟩ } 100 0 (by decide))).snoc
    (Step.fetchWork rfl)).snoc (Step.urbDequeue 5 (-ENOENT) (by rfl) (by decide))⟩
  ⟨hr, rfl, by decide, unlinked_urb_never_served hr (by decide)⟩

end VhciHcd
