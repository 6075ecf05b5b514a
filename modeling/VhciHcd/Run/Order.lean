import VhciHcd.Run.Lifecycle

/-!
# Submission order

`list_add_tail` appends, `list_move_tail` appends to its target list, and `list_del` unlinks one
entry, so a step leaves on each list a sublist of what was there, followed by at most one entry
from another list or fresh from `kzalloc` (`Step.keepsEntries`). On the inbox and on
`urbp_list_cancel` this gives the orders the worker sees: `Step.keepsOrder` counts the urbs a step
hands out at the front of what is left on the list, and `Run.keepsOrder` sums it up over a run.
So the `PROCESS_URB` units follow the order of submission, and the `CANCEL_URB` units the order
of the dequeues that asked for them.
-/

namespace VhciHcd

/-- The urbs of list `k`, oldest first. -/
def Vhci.urbsOf (v : Vhci) (k : UrbpList) : List Nat := (v.urbpList k).map (·.urb)

/-- The urb of the `PROCESS_URB` unit a section of `ioc_fetch_work` hands out. -/
def FetchWorkOutcome.processed : FetchWorkOutcome → List Nat
  | .done _ (some (.processUrb u _)) => [u]
  | _ => []

/-- The urb of the `CANCEL_URB` unit a section of `ioc_fetch_work` hands out. -/
def FetchWorkOutcome.canceled : FetchWorkOutcome → List Nat
  | .done _ (some (.cancelUrb u)) => [u]
  | _ => []

/-- The urb of the `PROCESS_URB` unit a call hands out. -/
def Label.processed : Label → List Nat
  | .fetchWork o => o.processed
  | .fetchWorkRepeat o => o.processed
  | _ => []

/-- The urb of the `CANCEL_URB` unit a call hands out. -/
def Label.canceled : Label → List Nat
  | .fetchWork o => o.canceled
  | .fetchWorkRepeat o => o.canceled
  | _ => []

/-- The urb a successful `vhci_urb_enqueue` queues. -/
def Label.enqueued : Label → List Nat
  | .urbEnqueue u r => if r = 0 then [u] else []
  | _ => []

/-- The urb a step of `vhci_urb_dequeue` moves from `urbp_list_fetched` to `urbp_list_cancel`. -/
def cancelRequest (x : Sys × Label × Sys) : List Nat :=
  match x.2.1 with
  | .urbDequeue u _ _ =>
    if x.1.vhc.location u = some .fetched ∧ x.2.2.vhc.location u = some .cancel then [u] else []
  | _ => []

/-! ## The list operations -/

/-- List `k` after a step: a sublist of the entries it held, in their order, then at most one
entry that was not on it. -/
def KeepsEntries (v v' : Vhci) (k : UrbpList) : Prop :=
  ∃ (kept : List VhciUrbPriv) (added : Option VhciUrbPriv), kept.Sublist (v.urbpList k) ∧
    (∀ e ∈ added, e ∉ v.urbpList k) ∧ v'.urbpList k = kept ++ added.toList

namespace Vhci

theorem keepsEntries_of_eq {v v' : Vhci} (h : ∀ k, v'.urbpList k = v.urbpList k) (k : UrbpList) :
    KeepsEntries v v' k :=
  ⟨_, none, .refl _, nofun, by simp [h k]⟩

theorem keepsEntries_listDel (v : Vhci) (a : Nat) (k : UrbpList) :
    KeepsEntries v (v.listDel a) k :=
  ⟨(v.urbpList k).filter (·.addr != a), none, List.filter_sublist _, nofun, by simp⟩

/-- Appending to list `k` an entry that is not on it. -/
theorem keepsEntries_listAddTail (v : Vhci) {e : VhciUrbPriv} {k : UrbpList}
    (he : e ∉ v.urbpList k) (k' : UrbpList) : KeepsEntries v (v.listAddTail e k) k' := by
  by_cases hk : k' = k
  · subst hk
    exact ⟨_, some e, .refl _, fun _ h => Option.mem_some_iff.1 h ▸ he, by simp⟩
  · exact ⟨_, none, .refl _, nofun, by simp [hk]⟩

/-- Moving to the tail of list `k` an entry that is not on it. -/
theorem keepsEntries_listMoveTail (v : Vhci) {e : VhciUrbPriv} {k : UrbpList}
    (he : e ∉ v.urbpList k) (k' : UrbpList) : KeepsEntries v (v.listMoveTail e k) k' := by
  by_cases hk : k' = k
  · subst hk
    exact ⟨(v.urbpList k').filter (·.addr != e.addr), some e, List.filter_sublist _,
      fun _ h => Option.mem_some_iff.1 h ▸ he, by simp [listMoveTail]⟩
  · exact ⟨(v.urbpList k').filter (·.addr != e.addr), none, List.filter_sublist _, nofun,
      by simp [listMoveTail, hk]⟩

theorem urbsOf_of_eq {v v' : Vhci} (h : ∀ k, v'.urbpList k = v.urbpList k) (k : UrbpList) :
    v'.urbsOf k = v.urbsOf k := by
  simp only [urbsOf, h k]

theorem urbsOf_listDel_sublist (v : Vhci) (a : Nat) (k : UrbpList) :
    ((v.listDel a).urbsOf k).Sublist (v.urbsOf k) := by
  simp only [urbsOf, urbpList_listDel]
  exact (List.filter_sublist _).map _

@[simp] theorem urbsOf_listAddTail (v : Vhci) (e : VhciUrbPriv) (k k' : UrbpList) :
    (v.listAddTail e k).urbsOf k' = v.urbsOf k' ++ if k' = k then [e.urb] else [] := by
  simp only [urbsOf, urbpList_listAddTail]
  split_ifs <;> simp

theorem urbsOf_listMoveTail_sublist (v : Vhci) (e : VhciUrbPriv) (k k' : UrbpList) :
    ((v.listMoveTail e k).urbsOf k').Sublist (v.urbsOf k' ++ if k' = k then [e.urb] else []) := by
  simp only [urbsOf, listMoveTail, urbpList_listAddTail, urbpList_listDel]
  split_ifs
  · simpa using ((List.filter_sublist _).map _).append_right [e.urb]
  · simpa using (List.filter_sublist _).map _

/-- Moving the head of list `k` elsewhere hands it out in front of the rest of `k`. -/
theorem urbsOf_listMoveTail_head {v : Vhci} {e : VhciUrbPriv} {rest : List VhciUrbPriv}
    {k k' : UrbpList} (hv : v.urbpList k = e :: rest) (hk : k' ≠ k) :
    (e.urb :: (v.listMoveTail e k').urbsOf k).Sublist (v.urbsOf k) := by
  simp only [urbsOf, listMoveTail, urbpList_listAddTail, Ne.symm hk, if_false, urbpList_listDel,
    hv, List.filter_cons, bne_self_eq_false, Bool.false_eq_true, List.map_cons]
  exact ((List.filter_sublist _).map _).cons_cons _

end Vhci

theorem vhciUrbGiveback_urbsOf_sublist (s : Sys) (e : VhciUrbPriv) (k : UrbpList) :
    ((vhciUrbGiveback s e).1.vhc.urbsOf k).Sublist (s.vhc.urbsOf k) :=
  Vhci.urbsOf_listDel_sublist _ _ _

theorem KeepsEntries.of_urbpList_eq {v v₁ v' : Vhci} {k : UrbpList}
    (h : ∀ k, v₁.urbpList k = v.urbpList k) (hk : KeepsEntries v₁ v' k) : KeepsEntries v v' k := by
  simpa only [KeepsEntries, h k] using hk

/-- An entry at an address no listed entry has is on no list. -/
theorem Vhci.not_mem_urbpList_of_addr {v : Vhci} {e : VhciUrbPriv}
    (ha : e.addr ∉ v.allUrbps.map (·.addr)) (k : UrbpList) : e ∉ v.urbpList k :=
  fun he => ha (List.mem_map_of_mem _ (Vhci.mem_allUrbps_of_mem he))

variable {s s' : Sys}

/-- An entry of one list is on no other. -/
theorem RegistryInv.not_mem_urbpList (h : RegistryInv s) {e : VhciUrbPriv} {k k' : UrbpList}
    (he : e ∈ s.vhc.urbpList k) (hk : k ≠ k') : e ∉ s.vhc.urbpList k' :=
  fun he' => hk (Vhci.eq_of_mem_urbpList (List.Nodup.of_map _ h.nodup_urb) he he')

/-- A pass through `repeat:` keeps each list so. -/
theorem RegistryInv.fetchWorkRepeat_keepsEntries (h : RegistryInv s) {o : FetchWorkOutcome}
    (hr : fetchWorkRepeat s = (s', o)) (k : UrbpList) : KeepsEntries s.vhc s'.vhc k := by
  rcases fetchWorkRepeat_cases hr with ⟨-, rfl, -⟩ | ⟨e, rest, hi, ⟨len, -, rfl, -⟩ | ⟨-, rfl, -⟩⟩
  · exact Vhci.keepsEntries_of_eq (fun _ => rfl) k
  · exact Vhci.keepsEntries_listMoveTail _
      (h.not_mem_urbpList (hi ▸ List.mem_cons_self _ _) (by decide)) k
  · exact Vhci.keepsEntries_listDel _ _ _

/-- Every step leaves on each of the four lists a sublist of the entries it held, in their order,
followed by at most one entry that was not on it: the fresh entry of `vhci_urb_enqueue`, or one
moved over from another list. -/
theorem Step.keepsEntries {l : Label} (hs : Step s l s') (h : RegistryInv s) (k : UrbpList) :
    KeepsEntries s.vhc s'.vhc k := by
  cases hs with
  | urbEnqueue u req alloc linkRet _ _ halloc he =>
    rcases vhciUrbEnqueue_cases he with ⟨rfl, -⟩ | ⟨addr, rfl, -, -, rfl⟩
    · exact Vhci.keepsEntries_of_eq (fun _ => rfl) k
    · exact Vhci.keepsEntries_listAddTail _ (Vhci.not_mem_urbpList_of_addr (halloc addr rfl) _) _
  | urbDequeue u status hd =>
    rcases vhciUrbDequeue_cases hd with ⟨rfl, -⟩ | ⟨s₁, hc, -, hd⟩
    · exact Vhci.keepsEntries_of_eq (fun _ => rfl) k
    obtain ⟨-, -, rfl⟩ := usbHcdCheckUnlinkUrb_ok.1 hc
    rcases hd with ⟨e, -, rfl, -⟩ | ⟨-, e, he, rfl, -⟩ | ⟨-, -, rfl, -⟩
    · exact Vhci.keepsEntries_listDel _ _ _
    · exact Vhci.keepsEntries_listMoveTail _
        (h.not_mem_urbpList (Vhci.findUrb_mem he).1 (by decide)) k
    · exact Vhci.keepsEntries_of_eq (fun _ => rfl) k
  | fetchWorkWait => exact Vhci.keepsEntries_of_eq (fun _ => rfl) k
  | fetchWork hf =>
    rw [Sys.parkFetcher_vhc]
    rcases iocFetchWorkLocked_cases hf with ⟨e, rest, hc, rfl, -⟩ | ⟨-, w, -, rfl, -⟩ | ⟨-, -, hr⟩
    · exact Vhci.keepsEntries_listMoveTail _
        (h.not_mem_urbpList (hc ▸ List.mem_cons_self _ _) (by decide)) k
    · exact Vhci.keepsEntries_of_eq (by simp) k
    · exact (h.of_fetchWorkPorts.fetchWorkRepeat_keepsEntries hr k).of_urbpList_eq (by simp)
  | fetchWorkRepeat _ hr =>
    rw [Sys.parkFetcher_vhc]
    have h₁ : RegistryInv { s with fetchers := s.fetchers - 1 } := h.of_vhc_urbs rfl rfl
    exact h₁.fetchWorkRepeat_keepsEntries hr k
  | giveback a hg =>
    rcases iocGivebackCommon_cases hg with ⟨-, rfl, -⟩ | ⟨e, rv, isIn, -, -, ⟨err, -, rfl, -⟩ | ⟨-, -, rfl, -⟩⟩
    · exact Vhci.keepsEntries_of_eq (fun _ => rfl) k
    · exact Vhci.keepsEntries_listDel _ _ _
    · exact Vhci.keepsEntries_listDel _ _ _
  | fetchData a hd =>
    rcases iocFetchDataCommon_cases hd with ⟨e, -, rfl, -⟩ | ⟨-, e, -, rfl, -⟩ | ⟨-, -, rfl, -⟩
    · exact Vhci.keepsEntries_of_eq (fun _ => rfl) k
    · exact Vhci.keepsEntries_listDel _ _ _
    · exact Vhci.keepsEntries_of_eq (fun _ => rfl) k
  | hcdRemove _ hr =>
    obtain ⟨k', e, -, rfl, -⟩ := hcdRemoveStep_some hr
    exact Vhci.keepsEntries_listDel _ _ _
  | hcdRemoveDone => exact Vhci.keepsEntries_of_eq (fun _ => rfl) k
  | hubControl _ _ _ _ _ _ _ hc => exact Vhci.keepsEntries_of_eq (vhciHubControl_hubWrite hc).urbpList k
  | portStat _ _ _ hp => exact Vhci.keepsEntries_of_eq (iocPortStat_hubWrite hp).urbpList k
  | busSuspend => exact Vhci.keepsEntries_of_eq (vhciBusSuspend_hubWrite _).urbpList k
  | busResume _ hr => exact Vhci.keepsEntries_of_eq (vhciBusResume_hubWrite hr).urbpList k
  | hubStatus => exact Vhci.keepsEntries_of_eq (fun _ => rfl) k

/-! ## The inbox and the cancel list -/

/-- What a step does to the inbox and to `urbp_list_cancel`: the urbs it hands out and those left
on the list, in this order, are a sublist of those that were there and those it adds. -/
def KeepsOrder (s : Sys) (l : Label) (s' : Sys) : Prop :=
  (l.processed ++ s'.vhc.urbsOf .inbox).Sublist (s.vhc.urbsOf .inbox ++ l.enqueued) ∧
  (l.canceled ++ s'.vhc.urbsOf .cancel).Sublist (s.vhc.urbsOf .cancel ++ cancelRequest (s, l, s'))

/-- A step that hands no urb out and only unlinks entries. -/
theorem keepsOrder_of_sublist {l : Label} (hp : l.processed = []) (hc : l.canceled = [])
    (h : ∀ k, (s'.vhc.urbsOf k).Sublist (s.vhc.urbsOf k)) : KeepsOrder s l s' := by
  rw [KeepsOrder, hp, hc]
  exact ⟨(h _).trans (List.sublist_append_left _ _), (h _).trans (List.sublist_append_left _ _)⟩

theorem keepsOrder_of_eq {l : Label} (hp : l.processed = []) (hc : l.canceled = [])
    (h : ∀ k, s'.vhc.urbpList k = s.vhc.urbpList k) : KeepsOrder s l s' :=
  keepsOrder_of_sublist hp hc fun k => by rw [Vhci.urbsOf_of_eq h]

/-- A pass through `repeat:` hands out the inbox's head, if any, in front of the rest. -/
theorem fetchWorkRepeat_keepsOrder {o : FetchWorkOutcome} (hr : fetchWorkRepeat s = (s', o)) :
    (o.processed ++ s'.vhc.urbsOf .inbox).Sublist (s.vhc.urbsOf .inbox) ∧
    (s'.vhc.urbsOf .cancel).Sublist (s.vhc.urbsOf .cancel) ∧ o.canceled = [] := by
  rcases fetchWorkRepeat_cases hr with ⟨-, rfl, rfl⟩ | ⟨e, rest, hi, ⟨len, -, rfl, rfl⟩ | ⟨-, rfl, rfl⟩⟩
  · exact ⟨.refl _, .refl _, rfl⟩
  · refine ⟨Vhci.urbsOf_listMoveTail_head hi (by decide), ?_, rfl⟩
    simpa using Vhci.urbsOf_listMoveTail_sublist s.vhc e .fetched .cancel
  · exact ⟨vhciUrbGiveback_urbsOf_sublist _ _ _, vhciUrbGiveback_urbsOf_sublist _ _ _, rfl⟩

/-- Every step keeps the order of the inbox and of the cancel list. -/
theorem Step.keepsOrder {l : Label} (hs : Step s l s') (h : RegistryInv s) : KeepsOrder s l s' := by
  cases hs with
  | urbEnqueue u req alloc linkRet _ _ _ he =>
    rcases vhciUrbEnqueue_cases he with ⟨rfl, -⟩ | ⟨addr, -, rfl, -, rfl⟩
    · exact keepsOrder_of_eq rfl rfl fun _ => rfl
    · exact ⟨by simp [Label.processed, Label.enqueued],
        by simp [Label.canceled]⟩
  | @urbDequeue _ r g u status hd =>
    rcases vhciUrbDequeue_cases hd with ⟨rfl, -⟩ | ⟨s₁, hc, -, hd⟩
    · exact keepsOrder_of_eq rfl rfl fun _ => rfl
    obtain ⟨-, -, rfl⟩ := usbHcdCheckUnlinkUrb_ok.1 hc
    rcases hd with ⟨e, -, rfl, -⟩ | ⟨-, e, he, rfl, -⟩ | ⟨-, -, rfl, -⟩
    · exact keepsOrder_of_sublist rfl rfl (vhciUrbGiveback_urbsOf_sublist _ _)
    · obtain ⟨he, rfl⟩ := Vhci.findUrb_mem he
      refine ⟨by simpa [Label.processed, Label.enqueued] using
        Vhci.urbsOf_listMoveTail_sublist s.vhc e .cancel .inbox, ?_⟩
      simpa [Label.canceled, cancelRequest, h.location_of_mem he,
        h.location_listMoveTail (Vhci.mem_allUrbps_of_mem he)] using
        Vhci.urbsOf_listMoveTail_sublist s.vhc e .cancel .cancel
    · exact keepsOrder_of_eq rfl rfl fun _ => rfl
  | fetchWorkWait => exact keepsOrder_of_eq rfl rfl fun _ => rfl
  | fetchWork hf =>
    rcases iocFetchWorkLocked_cases hf with ⟨e, rest, hc, rfl, rfl⟩ | ⟨-, w, hw, rfl, rfl⟩ | ⟨-, -, hr⟩
    · exact ⟨by simpa [Label.processed, FetchWorkOutcome.processed, Label.enqueued] using
          Vhci.urbsOf_listMoveTail_sublist s.vhc e .canceling .inbox,
        by simpa [Label.canceled, FetchWorkOutcome.canceled, cancelRequest] using
          Vhci.urbsOf_listMoveTail_head hc (show UrbpList.canceling ≠ .cancel by decide)⟩
    · obtain ⟨port, rfl⟩ := fetchWorkPorts_snd hw
      exact keepsOrder_of_eq rfl rfl fun k => by simp
    · have hv : ∀ k, (fetchWorkPorts s.vhc).1.urbsOf k = s.vhc.urbsOf k :=
        Vhci.urbsOf_of_eq (by simp)
      obtain ⟨h₁, h₂, h₃⟩ := fetchWorkRepeat_keepsOrder hr
      simp only [hv] at h₁ h₂
      exact ⟨by simpa [Label.processed, Label.enqueued] using h₁,
        by simpa [Label.canceled, h₃] using h₂.trans (List.sublist_append_left _ _)⟩
  | fetchWorkRepeat _ hr =>
    obtain ⟨h₁, h₂, h₃⟩ := fetchWorkRepeat_keepsOrder hr
    exact ⟨by simpa [Label.processed, Label.enqueued] using h₁,
      by simpa [Label.canceled, h₃] using h₂.trans (List.sublist_append_left _ _)⟩
  | giveback a hg =>
    rcases iocGivebackCommon_cases hg with ⟨-, rfl, -⟩ | ⟨e, rv, isIn, -, -, ⟨err, -, rfl, -⟩ | ⟨-, -, rfl, -⟩⟩
    · exact keepsOrder_of_eq rfl rfl fun _ => rfl
    · exact keepsOrder_of_sublist rfl rfl (vhciUrbGiveback_urbsOf_sublist _ _)
    · exact keepsOrder_of_sublist rfl rfl (vhciUrbGiveback_urbsOf_sublist _ _)
  | fetchData a hd =>
    rcases iocFetchDataCommon_cases hd with ⟨e, -, rfl, -⟩ | ⟨-, e, -, rfl, -⟩ | ⟨-, -, rfl, -⟩
    · exact keepsOrder_of_eq rfl rfl fun _ => rfl
    · exact keepsOrder_of_sublist rfl rfl (vhciUrbGiveback_urbsOf_sublist _ _)
    · exact keepsOrder_of_eq rfl rfl fun _ => rfl
  | hcdRemove _ hr =>
    obtain ⟨k', e, -, rfl, -⟩ := hcdRemoveStep_some hr
    exact keepsOrder_of_sublist rfl rfl fun k => Vhci.urbsOf_listDel_sublist _ _ _
  | hcdRemoveDone => exact keepsOrder_of_eq rfl rfl fun _ => rfl
  | hubControl _ _ _ _ _ _ _ hc => exact keepsOrder_of_eq rfl rfl (vhciHubControl_hubWrite hc).urbpList
  | portStat _ _ _ hp => exact keepsOrder_of_eq rfl rfl (iocPortStat_hubWrite hp).urbpList
  | busSuspend => exact keepsOrder_of_eq rfl rfl (vhciBusSuspend_hubWrite _).urbpList
  | busResume _ hr => exact keepsOrder_of_eq rfl rfl (vhciBusResume_hubWrite hr).urbpList
  | hubStatus => exact keepsOrder_of_eq rfl rfl fun _ => rfl

/-- Over a run from `vhci_start`, the urbs handed out as `PROCESS_URB` and then those still in the
inbox form a sublist of the urbs queued, and the urbs handed out as `CANCEL_URB` and then those
still in `urbp_list_cancel` a sublist of the cancel requests. -/
theorem Run.keepsOrder {conf : VhciConf} {ts : List (Sys × Label × Sys)}
    (hr : Run (Sys.init conf) ts s) :
    (ts.flatMap (·.2.1.processed) ++ s.vhc.urbsOf .inbox).Sublist (ts.flatMap (·.2.1.enqueued)) ∧
    (ts.flatMap (·.2.1.canceled) ++ s.vhc.urbsOf .cancel).Sublist (ts.flatMap cancelRequest) := by
  induction hr with
  | nil => exact ⟨.slnil, .slnil⟩
  | snoc hr hs ih =>
    obtain ⟨h₁, h₂⟩ := hs.keepsOrder (registryInv_of_reachable ⟨_, hr⟩)
    simp only [List.flatMap_append, List.flatMap_cons, List.flatMap_nil, List.append_nil,
      List.append_assoc]
    exact ⟨(h₁.append_left _).trans (by rw [← List.append_assoc]; exact ih.1.append_right _),
      (h₂.append_left _).trans (by rw [← List.append_assoc]; exact ih.2.append_right _)⟩

/-- In every run, the `PROCESS_URB` units follow the order of the successful submissions and the
`CANCEL_URB` units the order of the dequeues that moved an urb to `urbp_list_cancel`; and every
step keeps the relative order of the entries it leaves on each list, adding at most one entry,
at the tail. -/
theorem submission_order_of_run {conf : VhciConf} {ts : List (Sys × Label × Sys)}
    (hr : Run (Sys.init conf) ts s) :
    (ts.flatMap (·.2.1.processed)).Sublist (ts.flatMap (·.2.1.enqueued)) ∧
    (ts.flatMap (·.2.1.canceled)).Sublist (ts.flatMap cancelRequest) ∧
    ∀ x ∈ ts, ∀ k, KeepsEntries x.1.vhc x.2.2.vhc k :=
  ⟨(List.sublist_append_left _ _).trans hr.keepsOrder.1,
    (List.sublist_append_left _ _).trans hr.keepsOrder.2,
    fun _ hx => (hr.step_of_mem hx).2.keepsEntries
      (registryInv_of_reachable (hr.step_of_mem hx).1)⟩

/-- A run of two steps: the usb core queues a bulk urb, and `ioc_fetch_work` hands it out. -/
theorem submission_order_of_run_fetch :
    let s₀ := Sys.init ⟨1, by decide⟩
    let s₁ := (vhciUrbEnqueue (s₀.updUrb 5 (usbSubmitUrb ·
      { (default : Urb) with pipe := ⟨.bulk, false, 1, 1⟩ })) 5 (some 100) 0).1
    let ts := [(s₀, Label.urbEnqueue 5 0, s₁),
      (s₁, .fetchWork (iocFetchWorkLocked s₁).2, (iocFetchWorkLocked s₁).1)]
    Run s₀ ts (iocFetchWorkLocked s₁).1 ∧
    (ts.flatMap (·.2.1.processed)).Sublist (ts.flatMap (·.2.1.enqueued)) ∧
    (ts.flatMap (·.2.1.canceled)).Sublist (ts.flatMap cancelRequest) ∧
    ∀ x ∈ ts, ∀ k, KeepsEntries x.1.vhc x.2.2.vhc k :=
  have hr : Run (Sys.init ⟨1, by decide⟩) _ _ := ((Run.nil _).snoc
    (Step.urbEnqueue_init 5 { (default : Urb) with pipe := ⟨.bulk, false, 1, 1⟩ } 100 0
      (by decide))).snoc (Step.fetchWork rfl)
  ⟨hr, submission_order_of_run hr⟩

end VhciHcd
