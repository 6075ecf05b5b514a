import VhciHcd.Run.Wakeup
import VhciHcd.Run.Dispatch
import VhciHcd.Run.Completion

/-!
# The worker can always finish

No urb and no port change gets stuck at the controller: from every reachable state, the worker
alone, by fetching work and giving urbs back, empties the four lists and takes every pending
port change (`Reachable.worker_drains`), giving back each urb still outstanding exactly once
(`worker_finishes`). It gives back the urbs it already holds by their handles
(`ioc_giveback_common` finds every urb of `fetched`, `cancel` and `canceling` and, by the checks
of `UrbsOk`, never faults on one), then takes the port changes, which `ioc_fetch_work` hands out
before the inbox, then fetches the inbox urb by urb and gives each back.

Each of these calls lowers the work left (`Vhci.workLeft`, a fetch and a give-back for each
urb of the inbox and a give-back for each urb the worker holds) or, leaving it as it is, the
pending port bits.

With no port bit pending, `UpdateInv` says that the worker has heard the registers of every
port as they are, so the worker can always bring its view of the ports up to date
(`worker_view_catches_up`).
-/

namespace VhciHcd

/-- The calls the worker makes through its ioctls. -/
def Label.worker : Label → Bool
  | .fetchWorkWait _ | .fetchWork _ | .fetchWorkRepeat _ | .giveback _ _ | .fetchData _ _
  | .portStat _ _ _ _ => true
  | _ => false

theorem Label.enqueued_of_worker {l : Label} (h : l.worker = true) : l.enqueued = [] := by
  cases l <;> first | rfl | cases h

/-- The work left to the worker: a fetch and a give-back for each urb of the inbox, and a
give-back for each urb it holds. -/
def Vhci.workLeft (v : Vhci) : Nat :=
  2 * (v.urbpList .inbox).length + (v.urbpList .fetched).length + (v.urbpList .cancel).length +
    (v.urbpList .canceling).length

/-- Taking a listed entry off its list lowers the work left. -/
theorem Vhci.workLeft_filter {v v' : Vhci} {k : UrbpList} {e : VhciUrbPriv}
    (he : e ∈ v.urbpList k) (h : ∀ k, v'.urbpList k = (v.urbpList k).filter (·.addr != e.addr)) :
    v'.workLeft < v.workLeft := by
  have hlt : ((v.urbpList k).filter (·.addr != e.addr)).length < (v.urbpList k).length :=
    List.length_filter_lt_length_iff_exists.2 ⟨e, he, by simp⟩
  have hle : ∀ k', ((v.urbpList k').filter (·.addr != e.addr)).length ≤ (v.urbpList k').length :=
    fun _ => List.length_filter_le _ _
  have := hle .inbox
  have := hle .fetched
  have := hle .cancel
  have := hle .canceling
  simp only [Vhci.workLeft, h]
  cases k <;> omega

/-- Handing an inbox urb to the worker lowers the work left. -/
theorem Vhci.workLeft_listMoveTail {v : Vhci} {e : VhciUrbPriv} (he : e ∈ v.urbpList .inbox) :
    (v.listMoveTail e .fetched).workLeft < v.workLeft := by
  have hlt : ((v.urbpList .inbox).filter (·.addr != e.addr)).length <
      (v.urbpList .inbox).length :=
    List.length_filter_lt_length_iff_exists.2 ⟨e, he, by simp⟩
  have hle : ∀ k', ((v.urbpList k').filter (·.addr != e.addr)).length ≤ (v.urbpList k').length :=
    fun _ => List.length_filter_le _ _
  have := hle .fetched
  have := hle .cancel
  have := hle .canceling
  simp only [Vhci.workLeft, Vhci.listMoveTail, Vhci.urbpList_listAddTail, Vhci.urbpList_listDel,
    reduceCtorEq, if_false, if_true, List.length_append, List.length_singleton]
  omega

/-- Clearing a set bit lowers the value of `port_update`. -/
theorem toNat_and_not_twoPow_lt {x : BitVec 32} {p : Nat} (h : x.getLsbD p) :
    (x &&& ~~~BitVec.twoPow 32 p).toNat < x.toNat := by
  have hle : (x &&& ~~~BitVec.twoPow 32 p).toNat ≤ x.toNat := by
    rw [BitVec.toNat_and]
    exact Nat.and_le_left
  refine lt_of_le_of_ne hle fun heq => ?_
  have hb := (getLsbD_and_not_twoPow x p p).1
  rw [BitVec.eq_of_toNat_eq heq] at hb
  exact (hb h).2 rfl

variable {s : Sys}

/-- The worker gives back an urb it holds by its (non-`NULL`) handle: the call finds it, and takes
it off. -/
theorem UrbsOk.giveback_step (h : UrbsOk s) {k : UrbpList} (hk : k ≠ .inbox) {e : VhciUrbPriv}
    (he : e ∈ s.vhc.urbpList k) (h0 : e.urb ≠ 0) :
    ∃ r s', Step s (.giveback ⟨e.urb, 0, ⟨0, by decide⟩, 0, 0, 0, 0, true, true, []⟩ r) s' ∧
      s'.vhc.workLeft < s.vhc.workLeft ∧ s'.vhc.portUpdate = s.vhc.portUpdate := by
  obtain ⟨⟨s', r⟩, hg, -⟩ := h.giveback_copy ⟨e.urb, 0, ⟨0, by decide⟩, 0, 0, 0, 0, true, true, []⟩
  have heff := iocGivebackCommon_effect hg
  have hin : e ∈ s.vhc.urbpList .fetched ∨ e ∈ s.vhc.urbpList .canceling ∨
      e ∈ s.vhc.urbpList .cancel := by
    cases k
    exacts [absurd rfl hk, .inl he, .inr (.inr he), .inr (.inl he)]
  obtain ⟨-, e', -, he', hl, -⟩ := heff.found fun hr => heff.enoent_iff.1 hr e hin rfl
  have hk' : ∃ k, e' ∈ s.vhc.urbpList k := by
    rcases he' with h' | h' | h'
    exacts [⟨_, h'⟩, ⟨_, h'⟩, ⟨_, h'⟩]
  obtain ⟨k', hk'⟩ := hk'
  exact ⟨r, s', .giveback _ hg h0, Vhci.workLeft_filter hk' hl,
    congrArg (fun x => x.2.2.2.2) (iocGivebackCommon_hub hg)⟩

/-- With nothing held, no cancel request and no port change pending, the worker fetches the
head of the inbox: it is handed out or given back, and either way the work left goes down. -/
theorem fetchWork_inbox_step (hc : s.vhc.urbpList .cancel = []) (hu : s.vhc.portUpdate = 0)
    {e : VhciUrbPriv} {rest : List VhciUrbPriv} (hi : s.vhc.urbpList .inbox = e :: rest) :
    ∃ o s', Step s (.fetchWork o) s' ∧ s'.vhc.workLeft < s.vhc.workLeft ∧
      s'.vhc.portUpdate = 0 := by
  have he : e ∈ s.vhc.urbpList .inbox := hi ▸ List.mem_cons_self e rest
  have hp : fetchWorkRepeat s = ((fetchWorkRepeat s).1, (fetchWorkRepeat s).2) := rfl
  have hst := Step.fetchWork ((iocFetchWorkLocked_of_portUpdate hc hu).trans hp)
  have hpu : (fetchWorkRepeat s).1.vhc.portUpdate = 0 := by
    rw [← hu]
    exact congrArg (fun x => x.2.2.2.2) (fetchWorkRepeat_hub hp)
  refine ⟨_, _, hst, ?_, by rw [Sys.parkFetcher_vhc, hpu]⟩
  rw [Sys.parkFetcher_vhc]
  rcases fetchWorkRepeat_cases hp with ⟨hn, -⟩ | ⟨e', rest', hi', ⟨len, -, hs, -⟩ | ⟨-, hs, -⟩⟩
  · rw [hi] at hn; cases hn
  · rw [hi] at hi'
    obtain ⟨rfl, rfl⟩ := List.cons.inj hi'
    rw [hs]
    exact Vhci.workLeft_listMoveTail he
  · rw [hi] at hi'
    obtain ⟨rfl, rfl⟩ := List.cons.inj hi'
    rw [hs, vhciUrbGiveback_vhc, maybeSetStatus_addr]
    exact Vhci.workLeft_filter he fun k => Vhci.urbpList_listDel _ _ k

/-- With no cancel request and a port change pending, the worker fetches a port report: the
lists stay as they are and one bit of `port_update` is cleared. -/
theorem fetchWork_port_step {conf : VhciConf} {ts : List (Sys × Label × Sys)}
    (hr : Run (Sys.init conf) ts s) (hc : s.vhc.urbpList .cancel = []) (hu : s.vhc.portUpdate ≠ 0) :
    ∃ o s', Step s (.fetchWork o) s' ∧ s'.vhc.workLeft = s.vhc.workLeft ∧
      s'.vhc.portUpdate.toNat < s.vhc.portUpdate.toNat := by
  obtain ⟨p, -, -, hb, h⟩ := (UpdateInv.of_run hr).iocFetchWorkLocked hc hu
  exact ⟨_, _, Step.fetchWork h, rfl, toNat_and_not_twoPow_lt hb⟩

/-- From every reachable state the worker alone, fetching work and giving urbs back, reaches a
state with the four lists empty and no port bit pending. -/
theorem Reachable.worker_drains {conf : VhciConf} (h : Reachable conf s) :
    ∃ ts s', Run s ts s' ∧ (∀ x ∈ ts, x.2.1.worker = true) ∧ (∀ k, s'.vhc.urbpList k = []) ∧
      s'.vhc.portUpdate = 0 := by
  have aux : ∀ n, ∀ s : Sys, Reachable conf s →
      s.vhc.workLeft * 4294967296 + s.vhc.portUpdate.toNat = n →
      ∃ ts s', Run s ts s' ∧ (∀ x ∈ ts, x.2.1.worker = true) ∧ (∀ k, s'.vhc.urbpList k = []) ∧
        s'.vhc.portUpdate = 0 := by
    intro n
    induction n using Nat.strongRecOn with
    | ind n ih =>
      intro s h hn
      subst hn
      have next : ∀ l s₁, Step s l s₁ → l.worker = true →
          s₁.vhc.workLeft * 4294967296 + s₁.vhc.portUpdate.toNat <
            s.vhc.workLeft * 4294967296 + s.vhc.portUpdate.toNat →
          ∃ ts s', Run s ts s' ∧ (∀ x ∈ ts, x.2.1.worker = true) ∧
            (∀ k, s'.vhc.urbpList k = []) ∧ s'.vhc.portUpdate = 0 := fun l s₁ hs hw hlt => by
        obtain ⟨ts, s', hr, hw', hrest⟩ := ih _ hlt s₁ (h.step hs) rfl
        exact ⟨_, s', Run.cons hs hr, List.forall_mem_cons.2 ⟨hw, hw'⟩, hrest⟩
      by_cases ho : ∃ k, k ≠ .inbox ∧ s.vhc.urbpList k ≠ []
      · obtain ⟨k, hk, hne⟩ := ho
        obtain ⟨e, he⟩ := List.exists_mem_of_ne_nil _ hne
        obtain ⟨r, s₁, hs, hlt, hpu⟩ := (urbsOk_of_reachable h).giveback_step hk he
          ((registryInv_of_reachable h).urb_ne_zero e (Vhci.mem_allUrbps_of_mem he))
        exact next _ _ hs rfl (by rw [hpu]; omega)
      · have hempty : ∀ k, k ≠ .inbox → s.vhc.urbpList k = [] := fun k hk => by
          by_contra hne
          exact ho ⟨k, hk, hne⟩
        obtain ⟨ts₀, hr₀⟩ := h
        by_cases hu : s.vhc.portUpdate = 0
        · cases hi : s.vhc.urbpList .inbox with
          | nil =>
            refine ⟨[], s, .nil s, fun x hx => absurd hx (List.not_mem_nil x), fun k => ?_, hu⟩
            cases k
            exacts [hi, hempty _ (by decide), hempty _ (by decide), hempty _ (by decide)]
          | cons e rest =>
            obtain ⟨o, s₁, hs, hlt, hpu⟩ := fetchWork_inbox_step (hempty _ (by decide)) hu hi
            have hpu' : s₁.vhc.portUpdate.toNat = s.vhc.portUpdate.toNat := by rw [hpu, hu]
            exact next _ _ hs rfl (by omega)
        · obtain ⟨o, s₁, hs, hw, hlt⟩ := fetchWork_port_step hr₀ (hempty _ (by decide)) hu
          exact next _ _ hs rfl (by rw [hw]; omega)
  exact aux _ s h rfl

/-- From every reachable state the worker alone can finish all outstanding work: fetching work
and giving urbs back, it empties the four lists and takes every pending port change. -/
theorem worker_finishes {conf : VhciConf} (h : Reachable conf s) :
    ∃ ts s', Run s ts s' ∧ (∀ x ∈ ts, x.2.1.worker = true) ∧ (∀ k, s'.vhc.urbpList k = []) ∧
      s'.vhc.portUpdate = 0 ∧ ∀ u, (ts.flatMap (·.2.1.givenBack)).count u = s.vhc.queued.count u := by
  obtain ⟨ts, s', hr, hw, he, hp⟩ := h.worker_drains
  refine ⟨ts, s', hr, hw, he, hp, fun u => ?_⟩
  have hc := hr.count_queued (registryInv_of_reachable h) u
  have hq : s'.vhc.queued = [] := by simp [Vhci.queued, Vhci.allUrbps_eq, he]
  have hn : ts.flatMap (·.2.1.enqueued) = [] :=
    List.flatMap_eq_nil_iff.2 fun x hx => Label.enqueued_of_worker (hw x hx)
  rw [hq, hn] at hc
  simpa using hc

/-- One urb submitted: the worker fetches it and gives it back. -/
theorem worker_finishes_enqueued :
    let s₀ : Sys := Sys.init ⟨1, by decide⟩
    let s₁ : Sys := (vhciUrbEnqueue (s₀.updUrb 5 (usbSubmitUrb ·
      { (default : Urb) with pipe := ⟨.bulk, false, 1, 1⟩ })) 5 (some 100) 0).1
    Reachable ⟨1, by decide⟩ s₁ ∧
    ∃ ts s', Run s₁ ts s' ∧ (∀ x ∈ ts, x.2.1.worker = true) ∧ (∀ k, s'.vhc.urbpList k = []) ∧
      s'.vhc.portUpdate = 0 ∧ ∀ u, (ts.flatMap (·.2.1.givenBack)).count u = s₁.vhc.queued.count u :=
  have hr : Reachable ⟨1, by decide⟩ _ := (Reachable.init _).step
    (Step.urbEnqueue_init 5 { (default : Urb) with pipe := ⟨.bulk, false, 1, 1⟩ } 100 0 (by decide))
  ⟨hr, worker_finishes hr⟩

/-! ## The worker's view of the ports -/

theorem Run.append {s t u : Sys} {ts ts' : List (Sys × Label × Sys)} (h₁ : Run s ts t)
    (h₂ : Run t ts' u) : Run s (ts ++ ts') u := by
  induction h₂ with
  | nil => simpa using h₁
  | snoc _ hs ih => simpa [List.append_assoc] using ih.snoc hs

/-- Along every run from `vhci_start`, the worker alone can catch up: it reaches a state where
it has given back every urb and where the registers of the last `PORT_STAT` unit it fetched for
each port are the port's registers. -/
theorem worker_view_catches_up {conf : VhciConf} {ts : List (Sys × Label × Sys)}
    (hr : Run (Sys.init conf) ts s) :
    ∃ ts' s', Run s ts' s' ∧ (∀ x ∈ ts', x.2.1.worker = true) ∧ (∀ k, s'.vhc.urbpList k = []) ∧
      ∀ p, 1 ≤ p → p ≤ s'.vhc.portCount → reported (ts ++ ts') p = s'.vhc.ports (p - 1) := by
  obtain ⟨ts', s', hr', hw, he, hu⟩ := Reachable.worker_drains ⟨ts, hr⟩
  refine ⟨ts', s', hr', hw, he, fun p h1 h2 => ?_⟩
  by_contra hne
  have hb := (UpdateInv.of_run (hr.append hr')).pending p h1 h2 (Ne.symm hne)
  simp [hu] at hb

/-- The hub driver has powered the port of a one-port controller, which the worker has not
heard of yet. -/
theorem worker_view_catches_up_powerOn :
    let s₀ : Sys := Sys.init ⟨1, by decide⟩
    let c : Vhci × HubControlResult := vhciHubControl true s₀.vhc SetPortFeature
      USB_PORT_FEAT_POWER 1 (fun _ => 0) 0 (fun _ => 0)
    let s₁ : Sys := { s₀ with vhc := c.1 }
    let ts : List (Sys × Label × Sys) :=
      [(s₀, .hubControl SetPortFeature USB_PORT_FEAT_POWER 1 0 c.2, s₁)]
    Run s₀ ts s₁ ∧
    ∃ ts' s', Run s₁ ts' s' ∧ (∀ x ∈ ts', x.2.1.worker = true) ∧ (∀ k, s'.vhc.urbpList k = []) ∧
      ∀ p, 1 ≤ p → p ≤ s'.vhc.portCount → reported (ts ++ ts') p = s'.vhc.ports (p - 1) :=
  have hr : Run (Sys.init ⟨1, by decide⟩) _ _ := (Run.nil _).snoc (Step.hubControl true
    SetPortFeature USB_PORT_FEAT_POWER 1 0 (fun _ => 0) (fun _ => 0) rfl)
  ⟨hr, worker_view_catches_up hr⟩

end VhciHcd
