import VhciHcd.System
import VhciHcd.Hub.Update

/-!
# No port change is hidden from the worker

`reported ts p` is what the worker last heard of port `p`: the registers of the last `PORT_STAT`
unit for `p` in the run `ts`. `UpdateInv` says that `port_update` names only ports of the
controller and names every port whose registers differ from what the worker heard. A step is
either a `PortWrite` that reports nothing, or the port part of `ioc_fetch_work` reporting one port
(`Step.portWrite_or_report`); both keep the invariant. So the port part of `ioc_fetch_work` finds
a port whenever `port_update` is non-zero (`port_update_of_run`).

The scan is round-robin: while the bit of port `p` stays set, each report of another port moves
the start of the scan nearer to `p` (`Step.scanDist_le`), so at most `port_count - 1` reports of
other ports come before `p`'s (`port_report_bound`). With nothing else running, successive
calls report the pending ports exactly in the order the scan meets them
(`fetchWork_reports_in_scan_order`).
-/

namespace VhciHcd

/-- The port a call reports to the worker in a `PORT_STAT` unit, with the registers it sends. -/
def Label.portReport : Label → Option (Nat × VhciPort)
  | .fetchWork (.done _ (some (.portStat i st ch fl))) => some (i, ⟨st, ch, fl⟩)
  | _ => none

/-- The registers of port `p` as the last `PORT_STAT` unit for it in `ts` sent them; all zero
before the first. -/
def reported (ts : List (Sys × Label × Sys)) (p : Nat) : VhciPort :=
  ts.foldl (fun r x => match x.2.1.portReport with
    | some (i, regs) => if i = p then regs else r
    | none => r) default

theorem reported_snoc (ts : List (Sys × Label × Sys)) (x : Sys × Label × Sys) (p : Nat) :
    reported (ts ++ [x]) p = match x.2.1.portReport with
      | some (i, regs) => if i = p then regs else reported ts p
      | none => reported ts p := by
  simp only [reported, List.foldl_append, List.foldl_cons, List.foldl_nil]

variable {s s' : Sys}

theorem fetchWorkRepeat_portReport {o : FetchWorkOutcome} (h : fetchWorkRepeat s = (s', o)) :
    (Label.fetchWork o).portReport = none := by
  rcases fetchWorkRepeat_cases h with ⟨-, -, rfl⟩ | ⟨e, rest, -, ⟨len, -, -, rfl⟩ | ⟨-, -, rfl⟩⟩ <;>
    rfl

/-- A step either writes the port side as a request of the root hub may, reporting nothing, or
is the port part of `ioc_fetch_work` reporting a port. -/
theorem Step.portWrite_or_report {l : Label} (hs : Step s l s') (h32 : s.vhc.portCount < 32) :
    (PortWrite s.vhc s'.vhc ∧ l.portReport = none) ∨
    (∃ w, (fetchWorkPorts s.vhc).2 = some w ∧ s'.vhc = (fetchWorkPorts s.vhc).1 ∧
      l = .fetchWork (.done 0 (some w))) := by
  cases hs with
  | urbEnqueue u req alloc linkRet _ _ _ he =>
    have hh := vhciUrbEnqueue_hub he
    exact .inl ⟨.of_hub hh, rfl⟩
  | urbDequeue u status hd => exact .inl ⟨.of_hub (vhciUrbDequeue_hub hd), rfl⟩
  | fetchWorkWait => exact .inl ⟨.refl _, rfl⟩
  | fetchWork hf =>
    rw [Sys.parkFetcher_vhc]
    rcases iocFetchWorkLocked_cases hf with ⟨e, rest, -, rfl, rfl⟩ | ⟨-, w, hw, rfl, rfl⟩ | ⟨-, hn, hr⟩
    · exact .inl ⟨.of_hub (by simp), rfl⟩
    · exact .inr ⟨w, hw, rfl, rfl⟩
    · refine .inl ⟨?_, fetchWorkRepeat_portReport hr⟩
      rcases fetchWorkPorts_cases s.vhc with ⟨-, -, hp⟩ | ⟨k, -, -, -, -, hk⟩
      · exact hp.trans (.of_hub (fetchWorkRepeat_hub hr))
      · rw [hk] at hn; cases hn
  | fetchWorkRepeat _ hr =>
    rw [Sys.parkFetcher_vhc]
    have hh := fetchWorkRepeat_hub hr
    exact .inl ⟨.of_hub hh, rfl⟩
  | giveback a hg => exact .inl ⟨.of_hub (iocGivebackCommon_hub hg), rfl⟩
  | fetchData a hd => exact .inl ⟨.of_hub (iocFetchDataCommon_hub hd), rfl⟩
  | hcdRemove _ hr =>
    have hh := hcdRemoveStep_hub hr
    exact .inl ⟨.of_hub hh, rfl⟩
  | hcdRemoveDone => exact .inl ⟨.refl _, rfl⟩
  | hubControl _ _ _ _ _ _ _ hc => exact .inl ⟨vhciHubControl_portWrite h32 hc, rfl⟩
  | portStat _ _ _ hp => exact .inl ⟨iocPortStat_portWrite h32 hp, rfl⟩
  | busSuspend => exact .inl ⟨vhciBusSuspend_portWrite h32, rfl⟩
  | busResume _ hr => exact .inl ⟨vhciBusResume_portWrite hr, rfl⟩
  | hubStatus => exact .inl ⟨.refl _, rfl⟩

/-- A report by the port part of `ioc_fetch_work`: the first port of the scan whose bit is set,
with its registers; its bit cleared and the offset moved past it. -/
theorem fetchWorkPorts_report {v : Vhci} {w : Work} (hw : (fetchWorkPorts v).2 = some w) :
    ∃ k, k < v.portCount ∧ v.portUpdate.getLsbD ((k + v.schedStart) % v.portCount + 1) ∧
      (∀ j, j < k → ¬v.portUpdate.getLsbD ((j + v.schedStart) % v.portCount + 1)) ∧
      (fetchWorkPorts v).1 = { v with
        portUpdate := v.portUpdate &&& ~~~portBit ((k + v.schedStart) % v.portCount + 1)
        portSchedOffset := (k + v.schedStart) % v.portCount + 1 } ∧
      w = .portStat ((k + v.schedStart) % v.portCount + 1)
        (v.ports ((k + v.schedStart) % v.portCount)).portStatus
        (v.ports ((k + v.schedStart) % v.portCount)).portChange
        (v.ports ((k + v.schedStart) % v.portCount)).portFlags := by
  rcases fetchWorkPorts_cases v with ⟨hn, -, -⟩ | ⟨k, hk, hb, hmin, h1, h2⟩
  · rw [hn] at hw; cases hw
  · exact ⟨k, hk, hb, hmin, h1, Option.some.inj (hw.symm.trans h2)⟩

/-! ## The invariant -/

/-- What `port_update` guarantees after the steps `ts`: it names only ports of the controller,
and it names every port whose registers differ from what the worker last heard of them. -/
structure UpdateInv (conf : VhciConf) (ts : List (Sys × Label × Sys)) (s : Sys) : Prop where
  portCount_eq : s.vhc.portCount = conf.portCount
  bits : ∀ i, s.vhc.portUpdate.getLsbD i → 1 ≤ i ∧ i ≤ s.vhc.portCount
  pending : ∀ p, 1 ≤ p → p ≤ s.vhc.portCount → s.vhc.ports (p - 1) ≠ reported ts p →
    s.vhc.portUpdate.getLsbD p

theorem updateInv_init (conf : VhciConf) : UpdateInv conf [] (Sys.init conf) where
  portCount_eq := rfl
  bits _ h := by simp [Sys.init, vhciStart] at h
  pending _ _ _ h := absurd rfl h

theorem UpdateInv.portCount_lt {conf : VhciConf} {ts : List (Sys × Label × Sys)}
    (h : UpdateInv conf ts s) : s.vhc.portCount < 32 := by
  have := conf.portCount_le
  have := h.portCount_eq
  omega

/-- Every step keeps the invariant, with the step's report added to what the worker heard. -/
theorem UpdateInv.step {conf : VhciConf} {ts : List (Sys × Label × Sys)} {l : Label}
    (h : UpdateInv conf ts s) (hs : Step s l s') : UpdateInv conf (ts ++ [(s, l, s')]) s' := by
  rcases hs.portWrite_or_report h.portCount_lt with ⟨hw, hl⟩ | ⟨w, hw, hv, rfl⟩
  · have hrep : ∀ p, reported (ts ++ [(s, l, s')]) p = reported ts p := fun p => by
      rw [reported_snoc]; simp only [hl]
    refine ⟨hw.portCount_eq.trans h.portCount_eq, fun i hi => ?_, fun p hp1 hp2 hp => ?_⟩
    · rw [hw.portCount_eq]
      exact (hw.bit_new i hi).elim (h.bits i) id
    · rw [hrep] at hp
      rw [hw.portCount_eq] at hp2
      by_cases hq : s'.vhc.ports (p - 1) = s.vhc.ports (p - 1)
      · exact hw.bit_mono p (h.pending p hp1 hp2 (hq ▸ hp))
      · simpa [Nat.sub_add_cancel hp1] using hw.notify (p - 1) hq
  · obtain ⟨k, hk, -, -, hv', rfl⟩ := fetchWorkPorts_report hw
    rw [hv'] at hv
    generalize (k + s.vhc.schedStart) % s.vhc.portCount = q at hv ⊢
    have hrep : ∀ p, reported (ts ++ [(s, .fetchWork (.done 0 (some (.portStat (q + 1)
        (s.vhc.ports q).portStatus (s.vhc.ports q).portChange (s.vhc.ports q).portFlags))), s')]) p =
        if q + 1 = p then s.vhc.ports q else reported ts p := fun p => by
      rw [reported_snoc]; rfl
    refine ⟨by rw [hv]; exact h.portCount_eq, fun i hi => ?_, fun p hp1 hp2 hp => ?_⟩
    · rw [hv, portBit_eq, getLsbD_and_not_twoPow] at hi
      rw [hv]
      exact h.bits i hi.1
    · rw [hv] at hp2 hp ⊢
      rw [hrep] at hp
      rw [portBit_eq, getLsbD_and_not_twoPow]
      split_ifs at hp with hqp
      · subst hqp
        exact absurd rfl hp
      · exact ⟨h.pending p hp1 hp2 hp, Ne.symm hqp⟩

theorem UpdateInv.of_run {conf : VhciConf} {ts : List (Sys × Label × Sys)}
    (hr : Run (Sys.init conf) ts s) : UpdateInv conf ts s := by
  induction hr with
  | nil => exact updateInv_init conf
  | snoc _ hs ih => exact ih.step hs

/-- With `port_update` naming a port of the controller and the cancel list empty, the first
section of `ioc_fetch_work` reports the first such port of its scan, with its current registers,
and clears exactly its bit. -/
theorem UpdateInv.iocFetchWorkLocked {conf : VhciConf} {ts : List (Sys × Label × Sys)}
    (h : UpdateInv conf ts s) (hc : s.vhc.urbpList .cancel = []) (hu : s.vhc.portUpdate ≠ 0) :
    ∃ p, 1 ≤ p ∧ p ≤ s.vhc.portCount ∧ s.vhc.portUpdate.getLsbD p ∧
      iocFetchWorkLocked s = ({ s with vhc := { s.vhc with
          portUpdate := s.vhc.portUpdate &&& ~~~portBit p, portSchedOffset := p } },
        .done 0 (some (.portStat p (s.vhc.ports (p - 1)).portStatus
          (s.vhc.ports (p - 1)).portChange (s.vhc.ports (p - 1)).portFlags))) := by
  rcases fetchWorkPorts_cases s.vhc with ⟨-, hnone, -⟩ | ⟨k, hk, hb, -, h1, h2⟩
  · obtain ⟨i, hi⟩ := exists_getLsbD_of_ne_zero hu
    exact absurd hi (hnone i (h.bits i hi).1 (h.bits i hi).2)
  · have hq := Nat.mod_lt (k + s.vhc.schedStart) (show 0 < s.vhc.portCount by omega)
    refine ⟨_, by omega, by omega, hb, ?_⟩
    have hfw : fetchWorkPorts s.vhc = (_, _) := Prod.ext h1 h2
    unfold VhciHcd.iocFetchWorkLocked
    rw [show s.vhc.urbpListCancel = [] from hc, hfw, Nat.add_sub_cancel]

/-- In every run from `vhci_start`, with `reported ts p` the registers the last `PORT_STAT` unit
for port `p` carried: `port_update` has no bit outside ports `1..port_count`; the bit of every
port whose registers differ from what was reported is set; and so, with `port_update` non-zero
and `urbp_list_cancel` empty, `ioc_fetch_work` reports a port with its current registers and
clears exactly that port's bit. -/
theorem port_update_of_run {conf : VhciConf} {ts : List (Sys × Label × Sys)}
    (hr : Run (Sys.init conf) ts s) :
    (∀ i, s.vhc.portUpdate.getLsbD i → 1 ≤ i ∧ i ≤ s.vhc.portCount) ∧
    (∀ p, 1 ≤ p → p ≤ s.vhc.portCount → s.vhc.ports (p - 1) ≠ reported ts p →
      s.vhc.portUpdate.getLsbD p) ∧
    (s.vhc.urbpList .cancel = [] → s.vhc.portUpdate ≠ 0 →
      ∃ p, 1 ≤ p ∧ p ≤ s.vhc.portCount ∧ s.vhc.portUpdate.getLsbD p ∧
        iocFetchWorkLocked s = ({ s with vhc := { s.vhc with
            portUpdate := s.vhc.portUpdate &&& ~~~portBit p, portSchedOffset := p } },
          .done 0 (some (.portStat p (s.vhc.ports (p - 1)).portStatus
            (s.vhc.ports (p - 1)).portChange (s.vhc.ports (p - 1)).portFlags)))) :=
  let h := UpdateInv.of_run hr
  ⟨h.bits, h.pending, h.iocFetchWorkLocked⟩

/-- A run of one step: `SetPortFeature(PORT_POWER)` on port 1 changes its registers and raises
its bit. -/
theorem port_update_of_run_powerOn :
    let s₀ := Sys.init ⟨1, by decide⟩
    let r := vhciHubControl true s₀.vhc SetPortFeature USB_PORT_FEAT_POWER 1 (fun _ => 0) 0
      (fun _ => 0)
    let s₁ : Sys := { s₀ with vhc := r.1 }
    let ts := [(s₀, Label.hubControl SetPortFeature USB_PORT_FEAT_POWER 1 0 r.2, s₁)]
    Run s₀ ts s₁ ∧
    (∀ i, s₁.vhc.portUpdate.getLsbD i → 1 ≤ i ∧ i ≤ s₁.vhc.portCount) ∧
    (∀ p, 1 ≤ p → p ≤ s₁.vhc.portCount → s₁.vhc.ports (p - 1) ≠ reported ts p →
      s₁.vhc.portUpdate.getLsbD p) ∧
    (s₁.vhc.urbpList .cancel = [] → s₁.vhc.portUpdate ≠ 0 →
      ∃ p, 1 ≤ p ∧ p ≤ s₁.vhc.portCount ∧ s₁.vhc.portUpdate.getLsbD p ∧
        iocFetchWorkLocked s₁ = ({ s₁ with vhc := { s₁.vhc with
            portUpdate := s₁.vhc.portUpdate &&& ~~~portBit p, portSchedOffset := p } },
          .done 0 (some (.portStat p (s₁.vhc.ports (p - 1)).portStatus
            (s₁.vhc.ports (p - 1)).portChange (s₁.vhc.ports (p - 1)).portFlags)))) :=
  have hr : Run (Sys.init ⟨1, by decide⟩) _ _ := (Run.nil _).snoc (Step.hubControl true
    SetPortFeature USB_PORT_FEAT_POWER 1 0 (fun _ => 0) (fun _ => 0) rfl)
  ⟨hr, port_update_of_run hr⟩

/-! ## Round robin -/

/-- How far the scan of `ioc_fetch_work` has to go to meet port `p`. -/
def Vhci.scanDist (v : Vhci) (p : Nat) : Nat := scanIndex v.portCount v.schedStart p

/-- A step that does not report port `p` keeps `p`'s bit, and a report of another port brings the
scan nearer to `p`. -/
theorem Step.scanDist_le {l : Label} {p : Nat} (hs : Step s l s') (h32 : s.vhc.portCount < 32)
    (hp1 : 1 ≤ p) (hp2 : p ≤ s.vhc.portCount) (hb : s.vhc.portUpdate.getLsbD p)
    (hno : l.portReport.map Prod.fst ≠ some p) :
    s'.vhc.portCount = s.vhc.portCount ∧ s'.vhc.portUpdate.getLsbD p ∧
    s'.vhc.scanDist p + (if l.portReport.isSome then 1 else 0) ≤ s.vhc.scanDist p := by
  rcases hs.portWrite_or_report h32 with ⟨hw, hl⟩ | ⟨w, hw, hv, rfl⟩
  · refine ⟨hw.portCount_eq, hw.bit_mono p hb, ?_⟩
    simp [hl, Vhci.scanDist, hw.portCount_eq, hw.schedStart_eq]
  · obtain ⟨k, hk, -, hmin, hv', rfl⟩ := fetchWorkPorts_report hw
    rw [hv'] at hv
    have hoff : s.vhc.schedStart < s.vhc.portCount := Vhci.schedStart_lt (by omega)
    have hne : (k + s.vhc.schedStart) % s.vhc.portCount + 1 ≠ p := fun h =>
      hno (by simp [Label.portReport, h])
    have hkp : k < s.vhc.scanDist p := by
      by_contra! hge
      rcases hge.lt_or_eq with hlt | rfl
      · exact hmin _ hlt (by rw [Vhci.scanDist, scanIndex_port hoff hp1 hp2]; exact hb)
      · exact hne (scanIndex_port hoff hp1 hp2)
    have hafter := scanIndex_after hoff hp1 hp2 hkp
    refine ⟨by rw [hv], ?_, ?_⟩
    · rw [hv, portBit_eq, getLsbD_and_not_twoPow]
      exact ⟨hb, Ne.symm hne⟩
    · rw [hv]
      simp only [Vhci.scanDist, Vhci.schedStart, Label.portReport, Option.isSome_some,
        if_true] at hafter ⊢
      omega

/-- Along a run from a state where `p`'s bit is set, as long as `p` is not reported: the bit stays
set, and the reports of other ports bring the scan that much nearer to `p`. -/
theorem Run.reports_le {ts : List (Sys × Label × Sys)} {p : Nat} (hr : Run s ts s')
    (h32 : s.vhc.portCount < 32) (hp1 : 1 ≤ p) (hp2 : p ≤ s.vhc.portCount)
    (hb : s.vhc.portUpdate.getLsbD p) (hno : ∀ x ∈ ts, x.2.1.portReport.map Prod.fst ≠ some p) :
    s'.vhc.portCount = s.vhc.portCount ∧ s'.vhc.portUpdate.getLsbD p ∧
    (ts.filter (·.2.1.portReport.isSome)).length + s'.vhc.scanDist p ≤ s.vhc.scanDist p := by
  induction hr with
  | nil => exact ⟨rfl, hb, by simp⟩
  | @snoc t u ts l _ hs ih =>
    obtain ⟨hc, hbt, hd⟩ := ih fun x hx => hno x (List.mem_append_left _ hx)
    obtain ⟨hc', hbu, hd'⟩ := hs.scanDist_le (hc ▸ h32) hp1 (hc ▸ hp2) hbt
      (hno _ (List.mem_append_right _ (List.mem_singleton_self _)))
    refine ⟨hc'.trans hc, hbu, ?_⟩
    rw [List.filter_append, List.length_append]
    cases hl : l.portReport.isSome <;>
      simp only [hl, Bool.false_eq_true, ↓reduceIte, add_zero] at hd' <;>
      simp only [List.filter, hl, List.length_cons, List.length_nil] <;> omega

/-- Round robin: from any reachable state in which the bit of port `p` of `port_update` is set, and
whatever steps follow, `ioc_fetch_work` reports other ports at most `port_count - 1` times before
it reports `p`. -/
theorem port_report_bound {conf : VhciConf} {ts : List (Sys × Label × Sys)} {p : Nat}
    (hs : Reachable conf s) (hr : Run s ts s') (hp1 : 1 ≤ p) (hp2 : p ≤ s.vhc.portCount)
    (hb : s.vhc.portUpdate.getLsbD p) (hno : ∀ x ∈ ts, x.2.1.portReport.map Prod.fst ≠ some p) :
    (ts.filter (·.2.1.portReport.isSome)).length ≤ s.vhc.portCount - 1 := by
  obtain ⟨_, hr₀⟩ := hs
  have h32 := (UpdateInv.of_run hr₀).portCount_lt
  have hlt : s.vhc.scanDist p < s.vhc.portCount :=
    scanIndex_lt (Vhci.schedStart_lt (by omega)) hp2
  have := (hr.reports_le h32 hp1 hp2 hb hno).2.2
  omega

/-- A two-port controller with both ports powered on, port 2 first: `ioc_fetch_work` reports
port 1 once before port 2, the most the bound allows. -/
theorem port_report_bound_twoPorts :
    let s₀ := Sys.init ⟨2, by decide⟩
    let s₁ : Sys := { s₀ with vhc := (vhciHubControl true s₀.vhc SetPortFeature
      USB_PORT_FEAT_POWER 2 (fun _ => 0) 0 (fun _ => 0)).1 }
    let s₂ : Sys := { s₁ with vhc := (vhciHubControl true s₁.vhc SetPortFeature
      USB_PORT_FEAT_POWER 1 (fun _ => 0) 0 (fun _ => 0)).1 }
    let ts := [(s₂, Label.fetchWork (iocFetchWorkLocked s₂).2, (iocFetchWorkLocked s₂).1)]
    Reachable ⟨2, by decide⟩ s₂ ∧ Run s₂ ts (iocFetchWorkLocked s₂).1 ∧ 1 ≤ 2 ∧
    2 ≤ s₂.vhc.portCount ∧ s₂.vhc.portUpdate.getLsbD 2 ∧
    (∀ x ∈ ts, x.2.1.portReport.map Prod.fst ≠ some 2) ∧
    (ts.filter (·.2.1.portReport.isSome)).length ≤ s₂.vhc.portCount - 1 :=
  have hs : Reachable ⟨2, by decide⟩ _ := ((Reachable.init _).step (Step.hubControl true
    SetPortFeature USB_PORT_FEAT_POWER 2 0 (fun _ => 0) (fun _ => 0) rfl)).step
    (Step.hubControl true SetPortFeature USB_PORT_FEAT_POWER 1 0 (fun _ => 0) (fun _ => 0) rfl)
  have hr : Run _ _ _ := (Run.nil _).snoc (Step.fetchWork rfl)
  have hno : ∀ x ∈ [(_, Label.fetchWork _, _)], x.2.1.portReport.map Prod.fst ≠ some 2 :=
    fun x hx => by obtain rfl := List.mem_singleton.1 hx; decide
  ⟨hs, hr, by decide, by decide, by decide, hno,
    port_report_bound hs hr (by decide) (by decide) (by decide) hno⟩

/-! ## The order of the reports -/

/-- Along a run of calls of `ioc_fetch_work` alone, from a state with no cancel request pending
and at least as many ports pending as calls, each call reports the next pending port. -/
theorem Run.fetchWork_reports {ts : List (Sys × Label × Sys)} (hr : Run s ts s')
    (hc : s.vhc.urbpList .cancel = []) (hf : ∀ x ∈ ts, ∃ o, x.2.1 = .fetchWork o)
    (hn : ts.length ≤ s.vhc.pendingPorts.length) :
    ts.filterMap (·.2.1.portReport) =
      (s.vhc.pendingPorts.take ts.length).map (fun p => (p, s.vhc.ports (p - 1))) ∧
    s'.vhc.pendingPorts = s.vhc.pendingPorts.drop ts.length ∧
    s'.vhc.urbpList .cancel = [] ∧ s'.vhc.ports = s.vhc.ports := by
  induction hr with
  | nil => exact ⟨rfl, rfl, hc, rfl⟩
  | @snoc t u ts l hr hs ih =>
    obtain ⟨hrep, hpend, hct, hports⟩ := ih (fun x hx => hf x (List.mem_append_left _ hx))
      (by simp at hn; omega)
    obtain ⟨o, rfl⟩ := hf _ (List.mem_append_right _ (List.mem_singleton_self _))
    simp only [List.length_append, List.length_singleton] at hn
    obtain ⟨p, rest, hd⟩ : ∃ p rest, s.vhc.pendingPorts.drop ts.length = p :: rest := by
      cases hd : s.vhc.pendingPorts.drop ts.length with
      | nil => simp at hd; omega
      | cons p rest => exact ⟨p, rest, rfl⟩
    obtain ⟨hw, hrest⟩ := fetchWorkPorts_pendingPorts (hpend.trans hd)
    cases hs with
    | fetchWork h =>
      rcases iocFetchWorkLocked_cases h with ⟨e, rest', hc', -⟩ | ⟨-, w, hw', rfl, rfl⟩ | ⟨-, hn', -⟩
      · rw [hct] at hc'; cases hc'
      · rw [hw] at hw'
        cases hw'
        have hget : s.vhc.pendingPorts[ts.length]? = some p := by
          rw [← List.head?_drop, hd]; rfl
        refine ⟨?_, ?_, by simpa using hct, by simpa using hports⟩
        · rw [List.filterMap_append, hrep, List.length_append, List.length_singleton,
            List.take_succ, hget]
          simp [Label.portReport, hports]
        · have hdrop : s.vhc.pendingPorts.drop (ts.length + 1) = rest := by
            rw [← List.tail_drop, hd]; rfl
          simpa [hdrop] using hrest
      · rw [hw] at hn'; cases hn'

/-- Round robin, in order. From any state with no cancel request pending, successive calls of
`ioc_fetch_work` with nothing in between report the ports whose bit of `port_update` is set, each
once and with its registers, in the order the scan meets them going round from
`port_sched_offset`; once none is left, the next call finds no port. -/
theorem fetchWork_reports_in_scan_order {ts : List (Sys × Label × Sys)} (hr : Run s ts s')
    (hc : s.vhc.urbpList .cancel = []) (hf : ∀ x ∈ ts, ∃ o, x.2.1 = .fetchWork o)
    (hn : ts.length ≤ s.vhc.pendingPorts.length) :
    ts.filterMap (·.2.1.portReport) =
      (s.vhc.pendingPorts.take ts.length).map (fun p => (p, s.vhc.ports (p - 1))) ∧
    s'.vhc.pendingPorts = s.vhc.pendingPorts.drop ts.length ∧
    (s'.vhc.pendingPorts = [] → (fetchWorkPorts s'.vhc).2 = none) :=
  have h := hr.fetchWork_reports hc hf hn
  ⟨h.1, h.2.1, fetchWorkPorts_pendingPorts_nil⟩

theorem fetchWork_reports_in_scan_order_twoPorts :
    let s₀ := Sys.init ⟨2, by decide⟩
    let s₁ : Sys := { s₀ with vhc := (vhciHubControl true s₀.vhc SetPortFeature
      USB_PORT_FEAT_POWER 2 (fun _ => 0) 0 (fun _ => 0)).1 }
    let s₂ : Sys := { s₁ with vhc := (vhciHubControl true s₁.vhc SetPortFeature
      USB_PORT_FEAT_POWER 1 (fun _ => 0) 0 (fun _ => 0)).1 }
    let s₃ := (iocFetchWorkLocked s₂).1
    let s₄ := (iocFetchWorkLocked s₃).1
    let ts := [(s₂, Label.fetchWork (iocFetchWorkLocked s₂).2, s₃),
      (s₃, Label.fetchWork (iocFetchWorkLocked s₃).2, s₄)]
    Run s₂ ts s₄ ∧ s₂.vhc.urbpList .cancel = [] ∧ (∀ x ∈ ts, ∃ o, x.2.1 = .fetchWork o) ∧
    ts.length ≤ s₂.vhc.pendingPorts.length ∧
    ts.filterMap (·.2.1.portReport) =
      (s₂.vhc.pendingPorts.take ts.length).map (fun p => (p, s₂.vhc.ports (p - 1))) ∧
    s₄.vhc.pendingPorts = s₂.vhc.pendingPorts.drop ts.length ∧
    (s₄.vhc.pendingPorts = [] → (fetchWorkPorts s₄.vhc).2 = none) :=
  have hr : Run _ _ _ := ((Run.nil _).snoc (Step.fetchWork rfl)).snoc (Step.fetchWork rfl)
  have hf : ∀ x ∈ [(_, Label.fetchWork _, _), (_, Label.fetchWork _, _)],
      ∃ o, x.2.1 = .fetchWork o := fun x hx => by
    simp only [List.mem_cons, List.mem_singleton, List.not_mem_nil, or_false] at hx
    rcases hx with rfl | rfl <;> exact ⟨_, rfl⟩
  ⟨hr, rfl, hf, by decide, fetchWork_reports_in_scan_order hr rfl hf (by decide)⟩

end VhciHcd
