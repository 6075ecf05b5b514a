import VhciHcd.Ioctl.FetchWork

/-!
# Port updates

`port_update` tells the worker which ports to report: `userspace_needs_port_update` raises bit
`port` (one-based), and the port part of `ioc_fetch_work` clears the bit of the port it reports.
`PortWrite` is what a request of the root hub does to this state: it raises only bits of ports
`1..port_count`, clears none, keeps the port the next scan starts from, and raises the bit of
every port whose registers it changes. Each per-port function of `VhciHcd.Hub.Control` asks for
the update whenever it changes the registers (`Notifies`), and this makes every request a
`PortWrite`. A failed request changes nothing, and a successful one touches only the port it
addresses (`OnlyPort`). `fetchWorkPorts_cases` describes the scan of `ioc_fetch_work`, and
`fetchWorkPorts_pendingPorts` what it leaves for the next call: the ports still pending, in the
order the next scan meets them (`Vhci.pendingPorts`), are those after the reported one.
`vhciBusSuspend_spec` says what the port loop of `vhci_bus_suspend` writes.
-/

namespace VhciHcd

/-! ## Bits of `port_update` -/

theorem portBit_eq (p : Nat) : portBit p = BitVec.twoPow 32 p := rfl

theorem getLsbD_or_twoPow (x : BitVec 32) (p i : Nat) :
    (x ||| BitVec.twoPow 32 p).getLsbD i ↔ x.getLsbD i ∨ (i = p ∧ p < 32) := by
  rw [BitVec.getLsbD_or, BitVec.getLsbD_twoPow]
  by_cases h : i = p
  · subst h; simp
  · simp [h, Ne.symm h]

theorem getLsbD_and_not_twoPow (x : BitVec 32) (p i : Nat) :
    (x &&& ~~~BitVec.twoPow 32 p).getLsbD i ↔ x.getLsbD i ∧ i ≠ p := by
  rw [BitVec.getLsbD_and, BitVec.getLsbD_not, BitVec.getLsbD_twoPow]
  by_cases h : i = p
  · subst h; simp
  · by_cases hx : x.getLsbD i
    · simp [h, Ne.symm h, hx, BitVec.lt_of_getLsbD hx]
    · simp [hx]

theorem exists_getLsbD_of_ne_zero {x : BitVec 32} (h : x ≠ 0) : ∃ i, x.getLsbD i := by
  by_contra! hc
  exact h (BitVec.eq_of_getLsbD_eq fun i => by simpa using hc i.1)

/-! ## Where the scan of `ioc_fetch_work` starts -/

/-- The zero-based port the scan of `ioc_fetch_work` starts from: `port_sched_offset`, or `0`
once that has run past the last port. -/
def Vhci.schedStart (v : Vhci) : Nat :=
  if v.portSchedOffset ≥ v.portCount then 0 else v.portSchedOffset

theorem Vhci.schedStart_lt {v : Vhci} (h : 0 < v.portCount) : v.schedStart < v.portCount := by
  unfold schedStart; split_ifs <;> omega

/-- Below `2 n`, reduction modulo `n` subtracts `n` at most once. -/
theorem mod_of_lt_add {a n : Nat} (h : a < n + n) : a % n = if a < n then a else a - n := by
  split_ifs with ha
  · exact Nat.mod_eq_of_lt ha
  · rw [Nat.mod_eq_sub_mod (by omega), Nat.mod_eq_of_lt (by omega)]

/-- Where the scan from the zero-based port `off` of `n` meets the one-based port `p`. -/
def scanIndex (n off p : Nat) : Nat :=
  if off ≤ p - 1 then p - 1 - off else p - 1 + n - off

section Scan

variable {n off p : Nat}

theorem scanIndex_lt (hoff : off < n) (hp : p ≤ n) : scanIndex n off p < n := by
  unfold scanIndex; split_ifs <;> omega

theorem scanIndex_port (hoff : off < n) (hp1 : 1 ≤ p) (hp : p ≤ n) :
    (scanIndex n off p + off) % n + 1 = p := by
  rw [mod_of_lt_add (by unfold scanIndex; split_ifs <;> omega)]
  unfold scanIndex; split_ifs <;> omega

/-- Restarting the scan after a port met before `p` brings `p` that much nearer. -/
theorem scanIndex_after {k : Nat} (hoff : off < n) (hp1 : 1 ≤ p) (hp : p ≤ n)
    (hk : k < scanIndex n off p) :
    scanIndex n (if (k + off) % n + 1 ≥ n then 0 else (k + off) % n + 1) p + k + 1 =
      scanIndex n off p := by
  have hkn := (scanIndex_lt hoff hp).trans' hk
  rw [mod_of_lt_add (by omega)]
  unfold scanIndex at hk ⊢
  by_cases h3 : off ≤ p - 1
  · -- the scan meets `p` before it wraps
    simp only [if_pos h3] at hk ⊢
    rw [if_pos (show k + off < n by omega), if_neg (show ¬k + off + 1 ≥ n by omega),
      if_pos (show k + off + 1 ≤ p - 1 by omega)]
    omega
  · simp only [if_neg h3] at hk ⊢
    by_cases h1 : k + off < n
    · rw [if_pos h1]
      split_ifs <;> omega
    · -- the scan has wrapped past the last port
      rw [if_neg h1, if_neg (show ¬k + off - n + 1 ≥ n by omega),
        if_pos (show k + off - n + 1 ≤ p - 1 by omega)]
      omega

end Scan

/-! ## Requests of the root hub -/

/-- A port function's result `(registers, changed)` asks for an update whenever it changes the
registers. -/
def Notifies (p : VhciPort) (r : VhciPort × Bool) : Prop := r.2 = false → r.1 = p

theorem notifies_ite (c : Prop) [Decidable c] (p p' : VhciPort) :
    Notifies p (if c then (p', true) else (p, false)) := by
  split_ifs <;> simp [Notifies]

theorem clearPortFeature_notifies {wValue : Nat} {p : VhciPort} {r : VhciPort × Bool}
    (h : clearPortFeature wValue p = some r) : Notifies p r := by
  rcases clearPortFeature_cases h with rfl | rfl | rfl | rfl | rfl <;>
    first | exact notifies_ite _ _ _ | exact fun _ => rfl

theorem setPortFeature_notifies {wValue : Nat} {p : VhciPort} {r : VhciPort × Bool}
    (h : setPortFeature wValue p = some r) : Notifies p r := by
  rcases setPortFeature_cases h with rfl | rfl | rfl | rfl | ⟨-, rfl⟩ <;>
    first | exact notifies_ite _ _ _ | exact fun _ => rfl

/-- What a request of the root hub may do to the port side of `struct vhci`. -/
structure PortWrite (v v' : Vhci) : Prop where
  portCount_eq : v'.portCount = v.portCount
  schedStart_eq : v'.schedStart = v.schedStart
  bit_mono : ∀ i, v.portUpdate.getLsbD i → v'.portUpdate.getLsbD i
  bit_new : ∀ i, v'.portUpdate.getLsbD i → v.portUpdate.getLsbD i ∨ (1 ≤ i ∧ i ≤ v.portCount)
  notify : ∀ i, v'.ports i ≠ v.ports i → v'.portUpdate.getLsbD (i + 1)

namespace PortWrite

variable {u v v' w : Vhci}

theorem of_eq (hc : v'.portCount = v.portCount) (hs : v'.schedStart = v.schedStart)
    (hu : v'.portUpdate = v.portUpdate) (hp : v'.ports = v.ports) : PortWrite v v' where
  portCount_eq := hc
  schedStart_eq := hs
  bit_mono _ h := hu ▸ h
  bit_new _ h := .inl (hu ▸ h)
  notify _ h := absurd (congrFun hp _) h

theorem of_hub (h : v'.hub = v.hub) : PortWrite v v' := by
  simp only [Vhci.hub, Prod.mk.injEq] at h
  exact of_eq h.2.2.1 (by simp only [Vhci.schedStart, h.2.2.1, h.2.2.2.1]) h.2.2.2.2 h.2.1

theorem refl (v : Vhci) : PortWrite v v := of_hub rfl

theorem trans (h₁ : PortWrite u v) (h₂ : PortWrite v w) : PortWrite u w where
  portCount_eq := h₂.portCount_eq.trans h₁.portCount_eq
  schedStart_eq := h₂.schedStart_eq.trans h₁.schedStart_eq
  bit_mono i h := h₂.bit_mono i (h₁.bit_mono i h)
  bit_new i h := (h₂.bit_new i h).elim (h₁.bit_new i) fun hi => .inr (h₁.portCount_eq ▸ hi)
  notify i h := by
    by_cases hv : v.ports i = u.ports i
    · exact h₂.notify i (hv ▸ h)
    · exact h₂.bit_mono _ (h₁.notify i hv)

/-- Storing one port's registers, asking for its update when they change. -/
theorem putPort {port : Nat} {r : VhciPort × Bool} (hp : 1 ≤ port) (hpc : port ≤ v.portCount)
    (h32 : port < 32) (hr : Notifies (v.ports (port - 1)) r) : PortWrite v (v.putPort port r) := by
  unfold Vhci.putPort userspaceNeedsPortUpdate
  split_ifs with h2
  · refine ⟨rfl, rfl, fun i hi => ?_, fun i hi => ?_, fun i hi => ?_⟩
    · exact (getLsbD_or_twoPow _ _ _).2 (.inl hi)
    · rcases (getLsbD_or_twoPow _ _ _).1 hi with hi | ⟨rfl, -⟩
      · exact .inl hi
      · exact .inr ⟨hp, hpc⟩
    · have hi : i = port - 1 := by
        by_contra hne
        exact hi (by simp [Function.update_apply, hne])
      exact (getLsbD_or_twoPow _ _ _).2 (.inr ⟨by omega, h32⟩)
  · refine of_eq rfl rfl rfl ?_
    simp [hr (by simpa using h2)]

end PortWrite

theorem vhciHubControl_portWrite {hw : Bool} {v v' : Vhci} {typeReq wValue wIndex wLength : Nat}
    {buf desc : Nat → BitVec 8} {r : HubControlResult} (h32 : v.portCount < 32)
    (h : vhciHubControl hw v typeReq wValue wIndex buf wLength desc = (v', r)) : PortWrite v v' := by
  rcases vhciHubControl_cases h with rfl | ⟨q, h1, h2, rfl, hq | hq⟩
  · exact .refl _
  · exact .putPort h1 h2 (by omega) (clearPortFeature_notifies hq)
  · exact .putPort h1 h2 (by omega) (setPortFeature_notifies hq)

theorem iocPortStat_portWrite {v v' : Vhci} {index : Nat} {status change : BitVec 16} {r : Int}
    (h32 : v.portCount < 32) (h : iocPortStat v index status change = (v', r)) :
    PortWrite v v' := by
  rcases iocPortStat_cases h with rfl | ⟨p, h1, h2, -, rfl⟩
  exacts [.refl _, .putPort h1 h2 (by omega) fun h => nomatch h]

/-- The port loop of `vhci_bus_suspend`, over any ports of the controller. -/
theorem PortWrite.suspendLoop {v w : Vhci} (h32 : v.portCount < 32) (ports : List Nat)
    (hports : ∀ port ∈ ports, port < v.portCount) (h : PortWrite v w) :
    PortWrite v (ports.foldl (fun v port => v.putPort (port + 1) (suspendPort (v.ports port))) w) := by
  induction ports generalizing w with
  | nil => exact h
  | cons port ports ih =>
    have hp := hports port (List.mem_cons_self _ _)
    refine ih (fun q hq => hports q (List.mem_cons_of_mem _ hq)) (h.trans (.putPort (by omega)
      (by rw [h.portCount_eq]; omega) (by omega) ?_))
    exact notifies_ite _ _ _

theorem vhciBusSuspend_portWrite {v : Vhci} (h32 : v.portCount < 32) :
    PortWrite v (vhciBusSuspend v) := by
  have h := PortWrite.suspendLoop h32 (List.range v.portCount) (fun _ => List.mem_range.1)
    (.refl v)
  exact ⟨h.portCount_eq, h.schedStart_eq, h.bit_mono, h.bit_new, h.notify⟩

theorem vhciBusResume_portWrite {hw : Bool} {v v' : Vhci} {r : Int}
    (h : vhciBusResume hw v = (v', r)) : PortWrite v v' := by
  unfold vhciBusResume at h
  split_ifs at h <;> cases h
  · exact .refl v
  · exact .of_eq rfl rfl rfl rfl

/-! ## Which port a request touches -/

/-- `v'` differs from `v` at most in the registers of the one-based port `port` and in bit `port`
of `port_update`. -/
structure OnlyPort (v v' : Vhci) (port : Nat) : Prop where
  rest_eq : { v' with ports := v.ports, portUpdate := v.portUpdate } = v
  ports_eq : ∀ i, i + 1 ≠ port → v'.ports i = v.ports i
  bit_eq : ∀ j, j ≠ port → v'.portUpdate.getLsbD j = v.portUpdate.getLsbD j

theorem OnlyPort.refl (v : Vhci) (port : Nat) : OnlyPort v v port :=
  ⟨rfl, fun _ _ => rfl, fun _ _ => rfl⟩

theorem OnlyPort.putPort (v : Vhci) {port : Nat} (hp : 1 ≤ port) (r : VhciPort × Bool) :
    OnlyPort v (v.putPort port r) port := by
  have hports : ∀ i, i + 1 ≠ port → Function.update v.ports (port - 1) r.1 i = v.ports i :=
    fun i hi => Function.update_noteq (by omega) _ _
  unfold Vhci.putPort userspaceNeedsPortUpdate
  split_ifs
  · refine ⟨rfl, hports, fun j hj => ?_⟩
    simp [BitVec.getLsbD_or, ← BitVec.twoPow.eq_1, BitVec.getLsbD_twoPow, Ne.symm hj]
  · exact ⟨rfl, hports, fun _ _ => rfl⟩

theorem vhciHubControl_onlyPort {hw : Bool} {v v' : Vhci} {typeReq wValue wIndex wLength : Nat}
    {buf desc : Nat → BitVec 8} {r : HubControlResult}
    (h : vhciHubControl hw v typeReq wValue wIndex buf wLength desc = (v', r)) :
    (r.retval ≠ 0 → v' = v) ∧ (r.retval = 0 → OnlyPort v v' wIndex) := by
  rcases vhciHubControl_retval_cases h with ⟨hr, rfl⟩ | ⟨hr, _, hl⟩
  · exact ⟨fun _ => rfl, fun _ => .refl _ _⟩
  · refine ⟨fun h => absurd hr h, fun _ => ?_⟩
    rcases hubControlLocked_cases hl with rfl | ⟨q, hq, -, rfl, -⟩
    exacts [.refl _ _, .putPort _ hq q]

theorem iocPortStat_onlyPort {v v' : Vhci} {index : Nat} {status change : BitVec 16} {r : Int}
    (h : iocPortStat v index status change = (v', r)) :
    (r ≠ 0 → v' = v) ∧ (r = 0 → OnlyPort v v' index) := by
  rcases iocPortStat_retval_cases h with ⟨hr, rfl⟩ | ⟨hr, p, hp, -, -, rfl⟩
  · exact ⟨fun _ => rfl, fun _ => .refl _ _⟩
  · exact ⟨fun h => absurd hr h, fun _ => .putPort _ hp _⟩

/-- A request of the root hub that fails leaves the whole controller as it was; one that
succeeds writes only the registers of the port it addresses and that port's bit of
`port_update`. -/
theorem hub_requests_touch_addressed_port (hw : Bool) (v : Vhci)
    (typeReq wValue wIndex wLength : Nat) (buf desc : Nat → BitVec 8) (index : Nat)
    (status change : BitVec 16) :
    let c : Vhci × HubControlResult := vhciHubControl hw v typeReq wValue wIndex buf wLength desc
    let p : Vhci × Int := iocPortStat v index status change
    ((c.2.retval ≠ 0 → c.1 = v) ∧ (c.2.retval = 0 → OnlyPort v c.1 wIndex)) ∧
    ((p.2 ≠ 0 → p.1 = v) ∧ (p.2 = 0 → OnlyPort v p.1 index)) :=
  ⟨vhciHubControl_onlyPort rfl, iocPortStat_onlyPort rfl⟩

/-! ## The scan of `ioc_fetch_work` -/

theorem and_portBit_ne_zero (x : BitVec 32) (p : Nat) : x &&& portBit p ≠ 0 ↔ x.getLsbD p :=
  and_twoPow_ne_zero x

/-- The scan of `ioc_fetch_work`. With no bit of ports `1..port_count` set, it reports nothing and
writes only `port_sched_offset`, to where the scan started. Else it reports the first port whose
bit is set, going round the ports from `schedStart`, clears that bit, and moves
`port_sched_offset` past the port. -/
theorem fetchWorkPorts_cases (v : Vhci) :
    ((fetchWorkPorts v).2 = none ∧ (∀ p, 1 ≤ p → p ≤ v.portCount → ¬v.portUpdate.getLsbD p) ∧
      PortWrite v (fetchWorkPorts v).1) ∨
    ∃ k, k < v.portCount ∧ v.portUpdate.getLsbD ((k + v.schedStart) % v.portCount + 1) ∧
      (∀ j, j < k → ¬v.portUpdate.getLsbD ((j + v.schedStart) % v.portCount + 1)) ∧
      (fetchWorkPorts v).1 = { v with
        portUpdate := v.portUpdate &&& ~~~portBit ((k + v.schedStart) % v.portCount + 1)
        portSchedOffset := (k + v.schedStart) % v.portCount + 1 } ∧
      (fetchWorkPorts v).2 = some (.portStat ((k + v.schedStart) % v.portCount + 1)
        (v.ports ((k + v.schedStart) % v.portCount)).portStatus
        (v.ports ((k + v.schedStart) % v.portCount)).portChange
        (v.ports ((k + v.schedStart) % v.portCount)).portFlags) := by
  unfold fetchWorkPorts
  by_cases h0 : v.portUpdate = 0
  · rw [if_pos h0]
    refine .inl ⟨rfl, fun p _ _ hp => ?_, .refl v⟩
    simp [h0] at hp
  · rw [if_neg h0]
    dsimp only
    rw [← Vhci.schedStart.eq_1]
    split <;> rename_i hf
    · refine .inl ⟨rfl, fun p hp1 hp2 hp => ?_, .of_eq rfl ?_ rfl rfl⟩
      · have hoff : v.schedStart < v.portCount := Vhci.schedStart_lt (by omega)
        have hpos := (List.find?_range_eq_none.1 hf) _ (scanIndex_lt hoff hp2)
        rw [scanIndex_port hoff hp1 hp2] at hpos
        simp [portBit_eq, hp] at hpos
      · simp only [Vhci.schedStart]
        split_ifs <;> omega
    · rename_i k
      obtain ⟨hk, hkr, hmin⟩ := List.find?_range_eq_some.1 hf
      simp only [decide_eq_true_eq, and_portBit_ne_zero] at hk
      refine .inr ⟨k, List.mem_range.1 hkr, hk, fun j hj => ?_, rfl, rfl⟩
      simpa [portBit_eq] using hmin j hj

/-! ## The order of the scan -/

/-- The ports `1..n` in the order the port loop of `ioc_fetch_work` visits them from the
zero-based port `off`: `port = (_port + port_sched_offset) % port_count`. -/
def scanOrder (n off : Nat) : List Nat := (List.range n).map fun k => (k + off) % n + 1

/-- The ports whose bit of `port_update` is set, in the order the scan of `ioc_fetch_work` meets
them. -/
def Vhci.pendingPorts (v : Vhci) : List Nat :=
  (scanOrder v.portCount v.schedStart).filter v.portUpdate.getLsbD

/-- The scan from `off` is the ports `1..n` rotated by `off`. -/
theorem scanOrder_eq_rotate (n off : Nat) :
    scanOrder n off = ((List.range n).map (· + 1)).rotate off := by
  refine List.ext_getElem (by simp [scanOrder]) fun i h₁ h₂ => ?_
  simp [scanOrder, List.getElem_rotate]

/-- The scan meets each port once. -/
theorem scanOrder_inj {n off j k : Nat} (hoff : off < n) (hj : j < n) (hk : k < n)
    (h : (j + off) % n + 1 = (k + off) % n + 1) : j = k := by
  rw [mod_of_lt_add (by omega), mod_of_lt_add (by omega)] at h
  split_ifs at h <;> omega

theorem getLsbD_and_not_portBit (x : BitVec 32) (p i : Nat) :
    (x &&& ~~~portBit p).getLsbD i = (x.getLsbD i && i != p) := by
  rw [Bool.eq_iff_iff, portBit_eq, getLsbD_and_not_twoPow]
  simp

/-- Rotations that agree modulo the length agree. -/
theorem rotate_eq_of_mod {α : Type} {l : List α} {a b : Nat} (h : a % l.length = b % l.length) :
    l.rotate a = l.rotate b := by
  rw [← List.rotate_mod l a, h, List.rotate_mod]

/-- Where the next scan starts after a report of the port met `k + 1` ports into the scan from
`off`: `k + 1` ports further round. -/
theorem rotate_schedStart {n off k : Nat} (hk : k < n) :
    ((List.range n).map (· + 1)).rotate
        (if (k + off) % n + 1 ≥ n then 0 else (k + off) % n + 1) =
      ((List.range n).map (· + 1)).rotate (off + (k + 1)) := by
  refine rotate_eq_of_mod ?_
  have hlt := Nat.mod_lt (k + off) (by omega : 0 < n)
  have hmod : (off + (k + 1)) % n = ((k + off) % n + 1) % n := by
    rw [Nat.mod_add_mod]; congr 1; omega
  simp only [List.length_map, List.length_range, hmod]
  split_ifs with h
  · rw [show (k + off) % n + 1 = n by omega, Nat.zero_mod, Nat.mod_self]
  · rw [Nat.mod_eq_of_lt (by omega)]

/-- A call of the port scan with ports pending reports the first of them, with its registers, and
leaves the others pending in the same order. -/
theorem fetchWorkPorts_pendingPorts {v : Vhci} {p : Nat} {rest : List Nat}
    (h : v.pendingPorts = p :: rest) :
    (fetchWorkPorts v).2 = some (.portStat p (v.ports (p - 1)).portStatus
      (v.ports (p - 1)).portChange (v.ports (p - 1)).portFlags) ∧
    (fetchWorkPorts v).1.pendingPorts = rest := by
  rcases fetchWorkPorts_cases v with ⟨-, hnone, -⟩ | ⟨k, hk, hbit, hmin, hv', hw⟩
  · have hp : p ∈ v.pendingPorts := h ▸ List.mem_cons_self p rest
    simp only [Vhci.pendingPorts, scanOrder, List.mem_filter, List.mem_map, List.mem_range] at hp
    obtain ⟨⟨j, hj, rfl⟩, hb⟩ := hp
    exact absurd hb (hnone _ (by omega) (Nat.mod_lt _ (by omega)))
  have hst : v.schedStart < v.portCount := Vhci.schedStart_lt (by omega)
  -- the scan, cut at the reported port
  set f := fun j => (j + v.schedStart) % v.portCount + 1 with hf
  set A := (List.range k).map f
  set B := (List.range (v.portCount - (k + 1))).map fun j => f (k + 1 + j)
  have hsplit : scanOrder v.portCount v.schedStart = (A ++ [f k]) ++ B := by
    have hr : List.range v.portCount = List.range (k + 1 + (v.portCount - (k + 1))) := by
      congr 1; omega
    rw [scanOrder, hr, List.range_add, List.range_succ]
    simp [A, B, f]
  have hA : ∀ x ∈ A, ¬v.portUpdate.getLsbD x := by
    simp only [A, List.mem_map, List.mem_range]
    rintro x ⟨j, hj, rfl⟩
    exact hmin j hj
  have hB : ∀ x ∈ B, x ≠ f k := by
    simp only [B, List.mem_map, List.mem_range]
    rintro x ⟨j, hj, rfl⟩ hx
    have := scanOrder_inj hst (by omega) hk hx
    omega
  have hpend : v.pendingPorts = f k :: B.filter v.portUpdate.getLsbD := by
    rw [Vhci.pendingPorts, hsplit, List.filter_append, List.filter_append,
      List.filter_eq_nil_iff.2 fun x hx => by simpa using hA x hx]
    simp [hbit, f]
  rw [hpend, List.cons.injEq] at h
  obtain ⟨rfl, rfl⟩ := h
  refine ⟨by simpa [f] using hw, ?_⟩
  -- the next scan starts past the reported port
  have hrot : scanOrder v.portCount (fetchWorkPorts v).1.schedStart = B ++ (A ++ [f k]) := by
    have hs' : (fetchWorkPorts v).1.schedStart = if (k + v.schedStart) % v.portCount + 1 ≥
        v.portCount then 0 else (k + v.schedStart) % v.portCount + 1 := by
      rw [hv']; rfl
    rw [hs', scanOrder_eq_rotate, rotate_schedStart hk, ← List.rotate_rotate,
      ← scanOrder_eq_rotate, hsplit,
      show k + 1 = (A ++ [f k]).length by simp [A], List.rotate_append_length_eq]
  have hbit' : ∀ x, (fetchWorkPorts v).1.portUpdate.getLsbD x =
      (v.portUpdate.getLsbD x && x != f k) := fun x => by
    rw [hv']; exact getLsbD_and_not_portBit _ _ _
  have hA' : A.filter (fetchWorkPorts v).1.portUpdate.getLsbD = [] :=
    List.filter_eq_nil_iff.2 fun x hx => by simp [hbit', hA x hx]
  have hB' : B.filter (fetchWorkPorts v).1.portUpdate.getLsbD = B.filter v.portUpdate.getLsbD :=
    List.filter_congr fun x hx => by simp [hbit', hB x hx]
  rw [Vhci.pendingPorts, show (fetchWorkPorts v).1.portCount = v.portCount by simp, hrot,
    List.filter_append, List.filter_append, hA', hB']
  simp [hbit']

/-- With no port pending, the port scan reports nothing. -/
theorem fetchWorkPorts_pendingPorts_nil {v : Vhci} (h : v.pendingPorts = []) :
    (fetchWorkPorts v).2 = none := by
  rcases fetchWorkPorts_cases v with ⟨h', -, -⟩ | ⟨k, hk, hbit, -, -, -⟩
  · exact h'
  · have hp : (k + v.schedStart) % v.portCount + 1 ∈ v.pendingPorts := by
      simp only [Vhci.pendingPorts, scanOrder, List.mem_filter, List.mem_map, List.mem_range]
      exact ⟨⟨k, hk, rfl⟩, hbit⟩
    simp [h] at hp

/-! ## What `vhci_bus_suspend` does -/

namespace Vhci

theorem putPort_ports (v : Vhci) (port : Nat) (r : VhciPort × Bool) :
    (v.putPort port r).ports = Function.update v.ports (port - 1) r.1 := by
  unfold putPort userspaceNeedsPortUpdate; split_ifs <;> rfl

theorem putPort_getLsbD (v : Vhci) (port : Nat) (r : VhciPort × Bool) (j : Nat) :
    (v.putPort port r).portUpdate.getLsbD j ↔
      v.portUpdate.getLsbD j ∨ (r.2 = true ∧ j = port ∧ port < 32) := by
  unfold putPort userspaceNeedsPortUpdate
  split_ifs with h
  · rw [← portBit.eq_1, portBit_eq, getLsbD_or_twoPow]
    simp [h]
  · simp [h]

end Vhci

/-- The port loop of `vhci_bus_suspend`, over the zero-based ports `ps`. -/
def suspendLoop (ps : List Nat) (v : Vhci) : Vhci :=
  ps.foldl (fun v port => v.putPort (port + 1) (suspendPort (v.ports port))) v

theorem vhciBusSuspend_eq (v : Vhci) :
    vhciBusSuspend v = { suspendLoop (List.range v.portCount) v with rhState := .suspended } := rfl

theorem suspendLoop_cons (p : Nat) (ps : List Nat) (v : Vhci) :
    suspendLoop (p :: ps) v = suspendLoop ps (v.putPort (p + 1) (suspendPort (v.ports p))) := rfl

/-- Each port of the loop gets the registers `suspendPort` computes from its own. -/
theorem suspendLoop_ports {ps : List Nat} (hps : ps.Nodup) (v : Vhci) (i : Nat) :
    (suspendLoop ps v).ports i = if i ∈ ps then (suspendPort (v.ports i)).1 else v.ports i := by
  induction ps generalizing v with
  | nil => rfl
  | cons p ps ih =>
    obtain ⟨hp, hps⟩ := List.nodup_cons.1 hps
    rw [suspendLoop_cons, ih hps, Vhci.putPort_ports, Nat.add_sub_cancel]
    by_cases hi : i = p
    · subst hi; simp [hp]
    · simp [hi, Function.update_noteq hi]

/-- The loop raises the bit of each port whose registers it changes, and no other. -/
theorem suspendLoop_getLsbD {ps : List Nat} (hps : ps.Nodup) (v : Vhci) (j : Nat) :
    (suspendLoop ps v).portUpdate.getLsbD j ↔ v.portUpdate.getLsbD j ∨
      (1 ≤ j ∧ j - 1 ∈ ps ∧ j < 32 ∧ (suspendPort (v.ports (j - 1))).2 = true) := by
  induction ps generalizing v with
  | nil => simp [suspendLoop]
  | cons p ps ih =>
    obtain ⟨hp, hps⟩ := List.nodup_cons.1 hps
    rw [suspendLoop_cons, ih hps, Vhci.putPort_getLsbD, Vhci.putPort_ports, Nat.add_sub_cancel]
    by_cases hj : j = p + 1
    · subst hj; simp [hp, and_comm]
    · have : j - 1 ≠ p ∨ j = 0 := by omega
      rcases this with hj' | rfl
      · simp [hj, hj', Function.update_noteq hj']
      · simp [hj]

theorem suspendPort_snd (p : VhciPort) : (suspendPort p).2 = true ↔
    p.portStatus &&& USB_PORT_STAT_ENABLE ≠ 0 ∧ p.portStatus &&& USB_PORT_STAT_SUSPEND = 0 := by
  unfold suspendPort
  split_ifs with h
  exacts [iff_of_true rfl h, iff_of_false not_false h]

/-- `vhci_bus_suspend` suspends exactly the enabled ports that are not suspended yet, clearing
their `RESUMING` flag, and asks for an update of exactly these ports; it writes nothing else but
the root hub's state, which becomes suspended. -/
theorem vhciBusSuspend_spec (v : Vhci) :
    { vhciBusSuspend v with rhState := v.rhState, ports := v.ports, portUpdate := v.portUpdate } =
      v ∧
    (vhciBusSuspend v).rhState = .suspended ∧
    (∀ i, (vhciBusSuspend v).ports i =
      if i < v.portCount ∧ (v.ports i).portStatus &&& USB_PORT_STAT_ENABLE ≠ 0 ∧
          (v.ports i).portStatus &&& USB_PORT_STAT_SUSPEND = 0 then
        ⟨(v.ports i).portStatus ||| USB_PORT_STAT_SUSPEND, (v.ports i).portChange,
          (v.ports i).portFlags &&& ~~~USB_VHCI_PORT_STAT_FLAG_RESUMING⟩
      else v.ports i) ∧
    ∀ j, (vhciBusSuspend v).portUpdate.getLsbD j ↔ v.portUpdate.getLsbD j ∨
      (1 ≤ j ∧ j ≤ v.portCount ∧ j < 32 ∧
        (v.ports (j - 1)).portStatus &&& USB_PORT_STAT_ENABLE ≠ 0 ∧
        (v.ports (j - 1)).portStatus &&& USB_PORT_STAT_SUSPEND = 0) := by
  obtain ⟨rh, ps, pu, hw⟩ := vhciBusSuspend_hubWrite v
  refine ⟨by rw [hw], rfl, fun i => ?_, fun j => ?_⟩
  · show (suspendLoop _ v).ports i = _
    rw [suspendLoop_ports (List.nodup_range _)]
    simp only [List.mem_range]
    by_cases hi : i < v.portCount
    · simp only [hi, true_and, if_true, suspendPort]
      split_ifs <;> rfl
    · simp only [hi, false_and, if_false]
  · show (suspendLoop _ v).portUpdate.getLsbD j ↔ _
    rw [suspendLoop_getLsbD (List.nodup_range _), List.mem_range, suspendPort_snd]
    exact or_congr_right ⟨fun ⟨h1, h2, h3⟩ => ⟨h1, by omega, h3⟩,
      fun ⟨h1, h2, h3⟩ => ⟨h1, by omega, h3⟩⟩

end VhciHcd
