import VhciHcd.Hub.Control

/-!
# The port-register invariant

`PortInv` is what the hub state machine of `vhci_hub_control` and `ioc_port_stat` keeps for
each port: only the eight status bits, five change bits and one private flag the driver knows
are ever set, and the status bits are ordered as the USB 2.0 hub state diagram orders them
(power before connection, connection before enable, enable before suspend, a reset only on a
connected and disabled port, at most one speed and only with a device connected), with the
private "resuming" flag only on a suspended port.

The bit masks are dealt with by `BitsIn` and its three closure lemmas; every other field is a
statement about single bits, which `simp` evaluates through `and_twoPow_ne_zero`. Each per-port
function of `VhciHcd.Hub.Control` gets one preservation lemma.
-/

namespace VhciHcd

variable {w : Nat}

/-- No bit of `x` lies outside the mask `m`. -/
def BitsIn (x m : BitVec w) : Prop := x &&& ~~~m = 0#w

instance (x m : BitVec w) : Decidable (BitsIn x m) :=
  inferInstanceAs (Decidable (x &&& ~~~m = 0#w))

theorem bitsIn_iff {x m : BitVec w} : BitsIn x m ↔ ∀ i, x.getLsbD i → m.getLsbD i := by
  constructor
  · intro h i hx
    have := congrArg (BitVec.getLsbD · i) h
    simp_all [BitVec.lt_of_getLsbD hx]
  · intro h
    apply BitVec.eq_of_getLsbD_eq
    intro i
    by_cases hx : x.getLsbD i <;> simp_all

theorem BitsIn.and_left {x m : BitVec w} (h : BitsIn x m) (y : BitVec w) : BitsIn (x &&& y) m := by
  rw [bitsIn_iff] at *
  intro i hi
  simp only [BitVec.getLsbD_and, Bool.and_eq_true] at hi
  exact h i hi.1

theorem BitsIn.and_right {y m : BitVec w} (h : BitsIn y m) (x : BitVec w) :
    BitsIn (x &&& y) m := by
  rw [bitsIn_iff] at *
  intro i hi
  simp only [BitVec.getLsbD_and, Bool.and_eq_true] at hi
  exact h i hi.2

theorem BitsIn.or {x y m : BitVec w} (hx : BitsIn x m) (hy : BitsIn y m) : BitsIn (x ||| y) m := by
  rw [bitsIn_iff] at *
  intro i hi
  simp only [BitVec.getLsbD_or, Bool.or_eq_true] at hi
  exact hi.elim (hx i) (hy i)

/-- The status bits the driver knows. -/
def portStatusBits : BitVec 16 :=
  USB_PORT_STAT_CONNECTION ||| USB_PORT_STAT_ENABLE ||| USB_PORT_STAT_SUSPEND |||
    USB_PORT_STAT_OVERCURRENT ||| USB_PORT_STAT_RESET ||| USB_PORT_STAT_POWER |||
    USB_PORT_STAT_LOW_SPEED ||| USB_PORT_STAT_HIGH_SPEED

/-- The change bits the driver knows. -/
def portChangeBits : BitVec 16 :=
  USB_PORT_STAT_C_CONNECTION ||| USB_PORT_STAT_C_ENABLE ||| USB_PORT_STAT_C_SUSPEND |||
    USB_PORT_STAT_C_OVERCURRENT ||| USB_PORT_STAT_C_RESET

/-- The register invariant of one port. -/
structure PortInv (p : VhciPort) : Prop where
  status_bits : BitsIn p.portStatus portStatusBits
  change_bits : BitsIn p.portChange portChangeBits
  flag_bits : BitsIn p.portFlags USB_VHCI_PORT_STAT_FLAG_RESUMING
  connection_power : p.portStatus &&& USB_PORT_STAT_CONNECTION ≠ 0 →
    p.portStatus &&& USB_PORT_STAT_POWER ≠ 0
  enable_connection : p.portStatus &&& USB_PORT_STAT_ENABLE ≠ 0 →
    p.portStatus &&& USB_PORT_STAT_CONNECTION ≠ 0
  suspend_enable : p.portStatus &&& USB_PORT_STAT_SUSPEND ≠ 0 →
    p.portStatus &&& USB_PORT_STAT_ENABLE ≠ 0
  reset_connection : p.portStatus &&& USB_PORT_STAT_RESET ≠ 0 →
    p.portStatus &&& USB_PORT_STAT_CONNECTION ≠ 0 ∧ p.portStatus &&& USB_PORT_STAT_ENABLE = 0
  speed_connection : p.portStatus &&& USB_PORT_STAT_LOW_SPEED ≠ 0 ∨
      p.portStatus &&& USB_PORT_STAT_HIGH_SPEED ≠ 0 →
    p.portStatus &&& USB_PORT_STAT_CONNECTION ≠ 0
  speed_unique : ¬(p.portStatus &&& USB_PORT_STAT_LOW_SPEED ≠ 0 ∧
    p.portStatus &&& USB_PORT_STAT_HIGH_SPEED ≠ 0)
  resuming_suspend : p.portFlags &&& USB_VHCI_PORT_STAT_FLAG_RESUMING ≠ 0 →
    p.portStatus &&& USB_PORT_STAT_SUSPEND ≠ 0

/-- The bit-order part of `PortInv`, each register test read as one bit. -/
def PortOrdered (p : VhciPort) : Prop :=
  (p.portStatus.getLsbD 0 → p.portStatus.getLsbD 8) ∧
  (p.portStatus.getLsbD 1 → p.portStatus.getLsbD 0) ∧
  (p.portStatus.getLsbD 2 → p.portStatus.getLsbD 1) ∧
  (p.portStatus.getLsbD 4 → p.portStatus.getLsbD 0 ∧ p.portStatus.getLsbD 1 = false) ∧
  (p.portStatus.getLsbD 9 ∨ p.portStatus.getLsbD 10 → p.portStatus.getLsbD 0) ∧
  ¬(p.portStatus.getLsbD 9 ∧ p.portStatus.getLsbD 10) ∧
  (p.portFlags.getLsbD 0 → p.portStatus.getLsbD 2)

theorem portInv_iff (p : VhciPort) : PortInv p ↔
    BitsIn p.portStatus portStatusBits ∧ BitsIn p.portChange portChangeBits ∧
    BitsIn p.portFlags USB_VHCI_PORT_STAT_FLAG_RESUMING ∧ PortOrdered p := by
  constructor
  · rintro ⟨h1, h2, h3, h4, h5, h6, h7, h8, h9, h10⟩
    exact ⟨h1, h2, h3, by simpa using h4, by simpa using h5, by simpa using h6, by simpa using h7,
      by simpa using h8, by simpa using h9, by simpa using h10⟩
  · rintro ⟨h1, h2, h3, h4, h5, h6, h7, h8, h9, h10⟩
    exact ⟨h1, h2, h3, by simpa using h4, by simpa using h5, by simpa using h6, by simpa using h7,
      by simpa using h8, by simpa using h9, by simpa using h10⟩

instance (p : VhciPort) : Decidable (PortOrdered p) := by
  unfold PortOrdered; infer_instance

theorem portInv_default : PortInv default :=
  (portInv_iff _).2 ⟨by decide, by decide, by decide, by decide⟩

variable {p p' : VhciPort}

/-! ## Preservation, one lemma per transition

Each transition keeps the masks by the closure lemmas of `BitsIn`, and the bit order once `simp`
has evaluated its new registers bit by bit. -/

theorem clearPortSuspend_inv (hp : PortInv p) : PortInv (clearPortSuspend p).1 := by
  obtain ⟨hs, hc, hf, ho⟩ := (portInv_iff p).1 hp
  unfold clearPortSuspend
  split_ifs
  · exact (portInv_iff _).2 ⟨hs, hc, hf.or (by decide), by simp_all [PortOrdered]⟩
  · exact hp

/-- Powering a port off leaves only its over-current bit, so no order is left to keep. -/
theorem clearPortPower_inv (hp : PortInv p) : PortInv (clearPortPower p).1 := by
  obtain ⟨hs, hc, hf, -⟩ := (portInv_iff p).1 hp
  unfold clearPortPower
  split_ifs
  · exact (portInv_iff _).2 ⟨hs.and_left _, hc.and_left _, hf.and_left _, by simp [PortOrdered]⟩
  · exact hp

theorem clearPortEnable_inv (hp : PortInv p) : PortInv (clearPortEnable p).1 := by
  obtain ⟨hs, hc, hf, ho⟩ := (portInv_iff p).1 hp
  unfold clearPortEnable
  split_ifs
  · exact (portInv_iff _).2 ⟨hs.and_left _, hc.and_left _, hf.and_left _, by simp_all [PortOrdered]⟩
  · exact hp

theorem clearPortChange_inv {wValue : Nat} (hp : PortInv p) :
    PortInv (clearPortChange wValue p).1 := by
  obtain ⟨hs, hc, hf, ho⟩ := (portInv_iff p).1 hp
  unfold clearPortChange
  split_ifs
  · exact (portInv_iff _).2 ⟨hs, hc.and_left _, hf, ho⟩
  · exact hp

theorem setPortSuspend_inv (hp : PortInv p) : PortInv (setPortSuspend p).1 := by
  obtain ⟨hs, hc, hf, ho⟩ := (portInv_iff p).1 hp
  unfold setPortSuspend
  split_ifs
  · exact (portInv_iff _).2 ⟨hs.or (by decide), hc, hf, by simp_all [PortOrdered]⟩
  · exact hp

theorem setPortPower_inv (hp : PortInv p) : PortInv (setPortPower p).1 := by
  obtain ⟨hs, hc, hf, ho⟩ := (portInv_iff p).1 hp
  unfold setPortPower
  split_ifs
  · exact (portInv_iff _).2 ⟨hs.or (by decide), hc, hf, by simp_all [PortOrdered]⟩
  · exact hp

theorem setPortReset_inv (hp : PortInv p) : PortInv (setPortReset p).1 := by
  obtain ⟨hs, hc, hf, ho⟩ := (portInv_iff p).1 hp
  unfold setPortReset
  split_ifs
  · exact (portInv_iff _).2 ⟨(hs.and_left _).or (by decide), hc, hf.and_left _,
      by simp_all [PortOrdered]⟩
  · exact hp

/-- The change bits `SetPortFeature` may set are bits 0 to 4. -/
theorem bitsIn_changeBit {wValue : Nat} (h : wValue ∈ [USB_PORT_FEAT_C_CONNECTION,
    USB_PORT_FEAT_C_ENABLE, USB_PORT_FEAT_C_SUSPEND, USB_PORT_FEAT_C_OVER_CURRENT,
    USB_PORT_FEAT_C_RESET]) : BitsIn (1#16 <<< (wValue - 16)) portChangeBits := by
  simp only [List.mem_cons, List.mem_singleton, List.not_mem_nil, or_false] at h
  rcases h with rfl | rfl | rfl | rfl | rfl <;> decide

theorem setPortChange_inv {wValue : Nat} (h : wValue ∈ [USB_PORT_FEAT_C_CONNECTION,
    USB_PORT_FEAT_C_ENABLE, USB_PORT_FEAT_C_SUSPEND, USB_PORT_FEAT_C_OVER_CURRENT,
    USB_PORT_FEAT_C_RESET]) (hp : PortInv p) : PortInv (setPortChange wValue p).1 := by
  obtain ⟨hs, hc, hf, ho⟩ := (portInv_iff p).1 hp
  unfold setPortChange
  split_ifs
  · exact (portInv_iff _).2 ⟨hs, hc.or (bitsIn_changeBit h), hf, ho⟩
  · exact hp

theorem clearPortFeature_inv {wValue : Nat} {r : VhciPort × Bool}
    (hr : clearPortFeature wValue p = some r) (hp : PortInv p) : PortInv r.1 := by
  rcases clearPortFeature_cases hr with rfl | rfl | rfl | rfl | rfl
  exacts [clearPortSuspend_inv hp, clearPortPower_inv hp, clearPortEnable_inv hp, hp,
    clearPortChange_inv hp]

theorem setPortFeature_inv {wValue : Nat} {r : VhciPort × Bool}
    (hr : setPortFeature wValue p = some r) (hp : PortInv p) : PortInv r.1 := by
  rcases setPortFeature_cases hr with rfl | rfl | rfl | rfl | ⟨hC, rfl⟩
  exacts [setPortSuspend_inv hp, setPortPower_inv hp, setPortReset_inv hp, hp,
    setPortChange_inv hC hp]

/-- A connection event rewrites the status word whole, so the old order is not needed. -/
theorem portStatConnection_inv {status : BitVec 16} (hp : PortInv p) :
    PortInv (portStatConnection status p) := by
  obtain ⟨hs, hc, hf, -⟩ := (portInv_iff p).1 hp
  refine (portInv_iff _).2 ⟨?_, hc.or (by decide), hf.and_left _, ?_⟩ <;>
    unfold portStatConnection <;> split_ifs
  all_goals first
    | exact BitsIn.or (by decide) (hs.and_left _)
    | simp [PortOrdered]

theorem portStatEnable_inv {status : BitVec 16} (hr : portStatEnable status p = some p')
    (hp : PortInv p) : PortInv p' := by
  obtain ⟨hs, hc, hf, ho⟩ := (portInv_iff p).1 hp
  unfold portStatEnable at hr
  split_ifs at hr
  cases hr
  exact (portInv_iff _).2 ⟨(hs.and_left _).and_left _, hc.or (by decide), hf.and_left _,
    by simp_all [PortOrdered]⟩

theorem portStatSuspend_inv {status : BitVec 16} (hr : portStatSuspend status p = some p')
    (hp : PortInv p) : PortInv p' := by
  obtain ⟨hs, hc, hf, ho⟩ := (portInv_iff p).1 hp
  unfold portStatSuspend at hr
  split_ifs at hr
  cases hr
  exact (portInv_iff _).2 ⟨hs.and_left _, hc.or (by decide), hf.and_left _,
    by simp_all [PortOrdered]⟩

theorem portStatOvercurrent_inv {status : BitVec 16} (hp : PortInv p) :
    PortInv (portStatOvercurrent status p) := by
  obtain ⟨hs, hc, hf, ho⟩ := (portInv_iff p).1 hp
  exact (portInv_iff _).2 ⟨(hs.and_left _).or (BitsIn.and_right (by decide) _), hc.or (by decide),
    hf, by simp_all [PortOrdered, portStatOvercurrent]⟩

theorem portStatReset_inv {status change : BitVec 16} (hr : portStatReset status change p = some p')
    (hp : PortInv p) : PortInv p' := by
  obtain ⟨hs, hc, hf, ho⟩ := (portInv_iff p).1 hp
  unfold portStatReset at hr
  split_ifs at hr <;> cases hr
  · -- the port ended its reset disabled
    exact (portInv_iff _).2 ⟨hs.and_left _, (hc.or (by decide)).or (by decide), hf,
      by simp_all [PortOrdered]⟩
  · -- the port ended its reset enabled as the worker says
    exact (portInv_iff _).2 ⟨(hs.or (BitsIn.and_right (by decide) _)).and_left _,
      hc.or (by decide), hf, by simp_all [PortOrdered]⟩

theorem portStat_inv {status change : BitVec 16} (hr : portStat status change p = some p')
    (hp : PortInv p) : PortInv p' := by
  unfold portStat at hr
  split_ifs at hr <;> try cases hr
  exacts [portStatConnection_inv hp, portStatEnable_inv hr hp, portStatSuspend_inv hr hp,
    portStatOvercurrent_inv hp, portStatReset_inv hr hp]

theorem suspendPort_inv (hp : PortInv p) : PortInv (suspendPort p).1 := by
  obtain ⟨hs, hc, hf, ho⟩ := (portInv_iff p).1 hp
  unfold suspendPort
  split_ifs
  · exact (portInv_iff _).2 ⟨hs.or (by decide), hc, hf.and_left _, by simp_all [PortOrdered]⟩
  · exact hp

end VhciHcd
