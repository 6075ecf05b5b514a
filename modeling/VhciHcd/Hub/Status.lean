import VhciHcd.Hub.Control

/-!
# The status bitmap of the root hub

`vhci_hub_status` clears bytes `0 .. port_count / 8` of the buffer, then sets, for every port
whose `port_change` is non-zero, the bit of its one-based number: bit `p % 8` of byte `p / 8`.
`hubStatusPort` is one pass of its loop. Over any list of ports the loop adds exactly the bits of
the changed ports (`foldl_hubStatusPort_getLsbD`) and returns `1` exactly when one of them
changed (`foldl_hubStatusPort_fst`), which is the `has_changes` loop of `vhci_hub_control`.
-/

namespace VhciHcd

/-- One pass of the port loop of `vhci_hub_status`, at the zero-based `port`. -/
def hubStatusPort (v : Vhci) (r : Int × (Nat → BitVec 8)) (port : Nat) : Int × (Nat → BitVec 8) :=
  if (v.ports port).portChange ≠ 0 then
    let absBit := port + 1
    (1, Function.update r.2 (absBit / 8) (r.2 (absBit / 8) ||| 1#8 <<< (absBit % 8)))
  else r

theorem vhciHubStatus_retval_eq (v : Vhci) (buf : Nat → BitVec 8) :
    (vhciHubStatus true v buf).retval =
      ((List.range v.portCount).foldl (hubStatusPort v) (0, memset buf 0 0 (1 + v.portCount / 8))).1 :=
  rfl

theorem vhciHubStatus_buf_eq (v : Vhci) (buf : Nat → BitVec 8) :
    (vhciHubStatus true v buf).buf =
      ((List.range v.portCount).foldl (hubStatusPort v) (0, memset buf 0 0 (1 + v.portCount / 8))).2 :=
  rfl

theorem getLsbD_or_one_shiftLeft (x : BitVec 8) {k : Nat} (hk : k < 8) (b : Nat) :
    (x ||| 1#8 <<< k).getLsbD b ↔ x.getLsbD b ∨ b = k := by
  have h : 1#8 <<< k = BitVec.twoPow 8 k := rfl
  rw [h, BitVec.getLsbD_or, BitVec.getLsbD_twoPow]
  simp only [hk, decide_True, Bool.true_and, Bool.or_eq_true, decide_eq_true_eq]
  exact or_congr_right eq_comm

/-- One pass sets the bit of port `port + 1` if that port changed, and no other bit. -/
theorem hubStatusPort_getLsbD (v : Vhci) (r : Int × (Nat → BitVec 8)) (port i : Nat) {b : Nat}
    (hb : b < 8) : ((hubStatusPort v r port).2 i).getLsbD b ↔
      (r.2 i).getLsbD b ∨ (port + 1 = 8 * i + b ∧ (v.ports port).portChange ≠ 0) := by
  unfold hubStatusPort
  split_ifs with hc
  · simp only [Function.update_apply, hc, ne_eq, not_false_eq_true, and_true]
    split_ifs with hi
    · subst hi
      rw [getLsbD_or_one_shiftLeft _ (Nat.mod_lt _ (by decide))]
      exact or_congr_right (by omega)
    · exact (or_iff_left (by omega)).symm
  · simp only [hc, and_false, or_false]

/-- The loop over any list of ports adds exactly the bits of the ports in it that changed. -/
theorem foldl_hubStatusPort_getLsbD (v : Vhci) (ports : List Nat) (r : Int × (Nat → BitVec 8))
    (i : Nat) {b : Nat} (hb : b < 8) : ((ports.foldl (hubStatusPort v) r).2 i).getLsbD b ↔
      (r.2 i).getLsbD b ∨ ∃ port ∈ ports, port + 1 = 8 * i + b ∧ (v.ports port).portChange ≠ 0 := by
  induction ports generalizing r with
  | nil => simp
  | cons port ports ih =>
    rw [List.foldl_cons, ih, hubStatusPort_getLsbD v r port i hb]
    simp only [List.mem_cons, or_and_right, exists_or, exists_eq_left, or_assoc]

/-- The loop returns `1` once a port in it changed, and its start value otherwise. -/
theorem foldl_hubStatusPort_fst (v : Vhci) (ports : List Nat) (r : Int × (Nat → BitVec 8)) :
    (ports.foldl (hubStatusPort v) r).1 =
      if ports.any (fun port => (v.ports port).portChange != 0) then 1 else r.1 := by
  induction ports generalizing r with
  | nil => rfl
  | cons port ports ih =>
    rw [List.foldl_cons, ih, List.any_cons]
    unfold hubStatusPort
    by_cases hc : (v.ports port).portChange = 0
    · simp only [hc, bne_self_eq_false, Bool.false_or, ne_eq, not_true_eq_false, if_false]
    · have hb : ((v.ports port).portChange != 0) = true := bne_iff_ne.2 hc
      simp only [hb, hc, Bool.true_or, if_true, ne_eq, not_false_eq_true, ite_self]

theorem hasChanges_iff (v : Vhci) :
    hasChanges v = true ↔ ∃ p, 1 ≤ p ∧ p ≤ v.portCount ∧ (v.ports (p - 1)).portChange ≠ 0 := by
  simp only [hasChanges, List.any_eq_true, List.mem_range, bne_iff_ne, ne_eq]
  exact ⟨fun ⟨port, hp, hc⟩ => ⟨port + 1, by omega, by omega, hc⟩,
    fun ⟨p, h1, h2, hc⟩ => ⟨p - 1, by omega, hc⟩⟩

/-- `has_changes` is computed at the end of every request that finds the hardware accessible,
on the controller as the request left it. -/
theorem vhciHubControl_poll (v : Vhci) (typeReq wValue wIndex wLength : Nat)
    (buf desc : Nat → BitVec 8) :
    (vhciHubControl true v typeReq wValue wIndex buf wLength desc).2.poll =
      hasChanges (vhciHubControl true v typeReq wValue wIndex buf wLength desc).1 := by
  unfold vhciHubControl
  simp only [Bool.not_true, Bool.false_eq_true, if_false]
  split <;> rfl

theorem vhciHubStatus_retval (v : Vhci) (buf : Nat → BitVec 8) :
    (vhciHubStatus true v buf).retval = if hasChanges v then 1 else 0 := by
  rw [vhciHubStatus_retval_eq, foldl_hubStatusPort_fst]
  rfl

/-- The bit of port `8 i + b` in the bitmap `vhci_hub_status` returns. -/
theorem vhciHubStatus_getLsbD (v : Vhci) (buf : Nat → BitVec 8) (i : Nat) {b : Nat} (hb : b < 8) :
    ((vhciHubStatus true v buf).buf i).getLsbD b ↔
      (v.portCount / 8 < i ∧ (buf i).getLsbD b) ∨
        (1 ≤ 8 * i + b ∧ 8 * i + b ≤ v.portCount ∧ (v.ports (8 * i + b - 1)).portChange ≠ 0) := by
  rw [vhciHubStatus_buf_eq, foldl_hubStatusPort_getLsbD v _ _ i hb]
  simp only [memset, List.mem_range]
  refine or_congr ?_ ⟨fun ⟨port, hp, he, hc⟩ => ⟨by omega, by omega, by rwa [← he]⟩,
    fun ⟨h1, h2, hc⟩ => ⟨8 * i + b - 1, by omega, by omega, hc⟩⟩
  split_ifs with hi
  · simp
    omega
  · exact ⟨fun h => ⟨by omega, h⟩, fun h => h.2⟩

/-- The root-hub status bitmap is exact: with the hardware accessible, `vhci_hub_status` leaves
the bytes past `port_count / 8` as they were, sets in the others exactly the bits of the ports
`1 .. port_count` whose `port_change` is non-zero (so never bit `0` of byte `0`), and returns `1`
exactly when one of them is, which is what the `has_changes` flag that `vhci_hub_control`
computes on the controller it leaves says. -/
theorem hub_status_bitmap (v : Vhci) (buf : Nat → BitVec 8) :
    let r : HubStatusResult := vhciHubStatus true v buf
    (∀ i, v.portCount / 8 < i → r.buf i = buf i) ∧
    (∀ i b, i ≤ v.portCount / 8 → b < 8 → ((r.buf i).getLsbD b ↔
      1 ≤ 8 * i + b ∧ 8 * i + b ≤ v.portCount ∧ (v.ports (8 * i + b - 1)).portChange ≠ 0)) ∧
    (r.buf 0).getLsbD 0 = false ∧
    (r.retval = 1 ↔ ∃ p, 1 ≤ p ∧ p ≤ v.portCount ∧ (v.ports (p - 1)).portChange ≠ 0) ∧
    (r.retval = 0 ∨ r.retval = 1) ∧
    ∀ typeReq wValue wIndex wLength hbuf desc,
      let c : Vhci × HubControlResult :=
        vhciHubControl true v typeReq wValue wIndex hbuf wLength desc
      (c.2.poll = true ↔ (vhciHubStatus true c.1 buf).retval = 1) := by
  have hret : ∀ u : Vhci, (vhciHubStatus true u buf).retval = 1 ↔ hasChanges u = true :=
    fun u => by rw [vhciHubStatus_retval]; split <;> simp [*]
  refine ⟨fun i hi => BitVec.eq_of_getLsbD_eq fun b => ?_, fun i b hi hb => ?_, ?_,
    (hret v).trans (hasChanges_iff v), ?_, fun _ _ _ _ _ _ => ?_⟩
  · rw [Bool.eq_iff_iff, vhciHubStatus_getLsbD v buf i b.2]
    exact ⟨fun h => h.elim And.right fun ⟨_, h2, _⟩ => by omega, fun h => .inl ⟨hi, h⟩⟩
  · rw [vhciHubStatus_getLsbD v buf i hb]
    exact ⟨fun h => h.elim (fun h' => absurd h'.1 (by omega)) id, .inr⟩
  · simpa using mt (vhciHubStatus_getLsbD v buf 0 (b := 0) (by decide)).1 (by omega)
  · rw [vhciHubStatus_retval]; split <;> simp
  · dsimp only
    rw [vhciHubControl_poll, hret]

end VhciHcd
