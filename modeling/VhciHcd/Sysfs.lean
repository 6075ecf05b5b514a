import VhciHcd.State

/-!
# The urb listings in sysfs

`show_urbs` prints one line per urb of the selected list into the one page sysfs gives it. It
keeps the running total `size` as a `size_t` and gives each `snprintf` the room `PAGE_SIZE - size`
left on the page, stopping when that is `0`. `snprintf` returns the length of the whole line,
not of what fit, so `size` can step past `PAGE_SIZE` without meeting it: the next subtraction then
wraps to nearly `2^64`, a size that `vsnprintf` refuses as above `INT_MAX` (it writes nothing and
returns `0`), so the loop runs on without adding and the total returned is larger than the page
(`showUrbs_overrun`). While the running total stays below `PAGE_SIZE`, each call gets a room
within the page and returns its line's length (`showUrbsLoop_eq`), and when the lines fit in the
page every line is printed whole at its offset (`showUrbs_fits`).

What `show_urb` returns for an urb depends on how the kernel prints its address and on the
device's speed, which the model does not keep; it is an input here, one length per urb.
-/

namespace VhciHcd

/-- `PAGE_SIZE` of a kernel with 4 KiB pages, as the `size_t` it is compared with. -/
def PAGE_SIZE : BitVec 64 := 4096

/-- What `snprintf` returns when `show_urb` formats a line of `n` bytes into `room` bytes: the
length of the whole line, whether it fit or not; `vsnprintf` refuses a size above `INT_MAX`,
writes nothing and returns `0`. -/
def snprintfRet (room n : BitVec 64) : BitVec 64 := if room.toNat ≤ INT_MAX then n else 0

/-- The loop of `show_urbs` from the running total `size`, over the length of the line of each urb
of the list: the total it ends with, and for each `snprintf` the offset into the page it writes at
and the room it is given. -/
def showUrbsLoop (size : BitVec 64) : List (BitVec 64) → BitVec 64 × List (BitVec 64 × BitVec 64)
  | [] => (size, [])
  | n :: ns =>
    let temp := PAGE_SIZE - size
    if temp ≤ 0 then (size, [])
    else
      let r := showUrbsLoop (size + snprintfRet temp n) ns
      (r.1, (size, temp) :: r.2)

/-- `show_urbs` for the attribute of list `k`; `showUrb u` is the length of the line `show_urb`
formats for the urb at `u`. -/
def showUrbs (v : Vhci) (k : UrbpList) (showUrb : Nat → Nat) :
    BitVec 64 × List (BitVec 64 × BitVec 64) :=
  showUrbsLoop 0 ((v.urbpList k).map fun e => BitVec.ofNat 64 (showUrb e.urb))

/-- The loop stops exactly when the total is `PAGE_SIZE`. -/
theorem pageSize_sub_le_zero {x : BitVec 64} : PAGE_SIZE - x ≤ 0 ↔ x = PAGE_SIZE := by
  unfold PAGE_SIZE
  bv_omega

/-- As long as the running total stays below `PAGE_SIZE` (and the sum below `2^64`), each
`snprintf` of `show_urbs` gets a room within the page and returns the length of its line: the
`k`-th writes at the total of the first `k` lengths with the room `PAGE_SIZE` minus that total,
and the loop goes on over the rest of the list from the total of all of them. -/
theorem showUrbsLoop_eq (size : Nat) (lens : List Nat) (rest : List (BitVec 64))
    (hlt : size + lens.sum < 2 ^ 64) (hroom : ∀ k < lens.length, size + (lens.take k).sum < 4096) :
    showUrbsLoop (BitVec.ofNat 64 size) (lens.map (BitVec.ofNat 64) ++ rest) =
      ((showUrbsLoop (BitVec.ofNat 64 (size + lens.sum)) rest).1,
        (List.range lens.length).map (fun k =>
          (BitVec.ofNat 64 (size + (lens.take k).sum),
            PAGE_SIZE - BitVec.ofNat 64 (size + (lens.take k).sum))) ++
        (showUrbsLoop (BitVec.ofNat 64 (size + lens.sum)) rest).2) := by
  induction lens generalizing size with
  | nil => simp
  | cons n ns ih =>
    have hs : size < 4096 := by simpa using hroom 0 (by simp)
    have hsize : BitVec.ofNat 64 size ≠ PAGE_SIZE := fun h => by
      have h4096 : size % 2 ^ 64 = 4096 := by simpa [PAGE_SIZE] using congrArg BitVec.toNat h
      omega
    have hret : snprintfRet (PAGE_SIZE - BitVec.ofNat 64 size) (BitVec.ofNat 64 n) =
        BitVec.ofNat 64 n := by
      have h4096 : (4096 : BitVec 64).toNat = 4096 := rfl
      rw [snprintfRet, if_pos]
      simp only [PAGE_SIZE, BitVec.toNat_sub, BitVec.toNat_ofNat, h4096, INT_MAX]
      omega
    have ih' := ih (size + n) (by simp at hlt; omega) fun k hk => by
      simpa [Nat.add_assoc] using hroom (k + 1) (by simp; omega)
    simp only [List.map_cons, List.cons_append, showUrbsLoop, pageSize_sub_le_zero, hsize, if_false]
    simp [hret, BitVec.ofNat_add_ofNat, ih', List.range_succ_eq_map, Function.comp_def,
      Nat.add_assoc]

/-- When the lines of a list fit in the page, `show_urbs` prints every one of them: the `j`-th
`snprintf` writes at the total of the lines before it with the room the page has left there,
and the call returns the total of all lines. -/
theorem showUrbs_fits (v : Vhci) (k : UrbpList) (showUrb : Nat → Nat)
    (hpos : ∀ e ∈ v.urbpList k, 0 < showUrb e.urb)
    (hfit : ((v.urbpList k).map fun e => showUrb e.urb).sum ≤ 4096) :
    (showUrbs v k showUrb).1.toNat = ((v.urbpList k).map fun e => showUrb e.urb).sum ∧
    (showUrbs v k showUrb).2.map (fun p => (p.1.toNat, p.2.toNat)) =
      (List.range (v.urbpList k).length).map fun j =>
        ((((v.urbpList k).map fun e => showUrb e.urb).take j).sum,
          4096 - (((v.urbpList k).map fun e => showUrb e.urb).take j).sum) := by
  generalize hl : (v.urbpList k).map (fun e => showUrb e.urb) = lens at hfit ⊢
  have hlen : lens.length = (v.urbpList k).length := by rw [← hl, List.length_map]
  have htake : ∀ j, (lens.take j).sum ≤ lens.sum := fun j => by
    have := List.sum_take_add_sum_drop lens j
    omega
  have hroom : ∀ j < lens.length, 0 + (lens.take j).sum < 4096 := fun j hj => by
    have hpos' : 0 < lens[j] := by
      simp only [← hl, List.getElem_map]
      exact hpos _ (List.getElem_mem _)
    have := List.sum_take_succ lens j hj
    have := htake (j + 1)
    omega
  have hs : showUrbs v k showUrb = showUrbsLoop (BitVec.ofNat 64 0) (lens.map (BitVec.ofNat 64)) := by
    rw [← hl, List.map_map]
    rfl
  rw [hs, ← List.append_nil (lens.map _), showUrbsLoop_eq 0 lens [] (by omega) hroom, ← hlen]
  simp only [showUrbsLoop, List.append_nil]
  refine ⟨by simp; omega, ?_⟩
  rw [List.map_map]
  refine List.map_congr_left fun j _ => ?_
  have := htake j
  have h4096 : (4096 : BitVec 64).toNat = 4096 := rfl
  simp only [Function.comp_apply, Prod.mk.injEq, Nat.zero_add, BitVec.toNat_ofNat, PAGE_SIZE,
    BitVec.toNat_sub, h4096]
  omega

/-- Two lines of 45 bytes: printed at offsets 0 and 45, with 4096 and 4051 bytes of room. -/
theorem showUrbs_fits_twoUrbs :
    let v : Vhci := { vhciStart ⟨1, by decide⟩ with urbpListInbox := [⟨1, 1, 0⟩, ⟨2, 2, 0⟩] }
    let f : Nat → Nat := fun _ => 45
    (∀ e ∈ v.urbpList .inbox, 0 < f e.urb) ∧ ((v.urbpList .inbox).map fun e => f e.urb).sum ≤ 4096 ∧
    ((showUrbs v .inbox f).1.toNat = ((v.urbpList .inbox).map fun e => f e.urb).sum ∧
      (showUrbs v .inbox f).2.map (fun p => (p.1.toNat, p.2.toNat)) =
        (List.range (v.urbpList .inbox).length).map fun j =>
          ((((v.urbpList .inbox).map fun e => f e.urb).take j).sum,
            4096 - (((v.urbpList .inbox).map fun e => f e.urb).take j).sum)) :=
  ⟨by decide, by decide, showUrbs_fits _ _ _ (by decide) (by decide)⟩

/-- Ninety-three urbs in the inbox, each with a line of 45 bytes (such as
`urb/00000000c4d2e6f8 hs ep1in-bulk len 0/512` and its newline on a 64-bit kernel). After 91
lines the total is 4095; the 92nd `snprintf` gets 1 byte of room and returns 45, so the total
becomes 4140, past the page; `PAGE_SIZE - size` wraps to `2^64 - 44`, which the 93rd `snprintf`
refuses, and `show_urbs` returns 4140. -/
theorem showUrbs_overrun :
    let v : Vhci := { vhciStart ⟨1, by decide⟩ with
      urbpListInbox := (List.range 93).map fun u => ⟨u, u, 0⟩ }
    (showUrbs v .inbox fun _ => 45).1 = 4140 ∧
    ((4140 : BitVec 64), PAGE_SIZE - 4140) ∈ (showUrbs v .inbox fun _ => 45).2 ∧
    (PAGE_SIZE - 4140).toNat = 2 ^ 64 - 44 := by
  intro v
  have hv : showUrbs v .inbox (fun _ => 45) = showUrbsLoop (BitVec.ofNat 64 0)
      ((List.replicate 92 45).map (BitVec.ofNat 64) ++ [BitVec.ofNat 64 45]) := by
    simp only [showUrbs, v, Vhci.urbpList, List.map_map, Function.comp_def, List.map_const',
      List.length_range, List.map_replicate]
    rfl
  have hlast : showUrbsLoop (BitVec.ofNat 64 (0 + (List.replicate 92 45).sum))
      [BitVec.ofNat 64 45] = (4140, [(4140, PAGE_SIZE - 4140)]) := by
    simp only [List.sum_replicate, smul_eq_mul]
    decide
  rw [hv, showUrbsLoop_eq 0 _ _ (by simp) fun k hk => by
    simp only [List.length_replicate] at hk
    simp only [List.take_replicate, List.sum_replicate, smul_eq_mul]
    omega, hlast]
  exact ⟨rfl, List.mem_append_right _ (List.mem_singleton_self _), rfl⟩

end VhciHcd
