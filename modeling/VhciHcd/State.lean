import VhciHcd.Port.Basic
import VhciHcd.Urb.Basic

/-!
# The controller state

`struct vhci` is kept flat, field for field, minus the lock, the wait queue and the timer. The
port array is a function of the zero-based index; entries at `portCount` and above stand for
nothing and no operation reads them. The four urb lists are reached through `UrbpList`, so a
lemma about "the list `k`" is stated once for all four.

`vhci_urb_giveback` removes its entry with `list_del`, which does not say which list the entry is
on: `listDel` unlinks the node at the entry's address from whichever list holds it (a node is
at one address, so every entry at that address is that node). Moves are `list_del` followed by
`list_add_tail`, as `list_move_tail` is.
-/

namespace VhciHcd

/-- `struct vhci_conf`: the port count `ioc_register` accepted (at most 31). -/
structure VhciConf where
  portCount : Nat
  portCount_le : portCount ≤ 31

/-- The four urb lists of `struct vhci`. -/
inductive UrbpList
  | inbox
  | fetched
  | cancel
  | canceling
deriving DecidableEq, Repr

/-- `struct vhci`. -/
structure Vhci where
  rhState : VhciRhState
  ports : Nat → VhciPort
  portCount : Nat
  portSchedOffset : Nat
  portUpdate : BitVec 32
  frameNum : Int
  urbpListInbox : List VhciUrbPriv
  urbpListFetched : List VhciUrbPriv
  urbpListCancel : List VhciUrbPriv
  urbpListCanceling : List VhciUrbPriv

/-- The state `vhci_start` leaves behind: zeroed ports, empty lists, the root hub running. -/
def vhciStart (conf : VhciConf) : Vhci where
  rhState := .running
  ports := fun _ => default
  portCount := conf.portCount
  portSchedOffset := 0
  portUpdate := 0
  frameNum := 0
  urbpListInbox := []
  urbpListFetched := []
  urbpListCancel := []
  urbpListCanceling := []

/-- `vhci_get_frame`: `atomic_read(&vhc->frame_num)`. -/
def vhciGetFrame (v : Vhci) : Int := v.frameNum

namespace Vhci

def urbpList (v : Vhci) : UrbpList → List VhciUrbPriv
  | .inbox => v.urbpListInbox
  | .fetched => v.urbpListFetched
  | .cancel => v.urbpListCancel
  | .canceling => v.urbpListCanceling

/-- Rewrite every list of the registry at once. -/
def mapLists (v : Vhci) (f : UrbpList → List VhciUrbPriv → List VhciUrbPriv) : Vhci :=
  { v with
    urbpListInbox := f .inbox v.urbpListInbox
    urbpListFetched := f .fetched v.urbpListFetched
    urbpListCancel := f .cancel v.urbpListCancel
    urbpListCanceling := f .canceling v.urbpListCanceling }

/-- `list_del(&urbp->urbp_list)` for the entry at address `a`. -/
def listDel (v : Vhci) (a : Nat) : Vhci :=
  v.mapLists fun _ l => l.filter (·.addr != a)

/-- `list_add_tail(&e->urbp_list, list k)`. -/
def listAddTail (v : Vhci) (e : VhciUrbPriv) (k : UrbpList) : Vhci :=
  v.mapLists fun k' l => if k' = k then l ++ [e] else l

/-- `list_move_tail(&e->urbp_list, list k)`. -/
def listMoveTail (v : Vhci) (e : VhciUrbPriv) (k : UrbpList) : Vhci :=
  (v.listDel e.addr).listAddTail e k

/-- The `list_for_each_entry` searches of the driver: the first entry of list `k` for urb `u`. -/
def findUrb (v : Vhci) (k : UrbpList) (u : Nat) : Option VhciUrbPriv :=
  (v.urbpList k).find? (·.urb == u)

/-- The four lists in the order `vhci_hcd_remove` drains them. -/
def allUrbps (v : Vhci) : List VhciUrbPriv :=
  v.urbpListInbox ++ v.urbpListFetched ++ v.urbpListCancel ++ v.urbpListCanceling

@[simp] theorem urbpList_mapLists (v : Vhci) (f) (k : UrbpList) :
    (v.mapLists f).urbpList k = f k (v.urbpList k) := by
  cases k <;> rfl

@[simp] theorem mapLists_ports (v : Vhci) (f) : (v.mapLists f).ports = v.ports := rfl
@[simp] theorem mapLists_portCount (v : Vhci) (f) : (v.mapLists f).portCount = v.portCount := rfl
@[simp] theorem mapLists_portUpdate (v : Vhci) (f) :
    (v.mapLists f).portUpdate = v.portUpdate := rfl
@[simp] theorem mapLists_portSchedOffset (v : Vhci) (f) :
    (v.mapLists f).portSchedOffset = v.portSchedOffset := rfl
@[simp] theorem mapLists_rhState (v : Vhci) (f) : (v.mapLists f).rhState = v.rhState := rfl

@[simp] theorem urbpList_listDel (v : Vhci) (a : Nat) (k : UrbpList) :
    (v.listDel a).urbpList k = (v.urbpList k).filter (·.addr != a) := by
  simp [listDel]

@[simp] theorem urbpList_listAddTail (v : Vhci) (e : VhciUrbPriv) (k k' : UrbpList) :
    (v.listAddTail e k).urbpList k' = if k' = k then v.urbpList k' ++ [e] else v.urbpList k' := by
  simp [listAddTail]

/-- The root-hub half of the state: every field the urb lists do not hold. -/
def hub (v : Vhci) : VhciRhState × (Nat → VhciPort) × Nat × Nat × BitVec 32 :=
  (v.rhState, v.ports, v.portCount, v.portSchedOffset, v.portUpdate)

@[simp] theorem hub_mapLists (v : Vhci) (f) : (v.mapLists f).hub = v.hub := rfl
@[simp] theorem hub_listDel (v : Vhci) (a : Nat) : (v.listDel a).hub = v.hub := rfl
@[simp] theorem hub_listAddTail (v : Vhci) (e : VhciUrbPriv) (k : UrbpList) :
    (v.listAddTail e k).hub = v.hub := rfl
@[simp] theorem hub_listMoveTail (v : Vhci) (e : VhciUrbPriv) (k : UrbpList) :
    (v.listMoveTail e k).hub = v.hub := rfl

theorem allUrbps_eq (v : Vhci) :
    v.allUrbps = v.urbpList .inbox ++ v.urbpList .fetched ++ v.urbpList .cancel ++
      v.urbpList .canceling := rfl

theorem mem_allUrbps {v : Vhci} {e : VhciUrbPriv} :
    e ∈ v.allUrbps ↔ ∃ k, e ∈ v.urbpList k := by
  simp only [allUrbps, List.mem_append]
  constructor
  · rintro (((h | h) | h) | h)
    exacts [⟨.inbox, h⟩, ⟨.fetched, h⟩, ⟨.cancel, h⟩, ⟨.canceling, h⟩]
  · rintro ⟨k, h⟩
    cases k <;> simp_all [urbpList]

theorem findUrb_mem {v : Vhci} {k : UrbpList} {u : Nat} {e : VhciUrbPriv}
    (h : v.findUrb k u = some e) : e ∈ v.urbpList k ∧ e.urb = u := by
  simpa using And.intro (List.mem_of_find?_eq_some h) (List.find?_some h)

theorem findUrb_eq_none {v : Vhci} {k : UrbpList} {u : Nat} :
    v.findUrb k u = none ↔ ∀ e ∈ v.urbpList k, e.urb ≠ u := by
  simp [findUrb]

theorem mem_allUrbps_of_mem {v : Vhci} {k : UrbpList} {e : VhciUrbPriv} (h : e ∈ v.urbpList k) :
    e ∈ v.allUrbps :=
  mem_allUrbps.2 ⟨k, h⟩

theorem urbpList_sublist_allUrbps (v : Vhci) (k : UrbpList) :
    (v.urbpList k).Sublist v.allUrbps := by
  rw [allUrbps_eq]
  cases k
  · exact ((List.sublist_append_left _ _).trans (List.sublist_append_left _ _)).trans
      (List.sublist_append_left _ _)
  · exact ((List.sublist_append_right _ _).trans (List.sublist_append_left _ _)).trans
      (List.sublist_append_left _ _)
  · exact (List.sublist_append_right _ _).trans (List.sublist_append_left _ _)
  · exact List.sublist_append_right _ _

/-- With no entry listed twice, an entry is on one list only. -/
theorem eq_of_mem_urbpList {v : Vhci} {e : VhciUrbPriv} {k k' : UrbpList}
    (hn : v.allUrbps.Nodup) (h : e ∈ v.urbpList k) (h' : e ∈ v.urbpList k') : k = k' := by
  have hc := List.nodup_iff_count_le_one.1 hn e
  have h₁ := List.count_pos_iff.2 h
  have h₂ := List.count_pos_iff.2 h'
  rw [allUrbps_eq] at hc
  simp only [List.count_append] at hc
  cases k <;> cases k' <;> first | rfl | omega

theorem allUrbps_listDel (v : Vhci) (a : Nat) :
    (v.listDel a).allUrbps = v.allUrbps.filter (·.addr != a) := by
  simp [allUrbps_eq, List.filter_append]

theorem allUrbps_listAddTail (v : Vhci) (e : VhciUrbPriv) (k : UrbpList) :
    List.Perm (v.listAddTail e k).allUrbps (v.allUrbps ++ [e]) := by
  rw [List.perm_iff_count]
  intro x
  cases k <;> simp only [allUrbps_eq, urbpList_listAddTail, reduceCtorEq, ↓reduceIte,
    List.count_append] <;> omega

end Vhci

/-- With the addresses distinct, unlinking the node at `e`'s address removes `e` and nothing
else. -/
theorem filter_addr_eq_erase {l : List VhciUrbPriv} {e : VhciUrbPriv}
    (hn : (l.map (·.addr)).Nodup) (he : e ∈ l) : l.filter (·.addr != e.addr) = l.erase e := by
  induction l with
  | nil => rfl
  | cons x xs ih =>
    simp only [List.map_cons, List.nodup_cons, List.mem_map, not_exists, not_and] at hn
    by_cases hx : x = e
    · subst hx
      have hxs : xs.filter (·.addr != x.addr) = xs :=
        List.filter_eq_self.2 fun y hy => by simpa using fun h => hn.1 y hy h
      simp [hxs]
    · have he' : e ∈ xs := (List.mem_cons.1 he).resolve_left (Ne.symm hx)
      have hne : x.addr ≠ e.addr := fun h => hn.1 e he' h.symm
      simp [List.filter_cons, hne, List.erase_cons, hx, ih hn.2 he']

namespace Vhci

/-- `list_move_tail` of a listed entry keeps the set of entries. -/
theorem allUrbps_listMoveTail {v : Vhci} {e : VhciUrbPriv} (k : UrbpList)
    (hn : (v.allUrbps.map (·.addr)).Nodup) (he : e ∈ v.allUrbps) :
    List.Perm (v.listMoveTail e k).allUrbps v.allUrbps := by
  refine (allUrbps_listAddTail _ e k).trans ?_
  rw [allUrbps_listDel, filter_addr_eq_erase hn he]
  exact (List.perm_append_singleton _ _).trans (List.perm_cons_erase he).symm

/-- The list that holds urb `u`, looked for in the order `vhci_hcd_remove` drains them; `none`
when the urb is not queued. -/
def location (v : Vhci) (u : Nat) : Option UrbpList :=
  [UrbpList.inbox, .fetched, .cancel, .canceling].find? fun k => (v.urbpList k).any (·.urb == u)

theorem location_eq_none {v : Vhci} {u : Nat} :
    v.location u = none ↔ ∀ k, ∀ e ∈ v.urbpList k, e.urb ≠ u := by
  simp only [location, List.find?_eq_none, List.mem_cons, List.mem_singleton, List.not_mem_nil,
    or_false, List.any_eq_true, beq_iff_eq, not_exists, not_and]
  constructor
  · intro h k
    exact h k (by cases k <;> simp)
  · intro h k _
    exact h k

/-- The entries of the lists determine where each urb is. -/
theorem location_congr {v v' : Vhci} {u : Nat}
    (h : ∀ k, ((v'.urbpList k).any (·.urb == u)) = ((v.urbpList k).any (·.urb == u))) :
    v'.location u = v.location u := by
  simp only [location, h]

theorem location_eq_of_urbpList {v v' : Vhci} (h : ∀ k, v'.urbpList k = v.urbpList k) :
    v'.location = v.location :=
  funext fun _ => location_congr fun k => by rw [h k]

/-- An urb held by list `k` and by no other is at `k`. -/
theorem location_eq_some {v : Vhci} {u : Nat} {k : UrbpList} {e : VhciUrbPriv}
    (he : e ∈ v.urbpList k) (hu : e.urb = u)
    (huniq : ∀ k', ∀ e' ∈ v.urbpList k', e'.urb = u → k' = k) : v.location u = some k := by
  have hany : ∀ k', ((v.urbpList k').any (·.urb == u)) = decide (k' = k) := fun k' => by
    by_cases hk : k' = k
    · subst hk
      simpa using ⟨e, he, hu⟩
    · simpa [hk] using fun e' he' hu' => hk (huniq k' e' he' hu')
  simp only [location, hany]
  cases k <;> rfl

/-- Queueing a new urb puts it in the inbox and moves no other. -/
theorem location_listAddTail {v : Vhci} {u addr : Nat} (hu : ∀ e ∈ v.allUrbps, e.urb ≠ u)
    (u' : Nat) :
    (v.listAddTail ⟨u, addr, 0⟩ .inbox).location u' =
      if u' = u then some .inbox else v.location u' := by
  have hmem : ∀ k x, x ∈ (v.listAddTail ⟨u, addr, 0⟩ .inbox).urbpList k ↔
      x ∈ v.urbpList k ∨ (k = .inbox ∧ x = ⟨u, addr, 0⟩) := fun k x => by
    rw [urbpList_listAddTail]
    split_ifs with hk <;> simp [hk]
  split_ifs with hu'
  · subst hu'
    refine location_eq_some ((hmem _ _).2 (.inr ⟨rfl, rfl⟩)) rfl fun k x hx hxu => ?_
    rcases (hmem k x).1 hx with hx | ⟨rfl, -⟩
    · exact absurd hxu (hu x (mem_allUrbps_of_mem hx))
    · rfl
  · refine location_congr fun k => Bool.eq_iff_iff.2 ?_
    simp only [List.any_eq_true, beq_iff_eq, hmem]
    constructor
    · rintro ⟨x, hx | ⟨-, rfl⟩, hxu⟩
      · exact ⟨x, hx, hxu⟩
      · exact absurd hxu.symm hu'
    · rintro ⟨x, hx, hxu⟩
      exact ⟨x, .inl hx, hxu⟩

end Vhci

end VhciHcd
