import VhciHcd.Run.Lifecycle

/-!
# What dispatch validation protects

`ioc_fetch_work` checks an urb once, when it moves it from the inbox to `urbp_list_fetched`
(`fetchWorkCheck`). The worker's later calls use the urb without checking it again:
`is_urb_dir_in` reads its setup packet, `ioc_fetch_data_common` copies its buffer out and
`ioc_giveback_common` copies into it. `UrbOk` is what holds of a listed urb, and `Step.urbsOk`
shows that every step keeps it: no section writes a field the check reads while the urb is
listed, and an urb leaves the inbox for the worker only through the check.
`dispatch_of_reachable` draws the consequences for every argument the worker can pass.
-/

namespace VhciHcd

/-- What holds of the urb of an entry of list `k`: the usb core's bound on its length, the
`actual_length` that `usb_submit_urb` cleared, and, once the urb has left the inbox, the checks
of `ioc_fetch_work`. -/
structure UrbOk (k : UrbpList) (urb : Urb) : Prop where
  length_le : urb.transferBufferLength ≤ INT_MAX
  actualLength_eq : urb.actualLength = 0
  valid : k ≠ .inbox → (fetchWorkCheck urb).isSome

/-- Every listed urb is `UrbOk` for its list. -/
def UrbsOk (s : Sys) : Prop := ∀ k, ∀ e ∈ s.vhc.urbpList k, UrbOk k (s.urbs e.urb)

/-- What a passed check says about the urb: its direction can be read, the length
`ioc_fetch_data_common` takes for it is within the buffer, and the buffer is there whenever data
goes in or out. -/
theorem fetchWorkCheck_isSome {urb : Urb} (h : (fetchWorkCheck urb).isSome)
    (hl : urb.transferBufferLength ≤ INT_MAX) :
    ∃ (isIn : Bool) (len : Nat), isUrbDirIn urb = some isIn ∧
      (if usbPipecontrol urb.pipe then urb.setupPacket.map fun cmd => (cmd.wLength : Int)
        else some (intOfU32 urb.transferBufferLength)) = some (len : Int) ∧
      len ≤ urb.transferBufferLength ∧ (isIn = true ∨ len ≠ 0 → urb.transferBuffer ≠ 0) := by
  unfold fetchWorkCheck at h
  unfold isUrbDirIn
  by_cases hc : usbPipecontrol urb.pipe
  · simp only [hc, if_true] at h ⊢
    split at h <;> rename_i cmd hs
    · cases h
    · simp only [hs, Option.map_some', Option.some.injEq]
      refine ⟨_, cmd.wLength, rfl, rfl, ?_⟩
      split_ifs at h <;> simp_all
  · simp only [hc, Bool.false_eq_true, if_false] at h ⊢
    refine ⟨_, urb.transferBufferLength, rfl, by rw [intOfU32_of_le _ hl], le_rfl, ?_⟩
    split_ifs at h <;> simp_all

variable {s s' : Sys}

namespace UrbsOk

theorem init (conf : VhciConf) : UrbsOk (Sys.init conf) := fun k _ he => by
  cases k <;> cases he

/-- Lists and listed urbs as before. -/
theorem of_eq (h : UrbsOk s) (hl : ∀ k, s'.vhc.urbpList k = s.vhc.urbpList k)
    (hu : s'.urbs = s.urbs) : UrbsOk s' :=
  fun k e he => hu ▸ h k e (hl k ▸ he)

/-- A write that keeps what the checks read. -/
theorem updUrb (h : UrbsOk s) {u : Nat} {f : Urb → Urb}
    (hf : ∀ k urb, UrbOk k urb → UrbOk k (f urb)) : UrbsOk (s.updUrb u f) := fun k e he => by
  rw [Sys.updUrb_urbs]
  split_ifs with hu
  · exact hf k _ (hu ▸ h k e he)
  · exact h k e he

/-- A write to an urb that is not listed. -/
theorem updUrb_of_free (h : UrbsOk s) (hr : RegistryInv s) {u : Nat}
    (hfree : (s.urbs u).hcpriv = none) (f : Urb → Urb) : UrbsOk (s.updUrb u f) := fun k e he => by
  have hu : e.urb ≠ u := fun heu => by
    simp [← heu, hr.hcpriv_eq e (Vhci.mem_allUrbps_of_mem he)] at hfree
  rw [Sys.updUrb_urbs, if_neg hu]
  exact h k e he

/-- Unlinking a listed entry, whatever was written to its urb. -/
theorem listDel (h : UrbsOk s) (hr : RegistryInv s) {e : VhciUrbPriv} (he : e ∈ s.vhc.allUrbps)
    (hv : s'.vhc = s.vhc.listDel e.addr) (hu : ∀ u, u ≠ e.urb → s'.urbs u = s.urbs u) :
    UrbsOk s' := fun k x hx => by
  rw [hv, hr.mem_listDel he] at hx
  rw [hu _ hx.2]
  exact h k x hx.1

theorem parkFetcher (h : UrbsOk s) (o : FetchWorkOutcome) : UrbsOk (s.parkFetcher o) :=
  h.of_eq (fun _ => by simp) (by simp)

theorem giveback (h : UrbsOk s) (hr : RegistryInv s) {e : VhciUrbPriv} (he : e ∈ s.vhc.allUrbps) :
    UrbsOk (vhciUrbGiveback s e).1 :=
  h.listDel hr he rfl fun u hu => by simp [Function.update_apply, hu]

/-- `list_move_tail` of a listed entry to a list whose condition its urb meets. -/
theorem moveTail (h : UrbsOk s) (hr : RegistryInv s) {e : VhciUrbPriv} (he : e ∈ s.vhc.allUrbps)
    {k : UrbpList} (hk : UrbOk k (s.urbs e.urb)) :
    UrbsOk { s with vhc := s.vhc.listMoveTail e k } := fun k' x hx => by
  rcases (hr.mem_listMoveTail he k k' x).1 hx with ⟨hx, -⟩ | ⟨rfl, rfl⟩
  · exact h k' x hx
  · exact hk

/-- The successful end of `vhci_urb_enqueue`. -/
theorem enqueue (h : UrbsOk s) (hr : RegistryInv s) {u addr : Nat}
    (hfree : (s.urbs u).hcpriv = none) {f : Urb → Urb} (hf : UrbOk .inbox (f (s.urbs u))) :
    UrbsOk { s.updUrb u f with vhc := s.vhc.listAddTail ⟨u, addr, 0⟩ .inbox } := fun k x hx => by
  simp only [Vhci.urbpList_listAddTail] at hx
  split_ifs at hx with hk
  · rcases List.mem_append.1 hx with hx | hx
    · exact (h.updUrb_of_free hr hfree f) k x hx
    · obtain rfl := List.mem_singleton.1 hx
      subst hk
      simpa [Sys.updUrb_urbs] using hf
  · exact (h.updUrb_of_free hr hfree f) k x hx

end UrbsOk

/-- A pass through `repeat:` keeps the invariant. -/
theorem UrbsOk.fetchWorkRepeat (h : UrbsOk s) (hr : RegistryInv s) {o : FetchWorkOutcome}
    (hrep : fetchWorkRepeat s = (s', o)) : UrbsOk s' := by
  rcases fetchWorkRepeat_cases hrep with ⟨-, rfl, -⟩ | ⟨e, rest, hi, ⟨len, hc, rfl, -⟩ | ⟨-, rfl, -⟩⟩
  · exact h
  · have he : e ∈ s.vhc.urbpList .inbox := hi ▸ List.mem_cons_self _ _
    have hok := h _ e he
    exact h.moveTail hr (Vhci.mem_allUrbps_of_mem he)
      ⟨hok.length_le, hok.actualLength_eq, fun _ => by simp [hc]⟩
  · simpa using h.giveback hr (Vhci.mem_allUrbps_of_mem (hi ▸ List.mem_cons_self _ _))

/-- Every step keeps the invariant. -/
theorem Step.urbsOk {l : Label} (hs : Step s l s') (hr : RegistryInv s) (h : UrbsOk s) :
    UrbsOk s' := by
  cases hs with
  | urbEnqueue u req alloc linkRet hfree hlen _ he =>
    rcases vhciUrbEnqueue_cases he with ⟨rfl, -⟩ | ⟨addr, -, -, -, rfl⟩
    · exact h.updUrb_of_free hr hfree _
    · rw [Sys.updUrb_updUrb]
      exact h.enqueue hr hfree ⟨by simpa [usbSubmitUrb] using hlen, rfl, fun hk => absurd rfl hk⟩
  | urbDequeue u status hd =>
    rcases vhciUrbDequeue_cases hd with ⟨rfl, -⟩ | ⟨s₁, hc, -, hd⟩
    · exact h
    obtain ⟨-, -, rfl⟩ := usbHcdCheckUnlinkUrb_ok.1 hc
    have hr₁ : RegistryInv (s.updUrb u fun urb => { urb with unlinked := status }) :=
      hr.updUrb fun _ => ⟨rfl, rfl⟩
    have h₁ : UrbsOk (s.updUrb u fun urb => { urb with unlinked := status }) :=
      h.updUrb fun _ _ hok => ⟨hok.1, hok.2, hok.3⟩
    rcases hd with ⟨e, he, rfl, -⟩ | ⟨-, e, he, rfl, -⟩ | ⟨-, -, rfl, -⟩
    · exact h₁.giveback hr₁ (Vhci.mem_allUrbps_of_mem (Vhci.findUrb_mem he).1)
    · have he := (Vhci.findUrb_mem he).1
      have hok := h₁ _ e he
      exact h₁.moveTail hr₁ (Vhci.mem_allUrbps_of_mem he)
        ⟨hok.length_le, hok.actualLength_eq, fun _ => hok.valid (by decide)⟩
    · exact h₁
  | fetchWorkWait => exact h
  | fetchWork hf =>
    refine UrbsOk.parkFetcher ?_ _
    rcases iocFetchWorkLocked_cases hf with ⟨e, rest, hc, rfl, -⟩ | ⟨-, w, -, rfl, -⟩ | ⟨-, -, hrep⟩
    · have he : e ∈ s.vhc.urbpList .cancel := hc ▸ List.mem_cons_self _ _
      have hok := h _ e he
      exact h.moveTail hr (Vhci.mem_allUrbps_of_mem he)
        ⟨hok.length_le, hok.actualLength_eq, fun _ => hok.valid (by decide)⟩
    · exact h.of_eq (by simp) rfl
    · have h₁ : UrbsOk { s with vhc := (fetchWorkPorts s.vhc).1 } := h.of_eq (by simp) rfl
      exact h₁.fetchWorkRepeat hr.of_fetchWorkPorts hrep
  | fetchWorkRepeat _ hrep =>
    refine UrbsOk.parkFetcher ?_ _
    have h₁ : UrbsOk { s with fetchers := s.fetchers - 1 } := h.of_eq (fun _ => rfl) rfl
    exact h₁.fetchWorkRepeat (hr.of_vhc_urbs rfl rfl) hrep
  | giveback a hg =>
    rcases iocGivebackCommon_cases hg with ⟨-, rfl, -⟩ | ⟨e, rv, isIn, hl, -, hg⟩
    · exact h
    obtain ⟨k, -, he⟩ := givebackLookup_mem hl
    replace he := Vhci.mem_allUrbps_of_mem he
    rcases hg with ⟨err, -, rfl, -⟩ | ⟨-, -, rfl, -⟩
    · exact h.giveback hr he
    · exact h.listDel hr he (by simp) fun u hu => by simp [Function.update_apply, Sys.updUrb_urbs, hu]
  | fetchData a hd =>
    rcases iocFetchDataCommon_cases hd with ⟨e, -, rfl, -⟩ | ⟨-, e, he, rfl, -⟩ | ⟨-, -, rfl, -⟩
    · exact h
    · obtain ⟨-, k, -, he⟩ := findUrb_cancel_some he
      exact h.giveback hr (Vhci.mem_allUrbps_of_mem he)
    · exact h
  | hcdRemove _ hrem =>
    obtain ⟨k, e, he, rfl, -⟩ := hcdRemoveStep_some hrem
    rw [vhciUrbGiveback_maybeSetStatus]
    exact (h.giveback hr (Vhci.mem_allUrbps_of_mem he)).of_eq (fun _ => rfl) rfl
  | hcdRemoveDone => exact h.of_eq (fun _ => rfl) rfl
  | hubControl _ _ _ _ _ _ _ hc => exact h.of_eq (vhciHubControl_hubWrite hc).urbpList rfl
  | portStat _ _ _ hp => exact h.of_eq (iocPortStat_hubWrite hp).urbpList rfl
  | busSuspend => exact h.of_eq (vhciBusSuspend_hubWrite _).urbpList rfl
  | busResume _ hb => exact h.of_eq (vhciBusResume_hubWrite hb).urbpList rfl
  | hubStatus => exact h

theorem urbsOk_of_reachable {conf : VhciConf} (h : Reachable conf s) : UrbsOk s :=
  (@Reachable.induction conf (fun s => RegistryInv s ∧ UrbsOk s) ⟨registryInv_init conf, .init conf⟩
    (fun _ _ _ _ hi hs => ⟨hs.registryInv hi.1, hs.urbsOk hi.1 hi.2⟩) _ h).2

/-! ## The worker's calls on a checked urb -/

/-- `ioc_fetch_data_common` copies out only for an OUT urb with data, `tb_len` bytes from its
buffer. -/
theorem fetchDataFound_copyOut {urb : Urb} {a : FetchDataArgs} {tbLen : Int} {isIn : Bool}
    {c : BufferCopy} (hc : c ∈ (fetchDataFound urb a tbLen isIn).copyOut) :
    isIn = false ∧ tbLen ≠ 0 ∧ c = ⟨urb.transferBuffer, (tbLen % 2 ^ 64).toNat⟩ := by
  unfold fetchDataFound at hc
  dsimp only at hc
  split at hc
  · cases hc
  · split_ifs at hc with h₁ <;> cases hc <;> exact ⟨by simpa using h₁.1, h₁.2, rfl⟩

/-- `ioc_giveback_common` copies in only for an IN urb, `buffer_actual` bytes into its buffer. -/
theorem givebackDataStage_copyIn {urb : Urb} {a : GivebackArgs} {isIn : Bool} {c : BufferCopy}
    (hc : c ∈ (givebackDataStage urb a isIn).1) :
    isIn = true ∧ c = ⟨urb.transferBuffer, a.act.toULong⟩ := by
  unfold givebackDataStage at hc
  split_ifs at hc <;> simp_all

/-- The length checks keep `buffer_actual` within the buffer, except for an isochronous OUT urb,
whose `buffer_actual` they do not look at. -/
theorem givebackLengthCheck_eq_none {urb : Urb} {a : GivebackArgs} {isIn : Bool}
    (h : givebackLengthCheck urb a isIn = none) (hiso : usbPipeisoc urb.pipe → isIn = true) :
    a.act.toU32 ≤ urb.transferBufferLength := by
  unfold givebackLengthCheck at h
  simp only [ite_eq_iff, reduceCtorEq, and_false, false_or, or_false] at h
  rcases h with ⟨hi, h, -⟩ | ⟨-, h⟩
  · simp only [hiso hi, true_and, not_not] at h
    omega
  · omega

/-- The urb a worker call finds under its handle has passed the checks. -/
theorem UrbsOk.of_givebackLookup (h : UrbsOk s) {a : GivebackArgs} {e : VhciUrbPriv} {rv : Int}
    (hl : givebackLookup s.vhc a.handle = some (e, rv)) :
    e.urb = a.handle ∧ (fetchWorkCheck (s.urbs e.urb)).isSome ∧ UrbOk .fetched (s.urbs e.urb) := by
  obtain ⟨k, hk, he⟩ := givebackLookup_mem hl
  have hok := h k e he
  exact ⟨(givebackLookup_some hl).1, hok.valid hk, hok.length_le, hok.actualLength_eq,
    fun _ => hok.valid hk⟩

/-- `ioc_fetch_data_common` on a checked urb never faults, and copies out of the urb's own
buffer, never `NULL`, at most `transfer_buffer_length` bytes. -/
theorem UrbsOk.fetchData_copy (h : UrbsOk s) (a : FetchDataArgs) :
    ∃ r, iocFetchDataCommon s a = some r ∧ ∀ c ∈ r.2.copyOut,
      c.kernelPtr = (s.urbs a.handle).transferBuffer ∧ c.kernelPtr ≠ 0 ∧
      c.len ≤ (s.urbs a.handle).transferBufferLength := by
  unfold iocFetchDataCommon
  split
  · split <;> exact ⟨_, rfl, fun c hc => nomatch hc⟩
  · rename_i e hf
    obtain ⟨he, hu⟩ := Vhci.findUrb_mem hf
    have hok := h _ e he
    obtain ⟨isIn, len, hd, ht, hlen, hbuf⟩ :=
      fetchWorkCheck_isSome (hok.valid (by decide)) hok.length_le
    dsimp only
    rw [ht, Option.some_bind, hd, Option.map_some']
    refine ⟨_, rfl, fun c hc => ?_⟩
    obtain ⟨-, hne, rfl⟩ := fetchDataFound_copyOut hc
    have hmax := hok.length_le
    simp only [INT_MAX] at hmax
    rw [← hu]
    exact ⟨rfl, hbuf (.inr (by exact_mod_cast hne)), by dsimp only; omega⟩

/-- `ioc_giveback_common` on a checked urb never faults, and copies into the urb's own buffer,
never `NULL`, at most `transfer_buffer_length` bytes. -/
theorem UrbsOk.giveback_copy (h : UrbsOk s) (a : GivebackArgs) :
    ∃ r, iocGivebackCommon s a = some r ∧ ∀ c ∈ r.2.copyIn,
      c.kernelPtr = (s.urbs a.handle).transferBuffer ∧ c.kernelPtr ≠ 0 ∧
      c.len ≤ (s.urbs a.handle).transferBufferLength := by
  cases hl : givebackLookup s.vhc a.handle with
  | none => exact ⟨(s, ⟨-ENOENT, none, none⟩), by simp [iocGivebackCommon, hl], fun c hc => nomatch hc⟩
  | some p =>
    obtain ⟨e, rv⟩ := p
    obtain ⟨hu, hc, hok⟩ := h.of_givebackLookup hl
    obtain ⟨isIn, len, hd, -, -, hbuf⟩ := fetchWorkCheck_isSome hc hok.length_le
    obtain ⟨⟨s', r⟩, hg⟩ := Option.isSome_iff_exists.1
      (show (iocGivebackCommon s a).isSome by simp [iocGivebackCommon, hl, hd])
    refine ⟨_, hg, fun c hcin => ?_⟩
    rcases iocGivebackCommon_cases hg with ⟨-, -, rfl⟩ | ⟨e', rv', isIn', hl', hd', hcase⟩
    · cases hcin
    rw [hl] at hl'
    obtain ⟨rfl, rfl⟩ := Prod.mk.inj (Option.some.inj hl')
    rw [hd] at hd'
    obtain rfl := Option.some.inj hd'
    have hcopy : c ∈ (givebackDataStage (s.urbs e.urb) a isIn).1 ∧
        givebackLengthCheck (s.urbs e.urb) a isIn = none := by
      rcases hcase with ⟨err, ⟨-, hn⟩ | ⟨hlc, -, hcd⟩, -⟩ | ⟨hlc, -, -, rfl⟩
      · rw [hn] at hcin; cases hcin
      · rw [hcd] at hcin; exact ⟨hcin, hlc⟩
      · exact ⟨hcin, hlc⟩
    obtain ⟨rfl, rfl⟩ := givebackDataStage_copyIn hcopy.1
    have hle := givebackLengthCheck_eq_none hcopy.2 fun _ => rfl
    obtain ⟨-, heq, -⟩ := CInt.nonneg_of_toU32_le a.act (hle.trans hok.length_le)
    rw [← hu]
    exact ⟨rfl, hbuf (.inl rfl), heq ▸ hle⟩

/-- In every reachable state, every urb in `urbp_list_fetched`, `urbp_list_cancel` or
`urbp_list_canceling` satisfies the checks `ioc_fetch_work` made, so `is_urb_dir_in` reads its
direction without a `NULL` dereference; and for every argument of the worker,
`ioc_fetch_data_common` and `ioc_giveback_common` run without fault and copy only between user
space and the urb's own buffer, never `NULL`, at most `transfer_buffer_length` bytes. -/
theorem dispatch_of_reachable {conf : VhciConf} (h : Reachable conf s) :
    (∀ k, k ≠ .inbox → ∀ e ∈ s.vhc.urbpList k,
      (fetchWorkCheck (s.urbs e.urb)).isSome ∧ isUrbDirIn (s.urbs e.urb) ≠ none) ∧
    (∀ a, ∃ r, iocFetchDataCommon s a = some r ∧ ∀ c ∈ r.2.copyOut,
      c.kernelPtr = (s.urbs a.handle).transferBuffer ∧ c.kernelPtr ≠ 0 ∧
      c.len ≤ (s.urbs a.handle).transferBufferLength) ∧
    (∀ a, ∃ r, iocGivebackCommon s a = some r ∧ ∀ c ∈ r.2.copyIn,
      c.kernelPtr = (s.urbs a.handle).transferBuffer ∧ c.kernelPtr ≠ 0 ∧
      c.len ≤ (s.urbs a.handle).transferBufferLength) := by
  have hs := urbsOk_of_reachable h
  refine ⟨fun k hk e he => ?_, hs.fetchData_copy, hs.giveback_copy⟩
  have hok := hs k e he
  obtain ⟨isIn, -, hd, -⟩ := fetchWorkCheck_isSome (hok.valid hk) hok.length_le
  exact ⟨hok.valid hk, by simp [hd]⟩

/-- The state after `ioc_fetch_work` handed out a bulk urb, which is then in
`urbp_list_fetched`. -/
theorem dispatch_of_reachable_fetched :
    let s₀ := Sys.init ⟨1, by decide⟩
    let s₁ := (vhciUrbEnqueue (s₀.updUrb 5 (usbSubmitUrb ·
      { (default : Urb) with pipe := ⟨.bulk, false, 1, 1⟩ })) 5 (some 100) 0).1
    let s := (iocFetchWorkLocked s₁).1
    Reachable ⟨1, by decide⟩ s ∧
    (∀ k, k ≠ .inbox → ∀ e ∈ s.vhc.urbpList k,
      (fetchWorkCheck (s.urbs e.urb)).isSome ∧ isUrbDirIn (s.urbs e.urb) ≠ none) ∧
    (∀ a, ∃ r, iocFetchDataCommon s a = some r ∧ ∀ c ∈ r.2.copyOut,
      c.kernelPtr = (s.urbs a.handle).transferBuffer ∧ c.kernelPtr ≠ 0 ∧
      c.len ≤ (s.urbs a.handle).transferBufferLength) ∧
    (∀ a, ∃ r, iocGivebackCommon s a = some r ∧ ∀ c ∈ r.2.copyIn,
      c.kernelPtr = (s.urbs a.handle).transferBuffer ∧ c.kernelPtr ≠ 0 ∧
      c.len ≤ (s.urbs a.handle).transferBufferLength) :=
  have hr : Reachable ⟨1, by decide⟩ _ := ⟨_, ((Run.nil _).snoc
    (Step.urbEnqueue_init 5 { (default : Urb) with pipe := ⟨.bulk, false, 1, 1⟩ } 100 0
      (by decide))).snoc (Step.fetchWork rfl)⟩
  ⟨hr, dispatch_of_reachable hr⟩

/-- Worker calls change the registry exactly as their result says, and in a reachable state they
always produce one. `ioc_giveback_common` returns `-ENOENT` exactly for a handle in none of
`fetched`, `canceling` and `cancel`, and then changes nothing; on every other return it has taken
that urb's entry off its list, whichever it was, and gives the urb back once.
`ioc_fetch_data_common` changes the lists only when it returns `-ECANCELED`, which it does for a
handle in `cancel` or `canceling`, giving the urb back; on its other returns nothing changes. -/
theorem worker_calls_registry {conf : VhciConf} (h : Reachable conf s) (a : GivebackArgs)
    (d : FetchDataArgs) :
    (∃ s' r, iocGivebackCommon s a = some (s', r) ∧ GivebackEffect s s' a.handle r) ∧
    (∃ s' r, iocFetchDataCommon s d = some (s', r) ∧ FetchDataEffect s s' d.handle r) := by
  have hs := urbsOk_of_reachable h
  obtain ⟨⟨s₁, r₁⟩, hg, -⟩ := hs.giveback_copy a
  obtain ⟨⟨s₂, r₂⟩, hd, -⟩ := hs.fetchData_copy d
  exact ⟨⟨s₁, r₁, hg, iocGivebackCommon_effect hg⟩, ⟨s₂, r₂, hd, iocFetchDataCommon_effect hd⟩⟩

/-- A bulk OUT urb that `ioc_fetch_work` handed out is found under its handle by both calls. -/
theorem worker_calls_registry_fetched :
    let s₀ := Sys.init ⟨1, by decide⟩
    let s₁ := (vhciUrbEnqueue (s₀.updUrb 5 (usbSubmitUrb ·
      { (default : Urb) with pipe := ⟨.bulk, false, 1, 1⟩ })) 5 (some 100) 0).1
    let s := (iocFetchWorkLocked s₁).1
    let a : GivebackArgs := ⟨5, 0, ⟨0, by decide⟩, 0, 0, 0, 0, true, true, []⟩
    let d : FetchDataArgs := ⟨5, 0, 0, 0, 0, true, true⟩
    Reachable ⟨1, by decide⟩ s ∧ s.vhc.urbpList .fetched = [⟨5, 100, 0⟩] ∧
    (∃ s' r, iocGivebackCommon s a = some (s', r) ∧ GivebackEffect s s' a.handle r) ∧
    (∃ s' r, iocFetchDataCommon s d = some (s', r) ∧ FetchDataEffect s s' d.handle r) :=
  have hr : Reachable ⟨1, by decide⟩ _ := ⟨_, ((Run.nil _).snoc
    (Step.urbEnqueue_init 5 { (default : Urb) with pipe := ⟨.bulk, false, 1, 1⟩ } 100 0 (by decide))).snoc
    (Step.fetchWork rfl)⟩
  ⟨hr, rfl, worker_calls_registry hr _ _⟩

/-- `ioc_giveback_common` leaves `actual_length` within the buffer for every urb but an
isochronous OUT one: the length checks bound `buffer_actual` for all others, and a rejected call
leaves the `0` of `usb_submit_urb`. -/
theorem UrbsOk.giveback_actualLength_le (h : UrbsOk s) {a : GivebackArgs} {r : GivebackResult}
    (hg : iocGivebackCommon s a = some (s', r)) {g : Giveback} (hgb : r.gb = some g)
    (hiso : ¬(usbPipeisoc (s.urbs g.urb).pipe ∧ isUrbDirIn (s.urbs g.urb) = some false)) :
    (s'.urbs g.urb).actualLength ≤ (s'.urbs g.urb).transferBufferLength := by
  rcases iocGivebackCommon_cases hg with ⟨-, -, rfl⟩ | ⟨e, rv, isIn, hl, hd, hcase⟩
  · cases hgb
  have hok := (h.of_givebackLookup hl).2.2
  rcases hcase with ⟨err, -, rfl, -, hgb'⟩ | ⟨hlc, -, rfl, rfl⟩
  · obtain rfl : g = ⟨e.urb, e.status⟩ := Option.some.inj (hgb.symm.trans hgb')
    simp [hok.actualLength_eq]
  · have hgu : g.urb = e.urb := by
      simp only [Option.some.injEq] at hgb
      simp [← hgb]
    rw [hgu] at hiso ⊢
    have hle := givebackLengthCheck_eq_none hlc fun hi => by
      cases isIn
      · exact absurd ⟨hi, hd⟩ hiso
      · rfl
    simpa [Sys.updUrb_urbs, givebackApply] using hle

/-- A run of three steps: the usb core queues an isochronous OUT urb of one packet over an
8-byte buffer, `ioc_fetch_work` hands it out, and the worker gives it back with its one packet
result and `buffer_actual = 9`. The isochronous checks compare `buffer_actual` with the buffer
only for an IN urb, so the call succeeds, and the urb goes back to its owner with
`actual_length = 9` for a buffer of `8` bytes. -/
theorem giveback_isoOut_actualLength :
    let req : Urb := { (default : Urb) with
      pipe := ⟨.isochronous, false, 1, 1⟩, transferBuffer := 200, transferBufferLength := 8,
      numberOfPackets := 1, isoFrameDesc := [⟨0, 8, 0, 0⟩] }
    let s₀ : Sys := Sys.init ⟨1, by decide⟩
    let s₁ := (vhciUrbEnqueue (s₀.updUrb 5 (usbSubmitUrb · req)) 5 (some 100) 0).1
    let s₂ := (iocFetchWorkLocked s₁).1
    let a : GivebackArgs := ⟨5, 0, ⟨9, by decide⟩, 1, 0, 0, 300, true, true, [(0, 8)]⟩
    ∃ s₃ r, Run s₀ [(s₀, .urbEnqueue 5 0, s₁), (s₁, .fetchWork (iocFetchWorkLocked s₁).2, s₂),
        (s₂, .giveback a r, s₃)] s₃ ∧
      r.retval = 0 ∧ r.gb = some ⟨5, 0⟩ ∧
      (s₃.urbs 5).transferBufferLength = 8 ∧ (s₃.urbs 5).actualLength = 9 := by
  intro req s₀ s₁ s₂ a
  exact ⟨_, _, (((Run.nil _).snoc (Step.urbEnqueue_init 5 req 100 0 (by decide))).snoc
    (Step.fetchWork rfl)).snoc (Step.giveback a rfl (by decide)), rfl, rfl, rfl, rfl⟩

end VhciHcd
