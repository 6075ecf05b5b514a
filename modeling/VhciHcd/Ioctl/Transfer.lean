import VhciHcd.Urb.Core

/-!
# Data exchange with the worker

`ioc_giveback_common` and `ioc_fetch_data_common`, each one critical section. Both look the
handle up in `urbp_list_fetched`, then in the two cancel lists (in opposite orders). The worker's
arguments are the ioctl's fields, and the state of its memory as these functions see it: what
`access_ok` answers for the `iso` array, whether `copy_from_user`/`copy_to_user` moves every
byte, and the packet results `__get_user` reads.

A `NULL` `setup_packet` read by `is_urb_dir_in` or by `ioc_fetch_data_common` is a kernel fault,
the `none` of these functions. The copies between the urb's buffer and user space are reported
as `BufferCopy` (kernel address and byte count, as `unsigned long`); the bytes themselves are
not modelled, since no decision of the driver depends on them.

`GivebackEffect` and `FetchDataEffect` say what each call did to the four lists, read off its
return value; `iocGivebackCommon_effect` and `iocFetchDataCommon_effect` prove them of every
result, for every state and every argument.
-/

namespace VhciHcd

/-- `is_urb_dir_in`; `none` when it dereferences a `NULL` setup packet. -/
def isUrbDirIn (urb : Urb) : Option Bool :=
  if usbPipecontrol urb.pipe then urb.setupPacket.map fun cmd => cmd.bRequestType &&& 0x80 ≠ 0
  else some (usbPipein urb.pipe)

/-- A `copy_from_user` into, or `copy_to_user` out of, the urb's transfer buffer. -/
structure BufferCopy where
  kernelPtr : Nat
  len : Nat
deriving DecidableEq, Repr

/-- The arguments of `ioc_giveback_common`, with what the worker's memory holds for them. -/
structure GivebackArgs where
  handle : Nat
  status : Int
  act : CInt
  isoCount : Int
  errCount : Int
  buf : Nat
  iso : Nat
  isoAccessOk : Bool
  copyOk : Bool
  isoPackets : List (Int × Nat)

/-- What `ioc_giveback_common` returns, the give-back it leads to, and the copy it issues. -/
structure GivebackResult where
  retval : Int
  gb : Option Giveback
  copyIn : Option BufferCopy
deriving DecidableEq, Repr

/-- The length checks of `ioc_giveback_common`, before the data stage: `some r` is a
`goto done_with_errors` returning `r`. -/
def givebackLengthCheck (urb : Urb) (a : GivebackArgs) (isIn : Bool) : Option Int :=
  if usbPipeisoc urb.pipe then
    if isIn ∧ a.act.toU32 ≠ urb.transferBufferLength then some (-ENOBUFS)
    else if a.isoCount ≠ urb.numberOfPackets then some (-EINVAL)
    else if a.isoCount ≠ 0 ∧ a.iso = 0 then some (-EINVAL)
    else if a.isoCount ≠ 0 ∧ !a.isoAccessOk then some (-EFAULT)
    else none
  else if a.act.toU32 > urb.transferBufferLength then
    some (if isIn then -ENOBUFS else -EINVAL)
  else none

/-- The data stage of `ioc_giveback_common`: the copy it issues, and `some r` for a
`goto done_with_errors` returning `r`. -/
def givebackDataStage (urb : Urb) (a : GivebackArgs) (isIn : Bool) :
    Option BufferCopy × Option Int :=
  if isIn then
    if a.act.val ≠ 0 ∧ a.buf = 0 then (none, some (-EINVAL))
    else (some ⟨urb.transferBuffer, a.act.toULong⟩, if a.copyOk then none else some (-EFAULT))
  else if a.buf ≠ 0 then (none, some (-EINVAL))
  else (none, none)

/-- The `__get_user` loop over the packet results. -/
def setIsoResults : List UsbIsoPacketDescriptor → List (Int × Nat) → List UsbIsoPacketDescriptor
  | d :: ds, (st, al) :: ps => { d with status := st, actualLength := al } :: setIsoResults ds ps
  | ds, [] => ds
  | [], _ :: _ => []

/-- What an accepted give-back writes into the urb. -/
def givebackApply (urb : Urb) (a : GivebackArgs) : Urb :=
  { urb with
    isoFrameDesc := if usbPipeisoc urb.pipe ∧ a.isoCount ≠ 0 then
        setIsoResults urb.isoFrameDesc (a.isoPackets.take a.isoCount.toNat)
      else urb.isoFrameDesc
    actualLength := a.act.toU32
    errorCount := a.errCount }

/-- The handle lookup of `ioc_giveback_common`: fetched first (return value `0`), then
canceling and cancel (`-ECANCELED`). -/
def givebackLookup (v : Vhci) (h : Nat) : Option (VhciUrbPriv × Int) :=
  match v.findUrb .fetched h with
  | some e => some (e, 0)
  | none =>
    match v.findUrb .canceling h with
    | some e => some (e, -ECANCELED)
    | none => (v.findUrb .cancel h).map fun e => (e, -ECANCELED)

theorem givebackLookup_some {v : Vhci} {h : Nat} {e : VhciUrbPriv} {rv : Int}
    (hl : givebackLookup v h = some (e, rv)) : e.urb = h ∧
      ((e ∈ v.urbpList .fetched ∧ rv = 0) ∨
        ((e ∈ v.urbpList .cancel ∨ e ∈ v.urbpList .canceling) ∧ rv = -ECANCELED)) := by
  unfold givebackLookup at hl
  split at hl <;> rename_i hf
  · cases hl
    exact ⟨(Vhci.findUrb_mem hf).2, .inl ⟨(Vhci.findUrb_mem hf).1, rfl⟩⟩
  · split at hl <;> rename_i hg
    · cases hl
      exact ⟨(Vhci.findUrb_mem hg).2, .inr ⟨.inr (Vhci.findUrb_mem hg).1, rfl⟩⟩
    · obtain ⟨e', hc, he⟩ := Option.map_eq_some'.1 hl
      cases he
      exact ⟨(Vhci.findUrb_mem hc).2, .inr ⟨.inl (Vhci.findUrb_mem hc).1, rfl⟩⟩

/-- The entry a give-back finds is on a list other than the inbox. -/
theorem givebackLookup_mem {v : Vhci} {h : Nat} {e : VhciUrbPriv} {rv : Int}
    (hl : givebackLookup v h = some (e, rv)) : ∃ k, k ≠ .inbox ∧ e ∈ v.urbpList k := by
  rcases (givebackLookup_some hl).2 with ⟨he, -⟩ | ⟨he | he, -⟩
  exacts [⟨_, by decide, he⟩, ⟨_, by decide, he⟩, ⟨_, by decide, he⟩]

/-- `ioc_giveback_common`. -/
def iocGivebackCommon (s : Sys) (a : GivebackArgs) : Option (Sys × GivebackResult) :=
  match givebackLookup s.vhc a.handle with
  | none => some (s, ⟨-ENOENT, none, none⟩)
  | some (e, retval) =>
    (isUrbDirIn (s.urbs e.urb)).map fun isIn =>
      let urb := s.urbs e.urb
      match givebackLengthCheck urb a isIn with
      | some r => let g := vhciUrbGiveback s e; (g.1, ⟨r, some g.2, none⟩)
      | none =>
        match givebackDataStage urb a isIn with
        | (c, some r) => let g := vhciUrbGiveback s e; (g.1, ⟨r, some g.2, c⟩)
        | (c, none) =>
          let g := vhciUrbGiveback (s.updUrb e.urb (givebackApply · a))
            (maybeSetStatus e a.status)
          (g.1, ⟨retval, some g.2, c⟩)

/-- What `ioc_giveback_common` can do: nothing for an unknown handle; else give the urb back,
either rejecting the worker's data with the error `err`, or storing it first. -/
theorem iocGivebackCommon_cases {s s' : Sys} {a : GivebackArgs} {r : GivebackResult}
    (h : iocGivebackCommon s a = some (s', r)) :
    (givebackLookup s.vhc a.handle = none ∧ s' = s ∧ r = ⟨-ENOENT, none, none⟩) ∨
    ∃ e rv isIn, givebackLookup s.vhc a.handle = some (e, rv) ∧
      isUrbDirIn (s.urbs e.urb) = some isIn ∧
      ((∃ err, (givebackLengthCheck (s.urbs e.urb) a isIn = some err ∧ r.copyIn = none ∨
            givebackLengthCheck (s.urbs e.urb) a isIn = none ∧
              (givebackDataStage (s.urbs e.urb) a isIn).2 = some err ∧
              r.copyIn = (givebackDataStage (s.urbs e.urb) a isIn).1) ∧
          s' = (vhciUrbGiveback s e).1 ∧ r.retval = err ∧ r.gb = some (vhciUrbGiveback s e).2) ∨
        (givebackLengthCheck (s.urbs e.urb) a isIn = none ∧
          (givebackDataStage (s.urbs e.urb) a isIn).2 = none ∧
          s' = (vhciUrbGiveback (s.updUrb e.urb (givebackApply · a))
            (maybeSetStatus e a.status)).1 ∧
          r = ⟨rv, some (vhciUrbGiveback (s.updUrb e.urb (givebackApply · a))
            (maybeSetStatus e a.status)).2, (givebackDataStage (s.urbs e.urb) a isIn).1⟩)) := by
  unfold iocGivebackCommon at h
  split at h <;> rename_i hl
  · cases h
    exact .inl ⟨hl, rfl, rfl⟩
  · rename_i e rv
    obtain ⟨isIn, hd, h⟩ := Option.map_eq_some'.1 h
    refine .inr ⟨e, rv, isIn, hl, hd, ?_⟩
    dsimp only at h
    split at h <;> rename_i hc
    · cases h
      exact .inl ⟨_, .inl ⟨hc, rfl⟩, rfl, rfl, rfl⟩
    · split at h <;> rename_i c err hs <;> cases h
      · exact .inl ⟨err, .inr ⟨hc, by rw [hs], by rw [hs]⟩, rfl, rfl, rfl⟩
      · exact .inr ⟨hc, by rw [hs], rfl, by rw [hs]⟩

theorem iocGivebackCommon_hub {s s' : Sys} {a : GivebackArgs} {r : GivebackResult}
    (h : iocGivebackCommon s a = some (s', r)) : s'.vhc.hub = s.vhc.hub := by
  rcases iocGivebackCommon_cases h with ⟨-, rfl, -⟩ | ⟨e, rv, isIn, -, -, ⟨err, -, rfl, -⟩ | ⟨-, -, rfl, -⟩⟩ <;>
    simp

/-- The arguments of `ioc_fetch_data_common`, with what the worker's memory allows. -/
structure FetchDataArgs where
  handle : Nat
  userBuf : Nat
  userLen : Int
  iso : Nat
  isoCount : Int
  isoAccessOk : Bool
  copyOk : Bool

/-- What `ioc_fetch_data_common` returns, the give-back it leads to, the packet offsets and
lengths it writes to the worker, and the copy it issues. -/
structure FetchDataResult where
  retval : Int
  gb : Option Giveback
  isoOut : List (Nat × Nat)
  copyOut : Option BufferCopy
deriving DecidableEq, Repr

/-- `ioc_fetch_data_common` for an urb found in `urbp_list_fetched`, from its `tb_len` and
direction on. -/
def fetchDataFound (urb : Urb) (a : FetchDataArgs) (tbLen : Int) (isIn : Bool) :
    FetchDataResult :=
  let iso : Except Int (List (Nat × Nat)) :=
    if usbPipeisoc urb.pipe then
      if a.isoCount ≠ urb.numberOfPackets then .error (-EINVAL)
      else if a.isoCount ≠ 0 then
        if a.iso = 0 then .error (-EINVAL)
        else if !a.isoAccessOk then .error (-EFAULT)
        else .ok ((urb.isoFrameDesc.take a.isoCount.toNat).map fun d => (d.offset, d.length))
      else .ok []
    else if isIn ∨ tbLen = 0 ∨ urb.transferBuffer = 0 then .error (-ENODATA)
    else .ok []
  match iso with
  | .error r => ⟨r, none, [], none⟩
  | .ok isoOut =>
    if !isIn ∧ tbLen ≠ 0 then
      if a.userBuf = 0 ∨ a.userLen < tbLen then ⟨-EINVAL, none, isoOut, none⟩
      else
        let c := some ⟨urb.transferBuffer, (tbLen % 2 ^ 64).toNat⟩
        ⟨if a.copyOk then 0 else -EFAULT, none, isoOut, c⟩
    else ⟨0, none, isoOut, none⟩

/-- An urb still in `fetched` is never given back here. -/
@[simp] theorem fetchDataFound_gb (urb : Urb) (a : FetchDataArgs) (tbLen : Int) (isIn : Bool) :
    (fetchDataFound urb a tbLen isIn).gb = none := by
  unfold fetchDataFound
  dsimp only
  split
  · rfl
  · split_ifs <;> rfl

/-- `ioc_fetch_data_common`. -/
def iocFetchDataCommon (s : Sys) (a : FetchDataArgs) : Option (Sys × FetchDataResult) :=
  match s.vhc.findUrb .fetched a.handle with
  | none =>
    match s.vhc.findUrb .cancel a.handle <|> s.vhc.findUrb .canceling a.handle with
    | some e => let g := vhciUrbGiveback s e; some (g.1, ⟨-ECANCELED, some g.2, [], none⟩)
    | none => some (s, ⟨-ENOENT, none, [], none⟩)
  | some e =>
    let urb := s.urbs e.urb
    let tbLen : Option Int :=
      if usbPipecontrol urb.pipe then urb.setupPacket.map fun cmd => (cmd.wLength : Int)
      else some (intOfU32 urb.transferBufferLength)
    tbLen.bind fun tbLen => (isUrbDirIn urb).map fun isIn => (s, fetchDataFound urb a tbLen isIn)

/-- What `ioc_fetch_data_common` can do: for an urb in `fetched`, report its data and change
nothing; for one in `cancel` or `canceling`, give it back; else nothing. -/
theorem iocFetchDataCommon_cases {s s' : Sys} {a : FetchDataArgs} {r : FetchDataResult}
    (h : iocFetchDataCommon s a = some (s', r)) :
    (∃ e, s.vhc.findUrb .fetched a.handle = some e ∧ s' = s ∧
      ∃ tbLen isIn, isUrbDirIn (s.urbs e.urb) = some isIn ∧
        (if usbPipecontrol (s.urbs e.urb).pipe then
          (s.urbs e.urb).setupPacket.map fun cmd => (cmd.wLength : Int)
        else some (intOfU32 (s.urbs e.urb).transferBufferLength)) = some tbLen ∧
        r = fetchDataFound (s.urbs e.urb) a tbLen isIn) ∨
    (s.vhc.findUrb .fetched a.handle = none ∧ ∃ e,
      (s.vhc.findUrb .cancel a.handle <|> s.vhc.findUrb .canceling a.handle) = some e ∧
      s' = (vhciUrbGiveback s e).1 ∧ r = ⟨-ECANCELED, some (vhciUrbGiveback s e).2, [], none⟩) ∨
    (s.vhc.findUrb .fetched a.handle = none ∧
      (s.vhc.findUrb .cancel a.handle <|> s.vhc.findUrb .canceling a.handle) = none ∧
      s' = s ∧ r = ⟨-ENOENT, none, [], none⟩) := by
  unfold iocFetchDataCommon at h
  split at h <;> rename_i hf
  · split at h <;> rename_i hc <;> cases h
    · exact .inr (.inl ⟨hf, _, hc, rfl, rfl⟩)
    · exact .inr (.inr ⟨hf, hc, rfl, rfl⟩)
  · rename_i e
    obtain ⟨tbLen, ht, h⟩ := Option.bind_eq_some.1 h
    obtain ⟨isIn, hd, h⟩ := Option.map_eq_some'.1 h
    cases h
    exact .inl ⟨e, hf, rfl, tbLen, isIn, hd, ht, rfl⟩

/-- The entry `ioc_fetch_data_common` finds in the cancel lists under handle `h`. -/
theorem findUrb_cancel_some {v : Vhci} {h : Nat} {e : VhciUrbPriv}
    (he : (v.findUrb .cancel h <|> v.findUrb .canceling h) = some e) :
    e.urb = h ∧ ∃ k, (k = .cancel ∨ k = .canceling) ∧ e ∈ v.urbpList k := by
  cases hc : v.findUrb .cancel h <;> simp only [hc] at he
  · obtain ⟨he, hu⟩ := Vhci.findUrb_mem (by simpa using he)
    exact ⟨hu, _, .inr rfl, he⟩
  · cases he
    obtain ⟨he, hu⟩ := Vhci.findUrb_mem hc
    exact ⟨hu, _, .inl rfl, he⟩

theorem iocFetchDataCommon_hub {s s' : Sys} {a : FetchDataArgs} {r : FetchDataResult}
    (h : iocFetchDataCommon s a = some (s', r)) : s'.vhc.hub = s.vhc.hub := by
  rcases iocFetchDataCommon_cases h with ⟨e, -, rfl, -⟩ | ⟨-, e, -, rfl, -⟩ | ⟨-, -, rfl, -⟩ <;> simp

/-! ## What a worker call does to the four lists -/

theorem givebackLookup_eq_none {v : Vhci} {h : Nat} :
    givebackLookup v h = none ↔ ∀ e, e ∈ v.urbpList .fetched ∨ e ∈ v.urbpList .canceling ∨
      e ∈ v.urbpList .cancel → e.urb ≠ h := by
  have hl : givebackLookup v h = none ↔ v.findUrb .fetched h = none ∧
      v.findUrb .canceling h = none ∧ v.findUrb .cancel h = none := by
    unfold givebackLookup
    cases v.findUrb .fetched h <;> cases v.findUrb .canceling h <;> cases v.findUrb .cancel h <;>
      simp
  simp only [hl, Vhci.findUrb_eq_none, or_imp, forall_and]

theorem givebackLengthCheck_err {urb : Urb} {a : GivebackArgs} {isIn : Bool} {err : Int}
    (h : givebackLengthCheck urb a isIn = some err) : err = -ENOBUFS ∨ err = -EINVAL ∨ err = -EFAULT := by
  unfold givebackLengthCheck at h
  simp only [ite_eq_iff, Option.some.injEq, reduceCtorEq, and_false, false_or, or_false] at h
  rcases h with ⟨-, ⟨-, rfl⟩ | ⟨-, ⟨-, rfl⟩ | ⟨-, ⟨-, rfl⟩ | ⟨-, -, rfl⟩⟩⟩⟩ | ⟨-, -, ⟨-, rfl⟩ | ⟨-, rfl⟩⟩ <;>
    decide

theorem givebackDataStage_err {urb : Urb} {a : GivebackArgs} {isIn : Bool} {err : Int}
    (h : (givebackDataStage urb a isIn).2 = some err) : err = -EINVAL ∨ err = -EFAULT := by
  unfold givebackDataStage at h
  split_ifs at h <;> cases h <;> decide

theorem fetchDataFound_retval (urb : Urb) (a : FetchDataArgs) (tbLen : Int) (isIn : Bool) :
    (fetchDataFound urb a tbLen isIn).retval ∈ [0, -ENOENT, -EINVAL, -EFAULT, -ENODATA] := by
  unfold fetchDataFound
  dsimp only
  split
  · rename_i r hr
    simp only [ite_eq_iff, reduceCtorEq, Except.error.injEq, and_false, false_or, or_false] at hr
    rcases hr with ⟨-, ⟨-, rfl⟩ | ⟨-, ⟨-, ⟨-, rfl⟩ | ⟨-, -, rfl⟩⟩⟩⟩ | ⟨-, -, rfl⟩ <;> dsimp only <;>
      decide
  · split_ifs <;> dsimp only <;> decide


/-- What `ioc_giveback_common` did to the four lists, as its result tells: `-ENOENT` exactly for a
handle in none of `fetched`, `canceling` and `cancel`, with nothing changed; any other result
after taking that urb's entry off its list and giving the urb back. -/
structure GivebackEffect (s s' : Sys) (h : Nat) (r : GivebackResult) : Prop where
  enoent_iff : r.retval = -ENOENT ↔ ∀ e, e ∈ s.vhc.urbpList .fetched ∨
    e ∈ s.vhc.urbpList .canceling ∨ e ∈ s.vhc.urbpList .cancel → e.urb ≠ h
  unknown : r.retval = -ENOENT → s' = s ∧ r.gb = none
  found : r.retval ≠ -ENOENT → r.retval ∈ [0, -ECANCELED, -ENOBUFS, -EINVAL, -EFAULT] ∧
    ∃ e, e.urb = h ∧ (e ∈ s.vhc.urbpList .fetched ∨ e ∈ s.vhc.urbpList .canceling ∨
      e ∈ s.vhc.urbpList .cancel) ∧
      (∀ k, s'.vhc.urbpList k = (s.vhc.urbpList k).filter (·.addr != e.addr)) ∧
      ∃ status, r.gb = some ⟨h, status⟩

/-- What `ioc_fetch_data_common` did to the four lists, as its result tells: `-ECANCELED` exactly
for a handle not in `fetched` but in `cancel` or `canceling`, after taking its entry off and giving
the urb back; any other result with nothing changed. -/
structure FetchDataEffect (s s' : Sys) (h : Nat) (r : FetchDataResult) : Prop where
  ecanceled_iff : r.retval = -ECANCELED ↔ (∀ e ∈ s.vhc.urbpList .fetched, e.urb ≠ h) ∧
    ∃ e, e.urb = h ∧ (e ∈ s.vhc.urbpList .cancel ∨ e ∈ s.vhc.urbpList .canceling)
  canceled : r.retval = -ECANCELED → ∃ e, e.urb = h ∧
    (e ∈ s.vhc.urbpList .cancel ∨ e ∈ s.vhc.urbpList .canceling) ∧
    (∀ k, s'.vhc.urbpList k = (s.vhc.urbpList k).filter (·.addr != e.addr)) ∧
    ∃ status, r.gb = some ⟨h, status⟩
  unchanged : r.retval ≠ -ECANCELED →
    r.retval ∈ [0, -ENOENT, -EINVAL, -EFAULT, -ENODATA] ∧ s' = s ∧ r.gb = none

theorem iocGivebackCommon_effect {s s' : Sys} {a : GivebackArgs} {r : GivebackResult}
    (h : iocGivebackCommon s a = some (s', r)) : GivebackEffect s s' a.handle r := by
  rcases iocGivebackCommon_cases h with ⟨hl, rfl, rfl⟩ | ⟨e, rv, isIn, hl, -, hcase⟩
  · exact ⟨iff_of_true rfl (givebackLookup_eq_none.1 hl), fun _ => ⟨rfl, rfl⟩,
      fun h => absurd rfl h⟩
  obtain ⟨hu, hmem⟩ := givebackLookup_some hl
  have he : e ∈ s.vhc.urbpList .fetched ∨ e ∈ s.vhc.urbpList .canceling ∨
      e ∈ s.vhc.urbpList .cancel := by
    rcases hmem with ⟨he, -⟩ | ⟨he | he, -⟩ <;> simp only [he, true_or, or_true]
  have hret : r.retval ∈ [0, -ECANCELED, -ENOBUFS, -EINVAL, -EFAULT] := by
    rcases hcase with ⟨err, ⟨hc, -⟩ | ⟨-, hc, -⟩, -, rfl, -⟩ | ⟨-, -, -, rfl⟩
    · rcases givebackLengthCheck_err hc with h | h | h <;> rw [h] <;> decide
    · rcases givebackDataStage_err hc with h | h <;> rw [h] <;> decide
    · rcases hmem with ⟨-, rfl⟩ | ⟨-, rfl⟩ <;> dsimp only <;> decide
  have hne : r.retval ≠ -ENOENT := fun h' => by
    rw [h'] at hret
    revert hret; decide
  refine ⟨iff_of_false hne fun hall => hall e he hu, fun h' => absurd h' hne,
    fun _ => ⟨hret, e, hu, he, ?_⟩⟩
  rcases hcase with ⟨err, -, rfl, -, hgb⟩ | ⟨-, -, rfl, rfl⟩
  · exact ⟨fun k => by simp, e.status, by rw [hgb, vhciUrbGiveback_snd, hu]⟩
  · exact ⟨fun k => by simp, (maybeSetStatus e a.status).status, by simp [hu]⟩

theorem iocFetchDataCommon_effect {s s' : Sys} {a : FetchDataArgs} {r : FetchDataResult}
    (h : iocFetchDataCommon s a = some (s', r)) : FetchDataEffect s s' a.handle r := by
  rcases iocFetchDataCommon_cases h with ⟨e, hf, hs, tbLen, isIn, -, -, rfl⟩ |
      ⟨hf, e, hc, rfl, rfl⟩ | ⟨hf, hc, hs, rfl⟩
  · subst s'
    have hret := fetchDataFound_retval (s.urbs e.urb) a tbLen isIn
    have hne : (fetchDataFound (s.urbs e.urb) a tbLen isIn).retval ≠ -ECANCELED := fun h' => by
      rw [h'] at hret
      revert hret; decide
    obtain ⟨he, hu⟩ := Vhci.findUrb_mem hf
    exact ⟨iff_of_false hne fun ⟨hall, _⟩ => hall e he hu, fun h' => absurd h' hne,
      fun _ => ⟨hret, rfl, by simp⟩⟩
  · obtain ⟨hu, k, hk, he⟩ := findUrb_cancel_some hc
    have he' : e ∈ s.vhc.urbpList .cancel ∨ e ∈ s.vhc.urbpList .canceling := by
      rcases hk with rfl | rfl <;> simp only [he, true_or, or_true]
    exact ⟨iff_of_true rfl ⟨Vhci.findUrb_eq_none.1 hf, e, hu, he'⟩,
      fun _ => ⟨e, hu, he', fun k => by simp, e.status, by simp [hu]⟩, fun h' => absurd rfl h'⟩
  · subst s'
    have hnone : ∀ e, e.urb = a.handle →
        ¬(e ∈ s.vhc.urbpList .cancel ∨ e ∈ s.vhc.urbpList .canceling) := by
      cases hc1 : s.vhc.findUrb .cancel a.handle <;> simp only [hc1, Option.none_orElse,
        Option.some_orElse, reduceCtorEq] at hc
      intro e hu he
      rcases he with he | he
      · exact Vhci.findUrb_eq_none.1 hc1 e he hu
      · exact Vhci.findUrb_eq_none.1 hc e he hu
    exact ⟨iff_of_false (by decide) fun ⟨_, e, hu, he⟩ => hnone e hu he,
      fun h' => absurd h' (by decide), fun _ => ⟨by decide, rfl, rfl⟩⟩

end VhciHcd
