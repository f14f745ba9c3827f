import Microwatt.Dcache.Quadword

/-!
# Quadword stores are atomic

The first half of a quadword store waits in `r1` (`FirstStore`), then it is on the
bus in `STORE_WAIT_ACK` with `atomic_more` set and the second half, when it is looked
up, is to the page of the open cycle (`FirstSent`), or it has failed as a
store-conditional (`FirstFailed`).  The second half follows it on the bus, or waits
in `r1` until it can (`SecondWaits`).
-/

namespace Microwatt.Dcache

variable {g : Geometry} {s : State g} {i : Input} {owed : Nat} {f p : Loadstore1ToDcache}

/-! ## The addresses of the two halves -/

/-- The halves of a quadword differ in bit 3 of their addresses. -/
theorem getLsbD_secondOf (h : SecondOf f p) (k : Nat) (hk : 4 ≤ k) :
    p.addr.getLsbD k = f.addr.getLsbD k := by
  obtain ⟨-, -, -, -, hlow, haddr⟩ := h
  have hbit : f.addr &&& 8#64 = 0#64 := by
    have hsub : (8#64 : BitVec 64) = 15#64 &&& 8#64 := by decide
    rw [hsub, ← BitVec.and_assoc, hlow]
    decide
  have hor : f.addr + 8#64 = f.addr ||| 8#64 := BitVec.add_eq_or_of_and_eq_zero _ _ hbit
  have hlt : 8 < 2 ^ k := by
    calc 8 < 2 ^ 4 := by decide
      _ ≤ 2 ^ k := Nat.pow_le_pow_right (by decide) hk
  rw [haddr, hor, BitVec.getLsbD_or, BitVec.getLsbD_ofNat, Nat.testBit_lt_two_pow hlt]
  simp

theorem extract_secondOf (h : SecondOf f p) {start len : Nat} (hs : 4 ≤ start) :
    p.addr.extractLsb' start len = f.addr.extractLsb' start len := by
  apply BitVec.eq_of_getLsbD_eq
  intro k hk
  rw [BitVec.getLsbD_extractLsb', BitVec.getLsbD_extractLsb', getLsbD_secondOf h _ (by omega)]

/-- A quadword lies within a page. -/
theorem four_le_tlbLgPgsz (g : Geometry) : 4 ≤ g.tlbLgPgsz := by
  have hpos := g.rowLinebits_pos
  have hset := g.setSize_le
  omega

theorem getTlbIndex_secondOf (h : SecondOf f p) :
    (getTlbIndex p.addr : TlbIndex g) = getTlbIndex f.addr :=
  extract_secondOf h (four_le_tlbLgPgsz g)

/-- And within a line. -/
theorem getIndex_secondOf (h : SecondOf f p) :
    (getIndex p.addr : Index g) = getIndex f.addr := by
  have hpos := g.rowLinebits_pos
  exact extract_secondOf h (by simp only [Geometry.lineOffBits]; omega)

/-! ## The page of the open cycle -/

/-- A second half of `f` that finds its translation in way `w` of the DTLB will be
found to go to the page of the open cycle. -/
def OnPage (r : SlowRegs g) (w : TlbWay g) (f : Loadstore1ToDcache) : Prop :=
  if f.virtMode then
    r.lsTlbHit = true ∧ r.tlbAccIndex = getTlbIndex f.addr ∧ r.tlbAccWay = w
  else SamePage g r.wb.adr (addrToWb (addrToReal f.addr))

/-- An edge that keeps the cycle open and sees no DTLB write keeps its page. -/
theorem onPage_step {w : TlbWay g} (hst : s.r1.state = .storeWaitAck ∨ s.r1.state = .doStcx)
    (hdtlb : i.mIn.tlbld = false ∧ i.mIn.tlbie = false) (h : OnPage s.r1 w f) :
    OnPage (step s i).r1 w f := by
  unfold OnPage at h ⊢
  split_ifs at h ⊢ with hv
  · rw [step_lsTlbHit, step_tlbAccIndex, step_tlbAccWay]
    rcases hst with hst | hst <;> simpa [hst, hdtlb] using h
  · refine SamePage.trans ?_ h
    rw [step_adr]
    rcases hst with hst | hst <;> simp only [hst]
    · split_ifs
      · exact samePage_setLowBits _ _
      · exact fun _ _ => rfl
    · exact fun _ _ => rfl

/-- The real-mode test for an address that the bus can carry. -/
theorem getRpn_of_samePage {a : WbAddr} {ea : BitVec 64}
    (h : SamePage g a (addrToWb (addrToReal ea))) (hhigh : ea.extractLsb' 32 24 = 0#24) :
    getRpn g ea = getRpn g (wbToAddr a) := by
  have hle := g.tlbLgPgsz_le
  have hset := g.setSize_le
  apply BitVec.eq_of_getLsbD_eq
  intro k hk
  simp only [getRpn, BitVec.getLsbD_extractLsb', hk, decide_true, Bool.true_and]
  unfold wbToAddr
  rw [BitVec.getLsbD_append, BitVec.getLsbD_append, if_neg (by omega)]
  by_cases hlt : g.tlbLgPgsz + k < 32
  · rw [if_pos (by omega), h _ (by omega), getLsbD_addrToWb _ _ (by omega),
      getLsbD_addrToReal _ _ (by omega)]
    congr 1
    omega
  · have hbit := congrArg (fun v => v.getLsbD (g.tlbLgPgsz + k - 32)) hhigh
    have hidx : 32 + (g.tlbLgPgsz + k - 32) = g.tlbLgPgsz + k := by omega
    have hin : g.tlbLgPgsz + k - 32 < 24 := by omega
    simp only [BitVec.getLsbD_extractLsb', hin, hidx, decide_true, Bool.true_and,
      BitVec.getLsbD_zero] at hbit
    rw [hbit, if_neg (by omega)]
    simp

/-! ## The first half -/

/-- `req` is the first half `f` of a quadword store. -/
structure FirstStore (s : State g) (req : MemAccessRequest g) (f : Loadstore1ToDcache) :
    Prop where
  opStore : req.opStore = true
  valid : req.valid = true
  firstDw : req.firstDw = true
  lastDw : req.lastDw = false
  dcbz : req.dcbz = false
  mmuReq : req.mmuReq = false
  reserve : req.reserve = f.reserve
  virt : f.virtMode = true → req.tlbHit = true ∧ req.tlbIndex = getTlbIndex f.addr
  real : f.virtMode = false → req.realAddr = dwordAligned (addrToReal f.addr)
  hitReload : s.r1.state = .reloadWaitAck → req.hitReload = false
  placed : s.r1.state = .storeWaitAck → req.samePage = true → OnPage s.r1 req.tlbWay f
  busy : s.r1.state ≠ .ncLoadWaitAck ∧ s.r1.state ≠ .flushCycle
  stcx : s.r1.state = .doStcx →
    f.reserve = true ∧ s.r1.atomicMore = true ∧ OnPage s.r1 req.tlbWay f

/-- The first half is on the bus. -/
structure FirstSent (s : State g) (f : Loadstore1ToDcache) : Prop where
  full : s.r1.full = false
  state : s.r1.state = .storeWaitAck
  atomicMore : s.r1.atomicMore = true
  page : OnPage s.r1 s.r1.req.tlbWay f

/-- The first half was a store-conditional and failed. -/
structure FirstFailed (s : State g) (f : Loadstore1ToDcache) : Prop where
  full : s.r1.full = false
  state : s.r1.state = .idle
  reserve : f.reserve = true
  lost : s.r1.reservation.valid = false

theorem accessOk_of_store (hop : reqOp s i = .store) : accessOk s i = true :=
  (looksUp_of_reqOp (Or.inr hop)).2

theorem state_of_not_full (h : MachInv s) (hf : s.r1.full = false) :
    s.r1.state ≠ .ncLoadWaitAck ∧ s.r1.state ≠ .doStcx ∧ s.r1.state ≠ .flushCycle := by
  have hbusy := h.busy
  rw [hf] at hbusy
  refine ⟨fun hst => ?_, fun hst => ?_, fun hst => ?_⟩ <;> simp [hst] at hbusy

/-- The first half of a quadword store is looked up. -/
theorem firstStore_lookup (h : MachInv s) (hop : reqOp s i = .store)
    (hhalf : isFirstHalf s.r0.req = true)
    (hmmu : s.r0.mmuReq = true → s.r0.req.atomicQw = false)
    (hplain : s.r0.req.dcbz = false) (hlast : s.r0.req.atomicLast = !s.r0.req.atomicFirst) :
    FirstStore s (r0Request s i) s.r0.req := by
  have hgo : reqGo s i = true := reqGo_of_reqOp (by simp [hop])
  have hstate := state_of_not_full h (not_full_of_reqGo hgo)
  simp only [isFirstHalf, Bool.and_eq_true] at hhalf
  constructor
  · simp [r0Request, hop]
  · simpa [r0Request] using hgo
  · simp [r0Request, hhalf]
  · simp [r0Request, hhalf, hlast]
  · simpa [r0Request] using hplain
  · by_contra hm
    rw [Bool.not_eq_false] at hm
    have := hmmu hm
    simp [this] at hhalf
  · rfl
  · intro hv
    have hra := validRa_of_accessOk (accessOk_of_store hop)
    refine ⟨?_, rfl⟩
    change tlbHit s i = true
    simpa [validRa, hv] using hra
  · intro hv
    simp [r0Request, ra, hv]
  · intro _
    simp [r0Request, hop]
  · intro _ hpage
    change reqSamePage s = true at hpage
    show OnPage s.r1 (tlbHitWay s) s.r0.req
    unfold reqSamePage at hpage
    unfold OnPage
    split_ifs at hpage ⊢
    · simp only [Bool.and_eq_true, beq_iff_eq] at hpage
      exact ⟨hpage.1.1.2, hpage.1.2.symm, hpage.2.symm⟩
    · exact samePage_of_getRpn (by simpa using hpage)
  · exact ⟨hstate.1, hstate.2.2⟩
  · intro hst
    exact absurd hst hstate.2.1

/-- What becomes at an edge of the first half, as long as the second has not been
looked up. -/
inductive FirstNext (s : State g) (i : Input) (f : Loadstore1ToDcache) : Prop where
  | sent (h : FirstSent (step s i) f) (hs : sendsStore s i = true)
  | failed (h : FirstFailed (step s i) f) (hs : sendsStore s i = false)
  | waits (h : FirstStore (step s i) (step s i).r1.req f) (hf : (step s i).r1.full = true)
      (hs : sendsStore s i = false)

/-- Only the lookup of a load-reserve sets the reservation. -/
theorem takenRsrv_lost (hlook : (reqGo s i && accessOk s i && s.r0.req.load &&
      s.r0.req.reserve && s.r0.req.atomicFirst) = false)
    (hv : s.r1.reservation.valid = false ∨ killRsrv s = true) :
    (takenRsrv s i).valid = false := by
  unfold takenRsrv
  rw [hlook]
  cases hkill : killRsrv s with
  | true => simp
  | false => simpa [hkill] using hv

/-- And none is looked up in a cycle in which a store is at work. -/
theorem takenRsrv_of_store (hop : (curReq s i).opStore = true)
    (hv : s.r1.reservation.valid = false ∨ killRsrv s = true) :
    (takenRsrv s i).valid = false := by
  refine takenRsrv_lost ?_ hv
  by_contra hc
  simp only [Bool.not_eq_false, Bool.and_eq_true] at hc
  rw [curReq_of_not_full (not_full_of_reqGo hc.1.1.1.1)] at hop
  simp only [r0Request, beq_iff_eq] at hop
  rw [load_of_store hop] at hc
  exact absurd hc.1.1.2 (by decide)

/-- A store asks for nothing else. -/
theorem onlyStore (h : MachInv s) (hop : (curReq s i).opStore = true) :
    (curReq s i).opLmiss = false ∧ (curReq s i).opFlush = false ∧ (curReq s i).opSync = false := by
  obtain ⟨op, hl, hs, hf, hy⟩ := exists_hasOp_curReq h i
  have heq : op = .store := by simpa [hop] using hs.symm
  simp [hl, hf, hy, heq]

section FirstStep

variable (h : MachInv s) (hF : FirstStore s (curReq s i) f) (htaken : takenReq s i = curReq s i)
  (hfull : takenFull s i = true)

include h hF htaken hfull in
theorem firstNext_idle (hst : s.r1.state = .idle) : FirstNext s i f := by
  obtain ⟨hl, hfl, hy⟩ := onlyStore h hF.opStore
  have hreq : (step s i).r1.req = { curReq s i with hitReload := true } := by
    rw [step_req, if_pos hst, htaken]
  have hpage : OnPage (step s i).r1 (curReq s i).tlbWay f := by
    unfold OnPage
    rw [step_lsTlbHit, step_tlbAccIndex, step_tlbAccWay, step_adr]
    simp only [hst, if_true]
    split_ifs with hv
    · simp [hF.virt hv, hF.mmuReq]
    · rw [hF.real (by simpa using hv), addrToWb_dwordAligned]
      exact fun _ _ => rfl
  have hstate := step_state s i
  have hretire := step_full s i
  have hmore := step_atomicMore s i
  have hrsrv := step_reservation s i
  simp only [hst, hfull, retires, Bool.true_and] at hstate hretire hmore hrsrv
  rw [hF.lastDw] at hmore
  have hres := hF.reserve
  cases hr : f.reserve with
  | false =>
      rw [hr] at hres
      have hplain : (curReq s i).plainStore = true := by
        simp [MemAccessRequest.plainStore, hF.opStore, hres, hF.dcbz]
      refine .sent ⟨?_, ?_, hmore, ?_⟩ (by simp [sendsStore, hst, hplain])
      · simp [hretire, idleDone, hplain]
      · simp [hstate, idleNext, hfl, hplain]
      · rw [hreq]
        exact hpage
  | true =>
      rw [hr] at hres
      have hplain : (curReq s i).plainStore = false := by
        simp [MemAccessRequest.plainStore, hres]
      have hzero : (curReq s i).zeroLine = false := by simp [MemAccessRequest.zeroLine, hres]
      have hs : sendsStore s i = false := by simp [sendsStore, hst, hplain]
      cases hlost : (!s.r1.reservation.valid || killRsrv s) with
      | true =>
          have hfail : idleStcxFail s (curReq s i) = true := by
            simp only [idleStcxFail, hF.opStore, hres, hlost, Bool.and_self]
          have hgo : idleStcx s (curReq s i) = false := by simp [idleStcx, hlost]
          refine .failed ⟨?_, ?_, hr, ?_⟩ hs
          · simp [hretire, idleDone, hfail]
          · simp [hstate, idleNext, hfl, hplain, hzero, hgo, hl]
          · rw [hrsrv]
            exact takenRsrv_of_store hF.opStore (by simpa using hlost)
      | false =>
          have hfail : idleStcxFail s (curReq s i) = false := by simp [idleStcxFail, hlost]
          have hgo : idleStcx s (curReq s i) = true := by
            simp only [idleStcx, hF.opStore, hres, hlost, Bool.not_false, Bool.and_self]
          have hnext : (step s i).r1.state = .doStcx := by
            simp [hstate, idleNext, hfl, hplain, hzero, hgo]
          refine .waits ?_ ?_ hs
          · rw [hreq]
            exact {
              opStore := hF.opStore
              valid := hF.valid
              firstDw := hF.firstDw
              lastDw := hF.lastDw
              dcbz := hF.dcbz
              mmuReq := hF.mmuReq
              reserve := hF.reserve
              virt := hF.virt
              real := hF.real
              hitReload := by simp [hnext]
              placed := by simp [hnext]
              busy := by simp [hnext]
              stcx := fun _ => ⟨hr, hmore, hpage⟩ }
          · simp [hretire, idleDone, hy, hl, hplain, hfail]

/-- The first half stays in `r1`. -/
theorem firstStore_stays (hst : s.r1.state ≠ .idle) (hF : FirstStore s (curReq s i) f)
    (htaken : takenReq s i = curReq s i)
    (hreload : (step s i).r1.state = .reloadWaitAck → s.r1.state = .reloadWaitAck)
    (hwait : (step s i).r1.state = .storeWaitAck → (curReq s i).samePage = true →
      OnPage (step s i).r1 (curReq s i).tlbWay f)
    (hbusy : (step s i).r1.state ≠ .ncLoadWaitAck ∧ (step s i).r1.state ≠ .flushCycle)
    (hstcx : (step s i).r1.state = .doStcx → f.reserve = true ∧
      (step s i).r1.atomicMore = true ∧ OnPage (step s i).r1 (curReq s i).tlbWay f) :
    FirstStore (step s i) (step s i).r1.req f := by
  rw [step_req, if_neg hst, htaken]
  exact {
    opStore := hF.opStore
    valid := hF.valid
    firstDw := hF.firstDw
    lastDw := hF.lastDw
    dcbz := hF.dcbz
    mmuReq := hF.mmuReq
    reserve := hF.reserve
    virt := hF.virt
    real := hF.real
    hitReload := fun h => hF.hitReload (hreload h)
    placed := hwait
    busy := hbusy
    stcx := hstcx }

include hF htaken hfull in
theorem firstNext_reload (hst : s.r1.state = .reloadWaitAck) : FirstNext s i f := by
  have hstate := step_state s i
  have hretire := step_full s i
  simp only [hst, hfull, retires, Bool.true_and] at hstate hretire
  have hnext : (step s i).r1.state = .idle ∨ (step s i).r1.state = .reloadWaitAck := by
    rw [hstate]
    split_ifs
    · exact Or.inl rfl
    · exact Or.inr rfl
  refine .waits (firstStore_stays (by simp [hst]) hF htaken (fun _ => hst) ?_ ?_ ?_) ?_
    (by simp [sendsStore, hst])
  · rcases hnext with hnext | hnext <;> simp [hnext]
  · rcases hnext with hnext | hnext <;> simp [hnext]
  · rcases hnext with hnext | hnext <;> simp [hnext]
  · simp [hretire, reloadMatch, hF.hitReload hst]

include hF htaken hfull in
theorem firstNext_store (hst : s.r1.state = .storeWaitAck)
    (hdtlb : i.mIn.tlbld = false ∧ i.mIn.tlbie = false) : FirstNext s i f := by
  have hstate := step_state s i
  have hretire := step_full s i
  have hmore := step_atomicMore s i
  have hreq : (step s i).r1.req = curReq s i := by
    rw [step_req, if_neg (by simp [hst]), htaken]
  simp only [hst, hfull, retires, Bool.true_and] at hstate hretire hmore
  cases hm : mergeNow s i with
  | true =>
      have hsame : (curReq s i).samePage = true := by
        simp only [mergeNow, mergeable, Bool.and_eq_true] at hm
        exact hm.1.2.1.1.2
      have hexit : storeExit s i = false := by
        simp only [mergeNow, Bool.and_eq_true, decide_eq_true_eq, Bool.not_eq_true'] at hm
        simp [storeExit, stbsDone, hm]
      refine .sent ⟨?_, ?_, ?_, ?_⟩ (by simp [sendsStore, hst, hm])
      · simp [hretire, hm]
      · simp [hstate, hexit]
      · simp [hmore, hm, hF.lastDw]
      · rw [hreq]
        exact onPage_step (Or.inl hst) hdtlb (hF.placed hst hsame)
  | false =>
      have hnext : (step s i).r1.state = .idle ∨ (step s i).r1.state = .storeWaitAck := by
        rw [hstate]
        split_ifs
        · exact Or.inl rfl
        · exact Or.inr rfl
      refine .waits (firstStore_stays (by simp [hst]) hF htaken ?_ ?_ ?_ ?_) ?_
        (by simp [sendsStore, hst, hm])
      · rcases hnext with hnext | hnext <;> simp [hnext]
      · exact fun _ hsame => onPage_step (Or.inl hst) hdtlb (hF.placed hst hsame)
      · rcases hnext with hnext | hnext <;> simp [hnext]
      · rcases hnext with hnext | hnext <;> simp [hnext]
      · simp [hretire, hm]

include hF htaken hfull in
theorem firstNext_stcx (hst : s.r1.state = .doStcx)
    (hdtlb : i.mIn.tlbld = false ∧ i.mIn.tlbie = false) : FirstNext s i f := by
  obtain ⟨hr, hmore, hpage⟩ := hF.stcx hst
  have hpage' := onPage_step (Or.inr hst) hdtlb hpage
  have hmore' : (step s i).r1.atomicMore = true := by simp [step_atomicMore, hst, hmore]
  have hreq : (step s i).r1.req = curReq s i := by
    rw [step_req, if_neg (by simp [hst]), htaken]
  have hstate := step_state s i
  have hretire := step_full s i
  have hrsrv := step_reservation s i
  simp only [hst, hfull, retires, Bool.true_and] at hstate hretire hrsrv
  cases hlost : stcxLost s with
  | true =>
      refine .failed ⟨?_, ?_, hr, ?_⟩ (by simp [sendsStore, hst, hlost])
      · simp [hretire, hlost]
      · simp [hstate, hlost]
      · simp [hrsrv, hlost]
  | false =>
      cases hstall : i.wishboneIn.stall with
      | false =>
          refine .sent ⟨?_, ?_, hmore', ?_⟩ (by simp [sendsStore, hst, hlost, hstall])
          · simp [hretire, hstall]
          · simp [hstate, hlost, hstall]
          · rw [hreq]
            exact hpage'
      | true =>
          have hnext : (step s i).r1.state = .doStcx := by simp [hstate, hlost, hstall]
          refine .waits (firstStore_stays (by simp [hst]) hF htaken ?_ ?_ ?_ ?_) ?_
            (by simp [sendsStore, hst, hstall])
          · simp [hnext]
          · simp [hnext]
          · simp [hnext]
          · exact fun _ => ⟨hr, hmore', hpage'⟩
          · simp [hretire, hlost, hstall]

include h hF htaken hfull in
/-- What becomes of the first half, whether it is in `r1` or is just looked up. -/
theorem firstNext_step (hdtlb : i.mIn.tlbld = false ∧ i.mIn.tlbie = false) :
    FirstNext s i f := by
  cases hst : s.r1.state with
  | idle => exact firstNext_idle h hF htaken hfull hst
  | reloadWaitAck => exact firstNext_reload hF htaken hfull hst
  | storeWaitAck => exact firstNext_store hF htaken hfull hst hdtlb
  | ncLoadWaitAck => exact absurd hst hF.busy.1
  | doStcx => exact firstNext_stcx hF htaken hfull hst hdtlb
  | flushCycle => exact absurd hst hF.busy.2

end FirstStep

/-! ## Cycles in which nothing is looked up -/

/-- With nothing in `r1` and nothing looked up the state machine has no request. -/
theorem curReq_quiet (hf : s.r1.full = false) (hgo : reqGo s i = false) :
    (curReq s i).HasOp .none ∧ (curReq s i).valid = false := by
  have hop : reqOp s i = .none := by simp [reqOp, hgo]
  have hhas := hasOp_r0Request s i
  rw [hop] at hhas
  rw [curReq_of_not_full hf]
  exact ⟨hhas, hgo⟩

theorem not_sends_of_not_store (hop : (curReq s i).opStore = false) (h : MachInv s)
    (hf : s.r1.full = false) : sendsStore s i = false := by
  have hstate := state_of_not_full h hf
  unfold sendsStore
  cases hst : s.r1.state with
  | idle => simp [MemAccessRequest.plainStore, hop]
  | storeWaitAck => simp [mergeNow, mergeable, hop]
  | doStcx => exact absurd hst hstate.2.1
  | _ => rfl

/-- The first half on the bus waits for the second. -/
theorem firstSent_quiet (hS : FirstSent s f) (hgo : reqGo s i = false)
    (hdtlb : i.mIn.tlbld = false ∧ i.mIn.tlbie = false) : FirstSent (step s i) f := by
  obtain ⟨⟨-, hstore, -, -⟩, hvalid⟩ := curReq_quiet hS.full hgo
  have hm : mergeNow s i = false := by simp [mergeNow, mergeable, hstore]
  have hreq : (step s i).r1.req = s.r1.req := by
    rw [step_req, if_neg (by simp [hS.state]), takenReq, hgo, Bool.and_false]
    rfl
  constructor
  · simp [step_full, takenFull, hgo, hS.full]
  · simp [step_state, hS.state, storeExit, hS.atomicMore]
  · simp [step_atomicMore, hS.state, hm, hvalid, hS.atomicMore]
  · rw [hreq]
    exact onPage_step (Or.inl hS.state) hdtlb hS.page

theorem firstFailed_quiet (hF : FirstFailed s f) (hgo : reqGo s i = false) :
    FirstFailed (step s i) f := by
  obtain ⟨⟨hl, hs, hfl, -⟩, -⟩ := curReq_quiet hF.full hgo
  constructor
  · simp [step_full, takenFull, hgo, hF.full]
  · simp [step_state, hF.state, idleNext, idleStcx, MemAccessRequest.plainStore,
      MemAccessRequest.zeroLine, hl, hs, hfl]
  · exact hF.reserve
  · rw [step_reservation, hF.state]
    exact takenRsrv_lost (by simp [hgo]) (Or.inl hF.lost)

/-! ## The second half -/

/-- `req` is the second half of a quadword store whose first half is on the bus. -/
structure SecondStore (s : State g) (req : MemAccessRequest g) : Prop where
  opStore : req.opStore = true
  samePage : req.samePage = true
  firstDw : req.firstDw = false
  lastDw : req.lastDw = true
  dcbz : req.dcbz = false
  state : s.r1.state = .storeWaitAck
  atomicMore : s.r1.atomicMore = true

theorem SecondStore.mergeable {req : MemAccessRequest g} (h : SecondStore s req) :
    mergeable s req = true := by
  simp [Dcache.mergeable, h.opStore, h.samePage, h.dcbz, h.atomicMore]

/-- The second half follows the first on the bus, or waits for its turn. -/
theorem secondStore_step (hS : SecondStore s (curReq s i)) (htaken : takenReq s i = curReq s i)
    (hfull : takenFull s i = true) :
    (sendsStore s i = true ∧ (step s i).r1.full = false) ∨
      (sendsStore s i = false ∧ (step s i).r1.full = true ∧
        SecondStore (step s i) (step s i).r1.req) := by
  have hretire := step_full s i
  simp only [hS.state, hfull, retires, Bool.true_and] at hretire
  cases hm : mergeNow s i with
  | true => exact Or.inl ⟨by simp [sendsStore, hS.state, hm], by simp [hretire, hm]⟩
  | false =>
      refine Or.inr ⟨by simp [sendsStore, hS.state, hm], by simp [hretire, hm], ?_⟩
      rw [step_req, if_neg (by simp [hS.state]), htaken]
      exact {
        opStore := hS.opStore
        samePage := hS.samePage
        firstDw := hS.firstDw
        lastDw := hS.lastDw
        dcbz := hS.dcbz
        state := by simp [step_state, hS.state, storeExit, hS.atomicMore]
        atomicMore := by simp [step_atomicMore, hS.state, hm, hS.mergeable, hS.atomicMore] }

/-- A half of a quadword store is a store or is refused. -/
theorem reqOp_of_half {t : QuadTrace g} (henv : FromLoadstore1 t i)
    (hgo : reqGo t.st i = true) (hqw : t.st.r0.req.atomicQw = true)
    (hload : t.st.r0.req.load = false) : reqOp t.st i = .store ∨ reqOp t.st i = .bad := by
  obtain ⟨hsync, htouch, hprobe, hflush, -⟩ := henv.half hgo hqw
  simp only [reqOp, hgo, hsync, htouch, hprobe, hflush, hload]
  simp only [if_true, Bool.false_eq_true, if_false, Bool.not_false]
  split_ifs
  · exact Or.inr rfl
  · exact Or.inr rfl
  · exact Or.inl rfl

/-- A half of a quadword load loads or is refused. -/
theorem reqOp_of_loadHalf {t : QuadTrace g} (henv : FromLoadstore1 t i)
    (hgo : reqGo t.st i = true) (hqw : t.st.r0.req.atomicQw = true)
    (hload : t.st.r0.req.load = true) :
    reqOp t.st i = .loadHit ∨ reqOp t.st i = .loadMiss ∨ reqOp t.st i = .bad := by
  obtain ⟨hsync, htouch, hprobe, hflush, -⟩ := henv.half hgo hqw
  simp only [reqOp, hgo, hsync, htouch, hprobe, hflush, hload]
  simp only [if_true, Bool.false_eq_true, if_false, Bool.not_true]
  split_ifs
  · exact Or.inr (Or.inr rfl)
  · exact Or.inr (Or.inr rfl)
  · exact Or.inl rfl
  · exact Or.inr (Or.inl rfl)

/-- The second half finds that it goes to the page of the open cycle. -/
theorem reqSamePage_of_onPage (hsecond : SecondOf f s.r0.req) (hS : FirstSent s f)
    (hway : f.virtMode = true → tlbHitWay s = s.r1.req.tlbWay) (hra : validRa s i = true)
    (hhigh : s.r0.req.virtMode = false → s.r0.req.addr.extractLsb' 32 24 = 0#24) :
    reqSamePage s = true := by
  have hpage := hS.page
  have hvirt := hsecond.2.2.2.1
  unfold OnPage at hpage
  unfold reqSamePage
  rw [hvirt]
  cases hv : f.virtMode with
  | true =>
      rw [hv, if_pos rfl] at hpage
      obtain ⟨hhit, hix, hw⟩ := hpage
      have hread : s.tlb.tlbReadValid = true := by
        simp only [validRa, hvirt, hv, Bool.not_true, Bool.or_false, tlbHit, Bool.and_eq_true]
          at hra
        exact hra.1.2
      simp [hread, hS.state, hhit, hix, hw, hway hv, getTlbIndex_secondOf hsecond]
  | false =>
      rw [hv, if_neg (by decide)] at hpage
      have hpage' : SamePage g s.r1.wb.adr (addrToWb (addrToReal s.r0.req.addr)) := by
        intro k hk
        have h4 := four_le_tlbLgPgsz g
        rw [hpage k hk]
        by_cases hlt : k < 29
        · rw [getLsbD_addrToWb _ _ hlt, getLsbD_addrToWb _ _ hlt,
            getLsbD_addrToReal _ _ (by omega), getLsbD_addrToReal _ _ (by omega),
            getLsbD_secondOf hsecond _ (by omega)]
        · rw [BitVec.getLsbD_of_ge _ _ (by omega), BitVec.getLsbD_of_ge _ _ (by omega)]
      simpa using getRpn_of_samePage hpage' (hhigh (by rw [hvirt, hv]))

/-- The second half of a store is looked up when the first is on the bus. -/
theorem secondStore_lookup {t : QuadTrace g} (henv : FromLoadstore1 t i)
    (hgood : SecondStoreGood t i) (hgo : reqGo t.st i = true) (hout : t.out = .firstOut)
    (hf : t.first = some f) (hload : f.load = false) (hS : FirstSent t.st f) :
    reqOp t.st i = .store ∧ SecondStore t.st (r0Request t.st i) := by
  obtain ⟨hsecond, hway⟩ := henv.second hgo f hf
  have hload' : t.st.r0.req.load = false := by rw [hsecond.2.1, hload]
  have hhalf := hsecond.1
  simp only [isSecondHalf, Bool.and_eq_true, Bool.not_eq_true'] at hhalf
  obtain ⟨hqw, hsnd⟩ := hhalf
  obtain ⟨hok, hnc, hhigh⟩ := hgood hout hgo
  obtain ⟨hsync, htouch, hprobe, hflush, hdcbz, hlast⟩ := henv.half hgo hqw
  have hop : reqOp t.st i = .store := by
    simp [reqOp, hgo, hsync, htouch, hprobe, hok, hflush, hload', hnc]
  refine ⟨hop, ?_, ?_, ?_, ?_, ?_, hS.state, hS.atomicMore⟩
  · simp [r0Request, hop]
  · exact reqSamePage_of_onPage hsecond hS hway (validRa_of_accessOk hok) hhigh
  · simp [r0Request, hqw, hsnd]
  · simp [r0Request, hlast, hsnd]
  · exact hdcbz

/-- The second half of a store-conditional whose first half failed is refused or
fails. -/
theorem second_of_failed {t : QuadTrace g} (henv : FromLoadstore1 t i)
    (hgo : reqGo t.st i = true) (hf : t.first = some f) (hload : f.load = false)
    (hF : FirstFailed t.st f) : sendsStore t.st i = false ∧ (step t.st i).r1.full = false := by
  obtain ⟨hsecond, -⟩ := henv.second hgo f hf
  have hhalf := hsecond.1
  simp only [isSecondHalf, Bool.and_eq_true, Bool.not_eq_true'] at hhalf
  have hload' : t.st.r0.req.load = false := by rw [hsecond.2.1, hload]
  have hcur : curReq t.st i = r0Request t.st i := curReq_of_not_full hF.full
  have hres : (curReq t.st i).reserve = true := by
    rw [hcur]
    exact hsecond.2.2.1.trans hF.reserve
  refine ⟨by simp [sendsStore, hF.state, MemAccessRequest.plainStore, hres], ?_⟩
  rcases reqOp_of_half henv hgo hhalf.1 hload' with hop | hop
  · have hstore : (curReq t.st i).opStore = true := by simp [hcur, r0Request, hop]
    have hfail : idleStcxFail t.st (curReq t.st i) = true := by
      simp [idleStcxFail, hstore, hres, hF.lost]
    simp [step_full, retires, hF.state, idleDone, hfail]
  · simp [step_full, takenFull, hF.full, hgo, reqSlow, hop]

/-! ## The invariant -/

/-- What is known of the first half of a store until the second is looked up. -/
inductive FirstAt (t : QuadTrace g) (f : Loadstore1ToDcache) : Prop where
  | waits (h : FirstStore t.st t.st.r1.req f) (hf : t.st.r1.full = true)
      (hout : t.out ≠ .firstOut)
  | sent (h : FirstSent t.st f) (hout : t.out = .firstOut)
  | failed (h : FirstFailed t.st f) (hout : t.out ≠ .firstOut)

structure QuadStoreInv (t : QuadTrace g) : Prop where
  mach : MachInv t.st
  bus : BusInv t.st t.owed
  mmu : t.st.r0Full = true → t.st.r0.mmuReq = true → t.st.r0.req.atomicQw = false
  we : t.st.r1.state = .storeWaitAck ∨ t.st.r1.state = .doStcx → t.st.r1.wb.we = true
  stcx : t.st.r1.state = .doStcx → t.st.r1.req.opStore = true
  first : ∀ f ∈ t.first, f.load = false → FirstAt t f
  load : ∀ f ∈ t.first, f.load = true → t.out ≠ .firstOut
  second : t.out = .firstOut → t.first = none →
    t.st.r1.full = true ∧ SecondStore t.st t.st.r1.req
  /-- Every half of a store that waits in `r1` is accounted for. -/
  half : t.st.r1.full = true → t.st.r1.req.opStore = true →
    (t.st.r1.req.lastDw = false → ∃ f ∈ t.first, f.load = false) ∧
      (t.st.r1.req.firstDw = false → t.out = .firstOut)
  last : t.out = .secondOut → t.st.r1.state = .storeWaitAck ∧ t.st.r1.wb.stb = true

section Step

variable {t : QuadTrace g}

/-- A store that is sent is on the bus after the edge. -/
theorem bus_of_sends (h : QuadStoreInv t) (hs : sendsStore t.st i = true) :
    (step t.st i).r1.state = .storeWaitAck ∧ (step t.st i).r1.wb.cyc = true ∧
      (step t.st i).r1.wb.stb = true ∧ (step t.st i).r1.wb.we = true := by
  have hstate := step_state t.st i
  have hcyc := step_cyc t.st i
  have hstb := step_stb t.st i
  have hwe := step_we t.st i
  unfold sendsStore at hs
  cases hst : t.st.r1.state with
  | idle =>
      simp only [hst] at hs hstate hcyc hstb hwe
      have hstore : (curReq t.st i).opStore = true := by
        simp only [MemAccessRequest.plainStore, Bool.and_eq_true] at hs
        exact hs.1.1
      have hfl := (onlyStore h.mach hstore).2.1
      simp [hstate, idleNext, hfl, hs, hcyc, hstb, hwe]
  | storeWaitAck =>
      simp only [hst] at hs hstate hcyc hstb hwe
      have hm := hs
      simp only [mergeNow, Bool.and_eq_true, Bool.not_eq_true', decide_eq_true_eq] at hm
      have hexit : storeExit t.st i = false := by simp [storeExit, stbsDone, hm]
      simp [hstate, hexit, hcyc, hstb, hwe, hs, hm, h.we (Or.inl hst), (h.bus.store hst).1]
  | doStcx =>
      simp only [hst, Bool.and_eq_true, Bool.not_eq_true'] at hs hstate hcyc hstb hwe
      simp [hstate, hcyc, hstb, hwe, hs, h.we (Or.inr hst), (h.bus.stcx hst).1]
  | reloadWaitAck => simp [hst] at hs
  | ncLoadWaitAck => simp [hst] at hs
  | flushCycle => simp [hst] at hs

theorem retires_of_sends (hs : sendsStore s i = true) : retires s i = true := by
  unfold sendsStore at hs
  unfold retires
  cases hst : s.r1.state <;> simp_all [idleDone]

theorem opStore_of_sends (h : QuadStoreInv t) (hs : sendsStore t.st i = true) :
    (curReq t.st i).opStore = true := by
  unfold sendsStore at hs
  cases hst : t.st.r1.state with
  | idle => simp_all [MemAccessRequest.plainStore]
  | storeWaitAck => simp_all [mergeNow, mergeable]
  | doStcx =>
      rw [curReq, if_pos (h.mach.busy (Or.inr (Or.inl hst)))]
      exact h.stcx hst
  | reloadWaitAck => simp [hst] at hs
  | ncLoadWaitAck => simp [hst] at hs
  | flushCycle => simp [hst] at hs

/-! ### How far the store is -/

theorem nextOut_ne_firstOut (hs : sendsStore t.st i = false) (hout : t.out ≠ .firstOut) :
    t.nextOut i ≠ .firstOut := by
  unfold QuadTrace.nextOut
  rw [hs]
  simp only [Bool.false_eq_true, if_false]
  split_ifs
  · decide
  · exact hout

theorem nextOut_firstOut (hs : sendsStore t.st i = false) (hout : t.out = .firstOut) :
    t.nextOut i = .firstOut := by
  simp [QuadTrace.nextOut, hs, hout]

theorem nextOut_of_sends (hs : sendsStore t.st i = true) (hlast : (curReq t.st i).lastDw = false) :
    t.nextOut i = .firstOut := by
  simp [QuadTrace.nextOut, hs, hlast]

/-- The last doubleword of a store leaves no first half on the bus. -/
theorem nextOut_of_last (hs : sendsStore t.st i = true) (hlast : (curReq t.st i).lastDw = true) :
    t.nextOut i ≠ .firstOut := by
  simp only [QuadTrace.nextOut, hs, hlast, if_true, Bool.not_true, Bool.false_eq_true, if_false]
  split_ifs <;> decide

/-- While a first half is on the bus only its second half is looked up. -/
theorem out_of_first (h : QuadStoreInv t) (henv : FromLoadstore1 t i)
    (hgo : reqGo t.st i = true) (hno : isSecondHalf t.st.r0.req = false) : t.out ≠ .firstOut := by
  intro hout
  cases hf : t.first with
  | none =>
      have hfull := (h.second hout hf).1
      rw [not_full_of_reqGo hgo] at hfull
      exact absurd hfull (by decide)
  | some f =>
      have hhalf := (henv.second hgo f hf).1.1
      rw [hno] at hhalf
      exact absurd hhalf (by decide)

theorem not_second_of_first (p : Loadstore1ToDcache) (h : isFirstHalf p = true) :
    isSecondHalf p = false := by
  simp_all [isFirstHalf, isSecondHalf]

/-! ### One edge preserves the invariant -/

theorem firstAt_of_next {f : Loadstore1ToDcache} (hnext : FirstNext t.st i f)
    (hlast : (curReq t.st i).lastDw = false) (hout : t.out ≠ .firstOut) :
    FirstAt (t.step i) f := by
  cases hnext with
  | sent h hs => exact .sent h (nextOut_of_sends hs hlast)
  | failed h hs => exact .failed h (nextOut_ne_firstOut hs hout)
  | waits h hf hs => exact .waits h hf (nextOut_ne_firstOut hs hout)

theorem first_step (h : QuadStoreInv t) (henv : FromLoadstore1 t i) {f : Loadstore1ToDcache}
    (hf : f ∈ (t.step i).first) (hload : f.load = false) : FirstAt (t.step i) f := by
  change f ∈ t.nextFirst i at hf
  unfold QuadTrace.nextFirst at hf
  cases hgo : reqGo t.st i with
  | true =>
      rw [hgo, if_pos rfl] at hf
      split_ifs at hf with hhalf
      · simp only [Bool.and_eq_true, bne_iff_ne] at hhalf
        obtain rfl : t.st.r0.req = f := by simpa using hf
        have hqw : t.st.r0.req.atomicQw = true := by
          have := hhalf.1
          simp only [isFirstHalf, Bool.and_eq_true] at this
          exact this.1
        obtain ⟨-, -, -, -, hdcbz, hlast⟩ := henv.half hgo hqw
        have hop : reqOp t.st i = .store :=
          (reqOp_of_half henv hgo hqw hload).resolve_right hhalf.2
        have hnot := not_full_of_reqGo hgo
        have hcur := curReq_of_not_full (i := i) hnot
        have hF := firstStore_lookup h.mach hop hhalf.1 (h.mmu (r0Full_of_reqGo hgo)) hdcbz hlast
        rw [← hcur] at hF
        refine firstAt_of_next (firstNext_step h.mach hF ?_ ?_ ?_) hF.lastDw ?_
        · rw [hcur, takenReq, hnot, hgo]
          rfl
        · simp [takenFull, hnot, hgo, reqSlow, hop]
        · exact henv.dtlb (Or.inr ⟨hgo, hhalf.1⟩)
        · exact out_of_first h henv hgo (not_second_of_first _ hhalf.1)
      · exact absurd hf (by simp)
  | false =>
      rw [hgo, if_neg (by decide)] at hf
      have hdtlb := henv.dtlb (Or.inl (by rintro hnone; simp [hnone] at hf))
      cases h.first f hf hload with
      | waits hF hfull hout =>
          have hcur : curReq t.st i = t.st.r1.req := by simp [curReq, hfull]
          rw [← hcur] at hF
          refine firstAt_of_next (firstNext_step h.mach hF ?_ ?_ hdtlb) hF.lastDw hout
          · simp [hcur, takenReq, hfull]
          · simp [takenFull, hfull]
      | sent hS hout =>
          have hs := not_sends_of_not_store (curReq_quiet hS.full hgo).1.2.1 h.mach hS.full
          exact .sent (firstSent_quiet hS hgo hdtlb) (nextOut_firstOut hs hout)
      | failed hF hout =>
          have hs := not_sends_of_not_store (curReq_quiet hF.full hgo).1.2.1 h.mach hF.full
          exact .failed (firstFailed_quiet hF hgo) (nextOut_ne_firstOut hs hout)

/-- With a store sent from `r1`, its first half has been followed. -/
theorem lastDw_of_sends (h : QuadStoreInv t) (hgo : reqGo t.st i = false)
    (hs : sendsStore t.st i = true) (hno : ∀ f ∈ t.first, f.load = true) :
    (curReq t.st i).lastDw = true := by
  have hstore := opStore_of_sends h hs
  have hfull : t.st.r1.full = true := by
    by_contra hfull
    rw [Bool.not_eq_true] at hfull
    have hnone := (curReq_quiet hfull hgo).1.2.1
    rw [hstore] at hnone
    exact absurd hnone (by decide)
  have hcur : curReq t.st i = t.st.r1.req := by simp [curReq, hfull]
  rw [hcur] at hstore ⊢
  by_contra hlast
  rw [Bool.not_eq_true] at hlast
  obtain ⟨f, hf, hload⟩ := (h.half hfull hstore).1 hlast
  rw [hno f hf] at hload
  exact absurd hload (by decide)

theorem load_step (h : QuadStoreInv t) (henv : FromLoadstore1 t i) {f : Loadstore1ToDcache}
    (hf : f ∈ (t.step i).first) (hload : f.load = true) : (t.step i).out ≠ .firstOut := by
  change f ∈ t.nextFirst i at hf
  show t.nextOut i ≠ .firstOut
  unfold QuadTrace.nextFirst at hf
  cases hgo : reqGo t.st i with
  | true =>
      rw [hgo, if_pos rfl] at hf
      split_ifs at hf with hhalf
      · simp only [Bool.and_eq_true, bne_iff_ne] at hhalf
        obtain rfl : t.st.r0.req = f := by simpa using hf
        have hnot := not_full_of_reqGo hgo
        have hstore : (curReq t.st i).opStore = false := by
          rw [curReq_of_not_full hnot]
          simp only [r0Request, beq_eq_false_iff_ne]
          intro hop
          rw [load_of_store hop] at hload
          exact absurd hload (by decide)
        exact nextOut_ne_firstOut (not_sends_of_not_store hstore h.mach hnot)
          (out_of_first h henv hgo (not_second_of_first _ hhalf.1))
      · exact absurd hf (by simp)
  | false =>
      rw [hgo, if_neg (by decide)] at hf
      cases hs : sendsStore t.st i with
      | false => exact nextOut_ne_firstOut hs (h.load f hf hload)
      | true =>
          refine nextOut_of_last hs (lastDw_of_sends h hgo hs fun f' hf' => ?_)
          rw [Option.mem_unique hf' hf]
          exact hload

/-- The second half that is looked up while the first is on the bus. -/
theorem secondStore_of_first (h : QuadStoreInv t) (henv : FromLoadstore1 t i)
    (hgood : SecondStoreGood t i) (hgo : reqGo t.st i = true) (hout : t.out = .firstOut) :
    reqOp t.st i = .store ∧ SecondStore t.st (r0Request t.st i) := by
  have hnot := not_full_of_reqGo hgo
  cases hf : t.first with
  | none =>
      have hfull := (h.second hout hf).1
      rw [hnot] at hfull
      exact absurd hfull (by decide)
  | some f =>
      cases hload : f.load with
      | true => exact absurd hout (h.load f hf hload)
      | false =>
          cases h.first f hf hload with
          | waits _ hfull _ =>
              rw [hnot] at hfull
              exact absurd hfull (by decide)
          | sent hS _ => exact secondStore_lookup henv hgood hgo hout hf hload hS
          | failed _ hout' => exact absurd hout hout'

/-- With the first half on the bus, the second, looked up or waiting, follows or goes
on waiting. -/
theorem second_step (h : QuadStoreInv t) (henv : FromLoadstore1 t i)
    (hgood : SecondStoreGood t i) (hout : (t.step i).out = .firstOut)
    (hnone : (t.step i).first = none) :
    (step t.st i).r1.full = true ∧ SecondStore (step t.st i) (step t.st i).r1.req := by
  change t.nextOut i = .firstOut at hout
  change t.nextFirst i = none at hnone
  unfold QuadTrace.nextFirst at hnone
  cases hgo : reqGo t.st i with
  | true =>
      rw [hgo, if_pos rfl] at hnone
      have hnot := not_full_of_reqGo hgo
      have hcur := curReq_of_not_full (i := i) hnot
      cases hs : sendsStore t.st i with
      | true =>
          -- the first half itself has been sent, and is followed
          have hstore := opStore_of_sends h hs
          have hlast : (curReq t.st i).lastDw = false := by
            by_contra hlast
            exact nextOut_of_last hs (by simpa using hlast) hout
          rw [hcur] at hstore hlast
          simp only [r0Request, beq_iff_eq, Bool.or_eq_false_iff, Bool.not_eq_false']
            at hstore hlast
          have hfirst := (henv.half hgo hlast.1).2.2.2.2.2
          rw [hlast.2] at hfirst
          have hhalf : isFirstHalf t.st.r0.req = true := by
            simpa [isFirstHalf, hlast.1] using hfirst.symm
          simp [hhalf, hstore] at hnone
      | false =>
          have hout' : t.out = .firstOut := by
            by_contra hne
            exact nextOut_ne_firstOut hs hne hout
          obtain ⟨hop, hS⟩ := secondStore_of_first h henv hgood hgo hout'
          rw [← hcur] at hS
          rcases secondStore_step hS (by rw [hcur, takenReq, hnot, hgo]; rfl)
            (by simp [takenFull, hnot, hgo, reqSlow, hop]) with ⟨hs', -⟩ | ⟨-, hnext⟩
          · rw [hs] at hs'
            exact absurd hs' (by decide)
          · exact hnext
  | false =>
      rw [hgo, if_neg (by decide)] at hnone
      cases hs : sendsStore t.st i with
      | true =>
          have hlast := lastDw_of_sends h hgo hs (by simp [hnone])
          exact absurd hout (nextOut_of_last hs hlast)
      | false =>
          have hout' : t.out = .firstOut := by
            by_contra hne
            exact nextOut_ne_firstOut hs hne hout
          obtain ⟨hfull, hS⟩ := h.second hout' hnone
          have hcur : curReq t.st i = t.st.r1.req := by simp [curReq, hfull]
          rw [← hcur] at hS
          rcases secondStore_step hS (by simp [hcur, takenReq, hfull])
            (by simp [takenFull, hfull]) with ⟨hs', -⟩ | ⟨-, hnext⟩
          · rw [hs] at hs'
            exact absurd hs' (by decide)
          · exact hnext

theorem half_step (h : QuadStoreInv t) (henv : FromLoadstore1 t i)
    (hf : (step t.st i).r1.full = true) (hstore : (step t.st i).r1.req.opStore = true) :
    ((step t.st i).r1.req.lastDw = false → ∃ f ∈ (t.step i).first, f.load = false) ∧
      ((step t.st i).r1.req.firstDw = false → (t.step i).out = .firstOut) := by
  have hcurFull := curReq_of_full h.mach hf
  have hs : sendsStore t.st i = false := by
    by_contra hs
    have := retires_of_sends (by simpa using hs)
    rw [hcurFull.1] at this
    exact absurd this (by decide)
  have hreq : (step t.st i).r1.req.opStore = (curReq t.st i).opStore ∧
      (step t.st i).r1.req.lastDw = (curReq t.st i).lastDw ∧
      (step t.st i).r1.req.firstDw = (curReq t.st i).firstDw := by
    rw [step_req, hcurFull.2.1]
    split_ifs <;> exact ⟨rfl, rfl, rfl⟩
  obtain ⟨hstore', hlast', hfirst'⟩ := hreq
  rw [hstore'] at hstore
  rw [hlast', hfirst']
  show (_ → ∃ f ∈ t.nextFirst i, _) ∧ (_ → t.nextOut i = .firstOut)
  rcases taken_of_full hf with ⟨hfull, -, hcur⟩ | ⟨hnot, hgo, -, -, hcur⟩
  · have hgo : reqGo t.st i = false := by simp [reqGo, r0Valid, hfull]
    rw [hcur] at hstore ⊢
    obtain ⟨hlast, hfirst⟩ := h.half hfull hstore
    refine ⟨fun hl => ?_, fun hd => nextOut_firstOut hs (hfirst hd)⟩
    simpa [QuadTrace.nextFirst, hgo] using hlast hl
  · rw [hcur] at hstore ⊢
    simp only [r0Request, beq_iff_eq] at hstore
    have hload := load_of_store hstore
    refine ⟨fun hl => ?_, fun hd => ?_⟩
    · simp only [r0Request, Bool.or_eq_false_iff, Bool.not_eq_false'] at hl
      have hfirst := (henv.half hgo hl.1).2.2.2.2.2
      rw [hl.2] at hfirst
      have hhalf : isFirstHalf t.st.r0.req = true := by
        simpa [isFirstHalf, hl.1] using hfirst.symm
      exact ⟨t.st.r0.req, by simp [QuadTrace.nextFirst, hgo, hhalf, hstore], hload⟩
    · simp only [r0Request, Bool.or_eq_false_iff, Bool.not_eq_false'] at hd
      have hhalf : isSecondHalf t.st.r0.req = true := by simp [isSecondHalf, hd]
      obtain ⟨f, hfirst⟩ := Option.ne_none_iff_exists'.mp (henv.first hgo hhalf)
      have hload' : f.load = false := by rw [← (henv.second hgo f hfirst).1.2.1, hload]
      cases h.first f hfirst hload' with
      | waits _ hfull _ =>
          rw [hnot] at hfull
          exact absurd hfull (by decide)
      | sent _ hout => exact nextOut_firstOut hs hout
      | failed hF _ =>
          have hnone := (second_of_failed henv hgo hfirst hload' hF).2
          rw [hf] at hnone
          exact absurd hnone (by decide)

theorem last_step (h : QuadStoreInv t) (hout : (t.step i).out = .secondOut) :
    (step t.st i).r1.state = .storeWaitAck ∧ (step t.st i).r1.wb.stb = true := by
  change t.nextOut i = .secondOut at hout
  cases hs : sendsStore t.st i with
  | true => exact ⟨(bus_of_sends h hs).1, (bus_of_sends h hs).2.2.1⟩
  | false =>
      simp only [QuadTrace.nextOut, hs, Bool.false_eq_true, if_false] at hout
      split_ifs at hout with hdone
      rw [not_and, Bool.not_eq_false] at hdone
      -- the strobe is stalled and stays
      obtain ⟨hst, hstb⟩ := h.last hout
      have hexit : storeExit t.st i = false := by
        simp [storeExit, stbsDone, hdone hout, hstb]
      simp [step_state, step_stb, hst, hexit, hdone hout, hstb]

theorem we_step (h : QuadStoreInv t)
    (hst' : (step t.st i).r1.state = .storeWaitAck ∨ (step t.st i).r1.state = .doStcx) :
    (step t.st i).r1.wb.we = true := by
  rw [step_state] at hst'
  rw [step_we]
  cases hst : t.st.r1.state with
  | idle =>
      obtain ⟨op, hop⟩ := exists_hasOp_curReq h.mach i
      simp only [hst] at hst'
      rcases idleNext_cases (s := t.st) hop with ⟨hnext, -⟩ | ⟨-, hp, -⟩ | ⟨hnext, -⟩ |
        ⟨hnext, -⟩ | ⟨-, -, -, hx, -⟩
      · rcases hnext with hnext | hnext <;> simp [hnext] at hst'
      · simp [hp]
      · simp [hnext] at hst'
      · simp [hnext] at hst'
      · simp [hx]
  | storeWaitAck => simpa using h.we (Or.inl hst)
  | doStcx => simpa using h.we (Or.inr hst)
  | reloadWaitAck =>
      simp only [hst] at hst'
      split_ifs at hst' <;> simp at hst'
  | ncLoadWaitAck =>
      simp only [hst] at hst'
      split_ifs at hst' <;> simp at hst'
  | flushCycle => simp [hst] at hst'

theorem stcx_step (h : QuadStoreInv t) (hst' : (step t.st i).r1.state = .doStcx) :
    (step t.st i).r1.req.opStore = true := by
  have hfull := (machInv_step i h.mach).busy (Or.inr (Or.inl hst'))
  have htaken := (curReq_of_full h.mach hfull).2.1
  have hreq : (step t.st i).r1.req.opStore = (curReq t.st i).opStore := by
    rw [step_req, htaken]
    split_ifs <;> rfl
  rw [hreq]
  rw [step_state] at hst'
  cases hst : t.st.r1.state with
  | idle =>
      simp only [hst, idleNext] at hst'
      split_ifs at hst' with _ _ _ hx
      simp only [idleStcx, Bool.and_eq_true] at hx
      exact hx.1.1
  | doStcx =>
      rw [curReq, if_pos (h.mach.busy (Or.inr (Or.inl hst)))]
      exact h.stcx hst
  | storeWaitAck =>
      simp only [hst] at hst'
      split_ifs at hst'
  | reloadWaitAck =>
      simp only [hst] at hst'
      split_ifs at hst'
  | ncLoadWaitAck =>
      simp only [hst] at hst'
      split_ifs at hst'
  | flushCycle => simp [hst] at hst'

theorem mmu_step (h : QuadStoreInv t) (hfull : (step t.st i).r0Full = true)
    (hm : (step t.st i).r0.mmuReq = true) : (step t.st i).r0.req.atomicQw = false := by
  simp only [step, stage0, stage0In, stage0Full] at hfull hm ⊢
  split_ifs at hfull hm ⊢
  · rfl
  · exact h.mmu hfull hm
  · exact h.mmu hfull hm

/-- Every edge preserves the invariant. -/
theorem quadStoreInv_step (henv : FromLoadstore1 t i) (hgood : SecondStoreGood t i)
    (h : QuadStoreInv t) : QuadStoreInv (t.step i) where
  mach := machInv_step i h.mach
  bus := busInv_step h.mach henv.ack h.bus
  mmu := mmu_step h
  we := we_step h
  stcx := stcx_step h
  first := fun _ hf hload => first_step h henv hf hload
  load := fun _ hf hload => load_step h henv hf hload
  second := second_step h henv hgood
  half := half_step h henv
  last := last_step h

theorem quadStoreInv_init {s : State g} (hs : Quiet s) : QuadStoreInv (.init s) where
  mach := machInv_of_quiet hs
  bus := busInv_of_quiet hs
  mmu := by simp [QuadTrace.init, hs.r0Full]
  we := by simp [QuadTrace.init, hs.state]
  stcx := by simp [QuadTrace.init, hs.state]
  first := by simp [QuadTrace.init]
  load := by simp [QuadTrace.init]
  second := by simp [QuadTrace.init]
  half := by simp [QuadTrace.init, hs.full]
  last := by simp [QuadTrace.init]

/-! ## Atomicity -/

/-- While a first half is on the bus, the edge is in `STORE_WAIT_ACK`. -/
theorem state_of_firstOut (h : QuadStoreInv t) (hout : t.out = .firstOut) :
    t.st.r1.state = .storeWaitAck := by
  cases hf : t.first with
  | none => exact (h.second hout hf).2.state
  | some f =>
      cases hload : f.load with
      | true => exact absurd hout (h.load f hf hload)
      | false =>
          cases h.first f hf hload with
          | waits _ _ hout' => exact absurd hout hout'
          | sent hS _ => exact hS.state
          | failed _ hout' => exact absurd hout hout'

/-- What is sent while a first half is on the bus is the second half. -/
theorem secondStore_of_sends (h : QuadStoreInv t) (henv : FromLoadstore1 t i)
    (hgood : SecondStoreGood t i) (hout : t.out = .firstOut) (hs : sendsStore t.st i = true) :
    SecondStore t.st (curReq t.st i) := by
  cases hgo : reqGo t.st i with
  | true =>
      rw [curReq_of_not_full (not_full_of_reqGo hgo)]
      exact (secondStore_of_first h henv hgood hgo hout).2
  | false =>
      cases hf : t.first with
      | none =>
          obtain ⟨hfull, hS⟩ := h.second hout hf
          simpa [curReq, hfull] using hS
      | some f =>
          cases hload : f.load with
          | true => exact absurd hout (h.load f hf hload)
          | false =>
              cases h.first f hf hload with
              | waits _ _ hout' => exact absurd hout hout'
              | sent hS _ =>
                  have hno := not_sends_of_not_store (curReq_quiet hS.full hgo).1.2.1 h.mach
                    hS.full
                  rw [hs] at hno
                  exact absurd hno (by decide)
              | failed _ hout' => exact absurd hout hout'

/-- While the second half has not been accepted, its strobe stays. -/
theorem nextOut_secondOut (h : QuadStoreInv t) (hout : t.out = .secondOut)
    (hstall : i.wishboneIn.stall = true) : t.nextOut i = .secondOut := by
  have hs : sendsStore t.st i = false := by
    simp [sendsStore, (h.last hout).1, mergeNow, hstall]
  simp [QuadTrace.nextOut, hs, hout, hstall]

theorem storeAtomic_of_inv (h : QuadStoreInv t) (henv : FromLoadstore1 t i)
    (hgood : SecondStoreGood t i) : StoreAtomic t i where
  sent := fun hs => (bus_of_sends h hs).2
  held := by
    intro hout
    have hst : t.st.r1.state = .storeWaitAck := by
      cases ho : t.out with
      | none => exact absurd ho hout
      | firstOut => exact state_of_firstOut h ho
      | secondOut => exact (h.last ho).1
    exact (h.bus.store hst).1
  strobe := fun hout => (h.last hout).2
  next := fun hout hs => (secondStore_of_sends h henv hgood hout hs).firstDw
  both := by
    intro hout
    constructor
    · cases hgo : reqGo t.st i with
      | true => simp [(secondStore_of_first h henv hgood hgo hout).1]
      | false => simp [reqOp, hgo]
    · simp [dOut, step_stcxFail, state_of_firstOut h hout]
  neither := by
    intro hs hfirst
    have hstore := opStore_of_sends h hs
    cases hgo : reqGo t.st i with
    | true =>
        have hnot := not_full_of_reqGo hgo
        rw [curReq_of_not_full hnot] at hfirst hstore
        simp only [r0Request, Bool.or_eq_false_iff, Bool.not_eq_false', beq_iff_eq] at hfirst hstore
        obtain ⟨f, hf⟩ := Option.ne_none_iff_exists'.mp
          (henv.first hgo (by simp [isSecondHalf, hfirst]))
        have hload : f.load = false := by
          rw [← (henv.second hgo f hf).1.2.1]
          exact load_of_store hstore
        cases h.first f hf hload with
        | waits _ hfull _ =>
            rw [hnot] at hfull
            exact absurd hfull (by decide)
        | sent _ hout => exact hout
        | failed hF _ =>
            have hno := (second_of_failed henv hgo hf hload hF).1
            rw [hs] at hno
            exact absurd hno (by decide)
    | false =>
        have hfull : t.st.r1.full = true := by
          by_contra hfull
          have hno := (curReq_quiet (by simpa using hfull) hgo).1.2.1
          rw [hstore] at hno
          exact absurd hno (by decide)
        rw [curReq, if_pos hfull] at hfirst hstore
        exact (h.half hfull hstore).2 hfirst

end Step

end Microwatt.Dcache
