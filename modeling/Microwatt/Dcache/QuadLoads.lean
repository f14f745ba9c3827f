import Microwatt.Dcache.QuadStores

/-!
# Quadword loads are atomic

The second half of a quadword load takes the ways that the first half was found in
from `r1.prev_hit_ways`, whether they are still valid or not.  The invariant says that
this register holds the origin of the first half from when its data was read
(`LoadDone`); a first half that waits in `r1` (`LoadWaits`) has it set at the latest
when the tag of its own reload is written.  A second half that waits for its row
(`SecondLoad`) gets it from the reload of that line.
-/

namespace Microwatt.Dcache

variable {g : Geometry} {s : State g} {i : Input} {owed : Nat} {f : Loadstore1ToDcache}

/-! ## The registers after an edge -/

theorem step_prevHitWays : (step s i).r1.prevHitWays =
    if s.r1.state = .reloadWaitAck ∧ reloadLast s i then s.r1.storeWays
    else if reqGo s i then reqHitWays s i
    else if s.r1.writeTag then fun w => w == replaceWay s
    else s.r1.prevHitWays := by
  simp only [step, dcacheSlow]
  cases hst : s.r1.state <;>
    simp only [slowMachine, hst, slowIdle, idleFlushSync_eq, idleStore_eq, idleLmiss_eq,
      idleSetup_eq, slowReload_eq, slowStoreWait_eq, slowNcLoad_eq, slowDoStcx_eq, slowFlush,
      slowCommon_eq, true_and, false_and, if_false, reduceCtorEq]

theorem step_storeWays_reload (hst : s.r1.state = .reloadWaitAck) : (step s i).r1.storeWays =
    if s.r1.writeTag then fun w => w == replaceWay s else s.r1.storeWays := by
  simp only [step, dcacheSlow, slowMachine, hst, slowReload_eq, slowCommon_eq]

/-! ## What the first half leaves behind -/

/-- `req` is the first half `f` of a quadword load. -/
structure FirstLoad (s : State g) (req : MemAccessRequest g) (f : Loadstore1ToDcache) :
    Prop where
  opLmiss : req.opLmiss = true
  firstDw : req.firstDw = true
  lastDw : req.lastDw = false
  touch : req.touch = false
  index : getIndex req.realAddr = (getIndex f.addr : Index g)
  busy : s.r1.state ≠ .doStcx ∧ s.r1.state ≠ .flushCycle

/-- The first half waits in `r1`.  If the reload under way brings its row, it is the
reload of a line of the ways in `prev_hit_ways`, once its tag is written. -/
structure LoadWaits (s : State g) (f : Loadstore1ToDcache) : Prop where
  full : s.r1.full = true
  load : FirstLoad s s.r1.req f
  reload : s.r1.state = .reloadWaitAck → s.r1.req.hitReload = true →
    s.r1.storeIndex = getIndex f.addr ∧
      (s.r1.writeTag = false → s.r1.prevHitWays = s.r1.storeWays ∧
        ∃ w, s.r1.storeWays w = true)

/-- Its data has been read, from the ways in `prev_hit_ways` or from the bus. -/
structure LoadDone (s : State g) (o : Origin g) (f : Loadstore1ToDcache) : Prop where
  full : s.r1.full = false
  writeTag : s.r1.writeTag = false
  origin : o = .bus ∨ (o = .line (getIndex f.addr) s.r1.prevHitWays ∧
    ∃ w, s.r1.prevHitWays w = true)

/-- The second half waits in `r1` for its row. -/
structure SecondLoad (s : State g) (o : Origin g) : Prop where
  state : s.r1.state = .reloadWaitAck
  hitReload : s.r1.req.hitReload = true
  writeTag : s.r1.writeTag = false
  origin : o = .line s.r1.storeIndex s.r1.storeWays

structure QuadLoadInv (t : QuadTrace g) : Prop where
  mach : MachInv t.st
  bus : BusInv t.st t.owed
  /-- Nothing is owed in the first cycle of a reload. -/
  tagFree : t.st.r1.writeTag = true → t.owed = 0
  first : ∀ f ∈ t.first, f.load = true → LoadWaits t.st f ∨ LoadDone t.st t.origin f
  second : t.st.r1.full = true → t.st.r1.req.opLmiss = true → t.st.r1.req.firstDw = false →
    t.origin = .bus ∨ SecondLoad t.st t.origin

section Step

variable {t : QuadTrace g}

/-! ### The origin -/

theorem noAck_of_writeTag (h : QuadLoadInv t) (hack : AckIsOwed i t.owed)
    (hw : t.st.r1.writeTag = true) : i.wishboneIn.ack = false := by
  by_contra ha
  have hpos := hack (by simpa using ha)
  have hzero := h.tagFree hw
  omega

/-- With no tag written the origin is as it was read. -/
theorem nextOrigin_of_no_tag (hw : t.st.r1.writeTag = false) :
    t.nextOrigin i = t.readOrigin i := by
  have hno : (t.readOrigin i).overwritten t.st = false := by
    unfold Origin.overwritten
    split <;> simp [hw]
  simp [QuadTrace.nextOrigin, hno]

theorem readOrigin_of_none (hnone : loadFrom t.st i = none) : t.readOrigin i = t.origin := by
  simp [QuadTrace.readOrigin, hnone]

theorem loadFrom_none (hop : reqOp s i ≠ .loadHit) (hmiss : (curReq s i).opLmiss = false) :
    loadFrom s i = none := by
  unfold loadFrom
  rw [if_neg (by simpa using hop), if_neg (by simp [hmiss])]

/-- A row that completes a load. -/
theorem loadFrom_row (hop : reqOp s i ≠ .loadHit) (hst : s.r1.state = .reloadWaitAck)
    (hack : i.wishboneIn.ack = true) (hm : reloadMatch s i = true)
    (hmiss : (curReq s i).opLmiss = true) :
    loadFrom s i = some (.line s.r1.storeIndex s.r1.storeWays) := by
  unfold loadFrom
  rw [if_neg (by simpa using hop), if_pos (by simp [hack, hmiss]), if_pos (by simp [hst, hm])]

theorem loadFrom_nc (hop : reqOp s i ≠ .loadHit) (hst : s.r1.state = .ncLoadWaitAck)
    (hack : i.wishboneIn.ack = true) (hmiss : (curReq s i).opLmiss = true) :
    loadFrom s i = some .bus := by
  unfold loadFrom
  rw [if_neg (by simpa using hop), if_pos (by simp [hack, hmiss]), if_neg (by simp [hst]),
    if_pos (by simp [hst])]

/-- How a load gets its data. -/
theorem loadFrom_cases {o : Origin g} (h : loadFrom s i = some o) :
    (reqOp s i = .loadHit ∧ o = .line (reqIndex s) (reqHitWays s i)) ∨
      ((curReq s i).opLmiss = true ∧ s.r1.state = .reloadWaitAck ∧ reloadMatch s i = true ∧
        o = .line s.r1.storeIndex s.r1.storeWays) ∨
      ((curReq s i).opLmiss = true ∧ s.r1.state = .ncLoadWaitAck ∧ o = .bus) := by
  unfold loadFrom at h
  split_ifs at h with hhit hmiss hrow hnc
  · exact Or.inl ⟨by simpa using hhit, by simpa using h.symm⟩
  · simp only [Bool.and_eq_true, beq_iff_eq] at hmiss hrow
    exact Or.inr (Or.inl ⟨hmiss.2, hrow.1, hrow.2, by simpa using h.symm⟩)
  · simp only [Bool.and_eq_true, beq_iff_eq] at hmiss hnc
    exact Or.inr (Or.inr ⟨hmiss.2, hnc, by simpa using h.symm⟩)

/-! ### The first half -/

/-- A load miss asks for nothing else. -/
theorem onlyLmiss (h : MachInv s) (hop : (curReq s i).opLmiss = true) :
    (curReq s i).opStore = false ∧ (curReq s i).opFlush = false ∧ (curReq s i).opSync = false ∧
      reqOp s i ≠ .loadHit := by
  obtain ⟨op, hl, hs, hf, hy⟩ := exists_hasOp_curReq h i
  have heq : op = .loadMiss := by simpa [hop] using hl.symm
  refine ⟨by simp [hs, heq], by simp [hf, heq], by simp [hy, heq], fun hhit => ?_⟩
  have hgo : reqGo s i = true := reqGo_of_reqOp (by simp [hhit])
  rw [curReq_of_not_full (not_full_of_reqGo hgo)] at hop
  simp [r0Request, hhit] at hop

section FirstStep

variable (h : QuadLoadInv t) (hF : FirstLoad t.st (curReq t.st i) f)
  (htaken : takenReq t.st i = curReq t.st i) (hfull : takenFull t.st i = true)

include h hF htaken hfull in
/-- `IDLE` starts the reload of the line, or the non-cacheable read. -/
theorem loadWaits_idle (hst : t.st.r1.state = .idle) : LoadWaits (step t.st i) f := by
  obtain ⟨hs, hfl, hy, -⟩ := onlyLmiss h.mach hF.opLmiss
  have hplain : (curReq t.st i).plainStore = false := by simp [MemAccessRequest.plainStore, hs]
  have hzero : (curReq t.st i).zeroLine = false := by simp [MemAccessRequest.zeroLine, hs]
  have hstcx : idleStcx t.st (curReq t.st i) = false := by simp [idleStcx, hs]
  have hfail : idleStcxFail t.st (curReq t.st i) = false := by simp [idleStcxFail, hs]
  have hreq : (step t.st i).r1.req = { curReq t.st i with hitReload := true } := by
    rw [step_req, if_pos hst, htaken]
  have hstate : (step t.st i).r1.state =
      if (curReq t.st i).nc then .ncLoadWaitAck else .reloadWaitAck := by
    simp [step_state, hst, idleNext, hfl, hplain, hzero, hstcx, hF.opLmiss]
  constructor
  · simp [step_full, hfull, retires, hst, idleDone, hy, hF.touch, hplain, hfail]
  · rw [hreq]
    refine ⟨hF.opLmiss, hF.firstDw, hF.lastDw, hF.touch, hF.index, ?_⟩
    rw [hstate]
    split_ifs <;> simp
  · intro hst' _
    have hnc : (curReq t.st i).nc = false := by
      by_contra hnc
      simp [hstate, hnc] at hst'
    refine ⟨by rw [step_storeIndex, if_pos hst, hF.index], fun hw => ?_⟩
    simp [step_writeTag, hst, hzero, hF.opLmiss, hnc] at hw

/-- The first half stays in `r1`. -/
theorem firstLoad_stays (hF : FirstLoad s (curReq s i) f) (hst : s.r1.state ≠ .idle)
    (htaken : takenReq s i = curReq s i)
    (hbusy : (step s i).r1.state ≠ .doStcx ∧ (step s i).r1.state ≠ .flushCycle) :
    FirstLoad (step s i) (step s i).r1.req f := by
  rw [step_req, if_neg hst, htaken]
  exact ⟨hF.opLmiss, hF.firstDw, hF.lastDw, hF.touch, hF.index, hbusy⟩

include h hF htaken hfull in
/-- The first half waits for something else than a row of the reload under way. -/
theorem loadNext_other (hst : t.st.r1.state ≠ .idle)
    (hno : t.st.r1.state = .reloadWaitAck → (curReq t.st i).hitReload = false) :
    LoadWaits (step t.st i) f ∨ LoadDone (step t.st i) (t.nextOrigin i) f := by
  obtain ⟨hs, -, -, hop⟩ := onlyLmiss h.mach hF.opLmiss
  have hstate := step_state t.st i
  have hretire := step_full t.st i
  have hreq : (step t.st i).r1.req = curReq t.st i := by rw [step_req, if_neg hst, htaken]
  have hw : (step t.st i).r1.writeTag = false := by simp [step_writeTag, hst]
  cases hcase : t.st.r1.state with
  | idle => exact absurd hcase hst
  | reloadWaitAck =>
      left
      have hwait := hno hcase
      simp only [hcase, hfull, retires, reloadMatch, hwait] at hstate hretire
      refine ⟨by simp [hretire], firstLoad_stays hF hst htaken ?_, fun _ hr => ?_⟩
      · rw [hstate]
        split_ifs <;> simp
      · rw [hreq, hwait] at hr
        exact absurd hr (by decide)
  | storeWaitAck =>
      left
      simp only [hcase, hfull, retires, mergeNow, mergeable, hs] at hstate hretire
      refine ⟨by simp [hretire], firstLoad_stays hF hst htaken ?_, fun hst' _ => ?_⟩
      · rw [hstate]
        split_ifs <;> simp
      · rw [hstate] at hst'
        split_ifs at hst'
  | ncLoadWaitAck =>
      simp only [hcase, hfull, retires, Bool.true_and] at hstate hretire
      cases ha : i.wishboneIn.ack with
      | true =>
          right
          have hw0 : t.st.r1.writeTag = false := by
            by_contra hw0
            have := h.mach.writeTag (by simpa using hw0)
            rw [hcase] at this
            exact absurd this (by decide)
          refine ⟨by simp [hretire, ha], hw, Or.inl ?_⟩
          rw [nextOrigin_of_no_tag hw0, QuadTrace.readOrigin, loadFrom_nc hop hcase ha hF.opLmiss]
          simp [hF.firstDw, hF.lastDw]
      | false =>
          left
          refine ⟨by simp [hretire, ha], firstLoad_stays hF hst htaken ?_, fun hst' _ => ?_⟩
          · simp [hstate, ha]
          · simp [hstate, ha] at hst'
  | doStcx => exact absurd hcase hF.busy.1
  | flushCycle => exact absurd hcase hF.busy.2

include h hF htaken hfull in
/-- The first half waits for a row of the reload under way, whose tag is written. -/
theorem loadNext_row (hst : t.st.r1.state = .reloadWaitAck) (hr : (curReq t.st i).hitReload = true)
    (hix : t.st.r1.storeIndex = getIndex f.addr) (hw : t.st.r1.writeTag = false)
    (hsome : ∃ w, t.st.r1.storeWays w = true)
    (hprev : (step t.st i).r1.prevHitWays = t.st.r1.storeWays) :
    LoadWaits (step t.st i) f ∨ LoadDone (step t.st i) (t.nextOrigin i) f := by
  obtain ⟨hs, -, -, hop⟩ := onlyLmiss h.mach hF.opLmiss
  have hne : t.st.r1.state ≠ .idle := by simp [hst]
  have hw' : (step t.st i).r1.writeTag = false := by simp [step_writeTag, hst]
  cases hrow : (i.wishboneIn.ack && reloadMatch t.st i) with
  | true =>
      right
      have hrow' := hrow
      rw [Bool.and_eq_true] at hrow'
      refine ⟨by simp [step_full, retires, hst, hrow], hw', Or.inr ⟨?_, ?_⟩⟩
      · rw [nextOrigin_of_no_tag hw, QuadTrace.readOrigin,
          loadFrom_row hop hst hrow'.1 hrow'.2 hF.opLmiss]
        simp [hF.firstDw, hF.lastDw, hix, hprev]
      · rw [hprev]
        exact hsome
  | false =>
      left
      have hfull' : (step t.st i).r1.full = true := by simp [step_full, hfull, retires, hst, hrow]
      have hlast := not_reloadLast_of_waiting h.mach hst hfull' hr
      refine ⟨hfull', firstLoad_stays hF hne htaken ?_, fun _ _ => ⟨?_, fun _ => ?_⟩⟩
      · simp [step_state, hst, hlast]
      · rw [step_storeIndex, if_neg hne, hix]
      · rw [step_storeWays_reload hst, hw, hprev]
        exact ⟨rfl, hsome⟩

end FirstStep

/-- A first half that waits goes on to wait, or has its data read. -/
theorem loadNext_waits (h : QuadLoadInv t) (hack : AckIsOwed i t.owed) (hF : LoadWaits t.st f) :
    LoadWaits (step t.st i) f ∨ LoadDone (step t.st i) (t.nextOrigin i) f := by
  have hcur : curReq t.st i = t.st.r1.req := by simp [curReq, hF.full]
  have htaken : takenReq t.st i = curReq t.st i := by simp [hcur, takenReq, hF.full]
  have hfull : takenFull t.st i = true := by simp [takenFull, hF.full]
  have hgo : reqGo t.st i = false := by simp [reqGo, r0Valid, hF.full]
  have hload : FirstLoad t.st (curReq t.st i) f := by
    rw [hcur]
    exact hF.load
  by_cases hst : t.st.r1.state = .idle
  · exact Or.inl (loadWaits_idle h hload htaken hfull hst)
  by_cases hwait : t.st.r1.state = .reloadWaitAck ∧ (curReq t.st i).hitReload = true
  · obtain ⟨hreload, hr⟩ := hwait
    obtain ⟨hix, hways⟩ := hF.reload hreload (by rw [← hcur]; exact hr)
    cases hw : t.st.r1.writeTag with
    | false =>
        obtain ⟨hprev, hsome⟩ := hways hw
        refine loadNext_row h hload htaken hfull hreload hr hix hw hsome ?_
        rw [step_prevHitWays, hgo, hw, hprev]
        simp
    | true =>
        -- the first cycle of the reload: the tag is written and no row arrives
        left
        have hno := noAck_of_writeTag h hack hw
        have hlast : reloadLast t.st i = false := by simp [reloadLast, hno]
        refine ⟨?_, firstLoad_stays hload hst htaken ?_, fun _ _ => ⟨?_, fun _ => ?_⟩⟩
        · simp [step_full, hfull, retires, hreload, hno]
        · simp [step_state, hreload, hlast]
        · rw [step_storeIndex, if_neg hst, hix]
        · rw [step_storeWays_reload hreload, step_prevHitWays, hgo, hw, hlast]
          exact ⟨by simp, replaceWay t.st, by simp⟩
  · refine loadNext_other h hload htaken hfull hst fun hreload => ?_
    rw [not_and, Bool.not_eq_true] at hwait
    exact hwait hreload

/-- The ways that hit are those of the reload that the request waits for. -/
theorem ways_of_hitReload (hone : AtMostOne (reqHitWays s i)) (hstore : AtMostOne s.r1.storeWays)
    (hr : reqHitReload s i = true) :
    reqHitWays s i = s.r1.storeWays ∧ reqIndex s = s.r1.storeIndex ∧ s.r1.reloading = true ∧
      ∃ w, s.r1.storeWays w = true := by
  obtain ⟨hhit, -, hidx⟩ := reqHitWays_of_hitReload hr
  obtain ⟨hreload, hix, -, -, -, hway⟩ := idxReload_eq_true hidx
  refine ⟨?_, hix, hreload, _, hway⟩
  funext w
  rw [Bool.eq_iff_iff]
  constructor
  · intro hw
    rw [hone w _ hw hhit]
    exact hway
  · intro hw
    rw [hstore w _ hw hway]
    exact hhit

/-- The first half of a quadword load as it is looked up. -/
theorem firstLoad_lookup (h : MachInv t.st) (henv : FromLoadstore1 t i)
    (hop : reqOp t.st i = .loadMiss) (hhalf : isFirstHalf t.st.r0.req = true) :
    FirstLoad t.st (r0Request t.st i) t.st.r0.req := by
  have hgo : reqGo t.st i = true := reqGo_of_reqOp (by simp [hop])
  have hstate := state_of_not_full h (not_full_of_reqGo hgo)
  simp only [isFirstHalf, Bool.and_eq_true] at hhalf
  obtain ⟨-, htouch, -, -, -, hlast⟩ := henv.half hgo hhalf.1
  constructor
  · simp [r0Request, hop]
  · simp [r0Request, hhalf]
  · simp [r0Request, hhalf, hlast]
  · simpa [r0Request] using htouch
  · exact getIndex_ra t.st
  · exact hstate.2

/-- The first half of a quadword load hits. -/
theorem loadDone_of_hit (henv : FromLoadstore1 t i) (hund : Undisturbed t i)
    (hhalf : isFirstHalf t.st.r0.req = true) (hload : t.st.r0.req.load = true)
    (hop : reqOp t.st i = .loadHit) :
    LoadDone (step t.st i) (t.nextOrigin i) t.st.r0.req := by
  have hgo : reqGo t.st i = true := reqGo_of_reqOp (by simp [hop])
  have hnot := not_full_of_reqGo hgo
  have hcur := curReq_of_not_full (i := i) hnot
  have hqw : t.st.r0.req.atomicQw = true ∧ t.st.r0.req.atomicFirst = true := by
    simpa [isFirstHalf] using hhalf
  obtain ⟨-, htouch, -, -, -, hlast⟩ := henv.half hgo hqw.1
  have hhit : reqIsHit t.st i = true := reqIsHit_of_loadHit hop
  have hways : (step t.st i).r1.prevHitWays = reqHitWays t.st i := by
    rw [step_prevHitWays]
    split_ifs with hend
    · exact ((hund.reloadEnd hend.1 hend.2).1 hgo hload hhalf hhit).symm
    · rfl
  have hread : t.readOrigin i = .line (reqIndex t.st) (reqHitWays t.st i) := by
    unfold QuadTrace.readOrigin loadFrom
    rw [if_pos (by simp [hop]), hcur]
    simp [r0Request, hqw, hlast]
  have hkept : (t.readOrigin i).overwritten t.st = false := by
    rw [hread, Origin.overwritten]
    by_contra hc
    simp only [Bool.not_eq_false, Bool.and_eq_true, beq_iff_eq] at hc
    have hno := (hund.notReplaced hgo hload hhalf hc.1.1 hc.1.2).1
    rw [hno] at hc
    exact absurd hc.2 (by decide)
  constructor
  · simp [step_full, takenFull, hnot, hgo, reqSlow, hop]
  · simp [step_writeTag, hcur, r0Request, MemAccessRequest.zeroLine, hop]
  · right
    rw [QuadTrace.nextOrigin, hkept, hread, hways]
    exact ⟨rfl, _, (reqHitWays_of_isHit hhit).1⟩

/-- The first half of a quadword load misses, or waits for its row. -/
theorem loadNext_miss (h : QuadLoadInv t) (henv : FromLoadstore1 t i) (hund : Undisturbed t i)
    (hhalf : isFirstHalf t.st.r0.req = true) (hload : t.st.r0.req.load = true)
    (hop : reqOp t.st i = .loadMiss) : LoadWaits (step t.st i) t.st.r0.req ∨
      LoadDone (step t.st i) (t.nextOrigin i) t.st.r0.req := by
  have hgo : reqGo t.st i = true := reqGo_of_reqOp (by simp [hop])
  have hnot := not_full_of_reqGo hgo
  have hcur := curReq_of_not_full (i := i) hnot
  have hqw : t.st.r0.req.atomicQw = true := by
    have := hhalf
    simp only [isFirstHalf, Bool.and_eq_true] at this
    exact this.1
  have hF := firstLoad_lookup h.mach henv hop hhalf
  rw [← hcur] at hF
  have htaken : takenReq t.st i = curReq t.st i := by
    rw [hcur, takenReq, hnot, hgo]
    rfl
  have hfull : takenFull t.st i = true := by simp [takenFull, hnot, hgo, reqSlow, hop]
  have hwait : (curReq t.st i).hitReload = reqHitReload t.st i := by
    simp [hcur, r0Request, hop]
  by_cases hst : t.st.r1.state = .idle
  · exact Or.inl (loadWaits_idle h hF htaken hfull hst)
  cases hr : reqHitReload t.st i with
  | false => exact loadNext_other h hF htaken hfull hst fun _ => hwait.trans hr
  | true =>
      obtain ⟨hone, hstore⟩ := hund.oneWay hgo hload hqw
      obtain ⟨hways, hix, hreloading, hsome⟩ := ways_of_hitReload hone (hstore hr) hr
      have hreload := h.mach.reloading hreloading
      have hw : t.st.r1.writeTag = false := by
        by_contra hw
        have hno := (hund.notReplaced hgo hload hhalf (by simpa using hw) hix).2
        rw [hr] at hno
        exact absurd hno (by decide)
      refine loadNext_row h hF htaken hfull hreload (hwait.trans hr) hix.symm hw hsome ?_
      simp [step_prevHitWays, hgo, hways]

/-- The data of the first half has been read and the second is not looked up. -/
theorem loadDone_quiet (hund : Undisturbed t i) (hf : f ∈ t.first)
    (hload : f.load = true) (hD : LoadDone t.st t.origin f) (hgo : reqGo t.st i = false) :
    LoadDone (step t.st i) (t.nextOrigin i) f := by
  obtain ⟨⟨hl, hs, -, -⟩, -⟩ := curReq_quiet hD.full hgo
  have hop : reqOp t.st i ≠ .loadHit := by simp [reqOp, hgo]
  have hnone : loadFrom t.st i = none := loadFrom_none hop (by simp [hl])
  have hways : (step t.st i).r1.prevHitWays = t.st.r1.prevHitWays := by
    rw [step_prevHitWays, hgo, hD.writeTag]
    split_ifs with hend
    · exact ((hund.reloadEnd hend.1 hend.2).2 f hf hload hD.full hgo).symm
    · contradiction
    · rfl
  constructor
  · simp [step_full, takenFull, hgo, hD.full]
  · simp [step_writeTag, MemAccessRequest.zeroLine, hl, hs]
  · rw [nextOrigin_of_no_tag hD.writeTag, readOrigin_of_none hnone, hways]
    exact hD.origin

theorem loadFirst_step (h : QuadLoadInv t) (henv : FromLoadstore1 t i) (hund : Undisturbed t i)
    (hf : f ∈ (t.step i).first) (hload : f.load = true) :
    LoadWaits (step t.st i) f ∨ LoadDone (step t.st i) (t.nextOrigin i) f := by
  change f ∈ t.nextFirst i at hf
  unfold QuadTrace.nextFirst at hf
  cases hgo : reqGo t.st i with
  | true =>
      rw [hgo, if_pos rfl] at hf
      split_ifs at hf with hhalf
      · simp only [Bool.and_eq_true, bne_iff_ne] at hhalf
        obtain rfl : t.st.r0.req = f := by simpa using hf
        have hqw : t.st.r0.req.atomicQw = true := by
          have := hhalf.1
          simp only [isFirstHalf, Bool.and_eq_true] at this
          exact this.1
        rcases reqOp_of_loadHalf henv hgo hqw hload with hop | hop | hop
        · exact Or.inr (loadDone_of_hit henv hund hhalf.1 hload hop)
        · exact loadNext_miss h henv hund hhalf.1 hload hop
        · exact absurd hop hhalf.2
      · exact absurd hf (by simp)
  | false =>
      rw [hgo, if_neg (by decide)] at hf
      rcases h.first f hf hload with hW | hD
      · exact loadNext_waits h henv.ack hW
      · exact Or.inr (loadDone_quiet hund hf hload hD hgo)

/-! ### The second half -/

theorem load_of_second (henv : FromLoadstore1 t i) (hgo : reqGo t.st i = true)
    (hhalf : isSecondHalf t.st.r0.req = true)
    (hop : reqOp t.st i = .loadHit ∨ reqOp t.st i = .loadMiss) : t.st.r0.req.load = true := by
  simp only [isSecondHalf, Bool.and_eq_true] at hhalf
  by_contra hload
  rcases reqOp_of_half henv hgo hhalf.1 (by simpa using hload) with hop' | hop' <;>
    simp [hop'] at hop

/-- A second half that is looked up belongs to a first half whose data has been
read. -/
theorem first_of_second (h : QuadLoadInv t) (henv : FromLoadstore1 t i)
    (hgo : reqGo t.st i = true) (hhalf : isSecondHalf t.st.r0.req = true)
    (hload : t.st.r0.req.load = true) :
    ∃ f, SecondOf f t.st.r0.req ∧ LoadDone t.st t.origin f := by
  obtain ⟨f, hf⟩ := Option.ne_none_iff_exists'.mp (henv.first hgo hhalf)
  have hsecond := (henv.second hgo f hf).1
  rcases h.first f hf (by rw [← hsecond.2.1, hload]) with hW | hD
  · have hfull := hW.full
    rw [not_full_of_reqGo hgo] at hfull
    exact absurd hfull (by decide)
  · exact ⟨f, hsecond, hD⟩

/-- It is found in the ways that the first half came from. -/
theorem origin_of_second (hund : Undisturbed t i) (hgo : reqGo t.st i = true)
    (hload : t.st.r0.req.load = true) (hsecond : SecondOf f t.st.r0.req)
    (hD : LoadDone t.st t.origin f) : t.origin = .bus ∨
      (t.origin = .line (reqIndex t.st) (reqHitWays t.st i) ∧
        ∃ w, reqHitWays t.st i w = true) := by
  refine hD.origin.imp_right fun ⟨horigin, v, hv⟩ => ?_
  have hhalf := hsecond.1
  simp only [isSecondHalf, Bool.and_eq_true, Bool.not_eq_true'] at hhalf
  have hprev : ∀ w, t.st.r1.prevHitWays w = true → reqHitWays t.st i w = true := by
    intro w hw
    simp [reqHitWays, secondHalf, hload, hhalf, hw]
  have hone := (hund.oneWay hgo hload hhalf.1).1
  have hways : reqHitWays t.st i = t.st.r1.prevHitWays := by
    funext w
    rw [Bool.eq_iff_iff]
    refine ⟨fun hw => ?_, hprev w⟩
    rw [hone w v hw (hprev v hv)]
    exact hv
  have hix : reqIndex t.st = getIndex f.addr := getIndex_secondOf hsecond
  rw [horigin, hways, hix]
  exact ⟨rfl, v, hv⟩

/-- A second half that does not hit waits for a row of that line. -/
theorem reload_of_second (hund : Undisturbed t i) (hgo : reqGo t.st i = true)
    (hload : t.st.r0.req.load = true) (hhalf : isSecondHalf t.st.r0.req = true)
    (hr : reqHitReload t.st i = true) :
    reqHitWays t.st i = t.st.r1.storeWays ∧ reqIndex t.st = t.st.r1.storeIndex ∧
      t.st.r1.reloading = true := by
  simp only [isSecondHalf, Bool.and_eq_true, Bool.not_eq_true'] at hhalf
  obtain ⟨hone, hstore⟩ := hund.oneWay hgo hload hhalf.1
  obtain ⟨hways, hix, hreloading, -⟩ := ways_of_hitReload hone (hstore hr) hr
  exact ⟨hways, hix, hreloading⟩

/-- A second half does not change the origin. -/
theorem readOrigin_of_second (hfirst : (curReq t.st i).firstDw = false) :
    t.readOrigin i = t.origin := by
  unfold QuadTrace.readOrigin
  cases loadFrom t.st i with
  | none => rfl
  | some o => simp [hfirst]

theorem nextOrigin_of_bus (hfirst : (curReq t.st i).firstDw = false) (hbus : t.origin = .bus) :
    t.nextOrigin i = .bus := by
  simp [QuadTrace.nextOrigin, readOrigin_of_second hfirst, hbus, Origin.overwritten]

/-- A second half goes on waiting for its row. -/
theorem secondLoad_step (h : MachInv t.st) (hfull : (step t.st i).r1.full = true)
    (hst : t.st.r1.state = .reloadWaitAck) (hr : (curReq t.st i).hitReload = true)
    (hfirst : (curReq t.st i).firstDw = false) (hw : t.st.r1.writeTag = false)
    (horigin : t.origin = .line t.st.r1.storeIndex t.st.r1.storeWays) :
    SecondLoad (step t.st i) (t.nextOrigin i) := by
  have hne : t.st.r1.state ≠ .idle := by simp [hst]
  have hlast := not_reloadLast_of_waiting h hst hfull hr
  constructor
  · simp [step_state, hst, hlast]
  · rw [step_req, if_neg hne, (curReq_of_full h hfull).2.1]
    exact hr
  · simp [step_writeTag, hst]
  · rw [nextOrigin_of_no_tag hw, readOrigin_of_second hfirst, horigin, step_storeIndex,
      if_neg hne, step_storeWays_reload hst, hw]
    rfl

theorem loadSecond_step (h : QuadLoadInv t) (henv : FromLoadstore1 t i) (hund : Undisturbed t i)
    (hfull : (step t.st i).r1.full = true) (hmiss : (step t.st i).r1.req.opLmiss = true)
    (hfirst : (step t.st i).r1.req.firstDw = false) :
    t.nextOrigin i = .bus ∨ SecondLoad (step t.st i) (t.nextOrigin i) := by
  have hreq : (step t.st i).r1.req.opLmiss = (curReq t.st i).opLmiss ∧
      (step t.st i).r1.req.firstDw = (curReq t.st i).firstDw := by
    rw [step_req, (curReq_of_full h.mach hfull).2.1]
    split_ifs <;> exact ⟨rfl, rfl⟩
  rw [hreq.1] at hmiss
  rw [hreq.2] at hfirst
  rcases taken_of_full hfull with ⟨hf, -, hcur⟩ | ⟨hnot, hgo, -, -, hcur⟩
  · rcases h.second hf (by rw [← hcur, hmiss]) (by rw [← hcur, hfirst]) with hbus | hS
    · exact Or.inl (nextOrigin_of_bus hfirst hbus)
    · exact Or.inr (secondLoad_step h.mach hfull hS.state (by rw [hcur]; exact hS.hitReload)
        hfirst hS.writeTag hS.origin)
  · have hop : reqOp t.st i = .loadMiss := by
      rw [hcur] at hmiss
      simpa [r0Request] using hmiss
    have hhalf : isSecondHalf t.st.r0.req = true := by
      rw [hcur] at hfirst
      simpa [r0Request, isSecondHalf] using hfirst
    have hload := load_of_second henv hgo hhalf (Or.inr hop)
    obtain ⟨f, hsecond, hD⟩ := first_of_second h henv hgo hhalf hload
    rcases origin_of_second hund hgo hload hsecond hD with hbus | ⟨horigin, v, hv⟩
    · exact Or.inl (nextOrigin_of_bus hfirst hbus)
    · -- no hit, but a way that matches: the row is still to come
      have hr : reqHitReload t.st i = true := by
        by_contra hr
        have hno := reqHitWays_eq_false hgo (reqIsHit_of_loadMiss hop) (by simpa using hr) v
        rw [hv] at hno
        exact absurd hno (by decide)
      obtain ⟨hways, hix, hreloading⟩ := reload_of_second hund hgo hload hhalf hr
      have hwait : (curReq t.st i).hitReload = true := by simp [hcur, r0Request, hr, hop]
      refine Or.inr (secondLoad_step h.mach hfull (h.mach.reloading hreloading) hwait hfirst
        hD.writeTag ?_)
      rw [horigin, hways, hix]

theorem tagFree_step (h : QuadLoadInv t) (hw : (step t.st i).r1.writeTag = true) :
    owedNext t.st i t.owed = 0 := by
  have hst : t.st.r1.state = .idle := (writeTag_step h.mach hw).1
  obtain ⟨hcyc, -, howed⟩ := h.bus.closed (Or.inl hst)
  simp [owedNext, strobeTaken, wishboneOut, hcyc, howed]

/-- Every edge preserves the invariant. -/
theorem quadLoadInv_step (henv : FromLoadstore1 t i) (hund : Undisturbed t i)
    (h : QuadLoadInv t) : QuadLoadInv (t.step i) where
  mach := machInv_step i h.mach
  bus := busInv_step h.mach henv.ack h.bus
  tagFree := tagFree_step h
  first := fun _ hf hload => loadFirst_step h henv hund hf hload
  second := loadSecond_step h henv hund

theorem quadLoadInv_init {s : State g} (hs : Quiet s) : QuadLoadInv (.init s) where
  mach := machInv_of_quiet hs
  bus := busInv_of_quiet hs
  tagFree := by simp [QuadTrace.init]
  first := by simp [QuadTrace.init]
  second := by simp [QuadTrace.init, hs.full]

/-! ## Atomicity -/

theorem loadAtomic_of_inv (h : QuadLoadInv t) (henv : FromLoadstore1 t i)
    (hund : Undisturbed t i) : LoadAtomic t i := by
  intro o hfrom hfirst
  cases hgo : reqGo t.st i with
  | true =>
      have hcur := curReq_of_not_full (i := i) (not_full_of_reqGo hgo)
      have hhalf : isSecondHalf t.st.r0.req = true := by
        rw [hcur] at hfirst
        simpa [r0Request, isSecondHalf] using hfirst
      have hop : reqOp t.st i = .loadHit ∨ reqOp t.st i = .loadMiss := by
        rcases loadFrom_cases hfrom with ⟨hhit, -⟩ | ⟨hmiss, -⟩ | ⟨hmiss, -⟩
        · exact Or.inl hhit
        · rw [hcur] at hmiss
          exact Or.inr (by simpa [r0Request] using hmiss)
        · rw [hcur] at hmiss
          exact Or.inr (by simpa [r0Request] using hmiss)
      have hload := load_of_second henv hgo hhalf hop
      obtain ⟨f, hsecond, hD⟩ := first_of_second h henv hgo hhalf hload
      refine (origin_of_second hund hgo hload hsecond hD).imp_right ?_
      rintro ⟨horigin, -⟩
      rcases loadFrom_cases hfrom with ⟨-, ho⟩ | ⟨-, -, hm, ho⟩ | ⟨-, hst, -⟩
      · rw [ho, horigin]
      · have hr : reqHitReload t.st i = true := by
          rw [reloadMatch, hcur] at hm
          simp only [r0Request, Bool.and_eq_true] at hm
          exact hm.1.1
        obtain ⟨hways, hix, -⟩ := reload_of_second hund hgo hload hhalf hr
        rw [ho, horigin, hways, hix]
      · exact absurd hst (state_of_not_full h.mach hD.full).1
  | false =>
      have hop : reqOp t.st i ≠ .loadHit := by simp [reqOp, hgo]
      have hmiss : (curReq t.st i).opLmiss = true := by
        rcases loadFrom_cases hfrom with ⟨hhit, -⟩ | ⟨hmiss, -⟩ | ⟨hmiss, -⟩
        · exact absurd hhit hop
        · exact hmiss
        · exact hmiss
      have hfull : t.st.r1.full = true := by
        by_contra hfull
        have hno := (curReq_quiet (by simpa using hfull) hgo).1.1
        rw [hmiss] at hno
        exact absurd hno (by decide)
      have hcur : curReq t.st i = t.st.r1.req := by simp [curReq, hfull]
      refine (h.second hfull (by rw [← hcur, hmiss]) (by rw [← hcur, hfirst])).imp_right
        fun hS => ?_
      rcases loadFrom_cases hfrom with ⟨hhit, -⟩ | ⟨-, -, -, ho⟩ | ⟨-, hst, -⟩
      · exact absurd hhit hop
      · rw [ho, hS.origin]
      · rw [hS.state] at hst
        exact absurd hst (by decide)

end Step

end Microwatt.Dcache
