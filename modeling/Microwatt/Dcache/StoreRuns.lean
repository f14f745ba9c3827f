import Microwatt.Dcache.Stores

/-!
# Stores over a run

The invariant behind `OpenedAlike`: the writes that are due are those of the open
cycle that the bus has not taken, then those of a store that waits in `r1`; the store
that opened the cycle lies in the page of the bus address and, as long as the dcache
remembers its DTLB entry, no entry has changed since the cycle was opened.
-/

namespace Microwatt.Dcache

variable {g : Geometry}

/-! ## What is due -/

/-- The writes that a store in `r1` calls for. -/
def MemAccessRequest.writes (req : MemAccessRequest g) : List BusWrite :=
  rowWrites g req.byteSel req.data (rowsOf g req.dcbz req.reserve) (addrToWb req.realAddr)

/-- The store in `req` has not been started: a reload marks its own request. -/
def unstarted (s : State g) (req : MemAccessRequest g) : Bool :=
  req.opStore && !(s.r1.state == .reloadWaitAck && req.hitReload)

/-- The writes of the open cycle that the bus has not taken. -/
def pending (s : State g) : List BusWrite :=
  match s.r1.state with
  | .storeWaitAck => if s.r1.wb.stb then [.ofWb s.r1.wb] else []
  | .reloadWaitAck =>
      if s.r1.wb.we then rowWrites g s.r1.wb.sel s.r1.wb.dat (rowsToSend s.r1) s.r1.wb.adr else []
  | _ => []

/-- The writes of the store that waits in `r1`. -/
def waiting (s : State g) : List BusWrite :=
  if s.r1.full && unstarted s s.r1.req then s.r1.req.writes else []

structure StoreInv (t : StoreTrace g) : Prop where
  mach : MachInv t.st
  bus : BusInv t.st t.owed
  empty : t.staged = none → t.st.r0Full = true → t.st.r0.req.load = true
  holds : ∀ p, t.staged = some p → Holds t.st p
  writing : t.st.r1.state = .storeWaitAck ∨ t.st.r1.state = .doStcx → t.st.r1.wb.we = true
  reading : t.st.r1.state = .ncLoadWaitAck → t.st.r1.wb.we = false
  noStore : t.st.r1.state = .ncLoadWaitAck ∨ t.st.r1.state = .flushCycle →
    t.st.r1.req.opStore = false
  stcx : t.st.r1.state = .doStcx →
    t.st.r1.req.opStore = true ∧ t.st.r1.req.writes = [.ofWb t.st.r1.wb]
  due : t.due = pending t.st ++ waiting t.st
  /-- The DTLB entry of a virtual-mode store that waits in `r1`. -/
  entry : t.st.r1.full = true → t.st.r1.req.opStore = true → ∃ q ∈ t.last,
    q.req.virtMode = true → q.UsesEntry t.st.r1.req.tlbIndex t.st.r1.req.tlbWay
      (addrToWb t.st.r1.req.realAddr)
  /-- A store that waits in `r1` to be added to the open cycle goes to its page, or has
  found the remembered entry. -/
  page : t.st.r1.full = true → t.st.r1.state = .storeWaitAck → t.st.r1.req.opStore = true →
    t.st.r1.req.samePage = true → ∃ q ∈ t.last,
      (q.req.virtMode = false →
        SamePage g t.st.r1.wb.adr (addrToWb t.st.r1.req.realAddr)) ∧
      (q.req.virtMode = true → t.st.r1.req.tlbIndex = t.st.r1.tlbAccIndex ∧
        t.st.r1.req.tlbWay = t.st.r1.tlbAccWay ∧
        (q.early = false → SameDtlb q.dtlb t.openTlb))
  /-- The bus address is in the page of the store that opened the cycle, which used the
  remembered entry. -/
  opened : t.st.r1.state = .storeWaitAck ∨ t.st.r1.state = .doStcx → ∃ o ∈ t.opener,
    o.req.virtMode = true → o.UsesEntry t.st.r1.tlbAccIndex t.st.r1.tlbAccWay t.st.r1.wb.adr
  /-- The entry is remembered as long as the DTLB stays as it was when the cycle was
  opened. -/
  remembered : t.st.r1.state = .storeWaitAck ∨ t.st.r1.state = .doStcx →
    t.st.r1.lsTlbHit = true → SameDtlb t.st.tlb t.openTlb ∧
      ∀ q ∈ t.staged, q.early = false → SameDtlb q.dtlb t.openTlb

/-- The bus shows no write but the first one that is due. -/
def StrobeIsDue (t : StoreTrace g) : Prop :=
  (wishboneOut t.st).cyc = true → (wishboneOut t.st).stb = true → (wishboneOut t.st).we = true →
    t.due.head? = some (.ofWb (wishboneOut t.st))

/-- When no cycle is open and a request can come in, no write is due. -/
def NoneLost (t : StoreTrace g) : Prop :=
  (wishboneOut t.st).cyc = false → stallOut t.st = false → t.due = []

instance (t : StoreTrace g) : Decidable (StrobeIsDue t) :=
  inferInstanceAs (Decidable (_ → _ → _ → _))

/-! ## Lists of writes -/

/-- A store that is not a dcbz on its own calls for one write. -/
theorem writes_of_not_zeroLine {req : MemAccessRequest g} (hs : req.opStore = true)
    (hz : req.zeroLine = false) :
    req.writes = [⟨addrToWb req.realAddr, req.byteSel, req.data⟩] := by
  have hrows : rowsOf g req.dcbz req.reserve = 1 := by
    simp only [MemAccessRequest.zeroLine, hs, Bool.true_and] at hz
    rw [rowsOf, Bool.and_comm, hz]
    rfl
  rw [MemAccessRequest.writes, hrows]
  rfl

/-- The request that is formed from `r0` calls for the writes of the store that was
accepted. -/
theorem writes_r0Request {s : State g} {i : Input} {p : Staged g} (h : Holds s p)
    (hop : reqOp s i = .store) :
    (r0Request s i).writes = writesOf p.dtlb p.req (p.dataNow i) := by
  have hdata : p.dataNow i = if s.r0.dValid then s.r0.req.data else i.dIn.data := by
    rw [Staged.dataNow, h.data]
    cases s.r0.dValid <;> rfl
  unfold MemAccessRequest.writes writesOf r0Request
  rw [h.addrToWb_ra, h.dcbz, h.reserve, h.byteSel, load_of_store hop, hdata]
  simp

/-- A dcbz starts with all the rows of its line. -/
theorem rowsToSend_first {r : SlowRegs g} (hstb : r.wb.stb = true)
    (hend : r.endRowIx = wbRow r - 1) : rowsToSend r = 2 ^ g.rowLinebits := by
  have hneg : r.endRowIx - wbRow r = BitVec.allOnes _ := by
    rw [hend, ← BitVec.neg_one_eq_allOnes]
    grind
  have hpos : 0 < 2 ^ g.rowLinebits := by positivity
  rw [rowsToSend, if_pos hstb, rowsAfter, hneg, BitVec.toNat_allOnes]
  omega

/-! ## What the state machine finds -/

section Step

variable {t : StoreTrace g} {i : Input}

/-- A store that is looked up is a request of loadstore1. -/
theorem staged_of_store (h : StoreInv t) (hop : reqOp t.st i = .store) :
    ∃ p, t.staged = some p ∧ Holds t.st p := by
  cases hp : t.staged with
  | some p => exact ⟨p, rfl, h.holds p hp⟩
  | none =>
      have hgo : reqGo t.st i = true := reqGo_of_reqOp (by simp [hop])
      have hfull : t.st.r0Full = true := by
        simp only [reqGo, r0Valid, Bool.and_eq_true] at hgo
        exact hgo.1.1.1
      have hload := h.empty hp hfull
      rw [load_of_store hop] at hload
      exact absurd hload (by decide)

/-- Nothing is looked up while a request waits in `r1`. -/
theorem reqOp_of_full {s : State g} (hf : s.r1.full = true) : reqOp s i = .none := by
  by_contra hop
  have hgo := reqGo_of_reqOp hop
  simp [reqGo, r0Valid, hf] at hgo

/-- The store that the state machine finds waits in `r1`, or is being looked up. -/
theorem curReq_store (h : StoreInv t) (hs : (curReq t.st i).opStore = true) :
    takenFull t.st i = true ∧ takenReq t.st i = curReq t.st i ∧
      ((t.st.r1.full = true ∧ curReq t.st i = t.st.r1.req ∧ t.nextLast i = t.last) ∨
        ∃ p, Holds t.st p ∧ reqOp t.st i = .store ∧ t.st.r1.full = false ∧
          curReq t.st i = r0Request t.st i ∧ t.lookedUp i = some p ∧ t.staged = some p ∧
          t.nextLast i = some p) := by
  cases hf : t.st.r1.full with
  | true =>
      have hlook : t.lookedUp i = none := by simp [StoreTrace.lookedUp, reqOp_of_full hf]
      exact ⟨by simp [takenFull, hf], by simp [takenReq, curReq, hf],
        Or.inl ⟨rfl, by simp [curReq, hf], by simp [StoreTrace.nextLast, hlook]⟩⟩
  | false =>
      have hcur : curReq t.st i = r0Request t.st i := by simp [curReq, hf]
      have hop : reqOp t.st i = .store := by
        rw [hcur] at hs
        simpa [r0Request] using hs
      have hgo : reqGo t.st i = true := reqGo_of_reqOp (by simp [hop])
      obtain ⟨p, hp, hold⟩ := staged_of_store h hop
      have hlook : t.lookedUp i = some p := by simp [StoreTrace.lookedUp, hop, hp]
      exact ⟨by simp [takenFull, hf, hgo, reqSlow, hop], by simp [takenReq, hf, hgo, hcur],
        Or.inr ⟨p, hold, hop, rfl, hcur, hlook, hp, by simp [StoreTrace.nextLast, hlook]⟩⟩

/-- The writes of the store that the state machine finds. -/
def takenWrites (s : State g) (i : Input) : List BusWrite :=
  if takenFull s i && unstarted s (curReq s i) then (curReq s i).writes else []

/-- The writes of the open cycle once the bus has taken the strobe. -/
def popped (s : State g) (i : Input) : List BusWrite :=
  if strobeTaken s i && (wishboneOut s).we then (pending s).tail else pending s

theorem waiting_append_newWrites (h : StoreInv t) (i : Input) :
    waiting t.st ++ t.newWrites i = takenWrites t.st i := by
  unfold takenWrites StoreTrace.newWrites
  cases hs : (curReq t.st i).opStore with
  | true =>
      obtain ⟨htaken, -, ⟨hf, hcur, hlast⟩ | ⟨p, hold, hop, hf, hcur, hlook, -, -⟩⟩ :=
        curReq_store h hs
      · have hlook : t.lookedUp i = none := by simp [StoreTrace.lookedUp, reqOp_of_full hf]
        simp [waiting, hf, htaken, hcur, hlook]
      · have hun : unstarted t.st (curReq t.st i) = true := by
          simp [unstarted, hcur, r0Request, hop]
        rw [htaken, hun, hlook, hcur, waiting, hf]
        simp [writes_r0Request hold hop]
  | false =>
      have hop : reqOp t.st i ≠ .store := by
        intro hop
        have hf : t.st.r1.full = false := by
          by_contra hf
          rw [reqOp_of_full (by simpa using hf)] at hop
          exact absurd hop (by decide)
        simp [curReq, hf, r0Request, hop] at hs
      have hwait : waiting t.st = [] := by
        unfold waiting
        cases hf : t.st.r1.full with
        | false => simp
        | true =>
            rw [curReq, if_pos hf] at hs
            simp [unstarted, hs]
      simp [StoreTrace.lookedUp, hop, unstarted, hs, hwait]

/-- A write strobe on the bus is the first write of the open cycle. -/
theorem pending_of_strobe (h : StoreInv t) (hstb : t.st.r1.wb.stb = true)
    (hwe : t.st.r1.wb.we = true) : ∃ l, pending t.st = BusWrite.ofWb t.st.r1.wb :: l := by
  unfold pending
  cases hst : t.st.r1.state with
  | idle =>
      rw [(h.bus.closed (Or.inl hst)).2.1] at hstb
      exact absurd hstb (by decide)
  | flushCycle =>
      rw [(h.bus.closed (Or.inr hst)).2.1] at hstb
      exact absurd hstb (by decide)
  | doStcx =>
      rw [(h.bus.stcx hst).2.1] at hstb
      exact absurd hstb (by decide)
  | ncLoadWaitAck =>
      rw [h.reading hst] at hwe
      exact absurd hwe (by decide)
  | storeWaitAck => exact ⟨[], by simp [hstb]⟩
  | reloadWaitAck =>
      simp only [hwe, if_true, rowsToSend, hstb]
      exact ⟨_, rfl⟩

/-- A store-conditional that is not performed is reported at once. -/
theorem reported (s : State g) (i : Input) :
    ((Dcache.step s i).r1.lsValid && (Dcache.step s i).r1.stcxFail) =
      (Dcache.step s i).r1.stcxFail := by
  rw [step_lsValid, step_stcxFail, retiresLs]
  cases s.r1.state with
  | idle => cases idleStcxFail s (curReq s i) <;> simp
  | doStcx => cases stcxLost s <;> simp
  | _ => simp

theorem nextDue_eq (h : StoreInv t) (i : Input) : t.nextDue i =
    if (Dcache.step t.st i).r1.stcxFail then (popped t.st i ++ takenWrites t.st i).dropLast
    else popped t.st i ++ takenWrites t.st i := by
  have hpop : (if strobeTaken t.st i && (wishboneOut t.st).we then t.due.tail else t.due) =
      popped t.st i ++ waiting t.st := by
    rw [h.due, popped]
    cases htaken : strobeTaken t.st i && (wishboneOut t.st).we with
    | false => simp
    | true =>
        simp only [strobeTaken, wishboneOut, Bool.and_eq_true] at htaken
        obtain ⟨l, hl⟩ := pending_of_strobe h htaken.1.1.2 htaken.2
        simp [hl]
  have hnew := waiting_append_newWrites h i
  unfold StoreTrace.nextDue
  simp only [dOut, Bool.not_not, reported]
  rw [hpop, List.append_assoc, hnew]

/-! ### The writes after an edge, state by state -/

/-- What `popped` and `takenWrites` come to after the edge. -/
def Settles (s : State g) (i : Input) : Prop :=
  (if (Dcache.step s i).r1.stcxFail then (popped s i ++ takenWrites s i).dropLast
    else popped s i ++ takenWrites s i) =
      pending (Dcache.step s i) ++ waiting (Dcache.step s i)

theorem waiting_of_not_full {s : State g} (hf : s.r1.full = false) : waiting s = [] := by
  simp [waiting, hf]

theorem waiting_of_no_store {s : State g} (hs : s.r1.req.opStore = false) : waiting s = [] := by
  simp [waiting, unstarted, hs]

/-- The request that stays in `r1` is the one that the state machine has looked at. -/
theorem req_step {s : State g} (h : MachInv s) (hf : (Dcache.step s i).r1.full = true) :
    (Dcache.step s i).r1.req =
      if s.r1.state = .idle then { curReq s i with hitReload := true } else curReq s i := by
  rw [step_req, (curReq_of_full h hf).2.1]

theorem waiting_of_no_curStore {s : State g} (h : MachInv s) (hs : (curReq s i).opStore = false) :
    waiting (Dcache.step s i) = [] := by
  cases hf : (Dcache.step s i).r1.full with
  | false => exact waiting_of_not_full hf
  | true =>
      refine waiting_of_no_store ?_
      rw [req_step h hf]
      split_ifs <;> exact hs

/-- In `IDLE` nothing is in progress: what is found there is what is written afterwards. -/
theorem settles_of_idle (h : StoreInv t) (hst : t.st.r1.state = .idle)
    (heq : (if idleStcxFail t.st (curReq t.st i) then
        (if (curReq t.st i).opStore then (curReq t.st i).writes else []).dropLast
      else if (curReq t.st i).opStore then (curReq t.st i).writes else []) =
        pending (Dcache.step t.st i) ++ waiting (Dcache.step t.st i)) : Settles t.st i := by
  have hpop : popped t.st i = [] := by simp [popped, pending, hst]
  have htake : takenWrites t.st i =
      if (curReq t.st i).opStore then (curReq t.st i).writes else [] := by
    rw [takenWrites, show unstarted t.st (curReq t.st i) = (curReq t.st i).opStore by
      simp [unstarted, hst]]
    cases hstore : (curReq t.st i).opStore with
    | false => simp
    | true => simp [(curReq_store h hstore).1]
  have hfail := step_stcxFail t.st i
  simp only [hst] at hfail
  rw [Settles, hpop, htake, hfail, List.nil_append]
  exact heq

/-- A request that is no store adds nothing. -/
theorem settles_noStore (h : StoreInv t) (hst : t.st.r1.state = .idle)
    (hstore : (curReq t.st i).opStore = false) (hpend : pending (Dcache.step t.st i) = []) :
    Settles t.st i := by
  apply settles_of_idle h hst
  simp [hpend, hstore, idleStcxFail, waiting_of_no_curStore h.mach hstore]

/-- A store that opens no cycle is a store-conditional that fails. -/
theorem settles_stcxFails (h : StoreInv t) (hst : t.st.r1.state = .idle)
    (hstore : (curReq t.st i).opStore = true) (hp : (curReq t.st i).plainStore = false)
    (hz : (curReq t.st i).zeroLine = false) (hx : idleStcx t.st (curReq t.st i) = false)
    (hpend : pending (Dcache.step t.st i) = []) : Settles t.st i := by
  have hfail : idleStcxFail t.st (curReq t.st i) = true := by
    simp only [idleStcx, MemAccessRequest.plainStore, MemAccessRequest.zeroLine, hstore,
      Bool.true_and] at hp hz hx
    unfold idleStcxFail
    rw [hstore]
    generalize (!t.st.r1.reservation.valid || killRsrv t.st) = lost at *
    cases hr : (curReq t.st i).reserve <;> cases lost <;> simp_all
  have hfull : (Dcache.step t.st i).r1.full = false := by
    simp [step_full, retires, hst, idleDone, hfail]
  apply settles_of_idle h hst
  simp [hpend, hfail, hstore, waiting_of_not_full hfull, writes_of_not_zeroLine hstore hz]

/-- A plain store opens a cycle with its own strobe. -/
theorem settles_plainStore (h : StoreInv t) (hst : t.st.r1.state = .idle)
    (hp : (curReq t.st i).plainStore = true) (hz : (curReq t.st i).zeroLine = false)
    (hnext : (Dcache.step t.st i).r1.state = .storeWaitAck) : Settles t.st i := by
  have hfull : (Dcache.step t.st i).r1.full = false := by
    simp [step_full, retires, hst, idleDone, hp]
  have hstb : (Dcache.step t.st i).r1.wb.stb = true := by simp [step_stb, hst, hp]
  simp only [MemAccessRequest.plainStore, Bool.and_eq_true, Bool.not_eq_true'] at hp
  have hstore : (curReq t.st i).opStore = true := hp.1.1
  have hno : idleStcxFail t.st (curReq t.st i) = false := by simp [idleStcxFail, hp]
  apply settles_of_idle h hst
  simp [pending, hnext, hstb, hno, hstore, waiting_of_not_full hfull,
    writes_of_not_zeroLine hstore hz, BusWrite.ofWb, step_adr, step_sel, step_dat, hst]

/-- A dcbz opens a cycle with the rows of its line to come. -/
theorem settles_zeroLine (h : StoreInv t) (hst : t.st.r1.state = .idle)
    (hz : (curReq t.st i).zeroLine = true)
    (hnext : (Dcache.step t.st i).r1.state = .reloadWaitAck) : Settles t.st i := by
  have hstb : (Dcache.step t.st i).r1.wb.stb = true := by simp [step_stb, hst, hz]
  have hwe : (Dcache.step t.st i).r1.wb.we = true := by simp [step_we, hst, hz]
  have hrows : rowsToSend (Dcache.step t.st i).r1 = 2 ^ g.rowLinebits := by
    refine rowsToSend_first hstb ?_
    rw [step_endRowIx, hst, if_pos rfl, wbRow, step_adr, hst]
    simp only [wbRow_addrToWb]
  have hwait : waiting (Dcache.step t.st i) = [] := by
    unfold waiting unstarted
    rw [hnext, step_req, hst, if_pos rfl]
    simp
  simp only [MemAccessRequest.zeroLine, Bool.and_eq_true, Bool.not_eq_true'] at hz
  have hno : idleStcxFail t.st (curReq t.st i) = false := by simp [idleStcxFail, hz]
  apply settles_of_idle h hst
  simp [pending, hnext, hwe, hrows, hno, hz, hwait, MemAccessRequest.writes, rowsOf, step_adr,
    step_sel, step_dat, hst]

/-- A store-conditional that has its reservation goes on to `DO_STCX`. -/
theorem settles_stcxStarts (h : StoreInv t) (hst : t.st.r1.state = .idle)
    (hx : idleStcx t.st (curReq t.st i) = true)
    (hnext : (Dcache.step t.st i).r1.state = .doStcx) : Settles t.st i := by
  simp only [idleStcx, Bool.and_eq_true, Bool.not_eq_true'] at hx
  have hstore : (curReq t.st i).opStore = true := hx.1.1
  have hno : idleStcxFail t.st (curReq t.st i) = false := by simp [idleStcxFail, hx]
  have hfull : (Dcache.step t.st i).r1.full = true :=
    (machInv_step i h.mach).busy (Or.inr (Or.inl hnext))
  have hreq := req_step h.mach hfull
  rw [if_pos hst] at hreq
  have hwait : waiting (Dcache.step t.st i) = (curReq t.st i).writes := by
    unfold waiting unstarted
    rw [hfull, hnext, hreq]
    simp [hstore, MemAccessRequest.writes]
  apply settles_of_idle h hst
  simp [pending, hnext, hno, hstore, hwait]

theorem settles_idle (h : StoreInv t) (hst : t.st.r1.state = .idle) : Settles t.st i := by
  obtain ⟨op, hop⟩ := exists_hasOp_curReq h.mach i
  have hnotStore : (curReq t.st i).opLmiss = true → (curReq t.st i).opStore = false := by
    rw [hop.1, hop.2.1]
    cases op <;> decide
  have hstate : (Dcache.step t.st i).r1.state = idleNext t.st (curReq t.st i) := by
    rw [step_state, hst]
  rcases idleNext_cases (s := t.st) hop with ⟨hnext, hp, hz, hx, -⟩ | ⟨hnext, hp, hz, -, -⟩ |
    ⟨hnext, hp, hx, hzl⟩ | ⟨hnext, -, -, -, hm, -⟩ | ⟨hnext, -, -, hx, -⟩
  · have hpend : pending (Dcache.step t.st i) = [] := by
      unfold pending
      rw [hstate]
      rcases hnext with hnext | hnext <;> rw [hnext]
    cases hstore : (curReq t.st i).opStore with
    | false => exact settles_noStore h hst hstore hpend
    | true => exact settles_stcxFails h hst hstore hp hz hx hpend
  · exact settles_plainStore h hst hp hz (hstate.trans hnext)
  · rcases hzl with ⟨hz, -⟩ | ⟨hz, hm, -⟩
    · exact settles_zeroLine h hst hz (hstate.trans hnext)
    · have hwe : (Dcache.step t.st i).r1.wb.we = false := by
        simp [step_we, hst, hm, hp, hz, hx]
      exact settles_noStore h hst (hnotStore hm) (by simp [pending, hstate, hnext, hwe])
  · exact settles_noStore h hst (hnotStore hm) (by simp [pending, hstate, hnext])
  · exact settles_stcxStarts h hst hx (hstate.trans hnext)

/-- During a reload a store goes on waiting, and the request that is served is done with
by its end. -/
theorem waiting_step_reload (h : StoreInv t) (hst : t.st.r1.state = .reloadWaitAck) :
    waiting (Dcache.step t.st i) = takenWrites t.st i := by
  have hstate := step_state t.st i
  have hfull := step_full t.st i
  simp only [hst, retires] at hstate hfull
  cases hstore : (curReq t.st i).opStore with
  | false =>
      rw [waiting_of_no_curStore h.mach hstore]
      simp [takenWrites, unstarted, hstore]
  | true =>
      have htaken := (curReq_store h hstore).1
      cases hr : (curReq t.st i).hitReload with
      | false =>
          have hful : (Dcache.step t.st i).r1.full = true := by
            simp [hfull, htaken, reloadMatch, hr]
          have hreq := req_step h.mach hful
          rw [hst, if_neg (by decide)] at hreq
          unfold waiting takenWrites unstarted
          rw [hful, htaken, hreq, hr]
          simp [hstore]
      | true =>
          have hnone : takenWrites t.st i = [] := by simp [takenWrites, unstarted, hst, hr]
          rw [hnone]
          cases hful : (Dcache.step t.st i).r1.full with
          | false => exact waiting_of_not_full hful
          | true =>
              have hstay := not_reloadLast_of_waiting h.mach hst hful hr
              have hreq := req_step h.mach hful
              rw [hst, if_neg (by decide)] at hreq
              unfold waiting unstarted
              rw [hstate, hstay, hreq, hr]
              simp

/-- The rows of a dcbz go out one after the other, all before the last one is acked. -/
theorem pending_step_reload (h : StoreInv t) (hack : AckIsOwed i t.owed)
    (hst : t.st.r1.state = .reloadWaitAck) :
    pending (Dcache.step t.st i) = popped t.st i := by
  obtain ⟨hcyc, hrows⟩ := h.bus.reload hst
  have hsend := rowsToSend_step (i := i) hst hcyc
  have hstate := step_state t.st i
  simp only [hst] at hstate
  have hold : pending t.st =
      if t.st.r1.wb.we then
        rowWrites g t.st.r1.wb.sel t.st.r1.wb.dat (rowsToSend t.st.r1) t.st.r1.wb.adr
      else [] := by
    simp [pending, hst]
  cases hlast : reloadLast t.st i with
  | true =>
      -- the last row is owed, so none is left to be asked for
      have hlast' := hlast
      simp only [reloadLast, Bool.and_eq_true, isLastRow, getRowOfLine, beq_iff_eq] at hlast'
      have hcome : rowsToCome t.st.r1 = 1 := by simp [rowsToCome, rowsAfter, hlast'.2]
      have hpos := hack hlast'.1
      have hnone : rowsToSend t.st.r1 = 0 := by omega
      have hnil : pending t.st = [] := by
        rw [hold, hnone]
        split_ifs <;> rfl
      have hend : pending (Dcache.step t.st i) = [] := by simp [pending, hstate, hlast]
      rw [popped, hnil, hend]
      split_ifs <;> rfl
  | false =>
      have hnew : pending (Dcache.step t.st i) =
          if t.st.r1.wb.we then
            rowWrites g t.st.r1.wb.sel t.st.r1.wb.dat (rowsToSend (Dcache.step t.st i).r1)
              (Dcache.step t.st i).r1.wb.adr
          else [] := by
        simp [pending, hstate, hlast, step_we, step_sel, step_dat, hst]
      have hadr : (Dcache.step t.st i).r1.wb.adr =
          if strobeTaken t.st i then nextRowWbAddr g t.st.r1.wb.adr else t.st.r1.wb.adr := by
        simp only [step_adr, hst, strobeTaken, wishboneOut, hcyc, Bool.true_and, Bool.and_comm]
      rw [popped, hold, hnew, hadr]
      cases hwe : t.st.r1.wb.we with
      | false => simp
      | true =>
          cases htaken : strobeTaken t.st i with
          | false =>
              rw [htaken] at hsend
              simp only [Bool.toNat_false, Nat.add_zero] at hsend
              simp [hsend]
          | true =>
              rw [htaken] at hsend
              simp only [Bool.toNat_true] at hsend
              rw [← hsend]
              simp [wishboneOut, hwe, rowWrites]

theorem settles_reload (h : StoreInv t) (hack : AckIsOwed i t.owed)
    (hst : t.st.r1.state = .reloadWaitAck) : Settles t.st i := by
  have hfail : (Dcache.step t.st i).r1.stcxFail = false := by simp [step_stcxFail, hst]
  rw [Settles, hfail, waiting_step_reload h hst, pending_step_reload h hack hst]
  rfl

/-! `STORE_WAIT_ACK` adds a store to the cycle or leaves it waiting. -/

/-- The cycle is closed when no strobe is on the bus that the bus has not taken. -/
theorem storeExit_imp {s : State g} (h : storeExit s i = true) :
    mergeNow s i = false ∧ (s.r1.wb.stb && i.wishboneIn.stall) = false := by
  simp only [storeExit, stbsDone, Bool.and_eq_true] at h
  unfold mergeNow
  have hdone := h.1.1
  cases hstall : i.wishboneIn.stall with
  | true => simpa [hstall] using hdone
  | false =>
      by_cases hm : mergeable s (curReq s i) = true <;>
        by_cases ha : acksNow s < 7#3 <;> simp_all

theorem stb_step_wait {s : State g} (hst : s.r1.state = .storeWaitAck) :
    (Dcache.step s i).r1.wb.stb = (mergeNow s i || (s.r1.wb.stb && i.wishboneIn.stall)) := by
  simp only [step_stb, hst]
  by_cases hexit : storeExit s i = true
  · simp [hexit, storeExit_imp hexit]
  · have hno : storeExit s i = false := by simpa using hexit
    cases hstall : i.wishboneIn.stall <;> simp [hno, mergeNow, hstall]

/-- The bus address stays in the page of the cycle. -/
theorem samePage_step {s : State g} (hst : s.r1.state = .storeWaitAck) :
    SamePage g (Dcache.step s i).r1.wb.adr s.r1.wb.adr := by
  simp only [step_adr, hst]
  split_ifs
  · exact samePage_setLowBits _ _
  · exact fun k _ => rfl

/-- What `mergeable` says about the store that is added. -/
theorem mergeNow_says (hm : mergeNow t.st i = true) :
    i.wishboneIn.stall = false ∧ (curReq t.st i).opStore = true ∧
      (curReq t.st i).samePage = true ∧ (curReq t.st i).dcbz = false := by
  simp only [mergeNow, mergeable, Bool.and_eq_true, Bool.not_eq_true'] at hm
  exact ⟨hm.1.1, hm.1.2.1.1.1, hm.1.2.1.1.2, hm.1.2.1.2⟩

/-- The DTLB entry of a virtual-mode store in the state machine. -/
theorem entry_curReq (h : StoreInv t) (hs : (curReq t.st i).opStore = true) :
    ∃ q ∈ t.nextLast i, q.req.virtMode = true →
      q.UsesEntry (curReq t.st i).tlbIndex (curReq t.st i).tlbWay
        (addrToWb (curReq t.st i).realAddr) := by
  obtain ⟨-, -, ⟨hf, hcur, hlast⟩ | ⟨p, hold, hop, -, hcur, -, -, hlast⟩⟩ := curReq_store h hs
  · rw [hcur] at hs
    rw [hcur, hlast]
    exact h.entry hf hs
  · rw [hcur, hlast]
    exact ⟨p, rfl, hold.usesEntry hop⟩

/-- A store that may be added to the open cycle goes to its page, or has found the
remembered entry. -/
theorem page_curReq (h : StoreInv t) (hst : t.st.r1.state = .storeWaitAck)
    (hs : (curReq t.st i).opStore = true) (hpage : (curReq t.st i).samePage = true) :
    ∃ q ∈ t.nextLast i,
      (q.req.virtMode = false →
        SamePage g t.st.r1.wb.adr (addrToWb (curReq t.st i).realAddr)) ∧
      (q.req.virtMode = true → (curReq t.st i).tlbIndex = t.st.r1.tlbAccIndex ∧
        (curReq t.st i).tlbWay = t.st.r1.tlbAccWay ∧
        (q.early = false → SameDtlb q.dtlb t.openTlb)) := by
  obtain ⟨-, -, ⟨hf, hcur, hlast⟩ | ⟨p, hold, -, -, hcur, -, hstaged, hlast⟩⟩ := curReq_store h hs
  · rw [hcur] at hs hpage
    rw [hcur, hlast]
    exact h.page hf hst hs hpage
  · have hsame : reqSamePage t.st = true := by
      rw [hcur] at hpage
      exact hpage
    rw [hcur, hlast]
    refine ⟨p, rfl, fun hv => hold.samePage_of_real hv hsame, fun hv => ?_⟩
    obtain ⟨htlb, hix, hway⟩ := hold.remembered_of_virt hv hsame
    exact ⟨hix, hway, (h.remembered (Or.inl hst) htlb).2 p hstaged⟩

/-- A store that is added to the open cycle goes to its page. -/
theorem samePage_of_mergeNow (h : StoreInv t) (hok : OpenedAlike t i)
    (hst : t.st.r1.state = .storeWaitAck) (hm : mergeNow t.st i = true) :
    SamePage g t.st.r1.wb.adr (addrToWb (curReq t.st i).realAddr) := by
  obtain ⟨-, hs, hpage, -⟩ := mergeNow_says hm
  obtain ⟨q, hq, hreal, hvirt⟩ := page_curReq h hst hs hpage
  obtain ⟨q', hq', hentry⟩ := entry_curReq h hs
  obtain rfl : q = q' := Option.mem_unique hq hq'
  cases hv : q.req.virtMode with
  | false => exact hreal hv
  | true =>
      obtain ⟨hix, hway, hlate⟩ := hvirt hv
      obtain ⟨o, ho, hov, hkept⟩ := hok hst hm q hq hv
      obtain ⟨o', ho', hopen⟩ := h.opened (Or.inl hst)
      obtain rfl : o = o' := Option.mem_unique ho ho'
      have huse := hentry hv
      rw [hix, hway] at huse
      refine samePage_of_usesEntry huse (hopen hov) hv hov hkept ?_
      cases hearly : q.early with
      | true => exact SameDtlb.refl _
      | false => exact hlate hearly

/-- The strobe of a store that is added to the cycle is its own. -/
theorem ofWb_of_mergeNow (h : StoreInv t) (hok : OpenedAlike t i)
    (hst : t.st.r1.state = .storeWaitAck) (hm : mergeNow t.st i = true) :
    (curReq t.st i).writes = [.ofWb (Dcache.step t.st i).r1.wb] := by
  obtain ⟨hstall, hs, -, hdcbz⟩ := mergeNow_says hm
  have hz : (curReq t.st i).zeroLine = false := by simp [MemAccessRequest.zeroLine, hdcbz]
  have hvalid : (curReq t.st i).valid = true := by
    obtain ⟨-, -, ⟨hf, hcur, -⟩ | ⟨p, -, hop, -, hcur, -⟩⟩ := curReq_store h hs
    · rw [hcur]
      exact h.mach.valid hf
    · rw [hcur]
      exact reqGo_of_reqOp (by simp [hop])
  have hadr := setLowBits_eq_of_samePage (samePage_of_mergeNow h hok hst hm)
  rw [writes_of_not_zeroLine hs hz]
  simp only [BusWrite.ofWb, step_adr, step_sel, step_dat, hst, hstall, hvalid, Bool.not_false,
    Bool.and_self, if_true, hadr]

theorem settles_store (h : StoreInv t) (hok : OpenedAlike t i)
    (hst : t.st.r1.state = .storeWaitAck) : Settles t.st i := by
  obtain ⟨hcyc, -⟩ := h.bus.store hst
  have hwe := h.writing (Or.inl hst)
  have hfail : (Dcache.step t.st i).r1.stcxFail = false := by simp [step_stcxFail, hst]
  have hfull := step_full t.st i
  have hstate := step_state t.st i
  simp only [hst, retires] at hfull hstate
  have hpop : popped t.st i =
      if t.st.r1.wb.stb && i.wishboneIn.stall then [.ofWb t.st.r1.wb] else [] := by
    simp only [popped, pending, hst, strobeTaken, wishboneOut, hcyc, hwe, Bool.true_and,
      Bool.and_true]
    cases t.st.r1.wb.stb <;> cases i.wishboneIn.stall <;> rfl
  rw [Settles, hfail, hpop, if_neg (by decide)]
  cases hm : mergeNow t.st i with
  | true =>
      obtain ⟨hstall, hs, -, -⟩ := mergeNow_says hm
      have hno : (Dcache.step t.st i).r1.full = false := by simp [hfull, hm]
      have hstay : storeExit t.st i = false := by
        by_contra hexit
        rw [(storeExit_imp (by simpa using hexit)).1] at hm
        exact absurd hm (by decide)
      have hstb : (Dcache.step t.st i).r1.wb.stb = true := by rw [stb_step_wait hst, hm]; rfl
      have htake : takenWrites t.st i = [.ofWb (Dcache.step t.st i).r1.wb] := by
        rw [← ofWb_of_mergeNow h hok hst hm]
        simp [takenWrites, unstarted, hst, hs, (curReq_store h hs).1]
      rw [htake, waiting_of_not_full hno]
      simp [hstall, pending, hstate, hstay, hstb]
  | false =>
      have hwait : waiting (Dcache.step t.st i) = takenWrites t.st i := by
        cases hs : (curReq t.st i).opStore with
        | false =>
            rw [waiting_of_no_curStore h.mach hs]
            simp [takenWrites, unstarted, hs]
        | true =>
            have hful : (Dcache.step t.st i).r1.full = true := by
              simp [hfull, hm, (curReq_store h hs).1]
            have hreq := req_step h.mach hful
            rw [hst, if_neg (by decide)] at hreq
            unfold waiting takenWrites unstarted
            rw [hful, hreq, (curReq_store h hs).1, hstate, hst]
            cases storeExit t.st i <;> simp [hs]
      rw [hwait]
      congr 1
      cases hexit : storeExit t.st i with
      | true =>
          rw [(storeExit_imp hexit).2]
          simp [pending, hstate, hexit]
      | false =>
          simp only [pending, hstate, hexit, Bool.false_eq_true, if_false, stb_step_wait hst, hm,
            Bool.false_or]
          cases hs : t.st.r1.wb.stb && i.wishboneIn.stall with
          | false => rfl
          | true =>
              rw [Bool.and_eq_true] at hs
              simp [BusWrite.ofWb, step_adr, step_sel, step_dat, hst, hs.2]

theorem settles_stcx (h : StoreInv t) (hst : t.st.r1.state = .doStcx) : Settles t.st i := by
  obtain ⟨hcyc, hstb, -⟩ := h.bus.stcx hst
  obtain ⟨hs, hwrites⟩ := h.stcx hst
  have hf := h.mach.busy (Or.inr (Or.inl hst))
  have hcur : curReq t.st i = t.st.r1.req := by simp [curReq, hf]
  have htaken : takenFull t.st i = true := by simp [takenFull, hf]
  have hfull := step_full t.st i
  have hstate := step_state t.st i
  have hfail := step_stcxFail t.st i
  have hstb' := step_stb t.st i
  simp only [hst, retires, htaken, hstb, Bool.or_false, Bool.true_and] at hfull hstate hfail hstb'
  have hpop : popped t.st i = [] := by simp [popped, pending, hst]
  have htake : takenWrites t.st i = [.ofWb t.st.r1.wb] := by
    simp [takenWrites, unstarted, hst, htaken, hcur, hs, hwrites]
  have hwb : BusWrite.ofWb (Dcache.step t.st i).r1.wb = BusWrite.ofWb t.st.r1.wb := by
    simp [BusWrite.ofWb, step_adr, step_sel, step_dat, hst]
  rw [Settles, hpop, htake, hfail]
  cases hlost : stcxLost t.st with
  | true =>
      have hno : (Dcache.step t.st i).r1.full = false := by simp [hfull, hlost]
      simp [pending, hstate, hlost, waiting_of_not_full hno]
  | false =>
      cases hstall : i.wishboneIn.stall with
      | false =>
          have hno : (Dcache.step t.st i).r1.full = false := by simp [hfull, hlost, hstall]
          have hyes : (Dcache.step t.st i).r1.wb.stb = true := by simp [hstb', hlost, hstall]
          simp [pending, hstate, hlost, hstall, hyes, hwb, waiting_of_not_full hno]
      | true =>
          have hful : (Dcache.step t.st i).r1.full = true := by simp [hfull, hlost, hstall]
          have hreq := req_step h.mach hful
          rw [hst, if_neg (by decide), hcur] at hreq
          have hwait : waiting (Dcache.step t.st i) = [.ofWb t.st.r1.wb] := by
            unfold waiting unstarted
            rw [hful, hreq, hs, hwrites, hstate, hlost, hstall]
            rfl
          simp [pending, hstate, hlost, hstall, hwait]

/-- A load and a flush that the state machine serves alone leave nothing due. -/
theorem settles_other (h : StoreInv t)
    (hst : t.st.r1.state = .ncLoadWaitAck ∨ t.st.r1.state = .flushCycle) : Settles t.st i := by
  have hs := h.noStore hst
  have hf : t.st.r1.full = true :=
    h.mach.busy (hst.elim Or.inl fun hst => Or.inr (Or.inr hst))
  have hcur : curReq t.st i = t.st.r1.req := by simp [curReq, hf]
  have htake : takenWrites t.st i = [] := by simp [takenWrites, unstarted, hcur, hs]
  have hwait : waiting (Dcache.step t.st i) = [] := by
    refine waiting_of_no_curStore h.mach ?_
    rw [hcur]
    exact hs
  have hpop : popped t.st i = [] := by rcases hst with hst | hst <;> simp [popped, pending, hst]
  have hpend : pending (Dcache.step t.st i) = [] := by
    unfold pending
    rw [step_state]
    rcases hst with hst | hst <;> rw [hst]
    cases i.wishboneIn.ack <;> rfl
  have hfail : (Dcache.step t.st i).r1.stcxFail = false := by
    rcases hst with hst | hst <;> simp [step_stcxFail, hst]
  rw [Settles, hpop, htake, hwait, hpend, hfail]
  rfl

theorem due_step (h : StoreInv t) (hack : AckIsOwed i t.owed) (hok : OpenedAlike t i) :
    t.nextDue i = pending (Dcache.step t.st i) ++ waiting (Dcache.step t.st i) := by
  rw [nextDue_eq h]
  change Settles t.st i
  cases hst : t.st.r1.state with
  | idle => exact settles_idle h hst
  | reloadWaitAck => exact settles_reload h hack hst
  | storeWaitAck => exact settles_store h hok hst
  | ncLoadWaitAck => exact settles_other h (Or.inl hst)
  | doStcx => exact settles_stcx h hst
  | flushCycle => exact settles_other h (Or.inr hst)

/-! ### The other fields after an edge -/

/-- A request is latched with the DTLB set it needs, and a request that is held up
keeps it. -/
theorem tlbRow_step (s : State g) (i : Input) :
    (Dcache.step s i).tlb.tlbValidWay =
        (if r0Stall s i then s.tlb.tlbValidWay
          else s.tlb.dtlbValids (getTlbIndex (earlyAddr i))) ∧
      (Dcache.step s i).tlb.tlbTagWay =
        (if r0Stall s i then s.tlb.tlbTagWay else s.tlb.dtlbTags (getTlbIndex (earlyAddr i))) ∧
      (Dcache.step s i).tlb.tlbPteWay =
        (if r0Stall s i then s.tlb.tlbPteWay else s.tlb.dtlbPtes (getTlbIndex (earlyAddr i))) := by
  have hplru : ∀ n, (tlbPlruUpdate s n).tlbValidWay = n.tlbValidWay ∧
      (tlbPlruUpdate s n).tlbTagWay = n.tlbTagWay ∧
      (tlbPlruUpdate s n).tlbPteWay = n.tlbPteWay := by
    intro n
    unfold tlbPlruUpdate
    split_ifs <;> exact ⟨rfl, rfl, rfl⟩
  have hupdate : ∀ n, (tlbUpdate s i n).tlbValidWay = n.tlbValidWay ∧
      (tlbUpdate s i n).tlbTagWay = n.tlbTagWay ∧
      (tlbUpdate s i n).tlbPteWay = n.tlbPteWay := by
    intro n
    unfold tlbUpdate
    split_ifs <;> exact ⟨rfl, rfl, rfl⟩
  simp only [Dcache.step, hplru, hupdate, tlbRead]
  cases r0Stall s i <;> exact ⟨rfl, rfl, rfl⟩

theorem empty_step (h : StoreInv t) (hnone : t.nextStaged i = none)
    (hf : (Dcache.step t.st i).r0Full = true) : (Dcache.step t.st i).r0.req.load = true := by
  unfold StoreTrace.nextStaged stallOut at hnone
  simp only [Dcache.step, stage0Full, stage0] at hf ⊢
  by_cases hgo : (!t.st.r1.full && !i.dIn.hold) = true
  · rw [if_pos hgo] at hnone hf
    rw [if_pos hgo]
    -- only the MMU gets a request in that is not staged
    unfold stage0In at hf ⊢
    cases hm : i.mIn.valid with
    | true => rfl
    | false =>
        rw [hm] at hnone hf
        have hvalid : i.dIn.valid = true := hf
        simp [hvalid] at hnone
  · rw [if_neg hgo] at hnone hf
    rw [if_neg hgo]
    have hload := h.empty (Option.map_eq_none_iff.mp hnone) hf
    split_ifs <;> exact hload

theorem holds_step (h : StoreInv t) {p : Staged g} (hp : t.nextStaged i = some p) :
    Holds (Dcache.step t.st i) p := by
  obtain ⟨hrowv, hrowt, hrowp⟩ := tlbRow_step t.st i
  have hstall : r0Stall t.st i = !(!t.st.r1.full && !i.dIn.hold) := by simp [r0Stall]
  rw [hstall] at hrowv hrowt hrowp
  unfold StoreTrace.nextStaged stallOut at hp
  by_cases hgo : (!t.st.r1.full && !i.dIn.hold) = true
  · rw [if_pos hgo] at hp
    rw [hgo] at hrowv hrowt hrowp
    split_ifs at hp with hvalid
    cases hp
    rw [Bool.and_eq_true, Bool.not_eq_true'] at hvalid
    have hr0 : (Dcache.step t.st i).r0 = ⟨{ i.dIn with data := 0 }, false, false⟩ := by
      simp [Dcache.step, stage0, hgo, stage0In, hvalid]
    have haddr : earlyAddr i = i.dIn.addr := by simp [earlyAddr, hvalid]
    rw [haddr] at hrowv hrowt hrowp
    exact ⟨by rw [hr0], hvalid.2, by rw [hr0]; rfl, hrowv, hrowt, hrowp⟩
  · have hno : (!t.st.r1.full && !i.dIn.hold) = false := by simpa using hgo
    rw [if_neg hgo, Option.map_eq_some_iff] at hp
    rw [hno] at hrowv hrowt hrowp
    obtain ⟨q, hq, rfl⟩ := hp
    have hold := h.holds q hq
    have hreq := hold.req
    have hdata := hold.data
    have hr0 : (Dcache.step t.st i).r0 =
        if !t.st.r0.dValid then
          { t.st.r0 with
            req := { t.st.r0.req with data := i.dIn.data, dawrMatch := i.dIn.dawrMatch }
            dValid := t.st.r0.req.valid }
        else t.st.r0 := by
      simp only [Dcache.step, stage0, hno, Bool.false_eq_true, if_false]
    have hvalid : t.st.r0.req.valid = true := by rw [hreq]; exact hold.valid
    refine ⟨?_, hold.valid, ?_, hrowv.trans hold.valids, hrowt.trans hold.tags,
      hrowp.trans hold.ptes⟩
    -- the data are on the port in the first cycle of the stall
    · cases hd : t.st.r0.dValid with
      | false =>
          rw [hr0, hd]
          simp only [Bool.not_false, if_true]
          rw [hreq]
      | true =>
          rw [hr0, hd]
          exact hreq
    · cases hd : t.st.r0.dValid with
      | false =>
          rw [hd] at hdata
          simp [hr0, hd, hvalid, Staged.dataNow, hdata]
      | true =>
          rw [hd] at hdata
          simp [hr0, hd, Staged.dataNow, hdata]

/-- A store that stays in `r1` is the one that the state machine has looked at. -/
theorem curStore_of_full (h : MachInv t.st) (hf : (Dcache.step t.st i).r1.full = true)
    (hs : (Dcache.step t.st i).r1.req.opStore = true) :
    (curReq t.st i).opStore = true ∧
      (Dcache.step t.st i).r1.req.realAddr = (curReq t.st i).realAddr ∧
      (Dcache.step t.st i).r1.req.tlbIndex = (curReq t.st i).tlbIndex ∧
      (Dcache.step t.st i).r1.req.tlbWay = (curReq t.st i).tlbWay ∧
      (Dcache.step t.st i).r1.req.samePage = (curReq t.st i).samePage := by
  have hreq := req_step h hf
  rw [hreq] at hs
  rw [hreq]
  split_ifs at hs ⊢ <;> exact ⟨hs, rfl, rfl, rfl, rfl⟩

theorem entry_step (h : StoreInv t) (hf : (Dcache.step t.st i).r1.full = true)
    (hs : (Dcache.step t.st i).r1.req.opStore = true) :
    ∃ q ∈ t.nextLast i, q.req.virtMode = true →
      q.UsesEntry (Dcache.step t.st i).r1.req.tlbIndex (Dcache.step t.st i).r1.req.tlbWay
        (addrToWb (Dcache.step t.st i).r1.req.realAddr) := by
  obtain ⟨hcur, hra, hix, hway, -⟩ := curStore_of_full h.mach hf hs
  rw [hra, hix, hway]
  exact entry_curReq h hcur

/-- A cycle is opened from `IDLE` only. -/
theorem opens_eq_false (h : StoreInv t)
    (hst : t.st.r1.state = .storeWaitAck ∨ t.st.r1.state = .doStcx) : t.opens i = false := by
  have hcyc : t.st.r1.wb.cyc = true :=
    hst.elim (fun hst => (h.bus.store hst).1) fun hst => (h.bus.stcx hst).1
  simp [StoreTrace.opens, wishboneOut, hcyc]

/-- `STORE_WAIT_ACK` and `DO_STCX` are entered from `IDLE`, with a store that opens a
cycle, or from one another. -/
theorem store_of_state (h : StoreInv t) (hack : AckIsOwed i t.owed)
    (hst' : (Dcache.step t.st i).r1.state = .storeWaitAck ∨
      (Dcache.step t.st i).r1.state = .doStcx) :
    (t.st.r1.state = .storeWaitAck ∨ t.st.r1.state = .doStcx) ∨
      (t.st.r1.state = .idle ∧ t.opens i = true ∧ (curReq t.st i).opStore = true ∧
        (Dcache.step t.st i).r1.wb.we = true) := by
  have hstate := step_state t.st i
  cases hst : t.st.r1.state with
  | storeWaitAck => exact Or.inl (Or.inl rfl)
  | doStcx => exact Or.inl (Or.inr rfl)
  | idle =>
      right
      simp only [hst] at hstate
      rw [hstate] at hst'
      obtain ⟨op, hop⟩ := exists_hasOp_curReq h.mach i
      have hcyc := (h.bus.closed (Or.inl hst)).1
      have hbus' := busInv_step h.mach hack h.bus
      have hcyc' : (Dcache.step t.st i).r1.wb.cyc = true :=
        hst'.elim (fun hn => (hbus'.store (hstate.trans hn)).1)
          fun hn => (hbus'.stcx (hstate.trans hn)).1
      refine ⟨rfl, by simp [StoreTrace.opens, wishboneOut, hcyc, hcyc'], ?_⟩
      rcases idleNext_cases (s := t.st) hop with ⟨hnext, -⟩ | ⟨-, hp, -⟩ | ⟨hnext, -⟩ |
        ⟨hnext, -⟩ | ⟨-, -, -, hx, -⟩
      · rcases hnext with hnext | hnext <;> simp [hnext] at hst'
      · refine ⟨?_, by simp [step_we, hst, hp]⟩
        simp only [MemAccessRequest.plainStore, Bool.and_eq_true] at hp
        exact hp.1.1
      · simp [hnext] at hst'
      · simp [hnext] at hst'
      · refine ⟨?_, by simp [step_we, hst, hx]⟩
        simp only [idleStcx, Bool.and_eq_true] at hx
        exact hx.1.1
  | reloadWaitAck => cases hl : reloadLast t.st i <;> simp [hstate, hst, hl] at hst'
  | ncLoadWaitAck => cases hl : i.wishboneIn.ack <;> simp [hstate, hst, hl] at hst'
  | flushCycle => simp [hstate, hst] at hst'

theorem writing_step (h : StoreInv t) (hack : AckIsOwed i t.owed)
    (hst' : (Dcache.step t.st i).r1.state = .storeWaitAck ∨
      (Dcache.step t.st i).r1.state = .doStcx) : (Dcache.step t.st i).r1.wb.we = true := by
  rcases store_of_state h hack hst' with hst | ⟨-, -, -, hwe⟩
  · have hne : t.st.r1.state ≠ .idle := by rcases hst with hst | hst <;> simp [hst]
    rw [step_we, if_neg hne]
    exact h.writing hst
  · exact hwe

/-- The state machine serves a non-cacheable load and a flush with the request in
`r1`, which is no store. -/
theorem other_step (h : StoreInv t)
    (hst' : (Dcache.step t.st i).r1.state = .ncLoadWaitAck ∨
      (Dcache.step t.st i).r1.state = .flushCycle) :
    (Dcache.step t.st i).r1.req.opStore = false ∧
      ((Dcache.step t.st i).r1.state = .ncLoadWaitAck →
        (Dcache.step t.st i).r1.wb.we = false) := by
  have hf : (Dcache.step t.st i).r1.full = true :=
    (machInv_step i h.mach).busy (hst'.elim Or.inl fun hst' => Or.inr (Or.inr hst'))
  have hreq := req_step h.mach hf
  have hstate := step_state t.st i
  cases hst : t.st.r1.state with
  | idle =>
      rw [hst, if_pos rfl] at hreq
      simp only [hst] at hstate
      rw [hstate] at hst'
      obtain ⟨op, hop⟩ := exists_hasOp_curReq h.mach i
      rcases idleNext_cases (s := t.st) hop with ⟨hnext, hp, hz, hx, hm⟩ | ⟨hnext, -⟩ |
        ⟨hnext, -⟩ | ⟨hnext, hp, hz, hx, hm, -⟩ | ⟨hnext, -⟩
      · have hflush : idleNext t.st (curReq t.st i) = .flushCycle := by
          rcases hnext with hnext | hnext
          · simp [hnext] at hst'
          · exact hnext
        refine ⟨?_, fun hn => by rw [hstate, hflush] at hn; exact absurd hn (by decide)⟩
        obtain ⟨hl, hs, hfl, -⟩ := hop
        unfold idleNext at hflush
        rw [hreq]
        show (curReq t.st i).opStore = false
        rw [hp, hz, hx, hm, hfl] at hflush
        rw [hs]
        cases op <;> simp_all
      · simp [hnext] at hst'
      · simp [hnext] at hst'
      · refine ⟨?_, fun _ => by simp [step_we, hst, hp, hz, hx, hm]⟩
        rw [hreq]
        show (curReq t.st i).opStore = false
        rw [hop.2.1]
        rw [hop.1] at hm
        cases op <;> simp_all
      · simp [hnext] at hst'
  | ncLoadWaitAck =>
      have hful := h.mach.busy (Or.inl hst)
      rw [hst, if_neg (by decide), curReq, if_pos hful] at hreq
      refine ⟨?_, fun _ => ?_⟩
      · rw [hreq]
        exact h.noStore (Or.inl hst)
      · rw [step_we, hst, if_neg (by decide)]
        exact h.reading hst
  | reloadWaitAck => cases hl : reloadLast t.st i <;> simp [hstate, hst, hl] at hst'
  | storeWaitAck => cases hl : storeExit t.st i <;> simp [hstate, hst, hl] at hst'
  | doStcx =>
      cases hl : stcxLost t.st <;> cases hs : i.wishboneIn.stall <;>
        simp [hstate, hst, hl, hs] at hst'
  | flushCycle => simp [hstate, hst] at hst'

theorem doStcx_step (h : StoreInv t) (hst' : (Dcache.step t.st i).r1.state = .doStcx) :
    (Dcache.step t.st i).r1.req.opStore = true ∧
      (Dcache.step t.st i).r1.req.writes = [.ofWb (Dcache.step t.st i).r1.wb] := by
  have hf := (machInv_step i h.mach).busy (Or.inr (Or.inl hst'))
  have hreq := req_step h.mach hf
  rw [step_state] at hst'
  cases hst : t.st.r1.state with
  | idle =>
      rw [hst, if_pos rfl] at hreq
      simp only [hst] at hst'
      obtain ⟨op, hop⟩ := exists_hasOp_curReq h.mach i
      rcases idleNext_cases (s := t.st) hop with ⟨hnext, -⟩ | ⟨hnext, -⟩ | ⟨hnext, -⟩ |
        ⟨hnext, -⟩ | ⟨-, -, hz, hx, -⟩
      · rcases hnext with hnext | hnext <;> simp [hnext] at hst'
      · simp [hnext] at hst'
      · simp [hnext] at hst'
      · simp [hnext] at hst'
      · have hs : (curReq t.st i).opStore = true := by
          simp only [idleStcx, Bool.and_eq_true] at hx
          exact hx.1.1
        have hwrites := writes_of_not_zeroLine hs hz
        rw [hreq]
        refine ⟨hs, ?_⟩
        change (curReq t.st i).writes = _
        rw [hwrites]
        simp only [BusWrite.ofWb, step_adr, step_sel, step_dat, hst]
  | doStcx =>
      have hful := h.mach.busy (Or.inr (Or.inl hst))
      rw [hst, if_neg (by decide), curReq, if_pos hful] at hreq
      obtain ⟨hs, hwrites⟩ := h.stcx hst
      rw [hreq]
      refine ⟨hs, ?_⟩
      rw [hwrites]
      simp [BusWrite.ofWb, step_adr, step_sel, step_dat, hst]
  | reloadWaitAck => cases hl : reloadLast t.st i <;> simp [hst, hl] at hst'
  | storeWaitAck => cases hl : storeExit t.st i <;> simp [hst, hl] at hst'
  | ncLoadWaitAck => cases hl : i.wishboneIn.ack <;> simp [hst, hl] at hst'
  | flushCycle => simp [hst] at hst'

/-- `STORE_WAIT_ACK` is entered with nothing in `r1`. -/
theorem wait_of_full (h : StoreInv t) (hf : (Dcache.step t.st i).r1.full = true)
    (hst' : (Dcache.step t.st i).r1.state = .storeWaitAck) :
    t.st.r1.state = .storeWaitAck := by
  have hstarted := (curReq_of_full h.mach hf).1
  rw [step_state] at hst'
  cases hst : t.st.r1.state with
  | storeWaitAck => rfl
  | idle =>
      simp only [hst, retires] at hst' hstarted
      obtain ⟨op, hslow, hop⟩ := (curReq_of_full h.mach hf).2.2
      rw [idle_progress hop hslow (Or.inr hst')] at hstarted
      exact absurd hstarted (by decide)
  | doStcx =>
      simp only [hst, retires, Bool.or_eq_false_iff, Bool.not_eq_false'] at hst' hstarted
      simp [hstarted] at hst'
  | reloadWaitAck => cases hl : reloadLast t.st i <;> simp [hst, hl] at hst'
  | ncLoadWaitAck => cases hl : i.wishboneIn.ack <;> simp [hst, hl] at hst'
  | flushCycle => simp [hst] at hst'

theorem page_step (h : StoreInv t) (hf : (Dcache.step t.st i).r1.full = true)
    (hst' : (Dcache.step t.st i).r1.state = .storeWaitAck)
    (hs : (Dcache.step t.st i).r1.req.opStore = true)
    (hpage : (Dcache.step t.st i).r1.req.samePage = true) :
    ∃ q ∈ t.nextLast i,
      (q.req.virtMode = false → SamePage g (Dcache.step t.st i).r1.wb.adr
        (addrToWb (Dcache.step t.st i).r1.req.realAddr)) ∧
      (q.req.virtMode = true →
        (Dcache.step t.st i).r1.req.tlbIndex = (Dcache.step t.st i).r1.tlbAccIndex ∧
        (Dcache.step t.st i).r1.req.tlbWay = (Dcache.step t.st i).r1.tlbAccWay ∧
        (q.early = false → SameDtlb q.dtlb (t.step i).openTlb)) := by
  have hst := wait_of_full h hf hst'
  have hopens := opens_eq_false (i := i) h (Or.inl hst)
  obtain ⟨hcur, hra, hix, hway, hsame⟩ := curStore_of_full h.mach hf hs
  rw [hsame] at hpage
  obtain ⟨q, hq, hreal, hvirt⟩ := page_curReq h hst hcur hpage
  refine ⟨q, hq, fun hv => ?_, fun hv => ?_⟩
  · rw [hra]
    exact (samePage_step hst).trans (hreal hv)
  · rw [hix, hway, step_tlbAccIndex, step_tlbAccWay, hst, if_neg (by decide), if_neg (by decide)]
    simpa [StoreTrace.step, hopens] using hvirt hv

theorem opened_step (h : StoreInv t) (hack : AckIsOwed i t.owed)
    (hst' : (Dcache.step t.st i).r1.state = .storeWaitAck ∨
      (Dcache.step t.st i).r1.state = .doStcx) :
    ∃ o ∈ (t.step i).opener, o.req.virtMode = true →
      o.UsesEntry (Dcache.step t.st i).r1.tlbAccIndex (Dcache.step t.st i).r1.tlbAccWay
        (Dcache.step t.st i).r1.wb.adr := by
  rcases store_of_state h hack hst' with hst | ⟨hst, hopens, hs, -⟩
  · have hopens := opens_eq_false (i := i) h hst
    have hne : t.st.r1.state ≠ .idle := by rcases hst with hst | hst <;> simp [hst]
    obtain ⟨o, ho, huse⟩ := h.opened hst
    refine ⟨o, by simpa [StoreTrace.step, hopens] using ho, fun hv => ?_⟩
    obtain ⟨hix, hway, hhit, hpage⟩ := huse hv
    rw [step_tlbAccIndex, step_tlbAccWay, if_neg hne, if_neg hne]
    refine ⟨hix, hway, hhit, ?_⟩
    rcases hst with hst | hst
    · exact (samePage_step hst).trans hpage
    · have hadr : (Dcache.step t.st i).r1.wb.adr = t.st.r1.wb.adr := by simp [step_adr, hst]
      rw [hadr]
      exact hpage
  · -- the store that opens the cycle
    obtain ⟨o, ho, huse⟩ := entry_curReq h hs
    refine ⟨o, by simpa [StoreTrace.step, hopens] using ho, fun hv => ?_⟩
    rw [step_tlbAccIndex, step_tlbAccWay, step_adr, hst, if_pos rfl, if_pos rfl]
    exact huse hv

theorem remembered_step (h : StoreInv t) (hack : AckIsOwed i t.owed)
    (hst' : (Dcache.step t.st i).r1.state = .storeWaitAck ∨
      (Dcache.step t.st i).r1.state = .doStcx)
    (htlb : (Dcache.step t.st i).r1.lsTlbHit = true) :
    SameDtlb (Dcache.step t.st i).tlb (t.step i).openTlb ∧
      ∀ q ∈ t.nextStaged i, q.early = false → SameDtlb q.dtlb (t.step i).openTlb := by
  rcases store_of_state h hack hst' with hst | ⟨-, hopens, -⟩
  · have hopens := opens_eq_false (i := i) h hst
    have hne : t.st.r1.state ≠ .idle := by rcases hst with hst | hst <;> simp [hst]
    rw [step_lsTlbHit, if_neg hne, Bool.and_eq_true, Bool.not_eq_true'] at htlb
    obtain ⟨hsame, hstaged⟩ := h.remembered hst htlb.2
    have hopen : (t.step i).openTlb = t.openTlb := by simp [StoreTrace.step, hopens]
    rw [hopen]
    refine ⟨(sameDtlb_step htlb.1).trans hsame, fun q hq hearly => ?_⟩
    unfold StoreTrace.nextStaged at hq
    split_ifs at hq with hgo hvalid
    · cases hq
      exact hsame
    · cases hq
    · obtain ⟨p, hp, rfl⟩ := Option.map_eq_some_iff.mp hq
      rw [Bool.or_eq_false_iff] at hearly
      exact hstaged p hp hearly.1
  · have hopen : (t.step i).openTlb = (Dcache.step t.st i).tlb := by
      simp [StoreTrace.step, hopens]
    rw [hopen]
    refine ⟨SameDtlb.refl _, fun q hq hearly => ?_⟩
    -- the request that is staged now has been accepted by the edge that opens the cycle
    unfold StoreTrace.nextStaged at hq
    rw [hopens] at hq
    split_ifs at hq with hgo hvalid
    · cases hq
      simp at hearly
    · cases hq
    · obtain ⟨p, -, rfl⟩ := Option.map_eq_some_iff.mp hq
      simp at hearly

/-- An edge preserves the invariant. -/
theorem storeInv_step (hack : AckIsOwed i t.owed) (hok : OpenedAlike t i) (h : StoreInv t) :
    StoreInv (t.step i) where
  mach := machInv_step i h.mach
  bus := busInv_step h.mach hack h.bus
  empty := empty_step h
  holds := fun _ hp => holds_step h hp
  writing := writing_step h hack
  reading := fun hst' => (other_step h (Or.inl hst')).2 hst'
  noStore := fun hst' => (other_step h hst').1
  stcx := doStcx_step h
  due := due_step h hack hok
  entry := entry_step h
  page := page_step h
  opened := opened_step h hack
  remembered := remembered_step h hack

end Step

theorem storeInv_init {s : State g} (hs : Quiet s) : StoreInv (.init s) where
  mach := machInv_of_quiet hs
  bus := busInv_of_quiet hs
  empty := by simp [StoreTrace.init, hs.r0Full]
  holds := by simp [StoreTrace.init]
  writing := by simp [StoreTrace.init, hs.state]
  reading := by simp [StoreTrace.init, hs.state]
  noStore := by simp [StoreTrace.init, hs.state]
  stcx := by simp [StoreTrace.init, hs.state]
  due := by simp [StoreTrace.init, pending, waiting, hs.state, hs.full]
  entry := by simp [StoreTrace.init, hs.full]
  page := by simp [StoreTrace.init, hs.full]
  opened := by simp [StoreTrace.init, hs.state]
  remembered := by simp [StoreTrace.init, hs.state]

/-! ## Every run -/

theorem strobeIsDue_of_inv {t : StoreTrace g} (h : StoreInv t) : StrobeIsDue t := by
  intro _ hstb hwe
  obtain ⟨l, hl⟩ := pending_of_strobe h hstb hwe
  rw [h.due, hl]
  rfl

theorem noneLost_of_inv {t : StoreTrace g} (h : StoreInv t) : NoneLost t := by
  intro hcyc hfull
  have hidle : t.st.r1.state = .idle := by
    simp only [wishboneOut, stallOut] at hcyc hfull
    cases hst : t.st.r1.state with
    | idle => rfl
    | reloadWaitAck => simp [(h.bus.reload hst).1] at hcyc
    | storeWaitAck => simp [(h.bus.store hst).1] at hcyc
    | ncLoadWaitAck => simp [(h.bus.ncLoad hst).1] at hcyc
    | doStcx => simp [(h.bus.stcx hst).1] at hcyc
    | flushCycle => simp [h.mach.busy (Or.inr (Or.inr hst))] at hfull
  rw [h.due, waiting_of_not_full hfull, pending, hidle]
  rfl

/-- In every run from reset, with any requests on all ports, any DTLB contents and any
slave that acks what it has taken, in which a virtual-mode store is added to an open
cycle only as `OpenedAlike` says, each write strobe carries the address, byte selects
and data of its own store, and no write is left out. -/
theorem strobeIsDue_of_openedAlike {s : State g} (hs : Quiet s) (is : List Input)
    (hok : Clocked.Along StoreTrace.step (fun t i => AckIsOwed i t.owed ∧ OpenedAlike t i)
      (.init s) is) :
    StrobeIsDue (Clocked.run StoreTrace.step (.init s) is) ∧
      NoneLost (Clocked.run StoreTrace.step (.init s) is) := by
  have h : StoreInv (Clocked.run StoreTrace.step (.init s) is) :=
    hok.invariant (fun _ _ hi hinv => storeInv_step hi.1 hi.2 hinv) (storeInv_init hs)
  exact ⟨strobeIsDue_of_inv h, noneLost_of_inv h⟩

/-! ## Fixed inputs -/

/-- The state after reset with page 0 translated to the real page at `0x5000`, all
accesses permitted. -/
def coldWithPage : State .default :=
  { State.cold .default with
    tlb :=
      { (State.cold .default).tlb with
        dtlbValids := fun ix w => ix == 0 && w == 0
        dtlbPtes := fun _ _ => 0x518e } }

theorem quiet_coldWithPage : Quiet coldWithPage := by
  constructor <;> rfl

/-- A virtual-mode store of a doubleword. -/
def virtStoreReq (addr : BitVec 64) : Loadstore1ToDcache :=
  { storeReq addr with virtMode := true }

/-- A cycle in which the MMU loads an entry for page 0 into the DTLB. -/
def Input.loadsPte (dIn : Loadstore1ToDcache) (pte : BitVec 64) : Input :=
  { Input.send dIn with mIn := ⟨false, false, false, true, 0, pte⟩ }

/-- A load-reserve with its reload, a store-conditional to which a store is added, two
virtual-mode stores that share a cycle, a third after page 0 has been moved to the real
page at `0x6000`, and a dcbz. -/
def mixedStores : List Input :=
  [.send { loadReq 0x2000 with reserve := true, atomicFirst := true, atomicLast := true },
    .idle, .idle] ++ List.replicate 8 (Input.acked 7) ++
  [.send { storeReq 0x2000 with reserve := true, atomicFirst := true, atomicLast := true },
    .send (storeReq 0x2008), .idle, .idle, .acked 0, .acked 0,
    .send (virtStoreReq 0), .send (virtStoreReq 8), .loadsPte .init 0x618e,
    .send (virtStoreReq 16), .acked 0, .acked 0, .idle, .idle, .acked 0,
    .send { storeReq 0x3010 with dcbz := true }, .idle, .idle]

/-- At the end the bus shows the second row of the dcbz. -/
theorem strobeIsDue_of_openedAlike_mixedStores :
    let t := Clocked.run StoreTrace.step (.init coldWithPage) mixedStores
    t.st.r1.wb = ⟨0x603, 0, BitVec.allOnes 8, true, true, true⟩ ∧ StrobeIsDue t ∧ NoneLost t :=
  ⟨by decide +kernel,
    strobeIsDue_of_openedAlike quiet_coldWithPage mixedStores (by decide +kernel)⟩

/-- A real-mode store to address 0, then a virtual-mode store to effective address
8, which is real address `0x5008`. -/
def realThenVirt : List Input :=
  [.send (storeReq 0), .send (virtStoreReq 8), .idle]

/-- The second store is added to the cycle of the first and written to real
address 8. -/
theorem not_strobeIsDue_realThenVirt :
    Clocked.Along StoreTrace.step (fun t i => AckIsOwed i t.owed) (.init coldWithPage)
        realThenVirt ∧
      ¬StrobeIsDue (Clocked.run StoreTrace.step (.init coldWithPage) realThenVirt) ∧
      (Clocked.run StoreTrace.step (.init coldWithPage) realThenVirt).st.r1.wb.adr = 1 ∧
      (Clocked.run StoreTrace.step (.init coldWithPage) realThenVirt).due =
        [⟨0xa01, BitVec.allOnes 8, 0⟩] := by
  refine ⟨?_, ?_, ?_, ?_⟩ <;> decide +kernel

/-- Two virtual-mode stores to page 0, which is moved from the real page at `0x5000` to
the one at `0x6000` in the cycle in which the first is accepted. -/
def movedBetween : List Input :=
  [.loadsPte (virtStoreReq 0) 0x618e, .send (virtStoreReq 8), .idle]

/-- The second store is written to the page that the first was translated to. -/
theorem not_strobeIsDue_movedBetween :
    Clocked.Along StoreTrace.step (fun t i => AckIsOwed i t.owed) (.init coldWithPage)
        movedBetween ∧
      ¬StrobeIsDue (Clocked.run StoreTrace.step (.init coldWithPage) movedBetween) := by
  constructor <;> decide +kernel

end Microwatt.Dcache
