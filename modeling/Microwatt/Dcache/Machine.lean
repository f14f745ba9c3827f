import Microwatt.Dcache.Lookup
import Microwatt.Lib.Run

/-!
# The state machine of the dcache

What holds in every run of the dcache, whatever the ports and the bus do
(`MachInv`): the request in `r1` asks for one operation, the states that serve a
single request keep it in `r1`, and during a reload the rows of the line arrive in
turn.  A request that waits for a row of the line under reload gets it before the
reload ends, because the row had not arrived when the request was looked up
(`rows`, `waiting`).
-/

namespace Microwatt.Dcache

variable {g : Geometry} {s : State g} {i : Input}

/-- `req` asks the state machine for `op`. -/
def MemAccessRequest.HasOp (req : MemAccessRequest g) (op : ReqOp) : Prop :=
  req.opLmiss = (op == .loadMiss) ∧ req.opStore = (op == .store) ∧
    req.opFlush = (op == .flush) ∧ req.opSync = (op == .sync)

/-- The operations that a request can wait in `r1` for. -/
def ReqOp.slow : ReqOp → Bool
  | .loadMiss | .store | .flush | .sync => true
  | _ => false

/-- How many rows of the line are still to come after `row`. -/
def rowsAfter (r : SlowRegs g) (row : RowInLine g) : Nat :=
  (r.endRowIx - row).toNat

structure MachInv (s : State g) : Prop where
  slow : s.r1.full = true → ∃ op, op.slow = true ∧ s.r1.req.HasOp op
  valid : s.r1.full = true → s.r1.req.valid = true
  reloading : s.r1.reloading = true → s.r1.state = .reloadWaitAck
  writeTag : s.r1.writeTag = true → s.r1.state = .reloadWaitAck
  /-- The rows that have arrived are those before the next one to arrive. -/
  rows : s.r1.state = .reloadWaitAck → ∀ row,
    s.r1.rowsValid row =
      decide (rowsAfter s.r1 s.r1.storeRow.rowOfLine < rowsAfter s.r1 row)
  /-- The row that a request in `r1` waits for has not arrived. -/
  waiting : s.r1.state = .reloadWaitAck → s.r1.full = true → s.r1.req.hitReload = true →
    rowsAfter s.r1 (getRowInLine s.r1.req.realAddr) ≤
      rowsAfter s.r1 s.r1.storeRow.rowOfLine
  started : s.r1.state = .idle ∨ s.r1.state = .storeWaitAck → s.r1.full = true →
    s.r1.req.hitReload = false
  busy : s.r1.state = .ncLoadWaitAck ∨ s.r1.state = .doStcx ∨ s.r1.state = .flushCycle →
    s.r1.full = true

theorem hasOp_r0Request (s : State g) (i : Input) : (r0Request s i).HasOp (reqOp s i) :=
  ⟨rfl, rfl, rfl, rfl⟩

theorem exists_hasOp_curReq (h : MachInv s) (i : Input) : ∃ op, (curReq s i).HasOp op := by
  unfold curReq
  split_ifs with hf
  · obtain ⟨op, -, hop⟩ := h.slow hf
    exact ⟨op, hop⟩
  · exact ⟨_, hasOp_r0Request s i⟩

/-! ## One edge preserves the invariant -/

/-- A request in `r1` after the edge was there before, or was just taken from
`r0`. -/
theorem taken_of_full (hf : (step s i).r1.full = true) :
    (s.r1.full = true ∧ takenReq s i = s.r1.req ∧ curReq s i = s.r1.req) ∨
      (s.r1.full = false ∧ reqGo s i = true ∧ reqSlow s i = true ∧
        takenReq s i = r0Request s i ∧ curReq s i = r0Request s i) := by
  rw [step_full, Bool.and_eq_true] at hf
  have htaken := hf.1
  unfold takenFull at htaken
  cases hfull : s.r1.full with
  | true => exact Or.inl ⟨rfl, by simp [takenReq, hfull], by simp [curReq, hfull]⟩
  | false =>
      rw [hfull] at htaken
      cases hgo : reqGo s i with
      | false => simp [hgo] at htaken
      | true =>
          simp only [hgo, Bool.not_false, Bool.and_self, if_true] at htaken
          exact Or.inr ⟨rfl, rfl, htaken, by simp [takenReq, hfull, hgo],
            by simp [curReq, hfull]⟩

theorem slow_step (h : MachInv s) (hf : (step s i).r1.full = true) :
    ∃ op, op.slow = true ∧ (step s i).r1.req.HasOp op := by
  have htaken : ∃ op, op.slow = true ∧ (takenReq s i).HasOp op := by
    rcases taken_of_full hf with ⟨hfull, heq, -⟩ | ⟨-, -, hslow, heq, -⟩ <;> rw [heq]
    · exact h.slow hfull
    · refine ⟨reqOp s i, ?_, hasOp_r0Request s i⟩
      unfold reqSlow at hslow
      cases hop : reqOp s i <;> simp_all [ReqOp.slow]
  rw [step_req]
  split_ifs
  · exact htaken
  · exact htaken

theorem valid_step (h : MachInv s) (hf : (step s i).r1.full = true) :
    (step s i).r1.req.valid = true := by
  have htaken : (takenReq s i).valid = true := by
    rcases taken_of_full hf with ⟨hfull, heq, -⟩ | ⟨-, hgo, -, heq, -⟩ <;> rw [heq]
    · exact h.valid hfull
    · exact hgo
  rw [step_req]
  split_ifs <;> exact htaken

theorem reloading_step (h : MachInv s) (hr : (step s i).r1.reloading = true) :
    (step s i).r1.state = .reloadWaitAck := by
  rw [step_reloading] at hr
  rw [step_state]
  have hold := h.reloading
  obtain ⟨op, hl, hs, hf, -⟩ := exists_hasOp_curReq h i
  cases hst : s.r1.state with
  | idle =>
      simp only [hst, reduceCtorEq, imp_false, Bool.not_eq_true] at hr hold
      cases op <;>
        simp_all [idleNext, idleStcx, MemAccessRequest.plainStore, MemAccessRequest.zeroLine]
  | reloadWaitAck =>
      simp only [hst, Bool.and_eq_true, Bool.not_eq_true'] at hr
      simp [hr.1]
  | _ => simp_all

/-- A tag is about to be written after the edge at which `IDLE` takes a load miss
or a dcbz miss. -/
theorem writeTag_step (h : MachInv s) (hw : (step s i).r1.writeTag = true) :
    s.r1.state = .idle ∧ (step s i).r1.state = .reloadWaitAck ∧
      ((curReq s i).opLmiss = true ∨
        ((curReq s i).opStore = true ∧ (curReq s i).isHit = false)) := by
  rw [step_writeTag, Bool.and_eq_true, decide_eq_true_eq] at hw
  obtain ⟨hst, hw⟩ := hw
  obtain ⟨op, hl, hs, hf, -⟩ := exists_hasOp_curReq h i
  rw [step_state]
  cases op <;>
    simp_all [idleNext, idleStcx, MemAccessRequest.plainStore, MemAccessRequest.zeroLine]

/-- Outside a reload no request waits for a row. -/
theorem reqHitReload_eq_false (h : MachInv s) (hst : s.r1.state ≠ .reloadWaitAck) :
    reqHitReload s i = false := by
  by_contra hr
  obtain ⟨-, -, hidx⟩ := reqHitWays_of_hitReload (by simpa using hr)
  exact hst (h.reloading (idxReload_eq_true hidx).1)

/-- The request that `IDLE` or `STORE_WAIT_ACK` looks at does not wait for a row. -/
theorem hitReload_curReq (h : MachInv s) (hst : s.r1.state = .idle ∨ s.r1.state = .storeWaitAck) :
    (curReq s i).hitReload = false := by
  unfold curReq
  split_ifs with hf
  · exact h.started hst hf
  · have hno : reqHitReload s i = false :=
      reqHitReload_eq_false h (by rcases hst with hst | hst <;> simp [hst])
    simp [r0Request, hno]

/-- The ways out of `IDLE`, with the kind of request that takes each. -/
theorem idleNext_cases {req : MemAccessRequest g} {op : ReqOp} (hop : req.HasOp op) :
    ((idleNext s req = .idle ∨ idleNext s req = .flushCycle) ∧ req.plainStore = false ∧
        req.zeroLine = false ∧ idleStcx s req = false ∧ req.opLmiss = false) ∨
      (idleNext s req = .storeWaitAck ∧ req.plainStore = true ∧ req.zeroLine = false ∧
        idleStcx s req = false ∧ req.opLmiss = false) ∨
      (idleNext s req = .reloadWaitAck ∧ req.plainStore = false ∧ idleStcx s req = false ∧
        ((req.zeroLine = true ∧ req.opLmiss = false) ∨
          (req.zeroLine = false ∧ req.opLmiss = true ∧ req.nc = false))) ∨
      (idleNext s req = .ncLoadWaitAck ∧ req.plainStore = false ∧ req.zeroLine = false ∧
        idleStcx s req = false ∧ req.opLmiss = true ∧ req.nc = true) ∨
      (idleNext s req = .doStcx ∧ req.plainStore = false ∧ req.zeroLine = false ∧
        idleStcx s req = true ∧ req.opLmiss = false) := by
  obtain ⟨hl, hs, hf, -⟩ := hop
  unfold idleNext idleStcx MemAccessRequest.plainStore MemAccessRequest.zeroLine
  generalize (!s.r1.reservation.valid || killRsrv s) = lost
  rw [hl, hs, hf]
  cases op <;> cases req.reserve <;> cases req.dcbz <;> cases req.nc <;> cases lost <;> simp

/-- `IDLE` completes a slow request or leaves for another state. -/
theorem idle_progress {req : MemAccessRequest g} {op : ReqOp} (hop : req.HasOp op)
    (hslow : op.slow = true) (hstay : idleNext s req = .idle ∨ idleNext s req = .storeWaitAck) :
    idleDone s req = true := by
  obtain ⟨hl, hs, hf, hy⟩ := hop
  unfold idleNext idleDone idleStcx idleStcxFail MemAccessRequest.plainStore
    MemAccessRequest.zeroLine at *
  generalize (!s.r1.reservation.valid || killRsrv s) = lost at *
  cases op with
  | loadMiss => by_cases hnc : req.nc = true <;> simp_all
  | store =>
      by_cases hr : req.reserve = true <;> by_cases hd : req.dcbz = true <;>
        cases lost <;> simp_all
  | _ => simp_all [ReqOp.slow]

/-- The states that `IDLE` goes to with a request that stays in `r1` on its own. -/
theorem idle_busy {req : MemAccessRequest g} {op : ReqOp} (hop : req.HasOp op)
    (hnext : idleNext s req = .ncLoadWaitAck ∨ idleNext s req = .doStcx ∨
      idleNext s req = .flushCycle) : op.slow = true ∧ idleDone s req = false := by
  obtain ⟨hl, hs, hf, hy⟩ := hop
  unfold idleNext idleDone idleStcx idleStcxFail MemAccessRequest.plainStore
    MemAccessRequest.zeroLine at *
  generalize (!s.r1.reservation.valid || killRsrv s) = lost at *
  cases op with
  | loadMiss => by_cases hnc : req.nc = true <;> simp_all [ReqOp.slow]
  | store =>
      by_cases hr : req.reserve = true <;> by_cases hd : req.dcbz = true <;>
        cases lost <;> simp_all [ReqOp.slow]
  | _ => simp_all [ReqOp.slow]

/-- The operation that the state machine finds is that of a request in `r1` or of
one that is being taken. -/
theorem takenFull_of_hasOp {op : ReqOp} (hop : (curReq s i).HasOp op)
    (hslow : op.slow = true) : takenFull s i = true := by
  unfold takenFull curReq at *
  cases hf : s.r1.full with
  | true => simp
  | false =>
      have heq : reqOp s i = op := by
        simp only [hf, Bool.false_eq_true, if_false] at hop
        obtain ⟨hl, hs, hfl, hy⟩ := hop
        unfold r0Request at hl hs hfl hy
        cases op <;> simp_all [ReqOp.slow]
      have hgo : reqGo s i = true := reqGo_of_reqOp (by cases op <;> simp_all [ReqOp.slow])
      cases op <;> simp_all [ReqOp.slow, reqSlow]

/-- The request in `r1` after the edge, if any, was not completed at it, and has
one of the slow operations. -/
theorem curReq_of_full (h : MachInv s) (hf : (step s i).r1.full = true) :
    retires s i = false ∧ takenReq s i = curReq s i ∧
      ∃ op, op.slow = true ∧ (curReq s i).HasOp op := by
  have htaken := taken_of_full hf
  rw [step_full, Bool.and_eq_true, Bool.not_eq_true'] at hf
  rcases htaken with ⟨hfull, htaken, hcur⟩ | ⟨-, -, hslow, htaken, hcur⟩
  · rw [htaken, hcur]
    exact ⟨hf.2, rfl, h.slow hfull⟩
  · rw [htaken, hcur]
    refine ⟨hf.2, rfl, reqOp s i, ?_, hasOp_r0Request s i⟩
    unfold reqSlow at hslow
    cases hop : reqOp s i <;> simp_all [ReqOp.slow]

/-! The rows of a reload. -/

/-- Rows are counted from the last one of the reload. -/
theorem rowsAfter_inj (r : SlowRegs g) {row row' : RowInLine g}
    (h : rowsAfter r row = rowsAfter r row') : row = row' := by
  have heq : r.endRowIx - row = r.endRowIx - row' := BitVec.eq_of_toNat_eq h
  exact (BitVec.sub_right_inj _).mp heq

theorem rowsAfter_succ (r : SlowRegs g) {row : RowInLine g} (hlast : row ≠ r.endRowIx) :
    rowsAfter r (row + 1) + 1 = rowsAfter r row := by
  have hsub : r.endRowIx - (row + 1) = r.endRowIx - row - 1 := by grind
  have hone : (1 : RowInLine g).toNat = 1 := by simp [g.rowLinebits_pos]
  have hne : r.endRowIx - row ≠ 0 := by grind
  have hpos : 0 < (r.endRowIx - row).toNat := by
    rw [Nat.pos_iff_ne_zero]
    exact fun h0 => hne (BitVec.eq_of_toNat_eq (by simpa using h0))
  rw [rowsAfter, rowsAfter, hsub,
    BitVec.toNat_sub_of_le (by rw [BitVec.le_def, hone]; omega), hone]
  omega

/-- The request that a reload looks at waits for a row that has not arrived. -/
theorem rowsAfter_curReq (h : MachInv s) (hst : s.r1.state = .reloadWaitAck)
    (hf : (step s i).r1.full = true) (hr : (curReq s i).hitReload = true) :
    rowsAfter s.r1 (getRowInLine (curReq s i).realAddr) ≤
      rowsAfter s.r1 s.r1.storeRow.rowOfLine := by
  rcases taken_of_full hf with ⟨hfull, -, hcur⟩ | ⟨-, -, -, -, hcur⟩ <;> rw [hcur] at hr ⊢
  · exact h.waiting hst hfull hr
  · have hreload : reqHitReload s i = true := by
      simp only [r0Request, Bool.and_eq_true] at hr
      exact hr.1
    obtain ⟨-, -, hidx⟩ := reqHitWays_of_hitReload hreload
    have hrow := (idxReload_eq_true hidx).2.2.2.2.1
    rw [← getRowInLine_ra, h.rows hst, decide_eq_false_iff_not, not_lt] at hrow
    exact hrow

/-- A request that waits for a row of the reload is completed before the reload
ends, and else its row is among those after the one that arrives. -/
theorem waiting_reload (h : MachInv s) (hst : s.r1.state = .reloadWaitAck)
    (hf : (step s i).r1.full = true) (hr : (curReq s i).hitReload = true)
    (hack : i.wishboneIn.ack = true) :
    rowsAfter s.r1 (getRowInLine (curReq s i).realAddr) <
      rowsAfter s.r1 s.r1.storeRow.rowOfLine := by
  have hle := rowsAfter_curReq h hst hf hr
  have hretire := (curReq_of_full h hf).1
  simp only [retires, hst, hack, Bool.true_and, reloadMatch, hr, beq_eq_false_iff_ne] at hretire
  refine lt_of_le_of_ne hle fun heq => hretire ?_
  exact (rowsAfter_inj s.r1 heq).symm

/-- The last row of a reload leaves no request waiting. -/
theorem not_reloadLast_of_waiting (h : MachInv s) (hst : s.r1.state = .reloadWaitAck)
    (hf : (step s i).r1.full = true) (hr : (curReq s i).hitReload = true) :
    reloadLast s i = false := by
  by_contra hlast
  simp only [Bool.not_eq_false, reloadLast, Bool.and_eq_true, isLastRow, getRowOfLine,
    beq_iff_eq] at hlast
  have hlt := waiting_reload h hst hf hr hlast.1
  simp [rowsAfter, hlast.2] at hlt

theorem started_step (h : MachInv s)
    (hst' : (step s i).r1.state = .idle ∨ (step s i).r1.state = .storeWaitAck)
    (hf : (step s i).r1.full = true) : (step s i).r1.req.hitReload = false := by
  obtain ⟨hretire, htaken, op, hslow, hop⟩ := curReq_of_full h hf
  rw [step_state] at hst'
  rw [step_req, htaken]
  cases hst : s.r1.state with
  | idle =>
      simp only [hst, retires] at hst' hretire
      rw [idle_progress hop hslow hst'] at hretire
      exact absurd hretire (by decide)
  | reloadWaitAck =>
      simp only [hst, reduceCtorEq, if_false] at hst' ⊢
      by_contra hr
      rw [not_reloadLast_of_waiting h hst hf (by simpa using hr)] at hst'
      simp at hst'
  | storeWaitAck =>
      simp only [reduceCtorEq, if_false]
      exact hitReload_curReq h (Or.inr hst)
  | ncLoadWaitAck => simp_all [retires]
  | doStcx => cases hl : stcxLost s <;> cases hs : i.wishboneIn.stall <;> simp_all [retires]
  | flushCycle => simp_all [retires]

theorem busy_step (h : MachInv s)
    (hst' : (step s i).r1.state = .ncLoadWaitAck ∨ (step s i).r1.state = .doStcx ∨
      (step s i).r1.state = .flushCycle) : (step s i).r1.full = true := by
  rw [step_state] at hst'
  rw [step_full, Bool.and_eq_true, Bool.not_eq_true']
  cases hst : s.r1.state with
  | idle =>
      simp only [hst] at hst'
      obtain ⟨op, hop⟩ := exists_hasOp_curReq h i
      obtain ⟨hslow, hdone⟩ := idle_busy hop hst'
      exact ⟨takenFull_of_hasOp hop hslow, by simp [retires, hst, hdone]⟩
  | reloadWaitAck => cases hl : reloadLast s i <;> simp_all
  | storeWaitAck => cases hl : storeExit s i <;> simp_all
  | ncLoadWaitAck =>
      have hfull := h.busy (Or.inl hst)
      cases ha : i.wishboneIn.ack <;> simp_all [retires, takenFull]
  | doStcx =>
      have hfull := h.busy (Or.inr (Or.inl hst))
      cases hl : stcxLost s <;> cases hs : i.wishboneIn.stall <;> simp_all [retires, takenFull]
  | flushCycle => simp_all

/-- A reload that starts at `row` has all the rows of the line after it. -/
theorem rowsAfter_first {r : SlowRegs g} {row : RowInLine g} (hend : r.endRowIx = row - 1)
    (row' : RowInLine g) : rowsAfter r row' ≤ rowsAfter r row := by
  have hneg : r.endRowIx - row = BitVec.allOnes _ := by
    rw [hend, ← BitVec.neg_one_eq_allOnes]
    grind
  rw [rowsAfter, rowsAfter, hneg, BitVec.toNat_allOnes]
  have hlt := (r.endRowIx - row').isLt
  omega

/-- The rows that have arrived after another one has. -/
theorem rowsAfter_lt_succ (r : SlowRegs g) {row : RowInLine g} (hlast : row ≠ r.endRowIx)
    (row' : RowInLine g) :
    rowsAfter r (row + 1) < rowsAfter r row' ↔ row' = row ∨ rowsAfter r row < rowsAfter r row' := by
  have hsucc := rowsAfter_succ r hlast
  constructor
  · intro hlt
    rcases Nat.lt_or_ge (rowsAfter r row) (rowsAfter r row') with h | h
    · exact Or.inr h
    · exact Or.inl (rowsAfter_inj r (by omega))
  · rintro (rfl | hlt)
    · omega
    · omega

theorem rows_step (h : MachInv s) (hst' : (step s i).r1.state = .reloadWaitAck)
    (row : RowInLine g) :
    (step s i).r1.rowsValid row =
      decide (rowsAfter (step s i).r1 (step s i).r1.storeRow.rowOfLine <
        rowsAfter (step s i).r1 row) := by
  have hend := step_endRowIx s i
  rw [step_state] at hst'
  rw [step_rowsValid, step_storeRow]
  cases hst : s.r1.state with
  | idle =>
      rw [hst, if_pos rfl] at hend
      have hle := rowsAfter_first hend row
      simp only [getRow]
      exact (decide_eq_false (by omega)).symm
  | reloadWaitAck =>
      simp only [hst, reduceCtorEq, if_false] at hend hst' ⊢
      have hafter : ∀ row, rowsAfter (step s i).r1 row = rowsAfter s.r1 row := by
        intro row
        rw [rowsAfter, hend, rowsAfter]
      rw [hafter, hafter, h.rows hst]
      cases hack : i.wishboneIn.ack with
      | false => simp
      | true =>
          have hlast : s.r1.storeRow.rowOfLine ≠ s.r1.endRowIx := by
            intro heq
            simp [reloadLast, hack, isLastRow, getRowOfLine, heq] at hst'
          simp only [if_true, nextRow, true_and, rowsAfter_lt_succ _ hlast]
          by_cases heq : row = s.r1.storeRow.rowOfLine <;> simp [heq]
  | storeWaitAck => by_cases hl : storeExit s i = true <;> simp_all
  | ncLoadWaitAck => by_cases hl : i.wishboneIn.ack = true <;> simp_all
  | doStcx =>
      by_cases hl : stcxLost s = true <;> by_cases hs : i.wishboneIn.stall = true <;> simp_all
  | flushCycle => simp_all

theorem waiting_step (h : MachInv s) (hst' : (step s i).r1.state = .reloadWaitAck)
    (hf : (step s i).r1.full = true) (hr : (step s i).r1.req.hitReload = true) :
    rowsAfter (step s i).r1 (getRowInLine (step s i).r1.req.realAddr) ≤
      rowsAfter (step s i).r1 (step s i).r1.storeRow.rowOfLine := by
  obtain ⟨-, htaken, -⟩ := curReq_of_full h hf
  have hend := step_endRowIx s i
  rw [step_state] at hst'
  rw [step_req, htaken] at hr ⊢
  rw [step_storeRow]
  cases hst : s.r1.state with
  | idle =>
      rw [hst, if_pos rfl] at hend
      simp only [getRow, if_true]
      exact le_refl _
  | reloadWaitAck =>
      simp only [hst, reduceCtorEq, if_false] at hend hst' hr ⊢
      have hafter : ∀ row, rowsAfter (step s i).r1 row = rowsAfter s.r1 row := by
        intro row
        rw [rowsAfter, hend, rowsAfter]
      rw [hafter, hafter]
      cases hack : i.wishboneIn.ack with
      | false => simpa using rowsAfter_curReq h hst hf hr
      | true =>
          have hlt := waiting_reload h hst hf hr hack
          have hlast : s.r1.storeRow.rowOfLine ≠ s.r1.endRowIx := by
            intro heq
            simp [reloadLast, hack, isLastRow, getRowOfLine, heq] at hst'
          have hsucc := rowsAfter_succ s.r1 hlast
          simp only [if_true, nextRow]
          omega
  | storeWaitAck => by_cases hl : storeExit s i = true <;> simp_all
  | ncLoadWaitAck => by_cases hl : i.wishboneIn.ack = true <;> simp_all
  | doStcx =>
      by_cases hl : stcxLost s = true <;> by_cases hs : i.wishboneIn.stall = true <;> simp_all
  | flushCycle => simp_all

/-- Every edge preserves the invariant. -/
theorem machInv_step (i : Input) (h : MachInv s) : MachInv (step s i) where
  slow := slow_step h
  valid := valid_step h
  reloading := reloading_step h
  writeTag := fun hw => (writeTag_step h hw).2.1
  rows := rows_step h
  waiting := waiting_step h
  started := started_step h
  busy := busy_step h

theorem machInv_of_quiet (h : Quiet s) : MachInv s where
  slow := by simp [h.full]
  valid := by simp [h.full]
  reloading := by simp [h.reloading]
  writeTag := by simp [h.writeTag]
  rows := by simp [h.state]
  waiting := by simp [h.state]
  started := by simp [h.full]
  busy := by simp [h.state]

end Microwatt.Dcache
