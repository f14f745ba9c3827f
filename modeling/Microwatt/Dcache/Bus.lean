import Microwatt.Dcache.Machine

/-!
# Strobes and acks

The slave owes an ack for every strobe that it has taken.  `BusInv` relates what it
owes to the registers of the dcache: in a reload to the rows that are still to be
asked for and to arrive, in `STORE_WAIT_ACK` to the count of pending acks.  In
particular nothing is owed when a cycle is closed.
-/

namespace Microwatt.Dcache

variable {g : Geometry} {s : State g} {i : Input} {owed : Nat}

/-- The slave takes the strobe on the bus. -/
def strobeTaken (s : State g) (i : Input) : Bool :=
  (wishboneOut s).cyc && (wishboneOut s).stb && !i.wishboneIn.stall

/-- The acks that the slave owes after the edge. -/
def owedNext (s : State g) (i : Input) (owed : Nat) : Nat :=
  owed + (strobeTaken s i).toNat - i.wishboneIn.ack.toNat

/-- An ack is for a strobe that was taken in an earlier cycle. -/
def AckIsOwed (i : Input) (owed : Nat) : Prop :=
  i.wishboneIn.ack = true → 0 < owed

instance (i : Input) (owed : Nat) : Decidable (AckIsOwed i owed) :=
  inferInstanceAs (Decidable (_ → _))

/-- The row of the line that the bus address asks for. -/
def wbRow (r : SlowRegs g) : RowInLine g :=
  r.wb.adr.extractLsb' 0 g.rowLinebits

/-- The rows of the line that are still to be asked for. -/
def rowsToSend (r : SlowRegs g) : Nat :=
  if r.wb.stb then rowsAfter r (wbRow r) + 1 else 0

/-- The rows of the line that are still to arrive. -/
def rowsToCome (r : SlowRegs g) : Nat :=
  rowsAfter r r.storeRow.rowOfLine + 1

structure BusInv (s : State g) (owed : Nat) : Prop where
  closed : s.r1.state = .idle ∨ s.r1.state = .flushCycle →
    s.r1.wb.cyc = false ∧ s.r1.wb.stb = false ∧ owed = 0
  reload : s.r1.state = .reloadWaitAck →
    s.r1.wb.cyc = true ∧ owed + rowsToSend s.r1 = rowsToCome s.r1
  store : s.r1.state = .storeWaitAck →
    s.r1.wb.cyc = true ∧ owed + s.r1.wb.stb.toNat = (acksNow s).toNat
  ncLoad : s.r1.state = .ncLoadWaitAck →
    s.r1.wb.cyc = true ∧ owed + s.r1.wb.stb.toNat = 1
  stcx : s.r1.state = .doStcx →
    s.r1.wb.cyc = true ∧ s.r1.wb.stb = false ∧ owed = 0 ∧ s.r1.acksPending = 0 ∧
      s.r1.decAcks = false

/-! ## Rows of the bus address -/

theorem wbRow_addrToWb (a : RealAddr) :
    (addrToWb a).extractLsb' 0 g.rowLinebits = getRowInLine a := by
  have hle := g.tlbLgPgsz_le
  have hset := g.setSize_le
  apply BitVec.eq_of_getLsbD_eq
  intro k hk
  have hlt : k < 29 := by omega
  simp [addrToWb, getRowInLine, hk, hlt]

theorem wbRow_nextRow (a : WbAddr) :
    (nextRowWbAddr g a).extractLsb' 0 g.rowLinebits = a.extractLsb' 0 g.rowLinebits + 1 := by
  have hle := g.tlbLgPgsz_le
  have hset := g.setSize_le
  apply BitVec.eq_of_getLsbD_eq
  intro k hk
  have hlt : k < 29 := by omega
  simp [nextRowWbAddr, setLowBits, hk, hlt]

/-! ## One edge -/

/-- The update of a count that neither overflows nor underflows. -/
theorem acks_update : ∀ (a : BitVec 3) (stb stall ack : Bool), (ack = true → a ≠ 0) →
    (stb = true → stall = false → a < 7#3) →
    (if stb && !stall && !ack then a + 1 else if (!stb || stall) && ack then a - 1 else a).toNat =
      a.toNat + (stb && !stall).toNat - ack.toNat := by
  decide

/-- The count of pending acks after an edge. -/
theorem acksNow_step (hcyc : s.r1.wb.cyc = true) (hcyc' : (step s i).r1.wb.cyc = true)
    (hpos : i.wishboneIn.ack = true → acksNow s ≠ 0)
    (hroom : (step s i).r1.wb.stb = true → i.wishboneIn.stall = false → acksNow s < 7#3) :
    (acksNow (step s i)).toNat =
      (acksNow s).toNat + ((step s i).r1.wb.stb && !i.wishboneIn.stall).toNat -
        i.wishboneIn.ack.toNat := by
  obtain ⟨hpend, hstalled, hdec⟩ := step_acks s i
  rw [← acks_update _ _ _ _ hpos hroom, acksNow, hcyc', hpend, hstalled, hdec, hcyc]
  simp

theorem busInv_idle (h : MachInv s) (hb : BusInv s owed) (hst : s.r1.state = .idle) :
    BusInv (step s i) (owedNext s i owed) := by
  obtain ⟨hcyc, hstb, howed⟩ := hb.closed (Or.inl hst)
  obtain ⟨op, hop⟩ := exists_hasOp_curReq h i
  have howed' : owedNext s i owed = 0 := by
    simp [owedNext, strobeTaken, wishboneOut, hcyc, howed]
  have hacks : (step s i).r1.acksPending = 0 ∧ (step s i).r1.stalled = false ∧
      (step s i).r1.decAcks = false := by
    obtain ⟨hp, hs, hd⟩ := step_acks s i
    rw [hp, hs, hd, hcyc]
    simp [acksNow, hcyc]
  have hstate := step_state s i
  have hcyc' := step_cyc s i
  have hstb' := step_stb s i
  simp only [hst, hcyc, hstb, Bool.or_false] at hstate hcyc' hstb'
  rw [howed']
  rcases idleNext_cases (s := s) hop with ⟨hnext, hp, hz, hx, hl⟩ | ⟨hnext, hp, hz, hx, hl⟩ |
    ⟨hnext, hp, hx, hzl⟩ | ⟨hnext, hp, hz, hx, hl, hn⟩ | ⟨hnext, hp, hz, hx, hl⟩
  · rw [hp, hz, hx, hl] at hcyc'
    rw [hp, hz, hl] at hstb'
    constructor <;> intro hst' <;> rcases hnext with hnext | hnext <;> simp_all
  · rw [hp] at hcyc' hstb'
    have hnow : acksNow (step s i) = 1 := by
      simp [acksNow, hcyc', hstb', hacks]
    constructor <;> intro hst' <;> simp_all
  · -- a reload starts with all the rows to be asked for
    have hrow : wbRow (step s i).r1 = (step s i).r1.storeRow.rowOfLine := by
      rw [wbRow, step_adr, step_storeRow, hst]
      exact wbRow_addrToWb _
    have hbus : (step s i).r1.wb.cyc = true ∧ (step s i).r1.wb.stb = true := by
      rw [hcyc', hstb']
      rcases hzl with ⟨hz, hl⟩ | ⟨hz, hl, -⟩ <;> simp [hz, hl]
    have hrows : rowsToSend (step s i).r1 = rowsToCome (step s i).r1 := by
      simp [rowsToSend, rowsToCome, hbus, hrow]
    constructor <;> intro hst' <;> simp_all
  · rw [hl] at hcyc' hstb'
    constructor <;> intro hst' <;> simp_all
  · rw [hx] at hcyc'
    rw [hp, hz, hl] at hstb'
    constructor <;> intro hst' <;> simp_all

theorem rowsAfter_step (hst : s.r1.state = .reloadWaitAck) (row : RowInLine g) :
    rowsAfter (step s i).r1 row = rowsAfter s.r1 row := by
  rw [rowsAfter, step_endRowIx, hst, if_neg (by decide), rowsAfter]

theorem rowsToSend_step (hst : s.r1.state = .reloadWaitAck) (hcyc : s.r1.wb.cyc = true) :
    rowsToSend (step s i).r1 + (strobeTaken s i).toNat = rowsToSend s.r1 := by
  have hstb' := step_stb s i
  have hrow : wbRow (step s i).r1 =
      if !i.wishboneIn.stall && s.r1.wb.stb then wbRow s.r1 + 1 else wbRow s.r1 := by
    rw [wbRow, step_adr, hst]
    simp only
    split_ifs
    · exact wbRow_nextRow _
    · rfl
  simp only [hst] at hstb'
  simp only [rowsToSend, strobeTaken, wishboneOut, hcyc, hstb', hrow, rowsAfter_step hst]
  cases hstb : s.r1.wb.stb with
  | false => simp
  | true =>
      cases hstall : i.wishboneIn.stall with
      | true => simp
      | false =>
          by_cases hlast : wbRow s.r1 = s.r1.endRowIx
          · have hbus : isLastRowWbAddr s.r1.wb.adr s.r1.endRowIx = true := by
              simpa [isLastRowWbAddr, wbRow] using hlast
            simp [hbus, rowsAfter, hlast]
          · have hbus : isLastRowWbAddr s.r1.wb.adr s.r1.endRowIx = false := by
              simpa [isLastRowWbAddr, wbRow] using hlast
            have hsucc := rowsAfter_succ s.r1 hlast
            simp [hbus]
            omega

theorem rowsToCome_step (hst : s.r1.state = .reloadWaitAck) (hlast : reloadLast s i = false) :
    rowsToCome (step s i).r1 + i.wishboneIn.ack.toNat = rowsToCome s.r1 := by
  rw [rowsToCome, rowsToCome, rowsAfter_step hst, step_storeRow, hst]
  cases hack : i.wishboneIn.ack with
  | false => simp
  | true =>
      have hne : s.r1.storeRow.rowOfLine ≠ s.r1.endRowIx := by
        simpa [reloadLast, hack, isLastRow, getRowOfLine] using hlast
      have hsucc := rowsAfter_succ s.r1 hne
      simp only [if_true, nextRow, Bool.toNat_true]
      omega

theorem busInv_reload (hb : BusInv s owed) (hack : AckIsOwed i owed)
    (hst : s.r1.state = .reloadWaitAck) : BusInv (step s i) (owedNext s i owed) := by
  obtain ⟨hcyc, hrows⟩ := hb.reload hst
  have hsend := rowsToSend_step (i := i) hst hcyc
  have hstate := step_state s i
  have hcyc' := step_cyc s i
  simp only [hst, hcyc, Bool.and_true] at hstate hcyc'
  cases hlast : reloadLast s i with
  | true =>
      -- the last row is owed, so none is left to be asked for
      have hlast' := hlast
      simp only [reloadLast, Bool.and_eq_true, isLastRow, getRowOfLine, beq_iff_eq] at hlast'
      have hcome : rowsToCome s.r1 = 1 := by simp [rowsToCome, rowsAfter, hlast'.2]
      have hpos := hack hlast'.1
      have hnone : rowsToSend s.r1 = 0 := by omega
      have hstb : s.r1.wb.stb = false := by
        by_contra hs
        simp [rowsToSend, hs] at hnone
      have hstb' : (step s i).r1.wb.stb = false := by simp [step_stb, hst, hstb]
      have howed' : owedNext s i owed = 0 := by
        simp only [owedNext, strobeTaken, wishboneOut, hstb, hlast'.1]
        simp
        omega
      rw [hlast] at hstate hcyc'
      constructor <;> intro hst' <;> simp_all
  | false =>
      have hcome := rowsToCome_step hst hlast
      have hbal : owedNext s i owed + rowsToSend (step s i).r1 = rowsToCome (step s i).r1 := by
        have hpos : i.wishboneIn.ack.toNat ≤ owed := by
          cases ha : i.wishboneIn.ack with
          | false => simp
          | true => exact hack ha
        unfold owedNext
        omega
      rw [hlast] at hstate hcyc'
      constructor <;> intro hst' <;> simp_all

/-- The number of acks that are owed or about to be, after an edge that keeps the
cycle open. -/
theorem owedNext_add_stb (hb : BusInv s owed) (hack : AckIsOwed i owed)
    (hst : s.r1.state = .storeWaitAck) (hexit : storeExit s i = false) :
    owedNext s i owed + (step s i).r1.wb.stb.toNat = (acksNow (step s i)).toNat := by
  obtain ⟨hcyc, hacks⟩ := hb.store hst
  have hcyc' : (step s i).r1.wb.cyc = true := by simp [step_cyc, hst, hexit, hcyc]
  have hstb' : (step s i).r1.wb.stb =
      if i.wishboneIn.stall then s.r1.wb.stb else mergeNow s i := by
    simp [step_stb, hst, hexit]
  have hpos : i.wishboneIn.ack = true → acksNow s ≠ 0 := by
    intro ha h0
    have hlt := hack ha
    rw [h0] at hacks
    simp at hacks
    omega
  have hroom : (step s i).r1.wb.stb = true → i.wishboneIn.stall = false → acksNow s < 7#3 := by
    intro hs hstall
    rw [hstb', hstall] at hs
    simp only [Bool.false_eq_true, if_false, mergeNow, Bool.and_eq_true, decide_eq_true_eq] at hs
    exact hs.2
  rw [acksNow_step hcyc hcyc' hpos hroom, ← hacks]
  have hle : i.wishboneIn.ack.toNat ≤ owed := by
    cases ha : i.wishboneIn.ack with
    | false => simp
    | true => exact hack ha
  unfold owedNext strobeTaken wishboneOut
  rw [hcyc, hstb']
  cases i.wishboneIn.stall <;> cases s.r1.wb.stb <;> cases mergeNow s i <;> simp <;> omega

theorem busInv_store (hb : BusInv s owed) (hack : AckIsOwed i owed)
    (hst : s.r1.state = .storeWaitAck) : BusInv (step s i) (owedNext s i owed) := by
  obtain ⟨hcyc, hacks⟩ := hb.store hst
  have hstate := step_state s i
  have hcyc' := step_cyc s i
  have hstb' := step_stb s i
  simp only [hst, hcyc, Bool.and_true] at hstate hcyc' hstb'
  cases hexit : storeExit s i with
  | true =>
      rw [hexit] at hstate hcyc' hstb'
      have howed' : owedNext s i owed = 0 := by
        have hexit' := hexit
        simp only [storeExit, Bool.and_eq_true, Bool.or_eq_true, beq_iff_eq] at hexit'
        unfold owedNext strobeTaken wishboneOut
        rcases hexit'.2 with h0 | ⟨ha, h1⟩
        · rw [h0] at hacks
          have hnone : owed = 0 ∧ s.r1.wb.stb.toNat = 0 := by
            simp at hacks
            simpa using hacks
          cases hs : s.r1.wb.stb <;> simp_all
        · have hpos := hack ha
          rw [h1] at hacks
          simp at hacks
          cases hs : s.r1.wb.stb with
          | false => simp [ha, hs] at hacks ⊢; omega
          | true => simp [hs] at hacks; omega
      constructor <;> intro hst' <;> simp_all
  | false =>
      have hbal := owedNext_add_stb hb hack hst hexit
      rw [hexit] at hstate hcyc'
      constructor <;> intro hst' <;> simp_all

theorem busInv_ncLoad (hb : BusInv s owed) (hack : AckIsOwed i owed)
    (hst : s.r1.state = .ncLoadWaitAck) : BusInv (step s i) (owedNext s i owed) := by
  obtain ⟨hcyc, hone⟩ := hb.ncLoad hst
  have hstate := step_state s i
  have hcyc' := step_cyc s i
  have hstb' := step_stb s i
  simp only [hst, hcyc, Bool.and_true] at hstate hcyc' hstb'
  have howed' : owedNext s i owed =
      owed + (s.r1.wb.stb && !i.wishboneIn.stall).toNat - i.wishboneIn.ack.toNat := by
    simp [owedNext, strobeTaken, wishboneOut, hcyc]
  cases ha : i.wishboneIn.ack with
  | true =>
      have hpos := hack ha
      have hstb : s.r1.wb.stb = false := by
        cases hs : s.r1.wb.stb with
        | false => rfl
        | true =>
            rw [hs] at hone
            simp at hone
            omega
      rw [ha] at hstate hcyc' hstb' howed'
      rw [hstb] at hone howed'
      constructor <;> intro hst' <;> simp_all
  | false =>
      rw [ha] at hstate hcyc' hstb' howed'
      cases hs : s.r1.wb.stb <;> cases hstall : i.wishboneIn.stall <;>
        (constructor <;> intro hst' <;> simp_all)

theorem busInv_stcx (hb : BusInv s owed) (hack : AckIsOwed i owed)
    (hst : s.r1.state = .doStcx) : BusInv (step s i) (owedNext s i owed) := by
  obtain ⟨hcyc, hstb, howed, hpend, hdec⟩ := hb.stcx hst
  have hno : i.wishboneIn.ack = false := by
    by_contra ha
    have := hack (by simpa using ha)
    omega
  have howed' : owedNext s i owed = 0 := by
    simp [owedNext, strobeTaken, wishboneOut, hstb, howed]
  have hnow : acksNow s = 0 := by simp [acksNow, hcyc, hstb, hpend, hdec]
  obtain ⟨hpend', hstalled', hdec'⟩ := step_acks s i
  have hstate := step_state s i
  have hcyc' := step_cyc s i
  have hstb' := step_stb s i
  simp only [hst, hcyc, hstb, Bool.and_true, Bool.or_false] at hstate hcyc' hstb'
  rw [hnow] at hpend'
  rw [hno] at hdec'
  cases hlost : stcxLost s <;> cases hstall : i.wishboneIn.stall <;>
    rw [hlost] at hstate hcyc' hstb' <;> rw [hstall] at hstate hstb' hstalled' <;>
    (constructor <;> intro hst' <;> simp_all [acksNow])

/-- An edge at which the slave acks nothing that it does not owe preserves the
balance. -/
theorem busInv_step (h : MachInv s) (hack : AckIsOwed i owed) (hb : BusInv s owed) :
    BusInv (step s i) (owedNext s i owed) := by
  cases hst : s.r1.state with
  | idle => exact busInv_idle h hb hst
  | reloadWaitAck => exact busInv_reload hb hack hst
  | storeWaitAck => exact busInv_store hb hack hst
  | ncLoadWaitAck => exact busInv_ncLoad hb hack hst
  | doStcx => exact busInv_stcx hb hack hst
  | flushCycle =>
      obtain ⟨hcyc, hstb, howed⟩ := hb.closed (Or.inr hst)
      have howed' : owedNext s i owed = 0 := by
        simp [owedNext, strobeTaken, wishboneOut, hcyc, howed]
      have hstate := step_state s i
      have hcyc' := step_cyc s i
      have hstb' := step_stb s i
      simp only [hst, hcyc, hstb] at hstate hcyc' hstb'
      constructor <;> intro hst' <;> simp_all

theorem busInv_of_quiet (h : Quiet s) : BusInv s 0 where
  closed := fun _ => ⟨h.cyc, h.stb, rfl⟩
  reload := by simp [h.state]
  store := by simp [h.state]
  ncLoad := by simp [h.state]
  stcx := by simp [h.state]

end Microwatt.Dcache
