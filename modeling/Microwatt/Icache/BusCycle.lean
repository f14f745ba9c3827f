import Microwatt.Lib.Bits
import Microwatt.Icache.Reload

/-!
# Reads in flight when the icache ends a bus cycle

The reload machine keeps no count of the reads in flight: it compares the row of the next read with
the row of the next ack.  Both wrap within the line, so none in flight and all of them in flight
look the same.
-/

namespace Microwatt.Icache

open Clocked

variable {g : Geometry}

/-- The reload machine with the reads that the slave has accepted and not acked. -/
structure Sys (g : Geometry) where
  st : State g
  inFlight : Nat

/-- The slave accepts a read. -/
def accepted (s : State g) (i : Input g) : Bool :=
  s.wb.cyc && s.wb.stb && !i.wishboneIn.stall

namespace Sys

variable (x : Sys g) (i : Input g)

/-- The reads in flight after a cycle. -/
def inFlightNext : Nat :=
  if i.rst then 0 else x.inFlight + (accepted x.st i).toNat - i.wishboneIn.ack.toNat

def step : Sys g where
  st := Icache.step x.st i
  inFlight := x.inFlightNext i

/-- The slave acks only reads that it has accepted, at once or later. -/
def AckIsOwed : Prop :=
  i.rst = false → i.wishboneIn.ack = true → 0 < x.inFlight + (accepted x.st i).toNat

instance : Decidable (x.AckIsOwed i) :=
  inferInstanceAs (Decidable (_ → _ → _))

/-- In this cycle the bus cycle does not end with reads in flight, and none starts with reads in
flight. -/
def CycleKept : Prop :=
  i.rst = false →
    (x.st.wb.cyc = true → (x.step i).st.wb.cyc = false → (x.step i).inFlight = 0) ∧
    (x.st.wb.cyc = false → (x.step i).st.wb.cyc = true → x.inFlight = 0)

instance : Decidable (x.CycleKept i) :=
  inferInstanceAs (Decidable (_ → _ ∧ _))

/-- An aborted reload does not wait with all the reads of its line in flight. -/
def NotAllInFlight : Prop :=
  i.rst = false → x.st.state = .stopReload → x.inFlight ≠ 2 ^ g.rowLinebits

instance : Decidable (x.NotAllInFlight i) :=
  inferInstanceAs (Decidable (_ → _ → _))

end Sys

/-! ## Rows -/

/-- The row of the line that the bus address asks for. -/
def wbRow (s : State g) : RowInLine g :=
  s.wb.adr.extractLsb' 0 g.rowLinebits

/-- The rows of the line after `row`. -/
def rowsAfter (s : State g) (row : RowInLine g) : Nat :=
  (s.endRowIx - row).toNat

/-- The rows that are still to be asked for. -/
def rowsToSend (s : State g) : Nat :=
  if s.wb.stb then rowsAfter s (wbRow s) + 1 else 0

/-- The rows that are still to arrive. -/
def rowsToCome (s : State g) : Nat :=
  if s.wb.cyc then rowsAfter s s.recvRow.rowOfLine + 1 else 0

theorem rowsAfter_succ (s : State g) {row : RowInLine g} (h : row ≠ s.endRowIx) :
    rowsAfter s (row + 1) + 1 = rowsAfter s row :=
  Bits.toNat_sub_succ g.rowLinebits_pos h

theorem rowsAfter_end (s : State g) : rowsAfter s s.endRowIx = 0 := by
  simp [rowsAfter]

theorem rowsAfter_lt (s : State g) (row : RowInLine g) : rowsAfter s row < 2 ^ g.rowLinebits :=
  (s.endRowIx - row).isLt

theorem extract_nextRowWbAddr (a : WbAddr) :
    (nextRowWbAddr g a).extractLsb' 0 g.rowLinebits = a.extractLsb' 0 g.rowLinebits + 1 := by
  have hle := g.rowLinebits_le
  apply BitVec.eq_of_getLsbD_eq
  intro k hk
  have hlt : k < 29 := by omega
  simp [nextRowWbAddr, hk, hlt]

theorem rowOfLine_wbToAddr (a : WbAddr) :
    getRowOfLine (getRow (g := g) (wbToAddr a)) = a.extractLsb' 0 g.rowLinebits := by
  have hle := g.rowLinebits_le
  apply BitVec.eq_of_getLsbD_eq
  intro k hk
  have hlt : k < 29 := by omega
  have hbit : (0#32 ++ a ++ 0#3 : BitVec (32 + 29 + 3)).getLsbD (3 + k) = a.getLsbD k := by
    rw [BitVec.getLsbD_append, if_neg (by omega), BitVec.getLsbD_append, if_pos (by omega)]
    congr 1
    omega
  simp only [getRowOfLine, getRow, wbToAddr, BitVec.getLsbD_extractLsb', hk, decide_true,
    Bool.true_and, Nat.zero_add]
  exact hbit

theorem extract_addrToWb (i : Input g) :
    (addrToWb i.reqRaddr).extractLsb' 0 g.rowLinebits =
      (getRow (g := g) i.reqRaddr).rowOfLine := by
  have hle := g.rowLinebits_le
  apply BitVec.eq_of_getLsbD_eq
  intro k hk
  have hlt : k < 29 := by omega
  simp [addrToWb, getRow, hk, hlt]

/-! ## The registers after a cycle -/

section

variable {s : State g} {i : Input g}

/-- The states in which rows are asked for. -/
def Reloads (s : State g) : Prop :=
  s.state = .clrTag ∨ s.state = .waitAck

theorem step_of_reloads (hr : i.rst = false) (h : Reloads s) :
    step s i = reloadWaitAck s i (snoop s i) := by
  rcases h with h | h <;> simp [step, hr, h]

theorem step_of_stop (hr : i.rst = false) (h : s.state = .stopReload) :
    step s i = reloadStop s i (snoop s i) := by
  simp [step, hr, h]

/-- The state and the bus after a cycle of a reload. -/
theorem reloads_step (hr : i.rst = false) (h : Reloads s) :
    (step s i).state =
        (if i.invalIn then .stopReload
        else if s.recvValid && isLastRow s.storeRow s.endRowIx then .idle else .waitAck) ∧
    (step s i).wb.cyc = (s.wb.cyc && !(i.wishboneIn.ack && isLastRow s.recvRow s.endRowIx)) ∧
    (step s i).wb.stb = (s.wb.stb && !i.invalIn &&
      !(!i.wishboneIn.stall && isLastRowWbAddr s.wb.adr s.endRowIx)) ∧
    (step s i).wb.adr =
      (if !i.wishboneIn.stall && s.wb.stb then nextRowWbAddr g s.wb.adr else s.wb.adr) ∧
    (step s i).recvRow = (if i.wishboneIn.ack then nextRow s.recvRow else s.recvRow) ∧
    (step s i).recvValid = i.wishboneIn.ack ∧
    (step s i).storeRow = (if s.recvValid then s.recvRow else s.storeRow) ∧
    (step s i).endRowIx = s.endRowIx := by
  rw [step_of_reloads hr h]
  have hwait : (if s.state = .clrTag then ReloadState.waitAck else s.state) = .waitAck := by
    rcases h with h | h <;> simp [h]
  refine ⟨?_, ?_, ?_, ?_, ?_, ?_, ?_, ?_⟩ <;>
    simp only [reloadWaitAck, reloadClrTag, reloadWrite, reloadSend, reloadAck, snoop,
      apply_ite State.state, apply_ite State.wb, apply_ite WishboneMasterOut.cyc,
      apply_ite WishboneMasterOut.stb, apply_ite WishboneMasterOut.adr, apply_ite State.recvRow,
      apply_ite State.recvValid, apply_ite State.storeRow, apply_ite State.endRowIx, ite_self]
  · rw [hwait]
    cases s.recvValid <;> simp
  · cases i.wishboneIn.ack <;> cases isLastRow s.recvRow s.endRowIx <;> simp
  · cases i.invalIn <;> cases i.wishboneIn.stall <;> cases s.wb.stb <;>
      cases isLastRowWbAddr s.wb.adr s.endRowIx <;> simp
  · cases i.wishboneIn.ack <;> rfl

/-- While a reload is being stopped, nothing is asked for. -/
theorem stop_step (hr : i.rst = false) (h : s.state = .stopReload) :
    (step s i).state = (if s.recvRow.rowOfLine = wbRow s then .idle else .stopReload) ∧
    (step s i).wb.cyc = (s.wb.cyc && decide (s.recvRow.rowOfLine ≠ wbRow s)) ∧
    (step s i).wb.stb = s.wb.stb ∧ (step s i).wb.adr = s.wb.adr ∧
    (step s i).recvRow = (if i.wishboneIn.ack then nextRow s.recvRow else s.recvRow) ∧
    (step s i).recvValid = false := by
  have hrow : getRowOfLine s.recvRow = getRowOfLine (getRow (g := g) (wbToAddr s.wb.adr)) ↔
      s.recvRow.rowOfLine = wbRow s := by
    rw [rowOfLine_wbToAddr]
    rfl
  rw [step_of_stop hr h]
  refine ⟨?_, ?_, ?_, ?_, ?_, ?_⟩ <;>
    simp only [reloadStop, snoop, hrow, apply_ite State.state, apply_ite State.wb,
      apply_ite WishboneMasterOut.cyc, apply_ite WishboneMasterOut.stb,
      apply_ite WishboneMasterOut.adr, apply_ite State.recvRow, apply_ite State.recvValid,
      ite_self, h]
  by_cases heq : s.recvRow.rowOfLine = wbRow s <;> simp [heq]

/-- A miss starts a reload; else the machine stays. -/
theorem idle_step (hr : i.rst = false) (h : s.state = .idle) :
    if i.reqIsMiss then
      (step s i).state = .clrTag ∧ (step s i).wb.cyc = true ∧ (step s i).wb.stb = true ∧
      wbRow (step s i) = (step s i).recvRow.rowOfLine ∧
      (step s i).storeRow = (step s i).recvRow ∧
      (step s i).endRowIx = (step s i).recvRow.rowOfLine - 1 ∧ (step s i).recvValid = false
    else
      (step s i).state = .idle ∧ (step s i).wb = s.wb ∧ (step s i).recvValid = false := by
  have hstep : step s i = reloadIdle i (snoop s i) := by simp [step, hr, h]
  rw [hstep]
  cases hm : i.reqIsMiss with
  | true =>
      simp only [reloadIdle, hm, if_true, wbRow, snoop, true_and, and_true]
      exact ⟨extract_addrToWb i, rfl⟩
  | false =>
      simp only [reloadIdle, hm, Bool.false_eq_true, if_false, snoop, and_true]
      exact h

theorem reset_step (hr : i.rst = true) :
    (step s i).state = .idle ∧ (step s i).wb.cyc = false ∧ (step s i).wb.stb = false ∧
    (step s i).recvValid = false := by
  simp [step, hr, resetReload]

end

/-! ## What is in flight -/

/-- A reload that goes on: the rows in flight and those not yet asked for are the rows still to
arrive, and the row that is written is the one before the next to arrive. -/
structure Reloading (s : State g) (n : Nat) : Prop where
  count : n + rowsToSend s = rowsToCome s
  sent : s.wb.stb = false → wbRow s = s.endRowIx + 1
  closed : s.wb.cyc = false → s.recvRow.rowOfLine = wbRow s
  store : s.recvRow.rowOfLine =
    if s.recvValid then s.storeRow.rowOfLine + 1 else s.storeRow.rowOfLine
  last : s.wb.cyc = true → s.recvValid = true → s.storeRow.rowOfLine ≠ s.endRowIx

/-- A reload that is being stopped. -/
structure Stopping (s : State g) (n : Nat) : Prop where
  stb : s.wb.stb = false
  rows : s.recvRow.rowOfLine + BitVec.ofNat _ n = wbRow s
  le : n ≤ 2 ^ g.rowLinebits
  closed : s.wb.cyc = false → n = 0

structure BusInv (x : Sys g) : Prop where
  idle : x.st.state = .idle →
    x.st.wb.cyc = false ∧ x.st.wb.stb = false ∧ x.st.recvValid = false ∧ x.inFlight = 0
  reload : Reloads x.st → Reloading x.st x.inFlight
  stop : x.st.state = .stopReload → Stopping x.st x.inFlight

section

variable {s : State g} {i : Input g} {n : Nat}

theorem Reloading.cyc_of_stb (h : Reloading s n) (hstb : s.wb.stb = true) : s.wb.cyc = true := by
  by_contra hc
  have := h.count
  simp [rowsToSend, rowsToCome, hstb, hc] at this

theorem Reloading.accepted_eq (h : Reloading s n) :
    accepted s i = (!i.wishboneIn.stall && s.wb.stb) := by
  cases hstb : s.wb.stb with
  | false => simp [accepted, hstb]
  | true => simp [accepted, hstb, h.cyc_of_stb hstb]

/-- Modulo the line, the next ack and the next read are as far apart as there are reads in
flight. -/
theorem Reloading.rows (h : Reloading s n) :
    s.recvRow.rowOfLine + BitVec.ofNat _ n = wbRow s := by
  cases hcyc : s.wb.cyc with
  | false =>
      have hn : n = 0 := by
        have := h.count
        simp only [rowsToCome, hcyc, Bool.false_eq_true, if_false] at this
        omega
      rw [hn, h.closed hcyc, BitVec.add_zero]
  | true =>
      have hcount := h.count
      simp only [rowsToCome, hcyc, if_true] at hcount
      have hcome : BitVec.ofNat g.rowLinebits (n + rowsToSend s) =
          s.endRowIx - s.recvRow.rowOfLine + 1 := by
        rw [hcount, rowsAfter, BitVec.ofNat_add, BitVec.ofNat_toNat, BitVec.setWidth_eq]
        rfl
      rw [BitVec.ofNat_add] at hcome
      cases hstb : s.wb.stb with
      | false =>
          have hsent := h.sent hstb
          have hzero : BitVec.ofNat g.rowLinebits (rowsToSend s) = 0 := by simp [rowsToSend, hstb]
          rw [hzero] at hcome
          grind
      | true =>
          have hsend : BitVec.ofNat g.rowLinebits (rowsToSend s) = s.endRowIx - wbRow s + 1 := by
            rw [rowsToSend, hstb, if_pos rfl, rowsAfter, BitVec.ofNat_add, BitVec.ofNat_toNat,
              BitVec.setWidth_eq]
            rfl
          rw [hsend] at hcome
          grind

theorem wbRow_step (hr : i.rst = false) (h : Reloads s) :
    wbRow (step s i) = if !i.wishboneIn.stall && s.wb.stb then wbRow s + 1 else wbRow s := by
  obtain ⟨-, -, -, hadr, -⟩ := reloads_step hr h
  rw [wbRow, hadr]
  split_ifs
  · exact extract_nextRowWbAddr _
  · rfl

theorem recvRow_step (hr : i.rst = false) (h : Reloads s) : (step s i).recvRow.rowOfLine =
    if i.wishboneIn.ack then s.recvRow.rowOfLine + 1 else s.recvRow.rowOfLine := by
  obtain ⟨-, -, -, -, hrecv, -⟩ := reloads_step hr h
  rw [hrecv]
  split_ifs <;> rfl

theorem rowsAfter_step (hr : i.rst = false) (h : Reloads s) (row : RowInLine g) :
    rowsAfter (step s i) row = rowsAfter s row := by
  obtain ⟨-, -, -, -, -, -, -, hend⟩ := reloads_step hr h
  rw [rowsAfter, hend, rowsAfter]

/-- A read that is accepted is one less to ask for. -/
theorem Reloading.send_step (h : Reloading s n) (hr : i.rst = false) (hs : Reloads s)
    (hi : i.invalIn = false) :
    rowsToSend (step s i) + (accepted s i).toNat = rowsToSend s := by
  obtain ⟨-, -, hstb', -⟩ := reloads_step hr hs
  rw [h.accepted_eq]
  simp only [rowsToSend, rowsAfter_step hr hs, hstb', wbRow_step hr hs, hi]
  cases hstb : s.wb.stb with
  | false => simp
  | true =>
      cases i.wishboneIn.stall with
      | true => simp
      | false =>
          by_cases hlast : wbRow s = s.endRowIx
          · have hl : isLastRowWbAddr s.wb.adr s.endRowIx = true := beq_iff_eq.mpr hlast
            simp [hl, hlast, rowsAfter_end]
          · have hl : isLastRowWbAddr s.wb.adr s.endRowIx = false := beq_false_of_ne hlast
            simpa [hl] using rowsAfter_succ s hlast

/-- An ack is one less to come. -/
theorem Reloading.come_step (hr : i.rst = false) (hs : Reloads s) (hcyc : s.wb.cyc = true) :
    rowsToCome (step s i) + i.wishboneIn.ack.toNat = rowsToCome s := by
  obtain ⟨-, hcyc', -⟩ := reloads_step hr hs
  simp only [rowsToCome, rowsAfter_step hr hs, hcyc', recvRow_step hr hs, hcyc]
  cases i.wishboneIn.ack with
  | false => simp
  | true =>
      by_cases hlast : s.recvRow.rowOfLine = s.endRowIx
      · have hl : isLastRow s.recvRow s.endRowIx = true := beq_iff_eq.mpr hlast
        simp [hl, hlast, rowsAfter_end]
      · have hl : isLastRow s.recvRow s.endRowIx = false := beq_false_of_ne hlast
        simpa [hl] using rowsAfter_succ s hlast

/-- The reads in flight after a cycle, as the distance of the rows. -/
theorem Reloading.rows_step {x : Sys g} (h : Reloading x.st x.inFlight) (hr : i.rst = false)
    (hs : Reloads x.st) (hack : x.AckIsOwed i) :
    (x.step i).st.recvRow.rowOfLine + BitVec.ofNat _ (x.step i).inFlight = wbRow (x.step i).st := by
  have hrows := h.rows
  have hacc : accepted x.st i = (!i.wishboneIn.stall && x.st.wb.stb) := h.accepted_eq
  have hn : (x.step i).inFlight + i.wishboneIn.ack.toNat =
      x.inFlight + (accepted x.st i).toNat := by
    have hle := hack hr
    simp only [Sys.step, Sys.inFlightNext, hr, Bool.false_eq_true, if_false]
    cases ha : i.wishboneIn.ack with
    | false => simp
    | true =>
        have := hle ha
        simp only [Bool.toNat_true]
        omega
  have hmod : BitVec.ofNat g.rowLinebits (x.step i).inFlight +
        BitVec.ofNat g.rowLinebits i.wishboneIn.ack.toNat =
      BitVec.ofNat g.rowLinebits x.inFlight +
        BitVec.ofNat g.rowLinebits (accepted x.st i).toNat := by
    rw [← BitVec.ofNat_add, hn, BitVec.ofNat_add]
  have hrecv : (x.step i).st.recvRow.rowOfLine =
      x.st.recvRow.rowOfLine + BitVec.ofNat _ i.wishboneIn.ack.toNat := by
    refine (recvRow_step hr hs).trans ?_
    cases i.wishboneIn.ack
    · simp
    · rfl
  have hwb : wbRow (x.step i).st = wbRow x.st + BitVec.ofNat _ (accepted x.st i).toNat := by
    refine (wbRow_step hr hs).trans ?_
    rw [hacc]
    cases !i.wishboneIn.stall && x.st.wb.stb
    · simp
    · rfl
  rw [hrecv, hwb, ← hrows]
  grind

/-- No more reads are in flight than rows are still to come. -/
theorem Reloading.inFlight_le {x : Sys g} (h : Reloading x.st x.inFlight) (hr : i.rst = false)
    (hs : Reloads x.st) :
    (x.step i).inFlight ≤ rowsToCome (x.step i).st := by
  have hcount := h.count
  have hn : (x.step i).inFlight =
      x.inFlight + (accepted x.st i).toNat - i.wishboneIn.ack.toNat := by
    simp [Sys.step, Sys.inFlightNext, hr]
  have hsend : (accepted x.st i).toNat ≤ rowsToSend x.st := by
    rw [h.accepted_eq]
    simp only [rowsToSend]
    cases x.st.wb.stb <;> cases i.wishboneIn.stall <;> simp
  cases hcyc : x.st.wb.cyc with
  | false =>
      have hzero : rowsToCome x.st = 0 := by simp [rowsToCome, hcyc]
      omega
  | true =>
      have hcome : rowsToCome (x.step i).st + i.wishboneIn.ack.toNat = rowsToCome x.st :=
        Reloading.come_step hr hs hcyc
      omega

theorem rowsToCome_le (s : State g) : rowsToCome s ≤ 2 ^ g.rowLinebits := by
  unfold rowsToCome
  split_ifs
  · exact rowsAfter_lt _ _
  · exact Nat.zero_le _

/-- The row that is written next is the one that is awaited now. -/
theorem Reloading.storeRow_step (h : Reloading s n) (hr : i.rst = false) (hs : Reloads s) :
    (step s i).storeRow.rowOfLine = s.recvRow.rowOfLine := by
  obtain ⟨-, -, -, -, -, -, hstore', -⟩ := reloads_step hr hs
  rw [hstore']
  have hst := h.store
  cases hv : s.recvValid with
  | false => simpa [hv] using hst.symm
  | true => rfl

/-- A reload that goes on. -/
theorem Reloading.step {x : Sys g} (h : Reloading x.st x.inFlight) (hr : i.rst = false)
    (hs : Reloads x.st) (hack : x.AckIsOwed i) (hi : i.invalIn = false) :
    Reloading (x.step i).st (x.step i).inFlight := by
  obtain ⟨-, hcyc', hstb', -, -, hvalid', -, hend'⟩ := reloads_step (i := i) hr hs
  have hstore : (x.step i).st.storeRow.rowOfLine = x.st.recvRow.rowOfLine := h.storeRow_step hr hs
  have hrecv := recvRow_step (i := i) hr hs
  have hle := h.inFlight_le hr hs
  refine ⟨?_, ?_, ?_, ?_, ?_⟩
  · have hn : (x.step i).inFlight =
        x.inFlight + (accepted x.st i).toNat - i.wishboneIn.ack.toNat := by
      simp [Sys.step, Sys.inFlightNext, hr]
    have hsend : rowsToSend (x.step i).st + (accepted x.st i).toNat = rowsToSend x.st :=
      h.send_step hr hs hi
    have hcount := h.count
    have howed := hack hr
    cases hcyc : x.st.wb.cyc with
    | false =>
        have hzero : rowsToCome x.st = 0 := by simp [rowsToCome, hcyc]
        have hzero' : rowsToCome (x.step i).st = 0 := by
          simp only [rowsToCome, Sys.step, hcyc', hcyc, Bool.false_and, Bool.false_eq_true,
            if_false]
        omega
    | true =>
        have hcome : rowsToCome (x.step i).st + i.wishboneIn.ack.toNat = rowsToCome x.st :=
          Reloading.come_step hr hs hcyc
        cases ha : i.wishboneIn.ack with
        | false =>
            simp only [ha, Bool.toNat_false] at hn hcome
            omega
        | true =>
            have := howed ha
            simp only [ha, Bool.toNat_true] at hn hcome
            omega
  · intro hstb
    have hrow : wbRow (x.step i).st =
        if !i.wishboneIn.stall && x.st.wb.stb then wbRow x.st + 1 else wbRow x.st :=
      wbRow_step hr hs
    rw [show (x.step i).st.endRowIx = x.st.endRowIx from hend', hrow]
    have hstb'' := hstb'.symm.trans hstb
    rw [hi] at hstb''
    cases hsb : x.st.wb.stb with
    | false => simpa using h.sent hsb
    | true =>
        simp only [hsb, Bool.not_false, Bool.and_true, Bool.true_and, Bool.not_eq_false',
          Bool.and_eq_true, Bool.not_eq_true'] at hstb''
        obtain ⟨hstall, hlast⟩ := hstb''
        have hlast' : wbRow x.st = x.st.endRowIx := beq_iff_eq.mp hlast
        simp [hstall, hlast']
  · intro hcyc
    have hzero : (x.step i).inFlight = 0 := by
      have : rowsToCome (x.step i).st = 0 := by simp [rowsToCome, hcyc]
      omega
    have hrows := h.rows_step hr hs hack
    rw [hzero, BitVec.add_zero] at hrows
    exact hrows
  · rw [hstore, show (x.step i).st.recvValid = i.wishboneIn.ack from hvalid']
    exact hrecv
  · intro hcyc hv hlast
    have ha : i.wishboneIn.ack = true := hvalid'.symm.trans hv
    have hl : isLastRow x.st.recvRow x.st.endRowIx = true :=
      beq_iff_eq.mpr (hstore.symm.trans (hlast.trans hend'))
    have := hcyc'.symm.trans hcyc
    simp [ha, hl] at this

/-- A reload that is aborted. -/
theorem Reloading.abort {x : Sys g} (h : Reloading x.st x.inFlight) (hr : i.rst = false)
    (hs : Reloads x.st) (hack : x.AckIsOwed i) (hi : i.invalIn = true) :
    Stopping (x.step i).st (x.step i).inFlight := by
  obtain ⟨-, hcyc', hstb', -⟩ := reloads_step (i := i) hr hs
  have hle := h.inFlight_le hr hs
  refine ⟨?_, h.rows_step hr hs hack, hle.trans (rowsToCome_le _), ?_⟩
  · refine hstb'.trans ?_
    simp [hi]
  · intro hcyc
    have : rowsToCome (x.step i).st = 0 := by simp [rowsToCome, hcyc]
    omega

/-- When the last row is written, nothing is in flight any more. -/
theorem Reloading.finish {x : Sys g} (h : Reloading x.st x.inFlight) (hr : i.rst = false)
    (hs : Reloads x.st) (hack : x.AckIsOwed i) (hst : (x.step i).st.state = .idle) :
    (x.step i).st.wb.cyc = false ∧ (x.step i).st.wb.stb = false ∧
    (x.step i).st.recvValid = false ∧ (x.step i).inFlight = 0 := by
  obtain ⟨hstate, hcyc', hstb', -, -, hvalid', -, -⟩ := reloads_step (i := i) hr hs
  have hlast : x.st.recvValid = true ∧ x.st.storeRow.rowOfLine = x.st.endRowIx := by
    have hidle := hstate.symm.trans hst
    split_ifs at hidle with hi hl
    simp only [Bool.and_eq_true, isLastRow, getRowOfLine, beq_iff_eq] at hl
    exact hl
  have hcyc : x.st.wb.cyc = false := by
    by_contra hc
    exact h.last (by simpa using hc) hlast.1 hlast.2
  have hstb : x.st.wb.stb = false := by
    by_contra hc
    rw [h.cyc_of_stb (by simpa using hc)] at hcyc
    cases hcyc
  have hzero : x.inFlight = 0 := by
    have := h.count
    simp only [rowsToCome, hcyc, Bool.false_eq_true, if_false] at this
    omega
  have hacc : accepted x.st i = false := by simp [accepted, hcyc]
  have hno : i.wishboneIn.ack = false := by
    by_contra hc
    have := hack hr (by simpa using hc)
    simp [hzero, hacc] at this
  refine ⟨?_, ?_, ?_, ?_⟩
  · exact hcyc'.trans (by simp [hcyc])
  · exact hstb'.trans (by simp [hstb])
  · exact hvalid'.trans hno
  · simp [Sys.step, Sys.inFlightNext, hzero, hacc]

/-- Fewer reads in flight than rows in a line are none when the rows are the same. -/
theorem Stopping.none_of_rows (h : Stopping s n) (hn : n ≠ 2 ^ g.rowLinebits)
    (heq : s.recvRow.rowOfLine = wbRow s) : n = 0 := by
  have hlt : n < 2 ^ g.rowLinebits := lt_of_le_of_ne h.le hn
  have hrows := h.rows
  rw [← heq] at hrows
  have hzero : BitVec.ofNat g.rowLinebits n = 0 := by grind
  have htoNat := congrArg BitVec.toNat hzero
  rw [BitVec.toNat_ofNat, Nat.mod_eq_of_lt hlt] at htoNat
  simpa using htoNat

theorem Stopping.rows_of_all (h : Stopping s n) (hn : n = 2 ^ g.rowLinebits) :
    s.recvRow.rowOfLine = wbRow s := by
  have hrows := h.rows
  have hzero : BitVec.ofNat g.rowLinebits n = 0 := by
    apply BitVec.eq_of_toNat_eq
    rw [BitVec.toNat_ofNat, hn, Nat.mod_self]
    rfl
  rw [hzero] at hrows
  grind

/-- A cycle of a reload that is being stopped. -/
theorem Stopping.step {x : Sys g} (h : Stopping x.st x.inFlight) (hr : i.rst = false)
    (hst : x.st.state = .stopReload) (hack : x.AckIsOwed i)
    (hn : x.inFlight ≠ 2 ^ g.rowLinebits) :
    (x.st.recvRow.rowOfLine = wbRow x.st → (x.step i).st.wb.cyc = false ∧ (x.step i).inFlight = 0) ∧
    (x.st.recvRow.rowOfLine ≠ wbRow x.st → Stopping (x.step i).st (x.step i).inFlight) := by
  obtain ⟨-, hcyc', hstb', hadr', hrecv', -⟩ := stop_step (i := i) hr hst
  have hacc : accepted x.st i = false := by simp [accepted, h.stb]
  have hn' : (x.step i).inFlight = x.inFlight - i.wishboneIn.ack.toNat := by
    simp [Sys.step, Sys.inFlightNext, hr, hacc]
  have howed : i.wishboneIn.ack = true → 0 < x.inFlight := by
    intro ha
    simpa [hacc] using hack hr ha
  constructor
  · intro heq
    have hzero := h.none_of_rows hn heq
    refine ⟨hcyc'.trans (by simp [heq]), ?_⟩
    rw [hn', hzero, Nat.zero_sub]
  · intro hne
    have hrow : wbRow (x.step i).st = wbRow x.st := congrArg (·.extractLsb' 0 g.rowLinebits) hadr'
    have hle : (x.step i).inFlight ≤ x.inFlight := by omega
    refine ⟨hstb'.trans h.stb, ?_, hle.trans h.le, ?_⟩
    · rw [hrow, ← h.rows, show (x.step i).st.recvRow = _ from hrecv']
      cases ha : i.wishboneIn.ack with
      | false =>
          have hsame : (x.step i).inFlight = x.inFlight := by simp [hn', ha]
          rw [hsame]
          rfl
      | true =>
          have hpos := howed ha
          have hsucc : x.inFlight = (x.step i).inFlight + 1 := by
            simp only [hn', ha, Bool.toNat_true]
            omega
          rw [hsucc, BitVec.ofNat_add]
          simp only [if_true, nextRow]
          have hone : BitVec.ofNat g.rowLinebits 1 = 1 := rfl
          rw [hone]
          grind
    · intro hcyc
      have hcyc0 : x.st.wb.cyc = false := by
        have := hcyc'.symm.trans hcyc
        simpa [hne] using this
      have := h.closed hcyc0
      omega

theorem busInv_reset {x : Sys g} (hr : i.rst = true) : BusInv (x.step i) := by
  obtain ⟨hst, hcyc, hstb, hv⟩ := reset_step (s := x.st) hr
  have hzero : (x.step i).inFlight = 0 := by simp [Sys.step, Sys.inFlightNext, hr]
  refine ⟨fun _ => ⟨hcyc, hstb, hv, hzero⟩, ?_, ?_⟩
  · rintro (h | h)
    · cases hst.symm.trans h
    · cases hst.symm.trans h
  · intro h
    cases hst.symm.trans h

theorem BusInv.of_idle {x : Sys g} (hst : x.st.state = .idle) (hcyc : x.st.wb.cyc = false)
    (hstb : x.st.wb.stb = false) (hv : x.st.recvValid = false) (hn : x.inFlight = 0) :
    BusInv x where
  idle _ := ⟨hcyc, hstb, hv, hn⟩
  reload h := by rcases h with h | h <;> cases hst.symm.trans h
  stop h := by cases hst.symm.trans h

/-- A cycle in which no reload is under way. -/
theorem BusInv.idle_step {x : Sys g} (h : BusInv x) (hr : i.rst = false)
    (hst : x.st.state = .idle) :
    BusInv (x.step i) ∧ (x.step i).inFlight = 0 := by
  obtain ⟨hcyc, hstb, hv, hn⟩ := h.idle hst
  have hacc : accepted x.st i = false := by simp [accepted, hcyc]
  have hn' : (x.step i).inFlight = 0 := by simp [Sys.step, Sys.inFlightNext, hn, hacc]
  have hidle := Icache.idle_step hr hst
  refine ⟨?_, hn'⟩
  split_ifs at hidle with hm
  · obtain ⟨hst', hcyc', hstb', hrow, hstore, hend, hv'⟩ := hidle
    refine ⟨fun h => ?_, fun _ => ⟨?_, ?_, ?_, ?_, ?_⟩, fun h => ?_⟩
    · cases hst'.symm.trans h
    · have hsend : rowsToSend (x.step i).st = rowsToCome (x.step i).st := by
        simp only [rowsToSend, rowsToCome, Sys.step, hcyc', hstb', hrow]
      rw [hn', hsend, Nat.zero_add]
    · intro hc
      cases hstb'.symm.trans hc
    · intro hc
      cases hcyc'.symm.trans hc
    · show (Icache.step x.st i).recvRow.rowOfLine = _
      simp only [Sys.step, hv', Bool.false_eq_true, if_false, hstore]
    · intro _ hc
      cases hv'.symm.trans hc
    · cases hst'.symm.trans h
  · obtain ⟨hst', hwb', hv'⟩ := hidle
    refine .of_idle hst' ?_ ?_ hv' hn'
    · exact (congrArg WishboneMasterOut.cyc hwb').trans hcyc
    · exact (congrArg WishboneMasterOut.stb hwb').trans hstb

/-- A cycle of a reload. -/
theorem BusInv.reloads_step {x : Sys g} (h : BusInv x) (hr : i.rst = false) (hs : Reloads x.st)
    (hack : x.AckIsOwed i) : BusInv (x.step i) := by
  have hre := h.reload hs
  obtain ⟨hst', -⟩ := Icache.reloads_step (i := i) hr hs
  refine ⟨fun hc => hre.finish hr hs hack hc, fun hc => ?_, fun hc => ?_⟩
  · cases hi : i.invalIn with
    | false => exact hre.step hr hs hack hi
    | true =>
        rw [hi, if_pos rfl] at hst'
        rcases hc with hc | hc <;> cases hst'.symm.trans hc
  · cases hi : i.invalIn with
    | true => exact hre.abort hr hs hack hi
    | false =>
        rw [hi, if_neg Bool.false_ne_true] at hst'
        split_ifs at hst' <;> cases hst'.symm.trans hc

/-- A reload ends its bus cycle with the last ack, and starts none. -/
theorem Reloading.kept {x : Sys g} (h : Reloading x.st x.inFlight) (hr : i.rst = false)
    (hs : Reloads x.st) :
    (x.st.wb.cyc = true → (x.step i).st.wb.cyc = false → (x.step i).inFlight = 0) ∧
    (x.st.wb.cyc = false → (x.step i).st.wb.cyc = true → x.inFlight = 0) := by
  obtain ⟨-, hcyc', -⟩ := Icache.reloads_step (i := i) hr hs
  refine ⟨fun _ hc' => ?_, fun hc hc' => ?_⟩
  · have hle := h.inFlight_le hr hs
    have hzero : rowsToCome (x.step i).st = 0 := by simp [rowsToCome, hc']
    omega
  · have hc'' := hcyc'.symm.trans hc'
    simp [hc] at hc''

theorem BusInv.step {x : Sys g} (h : BusInv x) (hack : x.AckIsOwed i) (hall : x.NotAllInFlight i) :
    BusInv (x.step i) := by
  cases hr : i.rst with
  | true => exact busInv_reset hr
  | false =>
      cases hst : x.st.state with
      | idle => exact (h.idle_step hr hst).1
      | stopReload =>
          obtain ⟨hend, hgo⟩ := (h.stop hst).step hr hst hack (hall hr hst)
          obtain ⟨hst', -, hstb', -, -, hv'⟩ := stop_step (i := i) hr hst
          by_cases heq : x.st.recvRow.rowOfLine = wbRow x.st
          · obtain ⟨hcyc', hn'⟩ := hend heq
            exact .of_idle (hst'.trans (if_pos heq)) hcyc' (hstb'.trans (h.stop hst).stb) hv' hn'
          · have hstop : (x.step i).st.state = .stopReload := hst'.trans (if_neg heq)
            refine ⟨fun hc => ?_, fun hc => ?_, fun _ => hgo heq⟩
            · cases hstop.symm.trans hc
            · rcases hc with hc | hc <;> cases hstop.symm.trans hc
      | clrTag => exact h.reloads_step hr (Or.inl hst) hack
      | waitAck => exact h.reloads_step hr (Or.inr hst) hack

/-- In one cycle the bus cycle is kept, unless a reload is being stopped with all its reads in
flight. -/
theorem BusInv.cycleKept_iff {x : Sys g} (h : BusInv x) (hack : x.AckIsOwed i) :
    x.CycleKept i ↔ x.NotAllInFlight i := by
  constructor
  · intro hkept hr hst hall
    have hstop := h.stop hst
    have heq := hstop.rows_of_all hall
    have htwo : 2 ≤ 2 ^ g.rowLinebits := by
      calc 2 = 2 ^ 1 := rfl
        _ ≤ 2 ^ g.rowLinebits := Nat.pow_le_pow_right (by omega) g.rowLinebits_pos
    have hcyc : x.st.wb.cyc = true := by
      by_contra hc
      have := hstop.closed (by simpa using hc)
      omega
    obtain ⟨-, hcyc', -⟩ := stop_step (i := i) hr hst
    have hzero := (hkept hr).1 hcyc (hcyc'.trans (by simp [heq]))
    have hacc : accepted x.st i = false := by simp [accepted, hstop.stb]
    have hle : i.wishboneIn.ack.toNat ≤ 1 := Bool.toNat_le _
    simp only [Sys.step, Sys.inFlightNext, hr, hacc, Bool.false_eq_true, if_false,
      Bool.toNat_false] at hzero
    omega
  · intro hall hr
    cases hst : x.st.state with
    | idle =>
        obtain ⟨hcyc, -, -, hn⟩ := h.idle hst
        refine ⟨fun hc => ?_, fun _ _ => hn⟩
        cases hcyc.symm.trans hc
    | stopReload =>
        obtain ⟨hend, -⟩ := (h.stop hst).step hr hst hack (hall hr hst)
        obtain ⟨-, hcyc', -⟩ := stop_step (i := i) hr hst
        refine ⟨fun hc hc' => ?_, fun hc hc' => ?_⟩
        · by_cases heq : x.st.recvRow.rowOfLine = wbRow x.st
          · exact (hend heq).2
          · have hc'' := hcyc'.symm.trans hc'
            simp [hc, heq] at hc''
        · have hc'' := hcyc'.symm.trans hc'
          simp [hc] at hc''
    | clrTag => exact (h.reload (Or.inl hst)).kept hr (Or.inl hst)
    | waitAck => exact (h.reload (Or.inr hst)).kept hr (Or.inr hst)

theorem BusInv.along_iff {x : Sys g} {is : List (Input g)} (h : BusInv x)
    (hack : Along Sys.step Sys.AckIsOwed x is) :
    Along Sys.step Sys.CycleKept x is ↔ Along Sys.step Sys.NotAllInFlight x is := by
  induction is generalizing x with
  | nil => exact Iff.rfl
  | cons i is ih =>
      constructor
      · rintro ⟨hkept, hrest⟩
        have hall := (h.cycleKept_iff hack.1).mp hkept
        exact ⟨hall, (ih (h.step hack.1 hall) hack.2).mp hrest⟩
      · rintro ⟨hall, hrest⟩
        exact ⟨(h.cycleKept_iff hack.1).mpr hall, (ih (h.step hack.1 hall) hack.2).mpr hrest⟩

end

/-- From a reset on, no bus cycle is ended or started with reads in flight if and only if no reload
is ever being stopped with all the reads of its line in flight. -/
theorem cycles_kept_iff (s : State g) (n : Nat) (i : Input g) (is : List (Input g))
    (h0 : i.rst = true) (hack : Along Sys.step Sys.AckIsOwed ⟨s, n⟩ (i :: is)) :
    Along Sys.step Sys.CycleKept ⟨s, n⟩ (i :: is) ↔
      Along Sys.step Sys.NotAllInFlight ⟨s, n⟩ (i :: is) := by
  have hrest : Along Sys.step Sys.CycleKept (Sys.step ⟨s, n⟩ i) is ↔
      Along Sys.step Sys.NotAllInFlight (Sys.step ⟨s, n⟩ i) is :=
    (busInv_reset h0).along_iff hack.2
  constructor
  · rintro ⟨-, h⟩
    exact ⟨fun hr => absurd h0 (by simp [hr]), hrest.mp h⟩
  · rintro ⟨-, h⟩
    exact ⟨fun hr => absurd h0 (by simp [hr]), hrest.mpr h⟩

/-! ## Two runs -/

/-- 32 lines of 64 bytes, four ways. -/
def Geometry.default : Geometry := ⟨3, 5, 2, Nat.succ_pos 2, by decide⟩

/-- Power-on. -/
def State.cold : State .default where
  state := .idle
  wb := ⟨0, 0, 0, false, false, false⟩
  storeWay := 0
  storeIndex := 0
  recvRow := ⟨0, 0⟩
  recvValid := false
  storeRow := ⟨0, 0⟩
  storeTag := ⟨false, 0⟩
  storeValid := false
  endRowIx := 0
  rowsValid _ := false
  cacheValids _ _ := false
  snoopValid := false
  snoopIndex := 0
  snoopTag := ⟨false, 0⟩
  snoopIndex2 := 0
  snoopHits _ := false

/-- A cycle without an ack, in which the slave takes what it is sent. -/
def Input.quiet : Input .default where
  rst := false
  invalIn := false
  wishboneIn := ⟨0, false, false⟩
  wbSnoopIn := ⟨0, 0, 0, false, false, false⟩
  snoopTagsSet _ := ⟨false, 0⟩
  reqIsMiss := false
  realAddr := 0
  bigEndian := false
  plruVictim := 0

def Input.reset : Input .default := { Input.quiet with rst := true }

def Input.miss : Input .default := { Input.quiet with reqIsMiss := true }

def Input.inval : Input .default := { Input.quiet with invalIn := true }

def Input.ack : Input .default := { Input.quiet with wishboneIn := ⟨0, true, false⟩ }

/-- A miss at address 0, and an invalidation when the slave has taken five of the eight reads. -/
def stoppedEarly : List (Input .default) :=
  [Input.reset, .miss] ++ List.replicate 4 Input.quiet ++ [Input.inval] ++
    List.replicate 5 Input.ack ++ [Input.quiet, .miss, .quiet]

theorem stopped_early_kept : Along Sys.step Sys.CycleKept ⟨State.cold, 0⟩ stoppedEarly :=
  (cycles_kept_iff State.cold 0 .reset stoppedEarly.tail rfl (by decide +kernel)).mpr
    (by decide +kernel)

/-- The same, when the slave has taken all eight of them. -/
def stoppedLate : List (Input .default) :=
  [Input.reset, .miss] ++ List.replicate 7 Input.quiet ++ [Input.inval, .quiet, .miss]

/-- The bus cycle ends with eight reads in flight, and the next reload starts with them. -/
theorem stopped_late_dropped :
    Along Sys.step Sys.AckIsOwed ⟨State.cold, 0⟩ stoppedLate ∧
    (run Sys.step ⟨State.cold, 0⟩ (stoppedLate.take 11)).st.wb.cyc = false ∧
    (run Sys.step ⟨State.cold, 0⟩ (stoppedLate.take 11)).inFlight = 8 ∧
    (run Sys.step ⟨State.cold, 0⟩ stoppedLate).st.wb.cyc = true ∧
    ¬Along Sys.step Sys.CycleKept ⟨State.cold, 0⟩ stoppedLate := by
  decide +kernel

end Microwatt.Icache
