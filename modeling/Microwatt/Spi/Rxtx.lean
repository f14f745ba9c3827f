import Mathlib.Tactic

/-!
# The shifter of the flash controller

`spi_rxtx`: a divided clock with a pulse ahead of each of its edges, and a command that lasts for a
given number of its cycles.  The input latch works on the other edge of the system clock, so that
within a cycle it has the level that the data lines have in that cycle.
-/

namespace Microwatt.Spi

/-- `state_t` of the shifter. -/
inductive RxtxState where
  | standby | data
deriving DecidableEq

/-- The registers of `spi_rxtx`. -/
structure Rxtx where
  sck0 : Bool
  sck1 : Bool
  clkDiv : Nat
  counter : Nat
  sckSend : Bool
  sckRecv : Bool
  cmdMode : BitVec 3
  oreg : BitVec 8
  datAckL : Bool
  dAck : Bool
  sckRecvD : Bool
  ireg : BitVec 8
  bitCount : BitVec 3
  state : RxtxState
deriving DecidableEq

/-- The command port, and the divider that stands beside it. -/
structure Cmd where
  valid : Bool
  clkDiv : Nat
  mode : BitVec 3
  clks : BitVec 3
  txd : BitVec 8
deriving DecidableEq

def dataSingle (mode : BitVec 3) : Bool :=
  !mode.getLsbD 2

def dataDual (mode : BitVec 3) : Bool :=
  mode.extractLsb' 1 2 == 2

def dataQuad (mode : BitVec 3) : Bool :=
  mode.extractLsb' 1 2 == 3

section

variable (r : Rxtx) (c : Cmd)

/-- `next_cmd`, which is `cmd_ready_o`. -/
def nextCmd : Bool :=
  r.sckSend && r.bitCount == 7

def startCmd : Bool :=
  nextCmd r && c.valid

def endCmd : Bool :=
  nextCmd r && !c.valid

def busIdle : Bool :=
  r.state == .standby

/-- What `shift_out` puts behind the bits that have gone. -/
def shiftOut (mode : BitVec 3) (oreg : BitVec 8) : BitVec 8 :=
  if dataSingle mode then oreg <<< 1
  else if dataDual mode then oreg <<< 2
  else oreg <<< 4

/-- What `shift_in` takes from the data lines. -/
def shiftIn (dataLines : Nat) (mode : BitVec 3) (ireg : BitVec 8) (dat : BitVec 4) : BitVec 8 :=
  if dataLines = 1 then ireg.extractLsb' 0 7 ++ BitVec.ofBool (dat.getLsbD 0)
  else if dataDual mode then ireg.extractLsb' 0 6 ++ dat.extractLsb' 0 2
  else if dataQuad mode then ireg.extractLsb' 0 4 ++ dat
  else ireg.extractLsb' 0 7 ++ BitVec.ofBool (dat.getLsbD 1)

/-- `spi_rxtx`, at an edge. -/
def Rxtx.step (dataLines : Nat) (sdatI : BitVec 4) : Rxtx where
  sck0 := if r.counter = r.clkDiv then !r.sck0 else r.sck0
  sck1 := if (r.state == .data && !endCmd r c) || startCmd r c then r.sck0 else true
  clkDiv := if r.counter = r.clkDiv then c.clkDiv else r.clkDiv
  counter := if r.counter = r.clkDiv then 0 else r.counter + 1
  sckSend := if r.counter = r.clkDiv then r.sck0 else false
  sckRecv := if r.counter = r.clkDiv then !r.sck0 else false
  cmdMode := if startCmd r c then c.mode else r.cmdMode
  oreg := if startCmd r c then c.txd else if r.sckSend then shiftOut r.cmdMode r.oreg else r.oreg
  datAckL := if r.bitCount == 0 && r.sckRecv then !r.cmdMode.getLsbD 0 else false
  dAck := r.datAckL
  sckRecvD := if r.state == .data then r.sckRecv else false
  ireg := if r.sckRecvD then shiftIn dataLines r.cmdMode r.ireg sdatI else r.ireg
  bitCount :=
    if startCmd r c then c.clks
    else if r.state ≠ .data then 7
    else if r.sckRecv then r.bitCount - 1
    else r.bitCount
  state := if startCmd r c then .data else if endCmd r c then .standby else r.state

/-! ## What an edge does -/

/-- An edge after which the serial clock is high again. -/
def rises : Bool :=
  r.state == .data && r.sckRecv

/-- An edge after which the serial clock is low for a further bit of the command. -/
def falls : Bool :=
  r.state == .data && r.sckSend && !nextCmd r

/-- The rising edges of the serial clock that the command has still to make. -/
def left : Nat :=
  if r.state = .standby ∨
      (r.bitCount = 7 ∧ (r.sckSend = true ∨ (r.sck0 = true ∧ r.sckRecv = false))) then 0
  else r.bitCount.toNat + 1

/-- The pulses stand ahead of the edges, and the serial clock is high between commands. -/
structure Rxtx.Ok : Prop where
  count : r.counter ≤ r.clkDiv
  send : r.sckSend = true → r.sck0 = false
  recv : r.sckRecv = true → r.sck0 = true
  standby : r.state = .standby →
    r.sck1 = true ∧ (r.bitCount = 7 ∨ r.sckRecv = false ∧ r.sckSend = false)
  data : r.state = .data → r.sck1 = if r.sckRecv then false else if r.sckSend then true else r.sck0

end

section

variable {r : Rxtx} {c : Cmd} {dataLines : Nat} {dat : BitVec 4}

theorem state_eq_data (h : r.state ≠ .standby) : r.state = .data := by
  cases hst : r.state with
  | standby => exact absurd hst h
  | data => rfl

theorem left_le (r : Rxtx) : left r ≤ 8 := by
  unfold left
  split_ifs
  · exact Nat.zero_le _
  · have := r.bitCount.isLt
    omega

theorem left_of_nextCmd (h : nextCmd r = true) : left r = 0 := by
  simp only [nextCmd, Bool.and_eq_true, beq_iff_eq] at h
  exact if_pos (Or.inr ⟨h.2, Or.inl h.1⟩)

theorem left_of_busIdle (h : r.state = .standby) : left r = 0 :=
  if_pos (Or.inl h)

namespace Rxtx.Ok

variable (h : r.Ok)
include h

theorem not_send_recv (hs : r.sckSend = true) : r.sckRecv = false := by
  by_contra hr
  have := h.recv (by simpa using hr)
  rw [h.send hs] at this
  cases this

theorem not_recv_send (hr : r.sckRecv = true) : r.sckSend = false := by
  by_contra hs
  have := h.not_send_recv (by simpa using hs)
  rw [hr] at this
  cases this

theorem sck1_of_nextCmd (hn : nextCmd r = true) : r.sck1 = true := by
  simp only [nextCmd, Bool.and_eq_true] at hn
  cases hst : r.state with
  | standby => exact (h.standby hst).1
  | data => rw [h.data hst, h.not_send_recv hn.1, hn.1]; rfl

theorem sck1_of_rises (hr : rises r = true) : r.sck1 = false := by
  simp only [rises, Bool.and_eq_true, beq_iff_eq] at hr
  rw [h.data hr.1, hr.2]
  rfl

theorem sck1_of_falls (hf : falls r = true) : r.sck1 = true := by
  simp only [falls, Bool.and_eq_true, beq_iff_eq] at hf
  rw [h.data hf.1.1, h.not_send_recv hf.1.2, hf.1.2]
  rfl

/-- The clock rests high. -/
theorem sck1_of_left (hl : left r = 0) : r.sck1 = true := by
  cases hst : r.state with
  | standby => exact (h.standby hst).1
  | data =>
      rw [h.data hst]
      unfold left at hl
      split_ifs at hl with hc
      rcases hc with hc | ⟨-, hs | ⟨h0, hr⟩⟩
      · rw [hst] at hc
        cases hc
      · simp [hs, h.not_send_recv hs]
      · simp [h0, hr]

theorem not_start_of_rises (hr : rises r = true) : nextCmd r = false := by
  simp only [rises, Bool.and_eq_true] at hr
  by_contra hn
  simp only [Bool.not_eq_false, nextCmd, Bool.and_eq_true] at hn
  rw [h.not_send_recv hn.1] at hr
  cases hr.2

theorem not_falls_of_rises (hr : rises r = true) : falls r = false := by
  by_contra hf
  have := h.sck1_of_falls (by simpa using hf)
  rw [h.sck1_of_rises hr] at this
  cases this

/-- There is a bit to come before each rising edge. -/
theorem left_pos_of_rises (hr : rises r = true) : left r = r.bitCount.toNat + 1 := by
  simp only [rises, Bool.and_eq_true, beq_iff_eq] at hr
  refine if_neg ?_
  rintro (hst | ⟨-, hs | ⟨-, hr'⟩⟩)
  · rw [hr.1] at hst
    cases hst
  · rw [h.not_send_recv hs] at hr
    cases hr.2
  · rw [hr.2] at hr'
    cases hr'

end Rxtx.Ok

/-! ### The registers after an edge -/

section

variable (h : r.Ok)
include h

theorem Rxtx.Ok.step : (r.step c dataLines dat).Ok := by
  refine ⟨?_, ?_, ?_, ?_, ?_⟩
  · have := h.count
    simp only [Rxtx.step]
    split_ifs <;> omega
  · intro hs
    simp only [Rxtx.step] at hs ⊢
    split_ifs at hs ⊢ with heq
    simp [hs]
  · intro hr
    simp only [Rxtx.step] at hr ⊢
    split_ifs at hr ⊢ with heq
    exact hr
  · intro hst
    simp only [Rxtx.step] at hst
    split_ifs at hst with hstart hend
    · -- the command has ended
      have hn : nextCmd r = true := by
        simp only [endCmd, Bool.and_eq_true] at hend
        exact hend.1
      have hbc : r.bitCount = 7 ∧ r.sckRecv = false := by
        simp only [nextCmd, Bool.and_eq_true, beq_iff_eq] at hn
        exact ⟨hn.2, h.not_send_recv hn.1⟩
      simp only [Rxtx.step, hend, hstart, hbc.1, hbc.2]
      simp
    · simp [Rxtx.step, hstart, hst]
  · intro hst
    -- the clock that is put out is the internal one, an edge later
    have hgate : (((r.state == .data && !endCmd r c) || startCmd r c) : Bool) = true := by
      simp only [Rxtx.step] at hst
      split_ifs at hst with hstart hend
      · simp [hstart]
      · simp [hend, hst]
    simp only [Rxtx.step, hgate]
    split_ifs <;> simp_all

theorem left_of_startCmd (hs : startCmd r c = true) :
    left (r.step c dataLines dat) = c.clks.toNat + 1 := by
  -- the first pulse of the command is still to come
  have hlow : r.sck0 = false := by
    simp only [startCmd, nextCmd, Bool.and_eq_true] at hs
    exact h.send hs.1.1
  refine (if_neg ?_).trans ?_
  · simp only [Rxtx.step, hs, hlow]
    split_ifs <;> simp
  · simp [Rxtx.step, hs]

theorem left_of_rises (hr : rises r = true) : left (r.step c dataLines dat) = left r - 1 := by
  have hnn := h.not_start_of_rises hr
  rw [h.left_pos_of_rises hr]
  simp only [rises, Bool.and_eq_true, beq_iff_eq] at hr
  have hhigh := h.recv hr.2
  have hst : (r.step c dataLines dat).state = .data := by
    simp [Rxtx.step, startCmd, endCmd, hnn, hr.1]
  have hbc : (r.step c dataLines dat).bitCount = r.bitCount - 1 := by
    simp [Rxtx.step, startCmd, hnn, hr.1, hr.2]
  have hpulse : (r.step c dataLines dat).sckSend = true ∨
      (r.step c dataLines dat).sck0 = true ∧ (r.step c dataLines dat).sckRecv = false := by
    simp only [Rxtx.step, hhigh]
    split_ifs <;> simp
  have hwrap : ∀ b : BitVec 3, (b - 1 = 7 ↔ b = 0) ∧ (b ≠ 0 → (b - 1).toNat + 1 = b.toNat) := by
    decide
  obtain ⟨hseven, hminus⟩ := hwrap r.bitCount
  unfold left
  rw [hst, hbc]
  by_cases hz : r.bitCount = 0
  · rw [if_pos (Or.inr ⟨hseven.2 hz, hpulse⟩), hz]
    rfl
  · rw [if_neg ?_, hminus hz]
    · rfl
    · rintro (hc | ⟨h7, -⟩)
      · cases hc
      · exact hz (hseven.1 h7)

omit h in
theorem left_of_quiet (hs : startCmd r c = false) (hr : rises r = false) :
    left (r.step c dataLines dat) = left r := by
  cases hst : r.state with
  | standby =>
      rw [left_of_busIdle hst]
      refine left_of_busIdle ?_
      simp only [Rxtx.step, hst, hs]
      simp
  | data =>
      have hrecv : r.sckRecv = false := by simpa [rises, hst] using hr
      by_cases hn : nextCmd r = true
      · rw [left_of_nextCmd hn]
        refine left_of_busIdle ?_
        have hend : endCmd r c = true := by
          simp only [startCmd, hn, Bool.true_and] at hs
          simp [endCmd, hn, hs]
        simp [Rxtx.step, hs, hend]
      · have hend : endCmd r c = false := by simp [endCmd, hn]
        have hst' : (r.step c dataLines dat).state = .data := by simp [Rxtx.step, hs, hend, hst]
        have hbc : (r.step c dataLines dat).bitCount = r.bitCount := by
          simp [Rxtx.step, hs, hst, hrecv]
        by_cases h7 : r.bitCount = 7
        · have hsend : r.sckSend = false := by simpa [nextCmd, h7] using hn
          -- a pulse comes after the level that it is for
          have hsame : ((r.step c dataLines dat).sckSend = true ∨
              (r.step c dataLines dat).sck0 = true ∧ (r.step c dataLines dat).sckRecv = false) ↔
              r.sck0 = true := by
            simp only [Rxtx.step]
            split_ifs <;> simp
          unfold left
          rw [hst', hbc, hst]
          simp only [h7, hsame, hsend, hrecv]
          simp
        · have hcount : ∀ q : Rxtx, q.state = .data → q.bitCount ≠ 7 →
              left q = q.bitCount.toNat + 1 := by
            intro q hq hq7
            refine if_neg ?_
            rintro (hc | ⟨hc, -⟩)
            · rw [hq] at hc
              cases hc
            · exact hq7 hc
          rw [hcount _ hst' (by rwa [hbc]), hcount _ hst h7, hbc]

theorem left_of_not_start (hs : startCmd r c = false) : left (r.step c dataLines dat) =
    if rises r then left r - 1 else left r := by
  split_ifs with hr
  · exact left_of_rises h hr
  · exact left_of_quiet hs (by simpa using hr)

theorem sck1_step : (r.step c dataLines dat).sck1 =
    if startCmd r c || falls r then false else if rises r then true else r.sck1 := by
  cases hst : r.state with
  | standby =>
      have hone := (h.standby hst).1
      simp only [Rxtx.step, falls, rises, hst]
      by_cases hs : startCmd r c = true
      · have hlow : r.sck0 = false := by
          simp only [startCmd, nextCmd, Bool.and_eq_true] at hs
          exact h.send hs.1.1
        simp [hs, hlow]
      · simp [hs, hone]
  | data =>
      have hone := h.data hst
      by_cases hn : nextCmd r = true
      · have hsend : r.sckSend = true := by
          simp only [nextCmd, Bool.and_eq_true] at hn
          exact hn.1
        have hlow := h.send hsend
        have hrecv := h.not_send_recv hsend
        cases hv : c.valid <;>
          simp [Rxtx.step, falls, rises, startCmd, endCmd, hn, hv, hst, hone, hlow, hrecv, hsend]
      · simp only [Bool.not_eq_true] at hn
        simp only [Rxtx.step, falls, rises, startCmd, endCmd, hn, hst, hone]
        cases hrecv : r.sckRecv with
        | true => simp [h.recv hrecv, h.not_recv_send hrecv]
        | false =>
            cases hsend : r.sckSend with
            | true => simp [h.send hsend]
            | false => simp

/-- The ack of a read comes two edges after the last rising edge. -/
theorem datAckL_step : (r.step c dataLines dat).datAckL =
    (rises r && left r == 1 && !r.cmdMode.getLsbD 0) := by
  show (if r.bitCount == 0 && r.sckRecv then !r.cmdMode.getLsbD 0 else false) = _
  by_cases hr : rises r = true
  · have hl := h.left_pos_of_rises hr
    have hrecv : r.sckRecv = true := by
      simp only [rises, Bool.and_eq_true] at hr
      exact hr.2
    have hone : left r = 1 ↔ r.bitCount = 0 := by
      rw [hl]
      constructor
      · intro hb
        exact BitVec.eq_of_toNat_eq (by simpa using hb)
      · intro hb
        simp [hb]
    by_cases hb : r.bitCount = 0
    · simp [hr, hrecv, hb, hone.2 hb]
    · have hne : (left r == 1) = false := by simpa [hone] using hb
      rw [if_neg (by simp [hrecv]; exact hb), hr, hne]
      rfl
  · have hno : ¬(r.bitCount = 0 ∧ r.sckRecv = true) := by
      rintro ⟨hb, hrecv⟩
      cases hst : r.state with
      | data => simp [rises, hst, hrecv] at hr
      | standby =>
          rcases (h.standby hst).2 with h7 | ⟨hrecv', -⟩
          · rw [hb] at h7
            cases h7
          · rw [hrecv] at hrecv'
            cases hrecv'
    simp only [Bool.not_eq_true] at hr
    rw [hr, if_neg (by simpa using hno)]
    rfl

end

end

end Microwatt.Spi
