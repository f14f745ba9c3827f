import Microwatt.Spi.Progress

/-!
# Requests in a row

A master gives a request in any cycle in which the controller does not stall it, whatever is still
under way.  The select of a request goes through the same registers as the request.  Beside the
registers stand lists of the requests that have been accepted, carried out and answered, and of the
reads of the data register that the shifter still works on.
-/

namespace Microwatt.Spi

open Clocked Soc

/-! ## What an edge does with the request -/

section

variable (g : Config) (s : State) (i : Input)

/-- The answer to the request itself.  The other acks are those of earlier reads of the data
register. -/
def ownAck : Bool :=
  if wbMapValid s i then (autoComb g s i).ack
  else if ctrlCs s && wbReg s i == spiRegData then
    s.wbReq.we && !s.pendingRead && nextCmd s.rxtx
  else wbRegValid s i && regReady s

/-- The ack of the shifter for a read of the data register. -/
def readAck : Bool :=
  ctrlCs s && s.rxtx.dAck

/-- A read of the data register is given to the shifter. -/
def startsRead : Bool :=
  ctrlCs s && startCmd s.rxtx (cmdOut g s i) && !s.wbReq.we

/-- A read of the map is begun, by a new command or by going on with the last one. -/
def beginsRead : Bool :=
  (s.autoState == .idle && (autoComb g s i).next == .csOn) ||
    (s.autoState == .waitReq && (autoComb g s i).next == .dat 0)

/-- The request is carried out: a read of the map is begun and a write to it ignored, a command is
given to the shifter, a register is read or written. -/
def executes : Bool :=
  if wbMapValid s i then (if s.wbReq.we then (autoComb g s i).ack else beginsRead g s i)
  else if ctrlCs s && wbReg s i == spiRegData then startCmd s.rxtx (cmdOut g s i)
  else wbRegValid s i && regReady s

end

/-! ## The system -/

structure Pipe where
  st : State
  reqMap : Bool
  stashMap : Bool
  accepted : List Access
  executed : List Access
  answered : List Access
  reads : List Access
  acks : Nat

/-- A cycle: what the master drives, with the select that belongs to it, and the data lines. -/
structure Turn where
  wbIn : WbIoMasterOut
  map : Bool
  sdatI : BitVec 4

section

variable (g : Config) (p : Pipe) (t : Turn)

def Pipe.input : Input where
  wbIn := t.wbIn
  wbSelReg := !p.reqMap
  wbSelMap := p.reqMap
  sdatI := t.sdatI

/-- The request of this cycle, if it is accepted. -/
def offered : List Access :=
  if t.wbIn.cyc && t.wbIn.stb && !p.st.wbOut.stall then [⟨t.map, t.wbIn⟩] else []

/-- What stands in the request register. -/
def Pipe.request : Access :=
  ⟨p.reqMap, p.st.wbReq⟩

def Pipe.step : Pipe :=
  let i := p.input t
  let s' := Spi.step g p.st i
  { st := s'
    reqMap :=
      if (wbRsp g p.st i).stall then p.reqMap
      else if p.st.wbOut.stall then p.stashMap
      else t.map
    stashMap :=
      if (wbRsp g p.st i).stall && !p.st.wbOut.stall && t.wbIn.cyc && t.wbIn.stb then t.map
      else p.stashMap
    accepted := p.accepted ++ offered p t
    executed := p.executed ++ if executes g p.st i then [p.request] else []
    answered := p.answered ++ ((if readAck p.st then p.reads.take 1 else []) ++
      if ownAck g p.st i then [p.request] else [])
    reads := (if readAck p.st then p.reads.tail else p.reads) ++
      if startsRead g p.st i then [p.request] else []
    acks := p.acks + s'.wbOut.ack.toNat }

def Pipe.start (s : State) : Pipe where
  st := s
  reqMap := false
  stashMap := false
  accepted := []
  executed := []
  answered := []
  reads := []
  acks := 0

/-- The state before edge `n`. -/
def pipeAt (s : State) (input : Nat → Turn) (n : Nat) : Pipe :=
  trace (Pipe.step g) (Pipe.start s) input n

/-! ## What is to hold -/

def Pipe.current : List Access :=
  if wbValid p.st then [p.request] else []

def Pipe.stashed : List Access :=
  if p.st.wbOut.stall && p.st.wbStash.stb && p.st.wbStash.cyc then [⟨p.stashMap, p.st.wbStash⟩]
    else []

/-- Each accepted request has been answered, or is read by the shifter, or waits in one of the two
registers, in this order; those before the request register have been carried out once each, in this
order, and so has a read of the map that is under way; and each answer has an ack of its own. -/
structure Orderly : Prop where
  accepted : p.accepted = p.answered ++ p.reads ++ p.current ++ p.stashed
  executed : p.executed =
    p.answered ++ p.reads ++ if reading p.st.autoState then p.current else []
  acks : p.acks = p.answered.length

/-! ## The condition -/

/-- The request register does not stall in a cycle without a request while an old one is in the
stash; a register is not accessed in the cycle in which the shifter acks a read; the map is not
accessed in manual mode; and no read is given to the shifter in the cycle in which a reset ends the
manual mode. -/
structure Sound : Prop where
  noReplay : (wbRsp g p.st (p.input t)).stall = true → p.st.wbOut.stall = false →
    (t.wbIn.cyc && t.wbIn.stb) = true ∨ (p.st.wbStash.stb && p.st.wbStash.cyc) = false
  ackAlone : readAck p.st = true → wbRegValid p.st (p.input t) = true →
    wbReg p.st (p.input t) ≠ spiRegData → regReady p.st = false
  notManual : wbMapValid p.st (p.input t) = true → ctrlCs p.st = true → ctrlReset p.st = true
  resetQuiet : ctrlReset p.st = true → startsRead g p.st (p.input t) = false

end

/-! ## Reads in the shifter -/

/-- The reads that the shifter has taken and not acked: one whose bits still come, and those whose
ack is on its way. -/
def inflight (r : Rxtx) : Nat :=
  (if 0 < left r ∧ r.cmdMode.getLsbD 0 = false then 1 else 0) + r.datAckL.toNat + r.dAck.toNat

theorem inflight_le (r : Rxtx) : inflight r ≤ 3 := by
  unfold inflight
  have := Bool.toNat_le r.datAckL
  have := Bool.toNat_le r.dAck
  split_ifs <;> omega

section

variable {r : Rxtx} {c : Cmd} {dataLines : Nat} {dat : BitVec 4}

theorem inflight_eq_zero :
    inflight r = 0 ↔ (0 < left r → r.cmdMode.getLsbD 0 = true) ∧ r.datAckL = false ∧
      r.dAck = false := by
  unfold inflight
  cases r.datAckL <;> cases r.dAck <;> simp

/-- An ack ends a read, and a command to read starts one. -/
theorem inflight_step (h : r.Ok) :
    inflight (r.step c dataLines dat) + r.dAck.toNat =
      inflight r + (startCmd r c && !c.mode.getLsbD 0).toNat := by
  have hack : (r.step c dataLines dat).datAckL =
      (rises r && left r == 1 && !r.cmdMode.getLsbD 0) := datAckL_step h
  have hdack : (r.step c dataLines dat).dAck = r.datAckL := rfl
  have hmode : (r.step c dataLines dat).cmdMode = if startCmd r c then c.mode else r.cmdMode := rfl
  unfold inflight
  rw [hack, hdack]
  by_cases hs : startCmd r c = true
  · have hn : nextCmd r = true := by
      simp only [startCmd, Bool.and_eq_true] at hs
      exact hs.1
    have hz := left_of_nextCmd hn
    rw [left_of_startCmd h hs, rises_of_left h hz, hz, hmode, hs, if_pos rfl]
    cases c.mode.getLsbD 0 <;> simp
    omega
  · simp only [Bool.not_eq_true] at hs
    rw [left_of_not_start h hs, hmode, hs, if_neg Bool.false_ne_true]
    generalize r.cmdMode.getLsbD 0 = m
    by_cases hr : rises r = true
    · have hpos := h.left_pos_of_rises hr
      by_cases hone : left r = 1
      · cases m <;> simp [hr, hone]
      · have hmore : 1 < left r := by omega
        cases m <;> simp [hr, hone, hmore, show 0 < left r by omega]
    · cases m <;> simp [hr]

/-- The ack of the shifter is put in train before the bus is idle. -/
theorem data_of_datAckL_step (h : r.Ok) (ha : (r.step c dataLines dat).datAckL = true) :
    (r.step c dataLines dat).state = .data := by
  rw [datAckL_step h] at ha
  simp only [Bool.and_eq_true] at ha
  have hn := h.not_start_of_rises ha.1.1
  have hr := ha.1.1
  simp only [rises, Bool.and_eq_true, beq_iff_eq] at hr
  simp [Rxtx.step, startCmd, endCmd, hn, hr.1]

end

/-! ## The response -/

section

variable {g : Config} {s : State} {i : Input}

theorem wbRsp_ack : (wbRsp g s i).ack = (ownAck g s i || readAck s) := by
  unfold wbRsp ownAck readAck
  cases hcs : ctrlCs s <;> cases hd : s.rxtx.dAck <;> cases hm : wbMapValid s i <;>
    cases hreg : (wbReg s i == spiRegData) <;> cases hv : wbRegValid s i <;>
    cases hready : regReady s <;> cases hw : s.wbReq.we <;> cases hp : s.pendingRead <;> simp

/-- A request stalls until it is answered, or given to the shifter. -/
theorem wbRsp_stall : (wbRsp g s i).stall =
    if wbMapValid s i then !(autoComb g s i).ack
    else if ctrlCs s && wbReg s i == spiRegData then
      (s.wbReq.we && s.pendingRead) || !nextCmd s.rxtx
    else wbRegValid s i && !regReady s := by
  unfold wbRsp
  cases hcs : ctrlCs s <;> cases hd : s.rxtx.dAck <;> cases hm : wbMapValid s i <;>
    cases hreg : (wbReg s i == spiRegData) <;> cases hv : wbRegValid s i <;>
    cases hready : regReady s <;> cases hw : s.wbReq.we <;> cases hp : s.pendingRead <;> simp

theorem wbOut_step : (Spi.step g s i).wbOut.stall = (wbRsp g s i).stall ∧
    (Spi.step g s i).wbOut.ack = (wbRsp g s i).ack := by
  simp only [Spi.step]
  cases hst : (wbRsp g s i).stall <;> cases ho : s.wbOut.stall <;> cases hc : i.wbIn.cyc <;>
    cases hb : i.wbIn.stb <;> simp [hst]

theorem wbReg_data (h : wbReg s i = spiRegData) : wbRegValid s i = true := by
  unfold wbReg at h
  split_ifs at h with hv
  · exact hv
  · cases h

theorem startCmd_manual (hcs : ctrlCs s = true) :
    startCmd s.rxtx (cmdOut g s i) =
      (nextCmd s.rxtx && (wbReg s i == spiRegData) && !(s.pendingRead && s.wbReq.we)) := by
  simp [startCmd, cmdOut, hcs, wbRegDatV, Bool.and_assoc]

theorem mode_manual (hcs : ctrlCs s = true) : (cmdOut g s i).mode.getLsbD 0 = s.wbReq.we := by
  simp only [cmdOut, hcs, if_true]
  rw [BitVec.getLsbD_append, if_pos (by omega)]
  cases s.wbReq.we <;> rfl

end

/-! ## Where the machine goes -/

section

variable {g : Config} {s : State} {i : Input}

/-- In manual mode, and in a reset, the automatic machine does not read. -/
def Resting (a : AutoState) : Prop :=
  a = .idle ∨ a = .boot

theorem Resting.not_reading {a : AutoState} (h : Resting a) : reading a = false := by
  rcases h with rfl | rfl <;> rfl

theorem Resting.ne_datData {a : AutoState} (h : Resting a) (j : Fin 4) : a ≠ .datData j := by
  rcases h with rfl | rfl <;> nofun

theorem autoComb_reset (hr : ctrlReset s = true) :
    (autoComb g s i).next = .boot ∧ (autoComb g s i).ack = false ∧
      (autoComb g s i).cmdValid = false := by
  simp [autoComb, hr, AutoOut.default]

theorem autoComb_rest (h : Resting s.autoState) (hm : wbMapValid s i = false ∨ ctrlCs s = true) :
    Resting (autoComb g s i).next := by
  have hno : (wbMapValid s i && !ctrlCs s) = false := by
    rcases hm with hm | hm <;> simp [hm]
  by_cases hr : ctrlReset s = true
  · exact Or.inr (autoComb_reset hr).1
  · simp only [Bool.not_eq_true] at hr
    rcases h with hst | hst
    · left
      simp [autoComb, hr, hst, hno, AutoOut.default]
    · cases hb : g.bootClocks <;> cases hn : nextCmd s.rxtx <;>
        simp [Resting, autoComb, hr, hst, hb, hn, AutoOut.default]

/-- A read of the map is not begun unless a request asks for it. -/
theorem reading_next (hr : ctrlReset s = false) (hcs : ctrlCs s = false)
    (hread : reading s.autoState = false) (hno : beginsRead g s i = false) :
    reading (autoComb g s i).next = false := by
  cases move (g := g) (i := i) hr hcs with
  | stay hnext => rw [hnext, hread]
  | send q hq _ _ _ _ hnext =>
      rw [hnext]
      rcases sending_next hq with ⟨-, hq'⟩ | ⟨_, -, hf | ⟨_, hf⟩, -⟩ | ⟨hf, -⟩ | ⟨hf | hf, -⟩ |
        ⟨_, hf, -⟩
      · rw [hq']
        rfl
      all_goals
        rw [hf] at hread
        cases hread
  | noBoot _ hnext => rw [hnext]; rfl
  | select hst _ _ hnext => simp [beginsRead, hst, hnext] at hno
  | command hst => rw [hst] at hread; cases hread
  | byte _ hst => rw [hst] at hread; cases hread
  | answer hst => rw [hst] at hread; cases hread
  | goOn hst _ _ _ hnext => simp [beginsRead, hst, hnext] at hno
  | release _ hnext => rw [hnext]; rfl
  | recovered _ hnext => rw [hnext]; rfl

/-- A read of the map is begun for a request. -/
theorem asks_of_beginsRead (hb : beginsRead g s i = true) :
    wbMapValid s i = true ∧ s.wbReq.we = false ∧ reading s.autoState = false ∧
      reading (autoComb g s i).next = true := by
  simp only [beginsRead, Bool.or_eq_true, Bool.and_eq_true, beq_iff_eq] at hb
  have hr : ctrlReset s = false := by
    by_contra hr
    rw [(autoComb_reset (by simpa using hr)).1] at hb
    rcases hb with ⟨-, hc⟩ | ⟨-, hc⟩ <;> cases hc
  rcases hb with ⟨hst, hnext⟩ | ⟨hst, hnext⟩
  · have hask : wbMapValid s i = true ∧ s.wbReq.we = false := by
      simp only [autoComb, hr, hst, AutoOut.default] at hnext
      cases hm : wbMapValid s i <;> cases hw : s.wbReq.we <;> cases hcs : ctrlCs s <;> simp_all
    rw [hst, hnext]
    exact ⟨hask.1, hask.2, rfl, rfl⟩
  · have hask : wbMapValid s i = true ∧ s.wbReq.we = false := by
      simp only [autoComb, hr, hst, AutoOut.default] at hnext
      cases hm : wbMapValid s i <;> cases hw : s.wbReq.we <;> simp_all
      all_goals split_ifs at hnext
    rw [hst, hnext]
    exact ⟨hask.1, hask.2, rfl, rfl⟩

/-- A read under way goes on until it is answered. -/
theorem reading_goes_on (hr : ctrlReset s = false) (hcs : ctrlCs s = false)
    (hread : reading s.autoState = true) (hack : (autoComb g s i).ack = false) :
    reading (autoComb g s i).next = true := by
  cases move (g := g) (i := i) hr hcs with
  | stay hnext => rw [hnext, hread]
  | send q hq _ _ _ _ hnext =>
      rw [hnext]
      rcases sending_next hq with ⟨hst, -⟩ | ⟨_, hq', -⟩ | ⟨-, hq', -⟩ | ⟨-, hq'⟩ | ⟨_, -, hq'⟩
      · rw [hst] at hread
        cases hread
      all_goals
        rw [hq']
        rfl
  | noBoot hst => rw [hst] at hread; cases hread
  | select hst => rw [hst] at hread; cases hread
  | command _ hnext => rw [hnext]; rfl
  | byte j _ _ hnext => rw [hnext]; fin_cases j <;> rfl
  | answer _ _ _ _ hack' => rw [hack] at hack'; cases hack'
  | goOn hst => rw [hst] at hread; cases hread
  | release hst => rw [hst] at hread; cases hread
  | recovered hst => rw [hst] at hread; cases hread

/-- The machine answers a read when it has all bytes, and a write at once. -/
theorem ack_cases (hr : ctrlReset s = false) (hcs : ctrlCs s = false)
    (hack : (autoComb g s i).ack = true) :
    reading (autoComb g s i).next = false ∧
      (reading s.autoState = true ∨ s.wbReq.we = true) := by
  cases move (g := g) (i := i) hr hcs with
  | stay hnext _ _ hidle =>
      rw [hnext, (hidle hack).1]
      exact ⟨rfl, Or.inr (hidle hack).2⟩
  | answer hst hnext =>
      rw [hst, hnext]
      exact ⟨rfl, Or.inl rfl⟩
  | send _ _ _ _ _ _ _ _ hno => rw [hack] at hno; cases hno
  | noBoot _ _ _ _ hno => rw [hack] at hno; cases hno
  | select _ _ _ _ _ _ hno => rw [hack] at hno; cases hno
  | command _ _ _ _ hno => rw [hack] at hno; cases hno
  | byte _ _ _ _ _ _ _ hno => rw [hack] at hno; cases hno
  | goOn _ _ _ _ _ _ _ hno => rw [hack] at hno; cases hno
  | release _ _ _ _ hno => rw [hack] at hno; cases hno
  | recovered _ _ _ _ hno => rw [hack] at hno; cases hno

end

/-! ## The registers between edges -/

/-- What the registers and the list of reads hold: the shifter has as many reads as the list, and
none outside the manual mode or when a reset is about to end it. -/
structure Steady (p : Pipe) : Prop where
  ok : p.st.rxtx.Ok
  busy : p.st.rxtx.datAckL = true → p.st.rxtx.state = .data
  asked : reading p.st.autoState = true →
    wbValid p.st = true ∧ p.reqMap = true ∧ p.st.wbReq.we = false ∧ ctrlCs p.st = false ∧
      ctrlReset p.st = false
  rest : ctrlCs p.st = true ∨ ctrlReset p.st = true → Resting p.st.autoState
  manual : ctrlCs p.st = true →
    p.reads.length = inflight p.st.rxtx ∧ (p.st.pendingRead = false → inflight p.st.rxtx = 0)
  auto : ctrlCs p.st = false → Acks p.st ∧ p.reads = []
  reset : ctrlReset p.st = true → inflight p.st.rxtx = 0
  held : p.st.wbOut.stall = true → wbValid p.st = true
  divider : p.st.rxtx.clkDiv ≤ 255
  count : p.st.autoCnt ≤ 63

/-- What an edge does with the request. -/
inductive Happening (g : Config) (p : Pipe) (t : Turn) : Prop where
  | nothing (invalid : wbValid p.st = false) (stall : (wbRsp g p.st (p.input t)).stall = false)
      (own : ownAck g p.st (p.input t) = false) (starts : startsRead g p.st (p.input t) = false)
      (exec : executes g p.st (p.input t) = false)
      (now : reading p.st.autoState = false)
      (next : reading (autoComb g p.st (p.input t)).next = false)
  | waits (valid : wbValid p.st = true) (stall : (wbRsp g p.st (p.input t)).stall = true)
      (own : ownAck g p.st (p.input t) = false) (starts : startsRead g p.st (p.input t) = false)
      (exec : executes g p.st (p.input t) = false)
      (same : reading (autoComb g p.st (p.input t)).next = reading p.st.autoState)
  | begins (valid : wbValid p.st = true) (map : p.reqMap = true) (read : p.st.wbReq.we = false)
      (auto : ctrlCs p.st = false) (reset : ctrlReset p.st = false)
      (stall : (wbRsp g p.st (p.input t)).stall = true)
      (own : ownAck g p.st (p.input t) = false) (starts : startsRead g p.st (p.input t) = false)
      (exec : executes g p.st (p.input t) = true)
      (now : reading p.st.autoState = false)
      (next : reading (autoComb g p.st (p.input t)).next = true)
  | ends (valid : wbValid p.st = true) (stall : (wbRsp g p.st (p.input t)).stall = false)
      (own : ownAck g p.st (p.input t) = true) (starts : startsRead g p.st (p.input t) = false)
      (exec : executes g p.st (p.input t) = false)
      (now : reading p.st.autoState = true)
      (next : reading (autoComb g p.st (p.input t)).next = false)
      (reads : p.reads = []) (alone : readAck p.st = false)
  | answers (valid : wbValid p.st = true) (stall : (wbRsp g p.st (p.input t)).stall = false)
      (own : ownAck g p.st (p.input t) = true) (starts : startsRead g p.st (p.input t) = false)
      (exec : executes g p.st (p.input t) = true)
      (now : reading p.st.autoState = false)
      (next : reading (autoComb g p.st (p.input t)).next = false)
      (reads : p.reads = []) (alone : readAck p.st = false)
  | starts (valid : wbValid p.st = true) (stall : (wbRsp g p.st (p.input t)).stall = false)
      (own : ownAck g p.st (p.input t) = false) (starts : startsRead g p.st (p.input t) = true)
      (exec : executes g p.st (p.input t) = true)
      (now : reading p.st.autoState = false)
      (next : reading (autoComb g p.st (p.input t)).next = false)

section

variable {g : Config} {p : Pipe} {t : Turn}

theorem mapValid_eq : wbMapValid p.st (p.input t) = (wbValid p.st && p.reqMap) := rfl

theorem regValid_eq : wbRegValid p.st (p.input t) = (wbValid p.st && !p.reqMap) := rfl

theorem startsRead_of_not_data (h : wbReg p.st (p.input t) ≠ spiRegData) :
    startsRead g p.st (p.input t) = false := by
  unfold startsRead
  cases hcs : ctrlCs p.st with
  | false => rfl
  | true => simp [startCmd_manual hcs, h]

theorem wbReg_ne_data (h : wbRegValid p.st (p.input t) = false) :
    wbReg p.st (p.input t) ≠ spiRegData := by
  intro hc
  rw [wbReg_data hc] at h
  cases h

/-- An idle shifter has no read but the one that it acks. -/
theorem Steady.inflight_of_idle (h : Steady p) (hi : busIdle p.st.rxtx = true) :
    inflight p.st.rxtx = p.st.rxtx.dAck.toNat := by
  simp only [busIdle, beq_iff_eq] at hi
  have hl : p.st.rxtx.datAckL = false := by
    by_contra hc
    have := h.busy (by simpa using hc)
    rw [hi] at this
    cases this
  simp [inflight, left_of_busIdle hi, hl]

/-- Nothing is in the shifter when a register is accessed. -/
theorem Steady.inflight_of_ready (h : Steady p) (hs : Sound g p t)
    (hv : wbRegValid p.st (p.input t) = true)
    (hd : ctrlCs p.st = true → wbReg p.st (p.input t) ≠ spiRegData)
    (hready : regReady p.st = true) : inflight p.st.rxtx = 0 ∧ readAck p.st = false := by
  have hidle : p.st.autoState = .idle ∧ busIdle p.st.rxtx = true := by
    simpa [regReady] using hready
  cases hcs : ctrlCs p.st with
  | false =>
      obtain ⟨hacks, -⟩ := h.auto hcs
      exact ⟨inflight_eq_zero.2 (hacks.other (by simp [hidle.1])), by simp [readAck, hcs]⟩
  | true =>
      have halone : readAck p.st = false := by
        by_contra hc
        have := hs.ackAlone (by simpa using hc) hv (hd hcs)
        rw [hready] at this
        cases this
      have hno : p.st.rxtx.dAck = false := by simpa [readAck, hcs] using halone
      exact ⟨by rw [h.inflight_of_idle hidle.2, hno]; rfl, halone⟩

theorem Steady.reads_of_inflight (h : Steady p) (hz : inflight p.st.rxtx = 0) : p.reads = [] := by
  cases hcs : ctrlCs p.st with
  | false => exact (h.auto hcs).2
  | true => exact List.eq_nil_of_length_eq_zero ((h.manual hcs).1.trans hz)

/-- A request that is not for the map leaves no read of the map behind. -/
theorem Steady.next_of_reg (h : Steady p) (hm : wbMapValid p.st (p.input t) = false) :
    reading p.st.autoState = false ∧ reading (autoComb g p.st (p.input t)).next = false := by
  have hnow : reading p.st.autoState = false := by
    by_contra hc
    obtain ⟨hv, hmap, -⟩ := h.asked (by simpa using hc)
    rw [mapValid_eq, hv, hmap] at hm
    cases hm
  refine ⟨hnow, ?_⟩
  by_cases hrest : ctrlCs p.st = true ∨ ctrlReset p.st = true
  · exact (autoComb_rest (h.rest hrest) (Or.inl hm)).not_reading
  · push Not at hrest
    simp only [ne_eq, Bool.not_eq_true] at hrest
    refine reading_next hrest.2 hrest.1 hnow ?_
    by_contra hc
    rw [(asks_of_beginsRead (by simpa using hc)).1] at hm
    cases hm

theorem happening_of_map (h : Steady p) (hs : Sound g p t) (hv : wbValid p.st = true)
    (hmap : p.reqMap = true) : Happening g p t := by
  have hm : wbMapValid p.st (p.input t) = true := by rw [mapValid_eq, hv, hmap]; rfl
  have hstarts : startsRead g p.st (p.input t) = false := by
    refine startsRead_of_not_data (wbReg_ne_data ?_)
    rw [regValid_eq, hmap]
    simp
  have hown : ownAck g p.st (p.input t) = (autoComb g p.st (p.input t)).ack := by
    simp [ownAck, hm]
  have hstall : (wbRsp g p.st (p.input t)).stall = !(autoComb g p.st (p.input t)).ack := by
    simp [wbRsp_stall, hm]
  have hexec : executes g p.st (p.input t) =
      if p.st.wbReq.we then (autoComb g p.st (p.input t)).ack
        else beginsRead g p.st (p.input t) := by
    simp [executes, hm]
  by_cases hr : ctrlReset p.st = true
  · -- the request waits for the end of the reset
    obtain ⟨hnext, hack, -⟩ := autoComb_reset (g := g) (i := p.input t) hr
    refine .waits hv (by rw [hstall, hack]; rfl) (by rw [hown, hack]) hstarts ?_ ?_
    · rw [hexec, hack, beginsRead, hnext]
      cases p.st.wbReq.we <;> simp
    · rw [hnext, (h.rest (Or.inr hr)).not_reading]
      rfl
  · have hcs : ctrlCs p.st = false := by
      by_contra hc
      exact hr (hs.notManual hm (by simpa using hc))
    simp only [Bool.not_eq_true] at hr
    have halone : readAck p.st = false := by simp [readAck, hcs]
    have hreads := (h.auto hcs).2
    have hno : reading p.st.autoState = true → executes g p.st (p.input t) = false := by
      intro hread
      rw [hexec, (h.asked hread).2.2.1]
      by_contra hc
      rw [(asks_of_beginsRead (by simpa using hc)).2.2.1] at hread
      cases hread
    cases hack : (autoComb g p.st (p.input t)).ack with
    | true =>
        obtain ⟨hend, hkind⟩ := ack_cases hr hcs hack
        have hstall' : (wbRsp g p.st (p.input t)).stall = false := by rw [hstall, hack]; rfl
        cases hread : reading p.st.autoState with
        | true =>
            exact .ends hv hstall' (by rw [hown, hack]) hstarts (hno hread) hread hend hreads halone
        | false =>
            have hwe := hkind.resolve_left (by simp [hread])
            exact .answers hv hstall' (by rw [hown, hack]) hstarts (by rw [hexec, hwe, hack]; rfl)
              hread hend hreads halone
    | false =>
        have hstall' : (wbRsp g p.st (p.input t)).stall = true := by rw [hstall, hack]; rfl
        cases hread : reading p.st.autoState with
        | true =>
            exact .waits hv hstall' (by rw [hown, hack]) hstarts (hno hread)
              (by rw [reading_goes_on hr hcs hread hack, hread])
        | false =>
            cases hb : beginsRead g p.st (p.input t) with
            | true =>
                obtain ⟨-, hwe, -, hnext⟩ := asks_of_beginsRead hb
                exact .begins hv hmap hwe hcs hr hstall' (by rw [hown, hack]) hstarts
                  (by rw [hexec, hwe, hb]; rfl) hread hnext
            | false =>
                exact .waits hv hstall' (by rw [hown, hack]) hstarts (by rw [hexec, hack, hb]; simp)
                  (by rw [reading_next hr hcs hread hb, hread])

theorem happening_of_reg (h : Steady p) (hs : Sound g p t) (hv : wbValid p.st = true)
    (hmap : p.reqMap = false) : Happening g p t := by
  have hm : wbMapValid p.st (p.input t) = false := by rw [mapValid_eq, hmap, Bool.and_false]
  have hrv : wbRegValid p.st (p.input t) = true := by rw [regValid_eq, hv, hmap]; rfl
  obtain ⟨hnow, hnext⟩ := h.next_of_reg (g := g) hm
  by_cases hd : ctrlCs p.st = true ∧ wbReg p.st (p.input t) = spiRegData
  · -- the data register in manual mode
    obtain ⟨hcs, hreg⟩ := hd
    have hstart := startCmd_manual (g := g) (i := p.input t) hcs
    have hstall : (wbRsp g p.st (p.input t)).stall =
        ((p.st.wbReq.we && p.st.pendingRead) || !nextCmd p.st.rxtx) := by
      simp [wbRsp_stall, hm, hcs, hreg]
    have hown : ownAck g p.st (p.input t) =
        (p.st.wbReq.we && !p.st.pendingRead && nextCmd p.st.rxtx) := by
      simp [ownAck, hm, hcs, hreg]
    have hexec : executes g p.st (p.input t) = startCmd p.st.rxtx (cmdOut g p.st (p.input t)) := by
      simp [executes, hm, hcs, hreg]
    have hreads : startsRead g p.st (p.input t) =
        (startCmd p.st.rxtx (cmdOut g p.st (p.input t)) && !p.st.wbReq.we) := by
      simp [startsRead, hcs]
    rw [hstart, hreg] at hexec hreads
    cases hn : nextCmd p.st.rxtx with
    | false =>
        exact .waits hv (by simp [hstall, hn]) (by simp [hown, hn]) (by simp [hreads, hn])
          (by simp [hexec, hn]) (by rw [hnow, hnext])
    | true =>
        cases hw : p.st.wbReq.we with
        | false =>
            exact .starts hv (by simp [hstall, hn, hw]) (by simp [hown, hw])
              (by simp [hreads, hn, hw])
              (by simp [hexec, hn, hw]) hnow hnext
        | true =>
            cases hp : p.st.pendingRead with
            | true =>
                exact .waits hv (by simp [hstall, hw, hp]) (by simp [hown, hp])
                  (by simp [hreads, hw]) (by simp [hexec, hw, hp]) (by rw [hnow, hnext])
            | false =>
                have hz := (h.manual hcs).2 hp
                have hack := (inflight_eq_zero.1 hz).2.2
                exact .answers hv (by simp [hstall, hn, hw, hp]) (by simp [hown, hn, hw, hp])
                  (by simp [hreads, hw]) (by simp [hexec, hn, hp]) hnow hnext
                  (h.reads_of_inflight hz) (by simp [readAck, hack])
  · have hdata : (ctrlCs p.st && wbReg p.st (p.input t) == spiRegData) = false := by
      by_contra hc
      exact hd (by simpa using hc)
    have hstall : (wbRsp g p.st (p.input t)).stall = !regReady p.st := by
      simp [wbRsp_stall, hm, hdata, hrv]
    have hown : ownAck g p.st (p.input t) = regReady p.st := by simp [ownAck, hm, hdata, hrv]
    have hexec : executes g p.st (p.input t) = regReady p.st := by simp [executes, hm, hdata, hrv]
    have hstarts : startsRead g p.st (p.input t) = false := by
      cases hcs : ctrlCs p.st with
      | false => simp [startsRead, hcs]
      | true => exact startsRead_of_not_data fun hc => hd ⟨hcs, hc⟩
    cases hready : regReady p.st with
    | true =>
        obtain ⟨hz, halone⟩ := h.inflight_of_ready hs hrv (fun hcs hc => hd ⟨hcs, hc⟩) hready
        exact .answers hv (by rw [hstall, hready]; rfl) (by rw [hown, hready]) hstarts
          (by rw [hexec, hready]) hnow hnext (h.reads_of_inflight hz) halone
    | false =>
        exact .waits hv (by rw [hstall, hready]; rfl) (by rw [hown, hready]) hstarts
          (by rw [hexec, hready]) (by rw [hnow, hnext])

theorem happening (h : Steady p) (hs : Sound g p t) : Happening g p t := by
  cases hv : wbValid p.st with
  | false =>
      have hm : wbMapValid p.st (p.input t) = false := by rw [mapValid_eq, hv, Bool.false_and]
      have hrv : wbRegValid p.st (p.input t) = false := by rw [regValid_eq, hv, Bool.false_and]
      have hreg := wbReg_ne_data hrv
      obtain ⟨hnow, hnext⟩ := h.next_of_reg (g := g) hm
      exact .nothing hv (by simp [wbRsp_stall, hm, hrv, hreg]) (by simp [ownAck, hm, hrv, hreg])
        (startsRead_of_not_data hreg) (by simp [executes, hm, hrv, hreg]) hnow hnext
  | true =>
      cases hmap : p.reqMap with
      | true => exact happening_of_map h hs hv hmap
      | false => exact happening_of_reg h hs hv hmap

end

end Microwatt.Spi
