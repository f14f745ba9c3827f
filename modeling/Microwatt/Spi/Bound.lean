import Microwatt.Spi.Orderly

/-!
# Every request is acked in time

The oldest request that has no ack yet comes nearer to it in every cycle.  What it waits for is a
number of cycles of the shifter, in each state of the automatic machine, and the divider has eight
bits.
-/

namespace Microwatt.Spi

open Clocked Soc

/-! ## The shifter -/

/-- More than the cycles that the shifter needs to take a command. -/
def shifterBound : Nat := 4864

/-- More than the cycles of a state of the automatic machine. -/
def stateBound : Nat := 16640

/-- The cycles until the shifter takes a command. -/
def toReady (r : Rxtx) : Nat :=
  256 * halves r + (r.clkDiv - r.counter)

/-- The cycles until the shifter acks a read. -/
def toAck (r : Rxtx) : Nat :=
  if r.dAck then 0 else if r.datAckL then 1 else toReady r + 2

section

variable {r : Rxtx} {c : Cmd} {dataLines : Nat} {dat : BitVec 4}

theorem halves_le (r : Rxtx) : halves r ≤ 18 := by
  have := left_le r
  unfold halves
  split_ifs <;> omega

theorem toReady_lt (hd : r.clkDiv ≤ 255) : toReady r < shifterBound := by
  have := halves_le r
  unfold toReady shifterBound
  omega

theorem toReady_step (h : r.Ok) (hd : (r.step c dataLines dat).clkDiv ≤ 255)
    (hn : nextCmd r = false) : toReady (r.step c dataLines dat) < toReady r := by
  have hstep : halves (r.step c dataLines dat) < halves r ∨
      (halves (r.step c dataLines dat) = halves r ∧
        (r.step c dataLines dat).clkDiv - (r.step c dataLines dat).counter <
          r.clkDiv - r.counter) := halves_step h hn
  unfold toReady
  omega

/-- A read in the shifter comes nearer to its ack. -/
theorem toAck_step (h : r.Ok) (hd : (r.step c dataLines dat).clkDiv ≤ 255) (hin : 0 < inflight r)
    (hno : r.dAck = false) : toAck (r.step c dataLines dat) < toAck r := by
  have hdack : (r.step c dataLines dat).dAck = r.datAckL := rfl
  unfold toAck
  rw [hdack, hno]
  cases hl : r.datAckL with
  | true => simp
  | false =>
      have hn : nextCmd r = false := by
        by_contra hc
        simp [inflight, left_of_nextCmd (by simpa using hc), hl, hno] at hin
      have hlt : toReady (r.step c dataLines dat) < toReady r := toReady_step h hd hn
      simp only [Bool.false_eq_true, if_false]
      split_ifs <;> omega

/-- Without a new command the shifter becomes idle. -/
theorem busIdle_step (hn : nextCmd r = true) (hs : startCmd r c = false) :
    busIdle (r.step c dataLines dat) = true := by
  have hend : endCmd r c = true := by
    simp only [startCmd, hn, Bool.true_and] at hs
    simp [endCmd, hn, hs]
  simp [busIdle, Rxtx.step, hs, hend]

end

/-! ## The request -/

/-- The cycles that a request needs in manual mode, to be answered or given to the shifter. -/
def manualRank (s : State) : Nat :=
  if s.wbReq.adr.extractLsb' 0 3 = spiRegData then
    if s.wbReq.we && s.pendingRead then
      -- the shifter has to be idle first
      (if busIdle s.rxtx then shifterBound else shifterBound + 1 + toReady s.rxtx)
    else toReady s.rxtx
  else if s.autoState = .boot then shifterBound + 1 + toReady s.rxtx
  else if busIdle s.rxtx then 0
  else toReady s.rxtx + 1

def autoRank (map : Bool) (s : State) : Nat :=
  order map s.autoState * stateBound + (256 * waiting s + (s.rxtx.clkDiv - s.rxtx.counter))

/-- The cycles of the request in the request register. -/
def requestRank (p : Pipe) : Nat :=
  if ctrlReset p.st then 42 * stateBound
  else if ctrlCs p.st then manualRank p.st
  else autoRank p.reqMap p.st

/-- The cycles until the oldest request is answered: the reads in the shifter come first. -/
def answerRank (p : Pipe) : Nat :=
  if p.reads = [] then stateBound + requestRank p else toAck p.st.rxtx

theorem order_le (map : Bool) (a : AutoState) : order map a ≤ 40 := by
  unfold order
  cases a with
  | adr j =>
      have := j.isLt
      simp only []
      split_ifs <;> omega
  | _ =>
      simp only []
      split_ifs <;> omega

theorem waiting_le {s : State} (h : s.autoCnt ≤ 63) : waiting s ≤ 63 := by
  have := halves_le s.rxtx
  unfold waiting
  cases s.autoState <;> simp only [] <;> (try split_ifs) <;> omega

theorem manualRank_lt {s : State} (hd : s.rxtx.clkDiv ≤ 255) : manualRank s < stateBound := by
  have := toReady_lt hd
  unfold manualRank
  simp only [stateBound, shifterBound] at *
  split_ifs <;> omega

theorem autoRank_lt {s : State} (map : Bool) (hd : s.rxtx.clkDiv ≤ 255) (hc : s.autoCnt ≤ 63) :
    autoRank map s < 41 * stateBound := by
  have := waiting_le hc
  unfold autoRank
  have hmul : order map s.autoState * stateBound ≤ 40 * stateBound :=
    Nat.mul_le_mul_right _ (order_le map s.autoState)
  simp only [stateBound] at *
  omega

/-- More than the cycles in which one more request is answered. -/
def answerBound : Nat := 44 * stateBound

theorem answerRank_lt {p : Pipe} (h : Steady p) : answerRank p < answerBound := by
  have hm := manualRank_lt h.divider
  have ha := autoRank_lt p.reqMap h.divider h.count
  have hr := toReady_lt h.divider
  unfold answerRank requestRank toAck answerBound
  simp only [stateBound, shifterBound] at *
  split_ifs <;> omega

section

variable {g : Config} {p : Pipe} {t : Turn}

theorem ctrl_of_stall (hst : (wbRsp g p.st (p.input t)).stall = true) :
    (ctrlReset p.st = true ∧ ctrlReset (p.step g t).st = false) ∨
      (ctrlReset p.st = false ∧ ctrlReset (p.step g t).st = false ∧
        ctrlCs (p.step g t).st = ctrlCs p.st) := by
  rcases ctrl_edge (g := g) (s := p.st) (i := p.input t) with hw | ⟨-, hr, -, hr'⟩ | hkeep
  · -- a write does not stall
    obtain ⟨-, hrv, -, hreg, hready⟩ := idle_of_writes hw
    have hm : wbMapValid p.st (p.input t) = false := by
      rw [regValid_eq] at hrv
      rw [mapValid_eq]
      simp_all
    rw [wbRsp_stall, hm, hreg, hready, hrv] at hst
    have hne : (spiRegCtrl == spiRegData) = false := by decide
    simp [hne] at hst
  · exact Or.inl ⟨hr, hr'⟩
  · exact Or.inr hkeep

/-- A request that waits in manual mode comes nearer. -/
theorem manualRank_step (h : Steady p) (hv : wbValid p.st = true) (hmap : p.reqMap = false)
    (hr : ctrlReset p.st = false) (hcs : ctrlCs p.st = true)
    (hst : (wbRsp g p.st (p.input t)).stall = true) :
    manualRank (p.step g t).st < manualRank p.st := by
  have hm : wbMapValid p.st (p.input t) = false := by rw [mapValid_eq, hmap, Bool.and_false]
  have hrv : wbRegValid p.st (p.input t) = true := by rw [regValid_eq, hv, hmap]; rfl
  have hreg : wbReg p.st (p.input t) = p.st.wbReq.adr.extractLsb' 0 3 := if_pos hrv
  have hreq : (p.step g t).st.wbReq = p.st.wbReq := by rw [wbReq_step, hst, if_pos rfl]
  have hdiv : (p.step g t).st.rxtx.clkDiv ≤ 255 := clkDiv_le h.divider
  have hlt' := toReady_lt hdiv
  have hready : nextCmd p.st.rxtx = false →
      toReady (p.step g t).st.rxtx < toReady p.st.rxtx := toReady_step h.ok hdiv
  have hidle : nextCmd p.st.rxtx = true →
      startCmd p.st.rxtx (cmdOut g p.st (p.input t)) = false →
      busIdle (p.step g t).st.rxtx = true := busIdle_step
  have hstart := startCmd_manual (g := g) (i := p.input t) hcs
  rw [wbRsp_stall, hm, hcs, hreg, hrv] at hst
  rw [hreg] at hstart
  unfold manualRank
  rw [hreq]
  by_cases hd : p.st.wbReq.adr.extractLsb' 0 3 = spiRegData
  · have hst' : ((p.st.wbReq.we && p.st.pendingRead) || !nextCmd p.st.rxtx) = true := by
      simpa [hd] using hst
    have hno : startCmd p.st.rxtx (cmdOut g p.st (p.input t)) = false := by
      rw [hstart, hd]
      cases hn : nextCmd p.st.rxtx <;> simp_all
    have hpend : (p.step g t).st.pendingRead =
        if busIdle p.st.rxtx then false else p.st.pendingRead := by
      have hstep : (p.step g t).st.pendingRead =
          if (cmdOut g p.st (p.input t)).valid && nextCmd p.st.rxtx then !p.st.wbReq.we
          else if busIdle p.st.rxtx then false
          else p.st.pendingRead := rfl
      rw [hstep, Bool.and_comm]
      exact if_neg (by simpa [startCmd] using hno)
    rw [if_pos hd, if_pos hd, hpend]
    cases hw : (p.st.wbReq.we && p.st.pendingRead) with
    | true =>
        simp only [Bool.and_eq_true] at hw
        rw [hw.1, hw.2]
        cases hi : busIdle p.st.rxtx with
        | true => simpa using hlt'
        | false =>
            cases hn : nextCmd p.st.rxtx with
            | true =>
                simp only [hidle hn hno, Bool.false_eq_true, if_false, Bool.and_self, if_true]
                omega
            | false =>
                have := hready hn
                simp only [Bool.false_eq_true, if_false, Bool.and_self, if_true]
                split_ifs <;> omega
    | false =>
        rw [hw, Bool.false_or, Bool.not_eq_true'] at hst'
        have hw' : (p.st.wbReq.we && if busIdle p.st.rxtx then false else p.st.pendingRead) =
            false := by
          split_ifs
          · exact Bool.and_false _
          · exact hw
        rw [hw']
        simpa using hready hst'
  · have hnready : regReady p.st = false := by simpa [hd] using hst
    have hno : startCmd p.st.rxtx (cmdOut g p.st (p.input t)) = false := by
      rw [hstart]
      simp [hd]
    have hnext : (p.step g t).st.autoState = (autoComb g p.st (p.input t)).next := rfl
    rw [if_neg hd, if_neg hd, hnext]
    rcases h.rest (Or.inl hcs) with hidl | hboot
    · have hbusy : busIdle p.st.rxtx = false := by simpa [regReady, hidl] using hnready
      have hstay : (autoComb g p.st (p.input t)).next = .idle := by
        simp [autoComb, hr, hidl, hm, AutoOut.default]
      rw [hstay, hidl, hbusy]
      cases hn : nextCmd p.st.rxtx with
      | true => simp [hidle hn hno]
      | false =>
          have := hready hn
          simp only [reduceCtorEq, if_false, Bool.false_eq_true]
          split_ifs <;> omega
    · rw [hboot, if_pos rfl]
      rcases autoComb_rest (g := g) (i := p.input t) (Or.inr hboot) (Or.inl hm) with hgo | hstay
      · rw [hgo]
        simp only [reduceCtorEq, if_false]
        split_ifs <;> omega
      · rw [hstay, if_pos rfl]
        have hn : nextCmd p.st.rxtx = false := by
          by_contra hc
          simp only [Bool.not_eq_false] at hc
          cases hb : g.bootClocks <;>
            simp [autoComb, hr, hboot, hb, hc, AutoOut.default] at hstay
        have := hready hn
        omega

/-- A request that waits for the automatic machine comes nearer. -/
theorem autoRank_step (h : Steady p) (hv : wbValid p.st = true) (hr : ctrlReset p.st = false)
    (hcs : ctrlCs p.st = false) (hown : ownAck g p.st (p.input t) = false) :
    autoRank p.reqMap (p.step g t).st < autoRank p.reqMap p.st := by
  have hmap : wbMapValid p.st (p.input t) = p.reqMap := by rw [mapValid_eq, hv, Bool.true_and]
  have hreg : wbRegValid p.st (p.input t) = !p.reqMap := by rw [regValid_eq, hv, Bool.true_and]
  have hack : (wbRsp g p.st (p.input t)).ack = false := by
    rw [wbRsp_ack, hown]
    simp [readAck, hcs]
  have hstep := approach hr hcs h.ok (h.auto hcs).1 hmap hreg hack
  have hw' : waiting (p.step g t).st ≤ 63 := waiting_le (autoCnt_le h.count)
  have hd' : (p.step g t).st.rxtx.clkDiv ≤ 255 := clkDiv_le h.divider
  have hst : (p.step g t).st = Spi.step g p.st (p.input t) := rfl
  rw [← hst] at hstep
  unfold autoRank
  rcases hstep with hlt | ⟨heq, hlt⟩
  · have hmul : (order p.reqMap (p.step g t).st.autoState + 1) * stateBound ≤
        order p.reqMap p.st.autoState * stateBound := Nat.mul_le_mul_right _ hlt
    rw [Nat.add_mul] at hmul
    simp only [stateBound] at *
    omega
  · rw [heq]
    have := h.divider
    omega

theorem requestRank_step (h : Steady p) (hs : Sound g p t) (hv : wbValid p.st = true)
    (hst : (wbRsp g p.st (p.input t)).stall = true) (hown : ownAck g p.st (p.input t) = false) :
    requestRank (p.step g t) < requestRank p := by
  have hd' : (p.step g t).st.rxtx.clkDiv ≤ 255 := clkDiv_le h.divider
  have hc' : (p.step g t).st.autoCnt ≤ 63 := autoCnt_le h.count
  have hreq : (p.step g t).reqMap = p.reqMap := by rw [reqMap_step, hst, if_pos rfl]
  unfold requestRank
  rw [hreq]
  rcases ctrl_of_stall hst with ⟨hr, hr'⟩ | ⟨hr, hr', hcs'⟩
  · have hm := manualRank_lt hd'
    have ha := autoRank_lt p.reqMap hd' hc'
    rw [hr, hr']
    simp only [stateBound] at *
    simp only [if_true, Bool.false_eq_true, if_false]
    split_ifs <;> omega
  · rw [hr, hr', hcs']
    cases hcs : ctrlCs p.st with
    | true =>
        have hmap : p.reqMap = false := by
          by_contra hc
          have := hs.notManual (by rw [mapValid_eq, hv, Bool.true_and]; simpa using hc) hcs
          rw [hr] at this
          cases this
        simpa using manualRank_step h hv hmap hr hcs hst
    | false => simpa using autoRank_step h hv hr hcs hown

/-- The oldest request is answered, or comes nearer to it. -/
theorem answerRank_step (h : Steady p) (hs : Sound g p t)
    (howed : p.reads ≠ [] ∨ wbValid p.st = true) :
    p.answered.length < (p.step g t).answered.length ∨
      answerRank (p.step g t) < answerRank p := by
  have hanswered : (p.step g t).answered = p.answered ++
      ((if readAck p.st then p.reads.take 1 else []) ++
      if ownAck g p.st (p.input t) then [p.request] else []) := rfl
  have hreads : (p.step g t).reads = (if readAck p.st then p.reads.tail else p.reads) ++
      if startsRead g p.st (p.input t) then [p.request] else [] := rfl
  have hd' : (p.step g t).st.rxtx.clkDiv ≤ 255 := clkDiv_le h.divider
  by_cases hnil : p.reads = []
  · have hno : readAck p.st = false := by
      by_contra hc
      exact h.reads_of_ack (by simpa using hc) hnil
    have hv := howed.resolve_left (by simp [hnil])
    have hrank : answerRank p = stateBound + requestRank p := if_pos hnil
    have hstay : (wbRsp g p.st (p.input t)).stall = true → ownAck g p.st (p.input t) = false →
        startsRead g p.st (p.input t) = false → answerRank (p.step g t) < answerRank p := by
      intro hst hown hstarts
      have hnil' : (p.step g t).reads = [] := by rw [hreads, hno, hstarts, hnil]; rfl
      have hrank' : answerRank (p.step g t) = stateBound + requestRank (p.step g t) := if_pos hnil'
      have := requestRank_step h hs hv hst hown
      omega
    cases happening (g := g) h hs with
    | nothing hv' => rw [hv] at hv'; cases hv'
    | waits _ hst hown hstarts => exact Or.inr (hstay hst hown hstarts)
    | begins _ _ _ _ _ hst hown hstarts => exact Or.inr (hstay hst hown hstarts)
    | ends _ _ hown =>
        left
        rw [hanswered, hown]
        simp
    | answers _ _ hown =>
        left
        rw [hanswered, hown]
        simp
    | starts _ _ _ hstarts =>
        right
        have hsome : (p.step g t).reads ≠ [] := by
          rw [hreads, hstarts]
          simp
        have hrank' : answerRank (p.step g t) = toAck (p.step g t).st.rxtx := if_neg hsome
        have := toReady_lt hd'
        rw [hrank, hrank', toAck]
        simp only [stateBound, shifterBound] at *
        split_ifs <;> omega
  · have hcs : ctrlCs p.st = true := by
      by_contra hc
      exact hnil (h.auto (by simpa using hc)).2
    cases hack : readAck p.st with
    | true =>
        left
        have := List.length_pos_of_ne_nil hnil
        rw [hanswered, hack]
        simp only [if_true, List.length_append, List.length_take]
        omega
    | false =>
        right
        have hno : p.st.rxtx.dAck = false := by simpa [readAck, hcs] using hack
        have hin : 0 < inflight p.st.rxtx := by
          rw [← (h.manual hcs).1]
          exact List.length_pos_of_ne_nil hnil
        have hsome : (p.step g t).reads ≠ [] := by
          rw [hreads, hack]
          simp [hnil]
        have hrank : answerRank p = toAck p.st.rxtx := if_neg hnil
        have hrank' : answerRank (p.step g t) = toAck (p.step g t).st.rxtx := if_neg hsome
        rw [hrank, hrank']
        exact toAck_step h.ok hd' hin hno

/-- At most five requests are owed an answer: three reads in the shifter and two in the
registers. -/
theorem owed_le (h : Steady p) (ho : Orderly p) : p.accepted.length ≤ p.answered.length + 5 := by
  have hreads : p.reads.length ≤ 3 := by
    cases hcs : ctrlCs p.st with
    | true =>
        rw [(h.manual hcs).1]
        exact inflight_le _
    | false => simp [(h.auto hcs).2]
  have hcur : p.current.length ≤ 1 := by
    unfold Pipe.current
    split_ifs <;> simp
  have hstash : p.stashed.length ≤ 1 := by
    unfold Pipe.stashed
    split_ifs <;> simp
  rw [ho.accepted]
  simp only [List.length_append]
  omega

/-- Something is owed an answer only while it is in the shifter or in the request register. -/
theorem owed_cases (h : Steady p) (ho : Orderly p)
    (howed : p.answered.length < p.accepted.length) : p.reads ≠ [] ∨ wbValid p.st = true := by
  by_contra hc
  push Not at hc
  simp only [ne_eq, Bool.not_eq_true] at hc
  obtain ⟨hnil, hv⟩ := hc
  have hstash : p.stashed = [] := by
    unfold Pipe.stashed
    have hno : p.st.wbOut.stall = false := by
      by_contra hs
      rw [h.held (by simpa using hs)] at hv
      cases hv
    rw [hno]
    rfl
  rw [ho.accepted, hnil, hstash, Pipe.current, hv] at howed
  simp at howed

/-! ## The run -/

theorem steady_start {s : State} (h : State.Reset g s) : Steady (Pipe.start s) := by
  have hcs : ctrlCs s = false := by
    rw [ctrlCs, h.ctrlReg]
    exact getLsbD_defaultCtrl s (by omega)
  have hr : ctrlReset s = false := by
    rw [ctrlReset, h.ctrlReg]
    exact getLsbD_defaultCtrl s (by omega)
  have hboot : Resting s.autoState := Or.inr h.autoState
  refine ⟨ok_of_reset h, fun hl => ?_, fun hc => ?_, fun _ => hboot, fun hc => ?_, fun _ => ?_,
    fun hc => ?_, fun hc => ?_, ?_, ?_⟩
  · have := h.pulses.2.2.1
    simp_all [Pipe.start]
  · rw [show reading (Pipe.start s).st.autoState = false from hboot.not_reading] at hc
    cases hc
  · rw [show ctrlCs (Pipe.start s).st = false from hcs] at hc
    cases hc
  · exact ⟨acks_of_reset h, rfl⟩
  · rw [show ctrlReset (Pipe.start s).st = false from hr] at hc
    cases hc
  · rw [show (Pipe.start s).st.wbOut.stall = false from h.out.2] at hc
    cases hc
  · show s.rxtx.clkDiv ≤ 255
    rw [h.divider.1]
    omega
  · show s.autoCnt ≤ 63
    rw [h.autoCnt]
    omega

theorem orderly_start {s : State} (h : State.Reset g s) : Orderly (Pipe.start s) := by
  have hcur : (Pipe.start s).current = [] := by simp [Pipe.current, Pipe.start, wbValid, h.wbReq]
  have hstash : (Pipe.start s).stashed = [] := by simp [Pipe.stashed, Pipe.start, h.out.2]
  refine ⟨?_, ?_, rfl⟩
  · rw [hcur, hstash]
    rfl
  · rw [hcur, ite_self]
    rfl

/-- What every edge keeps holds in the whole run. -/
theorem pipeAt_invariant {s : State} (h : State.Reset g s) (input : Nat → Turn) (n : Nat)
    (hs : ∀ m < n, Sound g (pipeAt g s input m) (input m)) :
    Steady (pipeAt g s input n) ∧ Orderly (pipeAt g s input n) := by
  induction n with
  | zero => exact ⟨steady_start h, orderly_start h⟩
  | succ n ih =>
      obtain ⟨hst, ho⟩ := ih fun m hm => hs m (by omega)
      have hsn := hs n (by omega)
      exact ⟨hst.step hsn, ho.step hst hsn⟩

theorem answered_mono (s : State) (input : Nat → Turn) :
    Monotone fun n => (pipeAt g s input n).answered.length :=
  monotone_nat_of_le_succ fun n => by
    simp only [pipeAt, trace, Pipe.step, List.length_append]
    exact Nat.le_add_right _ _

theorem accepted_mono (s : State) (input : Nat → Turn) :
    Monotone fun n => (pipeAt g s input n).accepted.length :=
  monotone_nat_of_le_succ fun n => by
    simp only [pipeAt, trace, Pipe.step, List.length_append]
    exact Nat.le_add_right _ _

/-- From a reset on, as long as each cycle meets the condition, the requests are carried out once
each and in order, each has an ack of its own, in order, and all that have been accepted before an
edge are acked after `5 * answerBound` more cycles. -/
theorem bus_protocol {s : State} (h : State.Reset g s) (input : Nat → Turn) (n : Nat) :
    ((∀ m < n, Sound g (pipeAt g s input m) (input m)) → Orderly (pipeAt g s input n)) ∧
    ((∀ m < n + 5 * answerBound, Sound g (pipeAt g s input m) (input m)) →
      (pipeAt g s input n).accepted.length ≤ (pipeAt g s input (n + 5 * answerBound)).acks) := by
  refine ⟨fun hs => (pipeAt_invariant h input n hs).2, fun hs => ?_⟩
  have hinv : ∀ m ≤ n + 5 * answerBound,
      Steady (pipeAt g s input m) ∧ Orderly (pipeAt g s input m) :=
    fun m hm => pipeAt_invariant h input m fun k hk => hs k (by omega)
  rw [(hinv _ le_rfl).2.acks]
  have hserve := fun m (hm : m + answerBound ≤ n + 5 * answerBound) =>
    answered_within (N := n + 5 * answerBound) (n := m) (accepted_mono (g := g) s input)
      (answered_mono s input) (fun k hk => answerRank_lt (hinv k hk).1)
      (fun k hk howed => answerRank_step (hinv k (by omega)).1 (hs k hk)
        (owed_cases (hinv k (by omega)).1 (hinv k (by omega)).2 howed)) hm
  have hle := owed_le (hinv n (by omega)).1 (hinv n (by omega)).2
  exact all_answered_within (accepted_mono s input) (answered_mono s input) hserve 5 n le_rfl
    le_rfl hle

end

/-! ## Two runs -/

/-- A read of the control register. -/
def readCtrl : Access := ⟨false, ⟨1, 0, 15, true, true, false⟩⟩

/-- A read of the map and one of the control register in the next cycle. -/
def twoReads (n : Nat) : Turn :=
  ⟨if n = 0 then readWord.req else if n = 1 then readCtrl.req else wbIdle, n = 0, 0⟩

/-- The second read waits in the stash, and then in the request register for the flash to be given
up.  In its first cycle there it stalls again, and no request comes, so that it is taken from the
stash once more. -/
theorem stash_replayed :
    (pipeAt quadConfig (State.zero quadConfig) twoReads 136).accepted = [readWord, readCtrl] ∧
      (pipeAt quadConfig (State.zero quadConfig) twoReads 136).executed =
        [readWord, readCtrl, readCtrl] ∧
      (pipeAt quadConfig (State.zero quadConfig) twoReads 136).acks = 3 := by
  unfold pipeAt
  rw [trace_eq_run]
  decide +kernel

/-- A write and a read of `auto_cfg`. -/
def writeCfg : Access := ⟨false, ⟨2, 0x12345, 15, true, true, true⟩⟩

def readCfg : Access := ⟨false, ⟨2, 0, 15, true, true, false⟩⟩

/-- A read and two accesses behind it.  The flash gets its clocks first, so that the read waits, the
write goes to the stash, and the last request is stalled on the bus until cycle 19. -/
def threeRequests (n : Nat) : Turn :=
  ⟨if n = 0 then readCtrl.req else if n = 1 then writeCfg.req else if n ≤ 19 then readCfg.req
    else wbIdle, false, 0⟩

instance (g : Config) (p : Pipe) (t : Turn) : Decidable (Sound g p t) :=
  decidable_of_iff
    (((wbRsp g p.st (p.input t)).stall = true → p.st.wbOut.stall = false →
        (t.wbIn.cyc && t.wbIn.stb) = true ∨ (p.st.wbStash.stb && p.st.wbStash.cyc) = false) ∧
      (readAck p.st = true → wbRegValid p.st (p.input t) = true →
        wbReg p.st (p.input t) ≠ spiRegData → regReady p.st = false) ∧
      (wbMapValid p.st (p.input t) = true → ctrlCs p.st = true → ctrlReset p.st = true) ∧
      (ctrlReset p.st = true → startsRead g p.st (p.input t) = false))
    ⟨fun h => ⟨h.1, h.2.1, h.2.2.1, h.2.2.2⟩,
      fun h => ⟨h.noReplay, h.ackAlone, h.notManual, h.resetQuiet⟩⟩

/-- There is no request, and the machine is not in manual mode. -/
structure AtRest (p : Pipe) : Prop where
  request : wbValid p.st = false
  out : p.st.wbOut.stall = false
  auto : ctrlCs p.st = false

section

variable {g : Config} {p : Pipe} {t : Turn}

theorem AtRest.stall (h : AtRest p) : (wbRsp g p.st (p.input t)).stall = false := by
  simp [wbRsp, wbMapValid, wbRegValid, h.request, h.auto]

theorem AtRest.sound (h : AtRest p) : Sound g p t where
  noReplay hs := by
    rw [h.stall] at hs
    cases hs
  ackAlone ha := by simp [readAck, h.auto] at ha
  notManual _ hc := by
    rw [h.auto] at hc
    cases hc
  resetQuiet _ := by simp [startsRead, h.auto]

theorem AtRest.step (h : AtRest p) (hidle : t.wbIn = wbIdle) : AtRest (p.step g t) := by
  refine ⟨?_, ?_, ?_⟩
  · simp [wbValid, wbReq_step, h.stall, h.out, hidle, wbIdle]
  · simp [Pipe.step, Spi.step, h.stall, h.out]
  · rcases ctrl_edge (g := g) (s := p.st) (i := p.input t) with hw | ⟨-, -, hcs, -⟩ | ⟨-, -, hcs⟩
    · have := (idle_of_writes hw).2.1
      simp [wbRegValid, h.request] at this
    · exact hcs
    · exact hcs.trans h.auto

end

/-- The unit with these requests, from a reset on. -/
def threeAt (n : Nat) : Pipe := pipeAt quadConfig (State.zero quadConfig) threeRequests n

theorem threeAt_eq_run (n : Nat) : threeAt n =
    run (Pipe.step quadConfig) (Pipe.start (State.zero quadConfig))
      ((List.range n).map threeRequests) :=
  trace_eq_run _ _ n

/-- After the last request the unit rests. -/
theorem sound_threeRequests (n : Nat) : Sound quadConfig (threeAt n) (threeRequests n) := by
  rcases Nat.lt_or_ge n 21 with hn | hn
  · rw [threeAt_eq_run]
    revert n
    decide +kernel
  · have hstart : AtRest (threeAt 21) := by
      rw [threeAt_eq_run]
      constructor <;> decide +kernel
    have hrest : AtRest (threeAt n) := by
      refine trace_invariant AtRest 21 (fun m hm h => h.step ?_) hstart n hn
      simp [threeRequests, show m ≠ 0 by omega, show m ≠ 1 by omega, show ¬m ≤ 19 by omega]
    exact hrest.sound

/-- The last request is held on the bus, all three are carried out in order, and each has an ack. -/
theorem bus_protocol_threeRequests :
    ((threeAt 18).st.wbOut.stall = true ∧
      (threeAt 22).executed = [readCtrl, writeCfg, readCfg] ∧ Orderly (threeAt 22)) ∧
    (threeAt 22).accepted.length ≤ (threeAt (22 + 5 * answerBound)).acks := by
  obtain ⟨horder, hacks⟩ := bus_protocol (g := quadConfig) State.zero_reset threeRequests 22
  refine ⟨⟨?_, ?_, horder fun m _ => sound_threeRequests m⟩, hacks fun m _ => sound_threeRequests m⟩
  · rw [threeAt_eq_run]
    decide +kernel
  · rw [threeAt_eq_run]
    decide +kernel

end Microwatt.Spi
