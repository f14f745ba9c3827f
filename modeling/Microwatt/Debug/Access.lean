import Microwatt.Debug.Step

/-!
# Accesses over the debug bus

An access holds its request for some cycles and takes the data in one of them.  Enough cycles follow
for a doubleword of the log to be fetched.
-/

namespace Microwatt.Debug

/-- How long an access takes: the request is held for `hold + 1` cycles, the data is taken in cycle
`sample` of them, and `gap` cycles follow. -/
structure Timing where
  hold : Nat
  sample : Nat
  gap : Nat
  sample_le : sample ≤ hold
  gap_ge : 5 ≤ gap

/-- What an access asks for. -/
structure Request where
  wr : Bool
  addr : BitVec 4
  din : BitVec 64

/-- The debug unit, and the number of cycles so far. -/
structure World (k : Nat) where
  hw : State k
  cycle : Nat

section

variable {k : Nat} (env : Nat → Input) (timing : Nat → Timing) (w : World k) (q : Request)

/-- The inputs in cycle `n` of an access that starts in cycle `start`. -/
def inputAt (start : Nat) (n : Nat) : Input :=
  if n ≤ (timing start).hold then
    { env (start + n) with dmiReq := true, dmiWr := q.wr, dmiAddr := q.addr, dmiDin := q.din }
  else { env (start + n) with dmiReq := false }

/-- The registers in cycle `n` of an access. -/
def hwAt (n : Nat) : State k := Clocked.trace step w.hw (inputAt env timing q w.cycle) n

/-- The cycles until the next access. -/
def Timing.cycles (t : Timing) : Nat := t.hold + 1 + t.gap

/-- After an access. -/
def after : World k where
  hw := hwAt env timing w q (timing w.cycle).cycles
  cycle := w.cycle + (timing w.cycle).cycles

/-- What an access reads. -/
def dataOf : BitVec 64 :=
  dmiDout (hwAt env timing w q (timing w.cycle).sample)
    (inputAt env timing q w.cycle (timing w.cycle).sample)

end

/-- No access is going on, and the log is not read over the debug bus. -/
structure Quiet {k : Nat} (s : State k) : Prop where
  dmiReq1 : s.dmiReq1 = false
  dmiReadLogData : s.dmiReadLogData = false
  dmiReadLogData1 : s.dmiReadLogData1 = false
  doDmiLogRd : s.doDmiLogRd = false
  logDmiReading : s.logDmiReading = false
  logDmiReadDone : s.logDmiReadDone = false

/-- The log is stopped by the address register, and the doubleword at its address has been
fetched. -/
structure Fetched {k : Nat} (s : State k) : Prop where
  stop : s.logDmiAddr.getLsbD 31 = true
  data : s.logDmiData = selectDword (s.logArray (entryOf k s.logDmiAddr)) s.logDmiAddr

/-! ## One edge -/

section Edge

variable {k : Nat} {s : State k} {i : Input}

/-- The log does not change while the address register stops it. -/
theorem step_log (hrst : i.rst = false) (hstop : s.logDmiAddr.getLsbD 31 = true) :
    (step s i).logArray = s.logArray ∧ (step s i).logWrPtr = s.logWrPtr := by
  have hwr : logWrEnable s i = false := by
    unfold logWrEnable
    rw [hstop, Bool.or_true, Bool.true_or, Bool.true_or, Bool.not_true]
  simp only [step, hwr, hrst, Bool.false_eq_true, if_false, and_self]

theorem step_addr (hrst : i.rst = false) (hw : writes s i .logAddr = false)
    (hd : logDataDone s i = false) : (step s i).logDmiAddr = s.logDmiAddr := by
  simp only [step, hrst, hw, hd, Bool.false_eq_true, if_false]

theorem Fetched.step (h : Fetched s) (hrst : i.rst = false) (hw : writes s i .logAddr = false)
    (hd : logDataDone s i = false) (hdone : s.logDmiReadDone = false) : Fetched (step s i) := by
  have haddr := step_addr hrst hw hd
  refine ⟨haddr ▸ h.stop, ?_⟩
  rw [haddr, (step_log hrst h.stop).1, ← h.data]
  simp only [Debug.step, hdone, Bool.false_eq_true, if_false]

end Edge

/-! ## An access -/

section Run

variable {k : Nat} {env : Nat → Input} {timing : Nat → Timing} {w : World k} {q : Request}

theorem hwAt_succ (n : Nat) : hwAt env timing w q (n + 1) =
    step (hwAt env timing w q n) (inputAt env timing q w.cycle n) := rfl

theorem inputAt_rst (hrst : ∀ n, (env n).rst = false) (start n : Nat) :
    (inputAt env timing q start n).rst = false := by
  unfold inputAt
  split_ifs <;> exact hrst _

theorem inputAt_dmiReq (start n : Nat) :
    (inputAt env timing q start n).dmiReq = decide (n ≤ (timing start).hold) := by
  unfold inputAt
  split_ifs with h <;> simp [h]

theorem inputAt_held {start n : Nat} (h : n ≤ (timing start).hold) :
    (inputAt env timing q start n).dmiWr = q.wr ∧
      (inputAt env timing q start n).dmiAddr = q.addr ∧
      (inputAt env timing q start n).dmiDin = q.din := by
  unfold inputAt
  rw [if_pos h]
  exact ⟨rfl, rfl, rfl⟩

section

variable (hrst : ∀ n, (env n).rst = false) (hq : Quiet w.hw)

include hrst

theorem dmiReq1_succ (n : Nat) :
    (hwAt env timing w q (n + 1)).dmiReq1 = decide (n ≤ (timing w.cycle).hold) := by
  rw [hwAt_succ]
  simp only [step, inputAt_rst hrst, inputAt_dmiReq, Bool.false_eq_true, if_false]

theorem dmiReadLogData_succ (n : Nat) : (hwAt env timing w q (n + 1)).dmiReadLogData =
    (decide (n ≤ (timing w.cycle).hold) && decide (dbgReg q.addr = some .logData)) := by
  rw [hwAt_succ]
  simp only [step, inputAt_rst hrst, inputAt_dmiReq, Bool.false_eq_true, if_false]
  by_cases h : n ≤ (timing w.cycle).hold
  · rw [(inputAt_held h).2.1]
  · simp [h]

theorem dmiReadLogData1_succ (n : Nat) : (hwAt env timing w q (n + 1)).dmiReadLogData1 =
    (hwAt env timing w q n).dmiReadLogData := by
  rw [hwAt_succ]
  simp only [step, inputAt_rst hrst, Bool.false_eq_true, if_false]

include hq

/-- A request is new in its first cycle only. -/
theorem newReq_hwAt (n : Nat) :
    newReq (hwAt env timing w q n) (inputAt env timing q w.cycle n) = decide (n = 0) := by
  unfold newReq
  rw [inputAt_dmiReq]
  cases n with
  | zero =>
      change (decide (0 ≤ (timing w.cycle).hold) && !w.hw.dmiReq1) = _
      simp [hq.dmiReq1]
  | succ n =>
      rw [dmiReq1_succ hrst]
      by_cases h : n + 1 ≤ (timing w.cycle).hold
      · simp [h, Nat.le_of_succ_le h]
      · simp [h]

theorem writes_hwAt (n : Nat) (r : DbgReg) :
    writes (hwAt env timing w q n) (inputAt env timing q w.cycle n) r =
      (decide (n = 0) && q.wr && decide (dbgReg q.addr = some r)) := by
  unfold writes
  rw [newReq_hwAt hrst hq]
  cases n with
  | zero => rw [(inputAt_held (Nat.zero_le _)).1, (inputAt_held (Nat.zero_le _)).2.1]
  | succ n => simp

/-- A read of LOG_DATA ends in the second cycle after its request. -/
theorem logDataDone_hwAt (n : Nat) :
    logDataDone (hwAt env timing w q n) (inputAt env timing q w.cycle n) =
      (decide (n = (timing w.cycle).hold + 2) && decide (dbgReg q.addr = some .logData)) := by
  unfold logDataDone
  rw [newReq_hwAt hrst hq]
  match n with
  | 0 => simp
  | 1 =>
      have h1 : (hwAt env timing w q 1).dmiReadLogData1 = false := by
        rw [dmiReadLogData1_succ hrst]
        exact hq.dmiReadLogData
      simp [h1]
  | n + 2 =>
      rw [dmiReadLogData_succ hrst, dmiReadLogData1_succ hrst, dmiReadLogData_succ hrst]
      cases decide (dbgReg q.addr = some .logData) with
      | false => simp
      | true =>
          simp only [Bool.and_true, ← decide_not, ← Bool.decide_and, decide_eq_decide]
          omega

/-- The edges at which the address register changes. -/
def fetches (t : Timing) (q : Request) (n : Nat) : Bool :=
  decide (n = 0) && q.wr && decide (dbgReg q.addr = some .logAddr) ||
    decide (n = t.hold + 2) && decide (dbgReg q.addr = some .logData)

theorem fetches_hwAt (n : Nat) : fetches (timing w.cycle) q n =
    (writes (hwAt env timing w q n) (inputAt env timing q w.cycle n) .logAddr ||
      logDataDone (hwAt env timing w q n) (inputAt env timing q w.cycle n)) := by
  rw [writes_hwAt hrst hq, logDataDone_hwAt hrst hq, fetches]

theorem doDmiLogRd_succ (n : Nat) :
    (hwAt env timing w q (n + 1)).doDmiLogRd = fetches (timing w.cycle) q n := by
  rw [fetches_hwAt hrst hq, hwAt_succ]
  simp only [step, inputAt_rst hrst, Bool.not_false, Bool.true_and]

theorem logDmiReading_add_two (n : Nat) :
    (hwAt env timing w q (n + 2)).logDmiReading = fetches (timing w.cycle) q n := by
  rw [← doDmiLogRd_succ hrst hq]
  rfl

/-- The fetched doubleword is taken in the fourth cycle after the edge. -/
theorem logDmiReadDone_add_three (n : Nat) :
    (hwAt env timing w q (n + 3)).logDmiReadDone = fetches (timing w.cycle) q n := by
  rw [← logDmiReading_add_two hrst hq]
  rfl

omit hrst in
theorem logDmiReadDone_early {n : Nat} (hn : n ≤ 2) :
    (hwAt env timing w q n).logDmiReadDone = false := by
  match n, hn with
  | 0, _ => exact hq.logDmiReadDone
  | 1, _ => exact hq.logDmiReading
  | 2, _ => exact hq.doDmiLogRd

theorem logDmiAddr_succ {n : Nat} (hno : fetches (timing w.cycle) q n = false) :
    (hwAt env timing w q (n + 1)).logDmiAddr = (hwAt env timing w q n).logDmiAddr := by
  rw [fetches_hwAt hrst hq, Bool.or_eq_false_iff] at hno
  rw [hwAt_succ]
  exact step_addr (inputAt_rst hrst _ _) hno.1 hno.2

omit hq in
theorem log_succ {n : Nat} (hstop : (hwAt env timing w q n).logDmiAddr.getLsbD 31 = true) :
    (hwAt env timing w q (n + 1)).logArray = (hwAt env timing w q n).logArray ∧
      (hwAt env timing w q (n + 1)).logWrPtr = (hwAt env timing w q n).logWrPtr :=
  step_log (inputAt_rst hrst _ _) hstop

/-- Three cycles after the address register has changed, the doubleword is there. -/
theorem fetched_of_fetches {e : Nat} (he : fetches (timing w.cycle) q e = true)
    (hstop : (hwAt env timing w q (e + 1)).logDmiAddr.getLsbD 31 = true)
    (hno : ∀ n, e < n → n ≤ e + 3 → fetches (timing w.cycle) q n = false) :
    Fetched (hwAt env timing w q (e + 4)) ∧
      (hwAt env timing w q (e + 4)).logDmiAddr = (hwAt env timing w q (e + 1)).logDmiAddr ∧
      (hwAt env timing w q (e + 4)).logArray = (hwAt env timing w q (e + 1)).logArray ∧
      (hwAt env timing w q (e + 4)).logWrPtr = (hwAt env timing w q (e + 1)).logWrPtr := by
  have ha2 := logDmiAddr_succ hrst hq (hno (e + 1) (by omega) (by omega))
  have ha3 := logDmiAddr_succ hrst hq (hno (e + 2) (by omega) (by omega))
  have ha4 := logDmiAddr_succ hrst hq (hno (e + 3) (by omega) (by omega))
  have hs2 : (hwAt env timing w q (e + 2)).logDmiAddr.getLsbD 31 = true := ha2 ▸ hstop
  have hs3 : (hwAt env timing w q (e + 3)).logDmiAddr.getLsbD 31 = true := ha3 ▸ hs2
  obtain ⟨harr2, hptr2⟩ := log_succ (q := q) hrst hstop
  obtain ⟨harr3, hptr3⟩ := log_succ (q := q) hrst hs2
  obtain ⟨harr4, hptr4⟩ := log_succ (q := q) hrst hs3
  -- the three registers of the pipeline
  have hlatched : (hwAt env timing w q (e + 2)).logRdPtrLatched =
      entryOf k (hwAt env timing w q (e + 1)).logDmiAddr := by
    rw [hwAt_succ (e + 1)]
    simp only [step, doDmiLogRd_succ hrst hq, he, if_true]
  have hrd : (hwAt env timing w q (e + 3)).logRd = (hwAt env timing w q (e + 1)).logArray
      (entryOf k (hwAt env timing w q (e + 1)).logDmiAddr) := by
    rw [← hlatched, ← harr2]
    rfl
  have hdata : (hwAt env timing w q (e + 4)).logDmiData =
      selectDword (hwAt env timing w q (e + 3)).logRd (hwAt env timing w q (e + 3)).logDmiAddr := by
    rw [hwAt_succ (e + 3)]
    simp only [step, logDmiReadDone_add_three hrst hq, he, if_true]
  have haddr := ha4.trans (ha3.trans ha2)
  have harr := harr4.trans (harr3.trans harr2)
  refine ⟨⟨ha4 ▸ hs3, ?_⟩, haddr, harr, hptr4.trans (hptr3.trans hptr2)⟩
  rw [hdata, hrd, harr, haddr, ha3, ha2]

theorem logDmiAddr_later {m n : Nat} (hmn : m ≤ n)
    (hno : ∀ l, m ≤ l → l < n → fetches (timing w.cycle) q l = false) :
    (hwAt env timing w q n).logDmiAddr = (hwAt env timing w q m).logDmiAddr := by
  induction n, hmn using Nat.le_induction with
  | base => rfl
  | succ n hmn ih =>
      rw [logDmiAddr_succ hrst hq (hno n hmn (Nat.lt_succ_self n))]
      exact ih fun l hl hln => hno l hl (by omega)

/-- While the address register does not change, the log stays stopped. -/
theorem stopped_later {m n : Nat} (hstop : (hwAt env timing w q m).logDmiAddr.getLsbD 31 = true)
    (hmn : m ≤ n) (hno : ∀ l, m ≤ l → l < n → fetches (timing w.cycle) q l = false) :
    (hwAt env timing w q n).logDmiAddr = (hwAt env timing w q m).logDmiAddr ∧
      (hwAt env timing w q n).logArray = (hwAt env timing w q m).logArray ∧
      (hwAt env timing w q n).logWrPtr = (hwAt env timing w q m).logWrPtr := by
  refine ⟨logDmiAddr_later hrst hq hmn hno, ?_⟩
  induction n, hmn using Nat.le_induction with
  | base => exact ⟨rfl, rfl⟩
  | succ n hmn ih =>
      have hno' := fun l hl hln => hno l hl (Nat.lt_succ_of_lt hln)
      obtain ⟨harr, hptr⟩ := ih hno'
      obtain ⟨harr', hptr'⟩ := log_succ (q := q) hrst (logDmiAddr_later hrst hq hmn hno' ▸ hstop)
      exact ⟨harr'.trans harr, hptr'.trans hptr⟩

/-- Later cycles without a change leave the doubleword there. -/
theorem fetched_later {m n : Nat} (h : Fetched (hwAt env timing w q m)) (hmn : m ≤ n)
    (hno : ∀ l, m ≤ l → l < n → fetches (timing w.cycle) q l = false)
    (hdone : ∀ l, m ≤ l → l < n → (hwAt env timing w q l).logDmiReadDone = false) :
    Fetched (hwAt env timing w q n) ∧
      (hwAt env timing w q n).logDmiData = (hwAt env timing w q m).logDmiData := by
  induction n, hmn using Nat.le_induction with
  | base => exact ⟨h, rfl⟩
  | succ n hmn ih =>
      obtain ⟨hf, hdata⟩ :=
        ih (fun l hl hln => hno l hl (by omega)) fun l hl hln => hdone l hl (by omega)
      have hnone := hno n hmn (Nat.lt_succ_self n)
      rw [fetches_hwAt hrst hq, Bool.or_eq_false_iff] at hnone
      have hnow := hdone n hmn (Nat.lt_succ_self n)
      refine ⟨hf.step (inputAt_rst hrst _ _) hnone.1 hnone.2 hnow, ?_⟩
      rw [← hdata, hwAt_succ]
      simp only [step, hnow, Bool.false_eq_true, if_false]

/-- After an access the unit is quiet again. -/
theorem quiet_after : Quiet (after env timing w q).hw := by
  have hgap := (timing w.cycle).gap_ge
  have hnone : ∀ n, (timing w.cycle).hold + 3 ≤ n → fetches (timing w.cycle) q n = false := by
    intro n hn
    simp [fetches, show n ≠ 0 by omega, show n ≠ (timing w.cycle).hold + 2 by omega]
  obtain ⟨n, hn⟩ : ∃ n, (timing w.cycle).cycles = (timing w.cycle).hold + 6 + n :=
    ⟨(timing w.cycle).gap - 5, by unfold Timing.cycles; omega⟩
  unfold after
  simp only [hn]
  have h6 : (timing w.cycle).hold + 6 + n = (timing w.cycle).hold + 3 + n + 3 := by omega
  have h5 : (timing w.cycle).hold + 6 + n = (timing w.cycle).hold + 4 + n + 2 := by omega
  have h4 : (timing w.cycle).hold + 6 + n = (timing w.cycle).hold + 5 + n + 1 := by omega
  refine ⟨?_, ?_, ?_, ?_, ?_, ?_⟩
  · rw [h4, dmiReq1_succ hrst]
    exact decide_eq_false (by omega)
  · rw [h4, dmiReadLogData_succ hrst, decide_eq_false (by omega), Bool.false_and]
  · rw [h5, dmiReadLogData1_succ hrst, dmiReadLogData_succ hrst, decide_eq_false (by omega),
      Bool.false_and]
  · rw [h4, doDmiLogRd_succ hrst hq]
    exact hnone _ (by omega)
  · rw [h5, logDmiReading_add_two hrst hq]
    exact hnone _ (by omega)
  · rw [h6, logDmiReadDone_add_three hrst hq]
    exact hnone _ (by omega)

/-! ## The accesses to the log -/

/-- A read of LOG_DATA returns the doubleword that has been fetched, and the next one is fetched. -/
theorem read_logData (hf : Fetched w.hw) (haddr : dbgReg q.addr = some .logData)
    (hwr : q.wr = false) (hnext : (nextDword k w.hw.logDmiAddr).getLsbD 31 = true) :
    dataOf env timing w q = w.hw.logDmiData ∧ Fetched (after env timing w q).hw ∧
      (after env timing w q).hw.logDmiAddr = nextDword k w.hw.logDmiAddr ∧
      (after env timing w q).hw.logArray = w.hw.logArray ∧
      (after env timing w q).hw.logWrPtr = w.hw.logWrPtr := by
  have hgap := (timing w.cycle).gap_ge
  have hno : ∀ n, n ≠ (timing w.cycle).hold + 2 → fetches (timing w.cycle) q n = false := by
    intro n hn
    simp [fetches, hwr, hn]
  have hyes : fetches (timing w.cycle) q ((timing w.cycle).hold + 2) = true := by
    simp [fetches, haddr]
  have hdone : ∀ n, n ≠ (timing w.cycle).hold + 5 →
      (hwAt env timing w q n).logDmiReadDone = false := by
    intro n hn
    match n with
    | 0 | 1 | 2 => exact logDmiReadDone_early hq (by omega)
    | n + 3 =>
        rw [logDmiReadDone_add_three hrst hq]
        exact hno n (by omega)
  have hheld : ∀ n, n ≤ (timing w.cycle).hold + 2 → Fetched (hwAt env timing w q n) ∧
      (hwAt env timing w q n).logDmiData = w.hw.logDmiData := fun n hn =>
    fetched_later (m := 0) hrst hq hf (Nat.zero_le n) (fun l _ hl => hno l (by omega))
      fun l _ hl => hdone l (by omega)
  obtain ⟨ha, harr, hptr⟩ := @stopped_later _ env timing _ q
    hrst hq 0 ((timing w.cycle).hold + 2) hf.stop (Nat.zero_le _)
    fun l _ hl => hno l (by omega)
  -- the edge that ends the read
  have hstep : (hwAt env timing w q ((timing w.cycle).hold + 3)).logDmiAddr =
      nextDword k w.hw.logDmiAddr := by
    rw [hwAt_succ]
    simp only [step, inputAt_rst hrst, writes_hwAt hrst hq, logDataDone_hwAt hrst hq,
      haddr, hwr, ha, Bool.false_eq_true, if_false, Bool.and_false, Bool.false_and, decide_true,
      Bool.and_self, if_true]
    rfl
  obtain ⟨harr3, hptr3⟩ := log_succ (q := q) hrst
    (hheld ((timing w.cycle).hold + 2) le_rfl).1.stop
  obtain ⟨hf6, ha6, harr6, hptr6⟩ := fetched_of_fetches hrst hq hyes (hstep ▸ hnext)
    fun n hn _ => hno n (by omega)
  have hend : (timing w.cycle).hold + 2 + 4 ≤ (timing w.cycle).cycles := by
    unfold Timing.cycles
    omega
  obtain ⟨hfe, -⟩ := fetched_later hrst hq hf6 hend (fun l hl _ => hno l (by omega))
    fun l hl _ => hdone l (by omega)
  obtain ⟨hae, harre, hptre⟩ := stopped_later hrst hq hf6.stop hend fun l hl _ => hno l (by omega)
  have hsample := (timing w.cycle).sample_le
  refine ⟨?_, hfe, hae.trans (ha6.trans hstep), harre.trans (harr6.trans (harr3.trans harr)),
    hptre.trans (hptr6.trans (hptr3.trans hptr))⟩
  unfold dataOf dmiDout
  rw [(inputAt_held hsample).2.1, haddr]
  exact (hheld _ (by omega)).2

/-- A write to LOG_ADDR that stops the log has the doubleword at the address fetched. -/
theorem write_logAddr (haddr : dbgReg q.addr = some .logAddr) (hwr : q.wr = true)
    (hstop : (q.din.setWidth 32).getLsbD 31 = true) :
    Fetched (after env timing w q).hw ∧ (after env timing w q).hw.logDmiAddr = q.din.setWidth 32 ∧
      (w.hw.logDmiAddr.getLsbD 31 = true →
        (after env timing w q).hw.logArray = w.hw.logArray ∧
          (after env timing w q).hw.logWrPtr = w.hw.logWrPtr) := by
  have hgap := (timing w.cycle).gap_ge
  have hno : ∀ n, n ≠ 0 → fetches (timing w.cycle) q n = false := by
    intro n hn
    simp [fetches, haddr, hn]
  have hyes : fetches (timing w.cycle) q 0 = true := by simp [fetches, haddr, hwr]
  have hstep : (hwAt env timing w q 1).logDmiAddr = q.din.setWidth 32 := by
    rw [hwAt_succ]
    simp only [step, inputAt_rst hrst, writes_hwAt hrst hq, haddr, hwr, decide_true, Bool.and_self,
      Bool.false_eq_true, if_false, if_true, (inputAt_held (Nat.zero_le _)).2.2]
  obtain ⟨hf4, ha4, harr4, hptr4⟩ := fetched_of_fetches hrst hq hyes (hstep ▸ hstop)
    fun n hn _ => hno n (by omega)
  have hend : 0 + 4 ≤ (timing w.cycle).cycles := by
    unfold Timing.cycles
    omega
  have hlater : ∀ l, 0 + 4 ≤ l → l < (timing w.cycle).cycles →
      fetches (timing w.cycle) q l = false := fun l hl _ => hno l (by omega)
  obtain ⟨hfe, -⟩ := fetched_later hrst hq hf4 hend hlater fun l hl _ => by
    obtain ⟨n, rfl⟩ : ∃ n, l = n + 3 := ⟨l - 3, by omega⟩
    rw [logDmiReadDone_add_three hrst hq]
    exact hno n (by omega)
  obtain ⟨hae, harre, hptre⟩ := stopped_later hrst hq hf4.stop hend hlater
  refine ⟨hfe, hae.trans (ha4.trans hstep), fun hold => ?_⟩
  obtain ⟨harr1, hptr1⟩ := @log_succ _ env timing w q hrst 0 hold
  exact ⟨harre.trans (harr4.trans harr1), hptre.trans (hptr4.trans hptr1)⟩

/-- A read of LOG_ADDR changes neither the address register nor a log that it stops. -/
theorem read_logAddr (haddr : dbgReg q.addr = some .logAddr) (hwr : q.wr = false) (n : Nat) :
    (hwAt env timing w q n).logDmiAddr = w.hw.logDmiAddr ∧
      (w.hw.logDmiAddr.getLsbD 31 = true →
        (hwAt env timing w q n).logArray = w.hw.logArray ∧
          (hwAt env timing w q n).logWrPtr = w.hw.logWrPtr) := by
  have hno : ∀ l, 0 ≤ l → l < n → fetches (timing w.cycle) q l = false :=
    fun l _ _ => by simp [fetches, haddr, hwr]
  exact ⟨logDmiAddr_later hrst hq (Nat.zero_le n) hno, fun hstop =>
    (stopped_later (m := 0) hrst hq hstop (Nat.zero_le n) hno).2⟩

omit hrst hq in
theorem dataOf_logAddr (haddr : dbgReg q.addr = some .logAddr) : dataOf env timing w q =
    logWriteAddr (hwAt env timing w q (timing w.cycle).sample) ++
      (hwAt env timing w q (timing w.cycle).sample).logDmiAddr := by
  unfold dataOf dmiDout
  rw [(inputAt_held (timing w.cycle).sample_le).2.1, haddr]

end

end Run

end Microwatt.Debug
