import Microwatt.Lib.Fair

/-!
# The simulated 16550

`sim_16550_uart.vhdl`: the registers of a 16550 over the console of the simulator.  The console is
polled for a byte, which waits in a buffer of one byte until RXTX is read.
-/

namespace Microwatt.Uart

/-- `POLL_DELAY`. -/
def pollDelay : Nat := 100

/-- `REG_IDX_*`. -/
inductive RegIdx where
  | rxtx
  | ier
  | iirFcr
  | lcr
  | mcr
  | lsr
  | msr
  | scr
deriving DecidableEq

/-- `reg_idx`. -/
def regIdx (adr : BitVec 3) : RegIdx :=
  match adr with
  | 0b000 => .rxtx
  | 0b001 => .ier
  | 0b010 => .iirFcr
  | 0b011 => .lcr
  | 0b100 => .mcr
  | 0b101 => .lsr
  | 0b110 => .msr
  | 0b111 => .scr

/-- The registers that can be read, and the console: what has been typed and not been read, and what
has been printed. -/
structure State where
  ack : Bool
  phase : Bool
  datO : BitVec 8
  ier : BitVec 4
  iir : BitVec 4
  lcr : BitVec 8
  lsr : BitVec 8
  msr : BitVec 8
  scr : BitVec 8
  div : BitVec 16
  dataOut : BitVec 8
  dataInPending : Bool
  pollCnt : Nat
  console : List (BitVec 8)
  printed : List (BitVec 8)

/-- The inputs of a cycle; `typed` is what comes to the console before the edge. -/
structure Inputs where
  rst : Bool
  adr : BitVec 3
  dat : BitVec 8
  we : Bool
  stb : Bool
  cyc : Bool
  typed : List (BitVec 8)

section

variable (s : State) (j : Inputs)

/-- `reg_write`. -/
def regWrite : Bool := j.cyc && j.stb && j.we && !s.phase

/-- `reg_read`. -/
def regRead : Bool := j.cyc && j.stb && !j.we && !s.phase

/-- `dlab`. -/
def dlab : Bool := s.lcr.getLsbD 7

/-- The register that is written. -/
def writes (r : RegIdx) : Bool := regWrite s j && decide (regIdx j.adr = r)

/-- The register that is read. -/
def reads (r : RegIdx) : Bool := regRead s j && decide (regIdx j.adr = r)

/-- A byte is taken from the buffer. -/
def rxRead : Bool := !dlab s && reads s j .rxtx

/-- A byte is printed. -/
def txWrite : Bool := !dlab s && writes s j .rxtx

/-- `do_reg_read`. -/
def doRegRead : BitVec 8 :=
  if regRead s j then
    match regIdx j.adr with
    | .rxtx => if dlab s then s.div.extractLsb' 0 8 else s.dataOut
    | .ier => if dlab s then s.div.extractLsb' 8 8 else 0#4 ++ s.ier
    | .iirFcr => 0b1100#4 ++ s.iir
    | .lcr => s.lcr
    | .lsr => s.lsr
    | .msr => s.msr
    | .scr => s.scr
    | .mcr => 0
  else 0

/-- The console is polled. -/
def polls : Bool := decide (s.pollCnt = 0) || reads s j .lsr

/-- `rxtx`, the part for the registers. -/
def access : State :=
  let v := if txWrite s j then { s with printed := s.printed ++ [j.dat] } else s
  if rxRead s j then { v with dataInPending := false, dataOut := 0 } else v

/-- `rxtx`, the part that polls the console; `v` holds the variables so far. -/
def poll (v : State) : State :=
  match v.dataInPending, v.console with
  | false, c :: console =>
      { v with
        dataInPending := true, dataOut := c, console := console
        pollCnt := pollDelay - 1 }
  | _, _ => { v with pollCnt := pollDelay - 1 }

/-- `rxtx`. -/
def rxtx : State :=
  let v := { s with console := s.console ++ j.typed }
  if j.rst then v
  else if polls s j then poll (access v j) else access v j

/-- `int_rlsi_pending`. -/
def intRlsiPending : Bool :=
  s.lsr.getLsbD 1 || s.lsr.getLsbD 2 || s.lsr.getLsbD 3 || s.lsr.getLsbD 4

/-- `int_msi_pending`. -/
def intMsiPending : Bool :=
  s.msr.getLsbD 0 || s.msr.getLsbD 1 || s.msr.getLsbD 2 || s.msr.getLsbD 3

/-- `iir_reg_w`; `int_rdi_pending` is `data_in_pending` and `int_thri_pending` is 1. -/
def iirNext : BitVec 4 :=
  if intRlsiPending s && s.ier.getLsbD 2 then 0b0110
  else if s.dataInPending && s.ier.getLsbD 0 then 0b0100
  else if s.ier.getLsbD 1 then 0b0010
  else if intMsiPending s && s.ier.getLsbD 3 then 0b0000
  else 0b0001

/-- `lsr_reg_w`. -/
def lsrNext : BitVec 8 :=
  if j.rst then 0
  else (s.lsr &&& 0b10011110) ||| 0b01100000 ||| (BitVec.ofBool s.dataInPending).setWidth 8

/-- `div_reg_w`. -/
def divNext : BitVec 16 :=
  if j.rst then 0
  else if writes s j .rxtx && dlab s then s.div.extractLsb' 8 8 ++ j.dat
  else if writes s j .ier && dlab s then j.dat ++ s.div.extractLsb' 0 8
  else s.div

/-- `int_o`. -/
def intO : Bool := !s.iir.getLsbD 0

/-- A rising edge. -/
def step : State :=
  { rxtx s j with
    ack := !s.phase && (j.cyc && j.stb || s.ack)
    phase := !s.phase && j.cyc && j.stb
    datO := doRegRead s j
    ier := if j.rst then 0 else if writes s j .ier && !dlab s then j.dat.setWidth 4 else s.ier
    iir := iirNext s
    lcr := if j.rst then 0b00000011 else if writes s j .lcr then j.dat else s.lcr
    lsr := lsrNext s j
    msr := if j.rst || reads s j .msr then 0 else s.msr
    scr := if j.rst then 0 else if writes s j .scr then j.dat else s.scr
    div := divNext s j }

end

/-- What the simulator starts from. -/
structure PowerOn (s : State) : Prop where
  dataInPending : s.dataInPending = false
  dataOut : s.dataOut = 0
  pollCnt : s.pollCnt = 0

/-- What a reset of at least two cycles leaves then. -/
structure AfterReset (s : State) : Prop extends PowerOn s where
  ier : s.ier = 0
  iir : s.iir = 0b0001
  lcr : s.lcr = 0b00000011
  lsr : s.lsr = 0
  msr : s.msr = 0
  scr : s.scr = 0
  div : s.div = 0

section

variable {s : State} {j : Inputs}

theorem afterReset_of_powerOn {j' : Inputs} (h : PowerOn s) (hj : j.rst = true)
    (hj' : j'.rst = true) : AfterReset (step (step s j) j') := by
  have hrx : ∀ {v : State} {i : Inputs}, i.rst = true →
      rxtx v i = { v with console := v.console ++ i.typed } := by
    intro v i hi
    rw [rxtx, if_pos hi]
  have hiir : iirNext (step s j) = 0b0001 := by
    simp [iirNext, intRlsiPending, intMsiPending, step, lsrNext, hj]
  have hbuf : PowerOn (step (step s j) j') := by
    unfold step
    rw [hrx hj', hrx hj]
    exact ⟨h.dataInPending, h.dataOut, h.pollCnt⟩
  refine ⟨hbuf, ?_, hiir, ?_, ?_, ?_, ?_, ?_⟩ <;> simp [step, lsrNext, divNext, hj']

/-! ## One edge -/

/-- `LSR[DR]`. -/
def dataReady (s : State) : Bool := s.lsr.getLsbD 0

/-- What has been typed and not been taken from the buffer. -/
def waiting (s : State) : List (BitVec 8) :=
  (if s.dataInPending then [s.dataOut] else []) ++ s.console

/-- What an edge takes from the buffer. -/
def taken (s : State) (j : Inputs) : List (BitVec 8) :=
  if rxRead s j && s.dataInPending then [s.dataOut] else []

theorem waiting_access : taken s j ++ waiting (access s j) = waiting s := by
  unfold taken waiting access
  cases rxRead s j <;> cases txWrite s j <;> cases hp : s.dataInPending <;> simp [hp]

theorem waiting_poll {v : State} : waiting (poll v) = waiting v := by
  unfold waiting poll
  cases v.dataInPending <;> cases v.console <;> simp

/-- No byte is lost between the console and RXTX. -/
theorem waiting_step (hrst : j.rst = false) :
    taken s j ++ waiting (step s j) = waiting s ++ j.typed := by
  have hrx : waiting (step s j) = waiting (rxtx s j) := rfl
  have hv : ∀ c, waiting { s with console := s.console ++ c } = waiting s ++ c := fun c => by
    simp [waiting]
  rw [hrx, rxtx, hrst, ← hv]
  simp only [Bool.false_eq_true, if_false]
  split_ifs
  · rw [waiting_poll]
    exact waiting_access (s := { s with console := s.console ++ j.typed })
  · exact waiting_access (s := { s with console := s.console ++ j.typed })

/-- A read returns what it takes from the buffer. -/
theorem datO_step (h : rxRead s j = true) : (step s j).datO = s.dataOut := by
  simp only [rxRead, reads, Bool.and_eq_true, decide_eq_true_eq, Bool.not_eq_true'] at h
  simp [step, doRegRead, h.1, h.2.1, h.2.2]

theorem dataReady_step (hrst : j.rst = false) : dataReady (step s j) = s.dataInPending := by
  cases hp : s.dataInPending <;> simp [dataReady, step, lsrNext, hrst, hp]

@[simp] theorem access_console : (access s j).console = s.console := by
  simp only [access]
  split_ifs <;> rfl

@[simp] theorem access_pollCnt : (access s j).pollCnt = s.pollCnt := by
  simp only [access]
  split_ifs <;> rfl

@[simp] theorem access_dataInPending :
    (access s j).dataInPending = (s.dataInPending && !rxRead s j) := by
  simp only [access]
  cases rxRead s j <;> cases txWrite s j <;> simp

@[simp] theorem poll_pollCnt {v : State} : (poll v).pollCnt = pollDelay - 1 := by
  unfold poll
  split <;> rfl

@[simp] theorem poll_dataInPending {v : State} :
    (poll v).dataInPending = (v.dataInPending || !v.console.isEmpty) := by
  unfold poll
  cases v.dataInPending <;> cases v.console <;> simp

/-- Once the console has been polled, the counter does not get to 0. -/
theorem pollCnt_step (hrst : j.rst = false) :
    (step s j).pollCnt = if polls s j then pollDelay - 1 else s.pollCnt := by
  simp only [step, rxtx, hrst, Bool.false_eq_true, if_false]
  split_ifs
  · exact poll_pollCnt
  · exact access_pollCnt

/-- In the second cycle of an access nothing is read. -/
theorem regRead_of_phase (h : s.phase = true) : regRead s j = false := by
  simp [regRead, h]

/-- A cycle without a read after the first poll leaves the buffer alone. -/
theorem dataInPending_step (hrst : j.rst = false) (hcnt : s.pollCnt ≠ 0)
    (hread : regRead s j = false) : (step s j).dataInPending = s.dataInPending := by
  have hpolls : polls s j = false := by simp [polls, reads, hcnt, hread]
  have hrx : rxRead { s with console := s.console ++ j.typed } j = false := by
    change (!dlab s && (regRead s j && _)) = false
    simp [hread]
  simp [step, rxtx, hrst, hpolls, hrx]

theorem console_step (hrst : j.rst = false) (hpolls : polls s j = false) :
    (step s j).console = s.console ++ j.typed := by
  simp [step, rxtx, hrst, hpolls]

/-- A poll finds a byte that is available. -/
theorem dataInPending_poll (hrst : j.rst = false) (hpolls : polls s j = true)
    (hwait : s.console ++ j.typed ≠ []) : (step s j).dataInPending = true := by
  simp only [step, rxtx, hrst, hpolls, Bool.false_eq_true, if_false, if_true, poll_dataInPending,
    access_console]
  simp only [Bool.or_eq_true, Bool.not_eq_true', List.isEmpty_eq_false_iff]
  exact Or.inr hwait

/-- The receive interrupt. -/
theorem iir_step (hrlsi : intRlsiPending s = false) (hp : s.dataInPending = true)
    (hier : s.ier.getLsbD 0 = true) : (step s j).iir = 0b0100 := by
  simp [step, iirNext, hrlsi, hp, hier]

/-- There are no line errors. -/
theorem intRlsiPending_step (h : intRlsiPending s = false) :
    intRlsiPending (step s j) = false := by
  unfold intRlsiPending at h ⊢
  simp only [Bool.or_eq_false_iff] at h ⊢
  cases hr : j.rst with
  | true => simp [step, lsrNext, hr]
  | false => simpa [step, lsrNext, hr] using h

end

/-! ## Runs -/

section Run

variable (s : State) (ins : Nat → Inputs)

/-- The registers before edge `n`. -/
def regs (n : Nat) : State := Clocked.trace step s ins n

/-- What has been typed before edge `n`. -/
def arrived (n : Nat) : List (BitVec 8) :=
  s.console ++ (List.range n).flatMap fun k => (ins k).typed

/-- The bytes that reads of RXTX with `LSR[DR]` set have returned. -/
def received (n : Nat) : List (BitVec 8) :=
  (List.range n).flatMap fun k =>
    if rxRead (regs s ins k) (ins k) && dataReady (regs s ins k) then [(regs s ins (k + 1)).datO]
    else []

/-- The console has a byte at edge `n`, or the buffer has one. -/
def Available (n : Nat) : Prop :=
  (regs s ins n).console ++ (ins n).typed ≠ [] ∨ (regs s ins n).dataInPending = true

/-- The receive path: what has been typed is what has been received and, after it, what waits; the
console is polled often enough; and an available byte raises the interrupt, if that is enabled. -/
structure Receives : Prop where
  received : ∀ n, received s ins n ++ waiting (regs s ins n) = arrived s ins n
  polled : ∀ n, ∃ k, n ≤ k ∧ k ≤ n + pollDelay ∧ polls (regs s ins k) (ins k) = true
  interrupt : ∀ n, Available s ins n →
    (∀ k, n ≤ k → k ≤ n + pollDelay + 1 → (regs s ins k).ier.getLsbD 0 = true) →
      ∃ k, n < k ∧ k ≤ n + pollDelay + 2 ∧ (regs s ins k).iir = 0b0100 ∧ intO (regs s ins k) = true

/-- Software reads LSR often enough itself, and does not read RXTX in the second cycle if the first
poll finds a byte. -/
structure Covered : Prop where
  lsr : ∀ n, 1 ≤ n → ∃ k, n ≤ k ∧ k ≤ n + pollDelay ∧ reads (regs s ins k) (ins k) .lsr = true
  first : s.console ++ (ins 0).typed ≠ [] → rxRead (regs s ins 1) (ins 1) = false

variable {s ins}

theorem regs_succ (n : Nat) : regs s ins (n + 1) = step (regs s ins n) (ins n) := rfl

theorem arrived_succ (n : Nat) : arrived s ins (n + 1) = arrived s ins n ++ (ins n).typed := by
  simp [arrived, List.range_succ]

theorem received_succ (n : Nat) : received s ins (n + 1) = received s ins n ++
    if rxRead (regs s ins n) (ins n) && dataReady (regs s ins n) then [(regs s ins n).dataOut]
    else [] := by
  simp only [received, List.range_succ, List.flatMap_append, List.flatMap_singleton]
  congr 1
  by_cases h : rxRead (regs s ins n) (ins n) = true
  · rw [regs_succ, datO_step h]
  · simp [h]

/-- After the first cycle the counter stands still. -/
theorem pollCnt_regs (hs : AfterReset s) (hrst : ∀ n, (ins n).rst = false) (n : Nat) (hn : 1 ≤ n) :
    (regs s ins n).pollCnt = pollDelay - 1 := by
  induction n, hn using Nat.le_induction with
  | base =>
      have h0 : polls (regs s ins 0) (ins 0) = true := by
        simp [polls, regs, Clocked.trace, hs.pollCnt]
      rw [regs_succ, pollCnt_step (hrst 0), if_pos h0]
  | succ n _ ih =>
      rw [regs_succ, pollCnt_step (hrst n), ih, ite_self]

theorem polls_iff (hs : AfterReset s) (hrst : ∀ n, (ins n).rst = false) {n : Nat} (hn : 1 ≤ n) :
    polls (regs s ins n) (ins n) = reads (regs s ins n) (ins n) .lsr := by
  rw [polls, pollCnt_regs hs hrst n hn]
  rfl

/-- When an access can start, `LSR[DR]` tells whether there is a byte in the buffer. -/
theorem dataReady_eq (hs : AfterReset s) (hrst : ∀ n, (ins n).rst = false) {n : Nat} (hn : 2 ≤ n)
    (hphase : (regs s ins n).phase = false) :
    dataReady (regs s ins n) = (regs s ins n).dataInPending := by
  obtain ⟨m, rfl⟩ : ∃ m, n = m + 1 := ⟨n - 1, by omega⟩
  have hread : regRead (regs s ins m) (ins m) = false := by
    cases hp : (regs s ins m).phase with
    | true => exact regRead_of_phase hp
    | false =>
        rw [regs_succ] at hphase
        simp only [step, hp, Bool.not_false, Bool.true_and, Bool.and_eq_false_iff] at hphase
        rcases hphase with h | h <;> simp [regRead, h]
  have hcnt : (regs s ins m).pollCnt ≠ 0 := by
    rw [pollCnt_regs hs hrst m (by omega)]
    decide
  rw [regs_succ, dataReady_step (hrst m), dataInPending_step (hrst m) hcnt hread]

theorem received_waiting_succ (hrst : ∀ n, (ins n).rst = false) {n : Nat}
    (h : received s ins n ++ waiting (regs s ins n) = arrived s ins n)
    (hready : rxRead (regs s ins n) (ins n) = true →
      dataReady (regs s ins n) = (regs s ins n).dataInPending) :
    received s ins (n + 1) ++ waiting (regs s ins (n + 1)) = arrived s ins (n + 1) := by
  have htaken : received s ins (n + 1) = received s ins n ++ taken (regs s ins n) (ins n) := by
    rw [received_succ, taken]
    by_cases hr : rxRead (regs s ins n) (ins n) = true
    · rw [hready hr]
    · simp [hr]
  calc received s ins (n + 1) ++ waiting (regs s ins (n + 1))
      = received s ins n ++ (taken (regs s ins n) (ins n) ++ waiting (regs s ins (n + 1))) := by
        rw [htaken, List.append_assoc]
    _ = received s ins n ++ (waiting (regs s ins n) ++ (ins n).typed) := by
        rw [regs_succ, waiting_step (hrst n)]
    _ = arrived s ins (n + 1) := by
        rw [← List.append_assoc, h, arrived_succ]

theorem phase_of_rxRead {v : State} {j : Inputs} (h : rxRead v j = true) : v.phase = false := by
  simp only [rxRead, reads, regRead, Bool.and_eq_true, Bool.not_eq_true'] at h
  exact h.2.1.2

/-- The first poll. -/
theorem dataInPending_one (hs : AfterReset s) (hrst : ∀ n, (ins n).rst = false) :
    (regs s ins 1).dataInPending = true ↔ s.console ++ (ins 0).typed ≠ [] := by
  have hpolls : polls s (ins 0) = true := by simp [polls, hs.pollCnt]
  change (step s (ins 0)).dataInPending = true ↔ _
  refine ⟨fun h hnil => ?_, dataInPending_poll (hrst 0) hpolls⟩
  simp [step, rxtx, hrst 0, hpolls, hs.dataInPending, hnil] at h

theorem received_waiting (hs : AfterReset s) (hrst : ∀ n, (ins n).rst = false)
    (hfirst : s.console ++ (ins 0).typed ≠ [] → rxRead (regs s ins 1) (ins 1) = false) (n : Nat) :
    received s ins n ++ waiting (regs s ins n) = arrived s ins n := by
  induction n with
  | zero => simp [received, arrived, waiting, regs, Clocked.trace, hs.dataInPending]
  | succ n ih =>
      refine received_waiting_succ hrst ih fun hread => ?_
      obtain rfl | rfl | hn : n = 0 ∨ n = 1 ∨ 2 ≤ n := by omega
      · change dataReady s = s.dataInPending
        rw [dataReady, hs.lsr, hs.dataInPending]
        rfl
      · have hempty : (regs s ins 1).dataInPending = false := by
          by_contra hp
          rw [Bool.not_eq_false] at hp
          rw [hfirst ((dataInPending_one hs hrst).mp hp)] at hread
          cases hread
        rw [hempty, regs_succ, dataReady_step (hrst 0)]
        exact hs.dataInPending
      · exact dataReady_eq hs hrst hn (phase_of_rxRead hread)

theorem noLineErrors (hs : AfterReset s) (n : Nat) : intRlsiPending (regs s ins n) = false := by
  induction n with
  | zero => simp [regs, Clocked.trace, intRlsiPending, hs.lsr]
  | succ n ih => exact intRlsiPending_step ih

/-- A byte that is available is in the buffer once the console has been polled. -/
theorem exists_pending (hrst : ∀ n, (ins n).rst = false) {n k : Nat} (havail : Available s ins n)
    (hk : n ≤ k) (hpolls : polls (regs s ins k) (ins k) = true) :
    ∃ l, n ≤ l ∧ l ≤ k + 1 ∧ (regs s ins l).dataInPending = true := by
  by_contra hno
  push Not at hno
  have hwait : ∀ l, n ≤ l → l ≤ k → (regs s ins l).console ++ (ins l).typed ≠ [] := by
    intro l hl
    induction l, hl using Nat.le_induction with
    | base => exact fun _ => havail.resolve_right (hno n le_rfl (by omega))
    | succ l hl ih =>
        intro hlk
        have hnow := ih (by omega)
        have hquiet : polls (regs s ins l) (ins l) = false := by
          by_contra h
          rw [Bool.not_eq_false] at h
          exact hno (l + 1) (by omega) (by omega) (dataInPending_poll (hrst l) h hnow)
        rw [regs_succ, console_step (hrst l) hquiet]
        exact fun h => hnow (List.append_eq_nil_iff.mp h).1
  exact hno (k + 1) (by omega) le_rfl (dataInPending_poll (hrst k) hpolls (hwait k hk le_rfl))

theorem interrupt_of_polled (hs : AfterReset s) (hrst : ∀ n, (ins n).rst = false) {n k : Nat}
    (havail : Available s ins n) (hk : n ≤ k) (hle : k ≤ n + pollDelay)
    (hpolls : polls (regs s ins k) (ins k) = true)
    (hier : ∀ l, n ≤ l → l ≤ n + pollDelay + 1 → (regs s ins l).ier.getLsbD 0 = true) :
    ∃ m, n < m ∧ m ≤ n + pollDelay + 2 ∧ (regs s ins m).iir = 0b0100 ∧
      intO (regs s ins m) = true := by
  obtain ⟨l, hl, hlk, hp⟩ := exists_pending hrst havail hk hpolls
  have hiir : (regs s ins (l + 1)).iir = 0b0100 :=
    iir_step (noLineErrors hs l) hp (hier l hl (by omega))
  refine ⟨l + 1, by omega, by omega, hiir, ?_⟩
  rw [intO, hiir]
  rfl

/-- The receive path works if and only if software reads LSR often enough itself: the counter stands
still between polls. -/
theorem receives_iff (s : State) (ins : Nat → Inputs) (hs : AfterReset s)
    (hrst : ∀ n, (ins n).rst = false) : Receives s ins ↔ Covered s ins := by
  constructor
  · intro h
    refine ⟨fun n hn => ?_, fun hwait => ?_⟩
    · obtain ⟨k, hk, hle, hpolls⟩ := h.polled n
      exact ⟨k, hk, hle, (polls_iff hs hrst (by omega)).symm.trans hpolls⟩
    · by_contra hread
      rw [Bool.not_eq_false] at hread
      -- the byte is taken before `LSR[DR]` shows it
      have hp : (regs s ins 1).dataInPending = true := (dataInPending_one hs hrst).mpr hwait
      have hready : dataReady (regs s ins 1) = false := by
        rw [regs_succ, dataReady_step (hrst 0)]
        exact hs.dataInPending
      have hone := h.received 1
      have htwo := h.received 2
      rw [received_succ, hready, Bool.and_false, arrived_succ, ← hone, List.append_assoc,
        List.append_assoc] at htwo
      have hstep := waiting_step (s := regs s ins 1) (hrst 1)
      rw [taken, hread, hp] at hstep
      have hlen := congrArg List.length (List.append_cancel_left htwo)
      have hlen' := congrArg List.length hstep
      rw [regs_succ 1] at hlen
      simp at hlen hlen'
      omega
  · intro h
    have hpolled : ∀ n, ∃ k, n ≤ k ∧ k ≤ n + pollDelay ∧ polls (regs s ins k) (ins k) = true := by
      intro n
      by_cases hn : 1 ≤ n
      · obtain ⟨k, hk, hle, hread⟩ := h.lsr n hn
        exact ⟨k, hk, hle, (polls_iff hs hrst (by omega)).trans hread⟩
      · obtain rfl : n = 0 := by omega
        exact ⟨0, le_rfl, by omega, by simp [polls, regs, Clocked.trace, hs.pollCnt]⟩
    refine ⟨received_waiting hs hrst h.first, hpolled, fun n havail hier => ?_⟩
    obtain ⟨k, hk, hle, hpolls⟩ := hpolled n
    exact interrupt_of_polled hs hrst havail hk hle hpolls hier

end Run

/-- The unit after a reset. -/
def State.cold : State where
  ack := false
  phase := false
  datO := 0
  ier := 0
  iir := 0b0001
  lcr := 0b00000011
  lsr := 0
  msr := 0
  scr := 0
  div := 0
  dataOut := 0
  dataInPending := false
  pollCnt := 0
  console := []
  printed := []

theorem afterReset_cold : AfterReset .cold :=
  { dataInPending := rfl, dataOut := rfl, pollCnt := rfl, ier := rfl, iir := rfl, lcr := rfl,
    lsr := rfl
    msr := rfl, scr := rfl, div := rfl }

/-- A cycle without an access. -/
def Inputs.idle : Inputs := ⟨false, 0, 0, false, false, false, []⟩

/-- LSR is read in every other cycle, and a byte is typed. -/
def lsrReads (n : Nat) : Inputs :=
  { Inputs.idle with adr := 0b101, stb := true, cyc := true, typed := if n = 5 then [0x41] else [] }

theorem receives_lsrReads : Receives .cold lsrReads := by
  have hphase : ∀ n, (regs .cold lsrReads (2 * n)).phase = false := by
    intro n
    induction n with
    | zero => rfl
    | succ n ih =>
        change (regs .cold lsrReads (2 * n + 1 + 1)).phase = false
        rw [regs_succ, regs_succ]
        simp [step, ih, lsrReads]
  refine (receives_iff .cold lsrReads afterReset_cold fun _ => rfl).mpr
    ⟨fun n _ => ⟨2 * ((n + 1) / 2), by omega, by unfold pollDelay; omega, ?_⟩, fun h => ?_⟩
  · simp [reads, regRead, hphase, lsrReads, Inputs.idle, regIdx]
  · exact absurd rfl h

/-- The receive interrupt is enabled, and a byte is typed. -/
def interruptDriven (n : Nat) : Inputs :=
  if n = 0 then
    { Inputs.idle with adr := 0b001, dat := 0b0001, we := true, stb := true, cyc := true }
  else { Inputs.idle with typed := if n = 5 then [0x41] else [] }

/-- The console is not polled again, and the byte never raises the interrupt. -/
theorem interrupt_missed : ¬Receives .cold interruptDriven ∧
    ∀ n, intO (regs .cold interruptDriven n) = false := by
  have hrst : ∀ n, (interruptDriven n).rst = false := by
    intro n
    unfold interruptDriven
    split_ifs <;> rfl
  have hquiet : ∀ n, 1 ≤ n → regRead (regs .cold interruptDriven n) (interruptDriven n) = false ∧
      regWrite (regs .cold interruptDriven n) (interruptDriven n) = false := by
    intro n hn
    simp [regRead, regWrite, interruptDriven, Inputs.idle, show n ≠ 0 by omega]
  have hstill : ∀ n, 1 ≤ n → (regs .cold interruptDriven n).ier = 0b0001 ∧
      (regs .cold interruptDriven n).msr = 0 ∧
      (regs .cold interruptDriven n).dataInPending = false := by
    intro n hn
    induction n, hn using Nat.le_induction with
    | base => exact ⟨rfl, rfl, rfl⟩
    | succ n hn ih =>
        obtain ⟨hread, hwrite⟩ := hquiet n hn
        have hcnt : (regs .cold interruptDriven n).pollCnt ≠ 0 := by
          rw [pollCnt_regs afterReset_cold hrst n hn]
          decide
        rw [regs_succ, dataInPending_step (hrst n) hcnt hread]
        simp [step, writes, reads, hread, hwrite, hrst, ih]
  have hint : ∀ n, intO (regs .cold interruptDriven n) = false := by
    intro n
    match n with
    | 0 => rfl
    | 1 => rfl
    | n + 2 =>
        obtain ⟨hier, hmsr, hp⟩ := hstill (n + 1) (by omega)
        have hiir : (regs .cold interruptDriven (n + 2)).iir = 0b0001 := by
          rw [regs_succ]
          simp [step, iirNext, noLineErrors afterReset_cold, hier, hmsr, hp, intMsiPending]
        rw [intO, hiir]
        rfl
  refine ⟨fun h => ?_, hint⟩
  obtain ⟨k, -, -, -, hraised⟩ := h.interrupt 5 (Or.inl (by simp [interruptDriven]))
    fun k hk _ => by simp [(hstill k (by omega)).1]
  rw [hint k] at hraised
  cases hraised

end Microwatt.Uart
