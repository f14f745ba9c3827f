import Microwatt.Lib.Fair

/-!
# The register file

`register_file.vhdl`: 64 registers with three synchronous read ports, the word of the last write
kept beside them for the ports that read it at the same edge, and debug reads through port B when it
is not in use.  What a port shows is the register as it is after all writes, and the debugger gets
the register as it was in some cycle of its request.
-/

namespace Microwatt.RegisterFile

/-- Port A, B or C. -/
abbrev Port := Fin 3

/-- The inputs of a cycle. -/
structure RegFileIn where
  stall : Bool
  regAddr : Port → BitVec 6
  read2Enable : Bool
  writeEnable : Bool
  writeReg : BitVec 6
  writeData : BitVec 64
  dbgGprReq : Bool
  dbgGprAddr : BitVec 6

/-- The registers of `register_file`. -/
structure RegFile where
  registers : BitVec 6 → BitVec 64
  addrReg : Port → BitVec 6
  rd2 : Bool
  fwd : Port → Bool
  data : Port → BitVec 64
  prevWriteData : BitVec 64
  dbgGprDone : Bool
  dbgData : BitVec 64
  dbgAck : Bool

variable (hasFpu : Bool)

/-- The register with a number: 32 registers without an FPU. -/
def index (a : BitVec 6) : BitVec 6 := if !hasFpu then a &&& 0x1f else a

/-- `w_addr`. -/
def wAddr (i : RegFileIn) : BitVec 6 :=
  if hasFpu && i.writeReg.getLsbD 5 then i.writeReg else i.writeReg &&& 0x1f

/-- `a_addr`, `b_addr` and `c_addr`, before a debug read. -/
def portAddr (s : RegFile) (i : RegFileIn) (p : Port) : BitVec 6 :=
  if i.stall then s.addrReg p else i.regAddr p

/-- `b_enable`. -/
def bEnable (s : RegFile) (i : RegFileIn) : Bool := if i.stall then s.rd2 else i.read2Enable

/-- The address that the array is read at. -/
def readAddr (s : RegFile) (i : RegFileIn) (p : Port) : BitVec 6 :=
  index hasFpu (if p = 1 ∧ i.dbgGprReq ∧ !bEnable s i then i.dbgGprAddr else portAddr s i p)

/-- A rising edge. -/
def step (s : RegFile) (i : RegFileIn) : RegFile where
  registers :=
    if i.writeEnable then Function.update s.registers (wAddr hasFpu i) i.writeData else s.registers
  addrReg := portAddr s i
  rd2 := bEnable s i
  fwd := fun p => i.writeEnable && wAddr hasFpu i == portAddr s i p
  data := fun p => s.registers (readAddr hasFpu s i p)
  prevWriteData := i.writeData
  dbgGprDone := if i.dbgGprReq then s.dbgGprDone || !bEnable s i else false
  dbgData := if i.dbgGprReq && (!s.dbgAck && s.dbgGprDone) then s.data 1 else s.dbgData
  dbgAck := if i.dbgGprReq then s.dbgAck || s.dbgGprDone else false

/-- `read1_data`, `read2_data` and `read3_data`. -/
def readData (s : RegFile) (p : Port) : BitVec 64 := if s.fwd p then s.prevWriteData else s.data p

/-! ## The array -/

variable (s : RegFile) (input : Nat → RegFileIn)

/-- The registers in cycle `n`: all writes of the edges before it. -/
def contents : Nat → BitVec 6 → BitVec 64
  | 0 => s.registers
  | n + 1 =>
    if (input n).writeEnable then
      Function.update (contents n) (index hasFpu (input n).writeReg) (input n).writeData
    else contents n

/-- The address at a port in cycle `n`: the last one that came without a stall. -/
def heldAddr (p : Port) : Nat → BitVec 6
  | 0 => s.addrReg p
  | n + 1 => if (input n).stall then heldAddr p n else (input n).regAddr p

/-- Port B is in use in cycle `n`. -/
def heldEnable : Nat → Bool
  | 0 => s.rd2
  | n + 1 => if (input n).stall then heldEnable n else (input n).read2Enable

/-- The register file behaves as an array in a run. -/
structure IsArray : Prop where
  /-- a port shows the register after all writes; port B unless it is not in use and the debugger
  asks -/
  read : ∀ n p, (p = 1 → heldEnable s input (n + 1) = true ∨ (input n).dbgGprReq = false) →
    readData (Clocked.trace (step hasFpu) s input (n + 1)) p =
      contents hasFpu s input (n + 1) (index hasFpu (heldAddr s input p (n + 1)))
  /-- an acknowledged debug read gives the register as it was in a cycle since when it is
  requested -/
  debug : ∀ n, (Clocked.trace (step hasFpu) s input n).dbgAck = true →
    ∃ m < n, (∀ k, m ≤ k → k < n → (input k).dbgGprReq = true) ∧
      (Clocked.trace (step hasFpu) s input n).dbgData =
        contents hasFpu s input m (index hasFpu (input m).dbgGprAddr)
  /-- a request that stands is answered as soon as port B has been free -/
  answer : ∀ n, (input n).dbgGprReq = true → (input (n + 1)).dbgGprReq = true →
    heldEnable s input (n + 1) = false →
      (Clocked.trace (step hasFpu) s input (n + 2)).dbgAck = true

/-- Without an FPU the read addresses are those of general registers. -/
structure GprsOnly : Prop where
  init : hasFpu = false → ∀ p, (s.addrReg p).getLsbD 5 = false
  reads : hasFpu = false → ∀ n p, ((input n).regAddr p).getLsbD 5 = false

section

variable {hasFpu s input}

theorem index_eq_self {a : BitVec 6} (h : hasFpu = false → a.getLsbD 5 = false) :
    index hasFpu a = a := by
  unfold index
  cases hasFpu with
  | true => rfl
  | false =>
      have h5 := h rfl
      revert a
      decide

/-- The address of a write is that of the register with its number. -/
theorem wAddr_eq (i : RegFileIn) : wAddr hasFpu i = index hasFpu i.writeReg := by
  unfold wAddr
  generalize i.writeReg = a
  revert hasFpu a
  decide

theorem registers_eq (n : Nat) :
    (Clocked.trace (step hasFpu) s input n).registers = contents hasFpu s input n := by
  induction n with
  | zero => rfl
  | succ n ih =>
    show (if (input n).writeEnable then _ else _) = _
    rw [contents, ih, wAddr_eq]

theorem addrReg_eq (n : Nat) (p : Port) :
    (Clocked.trace (step hasFpu) s input n).addrReg p = heldAddr s input p n := by
  induction n with
  | zero => rfl
  | succ n ih =>
    show portAddr (Clocked.trace (step hasFpu) s input n) (input n) p = _
    rw [portAddr, heldAddr, ih]

theorem rd2_eq (n : Nat) :
    (Clocked.trace (step hasFpu) s input n).rd2 = heldEnable s input n := by
  induction n with
  | zero => rfl
  | succ n ih =>
    show bEnable (Clocked.trace (step hasFpu) s input n) (input n) = _
    rw [bEnable, heldEnable, ih]

theorem portAddr_eq (n : Nat) (p : Port) :
    portAddr (Clocked.trace (step hasFpu) s input n) (input n) p = heldAddr s input p (n + 1) := by
  rw [portAddr, heldAddr, addrReg_eq]

theorem bEnable_eq (n : Nat) :
    bEnable (Clocked.trace (step hasFpu) s input n) (input n) = heldEnable s input (n + 1) := by
  rw [bEnable, heldEnable, rd2_eq]

theorem GprsOnly.heldAddr (h : GprsOnly hasFpu s input) (p : Port) (n : Nat) :
    hasFpu = false → (heldAddr s input p n).getLsbD 5 = false := by
  intro hno
  induction n with
  | zero => exact h.init hno p
  | succ n ih =>
    rw [RegisterFile.heldAddr]
    split_ifs
    · exact ih
    · exact h.reads hno n p

/-- A port shows the register after all writes. -/
theorem readData_eq (h : GprsOnly hasFpu s input) (n : Nat) (p : Port)
    (hfree : p = 1 → heldEnable s input (n + 1) = true ∨ (input n).dbgGprReq = false) :
    readData (Clocked.trace (step hasFpu) s input (n + 1)) p =
      contents hasFpu s input (n + 1) (index hasFpu (heldAddr s input p (n + 1))) := by
  have hself := index_eq_self (h.heldAddr p (n + 1))
  have hread : readAddr hasFpu (Clocked.trace (step hasFpu) s input n) (input n) p =
      heldAddr s input p (n + 1) := by
    rw [readAddr, if_neg, portAddr_eq, hself]
    rintro ⟨hp, hreq, hoff⟩
    rw [bEnable_eq] at hoff
    rcases hfree hp with hon | hno
    · simp [hon] at hoff
    · simp [hno] at hreq
  have hport : readData (Clocked.trace (step hasFpu) s input (n + 1)) p =
      if (input n).writeEnable && wAddr hasFpu (input n) ==
          portAddr (Clocked.trace (step hasFpu) s input n) (input n) p then
        (input n).writeData
      else (Clocked.trace (step hasFpu) s input n).registers
        (readAddr hasFpu (Clocked.trace (step hasFpu) s input n) (input n) p) := rfl
  have hdata : readData (Clocked.trace (step hasFpu) s input (n + 1)) p =
      if (input n).writeEnable && index hasFpu (input n).writeReg == heldAddr s input p (n + 1) then
        (input n).writeData
      else contents hasFpu s input n (heldAddr s input p (n + 1)) := by
    rw [hport, hread, registers_eq, portAddr_eq, wAddr_eq]
  rw [hdata, hself, contents]
  cases hw : (input n).writeEnable with
  | false => simp
  | true =>
      simp only [Bool.true_and, beq_iff_eq, if_true]
      by_cases heq : index hasFpu (input n).writeReg = heldAddr s input p (n + 1)
      · rw [if_pos heq, heq, Function.update_self]
      · rw [if_neg heq, Function.update_of_ne (Ne.symm heq)]

/-! ## Debug reads -/

/-- A debug read is under way: port B shows the register as it was in the last cycle. -/
structure DebugRead (hasFpu : Bool) (s : RegFile) (input : Nat → RegFileIn) (n : Nat) : Prop where
  taken : (Clocked.trace (step hasFpu) s input n).dbgGprDone = true →
    (Clocked.trace (step hasFpu) s input n).dbgAck = false →
    ∃ m, n = m + 1 ∧ (input m).dbgGprReq = true ∧
      (Clocked.trace (step hasFpu) s input n).data 1 =
        contents hasFpu s input m (index hasFpu (input m).dbgGprAddr)
  acked : (Clocked.trace (step hasFpu) s input n).dbgAck = true →
    ∃ m < n, (∀ k, m ≤ k → k < n → (input k).dbgGprReq = true) ∧
      (Clocked.trace (step hasFpu) s input n).dbgData =
        contents hasFpu s input m (index hasFpu (input m).dbgGprAddr)

theorem debugRead (hdone : s.dbgGprDone = false) (hack : s.dbgAck = false) (n : Nat) :
    DebugRead hasFpu s input n := by
  induction n with
  | zero =>
    exact ⟨fun h => absurd h (by simp [Clocked.trace, hdone]),
      fun h => absurd h (by simp [Clocked.trace, hack])⟩
  | succ n ih =>
    have hregs := @registers_eq hasFpu s input n
    obtain ⟨htaken, hacked⟩ := ih
    set t := Clocked.trace (step hasFpu) s input n with ht
    have hnext : Clocked.trace (step hasFpu) s input (n + 1) = step hasFpu t (input n) := rfl
    cases hreq : (input n).dbgGprReq with
    | false =>
        refine ⟨fun h => ?_, fun h => ?_⟩ <;> rw [hnext] at h <;> simp [step, hreq] at h
    | true =>
        have hack' : (step hasFpu t (input n)).dbgAck = (t.dbgAck || t.dbgGprDone) := by
          simp [step, hreq]
        refine ⟨?_, ?_⟩ <;> rw [hnext]
        · intro hd ha
          rw [hack', Bool.or_eq_false_iff] at ha
          have hoff : bEnable t (input n) = false := by
            simpa [step, hreq, ha.2] using hd
          refine ⟨n, rfl, hreq, ?_⟩
          show t.registers (readAddr hasFpu t (input n) 1) = _
          rw [hregs, readAddr, if_pos (by simp [hreq, hoff])]
        · intro ha
          cases hold : t.dbgAck with
          | true =>
              -- the answer is kept as long as the request stands
              obtain ⟨m, hm, hall, hdata⟩ := hacked hold
              refine ⟨m, by omega, ?_, ?_⟩
              · intro k hk hkn
                rcases Nat.lt_or_ge k n with hlt | hge
                · exact hall k hk hlt
                · obtain rfl : k = n := by omega
                  exact hreq
              · rw [← hdata]
                simp [step, hold]
          | false =>
              rw [hack', hold, Bool.false_or] at ha
              obtain ⟨m, hm, hreqm, hdata⟩ := htaken ha hold
              refine ⟨m, by omega, ?_, ?_⟩
              · intro k hk hkn
                rcases Nat.lt_or_ge k n with hlt | hge
                · obtain rfl : k = m := by omega
                  exact hreqm
                · obtain rfl : k = n := by omega
                  exact hreq
              · rw [← hdata]
                simp [step, hold, hreq, ha]

/-- In every run the register file behaves as an array, and debug reads leave the ports in use
alone. -/
theorem isArray (hgprs : GprsOnly hasFpu s input) (hdone : s.dbgGprDone = false)
    (hack : s.dbgAck = false) : IsArray hasFpu s input where
  read := readData_eq hgprs
  debug := fun n => (debugRead hdone hack n).acked
  answer := by
    intro n h1 h2 hoff
    have hd : (Clocked.trace (step hasFpu) s input (n + 1)).dbgGprDone = true := by
      show (if (input n).dbgGprReq then _ else _) = true
      rw [if_pos h1, bEnable_eq, hoff]
      simp
    show (if (input (n + 1)).dbgGprReq then _ else _) = true
    rw [if_pos h2, hd]
    simp

end

/-- All registers zero, and no request. -/
def cleared : RegFile :=
  ⟨fun _ => 0, fun _ => 0, false, fun _ => false, fun _ => 0, 0, false, 0, false⟩

/-- A write of r3, read at the same edge, while the debugger asks for r3. -/
theorem isArray_write :
    IsArray true cleared (fun n => ⟨false, fun _ => 3, false, n == 0, 3, 7, true, 3⟩) :=
  isArray ⟨fun h => absurd h (by decide), fun h => absurd h (by decide)⟩ rfl rfl

end Microwatt.RegisterFile
