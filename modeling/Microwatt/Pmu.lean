import Microwatt.Lib.Run

/-!
# The performance counters

The unit of `pmu.vhdl`: the registers MMCR0, MMCR1, MMCR2, MMCRA, SIAR, SDAR and SIER, and the
counters PMC1 to PMC6, which are `pmcs 0` to `pmcs 5` here.

`counts` says when a counter should count: its event occurs and none of the conditions applies under
which MMCR0 and MMCR2 freeze it.
-/

namespace Microwatt.Pmu

open Clocked

/-! ## Bit numbers -/

def mmcr0Fc : Nat := 63 - 32
def mmcr0Fcs : Nat := 63 - 33
def mmcr0Fcp : Nat := 63 - 34
def mmcr0Fcm1 : Nat := 63 - 35
def mmcr0Fcm0 : Nat := 63 - 36
def mmcr0Pmae : Nat := 63 - 37
def mmcr0Fcece : Nat := 63 - 38
def mmcr0Tbsel : Nat := 63 - 40
def mmcr0Tbee : Nat := 63 - 41
def mmcr0Bhrba : Nat := 63 - 42
def mmcr0Ebe : Nat := 63 - 43
def mmcr0Pmcc : Nat := 63 - 45
def mmcr0Pmc1ce : Nat := 63 - 48
def mmcr0Pmcjce : Nat := 63 - 49
def mmcr0Trigger : Nat := 63 - 50
def mmcr0Fcpc : Nat := 63 - 51
def mmcr0Pmaq : Nat := 63 - 52
def mmcr0Cc56run : Nat := 63 - 55
def mmcr0Pmao : Nat := 63 - 56
def mmcr0Fc14 : Nat := 63 - 58
def mmcr0Fc56 : Nat := 63 - 59
def mmcr0Fc14w : Nat := 63 - 62

/-- The bits of MMCR2 for the first counter; those of the next ones follow in steps of 9. -/
def mmcr2Fc0s : Nat := 63 - 0
def mmcr2Fc0p0 : Nat := 63 - 1
def mmcr2Fc0m1 : Nat := 63 - 3
def mmcr2Fc0m0 : Nat := 63 - 4

def mmcraSe : Nat := 63 - 63

def sierSamppr : Nat := 63 - 38
def sierSiarv : Nat := 63 - 41
def sierSdarv : Nat := 63 - 42

/-- A vector with one bit assigned. -/
def assign {w : Nat} (v : BitVec w) (n : Nat) (b : Bool) : BitVec w :=
  (v &&& ~~~(1#w <<< n)) ||| ((BitVec.ofBool b).setWidth w <<< n)

/-! ## Inputs and registers -/

/-- `PMUEventType`. -/
structure PmuEvents where
  noInstrAvail : Bool
  dispatch : Bool
  extInterrupt : Bool
  instrComplete : Bool
  fpComplete : Bool
  ldComplete : Bool
  stComplete : Bool
  brTakenComplete : Bool
  brMispredict : Bool
  iprefDiscard : Bool
  itlbMiss : Bool
  itlbMissResolved : Bool
  icacheMiss : Bool
  dcMissResolved : Bool
  dcLoadMiss : Bool
  dcLdMissResolved : Bool
  dcStoreMiss : Bool
  dtlbMiss : Bool
  dtlbMissResolved : Bool
  ldMissNocache : Bool

/-- `Execute1ToPMUType`, with the reset. -/
structure Execute1ToPmu where
  rst : Bool
  mtspr : Bool
  sprNum : BitVec 5
  sprVal : BitVec 64
  tbbits : BitVec 4
  pmmMsr : Bool
  prMsr : Bool
  run : Bool
  nia : BitVec 64
  addr : BitVec 64
  addrV : Bool
  trace : Bool
  occur : PmuEvents

/-- The registers. -/
structure Regs where
  pmcs : Fin 6 → BitVec 32
  mmcr0 : BitVec 32
  mmcr1 : BitVec 64
  mmcr2 : BitVec 64
  mmcra : BitVec 64
  siar : BitVec 64
  sdar : BitVec 64
  sier : BitVec 64
  prevTb : BitVec 4

variable (s : Regs) (p : Execute1ToPmu)

/-! ## `pmu_2` -/

/-- `tbbit`: the timebase bit that MMCR0 selects has come up. -/
def tbbit : Bool :=
  let tbdiff := p.tbbits &&& ~~~s.prevTb
  tbdiff.getLsbD (3 - (s.mmcr0.extractLsb' mmcr0Tbsel 2).toNat)

/-- `MMCR0[PMCC]` is 11. -/
def pmccAll : Bool := s.mmcr0.extractLsb' mmcr0Pmcc 2 == 0b11

/-- `doevent`. -/
def doevent : Bool :=
  (tbbit s p && s.mmcr0.getLsbD mmcr0Tbee) ||
    (s.mmcr0.getLsbD mmcr0Pmc1ce && (s.pmcs 0).getLsbD 31) ||
    (s.mmcr0.getLsbD mmcr0Pmcjce &&
      ((s.pmcs 1).getLsbD 31 || (s.pmcs 2).getLsbD 31 || (s.pmcs 3).getLsbD 31)) ||
    (s.mmcr0.getLsbD mmcr0Pmcjce && !pmccAll s &&
      ((s.pmcs 4).getLsbD 31 || (s.pmcs 5).getLsbD 31))

/-- `doalert`. -/
def doalert : Bool := doevent s p && s.mmcr0.getLsbD mmcr0Pmae

/-- `fc14wo`: the event of PMC1 overrides `MMCR0[FC1_4W]`. -/
def fc14wo : Bool := s.mmcr1.extractLsb' 24 8 == 0xf0

/-- The events that MMCR1 selects for PMC1 to PMC4, and those of PMC5 and PMC6. -/
def selected (i : Fin 6) : Bool :=
  match i with
  | 0 =>
    match s.mmcr1.extractLsb' 24 8 with
    | 0xf0 => true
    | 0xf2 | 0xfe => p.occur.instrComplete
    | 0xf4 => p.occur.fpComplete
    | 0xf6 => p.occur.itlbMiss
    | 0xf8 => p.occur.noInstrAvail
    | 0xfa => p.run
    | 0xfc => p.occur.ldComplete
    | _ => false
  | 1 =>
    match s.mmcr1.extractLsb' 16 8 with
    | 0xf0 => p.occur.stComplete
    | 0xf2 => p.occur.dispatch
    | 0xf4 => p.run
    | 0xf6 => p.occur.dtlbMissResolved
    | 0xf8 => p.occur.extInterrupt
    | 0xfa => p.occur.brTakenComplete
    | 0xfc => p.occur.icacheMiss
    | 0xfe => p.occur.dcMissResolved
    | _ => false
  | 2 =>
    match s.mmcr1.extractLsb' 8 8 with
    | 0xf0 => p.occur.dcStoreMiss
    | 0xf2 => p.occur.dispatch
    | 0xf4 => p.occur.instrComplete && p.run
    | 0xf6 => p.occur.dcLdMissResolved
    | 0xf8 => tbbit s p
    | 0xfe => p.occur.dtlbMiss
    | _ => false
  | 3 =>
    match s.mmcr1.extractLsb' 0 8 with
    | 0xf0 => p.occur.dcLoadMiss
    | 0xf2 => p.occur.dispatch
    | 0xf4 => p.run
    | 0xf6 => p.occur.brMispredict
    | 0xf8 => p.occur.iprefDiscard
    | 0xfa => p.occur.instrComplete && p.run
    | 0xfc => p.occur.itlbMissResolved
    | 0xfe => p.occur.ldMissNocache
    | _ => false
  | 4 => (s.mmcr0.getLsbD mmcr0Cc56run || p.run) && p.occur.instrComplete
  | 5 => s.mmcr0.getLsbD mmcr0Cc56run || p.run

/-- `freeze`. -/
def freeze : Bool :=
  s.mmcr0.getLsbD mmcr0Fc ||
    (s.mmcr0.getLsbD mmcr0Fcs && !p.prMsr) ||
    (s.mmcr0.getLsbD mmcr0Fcp && !s.mmcr0.getLsbD mmcr0Fcpc && p.prMsr) ||
    (!s.mmcr0.getLsbD mmcr0Fcp && s.mmcr0.getLsbD mmcr0Fcpc && p.prMsr) ||
    (s.mmcr0.getLsbD mmcr0Fcm1 && p.pmmMsr) ||
    (s.mmcr0.getLsbD mmcr0Fcm0 && !p.pmmMsr)

/-- `doinc`. -/
def doinc (i : Fin 6) : Bool :=
  let inc := selected s p
  let inc : Fin 6 → Bool := fun i =>
    if i = 0 && (freeze s p || s.mmcr0.getLsbD mmcr0Fc14 ||
        (s.mmcr0.getLsbD mmcr0Fc14w && !p.run && !fc14wo s)) then false
    else inc i
  let inc : Fin 6 → Bool := fun i =>
    if (1 ≤ i && i ≤ 3) && (freeze s p || s.mmcr0.getLsbD mmcr0Fc14 ||
        (s.mmcr0.getLsbD mmcr0Fc14w && !p.run)) then false
    else inc i
  let inc : Fin 6 → Bool := fun i =>
    if 4 ≤ i && (freeze s p || s.mmcr0.getLsbD mmcr0Fc56) then false else inc i
  let inc : Fin 6 → Bool := fun i =>
    if 1 ≤ i && s.mmcr0.getLsbD mmcr0Trigger then false else inc i
  let inc : Fin 6 → Bool := fun i =>
    let j := i.val * 9
    if (s.mmcr2.getLsbD (mmcr2Fc0s - j) && !p.prMsr) ||
        (s.mmcr2.getLsbD (mmcr2Fc0p0 - j) && p.prMsr) ||
        (s.mmcr2.getLsbD (mmcr2Fc0m1 - j) && p.pmmMsr) ||
        -- the source has FC0M1 and PMM twice
        (s.mmcr2.getLsbD (mmcr2Fc0m1 - j) && p.pmmMsr) then false
    else inc i
  let inc : Fin 6 → Bool := fun i =>
    if pmccAll s then
      if i = 4 then p.run && p.occur.instrComplete else if i = 5 then p.run else inc i
    else inc i
  inc i

/-! ## `pmu_1` -/

/-- `mtspr` to the register with these low bits of its number. -/
def writes (n : BitVec 4) : Bool := p.mtspr && p.sprNum.extractLsb' 0 4 == n

/-- `mtspr` to a counter. -/
def writesPmc (i : Fin 6) : Bool := writes p (BitVec.ofNat 4 (i.val + 3))

/-- `mmcr0` after an edge without a write to it. -/
def nextMmcr0 : BitVec 32 :=
  let m := s.mmcr0
  let m :=
    if doalert s p then assign (assign (assign m mmcr0Pmae false) mmcr0Pmao true) mmcr0Pmaq false
    else m
  let m :=
    if doevent s p && s.mmcr0.getLsbD mmcr0Fcece && !s.mmcr0.getLsbD mmcr0Trigger then
      assign m mmcr0Fc true
    else m
  if (doevent s p || (s.pmcs 0).getLsbD 31) && s.mmcr0.getLsbD mmcr0Trigger then
    assign m mmcr0Trigger false
  else m

/-- A rising edge. -/
def step : Regs :=
  if p.rst then { s with mmcr0 := 0x80000000, prevTb := p.tbbits }
  else
    { pmcs := fun i =>
        if writesPmc p i then p.sprVal.extractLsb' 0 32
        else if doinc s p i then s.pmcs i + 1
        else s.pmcs i
      mmcr0 :=
        if writes p 0b1011 then
          assign (assign (p.sprVal.extractLsb' 0 32) mmcr0Bhrba false) mmcr0Ebe false
        else nextMmcr0 s p
      mmcr1 := if writes p 0b1110 then p.sprVal else s.mmcr1
      mmcr2 := if writes p 0b0001 then p.sprVal else s.mmcr2
      mmcra := if writes p 0b0010 then assign p.sprVal mmcraSe false else s.mmcra
      siar := if writes p 0b1100 then p.sprVal else if doalert s p || p.trace then p.nia else s.siar
      sdar := if writes p 0b1101 then p.sprVal else if doalert s p || p.trace then p.addr
        else s.sdar
      sier :=
        if writes p 0b0000 then p.sprVal
        else if doalert s p then
          assign (assign (assign 0 sierSamppr p.prMsr) sierSiarv true) sierSdarv p.addrV
        else s.sier
      prevTb := p.tbbits }

/-! ## What should be counted -/

/-- With `MMCR0[PMCC]` = 11, PMC5 and PMC6 are not controlled by the MMCRs. -/
def exempt (i : Fin 6) : Bool := pmccAll s && decide (4 ≤ i)

/-- The event of a counter occurs. -/
def occurs (i : Fin 6) : Bool :=
  if exempt s i then if i = 4 then p.run && p.occur.instrComplete else p.run
  else selected s p i

/-- MMCR0 freezes a counter. -/
def frozenMmcr0 (i : Fin 6) : Bool :=
  freeze s p ||
    (if i < 4 then
      s.mmcr0.getLsbD mmcr0Fc14 ||
        (s.mmcr0.getLsbD mmcr0Fc14w && !p.run && !(decide (i = 0) && fc14wo s))
    else s.mmcr0.getLsbD mmcr0Fc56) ||
    (decide (i ≠ 0) && s.mmcr0.getLsbD mmcr0Trigger)

/-- The condition of MMCR2 for `PMM` = 0. -/
def frozenM0 (i : Fin 6) : Bool := s.mmcr2.getLsbD (mmcr2Fc0m0 - 9 * i.val) && !p.pmmMsr

/-- The other conditions of MMCR2. -/
def frozenMmcr2 (i : Fin 6) : Bool :=
  (s.mmcr2.getLsbD (mmcr2Fc0s - 9 * i.val) && !p.prMsr) ||
    (s.mmcr2.getLsbD (mmcr2Fc0p0 - 9 * i.val) && p.prMsr) ||
    (s.mmcr2.getLsbD (mmcr2Fc0m1 - 9 * i.val) && p.pmmMsr)

/-- A counter should count in this cycle. -/
def counts (i : Fin 6) : Bool :=
  occurs s p i &&
    (exempt s i || !(frozenMmcr0 s p i || frozenMmcr2 s p i || frozenM0 s p i))

/-- In this cycle the counter does what it should. -/
def Right (i : Fin 6) : Prop :=
  (step s p).pmcs i = if counts s p i then s.pmcs i + 1 else s.pmcs i

instance (i : Fin 6) : Decidable (Right s p i) := inferInstanceAs (Decidable (_ = _))

/-- Only the condition for `PMM` = 0 keeps the counter from counting. -/
def OnlyM0 (i : Fin 6) : Prop :=
  (occurs s p i && !exempt s i && !(frozenMmcr0 s p i || frozenMmcr2 s p i) && frozenM0 s p i) =
    true

instance (i : Fin 6) : Decidable (OnlyM0 s p i) := inferInstanceAs (Decidable (_ = true))

/-- The counter is left to itself: no reset, and no `mtspr` to it. -/
def Free (i : Fin 6) : Prop := p.rst = false ∧ writesPmc p i = false

instance (i : Fin 6) : Decidable (Free p i) := inferInstanceAs (Decidable (_ ∧ _))

/-- The number of cycles of a run in which a counter should count. -/
def counted (i : Fin 6) : Regs → List Execute1ToPmu → Nat
  | _, [] => 0
  | s, p :: ps => (counts s p i).toNat + counted i (step s p) ps

variable {s p} {i : Fin 6}

/-- What the unit counts, in the terms of the conditions. -/
theorem doinc_eq (i : Fin 6) : doinc s p i =
    (occurs s p i && (exempt s i || !(frozenMmcr0 s p i || frozenMmcr2 s p i))) := by
  have hpmc (i : Fin 6) : i = 0 ∨ (1 ≤ i ∧ i ≤ 3) ∨ i = 4 ∨ i = 5 := by omega
  unfold doinc occurs exempt frozenMmcr0 frozenMmcr2
  dsimp only
  rw [Nat.mul_comm i.val 9]
  simp only [Bool.if_false_left]
  generalize s.mmcr2.getLsbD (mmcr2Fc0s - 9 * i.val) = fs
  generalize s.mmcr2.getLsbD (mmcr2Fc0p0 - 9 * i.val) = fp
  generalize s.mmcr2.getLsbD (mmcr2Fc0m1 - 9 * i.val) = fm
  generalize selected s p i = sel, freeze s p = frz, fc14wo s = wo, pmccAll s = pmcc
  rcases hpmc i with rfl | ⟨h1, h3⟩ | rfl | rfl
  · simp
    grind
  · have h4 : ¬4 ≤ i := by omega
    have hlt : i < 4 := by omega
    have h0 : i ≠ 0 := by omega
    simp [h1, h3, h4, hlt, h0]
    grind
  · simp
    grind
  · simp
    grind

theorem counts_eq (i : Fin 6) :
    counts s p i = (doinc s p i && (exempt s i || !frozenM0 s p i)) := by
  rw [doinc_eq, counts]
  grind

theorem pmcs_step (hfree : Free p i) :
    (step s p).pmcs i = if doinc s p i then s.pmcs i + 1 else s.pmcs i := by
  unfold step
  rw [hfree.1, if_neg Bool.false_ne_true]
  simp only [hfree.2, Bool.false_eq_true, if_false]

/-- A counter that is left to itself does what it should unless only the condition for `PMM` = 0
keeps it from counting, which the unit does not look at. -/
theorem right_iff (hfree : Free p i) : Right s p i ↔ ¬OnlyM0 s p i := by
  unfold Right OnlyM0
  rw [pmcs_step hfree, counts_eq, doinc_eq]
  cases hevent : occurs s p i
  · simp
  · cases hexempt : exempt s i
    · cases hother : frozenMmcr0 s p i || frozenMmcr2 s p i
      · cases hm0 : frozenM0 s p i <;> simp
      · simp
    · simp

/-- Where the counter does what it should at every edge, its value is the number of cycles in which
it should count. -/
theorem pmcs_run {ps : List Execute1ToPmu} (hfree : Along step (fun _ p => Free p i) s ps)
    (hright : Along step (fun s p => Free p i → Right s p i) s ps) :
    (run step s ps).pmcs i = s.pmcs i + BitVec.ofNat 32 (counted i s ps) := by
  induction ps generalizing s with
  | nil => simp [counted]
  | cons p ps ih =>
      have hstep : (step s p).pmcs i = _ := hright.1 hfree.1
      rw [run_cons, ih hfree.2 hright.2, hstep, counted, BitVec.ofNat_add]
      cases counts s p i
      · simp
      · simp [BitVec.add_assoc]

/-- In every run from any registers, a counter that is not written increases by one in exactly the
cycles in which its event occurs and no condition freezes it, if and only if there is no cycle in
which only the condition of MMCR2 for `PMM` = 0 freezes it.  Its value is then the number of these
cycles. -/
theorem counters_count_iff (s : Regs) (ps : List Execute1ToPmu) (i : Fin 6) :
    (Along step (fun s p => Free p i → Right s p i) s ps ↔
        Along step (fun s p => Free p i → ¬OnlyM0 s p i) s ps) ∧
      (Along step (fun s p => Free p i ∧ ¬OnlyM0 s p i) s ps →
        (run step s ps).pmcs i = s.pmcs i + BitVec.ofNat 32 (counted i s ps)) := by
  have hiff : Along step (fun s p => Free p i → Right s p i) s ps ↔
      Along step (fun s p => Free p i → ¬OnlyM0 s p i) s ps :=
    ⟨fun h => h.mono fun _ _ hr hf => (right_iff hf).mp (hr hf),
      fun h => h.mono fun _ _ hm hf => (right_iff hf).mpr (hm hf)⟩
  refine ⟨hiff, fun h => ?_⟩
  exact pmcs_run (h.mono fun _ _ hp => hp.1) (hiff.mpr (h.mono fun _ _ hp _ => hp.2))

/-! ## Fixed inputs -/

/-- A cycle in hypervisor state, with `PMM` = 0 and without events. -/
def Execute1ToPmu.quiet : Execute1ToPmu where
  rst := false
  mtspr := false
  sprNum := 0
  sprVal := 0
  tbbits := 0
  pmmMsr := false
  prMsr := false
  run := true
  nia := 0
  addr := 0
  addrV := false
  trace := false
  occur := ⟨false, false, false, false, false, false, false, false, false, false, false,
    false, false, false, false, false, false, false, false, false⟩

/-- PMC1 counts every cycle, and MMCR2 has the given value. -/
def Regs.cycles (mmcr2 : BitVec 64) : Regs :=
  ⟨fun _ => 0, 0, 0xf0000000, mmcr2, 0, 0, 0, 0, 0⟩

/-- MMCR2 freezes PMC1 for `PMM` = 0 (FC0M0), and it counts on. -/
theorem not_frozen_m0 :
    ¬ ∀ (s : Regs) (ps : List Execute1ToPmu) (i : Fin 6),
        Along step (fun s p => Free p i → Right s p i) s ps := by
  intro h
  have hone := (h (.cycles 0x0800000000000000) [.quiet] 0).1 (by decide)
  exact absurd hone (by decide)

/-- Three cycles, with FC0M0 off. -/
theorem counters_count_three :
    (run step (.cycles 0) [.quiet, .quiet, .quiet]).pmcs 0 = 3 :=
  (counters_count_iff (.cycles 0) [.quiet, .quiet, .quiet] 0).2 (by decide)

end Microwatt.Pmu
