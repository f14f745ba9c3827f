import Microwatt.Lib.Bits
import Microwatt.Decode2
import Microwatt.Loadstore1.Step

/-!
# Doubled loads and interrupts

A quadword load and an update-form load are issued twice, and each instance completes on its own.
When the second instance is interrupted, the instruction starts again from its first instance, so
the register that the first one wrote must not be one that it reads.

An instance is followed here from decode2 to its end: the operands and the register written
(decode2), the request (`reqIn`), the comparison with the watchpoints (stages 1 and 2), and the
answers of the dcache and of the MMU on which stage 3 raises an interrupt.
-/

namespace Microwatt.Loadstore1

open Execute1 Decode2

/-! ## Instances -/

/-- A doubled load that is about to be executed. -/
structure Issued where
  d : Decode1ToDecode2
  msr : BitVec 64
  xerc : XerCommon
  /-- Instructions are fetched in the endianness of the MSR. -/
  endian : d.bigEndian = !msr.getLsbD msrLE
  legal : illegalForm d = false

variable (hasFpu : Bool) (x : Issued) (regs : Regs)

/-- What execute1 presents for an instance. -/
def present (second : Bool) : Execute1ToLoadstore1 where
  valid := true
  op := .load
  insn := x.d.insn
  instrTag := x.d.instrTag
  addr1 := readData1 x.d regs second
  addr2 := readData2 x.d regs second
  data := 0
  writeReg := (decodedRegO hasFpu x.d second).getD 0
  length := x.d.decode.length
  ci := false
  byteReverse := x.d.decode.byteReverse == x.msr.getLsbD msrLE
  signExtend := x.d.decode.signExtend
  update := x.d.decode.update
  hash := false
  xerc := x.xerc
  reserve := x.d.decode.reserve
  rc := false
  virtMode := x.msr.getLsbD msrDR
  privMode := !x.msr.getLsbD msrPR
  mode32bit := !x.msr.getLsbD msrSF
  is32bit := x.d.decode.is32bit
  prefixed := x.d.prefixed
  rpt := x.d.decode.rpt != .none
  second := second
  e2stall := false
  hashkey := 0
  hashEnable := true

/-- The request of the first instance. -/
def firstReq : Request :=
  reqIn hasFpu (present hasFpu x regs false) 0

/-- The request of the second instance, whose address is taken from the first one's. -/
def secondReq : Request :=
  reqIn hasFpu (present hasFpu x regs true) (firstReq hasFpu x regs).addr

/-- The dcache requests of an instance: two when it crosses a doubleword boundary. -/
def requests (req : Request) : List Request :=
  if req.dcReq then
    if req.incomplete then [req, secondDword req] else [req]
  else []

/-! ## Faults -/

/-- Two accesses of the same kind to one aligned block of sixteen bytes. -/
structure SameBlock (p q : Request) : Prop where
  addr : p.addr.extractLsb' 4 60 = q.addr.extractLsb' 4 60
  load : p.load = q.load
  store : p.store = q.store
  reserve : p.reserve = q.reserve
  nc : p.nc = q.nc
  virtMode : p.virtMode = q.virtMode
  privMode : p.privMode = q.privMode

/-- Everything that decides whether an access faults.  A page is larger than a block and so is a
cache line. -/
structure Surroundings where
  wp : Watchpoints
  settled : wp.dawrUplim = wp.uplim
  /-- The DTLB translates and permits the access, after other accesses of the instruction. -/
  tlbHit : List Request → Request → Bool
  /-- The MMU finds a translation that permits the access. -/
  walk : Request → Bool
  /-- A cached line is accessed as non-cacheable. -/
  paradox : Request → Bool
  /-- The access is non-cacheable. -/
  noncacheable : Request → Bool
  tlbHit_recent : ∀ p q recent, p ∈ recent → SameBlock p q → tlbHit recent q = true
  walk_block : ∀ p q, SameBlock p q → walk p = walk q
  paradox_block : ∀ p q, SameBlock p q → paradox p = paradox q
  noncacheable_block : ∀ p q, SameBlock p q → noncacheable p = noncacheable q

section

variable (e : Surroundings)

/-- Stage 1 with request `q`.  The borrows are taken anew in every cycle from the request that is
presented, so after a stall they belong to another request `held`. -/
def inStage1 (q held : Request) : RegStage1 where
  req := q
  busy := false
  issued := true
  addr0 := q.addr
  dawrLl := dawrLl e.wp held
  dawrUl := dawrUl e.wp held
  dawrUd := false

/-- The match that the dcache samples, in the cycle after the request. -/
def sampled (q : Request) : Bool :=
  dawrMatch (inStage1 e q q) e.wp false

/-- The match that stage 2 latches. -/
def latched (held q : Request) : Bool :=
  dawrMatch (inStage1 e q held) e.wp false

/-- The answer of the dcache. -/
def dcacheAnswer (watch hit : Bool) (q : Request) : DcacheToLoadstore1 :=
  let ok := hit && !watch
  let refused := e.paradox q || (q.reserve && e.noncacheable q)
  { valid := ok && !refused
    data := 0
    storeDone := false
    error := !ok || refused
    cacheParadox := ok && e.paradox q
    reserveNc := ok && q.reserve && e.noncacheable q }

/-- Stage 2 with request `q`. -/
def inStage2 (q : Request) : State :=
  { State.cold with r2 := { State.cold.r2 with req := q } }

/-- The answer `a` of the dcache raises an interrupt. -/
def dcacheRaises (q : Request) (a : DcacheToLoadstore1) : Bool :=
  exception (inStage2 q) { Input.idle with dIn := a }

/-- The answer of the MMU raises an interrupt. -/
def mmuRaises (q : Request) (done : Bool) : Bool :=
  exception (inStage2 q)
    { Input.idle with mIn := { Input.idle.mIn with done := done, err := !done } }

/-- A dcache request ends in an interrupt: at once, after the MMU has been asked, or when it is
sent to the dcache again. -/
def stops (recent : List Request) (held q : Request) : Bool :=
  let q' := { q with dawrIntr := latched e held q }
  let a := dcacheAnswer e (sampled e q) (e.tlbHit recent q) q
  dcacheRaises q' a ||
    (a.error &&
      (mmuRaises q' (e.walk q) || dcacheRaises q' (dcacheAnswer e q'.dawrIntr true q)))

/-- An instance ends in an interrupt.  `held` is what the stalls of stage 1 leave in the borrows. -/
def interrupted (recent : List Request) (held : Request → Request) (req : Request) : Bool :=
  exception (inStage2 req) Input.idle || (requests req).any fun q => stops e recent (held q) q

/-- A watchpoint matches the access and the interrupt for it is raised. -/
def watched (held q : Request) : Bool :=
  sampled e q && (latched e held q || !e.walk q)

end

/-- Whatever the first instance has written, the sources hold what they held, and the instruction
presents the same access when it is executed again. -/
def Restartable : Prop :=
  ∀ data,
    (∀ r ∈ sources x.d, written regs (decodedRegO hasFpu x.d false) data r = regs r) ∧
    present hasFpu x (written regs (decodedRegO hasFpu x.d false) data) false =
      present hasFpu x regs false

/-! ## Interrupts of an instance -/

theorem stops_eq {e : Surroundings} {recent : List Request} {held q : Request}
    (ha : q.alignIntr = false) (hh : q.hashcmp = false) :
    stops e recent held q =
      ((e.paradox q || (q.reserve && e.noncacheable q)) ||
        ((sampled e q || !e.tlbHit recent q) && (latched e held q || !e.walk q))) := by
  simp only [stops, dcacheRaises, mmuRaises, exception, hashchkTrap, errorIntr, inStage2,
    dcacheAnswer, Input.idle, ha, hh, Bool.and_false, Bool.false_and, Bool.or_false, Bool.false_or]
  generalize e.paradox q = a, q.reserve = b, e.noncacheable q = c, sampled e q = d,
    e.tlbHit recent q = f, latched e held q = g, e.walk q = h
  revert a b c d f g h
  decide

variable {hasFpu} {x} {regs}

theorem exception_idle (req : Request) :
    exception (inStage2 req) Input.idle = (req.valid && req.alignIntr) := by
  simp [exception, hashchkTrap, errorIntr, inStage2, Input.idle]

/-- The second instance of an update form only writes the address back. -/
theorem not_interrupted_of_update {e : Surroundings} {recent : List Request}
    {held : Request → Request} (h : x.d.decode.update = true) (hr : x.d.decode.reserve = false) :
    interrupted e recent held (secondReq hasFpu x regs) = false := by
  have hdc : (secondReq hasFpu x regs).dcReq = false := by
    simp [secondReq, reqIn, dcReqIn, loadIn, doUpdateIn, present, h]
  have ha : (secondReq hasFpu x regs).alignIntr = false := by
    simp [secondReq, reqIn, alignIntrIn, isQuad, present, h, hr]
  simp [interrupted, exception_idle, requests, hdc, ha]

/-! ## Quadwords -/

/-- The columns that the rows of quadword loads have in common. -/
theorem quad_row (h : x.d.decode.rpt = .drtp) :
    x.d.decode.length = 8 ∧ x.d.decode.update = false ∧ x.d.decode.byteReverse = false ∧
      x.d.decode.outputRegA = .rt := by
  revert h
  unfold Decode1ToDecode2.decode
  cases x.d.icode <;> simp [decodeRom, updateForm, quadForm]

theorem update_row (h : x.d.decode.rpt ≠ .drtp) :
    x.d.decode.update = true ∧ x.d.decode.reserve = false := by
  revert h
  unfold Decode1ToDecode2.decode
  cases x.d.icode <;> simp [decodeRom, updateForm, quadForm]

theorem next_dword (a : BitVec 64) : (a.extractLsb' 3 61 + 1) ++ a.extractLsb' 0 3 = a + 8 := by
  apply BitVec.eq_of_toNat_eq
  have ha := a.isLt
  rw [Bits.toNat_append]
  simp only [BitVec.toNat_add, BitVec.extractLsb'_toNat, BitVec.ofNat_eq_ofNat,
    BitVec.toNat_ofNat, Nat.shiftRight_eq_div_pow]
  omega

/-- The second doubleword of an aligned quadword: it is in the block of the first, and trimming
does not change it. -/
theorem addr_add_eight {m : Bool} {a : BitVec 64} (h3 : a.getLsbD 3 = false) :
    (trimAddr m (trimAddr m a + 8)).extractLsb' 4 60 = (trimAddr m a).extractLsb' 4 60 := by
  have h : a.toNat / 8 % 2 = 0 := by
    have := h3
    rw [Bits.getLsbD_eq_div] at this
    simpa using this
  have ha := a.isLt
  apply BitVec.eq_of_toNat_eq
  cases m <;>
  · simp only [trimAddr, Bool.false_eq_true, if_true, if_false, BitVec.extractLsb'_toNat,
      BitVec.toNat_add, BitVec.toNat_setWidth, BitVec.ofNat_eq_ofNat, BitVec.toNat_ofNat,
      Nat.shiftRight_eq_div_pow]
    omega

theorem trimAddr_low {m : Bool} {a : BitVec 64} {k : Nat} (hk : k < 32) :
    (trimAddr m a).getLsbD k = a.getLsbD k := by
  cases m
  · rfl
  · simp [trimAddr, hk, show k < 64 by omega]

/-- The address of the first instance. -/
theorem firstReq_addr :
    (firstReq hasFpu x regs).addr = trimAddr (!x.msr.getLsbD msrSF)
      (readData1 x.d regs false + readData2 x.d regs false) := rfl

/-- The address of the second instance of a quadword. -/
theorem secondReq_addr (h : x.d.decode.update = false) :
    (secondReq hasFpu x regs).addr =
      trimAddr (!x.msr.getLsbD msrSF) ((firstReq hasFpu x regs).addr + 8) := by
  rw [← next_dword]
  simp [secondReq, reqIn, addrIn, present, h]

theorem misaligned_quad (h : x.d.decode.rpt = .drtp) (second : Bool) (addr0 : BitVec 64) :
    misaligned (present hasFpu x regs second) addr0 =
      ((addrIn (present hasFpu x regs second) addr0).extractLsb' 0 3 != 0 ||
        ((addrIn (present hasFpu x regs second) addr0).getLsbD 3 != second)) := by
  obtain ⟨hl, hu, -, -⟩ := quad_row h
  have hmask : ((8 : BitVec 4).extractLsb' 0 3 - 1 : BitVec 3) = BitVec.allOnes 3 := by decide
  have hlen : (present hasFpu x regs second).length = 8 := hl
  have hupd : (present hasFpu x regs second).update = false := hu
  have hrpt : (present hasFpu x regs second).rpt = true := by simp [present, h]
  have hsec : (present hasFpu x regs second).second = second := rfl
  unfold misaligned
  rw [hlen, hupd, hrpt, hsec, hmask, BitVec.allOnes_and]
  rfl

/-- A quadword in LE mode that is not prefixed is refused unless it is aligned. -/
theorem alignIntr_quad (h : x.d.decode.rpt = .drtp) (hle : x.d.bigEndian = false)
    (hp : x.d.prefixed = false) (second : Bool) (addr0 : BitVec 64) :
    alignIntrIn (present hasFpu x regs second) addr0 =
      misaligned (present hasFpu x regs second) addr0 := by
  obtain ⟨-, hu, hb, -⟩ := quad_row h
  have hmsr : x.msr.getLsbD msrLE = true := by
    have := x.endian
    rw [hle] at this
    simpa using this.symm
  unfold alignIntrIn isQuad
  generalize misaligned (present hasFpu x regs second) addr0 = mis
  simp only [present, hp, hu, hb, h, hmsr]
  cases x.d.decode.reserve <;> cases mis <;> rfl

section Aligned

variable (h : x.d.decode.rpt = .drtp) (hle : x.d.bigEndian = false) (hp : x.d.prefixed = false)
  (ha : (firstReq hasFpu x regs).alignIntr = false)

include h hle hp ha

/-- The first instance was not refused, so the address is a multiple of sixteen. -/
theorem firstReq_aligned :
    (firstReq hasFpu x regs).addr.extractLsb' 0 3 = 0 ∧
      (firstReq hasFpu x regs).addr.getLsbD 3 = false := by
  have hm : misaligned (present hasFpu x regs false) 0 = false := by
    rw [← alignIntr_quad h hle hp]
    exact ha
  rw [misaligned_quad h, Bool.or_eq_false_iff, bne_eq_false_iff_eq, bne_eq_false_iff_eq] at hm
  exact hm

theorem secondReq_low :
    (secondReq hasFpu x regs).addr.extractLsb' 0 3 = 0 ∧
      (secondReq hasFpu x regs).addr.getLsbD 3 = true := by
  obtain ⟨-, hu, -, -⟩ := quad_row h
  obtain ⟨hlow, h3⟩ := firstReq_aligned h hle hp ha
  rw [secondReq_addr hu]
  generalize (firstReq hasFpu x regs).addr = a at hlow h3
  have hn : a.toNat % 16 = 0 := by
    have h1 : a.toNat % 8 = 0 := by
      have := congrArg BitVec.toNat hlow
      simpa using this
    rw [Bits.getLsbD_eq_div] at h3
    have h2 : a.toNat / 8 % 2 = 0 := by simpa using h3
    omega
  have hk : (a + 8).toNat % 16 = 8 := by
    have := a.isLt
    simp only [BitVec.toNat_add, BitVec.ofNat_eq_ofNat, BitVec.toNat_ofNat]
    omega
  constructor
  · apply BitVec.eq_of_getLsbD_eq
    intro k hk3
    rw [BitVec.getLsbD_extractLsb', trimAddr_low (by omega), Bits.getLsbD_eq_div]
    have : k = 0 ∨ k = 1 ∨ k = 2 := by omega
    rcases this with rfl | rfl | rfl <;> simp <;> omega
  · rw [trimAddr_low (by omega), Bits.getLsbD_eq_div]
    have : (a + 8).toNat / 2 ^ 3 % 2 = 1 := by omega
    exact decide_eq_true this

/-- The two halves of the quadword are accesses of the same kind to the same block. -/
theorem sameBlock_first_second :
    SameBlock (firstReq hasFpu x regs) (secondReq hasFpu x regs) := by
  obtain ⟨-, hu, -, -⟩ := quad_row h
  obtain ⟨-, h3⟩ := firstReq_aligned h hle hp ha
  have hblock : (secondReq hasFpu x regs).addr.extractLsb' 4 60 =
      (firstReq hasFpu x regs).addr.extractLsb' 4 60 := by
    rw [secondReq_addr hu, firstReq_addr]
    rw [firstReq_addr, trimAddr_low (by omega)] at h3
    exact addr_add_eight h3
  have hnc : (secondReq hasFpu x regs).addr.extractLsb' 28 4 =
      (firstReq hasFpu x regs).addr.extractLsb' 28 4 :=
    Bits.extract_eq_of_extract_eq hblock (by omega) (by omega)
  have hload (second : Bool) : loadIn (present hasFpu x regs second) = true := by
    simp [loadIn, doUpdateIn, present, hu]
  exact {
    addr := hblock.symm
    load := (hload false).trans (hload true).symm
    store := rfl
    reserve := rfl
    nc := by
      have hn1 : (firstReq hasFpu x regs).nc = ((firstReq hasFpu x regs).addr.extractLsb' 28 4 = 0xc
          && !x.msr.getLsbD msrDR) := by rfl
      have hn2 : (secondReq hasFpu x regs).nc =
          ((secondReq hasFpu x regs).addr.extractLsb' 28 4 = 0xc
          && !x.msr.getLsbD msrDR) := by rfl
      rw [hn1, hn2, hnc]
    virtMode := rfl
    privMode := rfl }

theorem secondReq_alignIntr : (secondReq hasFpu x regs).alignIntr = false := by
  obtain ⟨hlow, h3⟩ := secondReq_low h hle hp ha
  have : (secondReq hasFpu x regs).alignIntr =
      misaligned (present hasFpu x regs true) (firstReq hasFpu x regs).addr :=
    alignIntr_quad h hle hp true _
  rw [this, misaligned_quad h, Bool.or_eq_false_iff, bne_eq_false_iff_eq, bne_eq_false_iff_eq]
  exact ⟨hlow, h3⟩

end Aligned

/-- A quadword load that is not refused goes to the dcache. -/
theorem dcReq_quad (h : x.d.decode.rpt = .drtp) (second : Bool) (addr0 : BitVec 64) :
    dcReqIn (present hasFpu x regs second) addr0 =
      !alignIntrIn (present hasFpu x regs second) addr0 := by
  obtain ⟨-, hu, -, -⟩ := quad_row h
  have hload : loadIn (present hasFpu x regs second) = true := by
    simp [loadIn, doUpdateIn, present, hu]
  have hnop : hashNop (present hasFpu x regs second) = false := by simp [hashNop, present]
  have hv : (present hasFpu x regs second).valid = true := rfl
  simp [dcReqIn, hload, hnop, hv]

/-- An aligned doubleword is one request. -/
theorem requests_aligned {l : Execute1ToLoadstore1} {addr0 : BitVec 64} (hl : l.length = 8)
    (hd : dcReqIn l addr0 = true) (hlow : (addrIn l addr0).extractLsb' 0 3 = 0) :
    requests (reqIn hasFpu l addr0) = [reqIn hasFpu l addr0] := by
  have hsel : (longSel l addr0).extractLsb' 8 8 = 0 := by
    rw [longSel, hl, hlow]
    decide
  have hi : (reqIn hasFpu l addr0).incomplete = false := by
    simp [reqIn, hsel]
  have hd' : (reqIn hasFpu l addr0).dcReq = true := hd
  simp [requests, hd', hi]


/-! ## The register that the first instance writes -/

theorem restartable_of_not_mem {r : BitVec 6} (hr : decodedRegO hasFpu x.d false = some r)
    (hmem : r ∉ sources x.d) : Restartable hasFpu x regs := by
  intro data
  have hkeep : ∀ q ∈ sources x.d,
      written regs (decodedRegO hasFpu x.d false) data q = regs q := by
    intro q hq
    have hne : q ≠ r := fun h => hmem (h ▸ hq)
    rw [hr]
    exact Function.update_of_ne hne _ _
  obtain ⟨h1, h2⟩ := readData_congr hkeep
  refine ⟨hkeep, ?_⟩
  unfold present
  rw [h1, h2]

theorem not_restartable_of_mem {r : BitVec 6} (hr : decodedRegO hasFpu x.d false = some r)
    (hmem : r ∈ sources x.d) : ¬ Restartable hasFpu x regs := by
  intro h
  have hsame := (h (regs r + 1)).1 r hmem
  rw [hr] at hsame
  simp only [written, Function.update_self] at hsame
  have : (regs r + 1).toNat = (regs r).toNat := congrArg BitVec.toNat hsame
  have hlt := (regs r).isLt
  rw [BitVec.toNat_add] at this
  simp only [BitVec.ofNat_eq_ofNat, BitVec.toNat_ofNat] at this
  omega

variable (hasFpu) in
theorem decodedRegO_quad (h : x.d.decode.rpt = .drtp) :
    decodedRegO hasFpu x.d false =
      some (gprToGspr (if x.d.bigEndian || x.d.prefixed then x.d.insnRt
        else x.d.insnRt ||| 1)) := by
  obtain ⟨-, -, -, ho⟩ := quad_row h
  unfold decodedRegO outputReg
  simp only [h, ho, Option.map_some]
  rcases Bool.eq_false_or_eq_true (x.d.bigEndian || x.d.prefixed) with hb | hb
  · simp [hb]
  · simpa [hb] using gprToGspr_or_one x.d.insnRt

/-- RT is not a source of a legal quadword load. -/
theorem rt_not_mem_sources (h : x.d.decode.rpt = .drtp) :
    gprToGspr x.d.insnRt ∉ sources x.d := by
  have hl := x.legal
  have hres : regValidB x.d = true → x.d.decode.reserve = true := by
    revert h
    unfold regValidB Decode1ToDecode2.decode
    cases x.d.icode <;> simp [decodeRom, updateForm, quadForm]
  simp only [illegalForm, h, beq_self_eq_true, Bool.true_and, Bool.or_eq_false_iff,
    Bool.and_eq_false_iff, beq_eq_false_iff_ne] at hl
  obtain ⟨⟨hra, hrb⟩, -⟩ := hl
  simp only [sources, List.mem_append, not_or]
  constructor
  · split_ifs
    · simpa [gprToGspr_inj] using Ne.symm hra
    · exact List.not_mem_nil
  · split_ifs with hv
    · rcases hrb with hrb | hrb
      · rw [hres hv] at hrb
        cases hrb
      · simpa [gprToGspr_inj] using Ne.symm hrb
    · exact List.not_mem_nil

/-! ## Restartable loads -/

variable (x) in
/-- A quadword load in LE mode, not prefixed, that reads RT|1: the first instance overwrites a
source. -/
def OverwritesSource : Prop :=
  x.d.decode.rpt = .drtp ∧ x.d.bigEndian = false ∧ x.d.prefixed = false ∧
    gprToGspr (x.d.insnRt ||| 1) ∈ sources x.d

variable (hasFpu regs) in
theorem restartable_iff_not_overwritesSource (h : x.d.decode.rpt = .drtp) :
    Restartable hasFpu x regs ↔ ¬ OverwritesSource x := by
  have hreg := decodedRegO_quad hasFpu h
  rcases Bool.eq_false_or_eq_true (x.d.bigEndian || x.d.prefixed) with hb | hb
  · rw [if_pos hb] at hreg
    refine iff_of_true (restartable_of_not_mem hreg (rt_not_mem_sources h)) ?_
    rintro ⟨-, hle, hp, -⟩
    simp [hle, hp] at hb
  · rw [if_neg (by simp [hb])] at hreg
    rw [Bool.or_eq_false_iff] at hb
    constructor
    · rintro hres ⟨-, -, -, hmem⟩
      exact not_restartable_of_mem hreg hmem hres
    · intro hno
      apply restartable_of_not_mem hreg
      intro hmem
      exact hno ⟨h, hb.1, hb.2, hmem⟩

/-- Once the first half of an aligned quadword has got through, only a watchpoint can stop the
second. -/
theorem interrupted_second_iff_watched {e : Surroundings} {recent : List Request}
    {held : Request → Request} (h : x.d.decode.rpt = .drtp) (hle : x.d.bigEndian = false)
    (hp : x.d.prefixed = false)
    (hfirst : interrupted e recent held (firstReq hasFpu x regs) = false) :
    interrupted e (requests (firstReq hasFpu x regs) ++ recent) held (secondReq hasFpu x regs) =
      watched e (held (secondReq hasFpu x regs)) (secondReq hasFpu x regs) := by
  obtain ⟨hl, -, -, -⟩ := quad_row h
  rw [interrupted, exception_idle, Bool.or_eq_false_iff] at hfirst
  obtain ⟨ha1, hstop⟩ := hfirst
  have ha : (firstReq hasFpu x regs).alignIntr = false := ha1
  have ha2 := secondReq_alignIntr h hle hp ha
  have hr1 : requests (firstReq hasFpu x regs) = [firstReq hasFpu x regs] := by
    apply requests_aligned hl
    · rw [dcReq_quad h]
      exact congrArg (!·) ha
    · exact (firstReq_aligned h hle hp ha).1
  have hr2 : requests (secondReq hasFpu x regs) = [secondReq hasFpu x regs] := by
    apply requests_aligned hl
    · rw [dcReq_quad h]
      exact congrArg (!·) ha2
    · exact (secondReq_low h hle hp ha).1
  have hsame := sameBlock_first_second h hle hp ha
  have hhit : e.tlbHit ([firstReq hasFpu x regs] ++ recent) (secondReq hasFpu x regs) = true :=
    e.tlbHit_recent _ _ _ (List.mem_cons_self ..) hsame
  -- the first half was not refused, so neither is the second
  rw [hr1, List.any_cons, List.any_nil, Bool.or_false, stops_eq ha rfl, Bool.or_eq_false_iff,
    e.paradox_block _ _ hsame, e.noncacheable_block _ _ hsame, hsame.reserve] at hstop
  rw [interrupted, exception_idle, ha2, hr1, hr2, List.any_cons, List.any_nil, Bool.or_false,
    stops_eq ha2 rfl, hhit, hstop.1]
  simp [watched]

/-- After the first instance of a doubled load has completed, an interrupt of the second leaves the
instruction restartable, unless the first overwrote a source and a watchpoint matches the second
doubleword. -/
theorem restartable_iff (e : Surroundings) (recent : List Request) (held : Request → Request)
    (hfirst : interrupted e recent held (firstReq hasFpu x regs) = false) :
    (interrupted e (requests (firstReq hasFpu x regs) ++ recent) held (secondReq hasFpu x regs) =
        true → Restartable hasFpu x regs) ↔
      ¬ (OverwritesSource x ∧
        watched e (held (secondReq hasFpu x regs)) (secondReq hasFpu x regs) = true) := by
  by_cases h : x.d.decode.rpt = .drtp
  · by_cases hover : OverwritesSource x
    · obtain ⟨-, hle, hp, -⟩ := id hover
      rw [interrupted_second_iff_watched h hle hp hfirst,
        restartable_iff_not_overwritesSource hasFpu regs h]
      tauto
    · have := (restartable_iff_not_overwritesSource hasFpu regs h).mpr hover
      tauto
  · -- an update form: its second instance cannot be interrupted
    obtain ⟨hu, hr⟩ := update_row h
    have hno : ¬ OverwritesSource x := fun hover => h hover.1
    rw [not_interrupted_of_update hu hr]
    tauto

/-- A machine with every page mapped and one watchpoint, on loads of the doubleword at 0x1008. -/
def Surroundings.watch1008 : Surroundings where
  wp := ⟨![0x201, 0], ![0x0025 ||| 0x8, 0], ![0x201, 0]⟩
  settled := by
    funext k
    revert k
    decide
  tlbHit := fun _ _ => true
  walk := fun _ => true
  paradox := fun _ => false
  noncacheable := fun _ => false
  tlbHit_recent := fun _ _ _ _ _ => rfl
  walk_block := fun _ _ _ => rfl
  paradox_block := fun _ _ _ => rfl
  noncacheable_block := fun _ _ _ => rfl

/-- `lq r4,0(r5)` in 64-bit LE mode. -/
def Issued.lqR4R5 : Issued where
  d := ⟨.lq, 0xE0850000, 0, 0, false, ⟨0, true⟩⟩
  msr := 1#64 <<< 63 ||| 1
  xerc := ⟨false, false, false, false, false⟩
  endian := by decide
  legal := by decide

/-- With 0x1000 in r5 the first half of `lq r4,0(r5)` overwrites r5 before the watchpoint stops the
second. -/
theorem not_restartable_lq :
    interrupted Surroundings.watch1008 [] id (firstReq true Issued.lqR4R5 fun _ => 0x1000) = false ∧
    interrupted Surroundings.watch1008 (requests (firstReq true Issued.lqR4R5 fun _ => 0x1000)) id
      (secondReq true Issued.lqR4R5 fun _ => 0x1000) = true ∧
    ¬ Restartable true Issued.lqR4R5 (fun _ => 0x1000) := by
  refine ⟨by decide +kernel, by decide +kernel, ?_⟩
  exact @not_restartable_of_mem true Issued.lqR4R5 (fun _ => 0x1000) 5 (by decide) (by decide)

/-- `restartable_iff` for `lq r4,0(r5)` with 0x2000 in r5, where the watchpoint does not match. -/
theorem restartable_iff_unwatched :
    interrupted Surroundings.watch1008 [] id (firstReq true Issued.lqR4R5 fun _ => 0x2000) = false ∧
    ((interrupted Surroundings.watch1008
        (requests (firstReq true Issued.lqR4R5 fun _ => 0x2000) ++ []) id
        (secondReq true Issued.lqR4R5 fun _ => 0x2000) = true →
      Restartable true Issued.lqR4R5 fun _ => 0x2000) ↔
      ¬ (OverwritesSource Issued.lqR4R5 ∧
        watched Surroundings.watch1008 (secondReq true Issued.lqR4R5 fun _ => 0x2000)
          (secondReq true Issued.lqR4R5 fun _ => 0x2000) = true)) :=
  ⟨by decide +kernel, restartable_iff Surroundings.watch1008 [] id (by decide +kernel)⟩

end Microwatt.Loadstore1
