import Microwatt.Loadstore1.Digest
import Microwatt.Loadstore1.Phases
import Microwatt.Dcache.Request
import Microwatt.Lib.Fair

/-!
# hashst and hashchk

A hash instruction alone in the load/store unit, from its presentation to its end, with a dcache
that answers each access after some stalls and does not refuse it.  The address of the access is
that of the short displacement, but its alignment is that of the sum of the two register operands.
-/

namespace Microwatt.Loadstore1

open Clocked (trace)

/-! ## The unit with a memory -/

/-- Memory by doublewords. -/
abbrev Memory := BitVec 61 → Dword

/-- The doubleword of an address. -/
def dwordOf (addr : BitVec 64) : BitVec 61 := addr.extractLsb' 3 61

/-- An access in the dcache.  The data of a store come in the cycle after its request. -/
inductive Access where
  | none
  | taken (q : Loadstore1ToDcache)
  | waiting (q : Loadstore1ToDcache)

structure Setup where
  s : State
  access : Access
  mem : Memory

/-- What comes from outside in a cycle: the instruction, whether the dcache stalls an access, and
what the unit gets from the store queue, the MMU's registers and the debugger. -/
structure Outside where
  lIn : Execute1ToLoadstore1
  stall : Bool
  storeDone : Bool
  sprval : BitVec 64
  dbgSprReq : Bool
  dbgSprAddr : BitVec 2

section

variable (hasFpu : Bool) (x : Setup) (o : Outside)

/-- The answer of the dcache. -/
def answer : DcacheToLoadstore1 :=
  match x.access with
  | .waiting q => ⟨!o.stall, x.mem (dwordOf q.addr), o.storeDone, false, false, false⟩
  | _ => ⟨false, 0, o.storeDone, false, false, false⟩

def input : Input where
  lIn := o.lIn
  dIn := answer x o
  mIn := ⟨false, false, false, false, false, false, false, o.sprval⟩
  dcStall :=
    match x.access with
    | .waiting _ => o.stall
    | _ => false
  dbgSprReq := o.dbgSprReq
  dbgSprAddr := o.dbgSprAddr

/-- The request stores its data. -/
def isStore (q : Loadstore1ToDcache) : Bool :=
  !(q.load || q.dcbz || q.flush || q.touch || q.sync || q.tlbProbe)

/-- The memory after an access. -/
def Memory.access (mem : Memory) (q : Loadstore1ToDcache) : Memory :=
  if isStore q then
    Function.update mem (dwordOf q.addr)
      (Dcache.mergeBytes q.byteSel q.data (mem (dwordOf q.addr)))
  else mem

/-- The request that the unit makes in this cycle. -/
def newAccess : Access :=
  if (dOut hasFpu x.s (input x o)).valid then .taken (dOut hasFpu x.s (input x o)) else .none

def Setup.step : Setup where
  s := Loadstore1.step hasFpu x.s (input x o)
  access :=
    match x.access with
    | .none => newAccess hasFpu x o
    | .taken q => .waiting { q with data := (dOut hasFpu x.s (input x o)).data }
    | .waiting q => if o.stall then .waiting q else newAccess hasFpu x o
  mem :=
    match x.access with
    | .waiting q => if o.stall then x.mem else x.mem.access q
    | _ => x.mem

/-- How an instruction ends. -/
inductive End where
  | complete
  | interrupt (vec : BitVec 12)
deriving DecidableEq

/-- The end that is signalled in a cycle. -/
def ends : Option End :=
  if exception x.s (input x o) then some (.interrupt (r3in x.s (input x o)).intrVec)
  else if complete x.s (input x o) then some .complete
  else none

end

/-- The unit in cycle `n`, with a memory and no access. -/
def setupAt (hasFpu : Bool) (s : State) (mem : Memory) (os : Nat → Outside) (n : Nat) : Setup :=
  trace (Setup.step hasFpu) ⟨s, .none, mem⟩ os n

/-- The first end, and the memory after it; no register is written. -/
def Executes (hasFpu : Bool) (s : State) (mem : Memory) (os : Nat → Outside) (e : End)
    (mem' : Memory) : Prop :=
  ∃ n, (∀ m < n, ends (setupAt hasFpu s mem os m) (os m) = none) ∧
    ends (setupAt hasFpu s mem os n) (os n) = some e ∧
    (setupAt hasFpu s mem os (n + 1)).mem = mem' ∧
    ∀ m ≤ n,
      writeEnable (setupAt hasFpu s mem os m).s (input (setupAt hasFpu s mem os m) (os m)) = false

/-! ## Hash instructions -/

/-- `hashst`, `hashstp`, `hashchk` and `hashchkp`, as decoded. -/
structure IsHash (l : Execute1ToLoadstore1) : Prop where
  valid : l.valid = true
  hash : l.hash = true
  op : l.op = .store ∨ l.op = .load
  length : l.length = 8
  update : l.update = false
  reserve : l.reserve = false
  rpt : l.rpt = false
  second : l.second = false
  is32bit : l.is32bit = false
  e2stall : l.e2stall = false

/-- The displacement: six bits, a negative multiple of 8. -/
def displacement (insn : BitVec 32) : Int :=
  8 * ((insn.extractLsb' 0 1 ++ insn.extractLsb' 21 5).toNat : Int) - 512

/-- The effective address. -/
def hashEa (l : Execute1ToLoadstore1) : BitVec 64 :=
  trimAddr l.mode32bit (l.addr1 + BitVec.ofInt 64 (displacement l.insn))

/-- A doubleword with its bytes in the order of the mode. -/
def inMemory (byteReverse : Bool) (d : Dword) : Dword :=
  ofBytes fun k =>
    byteOf d (if byteReverse then BitVec.ofNat 3 (7 - k.val) else BitVec.ofNat 3 k.val)

/-- The digest of an instruction, as it stands in memory. -/
def digestOf (l : Execute1ToLoadstore1) : Dword :=
  inMemory l.byteReverse (hashDigest l.addr1 l.addr2 l.hashkey)

/-- What a hash instruction is to do. -/
def effect (l : Execute1ToLoadstore1) (mem : Memory) : End × Memory :=
  if !l.hashEnable then (.complete, mem)
  else if (hashEa l).toNat % 8 ≠ 0 then (.interrupt 0x600, mem)
  else if l.op = .store then (.complete, Function.update mem (dwordOf (hashEa l)) (digestOf l))
  else if mem (dwordOf (hashEa l)) = digestOf l then (.complete, mem)
  else (.interrupt 0x700, mem)

/-- Nothing is in stages 2 and 3. -/
structure Rest (s : State) : Prop where
  busy2 : s.r2.busy = false
  valid2 : s.r2.req.valid = false
  waitDc : s.r2.waitDc = false
  waitMmu : s.r2.waitMmu = false
  oneCycle : s.r2.oneCycle = false
  state3 : s.r3.state = .idle
  complete3 : s.r3.complete = false
  stage1En : s.r3.stage1En = true

/-- Nothing is in the unit. -/
structure Idle (s : State) : Prop extends Rest s where
  busy1 : s.r1.busy = false
  valid1 : s.r1.req.valid = false
  flushing : s.flushing = false
  active : s.hash.active = false
  done : s.hash.done = false

/-- The instruction is presented in the first cycle and no other after it; the dcache does not stall
for ever. -/
structure Alone (l : Execute1ToLoadstore1) (os : Nat → Outside) : Prop where
  first : (os 0).lIn = l
  rest : ∀ n, 0 < n → (os n).lIn.valid = false
  e2stall : ∀ n, (os n).lIn.e2stall = false
  goesOn : ∀ n, ∃ m, n ≤ m ∧ (os m).stall = false

/-- The instruction does what it is to do, whatever the memory, from every idle unit. -/
def DoesEffect (hasFpu : Bool) (l : Execute1ToLoadstore1) : Prop :=
  ∀ s, Idle s → ∀ mem os, Alone l os → Executes hasFpu s mem os (effect l mem).1 (effect l mem).2

/-- The sum of the operands is a multiple of 8 exactly when RA is; or the instruction is disabled
and a store. -/
def HashOkay (l : Execute1ToLoadstore1) : Prop :=
  if l.hashEnable then (l.addr1.toNat % 8 = 0 ↔ (l.addr1 + l.addr2).toNat % 8 = 0)
  else l.op = .store

/-! ## The request -/

section

variable {hasFpu : Bool} {l : Execute1ToLoadstore1} {q : Request}

/-- The sum of the operands, from which the unit takes the alignment. -/
def sumAddr (l : Execute1ToLoadstore1) : BitVec 64 := trimAddr l.mode32bit (l.addr1 + l.addr2)

/-- The unit takes the access for an aligned one. -/
def sumAligned (l : Execute1ToLoadstore1) : Bool := (sumAddr l).extractLsb' 0 3 == 0

/-- The request is that of a hash instruction, with any address and data. -/
structure Carries (l : Execute1ToLoadstore1) (q : Request) : Prop where
  valid : q.valid = true
  dcReq : q.dcReq = (l.hashEnable && sumAligned l)
  alignIntr : q.alignIntr = (l.hashEnable && !sumAligned l)
  load : q.load = (l.op == .load)
  store : q.store = (l.op == .store)
  hashst : q.hashst = (l.op == .store)
  hashcmp : q.hashcmp = (l.op == .load)
  plain : q.dcbz = false ∧ q.flush = false ∧ q.touch = false ∧ q.sync = false ∧ q.tlbie = false
  noSpr : q.readSpr = false ∧ q.writeSpr = false ∧ q.mmuOp = false ∧ q.doUpdate = false
  noUpdate : q.update = false
  loadSp : q.loadSp = false
  incomplete : q.incomplete = false
  brevMask : q.brevMask = if l.byteReverse then 7 else 0
  hashAddr : q.hashAddr = hashEa l
  byteSel : sumAligned l = true → q.byteSel = 0xff

theorem extractLsb'_eq_zero_iff (a : BitVec 64) : a.extractLsb' 0 3 = 0 ↔ a.toNat % 8 = 0 := by
  rw [← BitVec.toNat_inj, BitVec.extractLsb'_toNat]
  simp

theorem trimAddr_low_bits (m : Bool) (a : BitVec 64) :
    (trimAddr m a).toNat % 8 = a.toNat % 8 := by
  unfold trimAddr
  cases m
  · rfl
  · simp only [if_true, BitVec.toNat_setWidth, BitVec.extractLsb'_toNat, Nat.shiftRight_zero]
    omega

theorem sumAligned_iff (l : Execute1ToLoadstore1) :
    sumAligned l = true ↔ (l.addr1 + l.addr2).toNat % 8 = 0 := by
  unfold sumAligned sumAddr
  rw [beq_iff_eq, extractLsb'_eq_zero_iff, trimAddr_low_bits]

/-- The bits that make the displacement. -/
theorem hashAddrIn_eq (l : Execute1ToLoadstore1) : hashAddrIn l = hashEa l := by
  have hbits (a : BitVec 1) (b : BitVec 5) : (0x7FFFFFFFFFFFFF#55 ++ a ++ b ++ 0#3 : BitVec 64) =
      BitVec.ofInt 64 (8 * ((a ++ b).toNat : Int) - 512) := by
    revert a b
    decide +kernel
  unfold hashAddrIn hashEa displacement
  rw [hbits]

theorem IsHash.addrIn (h : IsHash l) (addr0 : BitVec 64) : addrIn l addr0 = sumAddr l := by
  unfold Loadstore1.addrIn sumAddr
  rw [h.second]
  rfl

theorem IsHash.misaligned (h : IsHash l) (addr0 : BitVec 64) :
    misaligned l addr0 = !sumAligned l := by
  unfold Loadstore1.misaligned
  rw [h.addrIn, h.length, h.rpt, Bool.false_and, Bool.false_and, Bool.or_false]
  unfold sumAligned
  generalize (sumAddr l).extractLsb' 0 3 = x
  revert x
  decide

/-- The request of a hash instruction. -/
theorem IsHash.carries (h : IsHash l) (addr0 : BitVec 64) : Carries l (reqIn hasFpu l addr0) := by
  have halign : alignIntrIn l addr0 = (l.hashEnable && !sumAligned l) := by
    simp [alignIntrIn, h.misaligned, h.reserve, h.hash, isQuad, h.rpt]
  have hdo : doUpdateIn l = false := by simp [doUpdateIn, h.update]
  have hload : loadIn l = (l.op == .load) := by
    obtain hop | hop := h.op <;> simp [loadIn, hdo, hop]
  have hdc : dcReqIn l addr0 = (l.hashEnable && sumAligned l) := by
    unfold dcReqIn hashNop
    rw [halign, hload, h.valid]
    obtain hop | hop := h.op <;> cases l.hashEnable <;> cases sumAligned l <;> simp [hop]
  have hsel (ha : sumAligned l = true) : longSel l addr0 = 0x00ff := by
    unfold longSel
    rw [h.addrIn, h.length, show (sumAddr l).extractLsb' 0 3 =
      0 from by simpa [sumAligned] using ha]
    decide
  refine ⟨h.valid, hdc, halign, hload, rfl, ?_, ?_, ?_, ?_, h.update, ?_, ?_, ?_,
    hashAddrIn_eq l, ?_⟩
  · simp [reqIn, h.hash]
  · simp [reqIn, h.hash]
  · obtain hop | hop := h.op <;> simp [reqIn, hop, h.length]
  · obtain hop | hop := h.op <;> simp [reqIn, hop, hdo]
  · simp [reqIn, h.is32bit]
  · show (dcReqIn l addr0 && (longSel l addr0).extractLsb' 8 8 != 0) = false
    rw [hdc]
    cases ha : sumAligned l
    · simp
    · rw [hsel ha]
      simp
  · show (if l.byteReverse then l.length.extractLsb' 0 3 - 1 else 0) = _
    rw [h.length]
    rfl
  · intro ha
    show (longSel l addr0).extractLsb' 0 8 = 0xff
    rw [hsel ha]
    decide

end

/-! ## Cycles -/

section

variable {hasFpu : Bool} {l : Execute1ToLoadstore1} {s : State} {i : Input}

/-- No answer and no stall. -/
structure Quiet (i : Input) : Prop where
  dValid : i.dIn.valid = false
  dError : i.dIn.error = false
  dcStall : i.dcStall = false
  mDone : i.mIn.done = false
  mErr : i.mIn.err = false
  e2stall : i.lIn.e2stall = false

theorem input_quiet {x : Setup} {o : Outside} (hx : ∀ q, x.access ≠ .waiting q)
    (he : o.lIn.e2stall = false) : Quiet (input x o) := by
  obtain ⟨s, access, mem⟩ := x
  cases access with
  | none => exact ⟨rfl, rfl, rfl, rfl, rfl, he⟩
  | taken q => exact ⟨rfl, rfl, rfl, rfl, rfl, he⟩
  | waiting q => exact absurd rfl (hx q)

/-- Nothing happens in stages 2 and 3. -/
structure Silent (s : State) (i : Input) : Prop where
  exception : exception s i = false
  l2stall : l2stall s i = false
  complete : complete s i = false
  writeEnable : writeEnable s i = false
  r2 : r2in s i = if stage1Ready s then moveToStage2 s i (dbgRead s i s.r2)
    else bubbleStage2 (dbgRead s i s.r2)
  state3 : (r3in s i).state = .idle
  complete3 : (r3in s i).complete = false
  stage1En : (r3in s i).stage1En = true

theorem Rest.silent (h : Rest s) (hi : Quiet i) : Silent s i := by
  have herr : errorIntr s i = false := by simp [errorIntr, hi.dError]
  have hfree : stage2Free s i = true :=
    stage2Free_iff.mpr ⟨hi.dcStall, hi.dError, h.busy2, hi.e2stall⟩
  have hint : stage2Interrupt s i = false := by
    simp [stage2Interrupt, herr, h.valid2, hi.mErr]
  obtain ⟨h3, hc3, hen, -⟩ := @r3in_eq i s
  refine ⟨?_, ?_, ?_, ?_, r2in_free hfree h.waitMmu hint, ?_, ?_, ?_⟩
  · simp [exception, hashchkTrap, hi.dValid, h.valid2, herr, hi.mErr]
  · simp [l2stall, hi.dcStall, hi.dError, h.busy2]
  · simp [complete, h.oneCycle, h.waitDc, h.complete3]
  · simp [writeEnable, hi.dValid, h.valid2]
  · rw [h3]
    simp [hi.mDone, hi.mErr, mmuOpReq, h.valid2, hi.dError, h.state3]
  · rw [hc3]
    simp [hi.dValid, hi.mDone]
  · rw [hen]
    simp [hi.mDone, hi.mErr, hi.dError, h.stage1En]

/-- A cycle in which stage 1 does not hand on its request. -/
theorem Rest.bubble (h : Rest s) (hi : Quiet i) (hready : stage1Ready s = false) :
    Rest (step hasFpu s i) := by
  have hs := h.silent hi
  have hr2 : (step hasFpu s i).r2 = bubbleStage2 (dbgRead s i s.r2) := by
    show r2in s i = _
    rw [hs.r2, hready]
    rfl
  obtain ⟨-, hb, -, -, -⟩ := @dbgRead_eq s i s.r2
  refine ⟨?_, ?_, ?_, ?_, ?_, hs.state3, hs.complete3, hs.stage1En⟩
  · rw [hr2]
    exact hb.trans h.busy2
  all_goals rw [hr2]; rfl

/-- A cycle in which stage 1 holds no instruction. -/
theorem Rest.empty (h : Rest s) (hi : Quiet i) (hv : s.r1.req.valid = false) :
    Rest (step hasFpu s i) := by
  have hs := h.silent hi
  have hr2 : (step hasFpu s i).r2 = moveToStage2 s i (dbgRead s i s.r2) := by
    show r2in s i = _
    rw [hs.r2]
    simp [stage1Ready, hv]
  refine ⟨?_, ?_, ?_, ?_, ?_, hs.state3, hs.complete3, hs.stage1En⟩
  all_goals rw [hr2]; simp [moveToStage2, hv]

/-- Stage 1 after a cycle without a stall. -/
theorem Silent.r1 (h : Silent s i) : (step hasFpu s i).r1.req = r1Req hasFpu s i ∧
    (step hasFpu s i).r1.busy = r1Busy hasFpu s i ∧
    (step hasFpu s i).r1.issued = stage1Dcreq hasFpu s i := by
  refine ⟨?_, ?_, ?_⟩ <;> simp [step, r1in, h.exception, h.l2stall]

/-- Stage 1 computes the digest; `n` cycles are done. -/
structure Computing (hasFpu : Bool) (l : Execute1ToLoadstore1) (n : Nat) (s : State) : Prop
    extends Rest s where
  busy1 : s.r1.busy = true
  req : Carries l s.r1.req
  addr : 0 < n → s.r1.req.addr = hashEa l
  issued : s.r1.issued = false
  addr0 : s.r1.addr0 = sumAddr l
  dawrIntr : s.r1.req.dawrIntr = false
  flushing : s.flushing = false
  hash : HashAfter l.addr1 l.addr2 l.hashkey n s.hash

/-- The instruction is enabled and taken for an aligned one: it needs its digest. -/
structure Sends (l : Execute1ToLoadstore1) : Prop extends IsHash l where
  enable : l.hashEnable = true
  aligned : sumAligned l = true

theorem Carries.isHash {q : Request} (h : Carries l q) (hl : IsHash l) :
    (q.hashst || q.hashcmp) = true := by
  rw [h.hashst, h.hashcmp]
  obtain hop | hop := hl.op <;> simp [hop]

/-- The request in the cycle in which the instruction is presented. -/
theorem Idle.stage1Req (h : Idle s) : stage1Req hasFpu s i = reqIn hasFpu i.lIn s.r1.addr0 := by
  rw [stage1Req_of_not_busy h.busy1, h.flushing]
  simp [reqIn]

/-- A hash computation is started. -/
theorem Idle.start (h : Idle s) (hi : Quiet i) (hl : Sends l) (hp : i.lIn = l) :
    Computing hasFpu l 0 (step hasFpu s i) ∧ (dOut hasFpu s i).valid = false := by
  have hs := h.silent hi
  have hreq : Loadstore1.stage1Req hasFpu s i = reqIn hasFpu l s.r1.addr0 := by
    rw [h.stage1Req, hp]
  have hc : Carries l (reqIn hasFpu l s.r1.addr0) := hl.toIsHash.carries _
  have hissue : issue s i = true := by
    rw [@issue_of_not_busy hasFpu s i h.busy1, hreq, hc.dcReq, hl.enable, hl.aligned, hp, hl.valid]
    rfl
  have hhash : hashIssue hasFpu s i = true := by
    unfold hashIssue
    rw [hissue, hreq, hc.isHash hl.toIsHash]
    rfl
  have hdcreq : stage1Dcreq hasFpu s i = false := by
    simp [stage1Dcreq, hhash, h.done]
  have hr1req : r1Req hasFpu s i = reqIn hasFpu l s.r1.addr0 := by
    unfold r1Req
    simp [hhash, h.busy1, h.done, hreq]
  obtain ⟨hq, hb, hiss⟩ := @Silent.r1 hasFpu s i hs
  have hq' : (r1in hasFpu s i).req = r1Req hasFpu s i := hq
  constructor
  · refine ⟨h.toRest.empty hi h.valid1, ?_, ?_, by omega, ?_, ?_, ?_, ?_, ?_⟩
    · rw [hb]
      simp [r1Busy, hhash, h.done]
    · rw [hq, hr1req]
      exact hc
    · rw [hiss, hdcreq]
    · show (if !s.r1.busy && i.lIn.valid then (Loadstore1.stage1Req hasFpu s i).addr else _) = _
      rw [h.busy1, hp, hl.valid, hreq]
      exact hl.toIsHash.addrIn _
    · rw [hq, hr1req]
      rfl
    · simp only [step, hq', hr1req, h.flushing]
      rw [hc.alignIntr, hl.aligned]
      simp [reqIn]
    · show HashAfter _ _ _ 0 (hashRin s.hash (hashStart hasFpu s i) i.lIn.addr1 i.lIn.addr2
          i.lIn.hashkey)
      have hstart : hashStart hasFpu s i = true := by
        simp [hashStart, advance, hs.exception, hs.l2stall, hhash, h.busy1]
      unfold Loadstore1.hashRin
      rw [h.active, hstart, hp]
      exact hashAfter_load s.hash
  · simp [dOut, h.stage1En, hdcreq]

/-- What stage 1 does with its hash request. -/
theorem Computing.stage1 {n : Nat} (h : Computing hasFpu l n s) (hl : Sends l) :
    stage1Req hasFpu s i = s.r1.req ∧ hashIssue hasFpu s i = true ∧ issue s i = true := by
  have hdc : s.r1.req.dcReq = true := by
    rw [h.req.dcReq, hl.enable, hl.aligned]
    rfl
  have hreq : stage1Req hasFpu s i = s.r1.req := by
    simp [stage1Req, h.busy1, hdc, h.issued]
  have hissue : issue s i = true := by
    simp [issue, h.busy1, hdc, h.issued]
  refine ⟨hreq, ?_, hissue⟩
  unfold hashIssue
  rw [hissue, hreq, h.req.isHash hl.toIsHash]
  rfl

theorem Computing.not_ready {n : Nat} (h : Computing hasFpu l n s) (hl : Sends l) :
    stage1Ready s = false := by
  simp [stage1Ready, h.req.valid, h.issued, h.req.dcReq, hl.enable, hl.aligned]

/-- A cycle of the computation. -/
theorem Computing.step {n : Nat} (h : Computing hasFpu l n s) (hn : n < 8) (hi : Quiet i)
    (hl : Sends l) :
    Computing hasFpu l (n + 1) (step hasFpu s i) ∧ (dOut hasFpu s i).valid = false := by
  have hs := h.silent hi
  obtain ⟨hreq, hhash, hissue⟩ := @Computing.stage1 hasFpu l s i n h hl
  have hdone : s.hash.done = false := by
    rw [h.hash.done]
    exact decide_eq_false (by omega)
  have hdcreq : stage1Dcreq hasFpu s i = false := by
    simp [stage1Dcreq, hhash, hdone]
  have hr1req : r1Req hasFpu s i = { s.r1.req with addr := s.r1.req.hashAddr } := by
    unfold r1Req
    simp [hhash, h.busy1, hdone, hreq]
  obtain ⟨hq, hb, hiss⟩ := @Silent.r1 hasFpu s i hs
  have hq' : (r1in hasFpu s i).req = r1Req hasFpu s i := hq
  constructor
  · refine ⟨h.toRest.bubble hi (h.not_ready hl), ?_, ?_, ?_, ?_, ?_, ?_, ?_, ?_⟩
    · rw [hb]
      simp [r1Busy, hhash, hdone]
    · rw [hq, hr1req]
      exact { h.req with }
    · intro _
      rw [hq, hr1req]
      exact h.req.hashAddr
    · rw [hiss, hdcreq]
    · show (if !s.r1.busy && i.lIn.valid then _ else s.r1.addr0) = _
      rw [h.busy1]
      exact h.addr0
    · rw [hq, hr1req]
      exact h.dawrIntr
    · simp only [Loadstore1.step, hq', hr1req, h.flushing]
      rw [h.req.alignIntr, hl.aligned, h.dawrIntr]
      simp
    · exact h.hash.hashRin hn _ _ _ _
  · simp [dOut, h.stage1En, hdcreq]

/-- The request of stage 1 has been sent, and its digest is there. -/
structure Sent (hasFpu : Bool) (l : Execute1ToLoadstore1) (s : State) : Prop extends Rest s where
  busy1 : s.r1.busy = false
  req : Carries l s.r1.req
  data : s.r1.req.storeData = hashDigest l.addr1 l.addr2 l.hashkey
  issued : s.r1.issued = true
  addr0 : s.r1.addr0 = sumAddr l
  dreq : s.stage1Dreq = true

/-- The access to the doubleword at the effective address. -/
structure HashAccess (l : Execute1ToLoadstore1) (q : Loadstore1ToDcache) : Prop where
  addr : q.addr = hashEa l
  byteSel : q.byteSel = 0xff
  store : isStore q = (l.op == .store)

/-- The cycle in which the digest is done. -/
theorem Computing.send (h : Computing hasFpu l 8 s) (hi : Quiet i) (hl : Sends l) :
    Sent hasFpu l (Loadstore1.step hasFpu s i) ∧ (dOut hasFpu s i).valid = true ∧
      HashAccess l (dOut hasFpu s i) := by
  have hs := h.silent hi
  obtain ⟨hreq, hhash, hissue⟩ := @Computing.stage1 hasFpu l s i 8 h hl
  have hdone : s.hash.done = true := h.hash.done
  have hdcreq : stage1Dcreq hasFpu s i = true := by
    simp [stage1Dcreq, advance, hs.exception, hs.l2stall, hissue, hdone]
  have hr1req : r1Req hasFpu s i =
      { s.r1.req with addr := s.r1.req.hashAddr, storeData := hashResult s.hash } := by
    unfold r1Req
    simp [hhash, h.busy1, hdone, hreq]
  obtain ⟨hq, hb, hiss⟩ := @Silent.r1 hasFpu s i hs
  refine ⟨⟨h.toRest.bubble hi (h.not_ready hl), ?_, ?_, ?_, ?_, ?_, hdcreq⟩, ?_, ?_⟩
  · rw [hb]
    simp [r1Busy, hhash, hdone]
  · rw [hq, hr1req]
    exact { h.req with }
  · rw [hq, hr1req]
    exact h.hash.result
  · rw [hiss, hdcreq]
  · show (if !s.r1.busy && i.lIn.valid then _ else s.r1.addr0) = _
    rw [h.busy1]
    exact h.addr0
  · simp [dOut, h.stage1En, hdcreq]
  · obtain ⟨hdcbz, hflush, htouch, hsync, htlbie⟩ := h.req.plain
    refine ⟨?_, ?_, ?_⟩
    · simp [dOut, h.stage1En, hreq, h.addr]
    · simp [dOut, h.stage1En, hreq, h.req.byteSel hl.aligned]
    · simp only [isStore, dOut, h.stage1En, hreq, if_true, hdcbz, hflush, htouch, hsync, htlbie,
        h.req.load]
      obtain hop | hop := hl.op <;> simp [hop]

/-- With nothing presented and nothing in stage 1 no request is made. -/
theorem no_request (hb : s.r1.busy = false) (hv : i.lIn.valid = false)
    (hen : s.r3.stage1En = true) :
    (dOut hasFpu s i).valid = false := by
  simp [dOut, hen, stage1Dcreq, issue, hb, hv]

/-- Stage 2 waits for the answer of the dcache. -/
structure Waiting (l : Execute1ToLoadstore1) (s : State) : Prop where
  busy1 : s.r1.busy = false
  valid1 : s.r1.req.valid = false
  req : Carries l s.r2.req
  data : s.r2.req.storeData = digestOf l
  busy2 : s.r2.busy = (l.op == .load)
  waitDc : s.r2.waitDc = (l.op == .store)
  waitMmu : s.r2.waitMmu = false
  oneCycle : s.r2.oneCycle = false
  complete3 : s.r3.complete = false
  stage1En : s.r3.stage1En = true

theorem Sent.storeData (h : Sent hasFpu l s) (hl : Sends l) : storeData s = digestOf l := by
  have hlow : s.r1.addr0.extractLsb' 0 3 = 0 := by
    rw [h.addr0]
    simpa [sumAligned] using hl.aligned
  unfold Loadstore1.storeData digestOf inMemory
  congr 1
  funext k
  rw [h.data, hlow, h.req.brevMask]
  congr 1
  cases l.byteReverse <;> revert k <;> decide

/-- The request goes on to stage 2. -/
theorem Sent.step (h : Sent hasFpu l s) (hi : Quiet i) (hl : Sends l) (hv : i.lIn.valid = false) :
    Waiting l (Loadstore1.step hasFpu s i) ∧ (dOut hasFpu s i).data = digestOf l := by
  have hs := h.silent hi
  have hnone : Stage1Is .none (Loadstore1.step hasFpu s i).r1 :=
    stage1Is_idle h.busy1 hs.exception hs.l2stall hv
  have hr2 : (Loadstore1.step hasFpu s i).r2 = moveToStage2 s i (dbgRead s i s.r2) := by
    show r2in s i = _
    rw [hs.r2]
    simp [stage1Ready, h.issued]
  obtain ⟨hdcbz, hflush, htouch, hsync, htlbie⟩ := h.req.plain
  obtain ⟨hrd, hwr, hmmu, hdo⟩ := h.req.noSpr
  have hq := h.req
  have hdc : s.r1.req.dcReq = true := by rw [hq.dcReq, hl.enable, hl.aligned]; rfl
  have hal : s.r1.req.alignIntr = false := by rw [hq.alignIntr, hl.aligned]; simp
  constructor
  · refine ⟨?_, ?_, ?_, ?_, ?_, ?_, ?_, ?_, hs.complete3, hs.stage1En⟩
    · exact hnone.busy
    · exact hnone.valid
    · rw [hr2]
      exact { h.req with }
    · rw [hr2]
      exact h.storeData hl
    · rw [hr2]
      simp [moveToStage2, hq.valid, hal, hq.hashcmp, hmmu]
    · rw [hr2]
      simp only [moveToStage2, hq.valid, hdc, hq.loadSp, hq.incomplete, hq.hashcmp, htlbie]
      obtain hop | hop := hl.op <;> simp [hop]
    · rw [hr2]
      simp [moveToStage2, hmmu]
    · rw [hr2]
      simp [moveToStage2, hdc]
  · simp only [dOut, h.dreq, if_true]
    exact h.storeData hl

/-- The dcache stalls. -/
structure Stalls (i : Input) : Prop where
  dValid : i.dIn.valid = false
  dError : i.dIn.error = false
  dcStall : i.dcStall = true
  mDone : i.mIn.done = false
  mErr : i.mIn.err = false

/-- The dcache answers with a doubleword. -/
structure Answers (i : Input) (d : Dword) : Prop where
  dValid : i.dIn.valid = true
  data : i.dIn.data = d
  dError : i.dIn.error = false
  dcStall : i.dcStall = false
  mDone : i.mIn.done = false
  mErr : i.mIn.err = false

theorem Waiting.alignIntr (h : Waiting l s) (hl : Sends l) : s.r2.req.alignIntr = false := by
  rw [h.req.alignIntr, hl.aligned]
  simp

/-- A held-up stage 2 that waits for an answer keeps its request. -/
theorem r2in_waits (hstall : l2stall s i = true) (hint : stage2Interrupt s i = false)
    (hw : s.r2.waitMmu = false) (hcmp : s.r2.busy = true → s.r2.req.hashcmp = true)
    (hv : i.dIn.valid = false) (he : i.dIn.error = false) : r2in s i = dbgRead s i s.r2 := by
  have hfree : stage2Free s i = false := by simp [stage2Free, hstall]
  have hkeep : (s.r2.busy && !s.r2.waitMmu && (!s.r2.req.hashcmp || i.dIn.valid)) = false := by
    cases hb : s.r2.busy
    · rfl
    · simp [hcmp hb, hv]
  unfold r2in
  simp only [hfree, Bool.false_eq_true, if_false]
  unfold mmuDone endBusy endStage2
  rw [hkeep, hw]
  simp only [hint, he, Bool.false_and, Bool.false_eq_true, if_false]

/-- Stage 2 waits on. -/
theorem Waiting.stall (h : Waiting l s) (hl : Sends l) (hi : Stalls i) :
    Waiting l (Loadstore1.step hasFpu s i) ∧ exception s i = false ∧ complete s i = false ∧
      writeEnable s i = false := by
  have herr : errorIntr s i = false := by simp [errorIntr, hi.dError]
  have hal := h.alignIntr hl
  have hex : exception s i = false := by
    simp [exception, hashchkTrap, hi.dValid, hal, herr, hi.mErr]
  have hint : stage2Interrupt s i = false := by
    simp [stage2Interrupt, herr, hal, hi.mErr]
  have hstall : l2stall s i = true := by simp [l2stall, hi.dcStall]
  have hr2 : (Loadstore1.step hasFpu s i).r2 = dbgRead s i s.r2 := by
    refine r2in_waits hstall hint h.waitMmu (fun hb => ?_) hi.dValid hi.dError
    rw [h.req.hashcmp, ← h.busy2, hb]
  obtain ⟨hq, hb, hwd, hwm, hoc⟩ := @dbgRead_eq s i s.r2
  obtain ⟨-, hc3, hen, -⟩ := @r3in_eq i s
  obtain ⟨hrd, hwr, hmmu, hdo⟩ := h.req.noSpr
  refine ⟨⟨?_, ?_, ?_, ?_, ?_, ?_, ?_, ?_, ?_, ?_⟩, hex, ?_, ?_⟩
  · simp [Loadstore1.step, r1in, hex, hstall, h.busy1, hi.dError]
  · simp [Loadstore1.step, r1in, hex, hstall, h.valid1]
  · rw [hr2, hq]
    exact h.req
  · rw [hr2, hq]
    exact h.data
  · rw [hr2, hb]
    exact h.busy2
  · rw [hr2, hwd]
    exact h.waitDc
  · rw [hr2, hwm]
    exact h.waitMmu
  · rw [hr2, hoc]
    exact h.oneCycle
  · show (r3in s i).complete = false
    rw [hc3]
    simp [hi.dValid, hi.mDone]
  · show (r3in s i).stage1En = true
    rw [hen]
    simp [hi.mDone, hi.mErr, hi.dError, h.stage1En]
  · simp [complete, h.oneCycle, hi.dValid, h.complete3]
  · simp [writeEnable, hi.dValid, hrd, hdo, h.req.loadSp]

/-- The answer to a `hashst`. -/
theorem Waiting.stored {d : Dword} (h : Waiting l s) (hl : Sends l) (hi : Answers i d)
    (hop : l.op = .store) :
    exception s i = false ∧ complete s i = true ∧ writeEnable s i = false := by
  have herr : errorIntr s i = false := by simp [errorIntr, hi.dError]
  refine ⟨?_, ?_, ?_⟩
  · simp [exception, hashchkTrap, h.req.hashcmp, hop, h.alignIntr hl, herr, hi.mErr]
  · simp [complete, h.waitDc, hop, hi.dValid]
  · simp [writeEnable, hi.dValid, h.req.incomplete, h.req.load, hop, h.req.noUpdate]

/-- The answer to a `hashchk` with another doubleword. -/
theorem Waiting.trapped {d : Dword} (h : Waiting l s) (hl : Sends l) (hi : Answers i d)
    (hop : l.op = .load) (hd : d ≠ digestOf l) :
    exception s i = true ∧ (r3in s i).intrVec = 0x700 ∧ writeEnable s i = false := by
  have htrap : hashchkTrap s i = true := by
    simp [hashchkTrap, hi.dValid, h.req.hashcmp, hop, hi.data, h.data, hd]
  have hex : exception s i = true := by simp [exception, htrap]
  refine ⟨hex, ?_, ?_⟩
  · unfold r3in
    simp only [hex, if_true]
    unfold raise
    rw [h.alignIntr hl, htrap]
    rfl
  · simp [writeEnable, hi.dValid, h.req.incomplete, h.req.hashcmp, hop, h.req.noUpdate]

/-- A `hashchk` has passed and completes. -/
structure Passed (l : Execute1ToLoadstore1) (s : State) : Prop where
  req : Carries l s.r2.req
  complete3 : s.r3.complete = true

/-- The answer to a `hashchk` with the digest. -/
theorem Waiting.passed (h : Waiting l s) (hl : Sends l) (hi : Answers i (digestOf l))
    (hop : l.op = .load) :
    Passed l (Loadstore1.step hasFpu s i) ∧ exception s i = false ∧ complete s i = false ∧
      writeEnable s i = false := by
  have herr : errorIntr s i = false := by simp [errorIntr, hi.dError]
  have hal := h.alignIntr hl
  have htrap : hashchkTrap s i = false := by
    simp [hashchkTrap, hi.data, h.data]
  have hbusy : s.r2.busy = true := by
    rw [h.busy2, hop]
    rfl
  have hint : stage2Interrupt s i = false := by
    simp [stage2Interrupt, herr, hal, hi.mErr]
  have hr2 : (Loadstore1.step hasFpu s i).r2.req = s.r2.req := by
    have hfree : stage2Free s i = false := by simp [stage2Free, l2stall, hbusy]
    show (r2in s i).req = _
    unfold r2in
    simp only [hfree, Bool.false_eq_true, if_false]
    unfold endStage2 mmuDone
    simp only [hint, h.waitMmu, hi.dError, Bool.false_and, Bool.false_eq_true, if_false]
    rw [(@endBusy_eq s i (dbgRead s i s.r2)).1, dbgRead_eq.1]
  obtain ⟨-, hc3, -, -⟩ := @r3in_eq i s
  refine ⟨⟨?_, ?_⟩, ?_, ?_, ?_⟩
  · rw [hr2]
    exact h.req
  · show (r3in s i).complete = true
    rw [hc3, htrap, hi.dValid, h.req.hashcmp, hop]
    rfl
  · simp [exception, htrap, hal, herr, hi.mErr]
  · simp [complete, h.oneCycle, h.waitDc, hop, h.complete3]
  · simp [writeEnable, hi.dValid, h.req.incomplete, h.req.hashcmp, hop, h.req.noUpdate]

theorem Passed.completes (h : Passed l s) (hl : Sends l) (hi : Quiet i) :
    exception s i = false ∧ complete s i = true ∧ writeEnable s i = false := by
  have herr : errorIntr s i = false := by simp [errorIntr, hi.dError]
  have hal : s.r2.req.alignIntr = false := by
    rw [h.req.alignIntr, hl.aligned]
    simp
  obtain ⟨hrd, hwr, hmmu, hdo⟩ := h.req.noSpr
  refine ⟨?_, ?_, ?_⟩
  · simp [exception, hashchkTrap, hi.dValid, hal, herr, hi.mErr]
  · simp [complete, h.complete3]
  · simp [writeEnable, hi.dValid, hrd, hdo, h.req.loadSp]

/-- A request without an access is in stage 1. -/
structure Declined (l : Execute1ToLoadstore1) (s : State) : Prop extends Rest s where
  busy1 : s.r1.busy = false
  req : Carries l s.r1.req
  dcReq : s.r1.req.dcReq = false

/-- No access is made for an instruction that is disabled or taken for a misaligned one. -/
theorem Idle.decline (h : Idle s) (hi : Quiet i) (hl : IsHash l)
    (hno : (l.hashEnable && sumAligned l) = false) (hp : i.lIn = l) :
    Declined l (Loadstore1.step hasFpu s i) ∧ (dOut hasFpu s i).valid = false := by
  have hs := h.silent hi
  have hreq : Loadstore1.stage1Req hasFpu s i = reqIn hasFpu l s.r1.addr0 := by
    rw [h.stage1Req, hp]
  have hc : Carries l (reqIn hasFpu l s.r1.addr0) := hl.carries _
  have hdc : (reqIn hasFpu l s.r1.addr0).dcReq = false := hc.dcReq.trans hno
  have hissue : issue s i = false := by
    rw [@issue_of_not_busy hasFpu s i h.busy1, hreq, hdc, Bool.and_false]
  have hhash : hashIssue hasFpu s i = false := by simp [hashIssue, hissue]
  have hr1req : r1Req hasFpu s i = reqIn hasFpu l s.r1.addr0 := by
    unfold r1Req
    simp [hhash, hreq]
  obtain ⟨hq, hb, -⟩ := @Silent.r1 hasFpu s i hs
  obtain ⟨hrd, hwr, hmmu, hdo⟩ := hc.noSpr
  refine ⟨⟨h.toRest.empty hi h.valid1, ?_, ?_, ?_⟩, ?_⟩
  · rw [hb]
    simp [r1Busy, hhash, hissue, hreq, hmmu]
  · rw [hq, hr1req]
    exact hc
  · rw [hq, hr1req]
    exact hdc
  · simp [dOut, h.stage1En, stage1Dcreq, hissue]

/-- A request without an access is in stage 2. -/
structure Turned (l : Execute1ToLoadstore1) (s : State) : Prop where
  busy1 : s.r1.busy = false
  req : Carries l s.r2.req
  busy2 : s.r2.busy = (l.hashEnable || l.op == .load)
  waitDc : s.r2.waitDc = false
  waitMmu : s.r2.waitMmu = false
  oneCycle : s.r2.oneCycle = !(l.hashEnable || l.op == .load)
  complete3 : s.r3.complete = false
  stage1En : s.r3.stage1En = true

theorem Declined.step (h : Declined l s) (hi : Quiet i)
    (hno : (l.hashEnable && sumAligned l) = false)
    (hv : i.lIn.valid = false) : Turned l (Loadstore1.step hasFpu s i) := by
  have hs := h.silent hi
  have hnone : Stage1Is .none (Loadstore1.step hasFpu s i).r1 :=
    stage1Is_idle h.busy1 hs.exception hs.l2stall hv
  have hr2 : (Loadstore1.step hasFpu s i).r2 = moveToStage2 s i (dbgRead s i s.r2) := by
    show r2in s i = _
    rw [hs.r2]
    simp [stage1Ready, h.dcReq]
  obtain ⟨hrd, hwr, hmmu, hdo⟩ := h.req.noSpr
  have hwaits : (s.r1.req.alignIntr || s.r1.req.hashcmp) = (l.hashEnable || l.op == .load) := by
    rw [h.req.alignIntr, h.req.hashcmp]
    cases he : l.hashEnable
    · rfl
    · rw [he, Bool.true_and] at hno
      rw [hno]
      rfl
  refine ⟨hnone.busy, ?_, ?_, ?_, ?_, ?_, hs.complete3, hs.stage1En⟩
  · rw [hr2]
    exact { h.req with }
  · rw [hr2]
    simp [moveToStage2, h.req.valid, hwaits, hmmu]
  · rw [hr2]
    simp [moveToStage2, h.dcReq]
  · rw [hr2]
    simp [moveToStage2, hmmu]
  · rw [hr2]
    simp [moveToStage2, h.req.valid, hwaits, h.dcReq, hmmu]

/-- The alignment interrupt. -/
theorem Turned.refused (h : Turned l s) (hi : Quiet i) (he : l.hashEnable = true)
    (ha : sumAligned l = false) :
    exception s i = true ∧ (r3in s i).intrVec = 0x600 ∧ writeEnable s i = false := by
  have hal : s.r2.req.alignIntr = true := by
    rw [h.req.alignIntr, he, ha]
    rfl
  have hex : exception s i = true := by simp [exception, h.req.valid, hal]
  obtain ⟨hrd, hwr, hmmu, hdo⟩ := h.req.noSpr
  refine ⟨hex, ?_, ?_⟩
  · unfold r3in
    simp only [hex, if_true]
    unfold raise
    rw [hal]
    rfl
  · simp [writeEnable, hi.dValid, hrd, hdo, h.req.loadSp]

/-- A disabled `hashst` or `hashchk` is not refused. -/
theorem Turned.exception_of_disabled (h : Turned l s) (hi : Quiet i) (he : l.hashEnable = false) :
    exception s i = false ∧ writeEnable s i = false := by
  have hal : s.r2.req.alignIntr = false := by
    rw [h.req.alignIntr, he]
    rfl
  have herr : errorIntr s i = false := by simp [errorIntr, hi.dError]
  obtain ⟨hrd, hwr, hmmu, hdo⟩ := h.req.noSpr
  constructor
  · simp [exception, hashchkTrap, hi.dValid, hal, herr, hi.mErr]
  · simp [writeEnable, hi.dValid, hrd, hdo, h.req.loadSp]

/-- A disabled `hashchk` waits for an answer, although it has made no access. -/
theorem Turned.stuck (h : Turned l s) (hi : Quiet i) (he : l.hashEnable = false)
    (hop : l.op = .load) :
    Turned l (Loadstore1.step hasFpu s i) ∧ complete s i = false := by
  have hbusy : s.r2.busy = true := by
    rw [h.busy2, hop]
    simp
  have hex := (h.exception_of_disabled hi he).1
  have hint : stage2Interrupt s i = false := by
    have hal : s.r2.req.alignIntr = false := by
      rw [h.req.alignIntr, he]
      rfl
    simp [stage2Interrupt, hal, errorIntr, hi.dError, hi.mErr]
  have hstall : l2stall s i = true := by simp [l2stall, hbusy]
  have hcmp : s.r2.req.hashcmp = true := by
    rw [h.req.hashcmp, hop]
    rfl
  have hr2 : (Loadstore1.step hasFpu s i).r2 = dbgRead s i s.r2 :=
    r2in_waits hstall hint h.waitMmu (fun _ => hcmp) hi.dValid hi.dError
  obtain ⟨hq, hb, hwd, hwm, hoc⟩ := @dbgRead_eq s i s.r2
  obtain ⟨-, hc3, hen, -⟩ := @r3in_eq i s
  refine ⟨⟨?_, ?_, ?_, ?_, ?_, ?_, ?_, ?_⟩, ?_⟩
  · simp [Loadstore1.step, r1in, hex, hstall, h.busy1, hi.dError]
  · rw [hr2, hq]
    exact h.req
  · rw [hr2, hb]
    exact h.busy2
  · rw [hr2, hwd]
    exact h.waitDc
  · rw [hr2, hwm]
    exact h.waitMmu
  · rw [hr2, hoc]
    exact h.oneCycle
  · show (r3in s i).complete = false
    rw [hc3]
    simp [hi.dValid, hi.mDone]
  · show (r3in s i).stage1En = true
    rw [hen]
    simp [hi.mDone, hi.mErr, hi.dError, h.stage1En]
  · simp [complete, h.oneCycle, hop, hi.dValid, h.complete3]

end

end Microwatt.Loadstore1
