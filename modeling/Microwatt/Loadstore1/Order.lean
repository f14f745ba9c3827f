import Microwatt.Lib.Run
import Microwatt.Loadstore1.Step

/-!
# Instructions in the load/store unit

The unit between execute1, the dcache and the MMU.  Of the dcache only its two stages matter: a
request is taken into `r0`, moves on when the dcache is neither stalled nor held, and is then
answered with `valid` or `error`, after any number of stalls; the request behind an error is
dropped.  The MMU answers every request, some time later.

Beside the machine the instructions that the unit has taken are kept in a list, in program order.
A completion takes the first one off the list, and an interrupt empties it.
-/

namespace Microwatt.Loadstore1

open Execute1 (InsnOp)

/-- A stage of the dcache: empty, a request, or a request that is sent again after a walk. -/
inductive Slot where
  | empty
  | first
  | again
deriving DecidableEq

/-- The requests of the unit in the two stages of the dcache. -/
structure Dc where
  r0 : Slot
  r1 : Slot
deriving DecidableEq

/-- The unit, what its neighbours owe it, and the instructions that it owes an end. -/
structure Sys where
  s : State
  dc : Dc
  /-- The MMU has a request to answer. -/
  mmu : Bool
  q : List Execute1ToLoadstore1
  /-- The number of instructions that have left the list. -/
  left : Nat

section

variable (hasFpu : Bool) (x : Sys) (i : Input)

/-- The requests in the dcache after the edge.  A TLB probe has no answer. -/
def Dc.step : Dc where
  r0 :=
    if i.dcStall || i.lIn.e2stall then x.dc.r0
    else if (dOut hasFpu x.s i).valid && !(dOut hasFpu x.s i).tlbProbe then
      if x.s.r3.stage1En then .first else .again
    else .empty
  r1 :=
    if i.dcStall then x.dc.r1
    else if i.lIn.e2stall || i.dIn.error then .empty
    else x.dc.r0

/-- The instructions that leave the list at the edge. -/
def leaving : Nat :=
  if exception x.s i then x.q.length
  else if complete x.s i then 1
  else 0

def Sys.step : Sys where
  s := Loadstore1.step hasFpu x.s i
  dc := Dc.step hasFpu x i
  mmu := (x.mmu && !(i.mIn.done || i.mIn.err)) || (mOut x.s i).valid || (mOut x.s i).mtspr
  q :=
    if exception x.s i then []
    else x.q.drop (leaving x i) ++ (if i.lIn.valid then [i.lIn] else [])
  left := x.left + leaving x i

/-! ## The neighbours -/

/-- What the decoder gives the unit: hash instructions and those with a reservation are loads and
stores, and neither update forms nor single-precision ones; and no single-precision access is a
quadword. -/
structure WellFormed (l : Execute1ToLoadstore1) : Prop where
  plain : l.hash = true ∨ l.reserve = true →
    (l.op = .load ∨ l.op = .store) ∧ l.update = false ∧ l.is32bit = false
  single : l.is32bit = true → l.rpt = true → l.update = true

/-- What execute1, the dcache and the MMU keep to in a cycle. -/
structure Contract : Prop where
  /-- Each request is answered, in order, after any stalls. -/
  answers : x.dc.r1 ≠ .empty →
    (i.dIn.valid = true ∧ i.dIn.error = false ∧ i.dcStall = false) ∨
    (i.dIn.valid = false ∧ i.dIn.error = true ∧ i.dcStall = false) ∨
    (i.dIn.valid = false ∧ i.dIn.error = false ∧ i.dcStall = true)
  /-- Nothing else is, and without a request there are stalls only for the MMU. -/
  silent : x.dc.r1 = .empty → i.dIn.valid = false ∧ i.dIn.error = false ∧
    (i.dcStall = true → x.s.r2.waitMmu = true ∧ i.mIn.done = false ∧ i.mIn.err = false)
  mmu : i.mIn.done = true ∨ i.mIn.err = true → x.mmu = true
  mmuOnce : i.mIn.done = true → i.mIn.err = false
  notBusy : i.lIn.valid = true → busy x.s i = false
  insn : i.lIn.valid = true → WellFormed i.lIn
  /-- The FPU stalls the second stages only when the unit has nothing to do. -/
  e2stall : i.lIn.e2stall = true →
    i.lIn.valid = false ∧ x.s.r1.req.valid = false ∧ x.s.r2.req.valid = false

/-! ## What is asked of a cycle -/

/-- Stage 1 holds a hash request that is yet to be sent, or to be sent again. -/
def hashWaits : Bool :=
  x.s.r1.req.valid && x.s.r1.req.dcReq && (x.s.r1.req.hashst || x.s.r1.req.hashcmp) &&
    (!x.s.r1.issued || i.dIn.error)

/-- The cases that the unit gets wrong do not arise. -/
structure Sound : Prop where
  /-- No `tlbie`: the unit takes the MMU's answer to it for that of a walk. -/
  noTlbie : i.lIn.valid = true → i.lIn.op ≠ .tlbie
  /-- No `hashchk` that has been made a no-op gets to stage 2, which would wait for its data. -/
  hashOn : exception x.s i = false → l2stall x.s i = false → x.s.r1.req.valid = true →
    x.s.r1.req.hashcmp = true → x.s.r1.req.dcReq = true ∨ x.s.r1.req.alignIntr = true
  /-- When a `hashchk` is answered no request is on its way behind it. -/
  hashAlone : i.dIn.valid = true → x.s.r2.req.hashcmp = true → x.s.r1.issued = false
  /-- The hash is not finished while stage 1 is held up, unless an interrupt takes it away. -/
  hashHeard : exception x.s i = false → l2stall x.s i = true → hashWaits x i = true →
    x.s.hash.active = true

/-- The request belongs to the instruction. -/
def Owns (q : Request) (l : Execute1ToLoadstore1) : Prop :=
  q.instrTag = l.instrTag ∧ q.writeReg = l.writeReg

/-- The request that goes to the dcache. -/
def sent : Request :=
  if x.s.r3.stage1En then stage1Req hasFpu x.s i else x.s.r2.req

/-- Instructions end one at a time and in order. -/
structure InOrder : Prop where
  /-- A completion is that of the oldest instruction, and carries its tag and register. -/
  complete : (lOut x.s i).valid = true → ∃ l rest, x.q = l :: rest ∧
    (lOut x.s i).instrTag = l.instrTag ∧ (lOut x.s i).writeReg = l.writeReg
  /-- An interrupt is that of the oldest instruction, which does not complete. -/
  interrupt : exception x.s i = true → (lOut x.s i).valid = false ∧ i.lIn.valid = false ∧
    ∃ l rest, x.q = l :: rest ∧ Owns x.s.r2.req l
  /-- Its output comes in the next cycle. -/
  output : (lOut (Loadstore1.step hasFpu x.s i) i).interrupt = exception x.s i
  /-- Only an instruction that completes writes a register. -/
  write : (lOut x.s i).writeEnable = true → (lOut x.s i).valid = true
  /-- Requests are those of instructions in the unit, and none is made with an interrupt. -/
  dcache : (dOut hasFpu x.s i).valid = true → exception x.s i = false ∧
    ∃ l, (l ∈ x.q ∨ i.lIn.valid = true ∧ l = i.lIn) ∧ Owns (sent hasFpu x i) l
  mmu : (mOut x.s i).valid = true ∨ (mOut x.s i).mtspr = true → exception x.s i = false ∧
    ∃ l, l ∈ x.q ∧ Owns x.s.r2.req l

end

/-! ## Flags of a request -/

/-- The part of a request that decides how it goes through the stages, less `valid`. -/
structure Flags where
  dcReq : Bool
  load : Bool
  store : Bool
  flush : Bool
  touch : Bool
  tlbie : Bool
  hashst : Bool
  hashcmp : Bool
  readSpr : Bool
  mmuOp : Bool
  doUpdate : Bool
  loadSp : Bool
  update : Bool
  alignIntr : Bool
  incomplete : Bool
  instrTag : Execute1.InstrTag
  writeReg : BitVec 6

def Request.flags (q : Request) : Flags where
  dcReq := q.dcReq
  load := q.load
  store := q.store
  flush := q.flush
  touch := q.touch
  tlbie := q.tlbie
  hashst := q.hashst
  hashcmp := q.hashcmp
  readSpr := q.readSpr
  mmuOp := q.mmuOp
  doUpdate := q.doUpdate
  loadSp := q.loadSp
  update := q.update
  alignIntr := q.alignIntr
  incomplete := q.incomplete
  instrTag := q.instrTag
  writeReg := q.writeReg

/-- The part of an instruction that another part follows: the first doubleword of two, or the
access of a single-precision load, before its conversion. -/
def Flags.nonfinal (f : Flags) : Bool :=
  f.dcReq && (f.incomplete || f.loadSp)

/-- How the flags of a request go together. -/
structure Flags.Ok (f : Flags) : Prop where
  align : f.alignIntr = true →
    f.dcReq = false ∧ f.mmuOp = false ∧ f.readSpr = false ∧ f.doUpdate = false ∧ f.loadSp = false
  op : f.mmuOp = true → f.dcReq = false ∧ f.hashst = false ∧ f.hashcmp = false ∧
    f.loadSp = false ∧ f.readSpr = false ∧ f.doUpdate = false ∧ f.incomplete = false
  hash : f.hashst = true ∨ f.hashcmp = true →
    f.incomplete = false ∧ f.loadSp = false ∧ f.readSpr = false ∧ f.doUpdate = false
  plain : f.readSpr = true ∨ f.doUpdate = true → f.dcReq = false
  store : f.store = true → f.loadSp = false ∧ f.hashcmp = false
  noTlbie : f.tlbie = false

/-- An access that is not misaligned stays within a doubleword. -/
theorem xferDataSel_aligned (length : BitVec 4) (a : BitVec 3)
    (h : (length.extractLsb' 0 3 - 1) &&& a = 0) : (xferDataSel length a).extractLsb' 8 8 = 0 := by
  revert length a
  decide

section ReqIn

variable {hasFpu : Bool} {l : Execute1ToLoadstore1} {addr0 : BitVec 64} (h : WellFormed l)

include h

theorem not_twoDwords_of_hash (hh : l.hash = true) (hd : dcReqIn l addr0 = true) :
    (longSel l addr0).extractLsb' 8 8 = 0 := by
  obtain ⟨hal, hnop⟩ : alignIntrIn l addr0 = false ∧ hashNop l = false := by
    simp only [dcReqIn, Bool.and_eq_true, Bool.not_eq_true'] at hd
    exact ⟨hd.1.2, hd.2⟩
  have hen : l.hashEnable = true := by
    rcases (h.plain (Or.inl hh)).1 with hop | hop <;> simpa [hashNop, hop] using hnop
  have hm : misaligned l addr0 = false := by
    simp only [alignIntrIn, hh, hen, Bool.or_eq_false_iff] at hal
    simpa using hal.1
  simp only [misaligned, Bool.or_eq_false_iff, bne_eq_false_iff_eq] at hm
  exact xferDataSel_aligned _ _ hm.1

/-- The accesses that can be refused for their alignment. -/
theorem of_alignIntr (ha : alignIntrIn l addr0 = true) :
    (l.op = .load ∨ l.op = .store) ∧ l.update = false ∧ l.is32bit = false := by
  simp only [alignIntrIn, isQuad, Bool.or_eq_true, Bool.and_eq_true, beq_iff_eq,
    Bool.not_eq_true'] at ha
  rcases ha with ⟨hr | ⟨hh, -⟩, -⟩ | ⟨⟨⟨⟨⟨hrpt, hu⟩, -⟩, hop⟩, -⟩, -⟩
  · exact h.plain (Or.inr hr)
  · exact h.plain (Or.inl hh)
  · refine ⟨Or.inl hop, hu, ?_⟩
    by_contra hs
    have := h.single (by simpa using hs) hrpt
    rw [hu] at this
    cases this

/-- The request of a well-formed instruction, made a no-op or not. -/
theorem reqIn_ok (ht : l.op ≠ .tlbie) (go : Bool) :
    ({ reqIn hasFpu l addr0 with dcReq := dcReqIn l addr0 && go } : Request).flags.Ok := by
  have htw := @not_twoDwords_of_hash l addr0 h
  have hal := @of_alignIntr l addr0 h
  have hpl := h.plain
  constructor
  · simp only [Request.flags, reqIn]
    intro ha
    obtain ⟨hop, hu, hs⟩ := hal ha
    have hd : dcReqIn l addr0 = false := by simp [dcReqIn, ha]
    rcases hop with hop | hop <;> simp [hd, hop, hu, hs, doUpdateIn]
  · simp only [Request.flags, reqIn]
    intro hm
    have hop : l.op = .fetchFailed ∨ l.op = .mtspr := by
      simp only [Bool.or_eq_true, Bool.and_eq_true, beq_iff_eq] at hm
      tauto
    rcases hop with hop | hop <;> simp [dcReqIn, loadIn, doUpdateIn, hop]
  · simp only [Request.flags, reqIn]
    intro hh
    have hhash : l.hash = true := by
      simp only [Bool.and_eq_true] at hh
      tauto
    obtain ⟨hop, hu, hs⟩ := hpl (Or.inl hhash)
    have hinc : (dcReqIn l addr0 && (longSel l addr0).extractLsb' 8 8 != 0) = false := by
      cases hd : dcReqIn l addr0
      · rfl
      · simp [htw hhash hd]
    refine ⟨hinc, ?_, ?_, ?_⟩
    · simp [hs]
    · rcases hop with hop | hop <;> simp [hop]
    · simp [doUpdateIn, hu]
  · simp only [Request.flags, reqIn]
    rintro (hr | hu)
    · simp [dcReqIn, loadIn, beq_iff_eq.mp hr]
    · have hop : l.op = .load := by
        simp only [doUpdateIn, Bool.and_eq_true, beq_iff_eq] at hu
        exact hu.1.1
      simp [dcReqIn, loadIn, hu, hop]
  · simp only [Request.flags, reqIn, beq_iff_eq]
    intro hop
    simp [hop]
  · simp only [Request.flags, reqIn]
    simpa using ht

end ReqIn

/-! ## Stage 1 -/

/-- What stage 1 holds: nothing; the last part of an instruction; a part that has been issued and
that another part follows; a part that is yet to be issued; or a request for the MMU, which takes
stage 1 one more cycle. -/
inductive Kind where
  | none
  | final
  | more
  | wait
  | op
deriving DecidableEq

structure Stage1Is (k : Kind) (r : RegStage1) : Prop where
  valid : r.req.valid = (k != .none)
  busy : r.busy = (k == .more || k == .wait || k == .op)
  dcReq : (k = .none ∨ k = .op → r.req.dcReq = false) ∧ (k = .more ∨ k = .wait → r.req.dcReq = true)
  issued : r.issued = (k == .more || (k == .final && r.req.dcReq))
  nonfinal : (k = .final → r.req.flags.nonfinal = false) ∧ (k = .more → r.req.flags.nonfinal = true)
  mmuOp : k ≠ .none → r.req.mmuOp = (k == .op)
  ok : k ≠ .none → r.req.flags.Ok
  /-- The watchpoint is only looked at on the way to stage 2. -/
  dawr : k ≠ .none → r.req.dawrIntr = false

section Stage1

variable {hasFpu : Bool} {s : State} {i : Input} {k : Kind}

theorem l2stall_false_of_busy (h : busy s i = false) : l2stall s i = false ∧ s.r1.busy = false := by
  simp only [busy, Bool.or_eq_false_iff] at h
  simp [l2stall, h]

theorem r1Req_flags : (r1Req hasFpu s i).flags = (stage1Req hasFpu s i).flags ∧
    (r1Req hasFpu s i).valid = (stage1Req hasFpu s i).valid ∧
    (r1Req hasFpu s i).dawrIntr = (stage1Req hasFpu s i).dawrIntr := by
  unfold r1Req
  dsimp only
  split_ifs <;> exact ⟨rfl, rfl, rfl⟩

theorem stage1Is_exception (he : exception s i = true) : Stage1Is .none (r1in hasFpu s i) := by
  constructor <;> simp [r1in, he]

/-- In a stall stage 1 keeps its request; after an error it has to issue it again. -/
theorem stage1Is_stalled (h : Stage1Is k s.r1) (he : exception s i = false)
    (hl : l2stall s i = true) :
    (r1in hasFpu s i).req = s.r1.req ∧
    Stage1Is (if i.dIn.error && s.r1.issued then .wait else k) (r1in hasFpu s i) := by
  have hreq : (r1in hasFpu s i).req = s.r1.req := by simp [r1in, he, hl]
  have hbusy : (r1in hasFpu s i).busy = (s.r1.busy || (s.r1.issued && i.dIn.error)) := by
    simp [r1in, he, hl]
  have hiss : (r1in hasFpu s i).issued = (s.r1.issued && !i.dIn.error) := by
    simp [r1in, he, hl]
  refine ⟨hreq, ?_⟩
  rcases Bool.eq_false_or_eq_true (i.dIn.error && s.r1.issued) with hu | hu
  · have hk : k = .more ∨ (k = .final ∧ s.r1.req.dcReq = true) := by
      have := h.issued
      rw [(Bool.and_eq_true_iff.mp hu).2] at this
      simpa using this.symm
    have hne : k ≠ .none := by rcases hk with rfl | ⟨rfl, -⟩ <;> decide
    have hdc : s.r1.req.dcReq = true := by
      rcases hk with rfl | ⟨-, hd⟩
      · exact h.dcReq.2 (Or.inl rfl)
      · exact hd
    have hop : s.r1.req.mmuOp = false := by
      rw [h.mmuOp hne]
      rcases hk with rfl | ⟨rfl, -⟩ <;> rfl
    rw [Bool.and_eq_true] at hu
    simp only [hu, Bool.and_self, if_true]
    constructor
    · have hv : (k != .none) = true := by simpa using hne
      rw [hreq, h.valid, hv]
      rfl
    · simp [hbusy, hu]
    · simp [hreq, hdc]
    · simp [hiss, hu]
    · simp
    · intro _
      rw [hreq, hop]
      rfl
    · intro _
      rw [hreq]
      exact h.ok hne
    · intro _
      rw [hreq]
      exact h.dawr hne
  · simp only [hu, Bool.false_eq_true, if_false]
    have hiss' : (r1in hasFpu s i).issued = s.r1.issued := by
      rw [hiss]
      revert hu
      cases s.r1.issued <;> cases i.dIn.error <;> simp
    have hbusy' : (r1in hasFpu s i).busy = s.r1.busy := by
      rw [hbusy, Bool.and_comm, hu, Bool.or_false]
    constructor
    · rw [hreq]; exact h.valid
    · rw [hbusy']; exact h.busy
    · rw [hreq]; exact h.dcReq
    · rw [hreq, hiss']; exact h.issued
    · rw [hreq]; exact h.nonfinal
    · rw [hreq]; exact h.mmuOp
    · rw [hreq]; exact h.ok
    · rw [hreq]; exact h.dawr

/-- What stage 1 becomes when its request moves on. -/
theorem r1in_advance (he : exception s i = false) (hl : l2stall s i = false) :
    (r1in hasFpu s i).req.flags = (stage1Req hasFpu s i).flags ∧
    (r1in hasFpu s i).req.valid = (stage1Req hasFpu s i).valid ∧
    (r1in hasFpu s i).req.dawrIntr = (stage1Req hasFpu s i).dawrIntr ∧
    (r1in hasFpu s i).busy =
      (if hashIssue hasFpu s i then !s.hash.done
       else issue s i && ((stage1Req hasFpu s i).incomplete || (stage1Req hasFpu s i).loadSp) ||
        (stage1Req hasFpu s i).valid && (stage1Req hasFpu s i).mmuOp) ∧
    (r1in hasFpu s i).issued = (issue s i && !(hashIssue hasFpu s i && !s.hash.done)) := by
  obtain ⟨hf, hv, hw⟩ := @r1Req_flags hasFpu s i
  have hreq : (r1in hasFpu s i).req = r1Req hasFpu s i := by simp [r1in, he, hl]
  refine ⟨by rw [hreq, hf], by rw [hreq, hv], by rw [hreq, hw], ?_, ?_⟩
  · simp [r1in, he, hl, r1Busy]
  · simp [r1in, he, hl, stage1Dcreq, advance]

/-- Stage 1 becomes free. -/
theorem stage1Is_empty (he : exception s i = false) (hl : l2stall s i = false)
    (hi : issue s i = false) (hv : (stage1Req hasFpu s i).valid = false)
    (hd : (stage1Req hasFpu s i).dcReq = false) : Stage1Is .none (r1in hasFpu s i) := by
  obtain ⟨hf, hval, -, hbusy, hiss⟩ := @r1in_advance hasFpu s i he hl
  have hdc : (r1in hasFpu s i).req.dcReq = false := (congrArg Flags.dcReq hf).trans hd
  constructor
  · rw [hval, hv]; rfl
  · rw [hbusy, hv, hashIssue, hi]; rfl
  · simp [hdc]
  · rw [hiss, hi]; rfl
  · simp
  · simp
  · simp
  · simp

/-- Stage 1 takes a part that has nothing to issue. -/
theorem stage1Is_plain (he : exception s i = false) (hl : l2stall s i = false)
    (hi : issue s i = false) (hv : (stage1Req hasFpu s i).valid = true)
    (hd : (stage1Req hasFpu s i).dcReq = false) (hok : (stage1Req hasFpu s i).flags.Ok)
    (hw : (stage1Req hasFpu s i).dawrIntr = false) :
    Stage1Is (if (stage1Req hasFpu s i).mmuOp then .op else .final) (r1in hasFpu s i) := by
  obtain ⟨hf, hval, hdw, hbusy, hiss⟩ := @r1in_advance hasFpu s i he hl
  have hdc : (r1in hasFpu s i).req.dcReq = false := (congrArg Flags.dcReq hf).trans hd
  have hop : (r1in hasFpu s i).req.mmuOp = (stage1Req hasFpu s i).mmuOp := congrArg Flags.mmuOp hf
  have hnf : (r1in hasFpu s i).req.flags.nonfinal = false := by
    change ((r1in hasFpu s i).req.dcReq && _) = false
    rw [hdc, Bool.false_and]
  have hok' : (r1in hasFpu s i).req.flags.Ok := by rw [hf]; exact hok
  cases hm : (stage1Req hasFpu s i).mmuOp
  · simp only [Bool.false_eq_true, if_false]
    constructor
    · rw [hval, hv]; rfl
    · rw [hbusy, hv, hashIssue, hi, hm]; rfl
    · simp
    · rw [hiss, hi, hdc]; rfl
    · simp [hnf]
    · intro _
      rw [hop, hm]
      rfl
    · exact fun _ => hok'
    · exact fun _ => hdw.trans hw
  · simp only [if_true]
    constructor
    · rw [hval, hv]; rfl
    · rw [hbusy, hv, hashIssue, hi, hm]; rfl
    · simp [hdc]
    · rw [hiss, hi]; rfl
    · simp
    · intro _
      rw [hop, hm]
      rfl
    · exact fun _ => hok'
    · exact fun _ => hdw.trans hw

/-- The kind of a request that stage 1 issues or tries to. -/
def issuedKind (f : Flags) (done : Bool) : Kind :=
  if (f.hashst || f.hashcmp) && !done then .wait
  else if f.nonfinal then .more
  else .final

/-- Stage 1 issues its request. -/
theorem stage1Is_issue (he : exception s i = false) (hl : l2stall s i = false)
    (hi : issue s i = true) (hv : (stage1Req hasFpu s i).valid = true)
    (hd : (stage1Req hasFpu s i).dcReq = true) (hok : (stage1Req hasFpu s i).flags.Ok)
    (hw : (stage1Req hasFpu s i).dawrIntr = false) :
    Stage1Is (issuedKind (stage1Req hasFpu s i).flags s.hash.done) (r1in hasFpu s i) := by
  obtain ⟨hf, hval, hdw, hbusy, hiss⟩ := @r1in_advance hasFpu s i he hl
  have hdc : (r1in hasFpu s i).req.dcReq = true := (congrArg Flags.dcReq hf).trans hd
  have hop : (stage1Req hasFpu s i).mmuOp = false := by
    by_contra hm
    have hm' : (stage1Req hasFpu s i).mmuOp = true := by simpa using hm
    have hno : (stage1Req hasFpu s i).dcReq = false := (hok.op hm').1
    rw [hd] at hno
    cases hno
  have hop' : (r1in hasFpu s i).req.mmuOp = false := (congrArg Flags.mmuOp hf).trans hop
  have hhash := hok.hash
  have hnf : (stage1Req hasFpu s i).flags.nonfinal =
      ((stage1Req hasFpu s i).incomplete || (stage1Req hasFpu s i).loadSp) := by
    change ((stage1Req hasFpu s i).dcReq && _) = _
    rw [hd, Bool.true_and]
    rfl
  have hne : issuedKind (stage1Req hasFpu s i).flags s.hash.done ≠ .none := by
    unfold issuedKind
    split_ifs <;> decide
  have hne' : issuedKind (stage1Req hasFpu s i).flags s.hash.done ≠ .op := by
    unfold issuedKind
    split_ifs <;> decide
  have hhi : hashIssue hasFpu s i =
      ((stage1Req hasFpu s i).flags.hashst || (stage1Req hasFpu s i).flags.hashcmp) := by
    rw [hashIssue, hi, Bool.true_and]
    rfl
  constructor
  · rw [hval, hv]
    simpa using hne
  · rw [hbusy, hhi, hi, hop, hv, Bool.true_and, ← hnf]
    unfold issuedKind
    cases hh : (stage1Req hasFpu s i).flags.hashst || (stage1Req hasFpu s i).flags.hashcmp
    · cases (stage1Req hasFpu s i).flags.nonfinal <;> simp
    · obtain ⟨hin, hsp, -, -⟩ := hhash (by simpa using hh)
      have hno : (stage1Req hasFpu s i).flags.nonfinal = false := by
        rw [Flags.nonfinal, hin, hsp]
        simp
      cases s.hash.done <;> simp [hno]
  · refine ⟨?_, fun _ => hdc⟩
    rintro (hk | hk)
    · exact absurd hk hne
    · exact absurd hk hne'
  · rw [hiss, hhi, hi, hdc]
    unfold issuedKind
    cases (stage1Req hasFpu s i).flags.hashst || (stage1Req hasFpu s i).flags.hashcmp <;>
      cases s.hash.done <;> cases (stage1Req hasFpu s i).flags.nonfinal <;> rfl
  · rw [hf]
    unfold issuedKind
    split_ifs with h1 h2 <;> simp_all
  · intro _
    rw [hop']
    simpa using hne'
  · intro _
    rw [hf]
    exact hok
  · exact fun _ => hdw.trans hw

/-- The request that execute1 presents. -/
theorem stage1Req_of_not_busy (hb : s.r1.busy = false) : stage1Req hasFpu s i =
    { reqIn hasFpu i.lIn s.r1.addr0 with dcReq := dcReqIn i.lIn s.r1.addr0 && !s.flushing } := by
  simp [stage1Req, hb]

theorem issue_of_not_busy (hb : s.r1.busy = false) :
    issue s i = (i.lIn.valid && (stage1Req hasFpu s i).dcReq) := by
  rw [stage1Req_of_not_busy hb]
  simp [issue, hb]

/-- Stage 1 is free, and nothing is presented. -/
theorem stage1Is_idle (hb : s.r1.busy = false) (he : exception s i = false)
    (hl : l2stall s i = false) (hv : i.lIn.valid = false) :
    Stage1Is .none (r1in hasFpu s i) := by
  have hreq := @stage1Req_of_not_busy hasFpu s i hb
  apply stage1Is_empty he hl
  · rw [@issue_of_not_busy hasFpu s i hb, hv, Bool.false_and]
  · rw [hreq]; exact hv
  · rw [hreq]
    simp [dcReqIn, hv]

/-- Stage 1 is free, and an instruction is presented. -/
theorem stage1Is_present (hb : s.r1.busy = false) (he : exception s i = false)
    (hl : l2stall s i = false) (hv : i.lIn.valid = true) (hw : WellFormed i.lIn)
    (ht : i.lIn.op ≠ .tlbie) :
    ∃ k, k ≠ .none ∧ Stage1Is k (r1in hasFpu s i) := by
  have hreq := @stage1Req_of_not_busy hasFpu s i hb
  have hok : (stage1Req hasFpu s i).flags.Ok := by
    rw [hreq]
    exact reqIn_ok hw ht _
  have hval : (stage1Req hasFpu s i).valid = true := by rw [hreq]; exact hv
  have hissue := @issue_of_not_busy hasFpu s i hb
  rw [hv, Bool.true_and] at hissue
  have hw : (stage1Req hasFpu s i).dawrIntr = false := by rw [hreq]; rfl
  cases hd : (stage1Req hasFpu s i).dcReq
  · refine ⟨_, ?_, stage1Is_plain he hl (hissue.trans hd) hval hd hok hw⟩
    split_ifs <;> decide
  · refine ⟨_, ?_, stage1Is_issue he hl (hissue.trans hd) hval hd hok hw⟩
    unfold issuedKind
    split_ifs <;> decide

/-- The next part of an instruction, of which one part has been issued. -/
theorem stage1Is_more (h : Stage1Is .more s.r1) (he : exception s i = false)
    (hl : l2stall s i = false) :
    (∃ k, k ≠ .none ∧ Stage1Is k (r1in hasFpu s i)) ∧
    (stage1Req hasFpu s i).instrTag = s.r1.req.instrTag ∧
    (stage1Req hasFpu s i).writeReg = s.r1.req.writeReg ∧
    (stage1Req hasFpu s i).alignIntr = s.r1.req.alignIntr ∧
    (stage1Req hasFpu s i).hashcmp = s.r1.req.hashcmp := by
  have hb : s.r1.busy = true := h.busy
  have hv : s.r1.req.valid = true := h.valid
  have hi : s.r1.issued = true := h.issued
  have hd : s.r1.req.dcReq = true := h.dcReq.2 (Or.inl rfl)
  have hok := h.ok (by decide)
  have hnf := h.nonfinal.2 rfl
  cases hin : s.r1.req.incomplete
  · -- the conversion of a single-precision load
    have hsp : s.r1.req.loadSp = true := by
      change (s.r1.req.dcReq && (s.r1.req.incomplete || s.r1.req.loadSp)) = true at hnf
      simpa [hd, hin] using hnf
    have hreq : stage1Req hasFpu s i = { s.r1.req with
        valid := s.r1.req.valid && s.r1.req.loadSp
        dcReq := false } := by
      simp [stage1Req, hb, hi, hin]
    have hissue : issue s i = false := by simp [issue, hb, hi, hin]
    refine ⟨⟨_, ?_, stage1Is_plain he hl hissue ?_ ?_ ?_ ?_⟩, ?_⟩
    · split_ifs <;> decide
    · rw [hreq, hv, hsp]; rfl
    · rw [hreq]
    · rw [hreq]
      exact {
        align := fun ha => ⟨rfl, (hok.align ha).2⟩
        op := fun ha => ⟨rfl, (hok.op ha).2⟩
        hash := hok.hash
        plain := fun _ => rfl
        store := hok.store
        noTlbie := hok.noTlbie }
    · rw [hreq]
      exact h.dawr (by decide)
    · rw [hreq]
      exact ⟨rfl, rfl, rfl, rfl⟩
  · -- the second doubleword
    have hreq : stage1Req hasFpu s i = secondDword s.r1.req := by
      simp [stage1Req, hb, hi, hin]
    have hissue : issue s i = true := by simp [issue, hb, hi, hin]
    refine ⟨⟨_, ?_, stage1Is_issue he hl hissue ?_ ?_ ?_ ?_⟩, ?_⟩
    · unfold issuedKind
      split_ifs <;> decide
    · rw [hreq]; exact hv
    · rw [hreq]; exact hd
    · rw [hreq]
      exact {
        align := hok.align
        op := fun ha =>
          ⟨(hok.op ha).1, (hok.op ha).2.1, (hok.op ha).2.2.1, (hok.op ha).2.2.2.1,
            (hok.op ha).2.2.2.2.1, (hok.op ha).2.2.2.2.2.1, rfl⟩
        hash := fun ha => ⟨rfl, (hok.hash ha).2⟩
        plain := hok.plain
        store := hok.store
        noTlbie := hok.noTlbie }
    · rw [hreq]
      exact h.dawr (by decide)
    · rw [hreq]
      exact ⟨rfl, rfl, rfl, rfl⟩

/-- A part that waits to be issued. -/
theorem stage1Is_wait (h : Stage1Is .wait s.r1) (he : exception s i = false)
    (hl : l2stall s i = false) :
    Stage1Is (issuedKind s.r1.req.flags s.hash.done) (r1in hasFpu s i) ∧
    stage1Req hasFpu s i = s.r1.req := by
  have hb : s.r1.busy = true := h.busy
  have hi : s.r1.issued = false := h.issued
  have hd : s.r1.req.dcReq = true := h.dcReq.2 (Or.inr rfl)
  have hreq : stage1Req hasFpu s i = s.r1.req := by simp [stage1Req, hb, hi, hd]
  have hissue : issue s i = true := by simp [issue, hb, hi, hd]
  have := @stage1Is_issue hasFpu s i he hl hissue (by rw [hreq]; exact h.valid)
    (by rw [hreq]; exact hd)
    (by rw [hreq]; exact h.ok (by decide)) (by rw [hreq]; exact h.dawr (by decide))
  rw [hreq] at this
  exact ⟨this, hreq⟩

/-- A request for the MMU leaves stage 1. -/
theorem stage1Is_op (h : Stage1Is .op s.r1) (he : exception s i = false)
    (hl : l2stall s i = false) : Stage1Is .none (r1in hasFpu s i) := by
  have hb : s.r1.busy = true := h.busy
  have hi : s.r1.issued = false := h.issued
  have hd : s.r1.req.dcReq = false := h.dcReq.1 (Or.inr rfl)
  have hop : s.r1.req.mmuOp = true := h.mmuOp (by decide)
  obtain ⟨-, -, -, hsp, -, -, hin⟩ := (h.ok (by decide)).op hop
  replace hsp : s.r1.req.loadSp = false := hsp
  replace hin : s.r1.req.incomplete = false := hin
  apply stage1Is_empty he hl
  · simp [issue, hb, hd, hin]
  · simp [stage1Req, hb, hd, hin, hsp]
  · simp [stage1Req, hb, hd, hin]

end Stage1

end Microwatt.Loadstore1
