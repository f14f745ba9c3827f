import Microwatt.Loadstore1.Order

/-!
# The second stage of the load/store unit

The phases of the request in stage 2: how the registers of stages 2 and 3 look in each of them, and
how one phase follows another.
-/

namespace Microwatt.Loadstore1

/-! ## Stage 2 after the edge -/

section Fields

variable {s : State} {i : Input} {v : RegStage2}

theorem dbgRead_eq : (dbgRead s i v).req = v.req ∧ (dbgRead s i v).busy = v.busy ∧
    (dbgRead s i v).waitDc = v.waitDc ∧ (dbgRead s i v).waitMmu = v.waitMmu ∧
    (dbgRead s i v).oneCycle = v.oneCycle := by
  unfold dbgRead
  split_ifs <;> exact ⟨rfl, rfl, rfl, rfl, rfl⟩

theorem mmuDone_eq : (mmuDone s i v).req.flags = v.req.flags ∧
    (mmuDone s i v).req.valid =
      (v.req.valid && !(s.r2.waitMmu && i.mIn.done && s.r2.req.mmuOp)) ∧
    (mmuDone s i v).busy = (v.busy && !(s.r2.waitMmu && i.mIn.done && s.r2.req.mmuOp)) ∧
    (mmuDone s i v).waitDc = v.waitDc ∧
    (mmuDone s i v).waitMmu = (v.waitMmu && !(s.r2.waitMmu && i.mIn.done)) ∧
    (mmuDone s i v).oneCycle = v.oneCycle := by
  unfold mmuDone
  split_ifs with h
  · refine ⟨rfl, ?_, ?_, rfl, ?_, rfl⟩ <;> simp [h]
  · refine ⟨rfl, ?_, ?_, rfl, ?_, rfl⟩ <;> simp [h]

theorem endBusy_eq : (endBusy s i v).req = v.req ∧
    (endBusy s i v).busy =
      (v.busy && !(s.r2.busy && !s.r2.waitMmu && (!s.r2.req.hashcmp || i.dIn.valid))) ∧
    (endBusy s i v).waitDc = v.waitDc ∧ (endBusy s i v).waitMmu = v.waitMmu ∧
    (endBusy s i v).oneCycle = v.oneCycle := by
  unfold endBusy
  split_ifs with h
  · refine ⟨rfl, ?_, rfl, rfl, rfl⟩
    simp [h]
  · refine ⟨rfl, ?_, rfl, rfl, rfl⟩
    simp [h]

theorem endStage2_eq : (endStage2 s i v).req.flags = v.req.flags ∧
    (endStage2 s i v).req.valid = (!stage2Interrupt s i && v.req.valid) ∧
    (endStage2 s i v).busy = (!stage2Interrupt s i && (i.dIn.error || v.busy)) ∧
    (endStage2 s i v).waitDc = (!stage2Interrupt s i && v.waitDc) ∧
    (endStage2 s i v).waitMmu = (!stage2Interrupt s i && (i.dIn.error || v.waitMmu)) ∧
    (endStage2 s i v).oneCycle = v.oneCycle := by
  unfold endStage2
  split_ifs with h h'
  · refine ⟨rfl, ?_, ?_, ?_, ?_, rfl⟩ <;> simp [h]
  · refine ⟨rfl, ?_, ?_, ?_, ?_, rfl⟩ <;> simp [h, h']
  · refine ⟨rfl, ?_, ?_, ?_, ?_, rfl⟩ <;> simp [h, h']

/-- Stage 2 is held up. -/
theorem r2in_kept (h : stage2Free s i = false) :
    (r2in s i).req.flags = s.r2.req.flags ∧
    (r2in s i).req.valid = (!stage2Interrupt s i &&
      (s.r2.req.valid && !(s.r2.waitMmu && i.mIn.done && s.r2.req.mmuOp))) ∧
    (r2in s i).busy = (!stage2Interrupt s i && (i.dIn.error ||
      (s.r2.busy && !(s.r2.waitMmu && i.mIn.done && s.r2.req.mmuOp) &&
        !(s.r2.busy && !s.r2.waitMmu && (!s.r2.req.hashcmp || i.dIn.valid))))) ∧
    (r2in s i).waitDc = (!stage2Interrupt s i && s.r2.waitDc) ∧
    (r2in s i).waitMmu = (!stage2Interrupt s i &&
      (i.dIn.error || (s.r2.waitMmu && !(s.r2.waitMmu && i.mIn.done)))) ∧
    (r2in s i).oneCycle = s.r2.oneCycle := by
  have hr : r2in s i = endStage2 s i (endBusy s i (mmuDone s i (dbgRead s i s.r2))) := by
    unfold r2in
    simp only [h, Bool.false_eq_true, if_false]
  obtain ⟨d1, d2, d3, d4, d5⟩ := @dbgRead_eq s i s.r2
  obtain ⟨m1, m2, m3, m4, m5, m6⟩ := @mmuDone_eq s i (dbgRead s i s.r2)
  obtain ⟨b1, b2, b3, b4, b5⟩ := @endBusy_eq s i (mmuDone s i (dbgRead s i s.r2))
  obtain ⟨e1, e2, e3, e4, e5, e6⟩ :=
    @endStage2_eq s i (endBusy s i (mmuDone s i (dbgRead s i s.r2)))
  rw [hr]
  refine ⟨?_, ?_, ?_, ?_, ?_, ?_⟩
  · rw [e1, b1, m1, d1]
  · rw [e2, b1, m2, d1]
  · rw [e3, b2, m3, d2]
  · rw [e4, b3, m4, d3]
  · rw [e5, b4, m5, d4]
  · rw [e6, b5, m6, d5]

theorem stage2Free_iff : stage2Free s i = true ↔
    i.dcStall = false ∧ i.dIn.error = false ∧ s.r2.busy = false ∧ i.lIn.e2stall = false := by
  simp [stage2Free, l2stall, and_assoc]

/-- Stage 2 is free and has nothing to finish: it takes the request of stage 1. -/
theorem r2in_free (h : stage2Free s i = true) (hw : s.r2.waitMmu = false)
    (hint : stage2Interrupt s i = false) :
    r2in s i = if stage1Ready s then moveToStage2 s i (dbgRead s i s.r2)
      else bubbleStage2 (dbgRead s i s.r2) := by
  obtain ⟨-, he, hb, -⟩ := stage2Free_iff.mp h
  unfold r2in
  simp only [h, if_true]
  unfold mmuDone endBusy endStage2
  simp only [hw, hb, hint, he, Bool.false_and, Bool.false_eq_true, if_false]

end Fields

/-! ## Stage 2 -/

/-- What stage 2 holds: nothing; a `hashchk` that has ended; an instruction that completes in this
cycle; one that is refused in this cycle; a part that the dcache has to answer, that the MMU has to
find a translation for, or that has just been sent again; a request that is yet to go to the MMU, or
that the MMU has to answer. -/
inductive Phase where
  | empty
  | stale
  | one
  | align
  | ask
  | walk
  | retry
  | op0
  | op
deriving DecidableEq

namespace Phase

/-- The part is on its way through the dcache. -/
def asks (p : Phase) : Bool := p == .ask || p == .walk || p == .retry

def isOp (p : Phase) : Bool := p == .op0 || p == .op

/-- The MMU has to answer. -/
def mmuOwes (p : Phase) : Bool := p == .walk || p == .op

def busy (p : Phase) (hashcmp : Bool) : Bool :=
  p == .align || p == .walk || p == .retry || p.isOp || (p == .ask && hashcmp)

end Phase

structure At (p : Phase) (x : Sys) : Prop where
  valid : x.s.r2.req.valid = (p != .empty)
  busy : x.s.r2.busy = p.busy x.s.r2.req.hashcmp
  waitDc : x.s.r2.waitDc = (p.asks && !x.s.r2.req.flags.nonfinal && !x.s.r2.req.hashcmp)
  waitMmu : x.s.r2.waitMmu = (p == .walk || p.isOp)
  oneCycle : x.s.r2.oneCycle = (p == .one)
  dcReq : p ≠ .empty → x.s.r2.req.dcReq = (p.asks || p == .stale)
  mmuOp : p ≠ .empty → x.s.r2.req.mmuOp = p.isOp
  alignIntr : p ≠ .empty → x.s.r2.req.alignIntr = (p == .align)
  hashcmp : (p = .stale → x.s.r2.req.hashcmp = true) ∧ (p = .one → x.s.r2.req.hashcmp = false)
  ok : p ≠ .empty → x.s.r2.req.flags.Ok
  slot : x.dc.r1 = .empty ↔ p ≠ .ask
  mmu : x.mmu = p.mmuOwes
  state : x.s.r3.state = if p.mmuOwes then .mmuWait else .idle
  stage1En : x.s.r3.stage1En = (p != .walk)
  complete : x.s.r3.complete = true → p = .empty ∨ p = .stale

section Stage2

variable {hasFpu : Bool} {x : Sys} {i : Input} {p : Phase} {k : Kind}

theorem raise_eq (s : State) (v : RegStage3) : (raise s i v).state = v.state ∧
    (raise s i v).complete = v.complete ∧ (raise s i v).stage1En = v.stage1En ∧
    (raise s i v).interrupt = v.interrupt := by
  unfold raise
  split_ifs <;> exact ⟨rfl, rfl, rfl, rfl⟩

theorem sprWrites_eq (s : State) (v : RegStage3) : (sprWrites s v).state = v.state ∧
    (sprWrites s v).complete = v.complete ∧ (sprWrites s v).stage1En = v.stage1En ∧
    (sprWrites s v).interrupt = v.interrupt := by
  unfold sprWrites
  dsimp only
  split_ifs <;> exact ⟨rfl, rfl, rfl, rfl⟩

/-- The control registers of stage 3 after the edge. -/
theorem r3in_eq (s : State) : (r3in s i).state =
      (if i.mIn.done || i.mIn.err then .idle
       else if mmuOpReq s || (i.dIn.error && !errorIntr s i) then .mmuWait
       else s.r3.state) ∧
    (r3in s i).complete = ((i.dIn.valid && s.r2.req.hashcmp && !hashchkTrap s i) ||
      (i.mIn.done && !s.r2.req.dcReq)) ∧
    (r3in s i).stage1En =
      (if i.mIn.done || i.mIn.err then true
       else if i.dIn.error && !errorIntr s i then false
       else s.r3.stage1En) ∧
    (r3in s i).interrupt = exception s i := by
  unfold r3in
  dsimp only
  by_cases he : exception s i = true
  · simp only [he, if_true, raise_eq, sprWrites_eq, and_self]
  · simp only [he, Bool.false_eq_true, if_false, sprWrites_eq, and_self]

/-- Without a request in the dcache there is no answer. -/
theorem At.silent (h : At p x) (hc : Contract x i) (hp : p ≠ .ask) :
    i.dIn.valid = false ∧ i.dIn.error = false ∧
      (p.mmuOwes = false → p ≠ .op0 → i.dcStall = false) := by
  obtain ⟨hv, he, hst⟩ := hc.silent (h.slot.mpr hp)
  refine ⟨hv, he, fun hm h0 => ?_⟩
  by_contra hs
  have := (hst (by simpa using hs)).1
  rw [h.waitMmu] at this
  revert hm h0 this
  cases p <;> simp [Phase.mmuOwes, Phase.isOp]

/-- The MMU answers only when it has a request. -/
theorem At.noMmu (h : At p x) (hc : Contract x i) (hp : p.mmuOwes = false) :
    i.mIn.done = false ∧ i.mIn.err = false := by
  have hno : ¬ (i.mIn.done = true ∨ i.mIn.err = true) := by
    intro hd
    have := hc.mmu hd
    rw [h.mmu, hp] at this
    cases this
  simpa using hno

/-- Without an answer of the dcache or an error of the MMU there is no interrupt. -/
theorem At.exception_of_silent (h : At p x) (hc : Contract x i) (hp : p ≠ .ask)
    (ha : p ≠ .align) (hm : i.mIn.err = false) : exception x.s i = false := by
  obtain ⟨hv, he, -⟩ := h.silent hc hp
  have hal : (x.s.r2.req.valid && x.s.r2.req.alignIntr) = false := by
    rw [h.valid]
    by_cases hne : p = .empty
    · subst hne
      rfl
    · rw [h.alignIntr hne]
      simp [ha]
  simp [exception, hashchkTrap, errorIntr, hv, he, hal, hm]

/-- Stage 2 has nothing to finish and takes what stage 1 has. -/
structure Free (x : Sys) (i : Input) : Prop where
  stall : i.dcStall = false
  error : i.dIn.error = false
  busy : x.s.r2.busy = false
  waitMmu : x.s.r2.waitMmu = false
  done : i.mIn.done = false
  err : i.mIn.err = false
  trap : (i.dIn.valid && x.s.r2.req.hashcmp) = false
  align : (x.s.r2.req.valid && x.s.r2.req.alignIntr) = false
  op : (x.s.r2.req.valid && x.s.r2.req.mmuOp) = false
  mmu : x.mmu = false
  state : x.s.r3.state = .idle
  stage1En : x.s.r3.stage1En = true

namespace Free

theorem l2stall_false (h : Free x i) : l2stall x.s i = false := by
  simp [l2stall, h.stall, h.error, h.busy]

theorem exception_false (h : Free x i) : exception x.s i = false := by
  have ht : hashchkTrap x.s i = false := by simp [hashchkTrap, h.trap]
  simp [exception, errorIntr, ht, h.align, h.error, h.err]

theorem stage2Interrupt_false (h : Free x i) : stage2Interrupt x.s i = false := by
  simp [stage2Interrupt, errorIntr, h.align, h.error, h.err]

theorem mmuOpReq_false (h : Free x i) : mmuOpReq x.s = false := by
  rw [mmuOpReq, Bool.and_assoc, h.op, Bool.and_false]

/-- Stage 3 stays idle, and the MMU has nothing to do. -/
theorem stage3 (h : Free x i) :
    (Sys.step hasFpu x i).s.r3.state = .idle ∧ (Sys.step hasFpu x i).s.r3.complete = false ∧
    (Sys.step hasFpu x i).s.r3.stage1En = true ∧ (Sys.step hasFpu x i).mmu = false := by
  obtain ⟨h1, h2, h3, -⟩ := @r3in_eq i x.s
  refine ⟨h1.trans ?_, h2.trans ?_, h3.trans ?_, ?_⟩
  · simp [h.done, h.err, h.mmuOpReq_false, h.error, h.state]
  · rw [h.trap, h.done]; rfl
  · simp [h.done, h.err, h.error, h.stage1En]
  · simp [Sys.step, h.mmu, mOut, mmureq, h.mmuOpReq_false, h.error]

end Free

/-- The phases in which stage 2 is free. -/
theorem At.free (h : At p x) (hc : Contract x i)
    (hp : p = .empty ∨ p = .stale ∨ p = .one ∨
      (p = .ask ∧ x.s.r2.req.hashcmp = false ∧ i.dIn.valid = true)) : Free x i := by
  have hm : p.mmuOwes = false := by rcases hp with rfl | rfl | rfl | ⟨rfl, -⟩ <;> rfl
  obtain ⟨hd, he⟩ := h.noMmu hc hm
  have hans : i.dcStall = false ∧ i.dIn.error = false ∧
      (i.dIn.valid && x.s.r2.req.hashcmp) = false := by
    by_cases hask : p = .ask
    · obtain ⟨hh, hv⟩ : x.s.r2.req.hashcmp = false ∧ i.dIn.valid = true := by
        rcases hp with rfl | rfl | rfl | ⟨-, hh⟩
        · cases hask
        · cases hask
        · cases hask
        · exact hh
      have hslot : x.dc.r1 ≠ .empty := fun hs => h.slot.mp hs hask
      rcases hc.answers hslot with ⟨-, h2, h3⟩ | ⟨h1, -⟩ | ⟨h1, -⟩
      · exact ⟨h3, h2, by rw [hh, Bool.and_false]⟩
      · rw [hv] at h1; cases h1
      · rw [hv] at h1; cases h1
    · obtain ⟨hv, her, hst⟩ := h.silent hc hask
      refine ⟨hst hm ?_, her, by rw [hv, Bool.false_and]⟩
      rcases hp with rfl | rfl | rfl | ⟨rfl, -⟩ <;> decide
  obtain ⟨hst, her, htr⟩ := hans
  exact {
    stall := hst
    error := her
    busy := by
      rw [h.busy]
      rcases hp with rfl | rfl | rfl | ⟨rfl, hh, -⟩
      · rfl
      · rfl
      · rfl
      · rw [hh]; rfl
    waitMmu := by
      rw [h.waitMmu]
      rcases hp with rfl | rfl | rfl | ⟨rfl, -⟩ <;> rfl
    done := hd
    err := he
    trap := htr
    align := by
      rw [h.valid]
      rcases hp with rfl | rfl | rfl | ⟨rfl, -⟩
      · rfl
      · rw [h.alignIntr (by decide)]; rfl
      · rw [h.alignIntr (by decide)]; rfl
      · rw [h.alignIntr (by decide)]; rfl
    op := by
      rw [h.valid]
      rcases hp with rfl | rfl | rfl | ⟨rfl, -⟩
      · rfl
      · rw [h.mmuOp (by decide)]; rfl
      · rw [h.mmuOp (by decide)]; rfl
      · rw [h.mmuOp (by decide)]; rfl
    mmu := by rw [h.mmu, hm]
    state := by rw [h.state, hm]; rfl
    stage1En := by
      rw [h.stage1En]
      rcases hp with rfl | rfl | rfl | ⟨rfl, -⟩ <;> rfl }

/-- What stage 2 makes of the part that stage 1 holds. -/
def nextPhase (k : Kind) (f : Flags) : Phase :=
  match k with
  | .none | .wait => .empty
  | .more => .ask
  | .op => .op0
  | .final => if f.dcReq then .ask else if f.alignIntr then .align else .one

/-- Stage 2 after it has taken the request of stage 1. -/
theorem moveToStage2_eq (s : State) (v : RegStage2) :
    (moveToStage2 s i v).req.flags = s.r1.req.flags ∧
    (moveToStage2 s i v).req.valid = s.r1.req.valid ∧
    (moveToStage2 s i v).busy = (s.r1.req.valid && (s.r1.req.alignIntr || s.r1.req.hashcmp) ||
      (s.r1.req.valid && s.r1.req.mmuOp)) ∧
    (moveToStage2 s i v).waitDc = (s.r1.req.valid && s.r1.req.dcReq && !s.r1.req.loadSp &&
      !s.r1.req.incomplete && !s.r1.req.hashcmp && !s.r1.req.tlbie) ∧
    (moveToStage2 s i v).waitMmu = (s.r1.req.valid && s.r1.req.mmuOp) ∧
    (moveToStage2 s i v).oneCycle =
      (!(s.r1.req.valid && (s.r1.req.alignIntr || s.r1.req.hashcmp)) && s.r1.req.valid &&
        !(s.r1.req.dcReq || s.r1.req.mmuOp)) :=
  ⟨rfl, rfl, rfl, rfl, rfl, rfl⟩

/-- The parts of `At` that do not depend on the request in stage 2. -/
theorem Free.at_of (h : Free x i) (hs : i.lIn.e2stall = false)
    (hr0 : x.dc.r0 = if x.s.r1.issued then .first else .empty) {q : Phase}
    (hq : q = .ask ↔ x.s.r1.issued = true) (hm : q.mmuOwes = false) (hw : q ≠ .walk) :
    ((Sys.step hasFpu x i).dc.r1 = .empty ↔ q ≠ .ask) ∧
    (Sys.step hasFpu x i).mmu = q.mmuOwes ∧
    (Sys.step hasFpu x i).s.r3.state = (if q.mmuOwes then .mmuWait else .idle) ∧
    (Sys.step hasFpu x i).s.r3.stage1En = (q != .walk) ∧
    ((Sys.step hasFpu x i).s.r3.complete = true → q = .empty ∨ q = .stale) := by
  obtain ⟨h1, h2, h3, h4⟩ := @Free.stage3 hasFpu x i h
  refine ⟨?_, ?_, ?_, ?_, ?_⟩
  · simp only [Sys.step, Dc.step, h.stall, h.error, hs, Bool.or_self, Bool.false_eq_true,
      if_false, hr0, ne_eq, hq]
    split_ifs with hi <;> simp [hi]
  · rw [h4, hm]
  · rw [h1, hm]; rfl
  · rw [h3]
    simpa using hw
  · rw [h2]
    intro hc
    cases hc

/-- Nothing is left in stage 2. -/
theorem at_empty (hv : x.s.r2.req.valid = false) (hb : x.s.r2.busy = false)
    (hd : x.s.r2.waitDc = false) (hm : x.s.r2.waitMmu = false) (ho : x.s.r2.oneCycle = false)
    (hslot : x.dc.r1 = .empty) (hmmu : x.mmu = false) (hst : x.s.r3.state = .idle)
    (hen : x.s.r3.stage1En = true) : At .empty x where
  valid := hv
  busy := hb
  waitDc := hd
  waitMmu := hm
  oneCycle := ho
  dcReq := fun h => absurd rfl h
  mmuOp := fun h => absurd rfl h
  alignIntr := fun h => absurd rfl h
  hashcmp := ⟨nofun, nofun⟩
  ok := fun h => absurd rfl h
  slot := by simp [hslot]
  mmu := hmmu
  state := hst
  stage1En := hen
  complete := fun _ => Or.inl rfl

/-- The request of stage 1 has moved to stage 2. -/
theorem Free.at_moved (h : Free x i) (hs : i.lIn.e2stall = false)
    (hr0 : x.dc.r0 = if x.s.r1.issued then .first else .empty)
    (hmove : r2in x.s i = moveToStage2 x.s i (dbgRead x.s i x.s.r2)) {q : Phase}
    (hq : q = .one ∨ q = .align ∨ q = .ask ∨ q = .op0)
    (hv : x.s.r1.req.valid = true) (hok : x.s.r1.req.flags.Ok)
    (hi : q = .ask ↔ x.s.r1.issued = true)
    (hdc : x.s.r1.req.dcReq = q.asks) (hop : x.s.r1.req.mmuOp = q.isOp)
    (hal : x.s.r1.req.alignIntr = (q == .align)) (hone : q = .one → x.s.r1.req.hashcmp = false) :
    At q (Sys.step hasFpu x i) ∧ (Sys.step hasFpu x i).s.r2.req.flags = x.s.r1.req.flags := by
  obtain ⟨m1, m2, m3, m4, m5, m6⟩ := @moveToStage2_eq i x.s (dbgRead x.s i x.s.r2)
  rw [← hmove] at m1 m2 m3 m4 m5 m6
  have hhash : (r2in x.s i).req.hashcmp = x.s.r1.req.hashcmp := congrArg Flags.hashcmp m1
  have hm : q.mmuOwes = false := by rcases hq with rfl | rfl | rfl | rfl <;> rfl
  have hw : q ≠ .walk := by rcases hq with rfl | rfl | rfl | rfl <;> decide
  have hst : q ≠ .stale := by rcases hq with rfl | rfl | rfl | rfl <;> decide
  obtain ⟨a1, a2, a3, a4, a5⟩ := @Free.at_of hasFpu x i h hs hr0 q hi hm hw
  refine ⟨?_, m1⟩
  constructor
  · show (r2in x.s i).req.valid = _
    rw [m2, hv]
    rcases hq with rfl | rfl | rfl | rfl <;> rfl
  · show (r2in x.s i).busy = q.busy (r2in x.s i).req.hashcmp
    rw [m3, hhash, hv, hop, hal]
    rcases hq with rfl | rfl | rfl | rfl
    · rw [hone rfl]; rfl
    · rfl
    · cases x.s.r1.req.hashcmp <;> rfl
    · cases x.s.r1.req.hashcmp <;> rfl
  · show (r2in x.s i).waitDc =
        (q.asks && !(r2in x.s i).req.flags.nonfinal && !(r2in x.s i).req.hashcmp)
    rw [m4, m1, hhash, hv, show x.s.r1.req.tlbie = false from hok.noTlbie]
    change _ = (q.asks && !(x.s.r1.req.dcReq && (x.s.r1.req.incomplete || x.s.r1.req.loadSp)) &&
      !x.s.r1.req.hashcmp)
    rw [hdc]
    cases q.asks <;> cases x.s.r1.req.loadSp <;> cases x.s.r1.req.incomplete <;>
      cases x.s.r1.req.hashcmp <;> rfl
  · show (r2in x.s i).waitMmu = _
    rw [m5, hv, hop]
    rcases hq with rfl | rfl | rfl | rfl <;> rfl
  · show (r2in x.s i).oneCycle = _
    rw [m6, hv, hop, hal, hdc]
    rcases hq with rfl | rfl | rfl | rfl
    · rw [hone rfl]; rfl
    · rfl
    · cases x.s.r1.req.hashcmp <;> rfl
    · cases x.s.r1.req.hashcmp <;> rfl
  · intro _
    show (r2in x.s i).req.flags.dcReq = _
    rw [m1]
    change x.s.r1.req.dcReq = _
    rw [hdc]
    rcases hq with rfl | rfl | rfl | rfl <;> rfl
  · intro _
    show (r2in x.s i).req.flags.mmuOp = _
    rw [m1]
    exact hop
  · intro _
    show (r2in x.s i).req.flags.alignIntr = _
    rw [m1]
    exact hal
  · exact ⟨fun he => absurd he hst, fun he => hhash.trans (hone he)⟩
  · intro _
    show (r2in x.s i).req.flags.Ok
    rw [m1]
    exact hok
  · exact a1
  · exact a2
  · exact a3
  · exact a4
  · exact a5

theorem Free.at_next (h : Free x i) (h1 : Stage1Is k x.s.r1) (hs : i.lIn.e2stall = false)
    (hr0 : x.dc.r0 = if x.s.r1.issued then .first else .empty)
    (hno : k = .final → x.s.r1.req.dcReq = false → x.s.r1.req.alignIntr = false →
      x.s.r1.req.hashcmp = false) :
    At (nextPhase k x.s.r1.req.flags) (Sys.step hasFpu x i) ∧
    (nextPhase k x.s.r1.req.flags ≠ .empty →
      (Sys.step hasFpu x i).s.r2.req.flags = x.s.r1.req.flags) := by
  have hfree : stage2Free x.s i = true :=
    stage2Free_iff.mpr ⟨h.stall, h.error, h.busy, hs⟩
  have hr2 := r2in_free hfree h.waitMmu h.stage2Interrupt_false
  have hempty : ∀ (hi : x.s.r1.issued = false), (r2in x.s i).req.valid = false →
      (r2in x.s i).busy = false → (r2in x.s i).waitDc = false → (r2in x.s i).waitMmu = false →
      (r2in x.s i).oneCycle = false → At .empty (Sys.step hasFpu x i) := by
    intro hi v1 v2 v3 v4 v5
    obtain ⟨a1, a2, a3, a4, -⟩ :=
      @Free.at_of hasFpu x i h hs hr0 .empty (by simp [hi]) rfl (by decide)
    exact at_empty v1 v2 v3 v4 v5 (a1.mpr (by decide)) a2 a3 a4
  have hmove : k ≠ .wait → r2in x.s i = moveToStage2 x.s i (dbgRead x.s i x.s.r2) := by
    intro hk
    rw [hr2, if_pos]
    unfold stage1Ready
    rw [h1.valid, h1.issued]
    have hd := h1.dcReq
    cases k
    · rfl
    · cases x.s.r1.req.dcReq <;> rfl
    · rfl
    · exact absurd rfl hk
    · rw [hd.1 (Or.inr rfl)]; rfl
  cases k with
  | none =>
      have hm := hmove (by decide)
      have hv : x.s.r1.req.valid = false := h1.valid
      refine ⟨?_, fun hne => absurd rfl hne⟩
      obtain ⟨-, m2, m3, m4, m5, m6⟩ := @moveToStage2_eq i x.s (dbgRead x.s i x.s.r2)
      rw [← hm, hv] at m2 m3 m4 m5 m6
      exact hempty h1.issued m2 m3 m4 m5 (by rw [m6]; rfl)
  | wait =>
      -- the request is issued now, and stage 2 has a bubble
      have hd : x.s.r1.req.dcReq = true := h1.dcReq.2 (Or.inr rfl)
      have hb : r2in x.s i = bubbleStage2 (dbgRead x.s i x.s.r2) := by
        have hrd : stage1Ready x.s = false := by
          unfold stage1Ready
          rw [h1.valid, h1.issued, hd]
          rfl
        rw [hr2, hrd]
        rfl
      obtain ⟨-, d2, -⟩ := @dbgRead_eq x.s i x.s.r2
      refine ⟨hempty h1.issued ?_ ?_ ?_ ?_ ?_, fun hne => absurd rfl hne⟩
      · rw [hb]; rfl
      · rw [hb]; exact d2.trans h.busy
      · rw [hb]; rfl
      · rw [hb]; rfl
      · rw [hb]; rfl
  | more =>
      have hd : x.s.r1.req.dcReq = true := h1.dcReq.2 (Or.inl rfl)
      have hok := h1.ok (by decide)
      have hal : x.s.r1.req.alignIntr = false := by
        by_contra ha
        have ha' : x.s.r1.req.alignIntr = true := by simpa using ha
        have hno : x.s.r1.req.dcReq = false := (hok.align ha').1
        rw [hd] at hno
        cases hno
      have hiss : x.s.r1.issued = true := h1.issued
      obtain ⟨hat, hf⟩ := @Free.at_moved hasFpu x i h hs hr0 (hmove (by decide)) .ask
        (by simp) h1.valid hok (by simp [hiss]) hd (h1.mmuOp (by decide)) hal (by rintro ⟨⟩)
      exact ⟨hat, fun _ => hf⟩
  | op =>
      have hok := h1.ok (by decide)
      have hop : x.s.r1.req.mmuOp = true := h1.mmuOp (by decide)
      have hal : x.s.r1.req.alignIntr = false := by
        by_contra ha
        have ha' : x.s.r1.req.alignIntr = true := by simpa using ha
        have hno : x.s.r1.req.mmuOp = false := (hok.align ha').2.1
        rw [hop] at hno
        cases hno
      have hiss : x.s.r1.issued = false := h1.issued
      obtain ⟨hat, hf⟩ := @Free.at_moved hasFpu x i h hs hr0 (hmove (by decide)) .op0
        (by simp) h1.valid hok (by simp [hiss]) (h1.dcReq.1 (Or.inr rfl)) hop hal (by rintro ⟨⟩)
      exact ⟨hat, fun _ => hf⟩
  | final =>
      have hok := h1.ok (by decide)
      have hop : x.s.r1.req.mmuOp = false := h1.mmuOp (by decide)
      have hiss : x.s.r1.issued = x.s.r1.req.dcReq := h1.issued
      cases hd : x.s.r1.req.dcReq with
      | true =>
          have hal : x.s.r1.req.alignIntr = false := by
            by_contra ha
            have ha' : x.s.r1.req.alignIntr = true := by simpa using ha
            have hno : x.s.r1.req.dcReq = false := (hok.align ha').1
            rw [hd] at hno
            cases hno
          have hq : nextPhase .final x.s.r1.req.flags = .ask := by
            simp [nextPhase, Request.flags, hd]
          rw [hq]
          obtain ⟨hat, hf⟩ := @Free.at_moved hasFpu x i h hs hr0 (hmove (by decide)) .ask
            (by simp) h1.valid hok (by simp [hiss, hd]) hd hop hal (by rintro ⟨⟩)
          exact ⟨hat, fun _ => hf⟩
      | false =>
          cases hal : x.s.r1.req.alignIntr with
          | true =>
              have hq : nextPhase .final x.s.r1.req.flags = .align := by
                simp [nextPhase, Request.flags, hd, hal]
              rw [hq]
              obtain ⟨hat, hf⟩ := @Free.at_moved hasFpu x i h hs hr0 (hmove (by decide)) .align
                (by simp) h1.valid hok (by simp [hiss, hd]) hd hop hal (by rintro ⟨⟩)
              exact ⟨hat, fun _ => hf⟩
          | false =>
              have hq : nextPhase .final x.s.r1.req.flags = .one := by
                simp [nextPhase, Request.flags, hd, hal]
              rw [hq]
              obtain ⟨hat, hf⟩ := @Free.at_moved hasFpu x i h hs hr0 (hmove (by decide)) .one
                (by simp) h1.valid hok (by simp [hiss, hd]) hd hop hal (fun _ => hno rfl hd hal)
              exact ⟨hat, fun _ => hf⟩

/-- The MMU side of a cycle in which stage 2 keeps its request. -/
theorem mmu_step : (Sys.step hasFpu x i).mmu =
    ((x.mmu && !(i.mIn.done || i.mIn.err)) || mmuOpReq x.s ||
      (i.dIn.error && !errorIntr x.s i)) := by
  simp only [Sys.step, mOut, mmureq]
  cases mmuOpReq x.s <;> cases x.s.r2.req.writeSpr <;> simp

theorem At.mmuOpReq (h : At p x) : mmuOpReq x.s = (p == .op0) := by
  unfold Loadstore1.mmuOpReq
  rw [h.valid, h.state]
  by_cases hp : p = .empty
  · subst hp; rfl
  · rw [h.mmuOp hp]
    cases p <;> rfl

/-- Stage 2 keeps a request that it has not ended. -/
theorem At.keep (h : At p x) (hp : p ≠ .empty) (hf : stage2Free x.s i = false)
    (hn : stage2Interrupt x.s i = false)
    (hd : (x.s.r2.waitMmu && i.mIn.done && x.s.r2.req.mmuOp) = false) {q : Phase} (hq : q ≠ .empty)
    (hone : p ≠ .one ∧ q ≠ .one) (hop : q.isOp = p.isOp) (hal : (q == .align) = (p == .align))
    (hdc : (q.asks || q == .stale) = (p.asks || p == .stale))
    (hst : q = .stale → x.s.r2.req.hashcmp = true)
    (hdcw : q.asks = p.asks ∨ x.s.r2.req.hashcmp = true)
    (hbusy : (i.dIn.error || (x.s.r2.busy &&
      !(x.s.r2.busy && !x.s.r2.waitMmu && (!x.s.r2.req.hashcmp || i.dIn.valid)))) =
        q.busy x.s.r2.req.hashcmp)
    (hwait : (i.dIn.error || (x.s.r2.waitMmu && !(x.s.r2.waitMmu && i.mIn.done))) =
      (q == .walk || q.isOp))
    (hslot : (Dc.step hasFpu x i).r1 = .empty ↔ q ≠ .ask)
    (hmmu : (Sys.step hasFpu x i).mmu = q.mmuOwes)
    (hstate : (r3in x.s i).state = if q.mmuOwes then .mmuWait else .idle)
    (hen : (r3in x.s i).stage1En = (q != .walk))
    (hcomp : (r3in x.s i).complete = true → q = .empty ∨ q = .stale) :
    At q (Sys.step hasFpu x i) ∧ (Sys.step hasFpu x i).s.r2.req.flags = x.s.r2.req.flags := by
  obtain ⟨c1, c2, c3, c4, c5, c6⟩ := r2in_kept hf
  have hhash : (r2in x.s i).req.hashcmp = x.s.r2.req.hashcmp := congrArg Flags.hashcmp c1
  refine ⟨?_, c1⟩
  constructor
  · show (r2in x.s i).req.valid = _
    rw [c2, hn, hd, h.valid]
    have h1 : (p != .empty) = true := by simpa using hp
    have h2 : (q != .empty) = true := by simpa using hq
    rw [h1, h2]
    rfl
  · show (r2in x.s i).busy = q.busy (r2in x.s i).req.hashcmp
    rw [c3, hn, hd, hhash, ← hbusy]
    simp
  · show (r2in x.s i).waitDc =
        (q.asks && !(r2in x.s i).req.flags.nonfinal && !(r2in x.s i).req.hashcmp)
    rw [c4, hn, c1, hhash, h.waitDc]
    rcases hdcw with he | he
    · rw [he]; rfl
    · rw [he]; simp
  · show (r2in x.s i).waitMmu = _
    rw [c5, hn, ← hwait]
    rfl
  · show (r2in x.s i).oneCycle = _
    rw [c6, h.oneCycle]
    have h1 : (p == .one) = false := by simpa using hone.1
    have h2 : (q == .one) = false := by simpa using hone.2
    rw [h1, h2]
  · intro _
    show (r2in x.s i).req.flags.dcReq = _
    rw [c1, hdc]
    exact h.dcReq hp
  · intro _
    show (r2in x.s i).req.flags.mmuOp = _
    rw [c1, hop]
    exact h.mmuOp hp
  · intro _
    show (r2in x.s i).req.flags.alignIntr = _
    rw [c1, hal]
    exact h.alignIntr hp
  · exact ⟨fun hq => hhash.trans (hst hq), fun hq => absurd hq hone.2⟩
  · intro _
    show (r2in x.s i).req.flags.Ok
    rw [c1]
    exact h.ok hp
  · exact hslot
  · exact hmmu
  · exact hstate
  · exact hen
  · exact hcomp

/-- An interrupt, other than the trap of a `hashchk`, empties stage 2. -/
theorem At.interrupted (h : At p x) (hf : stage2Free x.s i = false)
    (hn : stage2Interrupt x.s i = true) (hone : p ≠ .one)
    (hslot : (Dc.step hasFpu x i).r1 = .empty) (hmmu : (Sys.step hasFpu x i).mmu = false)
    (hstate : (r3in x.s i).state = .idle) (hen : (r3in x.s i).stage1En = true) :
    At .empty (Sys.step hasFpu x i) := by
  obtain ⟨-, c2, c3, c4, c5, c6⟩ := r2in_kept hf
  rw [hn] at c2 c3 c4 c5
  refine at_empty c2 c3 c4 c5 ?_ hslot hmmu hstate hen
  show (r2in x.s i).oneCycle = false
  rw [c6, h.oneCycle]
  simpa using hone

end Stage2

end Microwatt.Loadstore1
