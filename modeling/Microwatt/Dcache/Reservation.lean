import Microwatt.Dcache.Completion

/-!
# Load-reserve and store-conditional

The architecture's view of the reservation is a ghost `rsrv` that runs along with
the dcache: a load-reserve sets it to its line when it reads its data, a write of
another master to that line clears it when the bus takes the write, and the
completion of a store-conditional clears it.  A store-conditional may be performed
only if `rsrv` is its line.  The second doubleword of a quadword goes with the first:
`half` says that the store-conditional that completed last was performed and has its
last doubleword still to come.

The register `reservation` lags behind: a write on the snoop bus clears it a cycle
later.  The tests for `kill_rsrv` make up for that, so that a valid register always
means `rsrv` or a kill on its way.  Three things can break this, and `Sound` leaves
them out.  A row of a reload sets the reservation by the flags of `r1.req`, which is
an older request when the row completes one that is still in `r0`.  A load-reserve
that is refused as non-cacheable sets the reservation if it hits.  And a
store-conditional that finds a quadword store half done in an open cycle is added to
that cycle without a look at the reservation.
-/

namespace Microwatt.Dcache

variable {g : Geometry}

/-- The number of a line of the real address space. -/
abbrev LineAddr (g : Geometry) := BitVec (56 - g.lineOffBits)

/-! ## Events -/

/-- A write of another master that the bus takes in this cycle.  When we have the
bus (`cyc` and no stall) the write on the snoop bus is our own. -/
def otherWrite (s : State g) (i : Input) (l : LineAddr g) : Bool :=
  i.snoopIn.cyc && i.snoopIn.stb && i.snoopIn.we &&
    !((wishboneOut s).cyc && !i.wishboneIn.stall) && getLine (snoopAddr i) == l

/-- The line of a load-reserve that gets its data from the cache in this cycle. -/
def larxHit (s : State g) (i : Input) : Option (LineAddr g) :=
  if reqOp s i == .loadHit && s.r0.req.reserve && s.r0.req.atomicFirst then some (getLine (ra s))
  else none

/-- The line of a load-reserve that gets its data from the bus in this cycle. -/
def larxRow (s : State g) (i : Input) : Option (LineAddr g) :=
  if s.r1.state == .reloadWaitAck && i.wishboneIn.ack && reloadMatch s i &&
      (curReq s i).opLmiss && (curReq s i).reserve && (curReq s i).firstDw then
    some (getLine (curReq s i).realAddr)
  else none

/-- The RAMs are read a cycle ahead of the hit: a write of another master in that
cycle was to the line that the data comes from. -/
def staleRead (s : State g) (i : Input) : Prop :=
  s.rams.snoopValid = true ∧ getIndex s.rams.snoopPaddr = reqIndex s ∧
    ∃ w, reqHitWays s i w = true ∧ s.rams.cacheTagSet w = getTag s.rams.snoopPaddr

/-- A store-conditional completes. -/
def stcxCompletes (s : State g) (i : Input) : Bool :=
  retires s i && (curReq s i).opStore && (curReq s i).reserve

/-- It is reported to have been performed. -/
def stcxSucceeds (s : State g) (i : Input) : Bool :=
  stcxCompletes s i && (dOut (step s i)).storeDone

instance (s : State g) (i : Input) : Decidable (staleRead s i) :=
  inferInstanceAs (Decidable (_ ∧ _))

/-- The dcache with the architecture's view of the reservation. -/
structure RsrvTrace (g : Geometry) where
  st : State g
  rsrv : Option (LineAddr g)
  half : Bool

namespace RsrvTrace

def init (s : State g) : RsrvTrace g where
  st := s
  rsrv := none
  half := false

/-- The reservation with what the load-reserve of this cycle, if any, makes of
it. -/
def afterLarx (t : RsrvTrace g) (i : Input) : Option (LineAddr g) :=
  match larxHit t.st i, larxRow t.st i with
  | some l, _ => if staleRead t.st i then none else some l
  | none, some l => some l
  | none, none => t.rsrv

def nextRsrv (t : RsrvTrace g) (i : Input) : Option (LineAddr g) :=
  if stcxCompletes t.st i then none
  else (t.afterLarx i).filter fun l => !otherWrite t.st i l

def nextHalf (t : RsrvTrace g) (i : Input) : Bool :=
  if stcxSucceeds t.st i then !(curReq t.st i).lastDw
  else !(retires t.st i || (reqOp t.st i).fast) && t.half

def step (t : RsrvTrace g) (i : Input) : RsrvTrace g where
  st := Dcache.step t.st i
  rsrv := t.nextRsrv i
  half := t.nextHalf i

end RsrvTrace

/-- A store-conditional that is performed, by its report or by a write on the bus,
has the reservation, or follows the first doubleword of its quadword. -/
def StcxJustified (t : RsrvTrace g) (i : Input) : Prop :=
  stcxCompletes t.st i = true →
    (dOut (step t.st i)).storeDone = true ∨
      ((wishboneOut (step t.st i)).cyc = true ∧ (wishboneOut (step t.st i)).stb = true) →
    t.rsrv = some (getLine (curReq t.st i).realAddr) ∨
      ((curReq t.st i).firstDw = false ∧ t.half = true)

/-! ## The environment -/

/-- What loadstore1 sends: load-reserves and store-conditionals are nothing else,
each is a single doubleword or half of a quadword, and the second half of a
store-conditional comes next after the first (`r1.req` is the last request that was
looked up). -/
def PairsInOrder (s : State g) (i : Input) : Prop :=
  reqGo s i = true → s.r0.req.reserve = true →
    s.r0.req.sync = false ∧ s.r0.req.touch = false ∧ s.r0.req.tlbProbe = false ∧
    s.r0.req.flush = false ∧ (s.r0.req.atomicQw = false → s.r0.req.atomicFirst = true) ∧
    (s.r0.req.load = false → s.r0.req.atomicQw = true → s.r0.req.atomicFirst = false →
      s.r1.req.opStore = true ∧ s.r1.req.reserve = true ∧ s.r1.req.lastDw = false)

/-- A row of a reload completes a request from `r0`, and the request looked up
before it had the reserve flag. -/
def RowAfterReserve (s : State g) (i : Input) : Prop :=
  s.r1.state = .reloadWaitAck ∧ s.r1.full = false ∧ i.wishboneIn.ack = true ∧
    reloadMatch s i = true ∧ s.r1.req.reserve = true ∧ s.r1.req.firstDw = true

/-- A load-reserve of a non-cacheable page hits. -/
def NonCacheableLarxHits (s : State g) (i : Input) : Prop :=
  s.r0.req.load = true ∧ s.r0.req.reserve = true ∧ reqNc s = true ∧ reqIsHit s i = true

/-- The first doubleword of a store-conditional finds a quadword store half
done. -/
def FirstFindsHalf (s : State g) (i : Input) : Prop :=
  s.r1.state = .storeWaitAck ∧ s.r1.atomicMore = true ∧ (curReq s i).opStore = true ∧
    (curReq s i).reserve = true ∧ (curReq s i).firstDw = true

/-- None of the three things happens that break the reservation. -/
def Sound (s : State g) (i : Input) : Prop :=
  ¬RowAfterReserve s i ∧ ¬NonCacheableLarxHits s i ∧ ¬FirstFindsHalf s i

instance (s : State g) (i : Input) : Decidable (PairsInOrder s i) :=
  inferInstanceAs (Decidable (_ → _ → _ ∧ _ ∧ _ ∧ _ ∧ (_ → _) ∧ (_ → _ → _ → _)))

instance (s : State g) (i : Input) : Decidable (RowAfterReserve s i) :=
  inferInstanceAs (Decidable (_ ∧ _))

instance (s : State g) (i : Input) : Decidable (NonCacheableLarxHits s i) :=
  inferInstanceAs (Decidable (_ ∧ _))

instance (s : State g) (i : Input) : Decidable (FirstFindsHalf s i) :=
  inferInstanceAs (Decidable (_ ∧ _))

instance (s : State g) (i : Input) : Decidable (Sound s i) :=
  inferInstanceAs (Decidable (_ ∧ _))

/-! ## The invariant -/

structure RsrvInv (t : RsrvTrace g) : Prop where
  mach : MachInv t.st
  closed : t.st.r1.state = .idle ∨ t.st.r1.state = .flushCycle → t.st.r1.wb.cyc = false
  /-- Both reads of the tag RAM are from the same edge. -/
  tags : t.st.rams.snoopValid = true → getIndex t.st.rams.snoopPaddr = reqIndex t.st →
    t.st.rams.snoopTagSet = t.st.rams.cacheTagSet
  /-- A valid reservation is the architecture's, or a kill is on its way. -/
  valid : t.st.r1.reservation.valid = true →
    t.rsrv = some t.st.r1.reservation.addr ∨ killRsrv t.st = true
  /-- A load-reserve that waits for its data has set the address. -/
  addr : t.st.r1.full = true → t.st.r1.req.opLmiss = true → t.st.r1.req.reserve = true →
    t.st.r1.req.firstDw = true → t.st.r1.reservation.addr = getLine t.st.r1.req.realAddr
  /-- The store that a reload serves is a dcbz. -/
  zero : t.st.r1.state = .reloadWaitAck → t.st.r1.full = true → t.st.r1.req.hitReload = true →
    t.st.r1.req.reserve = true → t.st.r1.req.opLmiss = true
  /-- A non-cacheable load and a flush wait in `r1` too. -/
  other : t.st.r1.state = .ncLoadWaitAck ∨ t.st.r1.state = .flushCycle →
    t.st.r1.req.opStore = false
  halfRsrv : t.half = true → t.st.r1.reservation.valid = false
  firstHalf : t.st.r1.state = .storeWaitAck → t.st.r1.full = false →
    t.st.r1.req.opStore = true → t.st.r1.req.reserve = true → t.st.r1.req.lastDw = false →
    t.half = true
  secondHalf : t.st.r1.state = .storeWaitAck → t.st.r1.full = true →
    t.st.r1.req.opStore = true → t.st.r1.req.reserve = true → t.st.r1.req.firstDw = false →
    t.half = true

section Step

variable {t : RsrvTrace g} {i : Input}

theorem closed_step_rsrv (h : RsrvInv t)
    (hst' : (step t.st i).r1.state = .idle ∨ (step t.st i).r1.state = .flushCycle) :
    (step t.st i).r1.wb.cyc = false := by
  rw [step_state] at hst'
  rw [step_cyc]
  cases hst : t.st.r1.state with
  | idle =>
      obtain ⟨op, hop⟩ := exists_hasOp_curReq h.mach i
      simp only [hst] at hst'
      have hcyc := h.closed (Or.inl hst)
      rcases idleNext_cases (s := t.st) hop with ⟨hnext, hp, hz, hx, hl⟩ | ⟨hnext, -⟩ |
        ⟨hnext, -⟩ | ⟨hnext, -⟩ | ⟨hnext, -⟩
      · simp [hp, hz, hx, hl, hcyc]
      · simp [hnext] at hst'
      · simp [hnext] at hst'
      · simp [hnext] at hst'
      · simp [hnext] at hst'
  | reloadWaitAck => by_cases hl : reloadLast t.st i = true <;> simp_all
  | storeWaitAck => by_cases hl : storeExit t.st i = true <;> simp_all
  | ncLoadWaitAck => by_cases hl : i.wishboneIn.ack = true <;> simp_all
  | doStcx =>
      by_cases hl : stcxLost t.st = true <;> by_cases hs : i.wishboneIn.stall = true <;> simp_all
  | flushCycle => simpa using h.closed (Or.inr hst)

theorem tags_step_rsrv (s : State g) (i : Input)
    (hix : getIndex (step s i).rams.snoopPaddr = reqIndex (step s i)) :
    (step s i).rams.snoopTagSet = (step s i).rams.cacheTagSet := by
  show s.r1.cacheTags (getIndex (snoopAddr i)) = s.r1.cacheTags (cacheTagReadIndex s i)
  rw [cacheTagReadIndex_eq, ← hix]
  rfl

/-- A kill after the edge is a write of another master before it. -/
theorem killRsrv_step (s : State g) (i : Input) (hv : (step s i).r1.reservation.valid = true) :
    killRsrv (step s i) = otherWrite s i (step s i).r1.reservation.addr := by
  simp [killRsrv, otherWrite, step, ramsNext, snoopActive, wishboneOut] at hv ⊢
  simp [hv]

/-! ### Load-reserves -/

/-- The lookup of a load-reserve, the first test of `slowReservation`. -/
def larxLookup (s : State g) (i : Input) : Bool :=
  reqGo s i && accessOk s i && s.r0.req.load && s.r0.req.reserve && s.r0.req.atomicFirst

theorem takenRsrv_of_lookup {s : State g} (h : larxLookup s i = true) :
    takenRsrv s i = ⟨reqIsHit s i && !reqSnoopHit s i, getLine (ra s)⟩ :=
  if_pos h

theorem takenRsrv_of_not_lookup {s : State g} (h : larxLookup s i = false) :
    takenRsrv s i = if killRsrv s then ⟨false, s.r1.reservation.addr⟩ else s.r1.reservation :=
  if_neg (by rw [← larxLookup, h]; decide)

/-- A lookup that sets the reservation is a hit on fresh data. -/
theorem larxHit_of_lookup (h : RsrvInv t) (hpair : PairsInOrder t.st i) (hsound : Sound t.st i)
    (hlook : larxLookup t.st i = true) (hv : (takenRsrv t.st i).valid = true) :
    reqOp t.st i = .loadHit ∧ larxHit t.st i = some (getLine (ra t.st)) ∧
      ¬staleRead t.st i := by
  rw [takenRsrv_of_lookup hlook, Bool.and_eq_true, Bool.not_eq_true'] at hv
  obtain ⟨hhit, hsnoop⟩ := hv
  simp only [larxLookup, Bool.and_eq_true] at hlook
  obtain ⟨⟨⟨⟨hgo, hok⟩, hload⟩, hres⟩, hfirst⟩ := hlook
  have hop : reqOp t.st i = .loadHit := by
    obtain ⟨hsync, htouch, hprobe, hflush, -⟩ := hpair hgo hres
    have hnc : reqNc t.st = false := by
      by_contra hnc
      exact hsound.2.1 ⟨hload, hres, by simpa using hnc, hhit⟩
    simp [reqOp, hgo, hsync, htouch, hprobe, hok, hflush, hnc, hload, hhit]
  refine ⟨hop, by simp [larxHit, hop, hres, hfirst], ?_⟩
  rintro ⟨hvalid, hix, w, hw, htag⟩
  -- the write hits the way in the snoop copy of the tags too
  have hhits : snoopHits t.st w = true := by
    simp [snoopHits, hvalid, h.tags hvalid hix, htag]
  have hany : reqSnoopHit t.st i = true := by
    simp only [reqSnoopHit, hgo, hix, BEq.rfl, Bool.true_and, List.any_eq_true, Bool.and_eq_true]
    exact ⟨w, List.mem_finRange w, hhits, hw⟩
  rw [hany] at hsnoop
  exact absurd hsnoop (by decide)

/-- A load with the reserve flag that is looked up, and whose access is good, is a
lookup of a load-reserve. -/
theorem lookup_of_op (hpair : PairsInOrder t.st i) (hres : t.st.r0.req.reserve = true)
    (hop : reqOp t.st i = .loadHit ∨ reqOp t.st i = .loadMiss)
    (hfirst : t.st.r0.req.atomicQw = false ∨ t.st.r0.req.atomicFirst = true) :
    larxLookup t.st i = true := by
  have hgo : reqGo t.st i = true := reqGo_of_reqOp (by rcases hop with hop | hop <;> simp [hop])
  obtain ⟨hsync, htouch, hprobe, hflush, hone, -⟩ := hpair hgo hres
  have hfirst' : t.st.r0.req.atomicFirst = true := hfirst.elim hone id
  have hboth : accessOk t.st i = true ∧ t.st.r0.req.load = true := by
    simp only [reqOp, hgo, hsync, htouch, hprobe, hflush, if_true, Bool.false_eq_true,
      if_false] at hop
    split_ifs at hop with hok hnc hload hhit <;> simp_all
  simp [larxLookup, hgo, hboth, hres, hfirst']

/-- The load-reserve that a row of the reload completes waited in `r1`. -/
theorem full_of_larxRow (hpair : PairsInOrder t.st i) (hlook : larxLookup t.st i = false)
    {l : LineAddr g} (hrow : larxRow t.st i = some l) :
    t.st.r1.full = true ∧ t.st.r1.req.opLmiss = true ∧ t.st.r1.req.reserve = true ∧
      t.st.r1.req.firstDw = true ∧ l = getLine t.st.r1.req.realAddr := by
  unfold larxRow at hrow
  split_ifs at hrow with hc
  simp only [Bool.and_eq_true, beq_iff_eq] at hc
  obtain ⟨⟨⟨-, hmiss⟩, hres⟩, hfirst⟩ := hc
  cases hfull : t.st.r1.full with
  | true =>
      simp only [curReq, hfull, if_true, Option.some.injEq] at hmiss hres hfirst hrow
      exact ⟨rfl, hmiss, hres, hfirst, hrow.symm⟩
  | false =>
      rw [curReq_of_not_full hfull] at hmiss hres hfirst
      simp only [r0Request, beq_iff_eq, Bool.or_eq_true, Bool.not_eq_true'] at hmiss hres hfirst
      rw [lookup_of_op hpair hres (Or.inr hmiss) hfirst] at hlook
      exact absurd hlook (by decide)

theorem larxHit_eq_none (hpair : PairsInOrder t.st i) (hlook : larxLookup t.st i = false) :
    larxHit t.st i = none := by
  unfold larxHit
  refine if_neg fun hc => ?_
  simp only [Bool.and_eq_true, beq_iff_eq] at hc
  rw [lookup_of_op hpair hc.1.2 (Or.inl hc.1.1) (Or.inr hc.2)] at hlook
  exact absurd hlook (by decide)

/-! ### Store-conditionals -/

/-- A store-conditional that is merged into an open cycle is the second half of one
that was performed. -/
theorem half_of_merge (h : RsrvInv t) (hpair : PairsInOrder t.st i) (hsound : Sound t.st i)
    (hst : t.st.r1.state = .storeWaitAck) (hm : mergeNow t.st i = true)
    (hres : (curReq t.st i).reserve = true) :
    (curReq t.st i).firstDw = false ∧ t.half = true := by
  simp only [mergeNow, mergeable, hres, Bool.not_true, Bool.false_or, Bool.and_eq_true,
    Bool.not_eq_true'] at hm
  obtain ⟨⟨-, ⟨⟨hstore, -⟩, -⟩, hmore⟩, -⟩ := hm
  have hfirst : (curReq t.st i).firstDw = false := by
    by_contra hfirst
    exact hsound.2.2 ⟨hst, hmore, hstore, hres, by simpa using hfirst⟩
  refine ⟨hfirst, ?_⟩
  cases hfull : t.st.r1.full with
  | true =>
      simp only [curReq, hfull, if_true] at hstore hres hfirst
      exact h.secondHalf hst hfull hstore hres hfirst
  | false =>
      rw [curReq_of_not_full hfull] at hstore hres hfirst
      simp only [r0Request, beq_iff_eq, Bool.or_eq_false_iff, Bool.not_eq_false']
        at hstore hres hfirst
      have hgo : reqGo t.st i = true := reqGo_of_reqOp (by simp [hstore])
      obtain ⟨hs, hr, hl⟩ :=
        (hpair hgo hres).2.2.2.2.2 (load_of_store hstore) hfirst.1 hfirst.2
      exact h.firstHalf hst hfull hs hr hl

/-- How a store-conditional can complete. -/
theorem stcxCompletes_cases (h : RsrvInv t) (hpair : PairsInOrder t.st i)
    (hsound : Sound t.st i) (hc : stcxCompletes t.st i = true) :
    (t.st.r1.state = .idle ∧ idleStcxFail t.st (curReq t.st i) = true) ∨
      (t.st.r1.state = .storeWaitAck ∧ mergeNow t.st i = true ∧
        (curReq t.st i).firstDw = false ∧ t.half = true) ∨
      (t.st.r1.state = .doStcx ∧ (stcxLost t.st || !i.wishboneIn.stall) = true) := by
  simp only [stcxCompletes, Bool.and_eq_true] at hc
  obtain ⟨⟨hret, hstore⟩, hres⟩ := hc
  obtain ⟨op, hl, hs, -, hy⟩ := exists_hasOp_curReq h.mach i
  have hop : op = .store := by simpa [hstore] using hs.symm
  unfold retires at hret
  cases hst : t.st.r1.state with
  | idle =>
      simp only [hst, idleDone, hl, hy, hop, MemAccessRequest.plainStore, hres] at hret
      exact Or.inl ⟨rfl, by simpa using hret⟩
  | reloadWaitAck =>
      -- a row completes load misses and dcbz only
      simp only [hst, reloadMatch, Bool.and_eq_true] at hret
      cases hfull : t.st.r1.full with
      | true =>
          simp only [curReq, hfull, if_true] at hret hres hl
          have hmiss := h.zero hst hfull hret.2.1 hres
          simp [hl, hop] at hmiss
      | false =>
          rw [curReq_of_not_full hfull] at hret hstore
          simp only [r0Request, Bool.and_eq_true, beq_iff_eq] at hret hstore
          have hmiss := hret.2.1.2
          rw [hstore] at hmiss
          exact absurd hmiss (by decide)
  | storeWaitAck =>
      simp only [hst] at hret
      exact Or.inr (Or.inl ⟨rfl, hret, half_of_merge h hpair hsound hst hret hres⟩)
  | ncLoadWaitAck =>
      simp [curReq, h.mach.busy (Or.inl hst), h.other (Or.inl hst)] at hstore
  | doStcx =>
      simp only [hst] at hret
      exact Or.inr (Or.inr ⟨rfl, hret⟩)
  | flushCycle =>
      simp [curReq, h.mach.busy (Or.inr (Or.inr hst)), h.other (Or.inr hst)] at hstore

/-! ### One edge preserves the invariant -/

theorem otherWrite_filter {l : LineAddr g} (ho : otherWrite t.st i l = false)
    (hc : stcxCompletes t.st i = false) (hl : t.afterLarx i = some l) :
    (t.step i).rsrv = some l := by
  simp [RsrvTrace.step, RsrvTrace.nextRsrv, hc, hl, ho]

/-- A reservation that the edge leaves valid, but for a row that sets it, is the
architecture's. -/
theorem afterLarx_of_taken (h : RsrvInv t) (hpair : PairsInOrder t.st i)
    (hsound : Sound t.st i) (hv : (takenRsrv t.st i).valid = true) :
    t.afterLarx i = some (takenRsrv t.st i).addr := by
  unfold RsrvTrace.afterLarx
  cases hlook : larxLookup t.st i with
  | true =>
      obtain ⟨-, hhit, hfresh⟩ := larxHit_of_lookup h hpair hsound hlook hv
      simp [hhit, hfresh, takenRsrv_of_lookup hlook]
  | false =>
      rw [takenRsrv_of_not_lookup hlook] at hv ⊢
      rw [larxHit_eq_none hpair hlook]
      cases hkill : killRsrv t.st with
      | true => simp [hkill] at hv
      | false =>
          simp only [hkill, Bool.false_eq_true, if_false] at hv ⊢
          have hold : t.rsrv = some t.st.r1.reservation.addr :=
            (h.valid hv).resolve_right (by simp [hkill])
          cases hrow : larxRow t.st i with
          | none => simp [hold]
          | some l =>
              obtain ⟨hfull, hmiss, hres, hfirst, hl⟩ := full_of_larxRow hpair hlook hrow
              simp [h.addr hfull hmiss hres hfirst, hl]

/-- A row that sets the reservation completes the load-reserve in `r1`. -/
theorem row_sets (h : RsrvInv t) (hsound : Sound t.st i) (hst : t.st.r1.state = .reloadWaitAck)
    (hset : (i.wishboneIn.ack && reloadMatch t.st i && t.st.r1.req.reserve &&
      t.st.r1.req.firstDw) = true) :
    stcxCompletes t.st i = false ∧ larxLookup t.st i = false ∧
      t.afterLarx i = some t.st.r1.reservation.addr := by
  simp only [Bool.and_eq_true] at hset
  obtain ⟨⟨⟨hack, hm⟩, hres⟩, hfirst⟩ := hset
  have hfull : t.st.r1.full = true := by
    by_contra hfull
    exact hsound.1 ⟨hst, by simpa using hfull, hack, hm, hres, hfirst⟩
  have hcur : curReq t.st i = t.st.r1.req := by simp [curReq, hfull]
  have hreload : t.st.r1.req.hitReload = true := by
    have hm' := hm
    simp only [reloadMatch, hcur, Bool.and_eq_true] at hm'
    exact hm'.1
  have hmiss := h.zero hst hfull hreload hres
  have hgo : reqGo t.st i = false := by simp [reqGo, r0Valid, hfull]
  have hstore : t.st.r1.req.opStore = false := by
    obtain ⟨op, -, hl, hs, -⟩ := h.mach.slow hfull
    cases op <;> simp_all
  refine ⟨by simp [stcxCompletes, hcur, hstore], by simp [larxLookup, hgo], ?_⟩
  have hhit : larxHit t.st i = none := by simp [larxHit, reqOp, hgo]
  have hrow : larxRow t.st i = some (getLine t.st.r1.req.realAddr) := by
    simp [larxRow, hst, hack, hm, hcur, hmiss, hres, hfirst]
  simp [RsrvTrace.afterLarx, hhit, hrow, h.addr hfull hmiss hres hfirst]

/-- The state machine leaves a valid reservation alone only if no
store-conditional completes. -/
theorem not_stcxCompletes_of_valid (h : RsrvInv t) (hpair : PairsInOrder t.st i)
    (hsound : Sound t.st i) (hv : (takenRsrv t.st i).valid = true)
    (hkeep : t.st.r1.state = .doStcx → (stcxLost t.st || !i.wishboneIn.stall) = false) :
    stcxCompletes t.st i = false := by
  by_contra hc
  rw [Bool.not_eq_false] at hc
  have hlook : larxLookup t.st i = false := by
    by_contra hlook
    rw [Bool.not_eq_false] at hlook
    have hop := (larxHit_of_lookup h hpair hsound hlook hv).1
    have hfull := not_full_of_reqGo (reqGo_of_reqOp (by rw [hop]; decide))
    simp [stcxCompletes, curReq_of_not_full hfull, r0Request, hop] at hc
  rw [takenRsrv_of_not_lookup hlook] at hv
  cases hkill : killRsrv t.st with
  | true => simp [hkill] at hv
  | false =>
      simp only [hkill, Bool.false_eq_true, if_false] at hv
      rcases stcxCompletes_cases h hpair hsound hc with ⟨-, hfail⟩ | ⟨-, -, -, hhalf⟩ | ⟨hst, hd⟩
      · simp [idleStcxFail, hv, hkill] at hfail
      · simp [h.halfRsrv hhalf] at hv
      · simp [hkeep hst] at hd

theorem valid_step_rsrv (h : RsrvInv t) (hpair : PairsInOrder t.st i) (hsound : Sound t.st i)
    (hv : (step t.st i).r1.reservation.valid = true) :
    (t.step i).rsrv = some (step t.st i).r1.reservation.addr ∨
      killRsrv (step t.st i) = true := by
  rw [killRsrv_step _ _ hv]
  cases ho : otherWrite t.st i (step t.st i).r1.reservation.addr with
  | true => exact Or.inr rfl
  | false =>
      left
      rw [step_reservation] at hv ho ⊢
      by_cases hset : t.st.r1.state = .reloadWaitAck ∧ (i.wishboneIn.ack &&
          reloadMatch t.st i && t.st.r1.req.reserve && t.st.r1.req.firstDw) = true
      · obtain ⟨hc, hlook, hl⟩ := row_sets h hsound hset.1 hset.2
        have haddr : (takenRsrv t.st i).addr = t.st.r1.reservation.addr := by
          rw [takenRsrv_of_not_lookup hlook]
          split_ifs <;> rfl
        rw [haddr] at ho ⊢
        exact otherWrite_filter ho hc hl
      · have htaken : (takenRsrv t.st i).valid = true := by
          cases hst : t.st.r1.state with
          | reloadWaitAck =>
              simp only [hst, Bool.or_eq_true (_ && _)] at hv
              exact hv.resolve_left fun hs => hset ⟨hst, hs⟩
          | _ => simp_all
        refine otherWrite_filter ho ?_ (afterLarx_of_taken h hpair hsound htaken)
        apply not_stcxCompletes_of_valid h hpair hsound htaken
        intro hst
        simp only [hst, Bool.and_eq_true, Bool.not_eq_true'] at hv
        exact hv.1

theorem addr_step_rsrv (h : RsrvInv t) (hpair : PairsInOrder t.st i)
    (hf : (step t.st i).r1.full = true) (hmiss : (step t.st i).r1.req.opLmiss = true)
    (hres : (step t.st i).r1.req.reserve = true)
    (hfirst : (step t.st i).r1.req.firstDw = true) :
    (step t.st i).r1.reservation.addr = getLine (step t.st i).r1.req.realAddr := by
  have hreq : (takenReq t.st i).opLmiss = true ∧ (takenReq t.st i).reserve = true ∧
      (takenReq t.st i).firstDw = true ∧
      (step t.st i).r1.req.realAddr = (takenReq t.st i).realAddr := by
    rw [step_req] at hmiss hres hfirst ⊢
    split_ifs at hmiss hres hfirst ⊢ <;> exact ⟨hmiss, hres, hfirst, rfl⟩
  obtain ⟨hmiss, hres, hfirst, haddr⟩ := hreq
  rw [haddr, step_reservation]
  show (takenRsrv t.st i).addr = _
  rcases taken_of_full hf with ⟨hfull, htaken, -⟩ | ⟨-, -, -, htaken, -⟩ <;>
    rw [htaken] at hmiss hres hfirst ⊢
  · have hlook : larxLookup t.st i = false := by simp [larxLookup, reqGo, r0Valid, hfull]
    rw [takenRsrv_of_not_lookup hlook, ← h.addr hfull hmiss hres hfirst]
    split_ifs <;> rfl
  · simp only [r0Request, beq_iff_eq, Bool.or_eq_true, Bool.not_eq_true'] at hmiss hres hfirst
    rw [takenRsrv_of_lookup (lookup_of_op hpair hres (Or.inr hmiss) hfirst)]
    rfl

theorem zero_step_rsrv (h : RsrvInv t) (hst' : (step t.st i).r1.state = .reloadWaitAck)
    (hf : (step t.st i).r1.full = true) (hreload : (step t.st i).r1.req.hitReload = true)
    (hres : (step t.st i).r1.req.reserve = true) : (step t.st i).r1.req.opLmiss = true := by
  obtain ⟨-, hcur, op, -, hop⟩ := curReq_of_full h.mach hf
  rw [step_req] at hreload hres ⊢
  rw [step_state] at hst'
  split_ifs at hreload hres ⊢ with hst
  · simp only [hst] at hst'
    simp only [hcur] at hres ⊢
    rcases idleNext_cases (s := t.st) hop with ⟨hnext, -⟩ | ⟨hnext, -⟩ |
      ⟨-, -, -, hz | hm⟩ | ⟨hnext, -⟩ | ⟨hnext, -⟩
    · simp [hst'] at hnext
    · simp [hst'] at hnext
    · simp [MemAccessRequest.zeroLine, hres] at hz
    · exact hm.2.1
    · simp [hst'] at hnext
    · simp [hst'] at hnext
  · have hst1 : t.st.r1.state = .reloadWaitAck := by
      by_contra hne
      cases hst1 : t.st.r1.state <;> simp only [hst1] at hst' hst hne <;>
        first | contradiction | (split_ifs at hst')
    rcases taken_of_full hf with ⟨hfull, htaken, -⟩ | ⟨-, -, -, htaken, -⟩ <;>
      rw [htaken] at hreload hres ⊢
    · exact h.zero hst1 hfull hreload hres
    · simp only [r0Request, Bool.and_eq_true] at hreload
      exact hreload.2

theorem other_step_rsrv (h : RsrvInv t)
    (hst' : (step t.st i).r1.state = .ncLoadWaitAck ∨ (step t.st i).r1.state = .flushCycle) :
    (step t.st i).r1.req.opStore = false := by
  have hf : (step t.st i).r1.full = true :=
    (machInv_step i h.mach).busy (by rcases hst' with hst' | hst' <;> simp [hst'])
  obtain ⟨-, hcur, op, -, hl, hs, hfl, -⟩ := curReq_of_full h.mach hf
  have hreq : (step t.st i).r1.req.opStore = (curReq t.st i).opStore := by
    rw [step_req, hcur]
    split_ifs <;> rfl
  rw [hreq]
  rw [step_state] at hst'
  cases hst : t.st.r1.state with
  | idle =>
      simp only [hst] at hst'
      unfold idleNext idleStcx MemAccessRequest.plainStore MemAccessRequest.zeroLine at hst'
      by_contra hstore
      rw [Bool.not_eq_false] at hstore
      have hop : op = .store := by simpa [hstore] using hs.symm
      simp only [hl, hfl, hop, hstore] at hst'
      split_ifs at hst' <;> simp_all
  | ncLoadWaitAck =>
      simpa [curReq, h.mach.busy (Or.inl hst)] using h.other (Or.inl hst)
  | flushCycle =>
      simpa [curReq, h.mach.busy (Or.inr (Or.inr hst))] using h.other (Or.inr hst)
  | reloadWaitAck => simp only [hst] at hst'; split_ifs at hst' <;> simp at hst'
  | storeWaitAck => simp only [hst] at hst'; split_ifs at hst' <;> simp at hst'
  | doStcx => simp only [hst] at hst'; split_ifs at hst' <;> simp at hst'

/-! The halves of a store-conditional of a quadword. -/

theorem stcxSucceeds_of_completes (hc : stcxCompletes t.st i = true)
    (hst : t.st.r1.state = .storeWaitAck ∨
      (t.st.r1.state = .doStcx ∧ stcxLost t.st = false)) : stcxSucceeds t.st i = true := by
  have hfail : (step t.st i).r1.stcxFail = false := by
    rw [step_stcxFail]
    rcases hst with hst | ⟨hst, hlost⟩ <;> simp [hst]
    exact hlost
  simp [stcxSucceeds, hc, dOut, hfail]

theorem halfRsrv_step (h : RsrvInv t) (hpair : PairsInOrder t.st i) (hsound : Sound t.st i)
    (hhalf : (t.step i).half = true) : (step t.st i).r1.reservation.valid = false := by
  by_contra hv
  rw [Bool.not_eq_false, step_reservation] at hv
  change t.nextHalf i = true at hhalf
  unfold RsrvTrace.nextHalf at hhalf
  split_ifs at hhalf with hsucc
  · -- a store-conditional was performed, so no reservation is left
    have hc : stcxCompletes t.st i = true := by
      simp only [stcxSucceeds, Bool.and_eq_true] at hsucc
      exact hsucc.1
    have hnot : ∀ hkeep, False := fun hkeep => by
      have htaken : (takenRsrv t.st i).valid = true := hkeep
      refine absurd (not_stcxCompletes_of_valid h hpair hsound htaken fun hst => ?_) (by simp [hc])
      simp only [hst, Bool.and_eq_true, Bool.not_eq_true'] at hv
      exact hv.1
    rcases stcxCompletes_cases h hpair hsound hc with ⟨hst, -⟩ | ⟨hst, -⟩ | ⟨hst, hd⟩
    · exact hnot (by simpa [hst] using hv)
    · exact hnot (by simpa [hst] using hv)
    · simp [hst, hd] at hv
  · simp only [Bool.and_eq_true, Bool.not_eq_true', Bool.or_eq_false_iff] at hhalf
    obtain ⟨⟨hret, hfast⟩, hold⟩ := hhalf
    have hvalid := h.halfRsrv hold
    have htaken : (takenRsrv t.st i).valid = true := by
      cases hst : t.st.r1.state with
      | reloadWaitAck =>
          simp only [retires, hst] at hret
          simpa [hst, hret] using hv
      | _ => simp_all
    cases hlook : larxLookup t.st i with
    | true =>
        have hop := (larxHit_of_lookup h hpair hsound hlook htaken).1
        simp [hop, ReqOp.fast] at hfast
    | false =>
        rw [takenRsrv_of_not_lookup hlook] at htaken
        split_ifs at htaken
        simp [hvalid] at htaken

/-- `half` stays while nothing completes. -/
theorem half_kept (hhalf : t.half = true) (hret : retires t.st i = false)
    (hfast : (reqOp t.st i).fast = false) : (t.step i).half = true := by
  simp [RsrvTrace.step, RsrvTrace.nextHalf, stcxSucceeds, stcxCompletes, hret, hfast, hhalf]

theorem half_of_succeeds (hsucc : stcxSucceeds t.st i = true)
    (hlast : (curReq t.st i).lastDw = false) : (t.step i).half = true := by
  simp [RsrvTrace.step, RsrvTrace.nextHalf, hsucc, hlast]

/-- `STORE_WAIT_ACK` is entered with a store that completes, so a store-conditional
comes from `DO_STCX`. -/
theorem storeWaitAck_step (h : RsrvInv t) (hst' : (step t.st i).r1.state = .storeWaitAck) :
    (t.st.r1.state = .idle ∧ (curReq t.st i).plainStore = true) ∨
      t.st.r1.state = .storeWaitAck ∨
      (t.st.r1.state = .doStcx ∧ stcxLost t.st = false ∧ i.wishboneIn.stall = false) := by
  rw [step_state] at hst'
  cases hst : t.st.r1.state with
  | idle =>
      obtain ⟨op, hop⟩ := exists_hasOp_curReq h.mach i
      simp only [hst] at hst'
      rcases idleNext_cases (s := t.st) hop with ⟨hnext, -⟩ | ⟨-, hp, -⟩ | ⟨hnext, -⟩ |
        ⟨hnext, -⟩ | ⟨hnext, -⟩
      · simp [hst'] at hnext
      · exact Or.inl ⟨rfl, hp⟩
      · simp [hst'] at hnext
      · simp [hst'] at hnext
      · simp [hst'] at hnext
  | storeWaitAck => exact Or.inr (Or.inl rfl)
  | doStcx =>
      simp only [hst] at hst'
      split_ifs at hst' with hlost hstall
      exact Or.inr (Or.inr ⟨rfl, by simpa using hlost, by simpa using hstall⟩)
  | reloadWaitAck => simp only [hst] at hst'; split_ifs at hst'
  | ncLoadWaitAck => simp only [hst] at hst'; split_ifs at hst'
  | flushCycle => simp [hst] at hst'

/-- The last request looked up after the edge. -/
theorem req_step_cases (s : State g) (i : Input) :
    (∃ b, (step s i).r1.req = { curReq s i with hitReload := b }) ∨
      (s.r1.full = false ∧ reqGo s i = false ∧
        ∃ b, (step s i).r1.req = { s.r1.req with hitReload := b }) := by
  have hstep : ∃ b, (step s i).r1.req = { takenReq s i with hitReload := b } := by
    rw [step_req]
    split_ifs
    · exact ⟨true, rfl⟩
    · exact ⟨(takenReq s i).hitReload, rfl⟩
  obtain ⟨b, hb⟩ := hstep
  rw [hb]
  unfold takenReq curReq
  by_cases hf : s.r1.full = true <;> by_cases hgo : reqGo s i = true
  · exact Or.inl ⟨b, by simp [hf]⟩
  · exact Or.inl ⟨b, by simp [hf]⟩
  · exact Or.inl ⟨b, by simp [hf, hgo]⟩
  · exact Or.inr ⟨by simpa using hf, by simpa using hgo, b, by simp [hf, hgo]⟩

theorem firstHalf_step (h : RsrvInv t) (hst' : (step t.st i).r1.state = .storeWaitAck)
    (hf : (step t.st i).r1.full = false) (hstore : (step t.st i).r1.req.opStore = true)
    (hres : (step t.st i).r1.req.reserve = true) (hlast : (step t.st i).r1.req.lastDw = false) :
    (t.step i).half = true := by
  rcases req_step_cases t.st i with ⟨b, hb⟩ | ⟨hfull, hgo, b, hb⟩ <;>
    rw [hb] at hstore hres hlast <;> dsimp only at hstore hres hlast
  · -- the store-conditional is the one that completes at this edge
    have htaken : takenFull t.st i = true := takenFull_of_any h.mach (by simp [hstore])
    have hret : retires t.st i = true := by
      rw [step_full, htaken] at hf
      simpa using hf
    have hc : stcxCompletes t.st i = true := by simp [stcxCompletes, hret, hstore, hres]
    refine half_of_succeeds (stcxSucceeds_of_completes hc ?_) hlast
    rcases storeWaitAck_step h hst' with ⟨-, hp⟩ | hst | ⟨hst, hlost, -⟩
    · simp [MemAccessRequest.plainStore, hres] at hp
    · exact Or.inl hst
    · exact Or.inr ⟨hst, hlost⟩
  · -- nothing is looked up
    have hop : reqOp t.st i = .none := by simp [reqOp, hgo]
    have hst : t.st.r1.state = .storeWaitAck := by
      rcases storeWaitAck_step h hst' with ⟨-, hp⟩ | hst | ⟨hst, -⟩
      · simp [MemAccessRequest.plainStore, curReq_of_not_full hfull, r0Request, hop] at hp
      · exact hst
      · simp [h.mach.busy (Or.inr (Or.inl hst))] at hfull
    refine half_kept (h.firstHalf hst hfull hstore hres hlast) ?_ (by simp [hop, ReqOp.fast])
    simp [retires, hst, mergeNow, mergeable, curReq_of_not_full hfull, r0Request, hop]

theorem secondHalf_step (h : RsrvInv t) (hpair : PairsInOrder t.st i)
    (hst' : (step t.st i).r1.state = .storeWaitAck) (hf : (step t.st i).r1.full = true)
    (hstore : (step t.st i).r1.req.opStore = true) (hres : (step t.st i).r1.req.reserve = true)
    (hfirst : (step t.st i).r1.req.firstDw = false) : (t.step i).half = true := by
  obtain ⟨hret, hcur, -⟩ := curReq_of_full h.mach hf
  have hst : t.st.r1.state = .storeWaitAck := by
    rcases storeWaitAck_step h hst' with ⟨hst, hp⟩ | hst | ⟨hst, -, hstall⟩
    · simp [retires, hst, idleDone, hp] at hret
    · exact hst
    · simp [retires, hst, hstall] at hret
  rw [step_req, if_neg (by simp [hst])] at hstore hres hfirst
  rcases taken_of_full hf with ⟨hfull, htaken, -⟩ | ⟨hfull, hgo, -, htaken, -⟩ <;>
    rw [htaken] at hstore hres hfirst
  · have hop : reqOp t.st i = .none := by simp [reqOp, reqGo, r0Valid, hfull]
    exact half_kept (h.secondHalf hst hfull hstore hres hfirst) hret (by simp [hop, ReqOp.fast])
  · simp only [r0Request, beq_iff_eq, Bool.or_eq_false_iff, Bool.not_eq_false']
      at hstore hres hfirst
    obtain ⟨hs, hr, hl⟩ := (hpair hgo hres).2.2.2.2.2 (load_of_store hstore) hfirst.1 hfirst.2
    exact half_kept (h.firstHalf hst hfull hs hr hl) hret (by simp [hstore, ReqOp.fast])

theorem rsrvInv_step (hpair : PairsInOrder t.st i) (hsound : Sound t.st i) (h : RsrvInv t) :
    RsrvInv (t.step i) where
  mach := machInv_step i h.mach
  closed := closed_step_rsrv h
  tags := fun _ hix => tags_step_rsrv t.st i hix
  valid := valid_step_rsrv h hpair hsound
  addr := addr_step_rsrv h hpair
  zero := zero_step_rsrv h
  other := other_step_rsrv h
  halfRsrv := halfRsrv_step h hpair hsound
  firstHalf := firstHalf_step h
  secondHalf := secondHalf_step h hpair

theorem rsrvInv_init {s : State g} (hs : Quiet s) : RsrvInv (.init s) where
  mach := machInv_of_quiet hs
  closed := fun _ => hs.cyc
  tags := by simp [RsrvTrace.init, hs.snoopValid]
  valid := by simp [RsrvTrace.init, hs.reservation]
  addr := by simp [RsrvTrace.init, hs.full]
  zero := by simp [RsrvTrace.init, hs.state]
  other := by simp [RsrvTrace.init, hs.state]
  halfRsrv := by simp [RsrvTrace.init]
  firstHalf := by simp [RsrvTrace.init, hs.state]
  secondHalf := by simp [RsrvTrace.init, hs.state]

theorem stcxJustified_of_inv (h : RsrvInv t) (hpair : PairsInOrder t.st i)
    (hsound : Sound t.st i) : StcxJustified t i := by
  intro hc hperf
  simp only [dOut, wishboneOut, Bool.not_eq_true'] at hperf
  rw [step_stcxFail, step_cyc, step_stb] at hperf
  rcases stcxCompletes_cases h hpair hsound hc with ⟨hst, hfail⟩ | ⟨-, -, hhalf⟩ | ⟨hst, hd⟩
  · -- it fails in `IDLE`, where no cycle is open
    have hidle : (curReq t.st i).plainStore = false ∧ (curReq t.st i).zeroLine = false ∧
        idleStcx t.st (curReq t.st i) = false ∧ (curReq t.st i).opLmiss = false := by
      obtain ⟨op, hl, hs, -⟩ := exists_hasOp_curReq h.mach i
      simp only [idleStcxFail, Bool.and_eq_true] at hfail
      have hop : op = .store := by simpa [hfail.1.1] using hs.symm
      refine ⟨?_, ?_, ?_, by simp [hl, hop]⟩
      · simp [MemAccessRequest.plainStore, hfail.1.2]
      · simp [MemAccessRequest.zeroLine, hfail.1.2]
      · simp only [idleStcx, hfail.2, Bool.not_true, Bool.and_false]
    simp [hst, hfail, hidle, h.closed (Or.inl hst)] at hperf
  · exact Or.inr hhalf
  · cases hlost : stcxLost t.st with
    | true => simp [hst, hlost] at hperf
    | false =>
        simp only [stcxLost, Bool.or_eq_false_iff, Bool.not_eq_false', bne_eq_false_iff_eq] at hlost
        obtain ⟨⟨hvalid, hkill⟩, hline⟩ := hlost
        have hcur : curReq t.st i = t.st.r1.req := by
          simp [curReq, h.mach.busy (Or.inr (Or.inl hst))]
        rw [hcur, hline]
        exact Or.inl ((h.valid hvalid).resolve_right (by simp [hkill]))

end Step

/-! ## Every run -/

/-- In every run from reset in which loadstore1 sends the halves of a quadword in
order and none of the three things of `Sound` happens, a store-conditional is
performed only with the reservation. -/
theorem stcxJustified_of_sound {s : State g} (hs : Quiet s) (is : List Input)
    (hok : Clocked.Along RsrvTrace.step (fun t i => PairsInOrder t.st i ∧ Sound t.st i)
      (.init s) is) :
    Clocked.Along RsrvTrace.step StcxJustified (.init s) is :=
  hok.strengthen (fun _ _ ⟨hpair, hsound⟩ hinv => rsrvInv_step hpair hsound hinv)
    (fun _ _ hinv ⟨hpair, hsound⟩ => stcxJustified_of_inv hinv hpair hsound) (rsrvInv_init hs)

def larxReq (addr : BitVec 64) : Loadstore1ToDcache :=
  { loadReq addr with reserve := true, atomicFirst := true, atomicLast := true }

def stcxReq (addr : BitVec 64) : Loadstore1ToDcache :=
  { storeReq addr with reserve := true, atomicFirst := true, atomicLast := true }

/-- A load-reserve that misses and its store-conditional. -/
def larxThenStcx : List Input :=
  [Input.send (larxReq 0), .idle, .idle] ++ List.replicate 8 (Input.acked 0) ++
    [Input.send (stcxReq 0), .idle, .idle, .idle, .acked 0]

theorem stcxJustified_of_sound_larxThenStcx :
    (dOut (Clocked.run step (State.cold .default) (larxThenStcx.take 14))).valid = true ∧
      (dOut (Clocked.run step (State.cold .default) (larxThenStcx.take 14))).storeDone = true ∧
      Clocked.Along RsrvTrace.step StcxJustified (.init (State.cold .default)) larxThenStcx :=
  ⟨by decide +kernel, by decide +kernel,
    stcxJustified_of_sound (afterReset_cold _).toQuiet larxThenStcx (by decide +kernel)⟩

/-- A cycle in which another master has the bus. -/
def Input.stalled (i : Input) : Input :=
  { i with wishboneIn.stall := true }

/-- With line 0 in the cache and the bus busy, a touch of the next line starts a
reload, a load-reserve of line 0 hits, and the other master writes to line 0.  When the
bus is free a load from the next line is looked up as its row arrives. -/
def lostReservation : List Input :=
  [Input.send (loadReq 0), .idle, .idle] ++ List.replicate 8 (Input.acked 0) ++
    [Input.send (touchReq 0x40), .idle, (Input.send (larxReq 0)).stalled, Input.idle.stalled,
      { Input.idle.stalled with snoopIn := ⟨0, 0, BitVec.allOnes 8, true, true, true⟩ },
      Input.idle.stalled, .send (loadReq 0x40)] ++ List.replicate 8 (Input.acked 0) ++
    [Input.send (stcxReq 0), .idle]

/-- The row sets the reservation again, and the store-conditional is performed. -/
theorem not_stcxJustified_lostReservation :
    ¬StcxJustified (Clocked.run RsrvTrace.step (.init (State.cold .default)) lostReservation)
      .idle := by
  intro h
  have hor := h (by decide +kernel) (Or.inl (by decide +kernel))
  exact absurd hor (by decide +kernel)

end Microwatt.Dcache
