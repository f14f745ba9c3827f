import Microwatt.Dcache.Bus

/-!
# One completion for each request, on the port it came from

An observer of the ports keeps the list `waiting` of the ports from which requests
have been accepted that have not completed.  Requests complete in order, so a
completion pulse on a port must find that port at the head of the list.

Two things are by design not completions.  A TLB probe only looks at the DTLB.  And
when a loadstore1 request has ended in `d_out.error`, the request behind it in `r0`
is dropped (`go` needs `r1.ls_error` to be clear); loadstore1 sends it again when it
knows what became of the first.

The source of a request that is completed by a row of a reload is read from
`r1.mmu_req`, which follows `r0` with a delay of one cycle.  For a request in `r1`
that is the right one; for a request that is still in `r0` when its row arrives it is
the source of the request before it.  `KnownSource` leaves this case out.
-/

namespace Microwatt.Dcache

variable {g : Geometry}

/-- The two sources of requests. -/
inductive Port where
  | ls
  | mmu
deriving DecidableEq

/-- The port with the given `mmu_req` flag. -/
def port (mmuReq : Bool) : Port :=
  if mmuReq then .mmu else .ls

/-- A TLB probe, which gets no completion. -/
def isProbe (p : Loadstore1ToDcache) : Bool :=
  p.tlbProbe && !p.touch && !p.sync

/-- The request on the ports that is to be completed, if any. -/
def offered (i : Input) : List Port :=
  if i.mIn.valid then [.mmu] else if i.dIn.valid && !isProbe i.dIn then [.ls] else []

/-- The request that is accepted at this edge. -/
def accepted (s : State g) (i : Input) : List Port :=
  if !stallOut s && !i.dIn.hold then offered i else []

/-- The completion pulses that the ports show. -/
def pulses (s : State g) : List Port :=
  (if (dOut s).valid then [Port.ls] else []) ++ (if (dOut s).error then [Port.ls] else []) ++
    (if (mOut s).done then [Port.mmu] else []) ++ if (mOut s).err then [Port.mmu] else []

/-- The dcache with the list of requests that wait for completion, the number of
those that have left the list, and the acks that the slave owes. -/
structure PortTrace (g : Geometry) where
  st : State g
  waiting : List Port
  left : Nat
  owed : Nat

namespace PortTrace

def init (s : State g) : PortTrace g where
  st := s
  waiting := []
  left := 0
  owed := 0

/-- The requests that still wait after the pulses of this cycle.  An error drops
the request behind it, unless the pipeline is held. -/
def afterPulses (t : PortTrace g) (i : Input) : List Port :=
  if (dOut t.st).error && !i.dIn.hold then [] else t.waiting.drop (pulses t.st).length

def step (t : PortTrace g) (i : Input) : PortTrace g where
  st := Dcache.step t.st i
  waiting := t.afterPulses i ++ accepted t.st i
  left := t.left + (t.waiting.length - (t.afterPulses i).length)
  owed := owedNext t.st i t.owed

end PortTrace

/-- There is at most one pulse, and it is for the request that has waited
longest. -/
def PulseIsDue (t : PortTrace g) : Prop :=
  pulses t.st = t.waiting.take (pulses t.st).length ∧ (pulses t.st).length ≤ 1

instance (t : PortTrace g) : Decidable (PulseIsDue t) :=
  inferInstanceAs (Decidable (_ ∧ _))

/-- A request whose row of a reload arrives while it is still in `r0` has the same
source as the request looked up before it. -/
def KnownSource (s : State g) (i : Input) : Prop :=
  s.r1.state = .reloadWaitAck → s.r1.full = false → i.wishboneIn.ack = true →
    reqHitReload s i = true → (reqRow s).rowOfLine = s.r1.storeRow.rowOfLine →
      s.fast.mmuReq = s.r0.mmuReq

instance (s : State g) (i : Input) : Decidable (KnownSource s i) :=
  inferInstanceAs (Decidable (_ → _ → _ → _ → _ → _))

/-! ## What completes at an edge -/

section Edge

variable {s : State g} {i : Input}

/-- The requests that complete at once. -/
def ReqOp.fast : ReqOp → Bool
  | .bad | .loadHit | .nop => true
  | _ => false

theorem curReq_of_not_full (hf : s.r1.full = false) : curReq s i = r0Request s i := by
  simp [curReq, hf]

theorem not_full_of_reqGo (hgo : reqGo s i = true) : s.r1.full = false := by
  simp only [reqGo, r0Valid, Bool.and_eq_true, Bool.not_eq_true'] at hgo
  exact hgo.1.1.2

/-- A request with one of the slow operations is in `r1` or being taken. -/
theorem takenFull_of_any (h : MachInv s)
    (hany : ((curReq s i).opLmiss || (curReq s i).opStore || (curReq s i).opFlush ||
      (curReq s i).opSync) = true) : takenFull s i = true := by
  obtain ⟨op, hop⟩ := exists_hasOp_curReq h i
  refine takenFull_of_hasOp hop ?_
  obtain ⟨hl, hs, hf, hy⟩ := hop
  rw [hl, hs, hf, hy] at hany
  cases op <;> simp_all [ReqOp.slow]

/-- What the state machine completes is a request that it has or takes. -/
theorem takenFull_of_retires (h : MachInv s) (hr : retires s i = true) :
    takenFull s i = true := by
  have hkept : s.r1.full = true → takenFull s i = true := fun hf => by simp [takenFull, hf]
  unfold retires at hr
  cases hst : s.r1.state with
  | idle =>
      simp only [hst, idleDone, MemAccessRequest.plainStore, idleStcxFail] at hr
      apply takenFull_of_any h
      cases hl : (curReq s i).opLmiss <;> cases hs : (curReq s i).opStore <;>
        cases hy : (curReq s i).opSync <;> simp_all
  | reloadWaitAck =>
      simp only [hst, reloadMatch, Bool.and_eq_true] at hr
      cases hf : s.r1.full with
      | true => exact hkept hf
      | false =>
          have hreload := hr.2.1
          rw [curReq_of_not_full hf] at hreload
          simp only [r0Request, Bool.and_eq_true] at hreload
          apply takenFull_of_any h
          rw [curReq_of_not_full hf]
          simp [r0Request, hreload.2]
  | storeWaitAck =>
      simp only [hst, mergeNow, mergeable, Bool.and_eq_true] at hr
      apply takenFull_of_any h
      simp [hr.1.2.1.1.1]
  | ncLoadWaitAck => exact hkept (h.busy (Or.inl hst))
  | doStcx => exact hkept (h.busy (Or.inr (Or.inl hst)))
  | flushCycle => exact hkept (h.busy (Or.inr (Or.inr hst)))

/-- A request that completes at once is not taken into `r1`. -/
theorem not_takenFull_of_fast (hop : (reqOp s i).fast = true) : takenFull s i = false := by
  have hgo : reqGo s i = true := reqGo_of_reqOp (by cases h : reqOp s i <;> simp_all [ReqOp.fast])
  have hf := not_full_of_reqGo hgo
  cases h : reqOp s i <;> simp_all [ReqOp.fast, takenFull, reqSlow]

end Edge

/-! ## The invariant -/

/-- What `stage_0` makes of a request from the MMU. -/
def IsMmuRead (p : Loadstore1ToDcache) : Prop :=
  p.load = true ∧ p.sync = false ∧ p.touch = false ∧ p.flush = false ∧ p.tlbProbe = false

/-- What holds of the sources of the requests, misrouted completions or not. -/
structure SourceInv (s : State g) : Prop where
  mach : MachInv s
  mmuRead : s.r0Full = true → s.r0.mmuReq = true → IsMmuRead s.r0.req
  /-- A request from the MMU in `r1` is a load miss. -/
  mmuMiss : s.r1.full = true → s.r1.req.mmuReq = true →
    s.r1.req.HasOp .loadMiss ∧ s.r1.req.touch = false
  served : s.r1.state = .doStcx ∨ s.r1.state = .flushCycle → s.r1.req.mmuReq = false
  source : s.r1.full = true → s.fast.mmuReq = s.r1.req.mmuReq
  error : s.fast.lsError = true → s.r1.full = false

structure PortInv (t : PortTrace g) : Prop extends SourceInv t.st where
  waiting : t.waiting = pulses t.st ++ (if t.st.r1.full then [port t.st.r1.req.mmuReq] else []) ++
    if t.st.r0Full && !isProbe t.st.r0.req then [port t.st.r0.mmuReq] else []
  onePulse : (pulses t.st).length ≤ 1

section Step

variable {s : State g} {t : PortTrace g} {i : Input}

theorem r0Full_of_reqGo (hgo : reqGo s i = true) : s.r0Full = true := by
  simp only [reqGo, r0Valid, Bool.and_eq_true] at hgo
  exact hgo.1.1.1

/-- A request from the MMU that is looked up is a load. -/
theorem reqOp_mmu (h : SourceInv s) (i : Input) (hm : s.r0.mmuReq = true) :
    reqOp s i = .none ∨
      (s.r0.req.touch = false ∧
        (reqOp s i = .bad ∨ reqOp s i = .loadHit ∨ reqOp s i = .loadMiss)) := by
  cases hgo : reqGo s i with
  | false => exact Or.inl (by simp [reqOp, hgo])
  | true =>
      obtain ⟨hload, hsync, htouch, hflush, hprobe⟩ := h.mmuRead (r0Full_of_reqGo hgo) hm
      refine Or.inr ⟨htouch, ?_⟩
      unfold reqOp
      simp only [hgo, hload, hsync, htouch, hflush, hprobe]
      split_ifs <;> simp_all

/-- A request from the MMU asks for nothing but a load. -/
theorem mmu_curReq (h : SourceInv s) (i : Input) (hm : (curReq s i).mmuReq = true) :
    (curReq s i).opStore = false ∧ (curReq s i).opFlush = false ∧
      (curReq s i).opSync = false ∧
      ((curReq s i).opLmiss = true → (curReq s i).touch = false) := by
  cases hf : s.r1.full with
  | true =>
      rw [curReq, if_pos hf] at hm ⊢
      obtain ⟨⟨-, hs, hfl, hy⟩, htouch⟩ := h.mmuMiss hf hm
      exact ⟨hs, hfl, hy, fun _ => htouch⟩
  | false =>
      rw [curReq_of_not_full hf] at hm ⊢
      rcases reqOp_mmu h i hm with hop | ⟨htouch, hop⟩
      · simp [r0Request, hop]
      · rcases hop with hop | hop | hop <;> simp [r0Request, hop, htouch]

/-- The state machine completes a request on the port it came from. -/
theorem retires_port (h : SourceInv s) (hk : KnownSource s i) :
    retiresLs s i = (retires s i && !(curReq s i).mmuReq) ∧
      retiresMmu s i = (retires s i && (curReq s i).mmuReq) := by
  have hkept : s.r1.full = true → (curReq s i).mmuReq = s.fast.mmuReq := by
    intro hf
    rw [curReq, if_pos hf, h.source hf]
  have hmmu := mmu_curReq h i
  unfold retires retiresLs retiresMmu
  cases hst : s.r1.state with
  | idle =>
      simp only [idleDone, MemAccessRequest.plainStore, idleStcxFail]
      cases hm : (curReq s i).mmuReq with
      | false => simp
      | true =>
          obtain ⟨hs, -, hy, htouch⟩ := hmmu hm
          cases hl : (curReq s i).opLmiss with
          | false => simp [hs, hy]
          | true => simp [hs, hy, htouch hl]
  | reloadWaitAck =>
      cases hret : (i.wishboneIn.ack && reloadMatch s i) with
      | false => simp
      | true =>
          have hsrc : (curReq s i).mmuReq = s.fast.mmuReq := by
            cases hf : s.r1.full with
            | true => exact hkept hf
            | false =>
                rw [Bool.and_eq_true] at hret
                obtain ⟨hack, hmatch⟩ := hret
                rw [reloadMatch, curReq_of_not_full hf] at hmatch
                simp only [r0Request, getRow_ra, getRowOfLine, Bool.and_eq_true,
                  beq_iff_eq] at hmatch
                rw [curReq_of_not_full hf]
                exact (hk hst hf hack hmatch.1.1 hmatch.2.symm).symm
          simp [hsrc]
  | storeWaitAck =>
      cases hm : (curReq s i).mmuReq with
      | false => simp
      | true => simp [mergeNow, mergeable, (hmmu hm).1]
  | ncLoadWaitAck => simp [hkept (h.mach.busy (Or.inl hst))]
  | doStcx =>
      have hf := h.mach.busy (Or.inr (Or.inl hst))
      simp [curReq, hf, h.served (Or.inl hst)]
  | flushCycle =>
      have hf := h.mach.busy (Or.inr (Or.inr hst))
      simp [curReq, hf, h.served (Or.inr hst)]

/-- The pulses after an edge are those of the request that is completed at it. -/
theorem pulses_step (h : SourceInv s) (hk : KnownSource s i) :
    pulses (step s i) =
      (if (reqOp s i).fast then [port s.r0.mmuReq] else []) ++
        if retires s i then [port (curReq s i).mmuReq] else [] := by
  obtain ⟨hls, hmmu⟩ := retires_port h hk
  have hexcl : (reqOp s i).fast = true → retires s i = false := by
    intro hfast
    by_contra hr
    have htaken := takenFull_of_retires h.mach (by simpa using hr)
    rw [not_takenFull_of_fast hfast] at htaken
    exact absurd htaken (by decide)
  have hnop : reqOp s i = .nop → s.r0.mmuReq = false := by
    intro hop
    by_contra hm
    have := reqOp_mmu h i (by simpa using hm)
    simp [hop] at this
  unfold pulses dOut mOut
  simp only [step_lsValid, step_mmuDone, hls, hmmu]
  have herr : (step s i).fast.lsError = (reqOp s i == .bad && !s.r0.mmuReq) := rfl
  have herr' : (step s i).fast.mmuError = (reqOp s i == .bad && s.r0.mmuReq) := rfl
  rw [herr, herr']
  cases hop : reqOp s i <;> cases hm : s.r0.mmuReq <;>
    cases hret : retires s i <;> cases hc : (curReq s i).mmuReq <;>
    simp_all [ReqOp.fast, port]

/-- The request in `r0` that waits for completion. -/
def inR0 (s : State g) : List Port :=
  if s.r0Full && !isProbe s.r0.req then [port s.r0.mmuReq] else []

/-- The request in `r1`. -/
def inR1 (s : State g) : List Port :=
  if s.r1.full then [port s.r1.req.mmuReq] else []

theorem inR0_step (s : State g) (i : Input) :
    inR0 (Dcache.step s i) = if !s.r1.full && !i.dIn.hold then offered i else inR0 s := by
  simp only [inR0, Dcache.step, stage0Full, stage0]
  by_cases hgo : (!s.r1.full && !i.dIn.hold) = true
  · rw [if_pos hgo, if_pos hgo, if_pos hgo]
    cases hm : i.mIn.valid with
    | true => simp [stage0In, offered, hm, isProbe, Loadstore1ToDcache.init, port]
    | false => simp [stage0In, offered, hm, isProbe, port]
  · rw [if_neg hgo, if_neg hgo, if_neg hgo]
    cases s.r0.dValid <;> simp [isProbe]

/-- A request that is looked up and not a probe is completed or taken into `r1`. -/
theorem inR0_of_reqGo (hgo : reqGo s i = true) :
    inR0 s = if (reqOp s i).fast || (reqOp s i).slow then [port s.r0.mmuReq] else [] := by
  have hfull := r0Full_of_reqGo hgo
  have hprobe : ((reqOp s i).fast || (reqOp s i).slow) = !isProbe s.r0.req := by
    unfold reqOp isProbe
    rw [if_pos hgo]
    split_ifs <;> simp_all [ReqOp.fast, ReqOp.slow]
  rw [inR0, hfull, hprobe]
  rfl

/-- A request that leaves `r1`, or is looked up in `r0`, is completed or stays in
`r1`. -/
theorem pulses_append_inR1 (h : SourceInv s) (hk : KnownSource s i) :
    pulses (step s i) ++ inR1 (step s i) =
      if s.r1.full then inR1 s else if reqGo s i then inR0 s else [] := by
  have hreq : (step s i).r1.req.mmuReq = (takenReq s i).mmuReq := by
    rw [step_req]
    split_ifs <;> rfl
  rw [pulses_step h hk, inR1, step_full, hreq]
  cases hf : s.r1.full with
  | true =>
      have hop : reqOp s i = .none := by
        unfold reqOp reqGo r0Valid
        simp [hf]
      have htaken : takenFull s i = true := by simp [takenFull, hf]
      have hcur : curReq s i = s.r1.req := by simp [curReq, hf]
      have hreq : takenReq s i = s.r1.req := by simp [takenReq, hf]
      rw [hop, htaken, hcur, hreq, inR1, hf]
      cases retires s i <;> simp [ReqOp.fast]
  | false =>
      cases hgo : reqGo s i with
      | false =>
          have hop : reqOp s i = .none := by simp [reqOp, hgo]
          have htaken : takenFull s i = false := by simp [takenFull, hf, hgo]
          have hret : retires s i = false := by
            by_contra hr
            rw [takenFull_of_retires h.mach (by simpa using hr)] at htaken
            exact absurd htaken (by decide)
          simp [hop, htaken, hret, ReqOp.fast]
      | true =>
          have htaken : takenFull s i = (reqOp s i).slow := by
            simp only [takenFull, hf, hgo, reqSlow]
            cases reqOp s i <;> rfl
          have hcur : (curReq s i).mmuReq = s.r0.mmuReq := by
            rw [curReq_of_not_full hf]
            rfl
          have hreq : (takenReq s i).mmuReq = s.r0.mmuReq := by
            simp [takenReq, hf, hgo, r0Request]
          have hret : (reqOp s i).slow = false → retires s i = false := by
            intro hslow
            by_contra hr
            rw [takenFull_of_retires h.mach (by simpa using hr)] at htaken
            rw [hslow] at htaken
            exact absurd htaken (by decide)
          rw [inR0_of_reqGo hgo, htaken, hcur, hreq]
          cases hop : reqOp s i <;> cases hr : retires s i <;>
            simp_all [ReqOp.fast, ReqOp.slow]

theorem waiting_step_ports (h : PortInv t) (hk : KnownSource t.st i) :
    (t.step i).waiting = pulses (Dcache.step t.st i) ++ inR1 (Dcache.step t.st i) ++
      inR0 (Dcache.step t.st i) := by
  rw [pulses_append_inR1 h.toSourceInv hk, inR0_step]
  have hw : t.waiting = pulses t.st ++ inR1 t.st ++ inR0 t.st := h.waiting
  have hdrop : t.waiting.drop (pulses t.st).length = inR1 t.st ++ inR0 t.st := by
    rw [hw, List.append_assoc, List.drop_left]
  simp only [PortTrace.step, PortTrace.afterPulses, hdrop, dOut, accepted, stallOut]
  rcases Bool.eq_false_or_eq_true t.st.r1.full with hf | hf
  · have herr : t.st.fast.lsError = false := by
      by_contra he
      rw [h.error (by simpa using he)] at hf
      exact absurd hf (by decide)
    simp [hf, herr]
  · have hnone : inR1 t.st = [] := by simp [inR1, hf]
    rw [hnone]
    rcases Bool.eq_false_or_eq_true i.dIn.hold with hh | hh
    · have hgo : reqGo t.st i = false := by simp [reqGo, r0Valid, hh]
      simp [hgo, hf, hh]
    · rcases Bool.eq_false_or_eq_true t.st.fast.lsError with he | he
      · have hgo : reqGo t.st i = false := by simp [reqGo, he]
        simp [hgo, hf, hh, he]
      · rcases Bool.eq_false_or_eq_true t.st.r0Full with hr0 | hr0
        · have hgo : reqGo t.st i = true := by simp [reqGo, r0Valid, he, hh, hf, hr0]
          simp [hgo, hf, hh, he]
        · have hgo : reqGo t.st i = false := by simp [reqGo, r0Valid, hr0]
          simp [hgo, hf, hh, he, inR0, hr0]

theorem onePulse_step (h : PortInv t) (hk : KnownSource t.st i) :
    (pulses (Dcache.step t.st i)).length ≤ 1 := by
  have hle := congrArg List.length (pulses_append_inR1 h.toSourceInv hk)
  rw [List.length_append] at hle
  have hone : (if t.st.r1.full then inR1 t.st else if reqGo t.st i then inR0 t.st else []).length
      ≤ 1 := by
    unfold inR1 inR0
    split_ifs <;> simp
  omega

theorem mmuRead_step (h : SourceInv s) (hf : (step s i).r0Full = true)
    (hm : (step s i).r0.mmuReq = true) : IsMmuRead (step s i).r0.req := by
  simp only [Dcache.step, stage0, stage0Full] at hf hm ⊢
  by_cases hgo : (!s.r1.full && !i.dIn.hold) = true
  · rw [if_pos hgo] at hm ⊢
    cases hv : i.mIn.valid with
    | true => simp [stage0In, hv, IsMmuRead, Loadstore1ToDcache.init]
    | false => simp [stage0In, hv] at hm
  · rw [if_neg hgo] at hf hm ⊢
    have hold : IsMmuRead s.r0.req := by
      apply h.mmuRead hf
      cases hd : s.r0.dValid <;> simpa [hd] using hm
    cases s.r0.dValid <;> exact hold

/-- The request that stays in `r1`. -/
theorem mmuMiss_step (h : SourceInv s) (hf : (step s i).r1.full = true)
    (hm : (step s i).r1.req.mmuReq = true) :
    (step s i).r1.req.HasOp .loadMiss ∧
      (step s i).r1.req.touch = false := by
  obtain ⟨-, htaken, op, hslow, hop⟩ := curReq_of_full h.mach hf
  have hcur : (curReq s i).mmuReq = true := by
    rw [step_req, htaken] at hm
    split_ifs at hm <;> exact hm
  obtain ⟨hs, hfl, hy, htouch⟩ := mmu_curReq h i hcur
  have hmiss : (curReq s i).HasOp .loadMiss ∧ (curReq s i).touch = false := by
    obtain ⟨hl, hs', hfl', hy'⟩ := hop
    have hlmiss : op = .loadMiss := by cases op <;> simp_all [ReqOp.slow]
    rw [hlmiss] at hl hs' hfl' hy'
    exact ⟨⟨hl, hs', hfl', hy'⟩, htouch (by simp [hl])⟩
  rw [step_req, htaken]
  split_ifs <;> exact hmiss

theorem served_step (h : SourceInv s)
    (hst' : (step s i).r1.state = .doStcx ∨
      (step s i).r1.state = .flushCycle) :
    (step s i).r1.req.mmuReq = false := by
  have hf := busy_step h.mach (i := i) (by tauto)
  obtain ⟨-, htaken, -⟩ := curReq_of_full h.mach hf
  have hreq : (step s i).r1.req.mmuReq = (curReq s i).mmuReq := by
    rw [step_req, htaken]
    split_ifs <;> rfl
  rw [hreq]
  rw [step_state] at hst'
  cases hst : s.r1.state with
  | idle =>
      by_contra hm
      obtain ⟨hs, hfl, -, -⟩ := mmu_curReq h i (by simpa using hm)
      simp only [hst, idleNext, idleStcx, MemAccessRequest.plainStore, MemAccessRequest.zeroLine,
        hs, hfl] at hst'
      cases hl : (curReq s i).opLmiss <;> cases hn : (curReq s i).nc <;>
        simp [hl, hn] at hst'
  | doStcx =>
      rw [curReq, if_pos (h.mach.busy (Or.inr (Or.inl hst)))]
      exact h.served (Or.inl hst)
  | reloadWaitAck => by_cases hl : reloadLast s i = true <;> simp_all
  | storeWaitAck => by_cases hl : storeExit s i = true <;> simp_all
  | ncLoadWaitAck => by_cases hl : i.wishboneIn.ack = true <;> simp_all
  | flushCycle => simp_all

theorem source_step (h : SourceInv s) (hf : (step s i).r1.full = true) :
    (step s i).fast.mmuReq = (step s i).r1.req.mmuReq := by
  have hreq : (step s i).r1.req.mmuReq = (takenReq s i).mmuReq := by
    rw [step_req]
    split_ifs <;> rfl
  have hsrc : (step s i).fast.mmuReq =
      if r0Valid s i then s.r0.mmuReq else s.fast.mmuReq := rfl
  rw [hreq, hsrc]
  rcases taken_of_full hf with ⟨hfull, htaken, -⟩ | ⟨-, hgo, -, htaken, -⟩ <;> rw [htaken]
  · have hr0 : r0Valid s i = false := by simp [r0Valid, hfull]
    rw [hr0]
    exact h.source hfull
  · have hr0 : r0Valid s i = true := by
      simp only [reqGo, Bool.and_eq_true] at hgo
      exact hgo.1
    rw [hr0]
    rfl

theorem error_step (he : (step s i).fast.lsError = true) :
    (step s i).r1.full = false := by
  have herr : (step s i).fast.lsError = (reqOp s i == .bad && !s.r0.mmuReq) := rfl
  rw [herr, Bool.and_eq_true, beq_iff_eq] at he
  rw [step_full, not_takenFull_of_fast (by simp [he.1, ReqOp.fast])]
  rfl

theorem sourceInv_step (i : Input) (h : SourceInv s) : SourceInv (step s i) where
  mach := machInv_step i h.mach
  mmuRead := mmuRead_step h
  mmuMiss := mmuMiss_step h
  served := served_step h
  source := source_step h
  error := error_step

/-- An edge preserves the invariant. -/
theorem portInv_step (hk : KnownSource t.st i) (h : PortInv t) : PortInv (t.step i) where
  toSourceInv := sourceInv_step i h.toSourceInv
  waiting := waiting_step_ports h hk
  onePulse := onePulse_step h hk

theorem sourceInv_of_quiet (hs : Quiet s) : SourceInv s where
  mach := machInv_of_quiet hs
  mmuRead := by simp [hs.r0Full]
  mmuMiss := by simp [hs.full]
  served := by simp [hs.state]
  source := by simp [hs.full]
  error := by simp [hs.full]

theorem portInv_init (hs : Quiet s) : PortInv (.init s) where
  toSourceInv := sourceInv_of_quiet hs
  waiting := by
    simp [PortTrace.init, pulses, dOut, mOut, hs.full, hs.r0Full, hs.lsValid, hs.mmuDone,
      hs.lsError, hs.mmuError]
  onePulse := by
    simp [PortTrace.init, pulses, dOut, mOut, hs.lsValid, hs.mmuDone, hs.lsError, hs.mmuError]

/-- A pulse completes the request that has waited longest. -/
theorem pulseIsDue_of_portInv (h : PortInv t) : PulseIsDue t := by
  refine ⟨?_, h.onePulse⟩
  rw [h.waiting, List.append_assoc, List.take_left]

end Step

end Microwatt.Dcache
