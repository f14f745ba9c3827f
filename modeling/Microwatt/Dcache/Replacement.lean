import Microwatt.Dcache.Machine

/-!
# Victims of successive misses

In the cycle after a miss the dcache reads the victim way of the set from its PLRU
bits, and the bits are updated with the way in `hit_way`, which is the way that hit
or way 0 when none did.  Between two misses at a set in which nothing else updates
its bits, the second victim is therefore read from the first bits after an access
to `hit_way`, and not to the way that the first miss replaces.
-/

namespace Microwatt.Dcache

variable {g : Geometry} {s : State g} {i : Input} {is : List Input}

/-- The cycle in which a miss at set `ix` is given its victim, `plru_victim`. -/
def VictimChosen (s : State g) (ix : Index g) : Prop :=
  s.r1.chooseVictim = true ∧ s.r1.hitIndex = ix

/-- The PLRU bits of set `ix` are updated at the next edge. -/
def PlruUpdated (s : State g) (ix : Index g) : Prop :=
  (s.fast.cacheHit = true ∨ s.r1.chooseVictim = true) ∧ s.r1.hitIndex = ix

instance (s : State g) (ix : Index g) : Decidable (VictimChosen s ix) :=
  inferInstanceAs (Decidable (_ ∧ _))

instance (s : State g) (ix : Index g) : Decidable (PlruUpdated s ix) :=
  inferInstanceAs (Decidable (_ ∧ _))

/-- No access updates the PLRU bits of set `ix` at the edges of the run. -/
def NoAccess (ix : Index g) : State g → List Input → Prop :=
  Clocked.Along step fun t _ => ¬PlruUpdated t ix

instance (ix : Index g) (s : State g) (is : List Input) : Decidable (NoAccess ix s is) :=
  inferInstanceAs (Decidable (Clocked.Along _ _ _ _))

/-- In `s` a miss is given its victim, and after the edges `i :: is` the next miss at
the same set, with no other access to the set. -/
structure NextMiss (s : State g) (i : Input) (is : List Input) : Prop where
  chosen : s.r1.chooseVictim = true
  noAccess : NoAccess s.r1.hitIndex (step s i) is
  next : VictimChosen (Clocked.run step (step s i) is) s.r1.hitIndex

/-! ## The PLRU bits along a run -/

theorem plruRam_step_of_updated {ix : Index g} (h : PlruUpdated s ix) :
    (step s i).rams.plruRam ix =
      Plru.updateLru g.wayBits s.r1.hitWay (s.rams.plruRam ix) := by
  obtain ⟨hupd, rfl⟩ := h
  simp [step, ramsNext, hupd]

theorem plruRam_step_of_not_updated {ix : Index g} (h : ¬PlruUpdated s ix) :
    (step s i).rams.plruRam ix = s.rams.plruRam ix := by
  simp only [step, ramsNext, Bool.or_eq_true]
  apply if_neg
  rintro ⟨hupd, hix⟩
  exact h ⟨hupd, hix.symm⟩

/-- The bits of a set stay as they are until its next access. -/
theorem NoAccess.plruRam_run {ix : Index g} (h : NoAccess ix s is) :
    (Clocked.run step s is).rams.plruRam ix = s.rams.plruRam ix := by
  induction is generalizing s with
  | nil => rfl
  | cons i is ih =>
      rw [Clocked.run_cons, ih h.2]
      exact plruRam_step_of_not_updated h.1

/-- The victim that the PLRU bits name after an access and a time without one. -/
theorem plruVictim_run {ix : Index g} (hupd : PlruUpdated s ix)
    (hno : NoAccess ix (step s i) is)
    (hnext : (Clocked.run step (step s i) is).r1.hitIndex = ix) :
    plruVictim (Clocked.run step (step s i) is) =
      Plru.getLru g.wayBits (Plru.updateLru g.wayBits s.r1.hitWay (s.rams.plruRam ix)) := by
  rw [plruVictim, hnext, hno.plruRam_run, plruRam_step_of_updated hupd]

/-! ## What the next victim is not -/

/-- The next miss at the set is given another victim exactly when `hit_way` is in the
half of the ways that the root of the PLRU bits points to. -/
theorem nextVictim_ne_iff (hways : 0 < g.wayBits) (h : NextMiss s i is) :
    plruVictim (Clocked.run step (step s i) is) ≠ plruVictim s ↔
      s.r1.hitWay.val.testBit (g.wayBits - 1) = s.rams.plruRam s.r1.hitIndex 0 := by
  rw [plruVictim_run ⟨Or.inr h.chosen, rfl⟩ h.noAccess h.next.2]
  exact Plru.getLru_updateLru_ne_iff hways s.r1.hitWay _

/-- Loads from lines of set 0, each with its reload, and after them one more up to the
cycle in which it is given its victim. -/
def setZeroMisses (addrs : List (BitVec 64)) (next : BitVec 64) : List Input :=
  addrs.flatMap (reloadOf · 0) ++ [Input.send (loadReq next), .idle]

/-- The rest of the reload, and the next load up to that cycle. -/
def toNextMiss (next : BitVec 64) : List Input :=
  List.replicate 8 (Input.acked 0) ++ [Input.idle, .idle, .send (loadReq next), .idle]

/-- The registers after a run from reset. -/
def afterMisses (is : List Input) : State .default :=
  Clocked.run step (State.cold .default) is

/-- The first load is given way 0 and the second one another way. -/
theorem nextVictim_ne_first :
    plruVictim (Clocked.run step (step (afterMisses (setZeroMisses [] 0)) .idle)
      (toNextMiss 0x800)) ≠ plruVictim (afterMisses (setZeroMisses [] 0)) :=
  (nextVictim_ne_iff (by decide) ⟨by decide +kernel, by decide +kernel, by decide +kernel⟩).mpr
    (by decide +kernel)

/-- The second and the third load replace the same way, way 2: each of them makes the
PLRU bits point away from way 0. -/
theorem victim_replaced_again :
    let s := afterMisses (setZeroMisses [0] 0x800)
    let t := Clocked.run step (step s .idle) (toNextMiss 0x1000)
    AfterReset (State.cold .default) ∧ NextMiss s .idle (toNextMiss 0x1000) ∧
      plruVictim t = plruVictim s ∧ s.r1.writeTag = true ∧ t.r1.writeTag = true ∧
      replaceWay s = 2 ∧ replaceWay t = 2 := by
  refine ⟨afterReset_cold _, ⟨?_, ?_, ?_⟩, ?_, ?_, ?_, ?_, ?_⟩
  all_goals decide +kernel

/-! ## A miss in which no way matches -/

/-- The request in `r0` is a miss that is given a victim in the next cycle. -/
def missSeen (s : State g) (i : Input) : Bool :=
  reqOp s i == .loadMiss || (s.r0.req.dcbz && !reqIsHit s i)

/-- The registers that the miss leaves for the PLRU. -/
theorem step_plruRegs : (step s i).r1.chooseVictim = missSeen s i ∧
    (step s i).r1.hitWay = reqHitWay s i ∧ (step s i).r1.hitIndex = reqIndex s := by
  simp only [step, dcacheSlow, missSeen]
  cases hst : s.r1.state <;>
    simp only [slowMachine, hst, slowIdle, idleFlushSync_eq, idleStore_eq, idleLmiss_eq,
      idleSetup_eq, slowReload_eq, slowStoreWait_eq, slowNcLoad_eq, slowDoStcx_eq, slowFlush,
      slowCommon_eq, and_self]

theorem reqHitWay_eq_zero (h : ∀ w, reqHitWays s i w = false) : reqHitWay s i = 0 := by
  rcases hitLoop_cases s i with ⟨-, heq⟩ | ⟨w, hw, -⟩
  · rw [reqHitWay, heq]
  · rw [h w] at hw
    exact absurd hw (by decide)

/-- After a miss in which no way matches, the next miss at the set is given another
victim only if the first was in the lower half of the ways. -/
theorem victims_after_miss (hways : 0 < g.wayBits) {j : Input}
    (hmiss : ∀ w, reqHitWays s i w = false) (h : NextMiss (step s i) j is) :
    plruVictim (Clocked.run step (step (step s i) j) is) ≠ plruVictim (step s i) ↔
      (plruVictim (step s i)).val < 2 ^ (g.wayBits - 1) := by
  have hway : (step s i).r1.hitWay.val = 0 := by
    rw [step_plruRegs.2.1, reqHitWay_eq_zero hmiss]
    rfl
  rw [plruVictim_run ⟨Or.inr h.chosen, rfl⟩ h.noAccess h.next.2, plruVictim,
    Plru.getLru_updateLru_ne_iff hways, Plru.getLru_lt_iff hways, hway, Nat.zero_testBit]
  exact eq_comm

end Microwatt.Dcache
