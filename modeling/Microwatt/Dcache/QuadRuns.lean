import Microwatt.Dcache.QuadLoads

/-!
# Runs with quadwords

In a run in which nothing disturbs the quadwords, every edge is atomic for them, and on
a fair bus the second half of a store that has been looked up reaches the bus and is
accepted there, in the same cycle as the first.  Three things do disturb them: a
watchpoint on the second doubleword of a store, a real address that the bus cannot
carry, and a reload of another line that ends when the first half of a load hits.
-/

namespace Microwatt.Dcache

variable {g : Geometry} {s : State g} {input : Nat → Input}

/-- An infinite run of the dcache with the observer of quadwords. -/
abbrev quads (s : State g) (input : Nat → Input) : Nat → QuadTrace g :=
  Clocked.trace QuadTrace.step (.init s) input

/-- Both observers watch the same run. -/
theorem quads_ports (s : State g) (input : Nat → Input) (n : Nat) :
    (quads s input n).st = (ports s input n).st ∧
      (quads s input n).owed = (ports s input n).owed := by
  induction n with
  | zero => exact ⟨rfl, rfl⟩
  | succ n ih =>
      obtain ⟨hst, howed⟩ := ih
      constructor
      · show step (quads s input n).st (input n) = step (ports s input n).st (input n)
        rw [hst]
      · show owedNext (quads s input n).st (input n) (quads s input n).owed =
          owedNext (ports s input n).st (input n) (ports s input n).owed
        rw [hst, howed]

section Run

variable (hs : Quiet s) (henv : ∀ n, FromLoadstore1 (quads s input n) (input n))
  (hund : ∀ n, Undisturbed (quads s input n) (input n))

include hs henv hund in
theorem quadStoreInv_quads (n : Nat) : QuadStoreInv (quads s input n) :=
  Clocked.trace_invariant QuadStoreInv 0
    (fun n _ h => quadStoreInv_step (henv n) (hund n).secondStore h) (quadStoreInv_init hs) n
    (Nat.zero_le n)

include hs henv hund in
theorem quadLoadInv_quads (n : Nat) : QuadLoadInv (quads s input n) :=
  Clocked.trace_invariant QuadLoadInv 0 (fun n _ h => quadLoadInv_step (henv n) (hund n) h)
    (quadLoadInv_init hs) n (Nat.zero_le n)

include hs henv hund in
/-- A second half in `r1` whose first half is on the bus is sent. -/
theorem sends_of_waiting (hfair : FairBus s input) {n : Nat}
    (hout : (quads s input n).out = .firstOut) (hnone : (quads s input n).first = none) :
    ∃ m, n ≤ m ∧ sendsStore (quads s input m).st (input m) = true := by
  have hinv := quadStoreInv_quads hs henv hund
  refine Clocked.eventually_of_rank
    (fun n => (quads s input n).out = .firstOut ∧ (quads s input n).first = none)
    (fun n => sendsStore (quads s input n).st (input n) = true)
    (fun n => fullRank (quads s input n).st (quads s input n).owed)
    (fun n => waitsFor (quads s input n).st (quads s input n).owed)
    (fun e n => e.happens (input n)) ?_ ?_ n ⟨hout, hnone⟩
  · rintro n ⟨hout, hnone⟩ hno
    rw [Bool.not_eq_true] at hno
    obtain ⟨hfull, hS⟩ := (hinv n).second hout hnone
    have hgo : reqGo (quads s input n).st (input n) = false := by simp [reqGo, r0Valid, hfull]
    have hstay : retires (quads s input n).st (input n) = false := by
      simpa [retires, sendsStore, hS.state] using hno
    refine ⟨⟨nextOut_firstOut hno hout, ?_⟩,
      closer_of_full (hinv n).mach (hinv n).bus (henv n).ack hfull hstay⟩
    show (quads s input n).nextFirst (input n) = none
    simp [QuadTrace.nextFirst, hgo, hnone]
  · rintro n ⟨hout, hnone⟩
    cases hw : waitsFor (quads s input n).st (quads s input n).owed with
    | unstall => exact hfair.unstalled n
    | ack =>
        refine hfair.acked n ?_
        rw [← (quads_ports s input n).2]
        exact owed_of_waitsFor_ack (hinv n).bus hw

include hs henv hund in
/-- A second half that is looked up is sent. -/
theorem sends_of_lookup (hfair : FairBus s input) {n : Nat}
    (hout : (quads s input n).out = .firstOut)
    (hgo : reqGo (quads s input n).st (input n) = true) :
    ∃ m, n ≤ m ∧ sendsStore (quads s input m).st (input m) = true := by
  have hinv := quadStoreInv_quads hs henv hund n
  cases hsend : sendsStore (quads s input n).st (input n) with
  | true => exact ⟨n, le_rfl, hsend⟩
  | false =>
      have hnext : (quads s input (n + 1)).out = .firstOut := nextOut_firstOut hsend hout
      have hnone : (quads s input (n + 1)).first = none := by
        have hS := (secondStore_of_first hinv (henv n) (hund n).secondStore hgo hout).2.firstDw
        simp only [r0Request, Bool.or_eq_false_iff] at hS
        show (quads s input n).nextFirst (input n) = none
        simp [QuadTrace.nextFirst, hgo, isFirstHalf, hS.2]
      obtain ⟨m, hm, hsend'⟩ := sends_of_waiting hs henv hund hfair hnext hnone
      exact ⟨m, by omega, hsend'⟩

/-- In every run of the dcache that nothing disturbs, quadword accesses are atomic:
from the first strobe of a store until its second strobe is accepted the cycle is held
and nothing else is sent, no second half is sent without the first, and none is refused
or fails when the first is on the bus; the second half of a load is read from the ways
of the first.  On a fair bus the second half of a store follows. -/
theorem quadwords_atomic (s : State g) (input : Nat → Input) (hs : Quiet s)
    (henv : ∀ n, FromLoadstore1 (quads s input n) (input n))
    (hund : ∀ n, Undisturbed (quads s input n) (input n)) :
    (∀ n, StoreAtomic (quads s input n) (input n) ∧ LoadAtomic (quads s input n) (input n)) ∧
      (FairBus s input → ∀ n, (quads s input n).out = .firstOut →
        reqGo (quads s input n).st (input n) = true →
        ∃ m k, n ≤ m ∧ m < k ∧ sendsStore (quads s input m).st (input m) = true ∧
          (curReq (quads s input m).st (input m)).firstDw = false ∧
          strobeTaken (quads s input k).st (input k) = true ∧
          ∀ j, n ≤ j → j ≤ k → (wishboneOut (quads s input j).st).cyc = true) := by
  have hinv := quadStoreInv_quads hs henv hund
  have hstore := fun n => storeAtomic_of_inv (hinv n) (henv n) (hund n).secondStore
  refine ⟨fun n => ⟨hstore n, loadAtomic_of_inv (quadLoadInv_quads hs henv hund n) (henv n)
    (hund n)⟩, fun hfair n hout hgo => ?_⟩
  -- up to the edge that sends the second half
  obtain ⟨m, hnm, hsend, hfirst⟩ := Clocked.holds_until_first
    (fun n => (quads s input n).out = .firstOut) _
    (fun n hout hno => nextOut_firstOut (by simpa using hno) hout) hout
    (sends_of_lookup hs henv hund hfair hout hgo)
  have houtm := hfirst m hnm le_rfl
  have hsecond := secondStore_of_sends (hinv m) (henv m) (hund m).secondStore houtm hsend
  have hout' : (quads s input (m + 1)).out = .secondOut := by
    show (quads s input m).nextOut (input m) = .secondOut
    simp [QuadTrace.nextOut, hsend, hsecond.lastDw, houtm]
  -- and from there to the edge at which its strobe is accepted
  obtain ⟨k, hmk, hstall, hlast⟩ := Clocked.holds_until_first
    (fun n => (quads s input n).out = .secondOut) _
    (fun n hout hno => nextOut_secondOut (hinv n) hout (by simpa using hno)) hout'
    (hfair.unstalled (m + 1))
  have hcyc : ∀ j, n ≤ j → j ≤ k → (wishboneOut (quads s input j).st).cyc = true := by
    intro j hnj hjk
    refine (hstore j).held ?_
    rcases Nat.lt_or_ge m j with hmj | hjm
    · rw [hlast j hmj hjk]
      decide
    · rw [hfirst j hnj hjm]
      decide
  refine ⟨m, k, hnm, hmk, hsend, hsecond.firstDw, ?_, hcyc⟩
  simp [strobeTaken, hcyc k (by omega) le_rfl, (hstore k).strobe (hlast k hmk le_rfl), hstall]

end Run

/-! ## Fixed runs -/

/-- The first half of a quadword access to `p.addr`. -/
def quadFirst (p : Loadstore1ToDcache) : Loadstore1ToDcache :=
  { p with atomicQw := true, atomicFirst := true }

/-- The second half. -/
def quadSecond (p : Loadstore1ToDcache) : Loadstore1ToDcache :=
  { p with addr := p.addr + 8#64, atomicQw := true, atomicLast := true }

/-- A quadword store and a quadword load of the same line. -/
def storeThenLoad (n : Nat) : Input :=
  if n = 0 then .send (quadFirst (storeReq 0x40))
  else if n = 1 then .send (quadSecond (storeReq 0x40))
  else if n = 3 ∨ n = 4 then .acked 0
  else if n = 7 then .send (quadFirst (loadReq 0x40))
  else if n = 8 then .send (quadSecond (loadReq 0x40))
  else if 10 ≤ n ∧ n ≤ 17 then .acked 0
  else .idle

theorem storeThenLoad_idle (n : Nat) (hn : 18 ≤ n) : storeThenLoad n = .idle := by
  unfold storeThenLoad
  simp only [if_neg (show n ≠ 0 by omega), if_neg (show n ≠ 1 by omega),
    if_neg (show ¬(n = 3 ∨ n = 4) by omega), if_neg (show n ≠ 7 by omega),
    if_neg (show n ≠ 8 by omega), if_neg (show ¬(10 ≤ n ∧ n ≤ 17) by omega)]

/-- When both have completed, the dcache is at rest. -/
theorem storeThenLoad_rest (n : Nat) (hn : 18 ≤ n) :
    Drained (quads (State.cold .default) storeThenLoad n).st ∧
      (quads (State.cold .default) storeThenLoad n).owed = 0 ∧
      (quads (State.cold .default) storeThenLoad n).first = none := by
  have hstart : Drained (quads (State.cold .default) storeThenLoad 18).st ∧
      (quads (State.cold .default) storeThenLoad 18).owed = 0 ∧
      (quads (State.cold .default) storeThenLoad 18).first = none := by
    refine ⟨?_, ?_, ?_⟩
    · constructor <;> decide +kernel
    · decide +kernel
    · decide +kernel
  refine Clocked.trace_invariant
    (fun t : QuadTrace .default => Drained t.st ∧ t.owed = 0 ∧ t.first = none) 18 ?_ hstart n hn
  rintro m hm ⟨hrest, howed, hfirst⟩
  rw [storeThenLoad_idle m hm]
  have hgo : reqGo (quads (State.cold .default) storeThenLoad m).st .idle = false := by
    simp [reqGo, r0Valid, hrest.r0Full]
  refine ⟨(drained_step hrest rfl rfl).1, ?_, ?_⟩
  · simp [QuadTrace.step, owedNext, strobeTaken, wishboneOut, hrest.cyc, howed]
  · simpa [QuadTrace.step, QuadTrace.nextFirst, hgo] using hfirst

theorem fairBus_storeThenLoad : FairBus (State.cold .default) storeThenLoad where
  ackIsOwed := by
    intro n
    rcases Nat.lt_or_ge n 18 with hn | hn
    · revert n
      decide +kernel
    · simp [AckIsOwed, storeThenLoad_idle n hn, Input.idle]
  acked := by
    intro n howed
    rcases Nat.lt_or_ge n 18 with hn | hn
    · exact ⟨17, by omega, rfl⟩
    · rw [← (quads_ports _ _ n).2, (storeThenLoad_rest n hn).2.1] at howed
      exact absurd howed (by decide)
  unstalled := by
    intro n
    refine ⟨n, le_rfl, ?_⟩
    unfold storeThenLoad
    split_ifs <;> rfl
  released := by
    intro n
    refine ⟨n, le_rfl, ?_⟩
    unfold storeThenLoad
    split_ifs <;> rfl

theorem quadwords_atomic_storeThenLoad :
    FairBus (State.cold .default) storeThenLoad ∧
      (∀ n, StoreAtomic (quads (State.cold .default) storeThenLoad n) (storeThenLoad n) ∧
        LoadAtomic (quads (State.cold .default) storeThenLoad n) (storeThenLoad n)) ∧
      ∃ m k, 2 ≤ m ∧ m < k ∧
        strobeTaken (quads (State.cold .default) storeThenLoad k).st (storeThenLoad k) = true := by
  have hgo : ∀ n, 18 ≤ n →
      reqGo (quads (State.cold .default) storeThenLoad n).st (storeThenLoad n) = false := by
    intro n hn
    simp [reqGo, r0Valid, (storeThenLoad_rest n hn).1.r0Full]
  have henv : ∀ n, FromLoadstore1 (quads (State.cold .default) storeThenLoad n)
      (storeThenLoad n) := by
    intro n
    rcases Nat.lt_or_ge n 18 with hn | hn
    · revert n
      decide +kernel
    · constructor
      · simp [hgo n hn]
      · simp [hgo n hn]
      · simp [hgo n hn]
      · simp [hgo n hn, (storeThenLoad_rest n hn).2.2]
      · simp [AckIsOwed, storeThenLoad_idle n hn, Input.idle]
  have hund : ∀ n, Undisturbed (quads (State.cold .default) storeThenLoad n)
      (storeThenLoad n) := by
    intro n
    rcases Nat.lt_or_ge n 18 with hn | hn
    · revert n
      decide +kernel
    · constructor
      · simp [SecondStoreGood, hgo n hn]
      · simp [OneWay, hgo n hn]
      · simp [NotReplaced, hgo n hn]
      · simp [NoReloadEnd, (storeThenLoad_rest n hn).1.state]
  obtain ⟨hatomic, hfollows⟩ := quadwords_atomic (State.cold .default) storeThenLoad
    (afterReset_cold _).toQuiet henv hund
  obtain ⟨m, k, hm, hk, -, -, htaken, -⟩ := hfollows fairBus_storeThenLoad 2 (by decide +kernel)
    (by decide +kernel)
  exact ⟨fairBus_storeThenLoad, hatomic, m, k, hm, hk, htaken⟩

/-- The lines at 0x40 and 0x840 are loaded, and while the last rows of the line at 0
arrive, a quadword load of the line at 0x840. -/
def reloadEndsAtHit : List Input :=
  reloadOf 0x40 1 ++ reloadOf 0x840 2 ++ [Input.send (loadReq 0), .idle, .idle] ++
    List.replicate 6 (Input.acked 0) ++
    [{ Input.acked 0 with dIn := quadFirst (loadReq 0x840) },
      { Input.acked 0 with dIn := quadSecond (loadReq 0x840) }]

/-- A quadword store. -/
def quadStore (addr : BitVec 64) : List Input :=
  [.send (quadFirst (storeReq addr)), .send (quadSecond (storeReq addr))]

/-- A watchpoint match, which comes in the cycle after the request. -/
def Input.watch : Input :=
  .send { Loadstore1ToDcache.init with dawrMatch := true }

/-- The observer after a run from reset. -/
def quadsAfter (is : List Input) : QuadTrace .default :=
  Clocked.run QuadTrace.step (.init (State.cold .default)) is

/-- The run is one that loadstore1 can drive. -/
def Driven (is : List Input) : Prop :=
  Clocked.Along QuadTrace.step FromLoadstore1 (.init (State.cold .default)) is

instance (is : List Input) : Decidable (Driven is) :=
  inferInstanceAs (Decidable (Clocked.Along _ _ _ _))

/-- The data of the first half came from way `w`. -/
def Origin.covers (o : Origin g) (w : Way g) : Bool :=
  match o with
  | .line _ ways => ways w
  | _ => false

/-- The second half of the load hits in the way of the line at 0x40 too, and returns 3.
With a watchpoint on the second doubleword of a store, the first is on the bus when the
second is refused.  And at an address beyond the bus the cycle of the first doubleword
ends before the second is sent. -/
theorem not_atomic :
    (Driven (reloadEndsAtHit ++ [Input.idle]) ∧ ¬LoadAtomic (quadsAfter reloadEndsAtHit) .idle ∧
      (dOut (quadsAfter (reloadEndsAtHit ++ [Input.idle])).st).data = 3) ∧
    (Driven (quadStore 0x40 ++ [Input.watch]) ∧ ¬StoreAtomic (quadsAfter (quadStore 0x40)) .watch) ∧
    (Driven (quadStore 0x100000000 ++ [Input.idle, .acked 0, .idle]) ∧
      ¬StoreAtomic (quadsAfter (quadStore 0x100000000 ++ [Input.idle, .acked 0])) .idle) := by
  refine ⟨⟨by decide +kernel, fun h => ?_, by decide +kernel⟩, ⟨by decide +kernel, fun h => ?_⟩,
    ⟨by decide +kernel, fun h => ?_⟩⟩
  · have hhit : (reqOp (quadsAfter reloadEndsAtHit).st .idle == .loadHit) = true := by
      decide +kernel
    rcases h _ (if_pos hhit) (by decide +kernel) with hbus | heq
    · have hway : (quadsAfter reloadEndsAtHit).origin.covers 2 = true := by decide +kernel
      rw [hbus] at hway
      exact absurd hway (by decide)
    · have hno : (quadsAfter reloadEndsAtHit).origin.covers 0 = false := by decide +kernel
      have hway : reqHitWays (quadsAfter reloadEndsAtHit).st .idle 0 = true := by decide +kernel
      rw [← heq] at hno
      exact absurd (hway.symm.trans hno) (by decide)
  · exact absurd (h.both (by decide +kernel)).1 (by decide +kernel)
  · exact absurd (h.held (by decide +kernel)) (by decide +kernel)

end Microwatt.Dcache
