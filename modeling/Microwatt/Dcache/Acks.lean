import Microwatt.Dcache.Bus
import Microwatt.Lib.Fair

/-!
# The count of pending acks

Over a whole run: in `STORE_WAIT_ACK` the variable `acks` is the number of strobes that have been
shown less the number of acks that came before this cycle.
-/

namespace Microwatt.Dcache

variable {g : Geometry}

section Run

variable (s : State g) (input : Nat → Input)

/-- The registers before edge `n`. -/
def regsAt (n : Nat) : State g := Clocked.trace step s input n

/-- There is a strobe on the bus in cycle `n`. -/
def strobeAt (n : Nat) : Bool :=
  (wishboneOut (regsAt s input n)).cyc && (wishboneOut (regsAt s input n)).stb

/-- The strobe of cycle `n` has been on the bus before, and was stalled. -/
def heldAt : Nat → Bool
  | 0 => false
  | n + 1 => strobeAt s input n && (input n).wishboneIn.stall

/-- The strobes that have been shown up to cycle `n`; a stalled one counts once. -/
def presented (n : Nat) : Nat :=
  (List.range (n + 1)).countP fun k => strobeAt s input k && !heldAt s input k

/-- The strobes that the slave has taken before cycle `n`. -/
def takenBefore (n : Nat) : Nat :=
  (List.range n).countP fun k => strobeAt s input k && !(input k).wishboneIn.stall

/-- The acks that have come before cycle `n`. -/
def ackedBefore (n : Nat) : Nat :=
  (List.range n).countP fun k => (input k).wishboneIn.ack

/-- The slave acks strobes that it has taken in earlier cycles and nothing else. -/
def AcksTaken : Prop :=
  ∀ n, (input n).wishboneIn.ack = true → ackedBefore input n < takenBefore s input n

/-- The accounting in cycle `n`. -/
structure CountsAcks (n : Nat) : Prop where
  /-- `acks` is what has been shown less what has been acked before this cycle. -/
  count : (regsAt s input n).r1.state = .storeWaitAck →
    (acksNow (regsAt s input n)).toNat + ackedBefore input n = presented s input n
  /-- From one cycle to the next it changes by the new strobe and the ack, and does not wrap. -/
  noWrap : (regsAt s input n).r1.state = .storeWaitAck →
    (regsAt s input (n + 1)).r1.state = .storeWaitAck →
      (acksNow (regsAt s input (n + 1))).toNat + (input n).wishboneIn.ack.toNat =
        (acksNow (regsAt s input n)).toNat +
          (strobeAt s input (n + 1) && !heldAt s input (n + 1)).toNat
  /-- When `cyc` is dropped, everything that was taken has been acked. -/
  closed : (regsAt s input n).r1.state = .storeWaitAck →
    (wishboneOut (regsAt s input (n + 1))).cyc = false →
      ackedBefore input (n + 1) = takenBefore s input (n + 1)

variable {s input}

theorem regsAt_succ (n : Nat) : regsAt s input (n + 1) = step (regsAt s input n) (input n) := rfl

theorem presented_succ (n : Nat) : presented s input (n + 1) =
    presented s input n + (strobeAt s input (n + 1) && !heldAt s input (n + 1)).toNat := by
  rw [presented, List.range_succ, List.countP_append, List.countP_singleton, presented]
  cases strobeAt s input (n + 1) && !heldAt s input (n + 1) <;> rfl

theorem takenBefore_succ (n : Nat) : takenBefore s input (n + 1) =
    takenBefore s input n + (strobeTaken (regsAt s input n) (input n)).toNat := by
  rw [takenBefore, List.range_succ, List.countP_append, List.countP_singleton, takenBefore]
  change _ + (if strobeTaken (regsAt s input n) (input n) = true then 1 else 0) = _
  cases strobeTaken (regsAt s input n) (input n) <;> rfl

theorem ackedBefore_succ (n : Nat) :
    ackedBefore input (n + 1) = ackedBefore input n + (input n).wishboneIn.ack.toNat := by
  rw [ackedBefore, List.range_succ, List.countP_append, List.countP_singleton, ackedBefore]
  cases (input n).wishboneIn.ack <;> rfl

/-- What the slave owes. -/
def owedAt (s : State g) (input : Nat → Input) (n : Nat) : Nat :=
  takenBefore s input n - ackedBefore input n

theorem acked_le_taken (hslave : AcksTaken s input) (n : Nat) :
    ackedBefore input n ≤ takenBefore s input n := by
  induction n with
  | zero => exact le_rfl
  | succ n ih =>
      rw [ackedBefore_succ, takenBefore_succ]
      cases hack : (input n).wishboneIn.ack with
      | false => exact Nat.le_add_right_of_le ih
      | true =>
          have := hslave n hack
          rw [Bool.toNat_true]
          omega

theorem owedAt_succ (hslave : AcksTaken s input) (n : Nat) : owedAt s input (n + 1) =
    owedNext (regsAt s input n) (input n) (owedAt s input n) := by
  have hle := acked_le_taken hslave n
  unfold owedAt owedNext
  rw [ackedBefore_succ, takenBefore_succ]
  omega

theorem ackIsOwed_at (hslave : AcksTaken s input) (n : Nat) :
    AckIsOwed (input n) (owedAt s input n) := by
  intro hack
  have := hslave n hack
  unfold owedAt
  omega

theorem machInv_at (hs : Quiet s) (n : Nat) : MachInv (regsAt s input n) :=
  Clocked.trace_invariant MachInv 0 (fun n _ h => machInv_step (input n) h) (machInv_of_quiet hs) n
    (Nat.zero_le n)

theorem busInv_at (hs : Quiet s) (hslave : AcksTaken s input) (n : Nat) :
    BusInv (regsAt s input n) (owedAt s input n) := by
  induction n with
  | zero => exact busInv_of_quiet hs
  | succ n ih =>
      rw [owedAt_succ hslave]
      exact busInv_step (machInv_at hs n) (ackIsOwed_at hslave n) ih

/-- A strobe that is stalled stays on the bus. -/
theorem strobe_held {s : State g} {i : Input} {owed : Nat} (h : BusInv s owed)
    (hack : AckIsOwed i owed)
    (hcyc : s.r1.wb.cyc = true) (hstb : s.r1.wb.stb = true) (hstall : i.wishboneIn.stall = true) :
    (step s i).r1.wb.cyc = true ∧ (step s i).r1.wb.stb = true := by
  have hcyc' := step_cyc s i
  have hstb' := step_stb s i
  cases hst : s.r1.state with
  | idle => simp [(h.closed (Or.inl hst)).1] at hcyc
  | flushCycle => simp [(h.closed (Or.inr hst)).1] at hcyc
  | doStcx => simp [(h.stcx hst).2.1] at hstb
  | ncLoadWaitAck =>
      have hone := (h.ncLoad hst).2
      have hno : i.wishboneIn.ack = false := by
        by_contra ha
        have := hack (by simpa using ha)
        rw [hstb, Bool.toNat_true] at hone
        omega
      simp only [hst, hno, hcyc, hstb, hstall] at hcyc' hstb'
      exact ⟨hcyc', hstb'⟩
  | storeWaitAck =>
      have hstay : storeExit s i = false := by simp [storeExit, stbsDone, hstall, hstb]
      simp only [hst, hstay, hcyc, hstb, hstall] at hcyc' hstb'
      exact ⟨hcyc', hstb'⟩
  | reloadWaitAck =>
      have hsum := (h.reload hst).2
      -- the row that the strobe asks for is still to come
      have hstay : reloadLast s i = false := by
        by_contra hl
        simp only [reloadLast, isLastRow, getRowOfLine, Bool.not_eq_false, Bool.and_eq_true,
          beq_iff_eq] at hl
        have := hack hl.1
        have hcome : rowsToCome s.r1 = 1 := by simp [rowsToCome, rowsAfter, hl.2]
        simp only [rowsToSend, hstb, if_true] at hsum
        omega
      simp only [hst, hstay, hcyc, hstb, hstall] at hcyc' hstb'
      exact ⟨hcyc', hstb'⟩

/-- What has been shown has been taken, apart from a strobe that is on the bus. -/
theorem presented_eq (hs : Quiet s) (hslave : AcksTaken s input) (n : Nat) :
    presented s input n = takenBefore s input n + (strobeAt s input n).toNat := by
  induction n with
  | zero =>
      have hquiet : strobeAt s input 0 = false := by
        simp [strobeAt, regsAt, Clocked.trace, wishboneOut, hs.cyc]
      simp [presented, takenBefore, hquiet]
  | succ n ih =>
      rw [presented_succ, takenBefore_succ, ih]
      have htaken : strobeTaken (regsAt s input n) (input n) =
          (strobeAt s input n && !(input n).wishboneIn.stall) := rfl
      rw [htaken]
      cases hstrobe : strobeAt s input n with
      | false => simp [heldAt, hstrobe]
      | true =>
          cases hstall : (input n).wishboneIn.stall with
          | false => simp [heldAt, hstrobe, hstall]
          | true =>
              have hbus := hstrobe
              simp only [strobeAt, wishboneOut, Bool.and_eq_true] at hbus
              have hheld :=
                strobe_held (busInv_at hs hslave n) (ackIsOwed_at hslave n) hbus.1 hbus.2
                hstall
              have hnext : strobeAt s input (n + 1) = true := by
                simp only [strobeAt, wishboneOut, regsAt_succ, hheld, Bool.and_self]
              simp [heldAt, hstrobe, hstall, hnext]

theorem count_at (hs : Quiet s) (hslave : AcksTaken s input) (n : Nat)
    (hst : (regsAt s input n).r1.state = .storeWaitAck) :
    (acksNow (regsAt s input n)).toNat + ackedBefore input n = presented s input n := by
  obtain ⟨hcyc, hacks⟩ := (busInv_at hs hslave n).store hst
  have hle := acked_le_taken hslave n
  have hstrobe : strobeAt s input n = (regsAt s input n).r1.wb.stb := by
    simp only [strobeAt, wishboneOut, hcyc, Bool.true_and]
  rw [presented_eq hs hslave, hstrobe, ← hacks, owedAt]
  omega

/-- In every run from reset, with every slave that acks what it has taken, the dcache keeps account
of the acks. -/
theorem countsAcks (s : State g) (input : Nat → Input) (hs : Quiet s) (hslave : AcksTaken s input)
    (n : Nat) : CountsAcks s input n := by
  refine ⟨count_at hs hslave n, fun hst hst' => ?_, fun hst hcyc => ?_⟩
  · have hnow := count_at hs hslave n hst
    have hnext := count_at hs hslave (n + 1) hst'
    rw [ackedBefore_succ, presented_succ] at hnext
    omega
  · have hb := busInv_at hs hslave (n + 1)
    have hidle : (regsAt s input (n + 1)).r1.state = .idle := by
      have hnext : (regsAt s input (n + 1)).r1.state = .idle ∨
          (regsAt s input (n + 1)).r1.state = .storeWaitAck := by
        rw [regsAt_succ, step_state, hst]
        exact (Bool.eq_false_or_eq_true _).imp (fun h => if_pos h) fun h => by simp [h]
      refine hnext.resolve_right fun hsame => ?_
      rw [wishboneOut, (hb.store hsame).1] at hcyc
      cases hcyc
    have hnone := (hb.closed (Or.inl hidle)).2.2
    have hle := acked_le_taken hslave (n + 1)
    unfold owedAt at hnone
    omega

end Run

/-- Two stores to one row, a slave that stalls the first strobe once and acks both. -/
def twoStores (n : Nat) : Input :=
  let i : Input :=
    if n = 0 then .send (storeReq 0) else if n = 1 then .send (storeReq 8) else .idle
  { i with wishboneIn := { i.wishboneIn with stall := n = 2, ack := n = 5 || n = 6 } }

theorem acksTaken_twoStores : AcksTaken (State.cold .default) twoStores := by
  intro n hack
  have hn : n = 5 ∨ n = 6 := by simpa [twoStores] using hack
  rcases hn with rfl | rfl <;> decide +kernel

/-- Both strobes are owed an ack in cycle 5, and `cyc` is given up after the second ack. -/
theorem countsAcks_twoStores :
    (acksNow (regsAt (State.cold .default) twoStores 5) = 2 ∧
      CountsAcks (State.cold .default) twoStores 5) ∧
    (wishboneOut (regsAt (State.cold .default) twoStores 7)).cyc = false ∧
      CountsAcks (State.cold .default) twoStores 6 := by
  have hq : Quiet (State.cold .default) := by constructor <;> rfl
  exact ⟨⟨by decide +kernel, countsAcks (State.cold .default) twoStores hq acksTaken_twoStores 5⟩,
    by decide +kernel, countsAcks (State.cold .default) twoStores hq acksTaken_twoStores 6⟩

end Microwatt.Dcache
