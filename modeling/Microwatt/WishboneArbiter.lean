import Microwatt.Lib.Bits
import Microwatt.Lib.Fair
import Microwatt.Wishbone

/-!
# The wishbone arbiter

`wishbone_arbiter.vhdl`: one slave port shared by any number of masters.  The selected master keeps
the bus while it holds `cyc`; with up to four masters an idle bus is given to the candidate in the
same cycle.

Beside the arbiter the masters whose requests the slave has accepted are kept in a list, in the
order in which the slave answers them.
-/

namespace Microwatt.WishboneArbiter

open Clocked (trace)

/-- The generic `NUM_MASTERS`. -/
structure Masters where
  num : Nat
  pos : 0 < num

namespace Masters

variable (g : Masters)

/-- `wb_arb_master_t`. -/
abbrev Master := Fin g.num

/-- Master 0, which reset selects. -/
def first : g.Master := ⟨0, g.pos⟩

end Masters

variable {g : Masters}

/-- The ports of the arbiter in one cycle. -/
structure Input (g : Masters) where
  wbMastersIn : g.Master → WishboneMasterOut
  wbSlaveIn : WishboneSlaveOut

section

variable (selected : g.Master) (i : Input g)

def busy : Bool :=
  (i.wbMastersIn selected).cyc

/-- The process `wishbone_candidate`: the last assignment of the loop is that of the lowest master
with `cyc`. -/
def candidate : g.Master :=
  ((List.finRange g.num).find? fun m => (i.wbMastersIn m).cyc).getD selected

/-- `early_sel`. -/
def earlySel : g.Master :=
  if g.num ≤ 4 ∧ busy selected i = false then candidate selected i else selected

def wbSlaveOut : WishboneMasterOut :=
  i.wbMastersIn (earlySel selected i)

def wbMastersOut (m : g.Master) : WishboneSlaveOut :=
  if earlySel selected i = m ∧ (i.wbMastersIn m).cyc = true then i.wbSlaveIn
  else { i.wbSlaveIn with ack := false, stall := true }

/-- `selected` after the edge, outside reset. -/
def nextSelected : g.Master :=
  if busy selected i then selected else candidate selected i

end

/-- The arbiter, and the masters that the slave has to answer. -/
structure Sys (g : Masters) where
  selected : g.Master
  owed : List g.Master

namespace Sys

variable (x : Sys g) (i : Input g)

/-- The slave takes a request in this cycle. -/
def accepted : Bool :=
  (wbSlaveOut x.selected i).cyc && (wbSlaveOut x.selected i).stb && !i.wbSlaveIn.stall

/-- The masters whose requests are unanswered, with the one whose request is taken now. -/
def unanswered : List g.Master :=
  x.owed ++ if x.accepted i then [earlySel x.selected i] else []

def step : Sys g where
  selected := nextSelected x.selected i
  owed := if i.wbSlaveIn.ack then (x.unanswered i).tail else x.unanswered i

/-- The slave answers only what it has taken, and a master holds `cyc` until it has its answers. -/
structure Disciplined : Prop where
  ack : i.wbSlaveIn.ack = true → x.unanswered i ≠ []
  cyc : ∀ m ∈ x.owed, (i.wbMastersIn m).cyc = true

end Sys

/-! ## One owner at a time -/

section

variable {selected : g.Master} {i : Input g} {m : g.Master}

/-- A master that gets an answer, or whose request is taken, has the bus. -/
theorem earlySel_of_heard
    (h : (wbMastersOut selected i m).stall = false ∨ (wbMastersOut selected i m).ack = true) :
    earlySel selected i = m ∧ (i.wbMastersIn m).cyc = true := by
  by_contra hno
  simp [wbMastersOut, hno] at h

theorem ack_of_owner (h : earlySel selected i = m) (hc : (i.wbMastersIn m).cyc = true) :
    (wbMastersOut selected i m).ack = i.wbSlaveIn.ack := by
  simp [wbMastersOut, h, hc]

/-- The owner of the bus is selected from the next cycle on. -/
theorem nextSelected_of_owner (h : earlySel selected i = m) (hc : (i.wbMastersIn m).cyc = true) :
    nextSelected selected i = m := by
  unfold earlySel at h
  unfold nextSelected
  split_ifs at h with hidle
  · rw [hidle.2]
    exact h
  · -- the bus is not given away in this cycle, and the selected master is the owner
    have hbusy : busy selected i = true := by
      rw [busy, h]
      exact hc
    rw [hbusy]
    exact h

theorem earlySel_of_selected (hc : (i.wbMastersIn m).cyc = true) : earlySel m i = m := by
  have hbusy : busy m i = true := hc
  simp [earlySel, hbusy]

end

/-! ## Runs -/

variable {x : Sys g} {input : Nat → Input g}

/-- The owner of the bus in cycle `n`. -/
def owner (x : Sys g) (input : Nat → Input g) (n : Nat) : g.Master :=
  earlySel (trace Sys.step x input n).selected (input n)

/-- A master with `cyc` that owns the bus keeps it for as long as it holds `cyc`. -/
theorem owner_kept {n k : Nat} {m : g.Master} (h : owner x input n = m) (hnk : n ≤ k)
    (hc : ∀ j, n ≤ j → j ≤ k → ((input j).wbMastersIn m).cyc = true) : owner x input k = m := by
  induction k, hnk using Nat.le_induction with
  | base => exact h
  | succ k hk ih =>
      have hown : owner x input k = m := ih fun j hj hjk => hc j hj (by omega)
      have hsel : (trace Sys.step x input (k + 1)).selected = m :=
        nextSelected_of_owner hown (hc k hk (by omega))
      rw [owner, hsel]
      exact earlySel_of_selected (hc (k + 1) (by omega) le_rfl)

/-- All the unanswered requests are those of the selected master. -/
def OneOwner (x : Sys g) : Prop :=
  ∀ m ∈ x.owed, m = x.selected

theorem OneOwner.earlySel_of_mem (h : OneOwner x) {i : Input g} (hd : x.Disciplined i)
    {m : g.Master} (hm : m ∈ x.unanswered i) :
    earlySel x.selected i = m ∧ (i.wbMastersIn m).cyc = true := by
  rcases List.mem_append.mp hm with hm | hm
  · obtain rfl := h m hm
    have hc := hd.cyc _ hm
    exact ⟨earlySel_of_selected hc, hc⟩
  · -- the request that is taken in this cycle
    split_ifs at hm with ha
    · obtain rfl := List.mem_singleton.mp hm
      simp only [Sys.accepted, Bool.and_eq_true] at ha
      exact ⟨rfl, ha.1.1⟩
    · cases hm

theorem OneOwner.step (h : OneOwner x) {i : Input g} (hd : x.Disciplined i) :
    OneOwner (x.step i) := by
  intro m hm
  have hmem : m ∈ x.unanswered i := by
    simp only [Sys.step] at hm
    split_ifs at hm
    · exact List.mem_of_mem_tail hm
    · exact hm
  obtain ⟨hown, hc⟩ := h.earlySel_of_mem hd hmem
  exact (nextSelected_of_owner hown hc).symm

/-- In every cycle of every run at most one master gets an answer or has its request taken, and the
slave has the request of that master, the owner of the bus; a master that owns the bus keeps it
until it drops `cyc`; and if all masters hold `cyc` until they have their answers, each answer goes
to the master of the oldest unanswered request, and to no other. -/
theorem bus_ownership (x : Sys g) (input : Nat → Input g) :
    (∀ n a b,
      (wbMastersOut (trace Sys.step x input n).selected (input n) a).stall = false ∨
        (wbMastersOut (trace Sys.step x input n).selected (input n) a).ack = true →
      (wbMastersOut (trace Sys.step x input n).selected (input n) b).stall = false ∨
        (wbMastersOut (trace Sys.step x input n).selected (input n) b).ack = true → a = b) ∧
    (∀ n,
      wbSlaveOut (trace Sys.step x input n).selected (input n) =
        (input n).wbMastersIn (owner x input n) ∧
      ∀ a, (wbMastersOut (trace Sys.step x input n).selected (input n) a).stall = false ∨
        (wbMastersOut (trace Sys.step x input n).selected (input n) a).ack = true →
          owner x input n = a) ∧
    (∀ n k m, n ≤ k → owner x input n = m →
      (∀ j, n ≤ j → j ≤ k → ((input j).wbMastersIn m).cyc = true) → owner x input k = m) ∧
    (x.owed = [] → (∀ n, (trace Sys.step x input n).Disciplined (input n)) →
      ∀ n, (input n).wbSlaveIn.ack = true →
        ∃ m rest, (trace Sys.step x input n).unanswered (input n) = m :: rest ∧
          ∀ a, (wbMastersOut (trace Sys.step x input n).selected (input n) a).ack = true ↔
            a = m) := by
  refine ⟨?_, ?_, ?_, ?_⟩
  · intro n a b ha hb
    exact (earlySel_of_heard ha).1.symm.trans (earlySel_of_heard hb).1
  · intro n
    exact ⟨rfl, fun a ha => (earlySel_of_heard ha).1⟩
  · intro n k m hnk hown hc
    exact owner_kept hown hnk hc
  · intro hempty hd n hack
    have hone : OneOwner (trace Sys.step x input n) := by
      refine Clocked.trace_invariant OneOwner 0 (fun n _ h => h.step (hd n)) ?_ n (Nat.zero_le n)
      intro m hm
      rw [show (trace Sys.step x input 0).owed = [] from hempty] at hm
      cases hm
    obtain ⟨m, rest, hlist⟩ := List.exists_cons_of_ne_nil ((hd n).ack hack)
    obtain ⟨hown, hc⟩ :=
      hone.earlySel_of_mem (hd n) (m := m) (by rw [hlist]; exact List.mem_cons_self)
    refine ⟨m, rest, hlist, fun a => ⟨?_, ?_⟩⟩
    · intro ha
      exact (earlySel_of_heard (Or.inr ha)).1.symm.trans hown
    · rintro rfl
      rw [ack_of_owner hown hc]
      exact hack

/-- Out of reset. -/
def Sys.reset : Sys g where
  selected := g.first
  owed := []

/-- Two masters; the second one makes one request, which is answered in the next cycle. -/
def oneRead (n : Nat) : Input ⟨2, Nat.zero_lt_two⟩ where
  wbMastersIn m := ⟨0, 0, 0xff, n < 2 ∧ m = 1, n = 0 ∧ m = 1, false⟩
  wbSlaveIn := ⟨0, n = 1, false⟩

theorem oneRead_rest (n : Nat) (hn : 2 ≤ n) : (trace Sys.step Sys.reset oneRead n).owed = [] := by
  refine Clocked.trace_invariant (fun x : Sys ⟨2, _⟩ => x.owed = []) 2 ?_ (by decide) n hn
  intro n hn hx
  have hcyc : ∀ m, ((oneRead n).wbMastersIn m).cyc = false := by
    intro m
    simp only [oneRead, decide_eq_false_iff_not]
    omega
  have hack : (oneRead n).wbSlaveIn.ack = false := by
    simp only [oneRead, decide_eq_false_iff_not]
    omega
  simp [Sys.step, Sys.unanswered, Sys.accepted, wbSlaveOut, hcyc, hack, hx]

theorem oneRead_disciplined (n : Nat) :
    (trace Sys.step Sys.reset oneRead n).Disciplined (oneRead n) := by
  rcases Nat.lt_or_ge n 2 with hn | hn
  · constructor <;> revert n <;> decide
  · constructor
    · intro hack
      simp only [oneRead, decide_eq_true_eq] at hack
      omega
    · rw [oneRead_rest n hn]
      exact fun m hm => by cases hm

theorem bus_ownership_oneRead :
    owner Sys.reset oneRead 1 = 1 ∧
    ∀ a, (wbMastersOut (trace Sys.step Sys.reset oneRead 1).selected (oneRead 1) a).ack = true ↔
      a = 1 := by
  obtain ⟨-, -, hkept, hacks⟩ := bus_ownership Sys.reset oneRead
  have hown : owner Sys.reset oneRead 1 = 1 := by
    refine hkept 0 1 1 (by decide) (by decide) ?_
    intro j _ hj
    simp [oneRead]
    omega
  obtain ⟨m, rest, hlist, hiff⟩ := hacks rfl oneRead_disciplined 1 rfl
  have hm : (trace Sys.step Sys.reset oneRead 1).unanswered (oneRead 1) = [1] := by decide
  rw [hm] at hlist
  obtain ⟨rfl, -⟩ := List.cons.inj hlist
  exact ⟨hown, hiff⟩

end Microwatt.WishboneArbiter
