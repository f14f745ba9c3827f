import Microwatt.Lms.Step

/-!
# Accesses to the LMS filter and their timing

A master makes one access after the other and holds each until it is acked, with any number of idle
cycles in between.  The filter takes a step in every cycle, so an idle cycle is a step with the same
sample once more.
-/

namespace Microwatt.Lms

/-- A register access. -/
structure Access where
  we : Bool
  adr : BitVec 32
  dat : BitVec 16
deriving DecidableEq

/-- What a master does next: it waits for a cycle, or makes an access. -/
inductive Item where
  | idle (b : Bus) (h : (b.cyc && b.stb) = false)
  | access (a : Access)

namespace Access

variable (a : Access)

def bus : Bus := ⟨true, true, a.we, a.adr, a.dat⟩

/-- The access is a write of `x_in`. -/
def writesX : Bool :=
  a.we && a.adr.extractLsb' 2 4 == 0

end Access

/-- The state after an item.  An access is taken in one cycle and acked in the next. -/
def next (s : State) : Item → State
  | .idle b _ => step s b
  | .access a => step (step s a.bus) a.bus

/-- The state after a sequence of items. -/
def run (s : State) (r : List Item) : State :=
  r.foldl next s

/-- The accesses of a run. -/
def accesses : List Item → List Access
  | [] => []
  | .idle _ _ :: r => accesses r
  | .access a :: r => a :: accesses r

/-- The values that the reads of a run return, each taken from the bus when it is acked. -/
def reads (s : State) : List Item → List (BitVec 16)
  | [] => []
  | .idle b h :: r => reads (next s (.idle b h)) r
  | .access a :: r =>
      (if a.we then [] else [(step s a.bus).datO]) ++ reads (next s (.access a)) r

/-- The values written to `x_in`, the last one first. -/
def samples (l : List Access) : List (BitVec 16) :=
  (l.filter Access.writesX).reverse.map Access.dat

/-- The last four values written to `x_in`. -/
def lastFour (l : List Access) : Fin 4 → BitVec 16 :=
  fun k => (samples l).getD k 0

/-- However the accesses are spaced, the reads return the same values, and the taps are the last
four samples. -/
def TimingIndependent (l : List Access) : Prop :=
  ∀ r r' : List Item, accesses r = l → accesses r' = l →
    reads State.init r = reads State.init r' ∧
    ∀ pre, pre <+: r → (run State.init pre).core.x = lastFour (accesses pre)

/-! ## Without samples -/

/-- All the samples so far were zero: only the error can be different from zero, and between two
accesses it is the desired output in training mode. -/
structure Zero (s : State) : Prop where
  wn : s.core.wn = fun _ => 0
  x : s.core.x = fun _ => 0
  xIn : s.regs.xIn = 0
  errReg : s.core.errReg = if s.regs.modeTrain then s.regs.dIn else 0
  ackO : s.ackO = false

section

variable {s : State} {b : Bus} {a : Access}

@[simp] theorem mul_zero_right (w : BitVec 16) : mul w 0#16 = 0#32 := by
  simp [mul]

@[simp] theorem quantize_zero : quantize 0#32 = 0#16 := rfl

theorem yOut_of_zero {c : Core} (hx : c.x = fun _ => 0) : c.yOut = 0 := by
  simp [Core.yOut, Core.yAcc, hx]

theorem m_of_zero {c : Core} (hx : c.x = fun _ => 0) (k : Fin 4) : c.m k = 0 := by
  simp [Core.m, hx]

/-- With zero taps and a zero sample the filter only takes in the error. -/
theorem core_step_of_zero {c : Core} {i : CoreIn} (hw : c.wn = fun _ => 0)
    (hx : c.x = fun _ => 0) (hi : i.xIn = 0) :
    (c.step i).wn = (fun _ => 0) ∧ (c.step i).x = (fun _ => 0) ∧
    (c.step i).errReg = if i.modeTrain then i.dIn else 0 := by
  refine ⟨?_, ?_, ?_⟩
  · funext k
    simp [Core.step, hw, m_of_zero hx]
  · funext k
    fin_cases k <;> simp [Core.step, hx, hi]
  · simp [Core.step, yOut_of_zero hx]

theorem Zero.idle (h : Zero s) (hb : (b.cyc && b.stb) = false) :
    Zero (step s b) ∧ (step s b).regs = s.regs := by
  have ht : taken s b = false := by simp [taken, hb]
  have hregs : (step s b).regs = s.regs := by simp [step, ht]
  obtain ⟨hw, hx, he⟩ := core_step_of_zero h.wn h.x h.xIn
  refine ⟨⟨hw, hx, ?_, ?_, ht⟩, hregs⟩
  · rw [hregs]
    exact h.xIn
  · rw [hregs]
    exact he

/-- What an access does to the registers. -/
def Access.apply (a : Access) (r : CoreIn) : CoreIn :=
  if a.we then writeRegs r a.adr a.dat else r

/-- A sample that is not written stays, and one that is written is zero. -/
theorem apply_xIn {r : CoreIn} (hr : r.xIn = 0) (ha : a.writesX = true → a.dat = 0) :
    (a.apply r).xIn = 0 := by
  unfold Access.apply
  split_ifs with hw
  · unfold writeRegs
    split
    · rename_i h0
      refine ha ?_
      have hz : a.adr.extractLsb' 2 4 = 0 := BitVec.eq_of_toNat_eq h0
      simp [Access.writesX, hw, hz]
    · exact hr
    · exact hr
    · exact hr
  · exact hr

/-- The cycle in which an access is taken. -/
theorem step_access (h : s.ackO = false) :
    (step s a.bus).core = s.core.step s.regs ∧ (step s a.bus).regs = a.apply s.regs ∧
    (a.we = false → (step s a.bus).datO = readOut s.core a.adr) ∧ (step s a.bus).ackO = true := by
  have ht : taken s a.bus = true := by simp [taken, Access.bus, h]
  refine ⟨rfl, ?_, ?_, ht⟩
  · simp only [step, ht, Bool.true_and]
    rfl
  · intro hw
    have hw' : a.bus.we = false := hw
    simp only [step, ht, hw', Bool.not_false, Bool.and_self, if_true]
    rfl

/-- An access takes two cycles. -/
theorem next_access (h : s.ackO = false) :
    (next s (.access a)).core = (s.core.step s.regs).step (a.apply s.regs) ∧
    (next s (.access a)).regs = a.apply s.regs ∧ (next s (.access a)).ackO = false := by
  obtain ⟨hc, hr, -, hk⟩ := @step_access s a h
  have ht : taken (step s a.bus) a.bus = false := by simp [taken, hk]
  refine ⟨?_, ?_, ht⟩
  · show (step s a.bus).core.step (step s a.bus).regs = _
    rw [hc, hr]
  · show (if taken (step s a.bus) a.bus && a.bus.we then _ else (step s a.bus).regs) = _
    rw [ht]
    exact hr

theorem Zero.access (h : Zero s) (ha : a.writesX = true → a.dat = 0) :
    Zero (next s (.access a)) ∧ (next s (.access a)).regs = a.apply s.regs := by
  obtain ⟨hc, hr, hk⟩ := @next_access s a h.ackO
  have hxin := apply_xIn h.xIn ha
  obtain ⟨hw1, hx1, -⟩ := core_step_of_zero h.wn h.x h.xIn
  obtain ⟨hw2, hx2, he2⟩ := core_step_of_zero hw1 hx1 hxin
  refine ⟨⟨?_, ?_, ?_, ?_, hk⟩, hr⟩
  · rw [hc]; exact hw2
  · rw [hc]; exact hx2
  · rw [hr]; exact hxin
  · rw [hc, hr]; exact he2

/-- What a read returns when all the samples are zero. -/
def zeroOut (r : CoreIn) (adr : BitVec 32) : BitVec 16 :=
  if adr.extractLsb' 2 4 = 4 ∧ r.modeTrain = true then r.dIn else 0

theorem Zero.readOut (h : Zero s) (adr : BitVec 32) : readOut s.core adr = zeroOut s.regs adr := by
  unfold Lms.readOut zeroOut
  have hn : adr.extractLsb' 2 4 = 4 ↔ (adr.extractLsb' 2 4).toNat = 4 :=
    ⟨fun h => by rw [h]; rfl, fun h => BitVec.eq_of_toNat_eq h⟩
  simp only [hn]
  split
  case h_2 h4 =>
    rw [h.errReg]
    simp [h4]
  all_goals simp_all [yOut_of_zero h.x, h.wn]

/-- The values that reads return when all the samples are zero. -/
def zeroReads (r : CoreIn) : List Access → List (BitVec 16)
  | [] => []
  | a :: l => (if a.we then [] else [zeroOut r a.adr]) ++ zeroReads (a.apply r) l

/-- They do not depend on the idle cycles. -/
theorem Zero.reads (r : List Item) (h : Zero s)
    (hz : ∀ a ∈ accesses r, a.writesX = true → a.dat = 0) :
    reads s r = zeroReads s.regs (accesses r) ∧ Zero (run s r) := by
  induction r generalizing s with
  | nil => exact ⟨rfl, h⟩
  | cons item r ih =>
      cases item with
      | idle b hb =>
          obtain ⟨h', hregs⟩ := h.idle hb
          obtain ⟨hr, hrun⟩ := ih h' hz
          refine ⟨?_, hrun⟩
          rw [hregs] at hr
          exact hr
      | access a =>
          obtain ⟨h', hregs⟩ := h.access (hz a List.mem_cons_self)
          obtain ⟨hr, hrun⟩ := ih h' fun b hb => hz b (List.mem_cons_of_mem a hb)
          refine ⟨?_, hrun⟩
          simp only [Lms.reads, accesses, zeroReads]
          rw [hr, hregs]
          cases hw : a.we
          · rw [(step_access h.ackO).2.2.1 hw, h.readOut]
          · rfl

theorem zero_init : Zero State.init :=
  ⟨rfl, rfl, rfl, rfl, rfl⟩

theorem lastFour_of_zero {l : List Access} (hz : ∀ a ∈ l, a.writesX = true → a.dat = 0) :
    lastFour l = fun _ => 0 := by
  funext k
  have hall : ∀ v ∈ samples l, v = 0 := by
    intro v hv
    simp only [samples, List.mem_map, List.mem_reverse, List.mem_filter] at hv
    obtain ⟨a, ⟨ha, hx⟩, rfl⟩ := hv
    exact hz a ha hx
  unfold lastFour
  rw [List.getD_eq_getElem?_getD]
  cases hk : (samples l)[k.val]? with
  | none => rfl
  | some v => exact hall v (List.mem_of_getElem? hk)

/-! ## With a sample -/

/-- The first sample that is not zero is in two taps after one idle cycle. -/
theorem Zero.tap_twice (h : Zero s) (ha : a.writesX = true) (hb : (b.cyc && b.stb) = false) :
    (next (next s (.access a)) (.idle b hb)).core.x 1 = a.dat := by
  obtain ⟨hc, hr, -⟩ := @next_access s a h.ackO
  have hx : (a.apply s.regs).xIn = a.dat := by
    simp only [Access.writesX, Bool.and_eq_true, beq_iff_eq] at ha
    simp [Access.apply, ha.1, writeRegs, ha.2]
  show ((next s (.access a)).core.step (next s (.access a)).regs).x 1 = a.dat
  rw [hc]
  simp [Core.step, hx]

theorem accesses_append (r r' : List Item) : accesses (r ++ r') = accesses r ++ accesses r' := by
  induction r with
  | nil => rfl
  | cons item r ih => cases item <;> simp [accesses, ih]

theorem accesses_map (l : List Access) : accesses (l.map .access) = l := by
  induction l with
  | nil => rfl
  | cons a l ih => simp [accesses, ih]

/-- The first access of a kind in a list. -/
theorem exists_first {P : Access → Prop} [DecidablePred P] {l : List Access}
    (h : ∃ a ∈ l, P a) : ∃ l₁ a l₂, l = l₁ ++ a :: l₂ ∧ P a ∧ ∀ b ∈ l₁, ¬ P b := by
  induction l with
  | nil => simp at h
  | cons a l ih =>
      by_cases ha : P a
      · exact ⟨[], a, l, rfl, ha, by simp⟩
      · obtain ⟨l₁, c, l₂, rfl, hc, hb⟩ := ih (by simpa [ha] using h)
        refine ⟨a :: l₁, c, l₂, rfl, hc, ?_⟩
        intro b hmem
        rcases List.mem_cons.mp hmem with rfl | hmem
        · exact ha
        · exact hb b hmem

/-- The reads are independent of the timing, and the taps are the last samples, if and only if every
sample is zero. -/
theorem timing_independent_iff (l : List Access) :
    TimingIndependent l ↔ ∀ a ∈ l, a.writesX = true → a.dat = 0 := by
  constructor
  · intro htime
    by_contra hno
    have hex : ∃ a ∈ l, a.writesX = true ∧ a.dat ≠ 0 := by
      push Not at hno
      exact hno
    obtain ⟨l₁, a, l₂, rfl, ⟨ha, hd⟩, hfirst⟩ := exists_first hex
    -- one idle cycle after the first sample that is not zero
    let pre := l₁.map Item.access ++ [.access a, .idle ⟨false, false, false, 0, 0⟩ rfl]
    let r := pre ++ l₂.map Item.access
    have hacc : accesses pre = l₁ ++ [a] := by
      simp [pre, accesses_append, accesses_map, accesses]
    have hr : accesses r = l₁ ++ a :: l₂ := by
      simp [r, accesses_append, hacc, accesses_map]
    have hz : ∀ b ∈ l₁, b.writesX = true → b.dat = 0 := by
      intro b hb hbx
      by_contra hbd
      exact hfirst b hb ⟨hbx, hbd⟩
    have htap := congrFun ((htime r r hr hr).2 pre (List.prefix_append _ _)) 1
    rw [hacc] at htap
    have hzero : Zero (run State.init (l₁.map Item.access)) :=
      (zero_init.reads _ (by rw [accesses_map]; exact hz)).2
    have hleft : (run State.init pre).core.x 1 = a.dat := by
      have hrun : run State.init pre = next (next (run State.init (l₁.map Item.access)) (.access a))
          (.idle ⟨false, false, false, 0, 0⟩ rfl) := by
        simp [pre, run]
      rw [hrun]
      exact hzero.tap_twice ha rfl
    have hright : lastFour (l₁ ++ [a]) 1 = 0 := by
      have hzl := congrFun (lastFour_of_zero hz) 0
      simp only [lastFour, samples] at hzl ⊢
      simpa [List.filter_append, ha] using hzl
    rw [hleft, hright] at htap
    exact hd htap
  · intro hz r r' hr hr'
    refine ⟨?_, ?_⟩
    · rw [(zero_init.reads r (by rw [hr]; exact hz)).1,
        (zero_init.reads r' (by rw [hr']; exact hz)).1, hr, hr']
    · rintro pre ⟨suf, rfl⟩
      have hzpre : ∀ a ∈ accesses pre, a.writesX = true → a.dat = 0 := by
        intro a ha
        refine hz a ?_
        rw [← hr, accesses_append]
        exact List.mem_append_left _ ha
      rw [(zero_init.reads pre hzpre).2.x, lastFour_of_zero hzpre]

/-- Training with a sample of 1.0 and a desired output of 1.0, and reading `w0` at once or a cycle
later: the weight has gone one step further. -/
theorem w0_depends_on_idle_cycle :
    ¬ TimingIndependent [⟨true, 8, 1⟩, ⟨true, 0, 0x1000⟩, ⟨true, 4, 0x1000⟩, ⟨false, 20, 0⟩] := by
  intro h
  have hreads := (h
    [.access ⟨true, 8, 1⟩, .access ⟨true, 0, 0x1000⟩, .access ⟨true, 4, 0x1000⟩,
      .access ⟨false, 20, 0⟩]
    [.access ⟨true, 8, 1⟩, .access ⟨true, 0, 0x1000⟩, .access ⟨true, 4, 0x1000⟩,
      .idle ⟨false, false, false, 0, 0⟩ rfl, .access ⟨false, 20, 0⟩] rfl rfl).1
  exact absurd hreads (by decide +kernel)

end

end Microwatt.Lms
