import Microwatt.Xilinx.Multiply32s
import Microwatt.Xilinx.Product

/-!
# The two architectures of the multipliers

The multiplier in DSP slices and the portable one, with the same inputs.  What the slices show in a
cycle the portable pipeline shows one cycle later: `Multiply.step` with the inputs of the cycle is
the portable multiplier after the edge at its end.  The short multipliers show the same in the same
cycle.
-/

namespace Microwatt.Xilinx

open Dsp48

variable {D : Slice}

namespace Mult

/-- A detector that is not behind a register sees the sum that is shown. -/
theorem outP1_patterns (u : Mult D) (k : MultiplyInput) :
    (u.outP1 k).patterndetect = allZero 0 (u.outP1 k).p ∧
      (u.outP1 k).patternbdetect = allOne 0 (u.outP1 k).p := by
  rw [outP1, D.out_eq]
  exact ⟨rfl, rfl⟩

/-- The overflow of an operation that has just come out. -/
theorem overflow_step {u : Mult D} (hv : u.valid1 = true) (j k : MultiplyInput) :
    ((u.step j).step k).overflow = Multiply.overflows ((u.step j).product k) := by
  obtain ⟨hzero, hone⟩ := outP1_patterns (u.step j) k
  have hp0 := outP0_step j k hv
  have hzero0 : ((u.step j).outP0 k).patterndetect =
      allZero 0x00007fffffff ((u.step j).outP0 k).p := by rw [hp0]
  have hone0 : ((u.step j).outP0 k).patternbdetect =
      allOne 0x00007fffffff ((u.step j).outP0 k).p := by rw [hp0]
  rw [product, overflows_append, ← hzero, ← hone, ← hzero0, ← hone0]
  rfl

/-- The three vectors of an operation have no low bits where the slices do not add them. -/
theorem Holds.low_zero {u : Mult D} {i : MultiplyInput} (h : Holds u i) (j : MultiplyInput) :
    (u.pp1 j).extractLsb' 0 24 = 0 ∧ (u.pp23 j).extractLsb' 0 32 = 0 := by
  have hdvd {n : Nat} {x : Int} (hx : (2 : Int) ^ n ∣ x) : BitVec.ofInt n x = 0 := by
    obtain ⟨c, rfl⟩ := hx
    rw [BitVec.ofInt_mul]
    have hpow : BitVec.ofInt n (2 ^ n) = 0 := by
      rw [show (2 : Int) ^ n = ((2 ^ n : Nat) : Int) by norm_cast, BitVec.ofInt_natCast]
      exact BitVec.eq_of_toNat_eq (by rw [BitVec.toNat_ofNat, Nat.mod_self]; rfl)
    rw [hpow, show (0 : BitVec n) = 0#n from rfl, BitVec.zero_mul]
  rw [h.pp1, h.pp23, extractLsb'_ofInt (by decide), extractLsb'_ofInt (by decide), pow_zero,
    Int.ediv_one, Int.ediv_one]
  exact ⟨hdvd (Dvd.intro _ rfl), hdvd (by omega)⟩

/-- What comes out is what the portable architecture computes. -/
theorem Holds.product_step {u : Mult D} {i : MultiplyInput} (h : Holds u i)
    (hv : u.valid1 = true) (hr : u.rnot1 = i.subtract) (j k : MultiplyInput) :
    (u.step j).product k = Multiply.product i := by
  obtain ⟨hq, hr'⟩ := h.low_zero j
  rw [Mult.product_step j k hv hq hr', h.sum, hr, Multiply.product, addend]
  cases i.subtract with
  | false => exact BitVec.add_comm _ _
  | true =>
    -- `~(p + ~a)` is `a - p`.
    simp only [Bool.not_true, Bool.false_eq_true, if_false, if_true]
    rw [BitVec.add_comm, BitVec.not_add_eq_not_neg, BitVec.not_not]

/-- The two architectures after the same run. -/
structure Lockstep (u : Mult D) (v : Multiply) : Prop where
  valid1 : u.valid1 = v.m.valid
  holds : v.m.valid = true → u.rnot1 = v.m.subtract ∧ Holds u v.m
  valid : u.valid = v.stage0.valid
  product : v.stage0.valid = true → ∀ k, u.product k = v.stage0.data ∧
    (u.step k).overflow = Multiply.overflows v.stage0.data
  overflow : v.stage1.valid = true → u.overflow = Multiply.overflows v.stage1.data

theorem Lockstep.step {u : Mult D} {v : Multiply} (h : Lockstep u v) (j : MultiplyInput) :
    Lockstep (u.step j) (v.step j) where
  valid1 := rfl
  holds := fun hv => ⟨rfl, holds_step u hv⟩
  valid := h.valid1
  product := fun hv k => by
    obtain ⟨hrnot, hholds⟩ := h.holds hv
    have hv1 : u.valid1 = true := h.valid1.trans hv
    have hproduct := hholds.product_step hv1 hrnot j k
    exact ⟨hproduct, by rw [overflow_step hv1, hproduct]; rfl⟩
  overflow := fun hv => (h.product hv j).2

theorem Lockstep.run {u : Mult D} {v : Multiply} (h : Lockstep u v) (is : List MultiplyInput) :
    Lockstep (Clocked.run Mult.step u is) (Clocked.run Multiply.step v is) := by
  induction is generalizing u v with
  | nil => exact h
  | cons i is ih => exact ih (h.step i)

/-- No operation is in the slices. -/
def Idle (u : Mult D) : Prop := u.valid1 = false ∧ u.valid = false

end Mult

/-- No operation is in the portable pipeline. -/
def PipelineIdle (v : Multiply) : Prop :=
  v.m.valid = false ∧ v.stage0.valid = false ∧ v.stage1.valid = false

theorem Mult.Lockstep.of_idle {u : Mult D} {v : Multiply} (hu : u.Idle) (hv : PipelineIdle v) :
    Mult.Lockstep u v where
  valid1 := hu.1.trans hv.1.symm
  holds := fun h => absurd h (by rw [hv.1]; decide)
  valid := hu.2.trans hv.2.1.symm
  product := fun h => absurd h (by rw [hv.2.1]; decide)
  overflow := fun h => absurd h (by rw [hv.2.2]; decide)

/-- What the long multiplier shows in a cycle is what the portable one shows a cycle later. -/
theorem Mult.Lockstep.out {u : Mult D} {v : Multiply} (h : Mult.Lockstep u v) (j : MultiplyInput) :
    (u.out j).valid = (v.step j).out.valid ∧
      ((v.step j).out.valid = true → (u.out j).result = (v.step j).out.result) ∧
      (v.out.valid = true → (u.out j).overflow = (v.step j).out.overflow) :=
  ⟨h.valid, fun hv => (h.product hv j).1, h.overflow⟩

/-- An operation comes out of the slices two cycles after it has been put in, and its overflow one
cycle after it. -/
theorem Mult.Lockstep.result {u : Mult D} {v : Multiply} (h : Mult.Lockstep u v)
    (q j k : MultiplyInput) (hq : q.valid = true) :
    (((u.step q).step j).out k).result = Multiply.product q ∧
      ∀ l, ((((u.step q).step j).step k).out l).overflow =
        Multiply.overflows (Multiply.product q) := by
  have hproduct := ((h.step q).step j).product hq k
  exact ⟨hproduct.1, fun _ => hproduct.2⟩

/-- A step of the short multipliers, with the stall and the inputs of a cycle. -/
def Mult32s.stepWith (u : Mult32s D) (q : Bool × MultiplyInput) : Mult32s D := u.step q.2 q.1

def portable32s (v : Multiply32s) (q : Bool × MultiplyInput) : Multiply32s := v.step q.1 q.2

theorem Mult32s.Lockstep.run {u : Mult32s D} {v : Multiply32s} (h : Mult32s.Lockstep u v)
    (is : List (Bool × MultiplyInput)) :
    Mult32s.Lockstep (Clocked.run Mult32s.stepWith u is) (Clocked.run portable32s v is) := by
  induction is generalizing u v with
  | nil => exact h
  | cons q is ih => exact ih (h.step q.1 q.2)

/-- The multipliers in slices compute what the portable ones do, the long one a cycle earlier. -/
theorem multipliers_agree (D : Slice) :
    (∀ (u : Mult D) (v : Multiply), u.Idle → PipelineIdle v → ∀ is : List MultiplyInput,
      let u' := Clocked.run Mult.step u is
      let v' := Clocked.run Multiply.step v is
      (∀ j, (u'.out j).valid = (v'.step j).out.valid ∧
        ((v'.step j).out.valid = true → (u'.out j).result = (v'.step j).out.result) ∧
        (v'.out.valid = true → (u'.out j).overflow = (v'.step j).out.overflow)) ∧
      ∀ q j k, q.valid = true →
        (((u'.step q).step j).out k).result = Multiply.product q ∧
        ∀ l, ((((u'.step q).step j).step k).out l).overflow =
          Multiply.overflows (Multiply.product q)) ∧
    ∀ (u : Mult32s D) (v : Multiply32s), u.valid = false → v.valid = false →
      ∀ is : List (Bool × MultiplyInput),
        let u' := Clocked.run Mult32s.stepWith u is
        let v' := Clocked.run portable32s v is
        ∀ stall i, (u'.out i stall).1 = v'.out.valid ∧
          (v'.out.valid = true → (u'.out i stall).2.1 = v'.out.result.extractLsb' 0 64 ∧
            (u'.out i stall).2.2 = v'.out.overflow) := by
  refine ⟨fun u v hu hv is => ?_, fun u v hu hv is stall i => ?_⟩
  · have h := (Mult.Lockstep.of_idle hu hv).run is
    exact ⟨h.out, h.result⟩
  · have h : Mult32s.Lockstep u v :=
      ⟨hu.trans hv.symm, fun hvalid => absurd hvalid (by rw [hv]; decide)⟩
    exact (h.run is).out stall i

section Example

/-- A request. -/
def request : MultiplyInput := ⟨true, 3, 5, 7, false, false⟩

def clearedRegs : Regs := ⟨0, 0, 0, false, 0, 0, false, false, false⟩

/-- The long multiplier in slices that are as documented, with nothing in it. -/
def clearedMult : Mult Slice.reference where
  m00 := clearedRegs
  m01 := clearedRegs
  m02 := clearedRegs
  m03 := clearedRegs
  m10 := clearedRegs
  m11 := clearedRegs
  m12 := clearedRegs
  m13 := clearedRegs
  m20 := clearedRegs
  m21 := clearedRegs
  m22 := clearedRegs
  m23 := clearedRegs
  s0 := clearedRegs
  s1 := clearedRegs
  p0 := clearedRegs
  p1 := clearedRegs
  productLo := 0
  rnot1 := false
  valid1 := false
  valid := false
  overflow := false

def clearedPipeline : Multiply := ⟨⟨false, 0, 0, 0, false, false⟩, ⟨false, 0⟩, ⟨false, 0⟩, false⟩

def clearedMult32s : Mult32s Slice.reference :=
  ⟨clearedRegs, clearedRegs, clearedRegs, clearedRegs, false, 0⟩

/-- A request to each: the long one is shown by the portable pipeline in the next cycle, the short
one, which a stall holds, in the same. -/
theorem multipliers_agree_request :
    ((Clocked.run Mult.step clearedMult [request, request]).out request).result =
        ((Clocked.run Multiply.step clearedPipeline [request, request]).step request).out.result ∧
      ((Clocked.run Mult32s.stepWith clearedMult32s [(false, request), (true, request)]).out
          request true).2.1 =
        (Clocked.run portable32s ⟨false, 0⟩
          [(false, request), (true, request)]).out.result.extractLsb' 0 64 := by
  obtain ⟨hlong, hshort⟩ := multipliers_agree Slice.reference
  have h := hlong clearedMult clearedPipeline ⟨rfl, rfl⟩ ⟨rfl, rfl, rfl⟩ [request, request]
  have h' := hshort clearedMult32s ⟨false, 0⟩ rfl rfl [(false, request), (true, request)]
  exact ⟨(h.1 request).2.1 rfl, ((h' true request).2 rfl).1⟩

/-- Two cycles after a request only the slices have a result. -/
theorem not_same_latency :
    ¬ ∀ (is : List MultiplyInput) (j : MultiplyInput),
      ((Clocked.run Mult.step clearedMult is).out j).valid =
        (Clocked.run Multiply.step clearedPipeline is).out.valid :=
  fun h => absurd (h [request, request] request) (by decide)

end Example

end Microwatt.Xilinx
