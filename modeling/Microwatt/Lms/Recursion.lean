import Microwatt.Lms.Step

/-!
# The LMS recursion

In training mode each weight moves by `gamma * e * x`.  The error is registered and the taps move on
with the same edge, so the error that meets the taps in an update is that of the taps one sample
earlier.
-/

namespace Microwatt.Lms

open Clocked

/-- A sample: the input and the desired output. -/
structure Sample where
  x : BitVec 16
  d : BitVec 16

/-- What the filter gets with a sample, in training mode. -/
def Sample.train (p : Sample) : CoreIn := ⟨true, p.x, p.d⟩

/-- An exact product back in Q4.12: `floor (v / 2^12)` modulo `2^16`. -/
def Q (v : Int) : BitVec 16 :=
  BitVec.ofInt 16 (v / 2 ^ 12)

/-- The output of a filter with weights `w` for the taps `x`. -/
def filter (w x : Fin 4 → BitVec 16) : BitVec 16 :=
  Q (∑ k, (w k).toInt * (x k).toInt)

/-- The taps after a sample. -/
def shift (x : Fin 4 → BitVec 16) (xIn : BitVec 16) : Fin 4 → BitVec 16 :=
  ![xIn, x 0, x 1, x 2]

/-- The filter after a sequence of samples in training mode, one per clock, from reset. -/
def trained (l : List Sample) : Core :=
  run Core.step Core.init (l.map Sample.train)

/-- The filter trained with `l` follows the recursion: each update adds `gamma * e * x_i` to the
weights, and from the first sample on the error `e` is the desired output of the newest sample less
the output for the very taps that the error is multiplied with. -/
structure Recursion (l : List Sample) : Prop where
  update : ∀ pre p, pre ++ [p] <+: l → ∀ k, (trained (pre ++ [p])).wn k = (trained pre).wn k +
    Q (gamma.toInt * (Q ((trained pre).errReg.toInt * ((trained pre).x k).toInt)).toInt)
  error : ∀ pre p q, pre ++ [p, q] <+: l → (trained (pre ++ [p])).errReg =
    p.d - filter (trained pre).wn (trained (pre ++ [p])).x

/-- The output for the taps does not change when the sample is shifted in. -/
def SameOutput (c : Core) (p : Sample) : Prop :=
  filter c.wn (shift c.x p.x) = filter c.wn c.x

instance (c : Core) (p : Sample) : Decidable (SameOutput c p) :=
  inferInstanceAs (Decidable (_ = _))

/-- Bits 27 to 12 of a word do not depend on what the word has lost above bit 31. -/
theorem quantize_ofInt (v : Int) : quantize (BitVec.ofInt 32 v) = Q v := by
  apply BitVec.eq_of_toNat_eq
  simp only [quantize, Q, BitVec.extractLsb'_toNat, BitVec.toNat_ofInt, Nat.shiftRight_eq_div_pow]
  omega

theorem mul_eq (a b : BitVec 16) : mul a b = BitVec.ofInt 32 (a.toInt * b.toInt) := by
  rw [mul, BitVec.ofInt_mul]
  rfl

theorem m_eq (c : Core) (k : Fin 4) :
    c.m k = Q (gamma.toInt * (Q (c.errReg.toInt * (c.x k).toInt)).toInt) := by
  rw [Core.m, mul_eq, mul_eq, quantize_ofInt, quantize_ofInt]

theorem yOut_eq (c : Core) : c.yOut = filter c.wn c.x := by
  rw [Core.yOut, Core.yAcc, mul_eq, mul_eq, mul_eq, mul_eq, ← BitVec.ofInt_add, ← BitVec.ofInt_add,
    ← BitVec.ofInt_add, quantize_ofInt, filter, Fin.sum_univ_four]

theorem trained_append (pre : List Sample) (p : Sample) :
    trained (pre ++ [p]) = (trained pre).step p.train := by
  simp [trained, run, List.map_append]

section

variable (c : Core) (p : Sample)

theorem x_step : (c.step p.train).x = shift c.x p.x := rfl

theorem wn_step (k : Fin 4) : (c.step p.train).wn k = c.wn k + c.m k := rfl

/-- The registered error is that of the taps before the edge. -/
theorem errReg_step : (c.step p.train).errReg = p.d - filter c.wn c.x := by
  rw [← yOut_eq]
  rfl

/-- It is the error of the taps after the edge exactly when both give the same output. -/
theorem errReg_step_iff :
    (c.step p.train).errReg = p.d - filter c.wn (c.step p.train).x ↔ SameOutput c p := by
  rw [errReg_step, x_step]
  constructor
  · intro h
    exact ((BitVec.sub_right_inj _).mp h).symm
  · intro h
    rw [SameOutput] at h
    rw [h]

end

/-- Outside training the weights stay, whatever comes. -/
theorem wn_of_filtering (c : Core) (is : List CoreIn) (h : ∀ i ∈ is, i.modeTrain = false) :
    (run Core.step c is).wn = c.wn := by
  induction is generalizing c with
  | nil => rfl
  | cons i is ih =>
      have hi : (c.step i).wn = c.wn := by
        funext k
        simp [Core.step, h i List.mem_cons_self]
      rw [run_cons, ih _ fun j hj => h j (List.mem_cons_of_mem i hj), hi]

/-- The filter follows the recursion if and only if no sample that an update comes after changes the
output when it is shifted in; and outside training the weights never change. -/
theorem recursion_iff (l : List Sample) (c : Core) (is : List CoreIn) :
    (Recursion l ↔ ∀ pre p q, pre ++ [p, q] <+: l → SameOutput (trained pre) p) ∧
    ((∀ i ∈ is, i.modeTrain = false) → (run Core.step c is).wn = c.wn) := by
  refine ⟨⟨fun h pre p q hpre => ?_, fun h => ⟨fun pre p _ k => ?_, ?_⟩⟩, wn_of_filtering c is⟩
  · have he := h.error pre p q hpre
    rw [trained_append] at he
    exact (errReg_step_iff _ _).mp he
  · rw [trained_append]
    rw [wn_step, m_eq]
  · intro pre p q hpre
    rw [trained_append]
    exact (errReg_step_iff _ _).mpr (h pre p q hpre)

/-- A sample outside training, after two of training. -/
theorem recursion_iff_filtering :
    (run Core.step (trained [⟨0x1000, 0x1000⟩, ⟨0x1000, 0x1000⟩]) [⟨false, 0x1000, 0⟩]).wn =
      (trained [⟨0x1000, 0x1000⟩, ⟨0x1000, 0x1000⟩]).wn :=
  (recursion_iff [] _ [⟨false, 0x1000, 0⟩]).2 (by simp)

/-- The samples 1.0, 0.0, 1.0 and 0.0, with 1.0 desired: the third update multiplies the error of
the taps 0.0 and 1.0 with the taps 1.0, 0.0 and 1.0. -/
def alternating : List Sample :=
  [⟨0x1000, 0x1000⟩, ⟨0, 0x1000⟩, ⟨0x1000, 0x1000⟩, ⟨0, 0x1000⟩]

theorem not_recursion_alternating : ¬Recursion alternating := by
  intro h
  have hlast := h.error [⟨0x1000, 0x1000⟩, ⟨0, 0x1000⟩] ⟨0x1000, 0x1000⟩ ⟨0, 0x1000⟩
    (List.prefix_rfl)
  exact absurd hlast (by decide +kernel)

end Microwatt.Lms
