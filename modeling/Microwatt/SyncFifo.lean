import Mathlib.Tactic

/-!
# The synchronous FIFO

`sync_fifo.vhdl`: a ring of `DEPTH` entries with a read and a write index.  The last operation tells
an empty ring from a full one.  Data can pass through an empty FIFO, and a full one takes data in
the cycle in which it gives some.
-/

namespace Microwatt.SyncFifo

/-- `op_t`. -/
inductive Op where
  | pop | push
deriving DecidableEq

/-- The registers. -/
structure Fifo (α : Type) where
  memory : Nat → α
  rdIdx : Nat
  wrIdx : Nat
  opPrev : Op

/-- `ispow2`. -/
def isPow2 (n : Nat) : Bool :=
  n &&& (n - 1) == 0

/-- `next_index`. -/
def nextIndex (depth idx : Nat) : Nat :=
  if isPow2 depth then (idx + 1) % depth
  else if idx + 1 = depth then 0 else idx + 1

namespace Fifo

variable {α : Type} (depth : Nat) (f : Fifo α) (rdReady wrValid : Bool) (wrData : α)

def empty : Bool :=
  f.rdIdx == f.wrIdx && f.opPrev == .pop

def full : Bool :=
  f.rdIdx == f.wrIdx && f.opPrev == .push

/-- `wr_ready`. -/
def wrReady : Bool :=
  rdReady || !f.full

/-- `rd_valid`. -/
def rdValid : Bool :=
  wrValid || !f.empty

def push : Bool :=
  f.wrReady rdReady && wrValid

def pop : Bool :=
  rdReady && f.rdValid wrValid

/-- `rd_data`. -/
def rdData : α :=
  if f.empty then wrData else f.memory f.rdIdx

/-- One clock edge outside reset. -/
def step : Fifo α where
  memory := if f.push rdReady wrValid then Function.update f.memory f.wrIdx wrData else f.memory
  rdIdx := if f.pop rdReady wrValid then nextIndex depth f.rdIdx else f.rdIdx
  wrIdx := if f.push rdReady wrValid then nextIndex depth f.wrIdx else f.wrIdx
  opPrev :=
    match f.push rdReady wrValid, f.pop rdReady wrValid with
    | true, false => .push
    | false, true => .pop
    | _, _ => f.opPrev

end Fifo

/-! ## Delta cycles -/

/-- The signals that the concurrent statements drive, apart from the next registers. -/
structure Wires where
  empty : Bool
  full : Bool
  wrReady : Bool
  rdValid : Bool
  push : Bool
  pop : Bool

namespace Fifo

variable {α : Type} (f : Fifo α) (rdReady wrValid : Bool)

/-- A delta cycle: every statement reads what the signals were before it. -/
def delta (w : Wires) : Wires where
  empty := f.empty
  full := f.full
  wrReady := rdReady || !w.full
  rdValid := wrValid || !w.empty
  push := w.wrReady && wrValid
  pop := rdReady && w.rdValid

/-- What the signals are in the end. -/
def settled : Wires where
  empty := f.empty
  full := f.full
  wrReady := f.wrReady rdReady
  rdValid := f.rdValid wrValid
  push := f.push rdReady wrValid
  pop := f.pop rdReady wrValid

/-- Three delta cycles settle the signals, whatever they were before. -/
theorem delta_settles (w : Wires) :
    (f.delta rdReady wrValid)^[3] w = f.settled rdReady wrValid := rfl

end Fifo

/-! ## The queue -/

section

variable {α : Type} {depth : Nat} {f : Fifo α} {q : List α}

/-- The place `i` entries after the beginning of the ring, for `i` below twice its size. -/
def wrap (depth i : Nat) : Nat :=
  if i < depth then i else i - depth

/-- The FIFO holds the entries of `q`, the oldest first. -/
structure Holds (depth : Nat) (f : Fifo α) (q : List α) : Prop where
  pos : 0 < depth
  rdIdx : f.rdIdx < depth
  len : q.length ≤ depth
  wrIdx : f.wrIdx = wrap depth (f.rdIdx + q.length)
  entry : ∀ k a, q[k]? = some a → f.memory (wrap depth (f.rdIdx + k)) = a
  opEmpty : q = [] → f.opPrev = .pop
  opFull : q.length = depth → f.opPrev = .push

theorem nextIndex_eq {idx : Nat} (h : idx < depth) :
    nextIndex depth idx = wrap depth (idx + 1) := by
  unfold nextIndex wrap
  split_ifs with h1 h2 h3 h3
  · exact Nat.mod_eq_of_lt h2
  · have heq : idx + 1 = depth := by omega
    rw [heq, Nat.mod_self]
    omega
  · omega
  · omega
  · omega
  · omega

theorem Holds.empty_iff (h : Holds depth f q) : f.empty = true ↔ q = [] := by
  have h1 := h.rdIdx
  have h2 := h.len
  have h3 := h.wrIdx
  have hpos := h.pos
  unfold Fifo.empty
  simp only [Bool.and_eq_true, beq_iff_eq]
  constructor
  · rintro ⟨heq, hop⟩
    by_contra hne
    have hlen := List.length_pos_iff.mpr hne
    have hfull : q.length = depth := by
      unfold wrap at h3
      split_ifs at h3 <;> omega
    rw [h.opFull hfull] at hop
    cases hop
  · rintro rfl
    refine ⟨?_, h.opEmpty rfl⟩
    rw [h3, wrap, if_pos (by simpa using h1)]
    rfl

theorem Holds.full_iff (h : Holds depth f q) : f.full = true ↔ q.length = depth := by
  have h1 := h.rdIdx
  have h2 := h.len
  have h3 := h.wrIdx
  have hpos := h.pos
  unfold Fifo.full
  simp only [Bool.and_eq_true, beq_iff_eq]
  constructor
  · rintro ⟨heq, hop⟩
    by_contra hne
    have hzero : q.length = 0 := by
      unfold wrap at h3
      split_ifs at h3 <;> omega
    rw [h.opEmpty (List.length_eq_zero_iff.mp hzero)] at hop
    cases hop
  · intro hlen
    refine ⟨?_, h.opFull hlen⟩
    rw [h3, wrap, if_neg (by omega)]
    omega

variable {rdReady wrValid : Bool} {wrData : α}

theorem Holds.wrReady_iff (h : Holds depth f q) :
    f.wrReady rdReady = true ↔ rdReady = true ∨ q.length < depth := by
  have hlen := h.len
  have hroom : ¬q.length = depth ↔ q.length < depth := by omega
  simp only [Fifo.wrReady, Bool.or_eq_true, Bool.not_eq_true', ← Bool.not_eq_true,
    h.full_iff, hroom]

theorem Holds.rdValid_iff (h : Holds depth f q) :
    f.rdValid wrValid = true ↔ wrValid = true ∨ q ≠ [] := by
  simp only [Fifo.rdValid, Bool.or_eq_true, Bool.not_eq_true', ← Bool.not_eq_true, h.empty_iff,
    ne_eq]

/-- What is read is the oldest entry, or the data that passes through. -/
theorem Holds.rdData_eq (h : Holds depth f q) :
    f.rdData wrData = (q ++ [wrData]).head (by simp) := by
  unfold Fifo.rdData
  cases hq : q with
  | nil => simp [h.empty_iff.mpr hq]
  | cons a q' =>
      have hne : ¬f.empty = true := by
        rw [h.empty_iff, hq]
        simp
      have hentry := h.entry 0 a (by rw [hq]; rfl)
      rw [Nat.add_zero, wrap, if_pos h.rdIdx] at hentry
      rw [if_neg hne, hentry]
      rfl

/-- The queue after an edge. -/
def qNext (q : List α) (push pop : Bool) (wrData : α) : List α :=
  let q' := if push then q ++ [wrData] else q
  if pop then q'.tail else q'

theorem wrap_succ {i : Nat} (hpos : 0 < depth) (hi : i < 2 * depth) :
    wrap depth (wrap depth i + 1) = if i + 1 < 2 * depth then wrap depth (i + 1) else 0 := by
  unfold wrap
  split_ifs <;> omega

/-- Different places below the size are different entries. -/
theorem wrap_ne {r k l : Nat} (hk : k < l) (hkl : l < k + depth) :
    wrap depth (r + k) ≠ wrap depth (r + l) := by
  unfold wrap
  split_ifs <;> omega

/-- Data is taken without any being given. -/
theorem Holds.step_push (h : Holds depth f q) (hlt : q.length < depth) :
    Holds depth
      ⟨Function.update f.memory f.wrIdx wrData, f.rdIdx, nextIndex depth f.wrIdx, .push⟩
      (q ++ [wrData]) := by
  have h1 := h.rdIdx
  have h3 := h.wrIdx
  have hwr : f.wrIdx < depth := by
    rw [h3]
    unfold wrap
    split_ifs <;> omega
  refine ⟨h.pos, h1, ?_, ?_, ?_, ?_, fun _ => rfl⟩
  · rw [List.length_append, List.length_singleton]
    omega
  · rw [nextIndex_eq hwr, h3, wrap_succ h.pos (by omega), if_pos (by omega), List.length_append]
    rfl
  · intro k a hk
    rcases Nat.lt_or_ge k q.length with hlt' | hge
    · rw [List.getElem?_append_left hlt'] at hk
      show Function.update f.memory f.wrIdx wrData _ = a
      rw [Function.update_of_ne, h.entry k a hk]
      rw [h3]
      exact wrap_ne hlt' (by omega)
    · have hkl := (List.getElem?_eq_some_iff.mp hk).1
      rw [List.length_append, List.length_singleton] at hkl
      obtain rfl : k = q.length := by omega
      rw [List.getElem?_concat_length] at hk
      show Function.update f.memory f.wrIdx wrData _ = a
      rw [← h3, Function.update_self, Option.some.inj hk]
  · intro hnil
    simp at hnil

/-- Data is given without any being taken. -/
theorem Holds.step_pop (h : Holds depth f q) (hne : q ≠ []) :
    Holds depth ⟨f.memory, nextIndex depth f.rdIdx, f.wrIdx, .pop⟩ q.tail := by
  have h1 := h.rdIdx
  have h2 := h.len
  have h3 := h.wrIdx
  have hlen := List.length_pos_iff.mpr hne
  refine ⟨h.pos, ?_, ?_, ?_, ?_, fun _ => rfl, ?_⟩
  · show nextIndex depth f.rdIdx < depth
    rw [nextIndex_eq h1]
    unfold wrap
    split_ifs <;> omega
  · rw [List.length_tail]
    omega
  · show f.wrIdx = wrap depth (nextIndex depth f.rdIdx + q.tail.length)
    rw [nextIndex_eq h1, h3, List.length_tail]
    unfold wrap
    split_ifs <;> omega
  · intro k a hk
    have hk' : q[k + 1]? = some a := by
      rw [← hk, List.getElem?_tail]
    have hkl := (List.getElem?_eq_some_iff.mp hk').1
    rw [← h.entry (k + 1) a hk']
    show f.memory (wrap depth (nextIndex depth f.rdIdx + k)) = _
    congr 1
    rw [nextIndex_eq h1]
    unfold wrap
    split_ifs <;> omega
  · intro hfull
    rw [List.length_tail] at hfull
    omega

/-- Data is taken and given in the same cycle. -/
theorem Holds.step_both (h : Holds depth f q) :
    Holds depth
      ⟨Function.update f.memory f.wrIdx wrData, nextIndex depth f.rdIdx, nextIndex depth f.wrIdx,
        f.opPrev⟩ (q ++ [wrData]).tail := by
  have h1 := h.rdIdx
  have h2 := h.len
  have h3 := h.wrIdx
  have hwr : f.wrIdx < depth := by
    rw [h3]
    unfold wrap
    split_ifs <;> omega
  have hpos := h.pos
  have hlen : (q ++ [wrData]).tail.length = q.length := by simp
  refine ⟨h.pos, ?_, by omega, ?_, ?_, ?_, ?_⟩
  · show nextIndex depth f.rdIdx < depth
    rw [nextIndex_eq h1]
    unfold wrap
    split_ifs <;> omega
  · show nextIndex depth f.wrIdx = wrap depth (nextIndex depth f.rdIdx + _)
    rw [nextIndex_eq h1, nextIndex_eq hwr, h3, hlen]
    unfold wrap
    split_ifs <;> omega
  · intro k a hk
    rw [List.getElem?_tail] at hk
    have hkl := (List.getElem?_eq_some_iff.mp hk).1
    rw [List.length_append, List.length_singleton] at hkl
    have hplace : wrap depth (nextIndex depth f.rdIdx + k) = wrap depth (f.rdIdx + (k + 1)) := by
      rw [nextIndex_eq h1]
      unfold wrap
      split_ifs <;> omega
    show Function.update f.memory f.wrIdx wrData _ = a
    rw [hplace]
    rcases Nat.lt_or_ge (k + 1) q.length with hlt | hge
    · rw [List.getElem?_append_left hlt] at hk
      rw [Function.update_of_ne, h.entry (k + 1) a hk]
      rw [h3]
      exact wrap_ne hlt (by omega)
    · have heq : k + 1 = q.length := by omega
      rw [heq, List.getElem?_concat_length] at hk
      rw [heq, ← h3, Function.update_self, Option.some.inj hk]
  · intro hnil
    refine h.opEmpty (List.length_eq_zero_iff.mp ?_)
    rw [← hlen, hnil]
    rfl
  · intro hfull
    exact h.opFull (by omega)

/-- The ring follows the queue. -/
theorem Holds.step (h : Holds depth f q) (rdReady wrValid : Bool) (wrData : α) :
    Holds depth (f.step depth rdReady wrValid wrData)
      (qNext q (f.push rdReady wrValid) (f.pop rdReady wrValid) wrData) := by
  have hready : f.wrReady rdReady = true ↔ _ := h.wrReady_iff
  have hvalid : f.rdValid wrValid = true ↔ _ := h.rdValid_iff
  unfold Fifo.step qNext
  cases hpush : f.push rdReady wrValid with
  | true =>
      simp only [Fifo.push, Bool.and_eq_true] at hpush
      cases hpop : f.pop rdReady wrValid with
      | true => simpa using h.step_both
      | false =>
          -- the read side is not ready, so there is room
          have hno : rdReady = false := by
            by_contra hr
            simp [Fifo.pop, hvalid.mpr (Or.inl hpush.2), hr] at hpop
          have hlt := (hready.mp hpush.1).resolve_left (by simp [hno])
          simpa using h.step_push hlt
  | false =>
      cases hpop : f.pop rdReady wrValid with
      | true =>
          simp only [Fifo.pop, Bool.and_eq_true] at hpop
          have hno : wrValid = false := by
            by_contra hw
            simp [Fifo.push, hready.mpr (Or.inl hpop.1), hw] at hpush
          have hne := (hvalid.mp hpop.2).resolve_left (by simp [hno])
          simpa using h.step_pop hne
      | false => simpa using h

/-- Without a push, the FIFO stays full exactly when nothing is read. -/
theorem Holds.full_step (h : Holds depth f q) (hpush : f.push rdReady wrValid = false) :
    (f.step depth rdReady wrValid wrData).full = (f.full && !rdReady) := by
  have hlen := h.len
  have hpos := h.pos
  have h' := h.step rdReady wrValid wrData
  rw [hpush] at h'
  simp only [qNext, Bool.false_eq_true, if_false] at h'
  rw [Bool.eq_iff_iff, h'.full_iff, Bool.and_eq_true, h.full_iff]
  cases hr : rdReady with
  | false => simp [Fifo.pop]
  | true =>
      -- a full FIFO has something to read
      simp only [Bool.not_true, Bool.false_eq_true, and_false, iff_false]
      split_ifs with hpop
      · rw [List.length_tail]
        omega
      · intro hfull
        have hne : q ≠ [] := by
          rintro rfl
          simp only [List.length_nil] at hfull
          omega
        exact hpop (by simp [Fifo.pop, h.rdValid_iff.mpr (Or.inr hne)])

end

end Microwatt.SyncFifo
