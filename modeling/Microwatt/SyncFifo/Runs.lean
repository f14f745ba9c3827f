import Microwatt.Lib.Fair
import Microwatt.SyncFifo

/-!
# Runs of the synchronous FIFO

For every depth and in every run, resets included, the words given are the words taken since the
last reset, in order, and at most `DEPTH` of them are held.  The index arithmetic stays inside the
range of `index_t` for a depth that is a power of two.  For another depth `next_index` assigns
`idx + 1` to a variable of that range before it compares it with `DEPTH`, so the last entry of the
ring is one step too many.  It is called for an index as soon as the index is in its register: in
the first delta cycle after an edge `push` and `pop` are still what they were at the edge.
-/

namespace Microwatt.SyncFifo

variable {α : Type} (depth : Nat)

/-- The values that `next_index` assigns to its variable `r`, one after the other. -/
def indexValues (idx : Nat) : List Nat :=
  if isPow2 depth then [(idx + 1) % depth]
  else if idx + 1 = depth then [idx + 1, 0] else [idx + 1]

/-- What `next_index` returns is the last of them. -/
theorem getLast?_indexValues (idx : Nat) :
    (indexValues depth idx).getLast? = some (nextIndex depth idx) := by
  unfold indexValues nextIndex
  split_ifs <;> rfl

/-- The inputs of a cycle. -/
structure FifoIn (α : Type) where
  reset : Bool
  rdReady : Bool
  wrValid : Bool
  wrData : α

namespace Fifo

/-- The registers after reset; the memory is kept. -/
def afterReset (memory : Nat → α) : Fifo α := ⟨memory, 0, 0, .pop⟩

/-- A clock edge. -/
def edge (f : Fifo α) (i : FifoIn α) : Fifo α :=
  if i.reset then afterReset f.memory else f.step depth i.rdReady i.wrValid i.wrData

end Fifo

/-! ## A run and its history -/

variable (memory : Nat → α) (input : Nat → FifoIn α)

/-- The FIFO before edge `n`. -/
def fifoAt (n : Nat) : Fifo α :=
  Clocked.trace (Fifo.edge depth) (Fifo.afterReset memory) input n

/-- A word is taken at edge `n`. -/
def pushAt (n : Nat) : Bool :=
  (fifoAt depth memory input n).push (input n).rdReady (input n).wrValid

/-- A word is given at edge `n`. -/
def popAt (n : Nat) : Bool :=
  (fifoAt depth memory input n).pop (input n).rdReady (input n).wrValid

/-- The words taken at edge `n`. -/
def pushWord (n : Nat) : List α :=
  if pushAt depth memory input n then [(input n).wrData] else []

/-- The words given at edge `n`. -/
def popWord (n : Nat) : List α :=
  if popAt depth memory input n then
    [(fifoAt depth memory input n).rdData (input n).wrData]
  else []

/-- The words taken before edge `n` since the last reset. -/
def pushed : Nat → List α
  | 0 => []
  | n + 1 => if (input n).reset then [] else pushed n ++ pushWord depth memory input n

/-- The words given before edge `n` since the last reset. -/
def popped : Nat → List α
  | 0 => []
  | n + 1 => if (input n).reset then [] else popped n ++ popWord depth memory input n

/-- What the signals were when the registers of cycle `n` came; the first cycle finds them
settled. -/
def wiresBefore : Nat → Wires
  | 0 => (fifoAt depth memory input 0).settled (input 0).rdReady (input 0).wrValid
  | n + 1 => (fifoAt depth memory input n).settled (input n).rdReady (input n).wrValid

/-- The signals in delta cycle `k` of cycle `n`; the inputs come with the registers. -/
def wiresAt (n k : Nat) : Wires :=
  ((fifoAt depth memory input n).delta (input n).rdReady (input n).wrValid)^[k]
    (wiresBefore depth memory input n)

/-- The index values of delta cycle `k` of cycle `n`: the registers, and what is computed of them
for `rd_next` and `wr_next`. -/
def indexesAt (n k : Nat) : List Nat :=
  let f := fifoAt depth memory input n
  let w := wiresAt depth memory input n k
  [f.rdIdx, f.wrIdx] ++ (if w.pop then indexValues depth f.rdIdx else []) ++
    (if w.push then indexValues depth f.wrIdx else [])

/-- A run is that of a FIFO of `depth` entries. -/
structure IsFifo : Prop where
  /-- what is given is what was taken, in order; also in the cycle of a reset -/
  order : ∀ n, popped depth memory input n ++ popWord depth memory input n <+:
    pushed depth memory input n ++ pushWord depth memory input n
  held : ∀ n, (pushed depth memory input n).length ≤ (popped depth memory input n).length + depth
  /-- a word is given as soon as there is one, if only the one that is offered -/
  rdValid : ∀ n, (fifoAt depth memory input n).rdValid (input n).wrValid = true ↔
    (input n).wrValid = true ∨ popped depth memory input n ≠ pushed depth memory input n
  /-- a word is taken as long as there is room, if only that of a word that leaves -/
  wrReady : ∀ n, (fifoAt depth memory input n).wrReady (input n).rdReady = true ↔
    (input n).rdReady = true ∨
      (pushed depth memory input n).length < (popped depth memory input n).length + depth
  indexes : ∀ n k, ∀ i ∈ indexesAt depth memory input n k, i < depth

/-- The write index comes to the last entry of a ring whose size is not a power of two. -/
def ReachesEnd (n : Nat) : Prop :=
  isPow2 depth = false ∧ (fifoAt depth memory input n).wrIdx + 1 = depth

/-! ## The words -/

section Words

variable {depth memory input}

theorem holds_afterReset (hpos : 0 < depth) (memory : Nat → α) :
    Holds depth (Fifo.afterReset memory) [] where
  pos := hpos
  rdIdx := hpos
  len := Nat.zero_le _
  wrIdx := by
    show 0 = wrap depth (0 + 0)
    rw [wrap, if_pos hpos]
  entry := by
    intro k a hk
    simp at hk
  opEmpty := fun _ => rfl
  opFull := by
    intro hlen
    rw [List.length_nil] at hlen
    omega

/-- What the read port gives is the head of the queue with the offered word behind it. -/
theorem popWord_append {n : Nat} {q : List α} (h : Holds depth (fifoAt depth memory input n) q) :
    popWord depth memory input n ++
        qNext q (pushAt depth memory input n) (popAt depth memory input n) (input n).wrData =
      q ++ pushWord depth memory input n := by
  unfold popWord pushWord qNext
  cases hpop : popAt depth memory input n with
  | false => cases hpush : pushAt depth memory input n <;> simp
  | true =>
      rw [if_pos rfl, if_pos rfl, h.rdData_eq]
      have hpop' : (input n).rdReady = true ∧
          (fifoAt depth memory input n).rdValid (input n).wrValid = true := by
        simpa only [popAt, Fifo.pop, Bool.and_eq_true] using hpop
      cases q with
      | cons a q' => cases hpush : pushAt depth memory input n <;> simp
      | nil =>
          -- the word passes through
          have hvalid := (h.rdValid_iff.mp hpop'.2).resolve_right (by simp)
          have hpush : pushAt depth memory input n = true := by
            simp [pushAt, Fifo.push, Fifo.wrReady, hpop'.1, hvalid]
          simp [hpush]

/-- The ring holds the words taken and not yet given. -/
theorem holds_fifoAt (hpos : 0 < depth) (n : Nat) :
    ∃ q, Holds depth (fifoAt depth memory input n) q ∧
      popped depth memory input n ++ q = pushed depth memory input n := by
  induction n with
  | zero => exact ⟨[], holds_afterReset hpos memory, rfl⟩
  | succ n ih =>
    obtain ⟨q, hq, hhist⟩ := ih
    show ∃ q, Holds depth (Fifo.edge depth (fifoAt depth memory input n) (input n)) q ∧ _
    rw [pushed, popped]
    unfold Fifo.edge
    split_ifs with hreset
    · exact ⟨[], holds_afterReset hpos _, rfl⟩
    · refine ⟨_, hq.step (input n).rdReady (input n).wrValid (input n).wrData, ?_⟩
      rw [List.append_assoc]
      calc popped depth memory input n ++ (popWord depth memory input n ++ _)
          = popped depth memory input n ++ (q ++ pushWord depth memory input n) :=
            congrArg _ (popWord_append hq)
        _ = pushed depth memory input n ++ pushWord depth memory input n := by
            rw [← List.append_assoc, hhist]

/-- What is given is what was taken, in order. -/
theorem words_prefix (hpos : 0 < depth) (n : Nat) :
    popped depth memory input n ++ popWord depth memory input n <+:
      pushed depth memory input n ++ pushWord depth memory input n := by
  obtain ⟨q, hq, hhist⟩ := @holds_fifoAt α depth memory input hpos n
  refine ⟨qNext q (pushAt depth memory input n) (popAt depth memory input n) (input n).wrData, ?_⟩
  rw [List.append_assoc, popWord_append hq, ← List.append_assoc, hhist]

/-- At most `DEPTH` words are held. -/
theorem held_le (hpos : 0 < depth) (n : Nat) :
    (pushed depth memory input n).length ≤ (popped depth memory input n).length + depth := by
  obtain ⟨q, hq, hhist⟩ := @holds_fifoAt α depth memory input hpos n
  rw [← hhist, List.length_append]
  exact Nat.add_le_add_left hq.len _

theorem rdValid_at (hpos : 0 < depth) (n : Nat) :
    (fifoAt depth memory input n).rdValid (input n).wrValid = true ↔
      (input n).wrValid = true ∨ popped depth memory input n ≠ pushed depth memory input n := by
  obtain ⟨q, hq, hhist⟩ := @holds_fifoAt α depth memory input hpos n
  rw [hq.rdValid_iff, ← hhist]
  simp

theorem wrReady_at (hpos : 0 < depth) (n : Nat) :
    (fifoAt depth memory input n).wrReady (input n).rdReady = true ↔
      (input n).rdReady = true ∨
        (pushed depth memory input n).length < (popped depth memory input n).length + depth := by
  obtain ⟨q, hq, hhist⟩ := @holds_fifoAt α depth memory input hpos n
  rw [hq.wrReady_iff, ← hhist, List.length_append, Nat.add_lt_add_iff_left]

end Words

/-! ## The indexes -/

section Indexes

variable {depth} {f : Fifo α} {q : List α} {rdReady wrValid : Bool} {wrData : α}

theorem nextIndex_succ {idx : Nat} (h : idx + 1 < depth) : nextIndex depth idx = idx + 1 := by
  rw [nextIndex_eq (by omega), wrap, if_pos h]

theorem Holds.wrIdx_lt (h : Holds depth f q) : f.wrIdx < depth := by
  have h1 := h.rdIdx
  have h2 := h.len
  rw [h.wrIdx]
  unfold wrap
  split_ifs <;> omega

/-- The indexes stay as far apart as there are words, as long as the write index does not come to
the last entry. -/
theorem Holds.line_step (h : Holds depth f q) (hline : f.wrIdx = f.rdIdx + q.length)
    (hend : f.wrIdx + 1 ≠ depth) :
    (f.step depth rdReady wrValid wrData).wrIdx = (f.step depth rdReady wrValid wrData).rdIdx +
      (qNext q (f.push rdReady wrValid) (f.pop rdReady wrValid) wrData).length := by
  have hwr := h.wrIdx_lt
  have hwnext : nextIndex depth f.wrIdx = f.wrIdx + 1 := nextIndex_succ (by omega)
  have hrnext : nextIndex depth f.rdIdx = f.rdIdx + 1 := nextIndex_succ (by omega)
  unfold Fifo.step qNext
  cases hpush : f.push rdReady wrValid with
  | true =>
      cases hpop : f.pop rdReady wrValid with
      | true =>
          simp only [if_true, hwnext, hrnext, List.length_tail, List.length_append,
            List.length_singleton]
          omega
      | false =>
          simp only [if_true, hwnext, Bool.false_eq_true, if_false, List.length_append,
            List.length_singleton]
          omega
  | false =>
      cases hpop : f.pop rdReady wrValid with
      | true =>
          -- nothing passes through, so there is a word
          have hlen : 0 < q.length := by
            simp only [Fifo.pop, Bool.and_eq_true] at hpop
            have hvalid : wrValid = false := by
              by_contra hw
              simp [Fifo.push, Fifo.wrReady, hpop.1, hw] at hpush
            have hne := (h.rdValid_iff.mp hpop.2).resolve_left (by simp [hvalid])
            exact List.length_pos_iff.mpr hne
          simp only [if_true, Bool.false_eq_true, if_false, hrnext, List.length_tail]
          omega
      | false => simpa using hline

variable {memory : Nat → α} {input : Nat → FifoIn α}

/-- In a ring whose size is not a power of two the indexes never wrap, as long as the write index
does not come to the last entry. -/
theorem line_fifoAt (hpos : 0 < depth) (hpow : isPow2 depth = false)
    (hno : ∀ n, ¬ReachesEnd depth memory input n) (n : Nat) :
    ∃ q, Holds depth (fifoAt depth memory input n) q ∧
      (fifoAt depth memory input n).wrIdx = (fifoAt depth memory input n).rdIdx + q.length := by
  induction n with
  | zero => exact ⟨[], holds_afterReset hpos memory, rfl⟩
  | succ n ih =>
    obtain ⟨q, hq, hline⟩ := ih
    show ∃ q, Holds depth (Fifo.edge depth (fifoAt depth memory input n) (input n)) q ∧
      (Fifo.edge depth (fifoAt depth memory input n) (input n)).wrIdx =
        (Fifo.edge depth (fifoAt depth memory input n) (input n)).rdIdx + q.length
    unfold Fifo.edge
    split_ifs with hreset
    · exact ⟨[], holds_afterReset hpos _, rfl⟩
    · exact ⟨_, hq.step _ _ _, hq.line_step hline fun hlast => hno n ⟨hpow, hlast⟩⟩

theorem indexValues_lt {idx i : Nat} (hpos : 0 < depth)
    (h : isPow2 depth = false → idx + 1 < depth) (hi : i ∈ indexValues depth idx) : i < depth := by
  unfold indexValues at hi
  split_ifs at hi with hpow hlast
  · rw [List.mem_singleton.mp hi]
    exact Nat.mod_lt _ hpos
  · have hlt := h (by simpa using hpow)
    omega
  · rw [List.mem_singleton.mp hi]
    exact h (by simpa using hpow)

/-- Every index value is in the range of `index_t`, as long as the write index does not come to the
last entry. -/
theorem indexesAt_lt (hpos : 0 < depth) (hno : ∀ n, ¬ReachesEnd depth memory input n) (n k : Nat) :
    ∀ i ∈ indexesAt depth memory input n k, i < depth := by
  obtain ⟨q, hq, -⟩ := @holds_fifoAt α depth memory input hpos n
  have hwr := hq.wrIdx_lt
  have hroom (hpow : isPow2 depth = false) : (fifoAt depth memory input n).rdIdx + 1 < depth ∧
      (fifoAt depth memory input n).wrIdx + 1 < depth := by
    obtain ⟨q', -, hline⟩ := line_fifoAt hpos hpow hno n
    have hne : (fifoAt depth memory input n).wrIdx + 1 ≠ depth := fun heq => hno n ⟨hpow, heq⟩
    omega
  intro i hi
  simp only [indexesAt, List.mem_append, List.mem_cons, List.not_mem_nil, or_false] at hi
  obtain ((rfl | rfl) | hi) | hi := hi
  · exact hq.rdIdx
  · exact hwr
  · split_ifs at hi
    · exact indexValues_lt hpos (fun hpow => (hroom hpow).1) hi
    · cases hi
  · split_ifs at hi
    · exact indexValues_lt hpos (fun hpow => (hroom hpow).2) hi
    · cases hi

/-- One entry is a power of two. -/
theorem ne_one_of_not_isPow2 (h : isPow2 depth = false) : depth ≠ 1 := by
  rintro rfl
  exact absurd h (by decide)

/-- The edge that takes the write index to the last entry is that of a push. -/
theorem pushAt_of_reachesEnd {n : Nat} (hno : ¬ReachesEnd depth memory input n)
    (hend : ReachesEnd depth memory input (n + 1)) : pushAt depth memory input n = true := by
  obtain ⟨hpow, hlast⟩ := hend
  have hlast' : (Fifo.edge depth (fifoAt depth memory input n) (input n)).wrIdx + 1 = depth := hlast
  by_contra hpush
  rw [Bool.not_eq_true] at hpush
  unfold Fifo.edge at hlast'
  split_ifs at hlast' with hreset
  · exact ne_one_of_not_isPow2 hpow hlast'.symm
  · change (if pushAt depth memory input n then _ else (fifoAt depth memory input n).wrIdx) + 1 =
      depth at hlast'
    rw [hpush] at hlast'
    exact hno ⟨hpow, hlast'⟩

/-- `next_index` is called for the last entry as soon as the write index comes to it. -/
theorem mem_indexesAt_of_reachesEnd {n : Nat} (hno : ¬ReachesEnd depth memory input n)
    (hend : ReachesEnd depth memory input (n + 1)) :
    depth ∈ indexesAt depth memory input (n + 1) 0 := by
  have hpush : (wiresAt depth memory input (n + 1) 0).push = true := pushAt_of_reachesEnd hno hend
  obtain ⟨hpow, hlast⟩ := hend
  simp [indexesAt, hpush, indexValues, hpow, hlast]

end Indexes

/-! ## The FIFO -/

/-- The component is a FIFO in exactly the runs in which the write index does not come to the last
entry of a ring whose size is not a power of two. -/
theorem isFifo_iff (hpos : 0 < depth) :
    IsFifo depth memory input ↔ ∀ n, ¬ReachesEnd depth memory input n := by
  constructor
  · intro h n
    induction n with
    | zero =>
        rintro ⟨hpow, hlast⟩
        exact ne_one_of_not_isPow2 hpow hlast.symm
    | succ n ih =>
        intro hend
        exact lt_irrefl depth (h.indexes (n + 1) 0 depth (mem_indexesAt_of_reachesEnd ih hend))
  · intro hno
    exact
      { order := words_prefix hpos
        held := held_le hpos
        rdValid := rdValid_at hpos
        wrReady := wrReady_at hpos
        indexes := indexesAt_lt hpos hno }

/-- A word is offered in every cycle, most of them are read, and every fourth cycle ends in a
reset. -/
def threeAndReset (n : Nat) : FifoIn Nat :=
  ⟨decide (n % 4 = 3), decide (n % 4 ≠ 1), true, n⟩

theorem wrIdx_threeAndReset (n : Nat) :
    (fifoAt 5 (fun _ => 0) threeAndReset n).wrIdx ≤ n % 4 := by
  induction n with
  | zero => exact le_rfl
  | succ n ih =>
      show (Fifo.edge 5 (fifoAt 5 (fun _ => 0) threeAndReset n) (threeAndReset n)).wrIdx ≤ _
      unfold Fifo.edge
      split_ifs with hreset
      · exact Nat.zero_le _
      · have hmod : (n + 1) % 4 = n % 4 + 1 := by
          simp only [threeAndReset, decide_eq_true_eq] at hreset
          omega
        rw [hmod]
        unfold Fifo.step
        dsimp only
        split_ifs
        · rw [nextIndex_succ (by omega)]
          omega
        · omega

/-- Five entries are enough for three words between two resets. -/
theorem isFifo_threeAndReset : IsFifo 5 (fun _ => 0) threeAndReset := by
  refine (isFifo_iff 5 (fun _ => 0) threeAndReset (by decide)).mpr fun n hend => ?_
  have hle := wrIdx_threeAndReset n
  have hlast : (fifoAt 5 (fun _ => 0) threeAndReset n).wrIdx + 1 = 5 := hend.2
  omega

/-- The second word that is written to a FIFO of three entries takes the write index to 2, and
`next_index` is called for it. -/
theorem index_out_of_range :
    ¬IsFifo 3 (fun _ => (0 : Nat)) (fun n => ⟨false, false, decide (n < 2), n⟩) := by
  intro h
  have hlt := h.indexes 2 0 3 (by decide)
  exact absurd hlt (by decide)

end Microwatt.SyncFifo
