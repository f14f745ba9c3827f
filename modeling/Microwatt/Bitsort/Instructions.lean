import Microwatt.Bitsort
import Microwatt.Lib.Bits
import Microwatt.Lib.Fair

/-!
# The bit-sort and bit-permute instructions

What cfuged, pextd, pdepd and bpermd are to compute, stated with the positions of the ones and
zeroes of the mask, and what a run of `bit_sorter` computes.  The sorts are right for all operands.
The permutation looks at six of the eight bits of an index only.
-/

namespace Microwatt.Bitsort

/-! ## Positions -/

/-- The positions below `k` at which `p` holds, from the right. -/
def placesBelow (p : Nat → Bool) (k : Nat) : List Nat :=
  (List.range k).filter p

/-- The bit of `v` at the `j`-th of some positions, if there are that many. -/
def pick (v : Nat → Bool) (l : List Nat) (j : Nat) : Bool :=
  (l[j]?.map v).getD false

section

variable {p : Nat → Bool} {v : Nat → Bool} {l : List Nat} {j k n : Nat}

theorem placesBelow_succ (p : Nat → Bool) (k : Nat) :
    placesBelow p (k + 1) = placesBelow p k ++ if p k then [k] else [] := by
  rw [placesBelow, List.range_succ, List.filter_append, List.filter_singleton, placesBelow]
  cases p k <;> rfl

theorem length_placesBelow_succ (p : Nat → Bool) (k : Nat) :
    (placesBelow p (k + 1)).length = (placesBelow p k).length + if p k then 1 else 0 := by
  rw [placesBelow_succ, List.length_append]
  split_ifs <;> rfl

theorem length_placesBelow_le (p : Nat → Bool) (k : Nat) : (placesBelow p k).length ≤ k := by
  refine (List.length_filter_le _ _).trans ?_
  rw [List.length_range]

theorem placesBelow_mono (p : Nat → Bool) (h : k ≤ n) : placesBelow p k <+: placesBelow p n := by
  induction n, h using Nat.le_induction with
  | base => exact List.prefix_refl _
  | succ n hn ih =>
    rw [placesBelow_succ]
    exact ih.trans (List.prefix_append _ _)

/-- A position that is chosen has as many before it as its number in the list. -/
theorem getElem?_placesBelow {i : Nat} (hp : p i = true) (hi : i < n) :
    (placesBelow p n)[(placesBelow p i).length]? = some i := by
  obtain ⟨rest, hrest⟩ := placesBelow_mono p (show i + 1 ≤ n from hi)
  rw [← hrest, placesBelow_succ, if_pos hp, List.append_assoc]
  simp

/-- The other way round. -/
theorem length_placesBelow_of_getElem? {i : Nat} (h : (placesBelow p n)[j]? = some i) :
    p i = true ∧ i < n ∧ (placesBelow p i).length = j := by
  have hmem := List.mem_of_getElem? h
  rw [placesBelow, List.mem_filter, List.mem_range] at hmem
  refine ⟨hmem.2, hmem.1, ?_⟩
  have hnodup : (placesBelow p n).Nodup := List.Nodup.filter _ List.nodup_range
  have hi := getElem?_placesBelow hmem.2 hmem.1
  exact (List.getElem?_inj (List.getElem?_eq_some_iff.mp hi).1 hnodup).mp (hi.trans h.symm)

theorem pick_of_le (h : l.length ≤ j) : pick v l j = false := by
  rw [pick, List.getElem?_eq_none h]
  rfl

/-- One more position. -/
theorem pick_concat (v : Nat → Bool) (l : List Nat) (i j : Nat) :
    pick v (l ++ [i]) j = if j = l.length then v i else pick v l j := by
  unfold pick
  rw [List.getElem?_append, List.getElem?_singleton]
  split_ifs with hlt heq hsub hsub
  · omega
  · rfl
  · rfl
  · omega
  · omega
  · rw [List.getElem?_eq_none (by omega)]

theorem pick_placesBelow_succ (v p : Nat → Bool) (k j : Nat) :
    pick v (placesBelow p (k + 1)) j =
      if p k = true ∧ j = (placesBelow p k).length then v k else pick v (placesBelow p k) j := by
  rw [placesBelow_succ]
  by_cases hp : p k = true
  · rw [if_pos hp, pick_concat]
    simp [hp]
  · rw [if_neg hp, if_neg (by simp [hp]), List.append_nil]

end

/-! ## The instructions -/

/-- The positions of the ones of a mask. -/
def ones (m : BitVec 64) : List Nat := placesBelow m.getLsbD 64

/-- The positions of its zeroes. -/
def zeroes (m : BitVec 64) : List Nat := placesBelow (fun i => !m.getLsbD i) 64

/-- pextd: the bits under the ones of the mask, packed to the right. -/
def pextd (rs m : BitVec 64) : BitVec 64 :=
  Bits.ofBits 64 fun j => pick rs.getLsbD (ones m) j

/-- pdepd: the low bits, each at a one of the mask. -/
def pdepd (rs m : BitVec 64) : BitVec 64 :=
  Bits.ofBits 64 fun i => m.getLsbD i && rs.getLsbD (placesBelow m.getLsbD i).length

/-- cfuged: the bits under the ones of the mask to the right, those under its zeroes to the left, in
order. -/
def cfuged (rs m : BitVec 64) : BitVec 64 :=
  Bits.ofBits 64 fun j => pick rs.getLsbD (ones m ++ zeroes m) j

/-- The index in a byte of RS.  Byte 0 here is the one on the right. -/
def permIndex (rs : BitVec 64) (j : Nat) : Nat := (rs.extractLsb' (8 * j) 8).toNat

/-- bpermd: the bits of RB that the bytes of RS select, counted from the left, and zero for a byte
that is no bit number. -/
def bpermd (rs rb : BitVec 64) : BitVec 64 :=
  Bits.ofBits 64 fun j =>
    decide (j < 8 ∧ permIndex rs j < 64) && rb.getLsbD (63 - permIndex rs j)

inductive BitInsn where
  | pdepd | pextd | cfuged | bpermd
deriving DecidableEq

namespace BitInsn

/-- What the instruction is to compute. -/
def reference : BitInsn → BitVec 64 → BitVec 64 → BitVec 64
  | .pdepd => Bitsort.pdepd
  | .pextd => Bitsort.pextd
  | .cfuged => Bitsort.cfuged
  | .bpermd => Bitsort.bpermd

/-- Bits 7 and 6 of the instruction. -/
def opc : BitInsn → BitVec 2
  | .pdepd => 0
  | .pextd => 1
  | .cfuged => 2
  | .bpermd => 3

/-- The edges from the one with the operands to the cycle of `done` or `bperm_done`. -/
def cycles : BitInsn → Nat
  | .bpermd => 8
  | _ => 65

/-- `done` or `bperm_done`. -/
def done (insn : BitInsn) (u : Bitsort) : Bool :=
  if insn = .bpermd then u.bpDone else u.sd

end BitInsn

/-- An instruction is started with its operands at the first edge, and no other one until it is
done. -/
structure Runs (insn : BitInsn) (rs rb : BitVec 64) (input : Nat → BitsortInput) : Prop where
  rs : (input 0).rs = rs
  rb : (input 0).rb = rb
  go : (input 0).go = decide (insn ≠ .bpermd)
  doBperm : (input 0).doBperm = decide (insn = .bpermd)
  opc : (input 0).opc = insn.opc
  quiet : ∀ n, 1 ≤ n → n < insn.cycles → (input n).go = false ∧ (input n).doBperm = false

/-- The result in the cycle in which the instruction is done. -/
def gives (insn : BitInsn) (u : Bitsort) (input : Nat → BitsortInput) : BitVec 64 :=
  (Clocked.trace step u input insn.cycles).result

/-! ## A sort -/

/-- The positions of the ones among the `k` bits on the right. -/
def onesBelow (m : BitVec 64) (k : Nat) : List Nat := placesBelow m.getLsbD k

/-- The distances from the left of the zeroes among the `k` bits on the left. -/
def zeroesLeft (m : BitVec 64) (k : Nat) : List Nat := placesBelow (fun t => !m.getMsbD t) k

/-- Bit `j` of `val` after `k` bits of the mask. -/
def sorted (rs m : BitVec 64) (opc : BitVec 2) (k j : Nat) : Bool :=
  if opc = 0 then decide (j < k) && (m.getLsbD j && rs.getLsbD (onesBelow m j).length)
  else pick rs.getLsbD (onesBelow m k) j ||
    (opc.getLsbD 1 && pick rs.getMsbD (zeroesLeft m k) (63 - j))

/-- A sort has done `k` bits of the mask. -/
structure Sorting (rs m : BitVec 64) (opc : BitVec 2) (k : Nat) (u : Bitsort) : Prop where
  opr : u.opr = opc
  st : u.st = decide (k < 64)
  sd : u.sd = decide (k = 64)
  bc : u.bc = BitVec.ofNat 6 k
  srMl : u.srMl = m <<< k
  srMr : u.srMr = m >>> k
  srVl : u.srVl = rs <<< k
  srVr : u.srVr = rs >>> if opc = 0 then (onesBelow m k).length else k
  jr : u.jr = BitVec.ofNat 6 (onesBelow m k).length
  jl : opc.getLsbD 1 = true → u.jl = 63 - BitVec.ofNat 6 (zeroesLeft m k).length
  val : ∀ j < 64, u.val.getLsbD j = sorted rs m opc k j

section

variable {rs m : BitVec 64} {opc : BitVec 2} {k j : Nat} {u : Bitsort}

theorem getLsbD_setBit (v : BitVec 64) (k : BitVec 6) (b : Bool) (hj : j < 64) :
    (setBit v k b).getLsbD j = if j = k.toNat then b else v.getLsbD j := by
  have hbit : (1#64 <<< k.toNat).getLsbD j = decide (j = k.toNat) := by
    rw [BitVec.getLsbD_shiftLeft, BitVec.getLsbD_one]
    have hk := k.isLt
    by_cases heq : j = k.toNat
    · simp [heq, hk]
    · by_cases hlt : j < k.toNat
      · simp [hlt, heq]
      · simp [show ¬j - k.toNat = 0 by omega, heq]
  unfold setBit
  cases b with
  | true =>
      rw [if_pos rfl, BitVec.getLsbD_or, hbit]
      by_cases heq : j = k.toNat
      · simp [heq]
      · simp only [heq, decide_false, Bool.or_false, if_false]
  | false =>
      rw [if_neg (by decide), BitVec.getLsbD_and, BitVec.getLsbD_not, hbit]
      by_cases heq : j = k.toNat
      · simp [heq]
      · simp only [heq, hj, decide_true, decide_false, Bool.not_false, Bool.and_true, if_false]

/-- The zeroes of the mask from the left. -/
theorem zeroes_reverse (m : BitVec 64) :
    (zeroes m).reverse = (zeroesLeft m 64).map fun t => 63 - t := by
  have hrev : (List.range 64).reverse = (List.range 64).map fun t => 63 - t := by decide
  unfold zeroes zeroesLeft placesBelow
  rw [← List.filter_reverse, hrev, List.filter_map]
  have hfilter : (List.range 64).filter ((fun i => !m.getLsbD i) ∘ fun t => 63 - t) =
      (List.range 64).filter fun t => !m.getMsbD t := by
    apply List.filter_congr
    intro t ht
    have hlt : t < 64 := List.mem_range.mp ht
    simp [Function.comp, BitVec.getMsbD, hlt]
  rw [hfilter]

/-- Each bit of the mask is a one or a zero. -/
theorem length_ones_add (m : BitVec 64) :
    (onesBelow m 64).length + (zeroesLeft m 64).length = 64 := by
  have hz : (zeroesLeft m 64).length = (zeroes m).length := by
    rw [← @List.length_reverse _ (zeroes m), zeroes_reverse, List.length_map]
  have hall := List.length_eq_length_filter_add m.getLsbD (l := List.range 64)
  rw [List.length_range] at hall
  rw [hz]
  exact hall.symm

/-- What is packed from the two sides does not meet. -/
theorem length_sides_le {a b : Nat} (ha : a ≤ 64) (hb : b ≤ 64) :
    (onesBelow m a).length + (zeroesLeft m b).length ≤ 64 := by
  have h1 := (placesBelow_mono m.getLsbD ha).length_le
  have h2 := (placesBelow_mono (fun t => !m.getMsbD t) hb).length_le
  have h3 := length_ones_add m
  unfold onesBelow zeroesLeft at *
  omega

/-- What the shift registers show of the mask and of the operand. -/
theorem Sorting.shown (h : Sorting rs m opc k u) (hk : k < 64) :
    u.srMl.getLsbD 63 = m.getMsbD k ∧ u.srMr.getLsbD 0 = m.getLsbD k ∧
      u.srVl.getLsbD 63 = rs.getMsbD k ∧
      u.srVr.getLsbD 0 = rs.getLsbD (if opc = 0 then (onesBelow m k).length else k) := by
  have hleft (v : BitVec 64) : (v <<< k).getLsbD 63 = v.getMsbD k := by
    rw [BitVec.getLsbD_shiftLeft, BitVec.getMsbD]
    simp only [hk, show ¬63 < k by omega, decide_true, decide_false, Bool.not_false, Bool.true_and,
      show 63 < 64 by omega, show 64 - 1 - k = 63 - k by omega]
  rw [h.srMl, h.srMr, h.srVl, h.srVr, hleft, hleft, BitVec.getLsbD_ushiftRight,
    BitVec.getLsbD_ushiftRight, Nat.add_zero, Nat.add_zero]
  exact ⟨rfl, rfl, rfl, rfl⟩

/-- A bit of the mask for pdepd. -/
theorem Sorting.val_pdepd (h : Sorting rs m opc k u) (hk : k < 64) (hopc : opc = 0) (hj : j < 64) :
    (advance u).val.getLsbD j = sorted rs m opc (k + 1) j := by
  obtain ⟨-, hmr, -, hvr⟩ := h.shown hk
  have hleft : (!u.srMl.getLsbD 63 && u.opr.getLsbD 1) = false := by
    rw [h.opr, hopc]
    simp
  have hbc : u.bc.toNat = k := by
    rw [h.bc, BitVec.toNat_ofNat, Nat.mod_eq_of_lt hk]
  have hopr : (u.opr == 0) = true := by rw [h.opr, hopc]; rfl
  unfold advance
  simp only [hleft, hmr, hopr, Bool.false_eq_true, if_false, if_true]
  have hval := h.val j hj
  unfold sorted at hval ⊢
  rw [if_pos hopc] at hval hvr ⊢
  cases hm : m.getLsbD k with
  | true =>
      rw [if_pos rfl, getLsbD_setBit _ _ _ hj, hbc, hval, hvr]
      split_ifs with hjk
      · rw [hjk, hm]
        simp
      · rw [show decide (j < k + 1) = decide (j < k) by grind]
  | false =>
      rw [if_neg (by decide), hval]
      by_cases hjk : j = k
      · rw [hjk, hm]
        simp
      · rw [show decide (j < k + 1) = decide (j < k) by grind]

theorem pick_onesBelow_succ (v : Nat → Bool) (m : BitVec 64) (k j : Nat) :
    pick v (onesBelow m (k + 1)) j =
      if m.getLsbD k = true ∧ j = (onesBelow m k).length then v k else pick v (onesBelow m k) j :=
  pick_placesBelow_succ v m.getLsbD k j

theorem pick_zeroesLeft_succ (v : Nat → Bool) (m : BitVec 64) (k j : Nat) :
    pick v (zeroesLeft m (k + 1)) j =
      if (!m.getMsbD k) = true ∧ j = (zeroesLeft m k).length then v k
      else pick v (zeroesLeft m k) j :=
  pick_placesBelow_succ v (fun t => !m.getMsbD t) k j

theorem length_onesBelow_succ (m : BitVec 64) (k : Nat) :
    (onesBelow m (k + 1)).length = (onesBelow m k).length + if m.getLsbD k then 1 else 0 :=
  length_placesBelow_succ m.getLsbD k

theorem length_zeroesLeft_succ (m : BitVec 64) (k : Nat) :
    (zeroesLeft m (k + 1)).length = (zeroesLeft m k).length + if !m.getMsbD k then 1 else 0 :=
  length_placesBelow_succ (fun t => !m.getMsbD t) k

/-- `val` after the zero of the mask on the left, if there is one, in cfuged. -/
def leftVal (u : Bitsort) : BitVec 64 :=
  if !u.srMl.getLsbD 63 && u.opr.getLsbD 1 then setBit u.val u.jl (u.srVl.getLsbD 63) else u.val

theorem Sorting.leftVal (h : Sorting rs m opc k u) (hk : k < 64) (hopc : opc ≠ 0) (hj : j < 64) :
    (leftVal u).getLsbD j = (pick rs.getLsbD (onesBelow m k) j ||
      (opc.getLsbD 1 && pick rs.getMsbD (zeroesLeft m (k + 1)) (63 - j))) := by
  obtain ⟨hml, -, hvl, -⟩ := h.shown hk
  have hval := h.val j hj
  have hb : (zeroesLeft m k).length ≤ k := length_placesBelow_le _ _
  unfold Bitsort.leftVal
  rw [hml, h.opr, hvl, pick_zeroesLeft_succ]
  unfold sorted at hval
  rw [if_neg hopc] at hval
  cases hl : opc.getLsbD 1 with
  | false =>
      rw [hl] at hval
      simp only [Bool.and_false, Bool.false_eq_true, if_false, Bool.false_and] at hval ⊢
      exact hval
  | true =>
      rw [hl] at hval
      simp only [Bool.and_true, Bool.true_and] at hval ⊢
      cases hm : m.getMsbD k with
      | true =>
          simp only [Bool.not_true, Bool.false_eq_true, if_false, false_and]
          exact hval
      | false =>
          have hjl : u.jl.toNat = 63 - (zeroesLeft m k).length := by
            rw [h.jl hl, BitVec.toNat_sub, BitVec.toNat_ofNat]
            simp only [BitVec.reduceToNat]
            omega
          have hsides := length_sides_le (m := m) (show k ≤ 64 by omega) (show k + 1 ≤ 64 from hk)
          rw [length_zeroesLeft_succ, hm] at hsides
          simp only [Bool.not_false, if_true, true_and] at hsides ⊢
          rw [getLsbD_setBit _ _ _ hj, hjl, hval]
          by_cases hpos : j = 63 - (zeroesLeft m k).length
          · -- nothing has been packed to the right as far as here
            have hfree : pick rs.getLsbD (onesBelow m k) j = false := pick_of_le (by omega)
            rw [if_pos hpos, if_pos (by omega), hfree]
            rfl
          · rw [if_neg hpos, if_neg (by omega)]

/-- A bit of the mask for pextd and cfuged. -/
theorem Sorting.val_pack (h : Sorting rs m opc k u) (hk : k < 64) (hopc : opc ≠ 0) (hj : j < 64) :
    (advance u).val.getLsbD j = sorted rs m opc (k + 1) j := by
  obtain ⟨-, hmr, -, hvr⟩ := h.shown hk
  rw [if_neg hopc] at hvr
  have ha : (onesBelow m k).length ≤ k := length_placesBelow_le _ _
  have hopr : (u.opr == 0) = false := by
    rw [h.opr]
    exact beq_eq_false_iff_ne.mpr hopc
  have hjr : u.jr.toNat = (onesBelow m k).length := by
    rw [h.jr, BitVec.toNat_ofNat, Nat.mod_eq_of_lt (by omega)]
  have hadv : (advance u).val =
      if u.srMr.getLsbD 0 then setBit (Bitsort.leftVal u) u.jr (u.srVr.getLsbD 0)
      else Bitsort.leftVal u := by
    unfold advance Bitsort.leftVal
    rw [hopr]
    rfl
  rw [hadv, hmr, hvr]
  unfold sorted
  rw [if_neg hopc, pick_onesBelow_succ]
  cases hm : m.getLsbD k with
  | false =>
      simp only [Bool.false_eq_true, if_false, false_and]
      exact h.leftVal hk hopc hj
  | true =>
      have hsides := length_sides_le (m := m) (show k + 1 ≤ 64 from hk) (show k + 1 ≤ 64 from hk)
      rw [length_onesBelow_succ, hm] at hsides
      simp only [if_true, true_and] at hsides ⊢
      rw [getLsbD_setBit _ _ _ hj, hjr, h.leftVal hk hopc hj]
      by_cases hpos : j = (onesBelow m k).length
      · have hfree : pick rs.getMsbD (zeroesLeft m (k + 1)) (63 - j) = false :=
          pick_of_le (by omega)
        rw [if_pos hpos, if_pos hpos, hfree]
        simp
      · rw [if_neg hpos, if_neg hpos]

/-- A cycle of a sort. -/
theorem Sorting.advance (h : Sorting rs m opc k u) (hk : k < 64) :
    Sorting rs m opc (k + 1) (advance u) := by
  obtain ⟨hml, hmr, -, -⟩ := h.shown hk
  have hlast : u.bc = 63 ↔ k = 63 := by
    rw [h.bc, ← BitVec.toNat_inj, BitVec.toNat_ofNat, Nat.mod_eq_of_lt hk]
    rfl
  refine ⟨h.opr, ?_, ?_, ?_, ?_, ?_, ?_, ?_, ?_, ?_, ?_⟩
  · show (u.bc != 63) = decide (k + 1 < 64)
    rw [bne, Bool.eq_iff_iff]
    simp only [Bool.not_eq_true', beq_eq_false_iff_ne, ne_eq, hlast, decide_eq_true_eq]
    omega
  · show (u.bc == 63) = decide (k + 1 = 64)
    rw [Bool.eq_iff_iff]
    simp only [beq_iff_eq, hlast, decide_eq_true_eq]
    omega
  · show u.bc + 1 = _
    rw [h.bc, BitVec.ofNat_add]
    rfl
  · show u.srMl <<< 1 = _
    rw [h.srMl, BitVec.shiftLeft_add]
  · show u.srMr >>> 1 = _
    rw [h.srMr, BitVec.shiftRight_add]
  · show u.srVl <<< 1 = _
    rw [h.srVl, BitVec.shiftLeft_add]
  · show (if u.opr != 0 || u.srMr.getLsbD 0 then u.srVr >>> 1 else u.srVr) = _
    rw [h.opr, hmr, h.srVr, length_onesBelow_succ]
    by_cases hopc : opc = 0
    · simp only [hopc, bne_self_eq_false, Bool.false_or, if_true]
      split_ifs
      · rw [BitVec.shiftRight_add]
      · rfl
    · rw [if_pos (by rw [bne_iff_ne.mpr hopc]; rfl), if_neg hopc, if_neg hopc,
        BitVec.shiftRight_add]
  · show (if u.srMr.getLsbD 0 then u.jr + 1 else u.jr) = _
    rw [hmr, h.jr, length_onesBelow_succ]
    split_ifs
    · rw [BitVec.ofNat_add]
      rfl
    · rfl
  · intro hl
    show (if !u.srMl.getLsbD 63 && u.opr.getLsbD 1 then u.jl - 1 else u.jl) = _
    rw [hml, h.opr, hl, h.jl hl, length_zeroesLeft_succ, Bool.and_true]
    split_ifs
    · rw [BitVec.ofNat_add]
      grind
    · rfl
  · intro j hj
    by_cases hopc : opc = 0
    · exact h.val_pdepd hk hopc hj
    · exact h.val_pack hk hopc hj

/-- The permutation machine has registers of its own. -/
theorem Sorting.permute (h : Sorting rs m opc k u) (i : BitsortInput) :
    Sorting rs m opc k (permute u i) := by
  unfold Bitsort.permute
  split_ifs
  all_goals exact ⟨h.opr, h.st, h.sd, h.bc, h.srMl, h.srMr, h.srVl, h.srVr, h.jr, h.jl, h.val⟩

/-- The start of a sort. -/
theorem sorting_start (u : Bitsort) {i : BitsortInput} (hgo : i.go = true) :
    Sorting i.rs i.rb i.opc 0 (step u i) := by
  apply Sorting.permute
  unfold sort
  rw [if_pos hgo]
  have hnone (p : Nat → Bool) : placesBelow p 0 = [] := rfl
  refine ⟨rfl, rfl, rfl, rfl, ?_, ?_, ?_, ?_, rfl, ?_, ?_⟩
  · simp
  · simp
  · simp
  · simp [onesBelow, hnone]
  · intro _
    simp [zeroesLeft, hnone]
  · intro j _
    unfold sorted
    split_ifs
    · simp
    · simp [onesBelow, zeroesLeft, hnone, pick]

theorem Sorting.step (h : Sorting rs m opc k u) (hk : k < 64) {i : BitsortInput}
    (hgo : i.go = false) : Sorting rs m opc (k + 1) (step u i) := by
  apply Sorting.permute
  unfold sort
  rw [if_neg (by simp [hgo]), if_pos (by simp [h.st, hk])]
  exact h.advance hk

/-! ## What a sort gives -/

theorem sorted_pdepd (hj : j < 64) : sorted rs m 0 64 j = (pdepd rs m).getLsbD j := by
  rw [sorted, if_pos rfl, pdepd, Bits.getLsbD_ofBits _ hj]
  simp [hj, onesBelow]

theorem sorted_pextd (hj : j < 64) : sorted rs m 1 64 j = (pextd rs m).getLsbD j := by
  rw [sorted, if_neg (by decide), pextd, Bits.getLsbD_ofBits _ hj]
  simp [onesBelow, ones]

/-- Packing to the left from the left end is packing behind the ones. -/
theorem sorted_cfuged (hj : j < 64) : sorted rs m 2 64 j = (cfuged rs m).getLsbD j := by
  rw [sorted, if_neg (by decide), cfuged, Bits.getLsbD_ofBits _ hj]
  have hleft : (2 : BitVec 2).getLsbD 1 = true := by decide
  have hsum := length_ones_add m
  have hrev := zeroes_reverse m
  have hlen : (zeroes m).length = (zeroesLeft m 64).length := by
    rw [← @List.length_reverse _ (zeroes m), hrev, List.length_map]
  rw [hleft, Bool.true_and]
  show (pick rs.getLsbD (ones m) j || _) = _
  have hones : (ones m).length = (onesBelow m 64).length := rfl
  unfold pick
  rcases Nat.lt_or_ge j (ones m).length with hlt | hge
  · rw [List.getElem?_append_left hlt, List.getElem?_eq_none (l := zeroesLeft m 64) (by omega)]
    simp
  · rw [List.getElem?_append_right hge, List.getElem?_eq_none (l := ones m) hge]
    have hidx : (zeroes m)[j - (ones m).length]? =
        (zeroesLeft m 64)[63 - j]?.map fun t => 63 - t := by
      rw [← List.getElem?_map, ← hrev, List.getElem?_reverse (by omega)]
      congr 1
      omega
    rw [hidx]
    cases ht : (zeroesLeft m 64)[63 - j]? with
    | none => rfl
    | some t =>
        have hlt := (length_placesBelow_of_getElem? ht).2.1
        simp [BitVec.getMsbD, hlt]

end

/-! ## A permutation -/

/-- The bit that the permutation takes for a byte: six bits of the index count. -/
def permBit (rs rb : BitVec 64) (j : Nat) : Bool := rb.getLsbD (63 - permIndex rs j % 64)

/-- A permutation has done `k` bytes. -/
structure Permuting (rs rb : BitVec 64) (k : Nat) (u : Bitsort) : Prop where
  isBperm : u.isBperm = true
  bpDone : u.bpDone = decide (k = 7)
  bpc : u.bpc = BitVec.ofNat 3 k
  rsSr : u.rsSr = rs >>> (8 * k)
  rbBp : u.rbBp = rb
  res : ∀ j < 7, u.bpermRes.getLsbD j = (decide (7 ≤ j + k) && permBit rs rb (j + k - 7))

section

variable {rs rb : BitVec 64} {k : Nat} {u : Bitsort}

theorem Permuting.bpermTop (h : Permuting rs rb k u) : u.bpermTop = permBit rs rb k := by
  unfold Bitsort.bpermTop permBit permIndex
  rw [h.rbBp, h.rsSr]
  congr 1
  rw [BitVec.toNat_not, BitVec.extractLsb'_toNat, BitVec.extractLsb'_toNat,
    BitVec.toNat_ushiftRight, Nat.shiftRight_zero]
  omega

/-- The sort has registers of its own. -/
theorem Permuting.sort (h : Permuting rs rb k u) (i : BitsortInput) :
    Permuting rs rb k (sort u i) := by
  unfold Bitsort.sort Bitsort.advance
  split_ifs
  all_goals exact ⟨h.isBperm, h.bpDone, h.bpc, h.rsSr, h.rbBp, h.res⟩

theorem permuting_start (u : Bitsort) {i : BitsortInput} (hdo : i.doBperm = true) :
    Permuting i.rs i.rb 0 (step u i) := by
  show Permuting i.rs i.rb 0 (permute (sort u i) i)
  unfold permute
  rw [if_pos hdo]
  refine ⟨rfl, rfl, rfl, ?_, rfl, ?_⟩
  · simp
  · intro j hj
    simp [show ¬7 ≤ j by omega]

theorem Permuting.step (h : Permuting rs rb k u) (hk : k < 7) {i : BitsortInput}
    (hdo : i.doBperm = false) : Permuting rs rb (k + 1) (step u i) := by
  have h' := h.sort i
  show Permuting rs rb (k + 1) (permute (Bitsort.sort u i) i)
  generalize Bitsort.sort u i = u' at h'
  have hdone : u'.bpDone = false := by
    rw [h'.bpDone]
    exact decide_eq_false (by omega)
  unfold permute
  rw [if_neg (by simp [hdo]), if_neg (by simp [hdone]), if_pos h'.isBperm]
  refine ⟨h'.isBperm, ?_, ?_, ?_, h'.rbBp, ?_⟩
  · show (u'.bpc == 6) = _
    rw [h'.bpc]
    interval_cases k <;> rfl
  · show u'.bpc + 1 = _
    rw [h'.bpc, BitVec.ofNat_add]
    rfl
  · show u'.rsSr >>> 8 = _
    rw [h'.rsSr, ← BitVec.shiftRight_add]
    rfl
  · intro j hj
    show (BitVec.cons u'.bpermTop (u'.bpermRes.extractLsb' 1 6)).getLsbD j = _
    rw [BitVec.getLsbD_cons, h'.bpermTop]
    split_ifs with hj6
    · simp [hj6, show 7 ≤ 6 + (k + 1) by omega, show 6 + (k + 1) - 7 = k by omega]
    · rw [BitVec.getLsbD_extractLsb', h'.res (1 + j) (by omega)]
      have hsum : 1 + j + k = j + (k + 1) := by omega
      rw [hsum]
      simp [show j < 6 by omega]

/-- After seven bytes the eighth is selected beside them. -/
theorem Permuting.result (h : Permuting rs rb 7 u) :
    u.result = Bits.ofBits 64 fun j => decide (j < 8) && permBit rs rb j := by
  have htop := h.bpermTop
  apply BitVec.eq_of_getLsbD_eq
  intro j hj
  unfold Bitsort.result
  rw [if_pos h.isBperm, Bits.getLsbD_ofBits _ hj, BitVec.getLsbD_setWidth,
    BitVec.getLsbD_cons, htop]
  rcases Nat.lt_trichotomy j 7 with hlt | rfl | hgt
  · rw [if_neg (by omega), h.res j hlt]
    simp [hj, show j < 8 by omega]
  · simp
  · rw [if_neg (by omega), BitVec.getLsbD_of_ge _ _ (by omega)]
    simp [show ¬j < 8 by omega]

/-- The steps until a permutation that is under way has left the result to the sorts. -/
def permLeft (u : Bitsort) : Nat :=
  if !u.isBperm then 0 else if u.bpDone then 1 else 2 + (6 - u.bpc).toNat

theorem permLeft_step (u : Bitsort) {i : BitsortInput} (hdo : i.doBperm = false) :
    permLeft (step u i) ≤ permLeft u - 1 := by
  have hsort : permLeft (Bitsort.sort u i) = permLeft u := by
    unfold Bitsort.sort Bitsort.advance
    split_ifs <;> rfl
  rw [← hsort]
  show permLeft (permute (Bitsort.sort u i) i) ≤ _
  generalize Bitsort.sort u i = v
  unfold permute
  rw [if_neg (by simp [hdo])]
  unfold permLeft
  cases hb : v.isBperm with
  | false => cases hd : v.bpDone <;> simp [hb]
  | true =>
      cases hd : v.bpDone with
      | true => simp
      | false =>
          simp only [Bool.false_eq_true, if_false, if_true, Bool.not_true, beq_iff_eq]
          by_cases hc : v.bpc = 6
          · rw [if_pos hc]
            omega
          · have hnext := Bits.toNat_sub_succ (by omega) hc
            rw [if_neg hc]
            omega

end

/-! ## The instructions -/

/-- Every byte of a permutation that selects a set bit with its low six bits is a bit number. -/
def BitInsn.InRange (insn : BitInsn) (rs rb : BitVec 64) : Prop :=
  insn = .bpermd → ∀ j < 8, permBit rs rb j = true → permIndex rs j < 64

section

variable {insn : BitInsn} {rs rb m : BitVec 64} {input : Nat → BitsortInput}

/-- A sort in a run. -/
theorem Runs.sorting (h : Runs insn rs rb input) (hne : insn ≠ .bpermd) (u : Bitsort) {k : Nat}
    (hk : k ≤ 64) : Sorting rs rb insn.opc k (Clocked.trace step u input (k + 1)) := by
  have hcycles : insn.cycles = 65 := by
    cases insn <;> first | rfl | exact absurd rfl hne
  induction k with
  | zero =>
    have hstart := sorting_start u (h.go.trans (decide_eq_true hne))
    rw [h.rs, h.rb, h.opc] at hstart
    exact hstart
  | succ k ih =>
    have hquiet := h.quiet (k + 1) (by omega) (by omega)
    exact (ih (by omega)).step (by omega) hquiet.1

/-- A permutation that was under way has ended long before a sort. -/
theorem Runs.isBperm (h : Runs insn rs rb input) (hne : insn ≠ .bpermd) (u : Bitsort) :
    (Clocked.trace step u input 65).isBperm = false := by
  have hcycles : insn.cycles = 65 := by
    cases insn <;> first | rfl | exact absurd rfl hne
  have hno (n : Nat) (hn : n < 65) : (input n).doBperm = false := by
    rcases Nat.eq_zero_or_pos n with rfl | hpos
    · exact h.doBperm.trans (decide_eq_false hne)
    · exact (h.quiet n hpos (by omega)).2
  have hleft (n : Nat) (hn : n ≤ 65) :
      permLeft (Clocked.trace step u input n) ≤ 9 - n := by
    induction n with
    | zero =>
      show permLeft u ≤ 9
      have hlt := (6 - u.bpc).isLt
      unfold permLeft
      split_ifs <;> omega
    | succ n ih =>
      have hstep := permLeft_step (Clocked.trace step u input n) (hno n (by omega))
      have hn' := ih (by omega)
      show permLeft (step (Clocked.trace step u input n) (input n)) ≤ _
      omega
  have hlast := hleft 65 le_rfl
  unfold permLeft at hlast
  by_contra hb
  rw [Bool.not_eq_false] at hb
  rw [hb] at hlast
  simp only [Bool.not_true, Bool.false_eq_true, if_false] at hlast
  split_ifs at hlast <;> omega

/-- A sort ends after 64 bits, with its reference result. -/
theorem Runs.sort (h : Runs insn rs rb input) (hne : insn ≠ .bpermd) (u : Bitsort) :
    (∀ n, 1 ≤ n → n < 65 → (Clocked.trace step u input n).sd = false) ∧
    (Clocked.trace step u input 65).sd = true ∧
    (Clocked.trace step u input 65).result = insn.reference rs rb := by
  have hlast := h.sorting hne u le_rfl
  refine ⟨?_, hlast.sd, ?_⟩
  · intro n h1 h65
    obtain ⟨k, rfl⟩ : ∃ k, n = k + 1 := ⟨n - 1, by omega⟩
    rw [(h.sorting hne u (by omega)).sd]
    exact decide_eq_false (by omega)
  · have hval : (Clocked.trace step u input 65).result = (Clocked.trace step u input 65).val := by
      rw [Bitsort.result, if_neg (by simp [h.isBperm hne u])]
    rw [hval]
    apply BitVec.eq_of_getLsbD_eq
    intro j hj
    rw [hlast.val j hj]
    cases insn with
    | pdepd => exact sorted_pdepd hj
    | pextd => exact sorted_pextd hj
    | cfuged => exact sorted_cfuged hj
    | bpermd => exact absurd rfl hne

/-- A permutation in a run. -/
theorem Runs.permuting (h : Runs .bpermd rs rb input) (u : Bitsort) {k : Nat} (hk : k ≤ 7) :
    Permuting rs rb k (Clocked.trace step u input (k + 1)) := by
  induction k with
  | zero =>
    have hstart := permuting_start u (h.doBperm.trans (decide_eq_true rfl))
    rw [h.rs, h.rb] at hstart
    exact hstart
  | succ k ih =>
    have hcycles : BitInsn.bpermd.cycles = 8 := rfl
    have hquiet := h.quiet (k + 1) (by omega) (by omega)
    exact (ih (by omega)).step (by omega) hquiet.2

/-- The six bits that are looked at give the reference result exactly when no byte out of range
selects a set bit. -/
theorem permuted_eq_iff :
    (Bits.ofBits 64 fun j => decide (j < 8) && permBit rs rb j) = bpermd rs rb ↔
      BitInsn.InRange .bpermd rs rb := by
  have hbit (j : Nat) (hin : permIndex rs j < 64) :
      permBit rs rb j = rb.getLsbD (63 - permIndex rs j) := by
    rw [permBit, Nat.mod_eq_of_lt hin]
  constructor
  · intro heq _ j hj hset
    have hj64 : j < 64 := by omega
    have hjth := congrArg (fun v => v.getLsbD j) heq
    simp only [bpermd, Bits.getLsbD_ofBits _ hj64, hj, hset, decide_true, Bool.true_and, true_and]
      at hjth
    by_contra hout
    simp [hout] at hjth
  · intro hin
    apply BitVec.eq_of_getLsbD_eq
    intro j hj
    rw [bpermd, Bits.getLsbD_ofBits _ hj, Bits.getLsbD_ofBits _ hj]
    by_cases h8 : j < 8
    · by_cases hr : permIndex rs j < 64
      · simp [h8, hr, hbit j hr]
      · have hclear : permBit rs rb j = false := by
          by_contra hset
          exact hr (hin rfl j h8 (by simpa using hset))
        simp [hr, hclear]
    · simp [h8]

/-- The low bits that pdepd deposits are those that pextd collects. -/
theorem pextd_pdepd (x m : BitVec 64) :
    pextd (pdepd x m) m = BitVec.ofNat 64 (x.toNat % 2 ^ (ones m).length) := by
  apply BitVec.eq_of_getLsbD_eq
  intro j hj
  have hright : (BitVec.ofNat 64 (x.toNat % 2 ^ (ones m).length)).getLsbD j =
      (decide (j < (ones m).length) && x.getLsbD j) := by
    rw [BitVec.getLsbD_ofNat, Nat.testBit_mod_two_pow]
    simp [hj, BitVec.getLsbD]
  rw [hright, pextd, Bits.getLsbD_ofBits _ hj]
  unfold pick
  cases hi : (ones m)[j]? with
  | none =>
      have hlen := List.getElem?_eq_none_iff.mp hi
      simp [hlen]
  | some i =>
      obtain ⟨hset, hlt, hcount⟩ := length_placesBelow_of_getElem? hi
      have hlen := (List.getElem?_eq_some_iff.mp hi).1
      show (pdepd x m).getLsbD i = _
      rw [pdepd, Bits.getLsbD_ofBits _ hlt, hset, hcount]
      simp [hlen]

end

/-- Every instruction is done after its number of cycles, whatever the unit was doing; the result is
the reference one exactly when no byte of a permutation is out of range and selects a set bit.  What
pextd makes of a result of pdepd is the operand cut to as many bits as the mask has ones. -/
theorem instructions_right (insn : BitInsn) (rs rb x m : BitVec 64) (u u' : Bitsort)
    (input dep ext : Nat → BitsortInput) :
    (Runs insn rs rb input →
      (∀ n, 1 ≤ n → n < insn.cycles → insn.done (Clocked.trace step u input n) = false) ∧
      insn.done (Clocked.trace step u input insn.cycles) = true ∧
      (gives insn u input = insn.reference rs rb ↔ insn.InRange rs rb)) ∧
    (Runs .pdepd x m dep → Runs .pextd (gives .pdepd u dep) m ext →
      gives .pextd u' ext = BitVec.ofNat 64 (x.toNat % 2 ^ (ones m).length)) := by
  have hsort (hne : insn ≠ .bpermd) :
      insn.cycles = 65 ∧ ∀ u, insn.done u = u.sd := by
    refine ⟨?_, fun u => if_neg hne⟩
    cases insn <;> first | rfl | exact absurd rfl hne
  constructor
  · intro h
    by_cases hne : insn = .bpermd
    · subst hne
      have hlast := h.permuting u le_rfl
      refine ⟨?_, hlast.bpDone, ?_⟩
      · intro n h1 h8
        obtain ⟨k, rfl⟩ : ∃ k, n = k + 1 := ⟨n - 1, by omega⟩
        have hk : k + 1 < 8 := h8
        show (Clocked.trace step u input (k + 1)).bpDone = false
        rw [(h.permuting u (by omega)).bpDone]
        exact decide_eq_false (by omega)
      · rw [← permuted_eq_iff, ← hlast.result]
        rfl
    · obtain ⟨hearly, hdone, hresult⟩ := h.sort hne u
      obtain ⟨hcycles, hd⟩ := hsort hne
      unfold gives
      rw [hcycles]
      simp only [hd]
      exact ⟨hearly, hdone, fun _ hperm => absurd hperm hne, fun _ => hresult⟩
  · intro h h'
    have hdep : gives .pdepd u dep = pdepd x m := (h.sort (by decide) u).2.2
    rw [← pextd_pdepd, ← hdep]
    exact (h'.sort (by decide) u').2.2

/-- One instruction, and no other afterwards. -/
def single (insn : BitInsn) (rs rb : BitVec 64) (n : Nat) : BitsortInput :=
  ⟨rs, rb, decide (n = 0 ∧ insn ≠ .bpermd), insn.opc, decide (n = 0 ∧ insn = .bpermd)⟩

theorem runs_single (insn : BitInsn) (rs rb : BitVec 64) : Runs insn rs rb (single insn rs rb) where
  rs := rfl
  rb := rfl
  go := by simp [single]
  doBperm := by simp [single]
  opc := rfl
  quiet := by
    intro n h1 _
    simp [single, show ¬n = 0 by omega]

/-- The unit after reset. -/
def afterReset : Bitsort :=
  ⟨0, false, false, 0, 0, 0, 0, 0, 0, 0, 0, false, 0, false, 0, 0, 0⟩

/-- The low two bits of an operand, deposited and collected again. -/
theorem instructions_right_six :
    BitInsn.done .cfuged (Clocked.trace step afterReset (single .cfuged 6 5) 65) = true ∧
      gives .pextd afterReset
          (single .pextd (gives .pdepd afterReset (single .pdepd 6 0x30)) 0x30) =
        BitVec.ofNat 64 (6 % 2 ^ (ones 0x30).length) :=
  ⟨((instructions_right .cfuged 6 5 0 0 afterReset afterReset _ (single .pdepd 0 0)
      (single .pextd 0 0)).1 (runs_single .cfuged 6 5)).2.1,
    (instructions_right .pdepd 6 0x30 6 0x30 afterReset afterReset (single .pdepd 6 0x30) _ _).2
      (runs_single .pdepd 6 0x30) (runs_single .pextd _ 0x30)⟩

/-- Index 64 selects the bit that index 0 selects. -/
theorem byte_out_of_range :
    ¬∀ (insn : BitInsn) (rs rb : BitVec 64) (u : Bitsort) (input : Nat → BitsortInput),
      Runs insn rs rb input → gives insn u input = insn.reference rs rb := by
  intro hall
  have heq := hall _ _ _ afterReset _ (runs_single .bpermd 0x40 0x8000000000000000)
  have hbit := congrArg (fun v => v.getLsbD 0) heq
  exact absurd hbit (by decide +kernel)

end Microwatt.Bitsort
