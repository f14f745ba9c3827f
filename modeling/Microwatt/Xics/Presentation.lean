import Microwatt.Xics.Step
import Microwatt.Lib.Select

/-!
# What the controller presents

The source unit presents the most favoured pending source, and the presentation unit raises the
interrupt of a cpu when it, or MFRR, is more favoured than CPPR.  An accepting read returns the
number in XISR, which was put there at the edge before, and takes the priority that is pending in
its own cycle.
-/

namespace Microwatt.Xics

open Clocked Helpers

/-! ## The priority encoder -/

section

variable {nbits : Nat} {v : BitVec (2 ^ nbits)}

theorem getLsbD_top {k : Nat} : (1#(2 ^ nbits) <<< (2 ^ nbits - 1)).getLsbD k =
    decide (k = 2 ^ nbits - 1) := by
  have hpos : 0 < 2 ^ nbits := by positivity
  rw [BitVec.getLsbD_shiftLeft, BitVec.getLsbD_one]
  by_cases hk : k = 2 ^ nbits - 1
  · subst hk
    simp [hpos]
  · have hno : ¬(k < 2 ^ nbits ∧ ¬k < 2 ^ nbits - 1) := by omega
    simp only [hk, decide_false, Bool.and_eq_false_iff, decide_eq_false_iff_not,
      Bool.not_eq_false', decide_eq_true_eq]
    omega

theorem priorityEncoder_isLowest (hn : nbits ≤ 6) :
    IsLowest (v ||| (1#(2 ^ nbits) <<< (2 ^ nbits - 1))) (priorityEncoder v).toNat := by
  have hpos : 0 < 2 ^ nbits := by positivity
  have hle : 2 ^ nbits ≤ 2 ^ 6 := Nat.pow_le_pow_right (by omega) hn
  have htop : (v ||| (1#(2 ^ nbits) <<< (2 ^ nbits - 1))).getLsbD (2 ^ nbits - 1) = true := by
    rw [BitVec.getLsbD_or, getLsbD_top]
    simp
  obtain ⟨k, hk, hlow⟩ := exists_isLowest htop
  have henc : (priorityEncoder v).toNat = k := by
    unfold priorityEncoder
    rw [BitVec.toNat_setWidth, hlow.countRightZeroes (by omega), Nat.mod_eq_of_lt (by omega)]
  rw [henc]
  exact hlow

/-- No bit below the one found is set. -/
theorem priorityEncoder_below (hn : nbits ≤ 6) {j : Nat} (hj : j < (priorityEncoder v).toNat) :
    v.getLsbD j = false := by
  have hb := (priorityEncoder_isLowest (v := v) hn).below j hj
  rw [BitVec.getLsbD_or, Bool.or_eq_false_iff] at hb
  exact hb.1

/-- The bit found is set, unless none is. -/
theorem priorityEncoder_set (hn : nbits ≤ 6) {j : Nat} (hj : v.getLsbD j = true) :
    v.getLsbD (priorityEncoder v).toNat = true := by
  have hset := (priorityEncoder_isLowest (v := v) hn).set
  rw [BitVec.getLsbD_or, getLsbD_top, Bool.or_eq_true, decide_eq_true_eq] at hset
  rcases hset with hset | hset
  · exact hset
  · -- only the last bit can be left
    have hlt := BitVec.lt_of_getLsbD hj
    have hge : ¬j < (priorityEncoder v).toNat := by
      intro hlow
      simp [priorityEncoder_below hn hlow] at hj
    have heq : (priorityEncoder v).toNat = j := by omega
    rw [heq]
    exact hj

end

/-! ## The source unit -/

namespace Ics

variable {g : Generics} (s : Ics g)

/-- The priority of a source, as its XIVE register shows it. -/
def priority (i : Fin 16) : BitVec 8 :=
  prioUnpack (s.xives i).pri

/-- The source is pending for the cpu and not masked. -/
def Pending (cpu : Nat) (i : Fin 16) : Prop :=
  s.directed cpu i = true ∧ s.priority i ≠ 0xff

/-- The pending source of the lowest priority, the lowest source number first. -/
structure MostFavoured (cpu : Nat) (i : Fin 16) : Prop where
  pending : s.Pending cpu i
  le : ∀ j, s.Pending cpu j → s.priority i ≤ s.priority j
  first : ∀ j, s.Pending cpu j → s.priority j = s.priority i → i ≤ j

/-- `o` presents to the cpu what is pending in `s`. -/
structure Presents (o : IcsToIcp) (cpu : Fin 4) : Prop where
  source : o.pri cpu ≠ 0xff →
    ∃ i, s.MostFavoured cpu i ∧ (o.src cpu).toNat = i ∧ o.pri cpu = s.priority i
  masked : o.pri cpu = 0xff ↔ ∀ i, ¬s.Pending cpu i

end Ics

section

variable {g : Generics} {p q : BitVec g.prioBits}

theorem toNat_priMasked : (priMasked : BitVec g.prioBits).toNat = 2 ^ g.prioBits - 1 := by
  simp [priMasked]

theorem prioUnpack_toNat (hp : p ≠ priMasked) : (prioUnpack p).toNat = p.toNat := by
  have hle : 2 ^ g.prioBits ≤ 2 ^ 6 := Nat.pow_le_pow_right (by omega) g.prioBits_le
  have hlt := p.isLt
  rw [prioUnpack, if_neg hp, BitVec.toNat_setWidth, Nat.mod_eq_of_lt (by omega)]

theorem prioUnpack_eq_ff_iff : prioUnpack p = 0xff ↔ p = priMasked := by
  constructor
  · intro h
    by_contra hp
    have hle : 2 ^ g.prioBits ≤ 2 ^ 6 := Nat.pow_le_pow_right (by omega) g.prioBits_le
    have hlt := p.isLt
    have hn := congrArg BitVec.toNat h
    rw [prioUnpack_toNat hp] at hn
    simp at hn
    omega
  · intro h
    simp [prioUnpack, h]

theorem getLsbD_prioDecode (k : Nat) : (prioDecode p).getLsbD k = decide (k = p.toNat) := by
  have hlt := p.isLt
  unfold prioDecode
  rw [BitVec.getLsbD_shiftLeft, BitVec.getLsbD_one]
  by_cases hk : k = p.toNat
  · subst hk
    simp [hlt]
  · simp only [hk, decide_false, Bool.and_eq_false_iff, decide_eq_false_iff_not,
      Bool.not_eq_false', decide_eq_true_eq]
    omega

end

namespace Ics

variable {g : Generics} {s : Ics g} {cpu : Nat}

theorem getLsbD_pendingPri (k : Nat) : (s.pendingPri cpu).getLsbD k = true ↔
    ∃ i, s.directed cpu i = true ∧ (s.xives i).pri.toNat = k := by
  unfold pendingPri
  rw [Select.getLsbD_foldl_or]
  simp only [BitVec.ofNat_eq_ofNat, BitVec.getLsbD_zero, Bool.false_or, List.any_eq_true,
    List.mem_finRange, true_and, Bool.and_eq_true, getLsbD_prioDecode, decide_eq_true_eq]
  grind

theorem getLsbD_pendingAtPri (k : Nat) : (s.pendingAtPri cpu).getLsbD k = true ↔
    ∃ i : Fin 16, (s.directed cpu i = true ∧ (s.xives i).pri = s.maxPri cpu) ∧ i.val = k := by
  unfold pendingAtPri
  rw [Select.getLsbD_foldl_or]
  simp only [BitVec.ofNat_eq_ofNat, BitVec.getLsbD_zero, Bool.false_or, List.any_eq_true,
    List.mem_finRange, true_and, Bool.and_eq_true, beq_iff_eq]
  have hbit : ∀ i : Fin 16, (1#(2 ^ 4) <<< i.val).getLsbD k = true ↔ i.val = k := by
    intro i
    have hi := i.isLt
    rw [BitVec.getLsbD_shiftLeft, BitVec.getLsbD_one]
    simp only [Bool.and_eq_true, decide_eq_true_eq, Bool.not_eq_true', decide_eq_false_iff_not]
    omega
  simp only [hbit]

/-- No source directed to the cpu has a lower priority than `max_pri`. -/
theorem maxPri_le {i : Fin 16} (hi : s.directed cpu i = true) :
    (s.maxPri cpu).toNat ≤ (s.xives i).pri.toNat := by
  by_contra hlt
  have hbit := (getLsbD_pendingPri _).mpr ⟨i, hi, rfl⟩
  have hno := priorityEncoder_below (v := s.pendingPri cpu) g.prioBits_le (not_le.mp hlt)
  simp [hno] at hbit

/-- A source has the priority `max_pri`, if any is directed to the cpu. -/
theorem exists_maxPri {i : Fin 16} (hi : s.directed cpu i = true) :
    ∃ j, s.directed cpu j = true ∧ (s.xives j).pri = s.maxPri cpu := by
  have hbit := (getLsbD_pendingPri _).mpr ⟨i, hi, rfl⟩
  obtain ⟨j, hj, heq⟩ := (getLsbD_pendingPri _).mp (priorityEncoder_set g.prioBits_le hbit)
  exact ⟨j, hj, BitVec.eq_of_toNat_eq heq⟩

theorem pending_iff {i : Fin 16} :
    s.Pending cpu i ↔ s.directed cpu i = true ∧ (s.xives i).pri ≠ priMasked := by
  unfold Pending priority
  rw [Ne, prioUnpack_eq_ff_iff]

/-- `max_pri` is the mask if no source is pending. -/
theorem maxPri_eq_priMasked_iff : s.maxPri cpu = priMasked ↔ ∀ i, ¬s.Pending cpu i := by
  have hpos : 0 < 2 ^ g.prioBits := by positivity
  constructor
  · intro hmax i hi
    obtain ⟨hdir, hpri⟩ := pending_iff.mp hi
    have hle := maxPri_le hdir
    have hlt := (s.xives i).pri.isLt
    rw [hmax, toNat_priMasked] at hle
    refine hpri (BitVec.eq_of_toNat_eq ?_)
    rw [toNat_priMasked]
    omega
  · intro hnone
    by_contra hmax
    -- a bit of `pending_pri` was found below the last
    have hset := (priorityEncoder_isLowest (v := s.pendingPri cpu) g.prioBits_le).set
    have hne : (s.maxPri cpu).toNat ≠ 2 ^ g.prioBits - 1 := by
      intro heq
      exact hmax (BitVec.eq_of_toNat_eq (by rw [heq, toNat_priMasked]))
    rw [BitVec.getLsbD_or, getLsbD_top, Bool.or_eq_true, decide_eq_true_eq] at hset
    obtain ⟨i, hdir, hpri⟩ := (getLsbD_pendingPri _).mp (hset.resolve_right hne)
    refine hnone i (pending_iff.mpr ⟨hdir, ?_⟩)
    intro hp
    rw [hp, toNat_priMasked] at hpri
    exact hne hpri.symm

/-- `max_idx` is the first source of the priority `max_pri`. -/
theorem maxIdx_mostFavoured (hmax : s.maxPri cpu ≠ priMasked) :
    ∃ i, s.MostFavoured cpu i ∧ (s.maxIdx cpu).toNat = i ∧
      prioUnpack (s.maxPri cpu) = s.priority i := by
  have hsome : ∃ i, s.Pending cpu i := by
    by_contra hno
    exact hmax (maxPri_eq_priMasked_iff.mpr fun i hi => hno ⟨i, hi⟩)
  obtain ⟨i₀, hi₀⟩ := hsome
  obtain ⟨j₀, hj₀⟩ := exists_maxPri (pending_iff.mp hi₀).1
  have hbit := (getLsbD_pendingAtPri _).mpr ⟨j₀, hj₀, rfl⟩
  obtain ⟨i, ⟨hdir, hpri⟩, hidx⟩ :=
    (getLsbD_pendingAtPri _).mp (priorityEncoder_set (by omega) hbit)
  have hpi : (s.xives i).pri ≠ priMasked := by
    rw [hpri]
    exact hmax
  refine ⟨i, ⟨pending_iff.mpr ⟨hdir, hpi⟩, ?_, ?_⟩, hidx.symm, ?_⟩
  · intro j hj
    obtain ⟨hjdir, hjpri⟩ := pending_iff.mp hj
    have hle := maxPri_le hjdir
    rw [← hpri] at hle
    rw [priority, priority, BitVec.le_def, prioUnpack_toNat hpi, prioUnpack_toNat hjpri]
    exact hle
  · intro j hj heq
    obtain ⟨hjdir, hjpri⟩ := pending_iff.mp hj
    have hsame : (s.xives j).pri = s.maxPri cpu := by
      have hn := congrArg BitVec.toNat heq
      rw [priority, priority, prioUnpack_toNat hpi, prioUnpack_toNat hjpri] at hn
      rw [BitVec.eq_of_toNat_eq hn, hpri]
    by_contra hlt
    have hjbit := (getLsbD_pendingAtPri _).mpr ⟨j, ⟨hjdir, hsame⟩, rfl⟩
    have hno := priorityEncoder_below (v := s.pendingAtPri cpu) (by omega)
      (show j.val < _ by rw [← hidx]; exact not_le.mp hlt)
    exact Bool.noConfusion (hjbit.symm.trans hno)
  · rw [priority, hpri]

/-- After an edge the most favoured source is presented to every cpu. -/
theorem presents_next (c : Fin g.ncpus) :
    s.Presents s.icpOutNext (c.castLE g.ncpus_le) := by
  have hpri : s.icpOutNext.pri (c.castLE g.ncpus_le) = prioUnpack (s.maxPri c) := by
    simp [icpOutNext]
  have hsrc : s.icpOutNext.src (c.castLE g.ncpus_le) = s.maxIdx c := by
    simp [icpOutNext]
  constructor
  · intro hne
    rw [hpri, Ne, prioUnpack_eq_ff_iff] at hne
    rw [hpri, hsrc]
    exact maxIdx_mostFavoured hne
  · rw [hpri, prioUnpack_eq_ff_iff]
    exact maxPri_eq_priMasked_iff

end Ics

/-! ## The presentation unit -/

section

variable {g : Generics}

/-- The most favoured of the presented priority and MFRR. -/
def State.favoured (s : State g) (c : Fin g.ncpus) : BitVec 8 :=
  if (s.icp.icp c).mfrr < s.ics.icpOut.pri (c.castLE g.ncpus_le) then (s.icp.icp c).mfrr
  else s.ics.icpOut.pri (c.castLE g.ncpus_le)

/-- The input is a read of the four bytes of XIRR of the cpu. -/
def Input.accepts (i : Input) (c : Nat) : Bool :=
  !i.rst && i.wbIcp.cyc && i.wbIcp.stb && (i.wbIcp.adr.extractLsb' 2 4).toNat == c &&
    !i.wbIcp.we && i.wbIcp.reg == .xirr && i.wbIcp.sel == 0xf

/-- The number of the interrupt in the word that a read of XIRR has returned. -/
def State.returned (s : State g) : BitVec 24 :=
  (bswap s.icp.wbRdData).extractLsb' 0 24

/-- The priority of the interrupt with this number: MFRR for the number 2, else the priority that
the source unit presents. -/
def State.priorityOf (s : State g) (c : Fin g.ncpus) (n : BitVec 24) : BitVec 8 :=
  if n = 2 then (s.icp.icp c).mfrr else s.ics.icpOut.pri (c.castLE g.ncpus_le)

/-- What the controller has to do in two consecutive cycles: the source unit presents what was
pending, the interrupt output follows the priorities, and a read that accepts an interrupt takes its
priority. -/
structure PresentsWell (s : State g) (i i' : Input) (c : Fin g.ncpus) : Prop where
  presents : s.ics.Presents (step s i).ics.icpOut (c.castLE g.ncpus_le)
  irq : (step (step s i) i').icp.coreIrqOut c = true ↔
    s.favoured c < ((step s i).icp.icp c).cppr
  accept : i'.accepts c = true → (step (step s i) i').returned ≠ 0 →
    ((step (step s i) i').icp.icp c).cppr = s.priorityOf c (step (step s i) i').returned

/-- The controller works along the whole run. -/
def Presenting (s₀ : State g) (is : List Input) : Prop :=
  ∀ pre i i', pre ++ [i, i'] <+: is → ∀ c, PresentsWell (run step s₀ pre) i i' c

/-- No accepting read comes in a cycle in which the pending priority is different from the one of
the cycle before. -/
def Steady (s₀ : State g) (is : List Input) : Prop :=
  ∀ pre i i', pre ++ [i, i'] <+: is → ∀ c : Fin g.ncpus, i.rst = false → i'.accepts c = true →
    (run step s₀ pre).favoured c ≠ 0xff →
    (step (run step s₀ pre) i).favoured c = (run step s₀ pre).favoured c

namespace Presentation

variable {p : Presentation} {src : BitVec 4} {pri : BitVec 8}

/-- The pending priority and number, case by case. -/
theorem pending_cases :
    p.mfrr < pri ∧ p.pending src pri = (2, p.mfrr) ∨
    ¬p.mfrr < pri ∧ pri ≠ 0xff ∧ p.pending src pri = (0x00001#20 ++ src, pri) ∨
    ¬p.mfrr < pri ∧ pri = 0xff ∧ p.pending src pri = (0, 0xff) := by
  have hval : p.pending src pri =
      if p.mfrr < pri then (2, p.mfrr)
      else if pri ≠ 0xff then (0x00001#20 ++ src, pri) else (0, 0xff) := by
    unfold pending
    by_cases hff : pri = 0xff
    · subst hff
      rfl
    · simp only [ne_eq, hff, not_false_eq_true, if_true]
  by_cases hm : p.mfrr < pri
  · exact Or.inl ⟨hm, by rw [hval, if_pos hm]⟩
  · by_cases hff : pri = 0xff
    · exact Or.inr (Or.inr ⟨hm, hff, by rw [hval, if_neg hm, if_neg (not_not.mpr hff)]⟩)
    · exact Or.inr (Or.inl ⟨hm, hff, by rw [hval, if_neg hm, if_pos hff]⟩)

theorem source_ne (src : BitVec 4) : (0x00001#20 ++ src) ≠ 0#24 ∧ (0x00001#20 ++ src) ≠ 2#24 := by
  revert src
  decide

end Presentation

variable {s : State g} {i : Input} {c : Fin g.ncpus}

/-- What is pending for the cpu in the cycle. -/
def State.pending (s : State g) (c : Fin g.ncpus) : BitVec 24 × BitVec 8 :=
  (s.icp.icp c).pending (s.ics.icpOut.src (c.castLE g.ncpus_le))
    (s.ics.icpOut.pri (c.castLE g.ncpus_le))

theorem State.pending_snd : (s.pending c).2 = s.favoured c := by
  unfold State.pending State.favoured
  rcases @Presentation.pending_cases (s.icp.icp c) (s.ics.icpOut.src (c.castLE g.ncpus_le))
    (s.ics.icpOut.pri (c.castLE g.ncpus_le)) with ⟨hm, h⟩ | ⟨hm, -, h⟩ | ⟨hm, hff, h⟩
  · rw [h, if_pos hm]
  · rw [h, if_neg hm]
  · rw [h, if_neg hm, hff]

/-- There is a number exactly if there is a priority, and it is the priority of that number. -/
theorem State.pending_fst : ((s.pending c).1 ≠ 0 ↔ s.favoured c ≠ 0xff) ∧
    ((s.pending c).1 ≠ 0 → s.priorityOf c (s.pending c).1 = s.favoured c) := by
  unfold State.pending State.favoured State.priorityOf
  rcases @Presentation.pending_cases (s.icp.icp c) (s.ics.icpOut.src (c.castLE g.ncpus_le))
    (s.ics.icpOut.pri (c.castLE g.ncpus_le)) with ⟨hm, h⟩ | ⟨hm, hff, h⟩ | ⟨hm, hff, h⟩
  · -- the interrupt of MFRR: it is below another priority, so it is not 0xff
    rw [h, if_pos hm]
    have hne : (s.icp.icp c).mfrr ≠ 0xff := by
      intro heq
      rw [heq, BitVec.lt_def] at hm
      have := (s.ics.icpOut.pri (c.castLE g.ncpus_le)).isLt
      simp at hm
      omega
    exact ⟨⟨fun _ => hne, fun _ => show (2#24 : BitVec 24) ≠ 0 by decide⟩, fun _ => if_pos rfl⟩
  · rw [h, if_neg hm]
    obtain ⟨h0, h2⟩ := Presentation.source_ne (s.ics.icpOut.src (c.castLE g.ncpus_le))
    exact ⟨⟨fun _ => hff, fun _ => h0⟩, fun _ => if_neg h2⟩
  · rw [h, if_neg hm]
    exact ⟨⟨fun h0 => absurd rfl h0, fun hne => absurd hff hne⟩, fun h0 => absurd rfl h0⟩

/-- The presentation registers of a cpu after an edge outside reset. -/
theorem icp_step (hrst : i.rst = false) :
    (step s i).icp.icp c = (s.icp.icp c).next (i.wbIcp.hits c) i.wbIcp
      (s.ics.icpOut.src (c.castLE g.ncpus_le)) (s.ics.icpOut.pri (c.castLE g.ncpus_le)) := by
  simp [step, Icp.step, hrst]

theorem accepts_iff : i.accepts c = true ↔ i.rst = false ∧ i.wbIcp.hits c = true ∧
    i.wbIcp.we = false ∧ i.wbIcp.reg = .xirr ∧ i.wbIcp.sel = 0xf := by
  simp only [Input.accepts, WbIn.hits, Bool.and_eq_true, Bool.not_eq_true', beq_iff_eq]
  tauto

/-- The interrupt follows the priorities, in reset also: CPPR is then zero. -/
theorem irq_iff : ((step s i).icp.icp c).irq = true ↔
    s.favoured c < ((step s i).icp.icp c).cppr := by
  cases hrst : i.rst with
  | true => simp [step, Icp.step, hrst, Presentation.init]
  | false =>
      rw [icp_step hrst, ← State.pending_snd]
      simp only [Presentation.next, decide_eq_true_eq]
      rfl

theorem xisr_step (hrst : i.rst = false) : ((step s i).icp.icp c).xisr = (s.pending c).1 := by
  rw [icp_step hrst]
  rfl

theorem cppr_of_accepts (ha : i.accepts c = true) :
    ((step s i).icp.icp c).cppr = s.favoured c := by
  obtain ⟨hrst, hhit, hwe, hreg, hsel⟩ := accepts_iff.mp ha
  have hacc : Presentation.xirrAcceptRd (i.wbIcp.hits c) i.wbIcp = true := by
    simp [Presentation.xirrAcceptRd, hhit, hwe, hreg, hsel]
  rw [icp_step hrst, ← State.pending_snd]
  simp only [Presentation.next, hacc, if_true]
  rfl

theorem bswap_bswap (v : BitVec 32) : bswap (bswap v) = v := by
  apply BitVec.eq_of_getLsbD_eq
  intro k hk
  simp only [bswap, BitVec.getLsbD_append, BitVec.getLsbD_extractLsb']
  grind

/-- An accepting read returns XISR. -/
theorem returned_of_accepts (ha : i.accepts c = true) :
    (step s i).returned = (s.icp.icp c).xisr := by
  obtain ⟨hrst, hhit, hwe, hreg, hsel⟩ := accepts_iff.mp ha
  have hout : s.icp.beOut i.wbIcp = (s.icp.icp c).beOut i.wbIcp := by
    unfold Icp.beOut
    rcases Select.foldl_last_cases (fun k : Fin g.ncpus => i.wbIcp.hits k && !i.wbIcp.we)
      (fun k => (s.icp.icp k).beOut i.wbIcp) 0 (List.finRange g.ncpus) with
      ⟨hnone, -⟩ | ⟨k, -, hk, heq⟩
    · have hno := hnone c (List.mem_finRange c)
      simp [hhit, hwe] at hno
    · have hkc : k = c := by
        simp only [WbIn.hits, Bool.and_eq_true, beq_iff_eq] at hk hhit
        exact Fin.ext (hk.1.2.symm.trans hhit.2)
      rw [heq, hkc]
  have hdat : (step s i).icp.wbRdData = bswap (s.icp.beOut i.wbIcp) := by
    simp [step, Icp.step, hrst]
  rw [State.returned, hdat, bswap_bswap, hout]
  simp only [Presentation.beOut, hreg]
  apply BitVec.eq_of_getLsbD_eq
  intro k hk
  rw [BitVec.getLsbD_extractLsb', Nat.zero_add, BitVec.getLsbD_append, if_pos hk]
  simp [hk]

/-- An accepting read takes the priority of the interrupt that it returns exactly if the pending
priority is still the one of the cycle before. -/
theorem accept_iff {i' : Input} (ha : i'.accepts c = true) :
    ((step (step s i) i').returned ≠ 0 →
      ((step (step s i) i').icp.icp c).cppr = s.priorityOf c (step (step s i) i').returned) ↔
    (i.rst = false → s.favoured c ≠ 0xff → (step s i).favoured c = s.favoured c) := by
  rw [returned_of_accepts ha, cppr_of_accepts ha]
  cases hrst : i.rst with
  | true =>
      have hx : ((step s i).icp.icp c).xisr = 0 := by
        simp [step, Icp.step, hrst, Presentation.init]
      simp [hx]
  | false =>
      obtain ⟨hiff, hpri⟩ := @State.pending_fst g s c
      rw [xisr_step hrst, ← hiff]
      constructor
      · intro h _ hne
        rw [h hne, hpri hne]
      · intro h hne
        rw [h rfl hne, hpri hne]

/-- The controller presents the most favoured source, raises the interrupts and accepts them at
their priority along every run in which the pending priority does not change in the cycle of an
accepting read, and along no other. -/
theorem presenting_iff_steady (g : Generics) (s₀ : State g) (is : List Input) :
    Presenting s₀ is ↔ Steady s₀ is := by
  constructor
  · intro h pre i i' hpre c hrst ha hne
    exact (accept_iff ha).mp ((h pre i i' hpre c).accept ha) hrst hne
  · intro h pre i i' hpre c
    refine ⟨Ics.presents_next c, irq_iff, ?_⟩
    intro ha
    exact (accept_iff ha).mpr fun hrst hne => h pre i i' hpre c hrst ha hne

end

/-- One cpu, and three bits of priority. -/
def soc : Generics := ⟨1, 3, by omega, Nat.le_add_left 1 2, by omega⟩

/-- The state in which the registers are after reset. -/
def afterReset : State soc where
  ics := ⟨fun _ => ⟨priMasked, 0⟩, 0, ⟨fun _ => 0, fun _ => 0xff⟩, 0, false⟩
  icp := ⟨fun _ => Presentation.init, 0, false, fun _ => false⟩

/-- A cycle without an access. -/
def noAccess (level : BitVec 16) : Input :=
  ⟨false, ⟨0, 0, 0, false, false, false⟩, ⟨0, 0, 0, false, false, false⟩, level⟩

/-- A write of an XIVE register. -/
def writeXive (n : BitVec 30) (pri : BitVec 8) : Input :=
  { noAccess 0 with wbIcs := ⟨0x200 + n, pri ++ 0#24, 0xf, true, true, true⟩ }

/-- Source 16 has priority 5 and source 17 has priority 3.  Source 16 is presented when source 17
comes in, and XIRR is read in the cycle in which the presentation unit sees it. -/
def secondSource : List Input :=
  [writeXive 0 5, writeXive 1 3, noAccess 1, noAccess 3]

/-- The read returns source 16 and sets CPPR to the priority of source 17. -/
theorem accept_takes_other_priority : ¬Presenting afterReset
    (secondSource ++ [noAccess 3,
      { noAccess 3 with wbIcp := ⟨1, 0, 0xf, true, true, false⟩ }]) := by
  intro h
  have hacc := (h secondSource _ _ (List.prefix_refl _) ⟨0, by decide⟩).accept (by decide +kernel)
    (by decide +kernel)
  exact absurd hacc (by decide +kernel)

end Microwatt.Xics
