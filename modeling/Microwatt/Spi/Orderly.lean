import Microwatt.Spi.Pipeline

/-!
# Requests stay in order

What each edge does with the registers and with the lists, from what it does with the request in the
request register.
-/

namespace Microwatt.Spi

open Clocked Soc

section

variable {g : Config} {p : Pipe} {t : Turn}

/-! ## The lists -/

theorem step_stall : (p.step g t).st.wbOut.stall = (wbRsp g p.st (p.input t)).stall :=
  wbOut_step.1

theorem wbReq_step : (p.step g t).st.wbReq =
    if (wbRsp g p.st (p.input t)).stall then p.st.wbReq
    else if p.st.wbOut.stall then p.st.wbStash
    else if t.wbIn.cyc then t.wbIn
    else { p.st.wbReq with cyc := t.wbIn.cyc, stb := t.wbIn.stb } := rfl

theorem reqMap_step : (p.step g t).reqMap =
    if (wbRsp g p.st (p.input t)).stall then p.reqMap
    else if p.st.wbOut.stall then p.stashMap
    else t.map := rfl

theorem wbStash_step : (p.step g t).st.wbStash =
    if (wbRsp g p.st (p.input t)).stall && !p.st.wbOut.stall && t.wbIn.cyc && t.wbIn.stb then t.wbIn
    else p.st.wbStash := rfl

theorem stashMap_step : (p.step g t).stashMap =
    if (wbRsp g p.st (p.input t)).stall && !p.st.wbOut.stall && t.wbIn.cyc && t.wbIn.stb then t.map
    else p.stashMap := rfl

theorem current_stall (h : (wbRsp g p.st (p.input t)).stall = true) :
    (p.step g t).current = p.current := by
  simp [Pipe.current, Pipe.request, wbValid, wbReq_step, reqMap_step, h]

/-- A stall keeps what is in the stash, or fills it. -/
theorem stashed_stall (hs : Sound g p t) (h : (wbRsp g p.st (p.input t)).stall = true) :
    (p.step g t).stashed = p.stashed ++ offered p t := by
  unfold Pipe.stashed offered
  rw [step_stall, wbStash_step, stashMap_step, h]
  cases ho : p.st.wbOut.stall with
  | true => simp
  | false =>
      cases hn : (t.wbIn.cyc && t.wbIn.stb) with
      | true =>
          simp only [Bool.and_eq_true] at hn
          simp [hn.1, hn.2]
      | false =>
          -- nothing old is in the stash
          have hold : (p.st.wbStash.stb && p.st.wbStash.cyc) = false := by
            simpa [hn] using hs.noReplay h ho
          simp [hn, hold]

/-- Without a stall the next request comes from the stash, or from the bus. -/
theorem current_go (h : (wbRsp g p.st (p.input t)).stall = false) :
    (p.step g t).current = p.stashed ++ offered p t := by
  unfold Pipe.current Pipe.stashed Pipe.request offered wbValid
  rw [wbReq_step, reqMap_step, h]
  cases ho : p.st.wbOut.stall with
  | true => simp
  | false =>
      cases hc : t.wbIn.cyc with
      | true => simp [hc]
      | false => simp

/-- The request goes on, and those behind it come nearer. -/
theorem registers_step (hs : Sound g p t) : (p.step g t).current ++ (p.step g t).stashed =
    (if (wbRsp g p.st (p.input t)).stall then p.current else []) ++ p.stashed ++ offered p t := by
  cases h : (wbRsp g p.st (p.input t)).stall with
  | true => rw [current_stall h, stashed_stall hs h, if_pos rfl, List.append_assoc]
  | false =>
      have hempty : (p.step g t).stashed = [] := by simp [Pipe.stashed, step_stall, h]
      rw [current_go h, hempty]
      simp

/-- There is a read for each ack of the shifter. -/
theorem Steady.reads_of_ack (h : Steady p) (ha : readAck p.st = true) : p.reads ≠ [] := by
  simp only [readAck, Bool.and_eq_true] at ha
  intro hnil
  have := (h.manual ha.1).1
  rw [hnil] at this
  simp [inflight, ha.2] at this

/-- The oldest read is answered by an ack of the shifter. -/
theorem split_reads :
    (if readAck p.st then p.reads.take 1 else []) ++
      (if readAck p.st then p.reads.tail else p.reads)
      = p.reads := by
  split_ifs
  · cases p.reads <;> rfl
  · rfl

theorem answered_step : (p.step g t).answered ++ (p.step g t).reads =
    p.answered ++ (if readAck p.st then p.reads.take 1 else []) ++
      (if ownAck g p.st (p.input t) then [p.request] else []) ++
      (if readAck p.st then p.reads.tail else p.reads) ++
      if startsRead g p.st (p.input t) then [p.request] else [] := by
  simp [Pipe.step]

/-- A request that leaves has been answered, or is a read in the shifter. -/
theorem leaves_step (h : Steady p) (hs : Sound g p t) :
    (p.step g t).answered ++ (p.step g t).reads =
      p.answered ++ p.reads ++ if (wbRsp g p.st (p.input t)).stall then [] else p.current := by
  have hsplit := split_reads (p := p)
  rw [answered_step]
  cases happening (g := g) h hs with
  | nothing hv hst hown hstarts =>
      rw [hst, hown, hstarts, Pipe.current, hv]
      simp [hsplit]
  | waits hv hst hown hstarts =>
      rw [hst, hown, hstarts]
      simp [hsplit]
  | begins hv _ _ _ _ hst hown hstarts =>
      rw [hst, hown, hstarts]
      simp [hsplit]
  | ends hv hst hown hstarts _ _ _ hreads halone =>
      rw [hst, hown, hstarts, hreads, halone, Pipe.current, hv]
      simp
  | answers hv hst hown hstarts _ _ _ hreads halone =>
      rw [hst, hown, hstarts, hreads, halone, Pipe.current, hv]
      simp
  | starts hv hst hown hstarts =>
      rw [hst, hown, hstarts, Pipe.current, hv]
      simp only [Bool.false_eq_true, if_false, if_true, List.append_nil]
      rw [List.append_assoc p.answered, hsplit]

/-- A request is carried out before it leaves, a read of the map when it is begun. -/
theorem executes_step (h : Steady p) (hs : Sound g p t) :
    (if reading p.st.autoState then p.current else []) ++
        (if executes g p.st (p.input t) then [p.request] else []) =
      (if (wbRsp g p.st (p.input t)).stall then [] else p.current) ++
        if reading (p.step g t).st.autoState then (p.step g t).current else [] := by
  have hnext : (p.step g t).st.autoState = (autoComb g p.st (p.input t)).next := rfl
  rw [hnext]
  cases happening (g := g) h hs with
  | nothing hv hst _ _ hexec hnow hnext =>
      rw [hst, hexec, hnow, hnext, Pipe.current, hv]
      rfl
  | waits hv hst _ _ hexec hsame =>
      rw [current_stall hst, hst, hexec, hsame]
      simp
  | begins hv _ _ _ _ hst _ _ hexec hnow hnext =>
      rw [current_stall hst, hst, hexec, hnow, hnext, Pipe.current, hv]
      rfl
  | ends hv hst _ _ hexec hnow hnext =>
      rw [hst, hexec, hnow, hnext]
      simp
  | answers hv hst _ _ hexec hnow hnext =>
      rw [hst, hexec, hnow, hnext, Pipe.current, hv]
      rfl
  | starts hv hst _ _ hexec hnow hnext =>
      rw [hst, hexec, hnow, hnext, Pipe.current, hv]
      rfl

/-- Two answers are never given with one ack. -/
theorem acks_step (h : Steady p) (hs : Sound g p t) :
    (p.step g t).acks + p.answered.length = p.acks + (p.step g t).answered.length := by
  have hacks : (p.step g t).acks = p.acks + (wbRsp g p.st (p.input t)).ack.toNat :=
    congrArg (fun b : Bool => p.acks + b.toNat) wbOut_step.2
  have hanswered : (p.step g t).answered.length = p.answered.length +
      ((if readAck p.st then p.reads.take 1 else []).length +
        (if ownAck g p.st (p.input t) then [p.request] else []).length) := by
    simp [Pipe.step]
  have hread : (if readAck p.st then p.reads.take 1 else []).length = (readAck p.st).toNat := by
    cases ha : readAck p.st with
    | false => rfl
    | true =>
        have := List.length_pos_of_ne_nil (h.reads_of_ack ha)
        simp only [if_true, List.length_take, Bool.toNat_true]
        omega
  have hown : (if ownAck g p.st (p.input t) then [p.request] else []).length =
      (ownAck g p.st (p.input t)).toNat := by
    cases ownAck g p.st (p.input t) <;> rfl
  have halone : ownAck g p.st (p.input t) = true → readAck p.st = false := by
    intro ho
    cases happening (g := g) h hs with
    | nothing _ _ hno => rw [ho] at hno; cases hno
    | waits _ _ hno => rw [ho] at hno; cases hno
    | begins _ _ _ _ _ _ hno => rw [ho] at hno; cases hno
    | ends _ _ _ _ _ _ _ _ ha => exact ha
    | answers _ _ _ _ _ _ _ _ ha => exact ha
    | starts _ _ hno => rw [ho] at hno; cases hno
  rw [hacks, hanswered, hread, hown, wbRsp_ack]
  cases ho : ownAck g p.st (p.input t) with
  | false =>
      simp only [Bool.false_or, Bool.toNat_false]
      omega
  | true =>
      rw [halone ho]
      simp only [Bool.or_false, Bool.toNat_true, Bool.toNat_false]
      omega

theorem Orderly.step (ho : Orderly p) (h : Steady p) (hs : Sound g p t) : Orderly (p.step g t) := by
  have hleaves := leaves_step h hs
  refine ⟨?_, ?_, ?_⟩
  · have hacc : (p.step g t).accepted = p.accepted ++ offered p t := rfl
    rw [hacc, ho.accepted, List.append_assoc _ (p.step g t).current, registers_step hs, hleaves]
    cases (wbRsp g p.st (p.input t)).stall <;> simp
  · have hexec : (p.step g t).executed =
        p.executed ++ if executes g p.st (p.input t) then [p.request] else [] := rfl
    rw [hexec, ho.executed, hleaves, List.append_assoc, executes_step h hs]
    simp only [List.append_assoc]
  · have := acks_step h hs
    have := ho.acks
    omega

/-! ## The registers -/

/-- The control register is written, or a reset sets it, or it stays. -/
theorem ctrl_edge {s : State} {i : Input} :
    writes s i spiRegCtrl = true ∨
      (writes s i spiRegCtrl = false ∧ ctrlReset s = true ∧ ctrlCs (Spi.step g s i) = false ∧
        ctrlReset (Spi.step g s i) = false) ∨
      (ctrlReset s = false ∧ ctrlReset (Spi.step g s i) = false ∧
        ctrlCs (Spi.step g s i) = ctrlCs s) := by
  cases hw : writes s i spiRegCtrl with
  | true => exact Or.inl rfl
  | false =>
      have hreg : (Spi.step g s i).ctrlReg = if ctrlReset s then defaultCtrl g s
          else s.ctrlReg := by
        simp [Spi.step, hw]
      right
      cases hr : ctrlReset s with
      | true =>
          rw [hr, if_pos rfl] at hreg
          refine Or.inl ⟨rfl, rfl, ?_, ?_⟩
          · rw [ctrlCs, hreg, getLsbD_defaultCtrl s (by omega)]
          · rw [ctrlReset, hreg, getLsbD_defaultCtrl s (by omega)]
      | false =>
          rw [hr, if_neg Bool.false_ne_true] at hreg
          refine Or.inr ⟨rfl, ?_, ?_⟩
          · rw [ctrlReset, hreg]
            exact hr
          · rw [ctrlCs, ctrlCs, hreg]

/-- The shifter after an edge. -/
theorem inflight_edge {s : State} {i : Input} (hok : s.rxtx.Ok) :
    inflight (Spi.step g s i).rxtx + s.rxtx.dAck.toNat =
      inflight s.rxtx + (startCmd s.rxtx (cmdOut g s i) && !(cmdOut g s i).mode.getLsbD 0).toNat :=
  inflight_step hok

theorem inflight_manual {s : State} {i : Input} (hok : s.rxtx.Ok) (hcs : ctrlCs s = true) :
    inflight (Spi.step g s i).rxtx + (readAck s).toNat =
      inflight s.rxtx + (startsRead g s i).toNat := by
  have := inflight_edge (g := g) (i := i) hok
  rw [mode_manual hcs] at this
  simpa [readAck, startsRead, hcs] using this

theorem inflight_quiet {s : State} {i : Input} (hok : s.rxtx.Ok)
    (hs : startCmd s.rxtx (cmdOut g s i) = false) (hz : inflight s.rxtx = 0) :
    inflight (Spi.step g s i).rxtx = 0 := by
  have := inflight_edge (g := g) (i := i) hok
  rw [hs, hz] at this
  simp only [Bool.false_and, Bool.toNat_false] at this
  omega

theorem acks_of_inflight {s : State} (hst : ∀ j, s.autoState ≠ .datData j)
    (hz : inflight s.rxtx = 0) : Acks s :=
  ⟨fun _ => inflight_eq_zero.1 hz, fun j hj => absurd hj (hst j)⟩

/-- A write to a register finds the shifter empty, and leaves it so. -/
theorem Steady.write (h : Steady p) (hs : Sound g p t) {reg : BitVec 3} (hreg : reg ≠ spiRegData)
    (hw : writes p.st (p.input t) reg = true) :
    (p.step g t).reads = [] ∧ inflight (p.step g t).st.rxtx = 0 ∧
      Resting (p.step g t).st.autoState := by
  obtain ⟨hidle, hrv, -, hwreg, hready⟩ := idle_of_writes hw
  have hdata : wbReg p.st (p.input t) ≠ spiRegData := by rw [hwreg]; exact hreg
  obtain ⟨hz, halone⟩ := h.inflight_of_ready hs hrv (fun _ => hdata) hready
  have hm : wbMapValid p.st (p.input t) = false := by
    rw [regValid_eq] at hrv
    rw [mapValid_eq]
    simp_all
  have hrest : Resting p.st.autoState := Or.inl hidle
  have hstart : startCmd p.st.rxtx (cmdOut g p.st (p.input t)) = false := by
    cases hcs : ctrlCs p.st with
    | true => simp [startCmd_manual hcs, hdata]
    | false =>
        rw [startCmd_auto hcs]
        by_cases hr : ctrlReset p.st = true
        · rw [(autoComb_reset hr).2.2, Bool.and_false]
        · simp only [Bool.not_eq_true] at hr
          simp [autoComb, hr, hidle, hm, AutoOut.default]
  refine ⟨?_, inflight_quiet h.ok hstart hz, autoComb_rest hrest (Or.inl hm)⟩
  have hstarts : startsRead g p.st (p.input t) = false := by simp [startsRead, hstart]
  have hreads : (p.step g t).reads = (if readAck p.st then p.reads.tail else p.reads) ++
      if startsRead g p.st (p.input t) then [p.request] else [] := rfl
  rw [hreads, halone, hstarts, h.reads_of_inflight hz]
  rfl

theorem reads_length (h : Steady p) : (p.step g t).reads.length + (readAck p.st).toNat =
    p.reads.length + (startsRead g p.st (p.input t)).toNat := by
  have hreads : (p.step g t).reads = (if readAck p.st then p.reads.tail else p.reads) ++
      if startsRead g p.st (p.input t) then [p.request] else [] := rfl
  have hstarts : (if startsRead g p.st (p.input t) then [p.request] else []).length =
      (startsRead g p.st (p.input t)).toNat := by
    cases startsRead g p.st (p.input t) <;> rfl
  rw [hreads, List.length_append, hstarts]
  cases ha : readAck p.st with
  | false =>
      simp only [Bool.false_eq_true, if_false, Bool.toNat_false]
      omega
  | true =>
      have := List.length_pos_of_ne_nil (h.reads_of_ack ha)
      simp only [if_true, List.length_tail, Bool.toNat_true]
      omega

/-- A read that is known of keeps writes back until the shifter is idle. -/
theorem pendingRead_edge (h : Steady p) (hcs : ctrlCs p.st = true)
    (hp : (p.step g t).st.pendingRead = false) : inflight (p.step g t).st.rxtx = 0 := by
  have hstep : (p.step g t).st.pendingRead =
      if startCmd p.st.rxtx (cmdOut g p.st (p.input t)) then !p.st.wbReq.we
      else if busIdle p.st.rxtx then false
      else p.st.pendingRead := by
    rw [startCmd, Bool.and_comm]
    rfl
  have hin : inflight (p.step g t).st.rxtx + (readAck p.st).toNat =
      inflight p.st.rxtx + (startsRead g p.st (p.input t)).toNat := inflight_manual h.ok hcs
  have hack : readAck p.st = p.st.rxtx.dAck := by simp [readAck, hcs]
  rw [hstep] at hp
  by_cases hs : startCmd p.st.rxtx (cmdOut g p.st (p.input t)) = true
  · rw [if_pos hs] at hp
    have hwe : p.st.wbReq.we = true := by simpa using hp
    have hpend : p.st.pendingRead = false := by
      rw [startCmd_manual hcs, hwe] at hs
      simp only [Bool.and_eq_true] at hs
      simpa using hs.2
    have hz := (h.manual hcs).2 hpend
    have hno : startsRead g p.st (p.input t) = false := by simp [startsRead, hwe]
    rw [hno, hz] at hin
    simp only [Bool.toNat_false] at hin
    omega
  · have hno : startsRead g p.st (p.input t) = false := by simp [startsRead, hs]
    rw [hno] at hin
    simp only [Bool.toNat_false] at hin
    rw [if_neg hs] at hp
    split_ifs at hp with hi
    · rw [h.inflight_of_idle hi, hack] at hin
      omega
    · have hz := (h.manual hcs).2 hp
      omega

theorem autoCnt_le {s : State} {i : Input} (h : s.autoCnt ≤ 63) :
    (autoComb g s i).cntNext ≤ 63 := by
  have hdown : (if s.autoCnt ≠ 0 then s.autoCnt - 1 else s.autoCnt) ≤ 63 := by
    split_ifs <;> omega
  cases hr : ctrlReset s with
  | true => simp [autoComb, hr, AutoOut.default]
  | false =>
      cases hst : s.autoState with
      | sendAck =>
          have := (autoCfgCstout s).isLt
          simp only [autoComb, hr, hst]
          simp only [Bool.false_eq_true, if_false]
          omega
      | boot => simp only [autoComb, hr, hst, AutoOut.default]; split_ifs <;> simp_all
      | idle =>
          simp only [autoComb, hr, hst, AutoOut.default]; split_ifs <;> simp_all [csDelayAssert]
      | csOn => simp only [autoComb, hr, hst, AutoOut.default]; split_ifs <;> simp_all
      | datData j => simp only [autoComb, hr, hst, AutoOut.default]; split_ifs <;> simp_all
      | waitReq =>
          simp only [autoComb, hr, hst, AutoOut.default]
          split_ifs <;> simp_all [csDelayRecovery]
      | recovery => simp only [autoComb, hr, hst, AutoOut.default]; split_ifs <;> simp_all
      | cmd => simpa [autoComb, hr, hst, AutoOut.default] using hdown
      | adr j => simpa [autoComb, hr, hst, AutoOut.default] using hdown
      | dummy => simpa [autoComb, hr, hst, AutoOut.default] using hdown
      | dat j => simpa [autoComb, hr, hst, AutoOut.default] using hdown

theorem clkDiv_le {s : State} {i : Input} (h : s.rxtx.clkDiv ≤ 255) :
    (Spi.step g s i).rxtx.clkDiv ≤ 255 := by
  have hc : (cmdOut g s i).clkDiv ≤ 255 := by
    have := (ctrlDiv s).isLt
    have := (autoCfgDiv s).isLt
    unfold cmdOut
    split_ifs <;> simp only [] <;> omega
  show (if s.rxtx.counter = s.rxtx.clkDiv then (cmdOut g s i).clkDiv else s.rxtx.clkDiv) ≤ 255
  split_ifs
  · exact hc
  · exact h

/-- The shifter is empty in a reset, and stays so. -/
theorem Steady.after_reset (h : Steady p) (hs : Sound g p t) (hr : ctrlReset p.st = true) :
    (p.step g t).reads = [] ∧ inflight (p.step g t).st.rxtx = 0 ∧
      Resting (p.step g t).st.autoState := by
  have hz := h.reset hr
  have hstarts := hs.resetQuiet hr
  have hlen := reads_length (g := g) (t := t) h
  rw [hstarts, h.reads_of_inflight hz] at hlen
  simp only [List.length_nil, Bool.toNat_false] at hlen
  refine ⟨List.eq_nil_of_length_eq_zero (by omega), ?_, Or.inr (autoComb_reset hr).1⟩
  cases hcs : ctrlCs p.st with
  | true =>
      have hin : inflight (p.step g t).st.rxtx + (readAck p.st).toNat =
          inflight p.st.rxtx + (startsRead g p.st (p.input t)).toNat := inflight_manual h.ok hcs
      rw [hstarts, hz] at hin
      simp only [Bool.toNat_false] at hin
      omega
  | false =>
      refine inflight_quiet h.ok ?_ hz
      rw [startCmd_auto hcs, (autoComb_reset hr).2.2, Bool.and_false]

/-- The control register stays, or the shifter is empty and the automatic machine at rest. -/
theorem Steady.ctrl_cases (h : Steady p) (hs : Sound g p t) :
    (ctrlReset p.st = false ∧ ctrlReset (p.step g t).st = false ∧
        ctrlCs (p.step g t).st = ctrlCs p.st) ∨
      ((p.step g t).reads = [] ∧ inflight (p.step g t).st.rxtx = 0 ∧
        Resting (p.step g t).st.autoState) := by
  rcases ctrl_edge (g := g) (s := p.st) (i := p.input t) with hw | ⟨-, hr, -⟩ | hkeep
  · exact Or.inr (h.write hs (by decide) hw)
  · exact Or.inr (h.after_reset hs hr)
  · exact Or.inl hkeep

theorem Steady.asked_step (h : Steady p) (hs : Sound g p t)
    (hread : reading (p.step g t).st.autoState = true) :
    wbValid (p.step g t).st = true ∧ (p.step g t).reqMap = true ∧
      (p.step g t).st.wbReq.we = false ∧ ctrlCs (p.step g t).st = false ∧
      ctrlReset (p.step g t).st = false := by
  obtain ⟨-, hr', hcs'⟩ := (h.ctrl_cases hs).resolve_right fun hc => by
    rw [hc.2.2.not_reading] at hread
    cases hread
  have hnext : reading (autoComb g p.st (p.input t)).next = true := hread
  cases happening (g := g) h hs with
  | nothing _ _ _ _ _ _ hno => rw [hnext] at hno; cases hno
  | ends _ _ _ _ _ _ hno => rw [hnext] at hno; cases hno
  | answers _ _ _ _ _ _ hno => rw [hnext] at hno; cases hno
  | starts _ _ _ _ _ _ hno => rw [hnext] at hno; cases hno
  | begins hv hmap hwe hcs _ hst =>
      refine ⟨?_, ?_, ?_, by rw [hcs', hcs], hr'⟩
      · rw [wbValid, wbReq_step, hst]
        exact hv
      · rw [reqMap_step, hst]
        exact hmap
      · rw [wbReq_step, hst]
        exact hwe
  | waits hv hst _ _ _ hsame =>
      obtain ⟨-, hmap, hwe, hcs, -⟩ := h.asked (by rw [← hsame, hnext])
      refine ⟨?_, ?_, ?_, by rw [hcs', hcs], hr'⟩
      · rw [wbValid, wbReq_step, hst]
        exact hv
      · rw [reqMap_step, hst]
        exact hmap
      · rw [wbReq_step, hst]
        exact hwe

/-- A request that stalls stays. -/
theorem Steady.valid_of_stall (h : Steady p) (hs : Sound g p t)
    (hst : (wbRsp g p.st (p.input t)).stall = true) : wbValid p.st = true := by
  cases happening (g := g) h hs with
  | nothing _ hno => rw [hst] at hno; cases hno
  | waits hv => exact hv
  | begins hv => exact hv
  | ends hv => exact hv
  | answers hv => exact hv
  | starts hv => exact hv

theorem Steady.step (h : Steady p) (hs : Sound g p t) : Steady (p.step g t) := by
  have hlen := reads_length (g := g) (t := t) h
  refine ⟨h.ok.step, data_of_datAckL_step h.ok, h.asked_step hs, ?_, ?_, ?_, ?_, ?_,
    clkDiv_le h.divider, autoCnt_le h.count⟩
  · intro hrest
    rcases h.ctrl_cases hs with ⟨-, hr', hcs'⟩ | ⟨-, -, hrest'⟩
    · have hcs : ctrlCs p.st = true := by
        rw [hr', hcs'] at hrest
        simpa using hrest
      exact autoComb_rest (h.rest (Or.inl hcs)) (Or.inr hcs)
    · exact hrest'
  · intro hcs
    rcases h.ctrl_cases hs with ⟨-, -, hcs'⟩ | ⟨hreads, hz, -⟩
    · rw [hcs'] at hcs
      have hin : inflight (p.step g t).st.rxtx + (readAck p.st).toNat =
          inflight p.st.rxtx + (startsRead g p.st (p.input t)).toNat := inflight_manual h.ok hcs
      have := (h.manual hcs).1
      exact ⟨by omega, pendingRead_edge h hcs⟩
    · rw [hreads, hz]
      exact ⟨rfl, fun _ => rfl⟩
  · intro hcs
    rcases h.ctrl_cases hs with ⟨hr, -, hcs'⟩ | ⟨hreads, hz, hrest'⟩
    · rw [hcs'] at hcs
      obtain ⟨hacks, hreads⟩ := h.auto hcs
      refine ⟨hacks.edge h.ok hcs (by simp [hr]), List.eq_nil_of_length_eq_zero ?_⟩
      have hstarts : startsRead g p.st (p.input t) = false := by simp [startsRead, hcs]
      rw [hstarts, hreads] at hlen
      simp only [List.length_nil, Bool.toNat_false] at hlen
      omega
    · exact ⟨acks_of_inflight hrest'.ne_datData hz, hreads⟩
  · intro hr
    rcases h.ctrl_cases hs with ⟨-, hr', -⟩ | ⟨-, hz, -⟩
    · rw [hr'] at hr
      cases hr
    · exact hz
  · intro hstall
    rw [step_stall] at hstall
    rw [wbValid, wbReq_step, hstall]
    exact h.valid_of_stall hs hstall

end

end Microwatt.Spi
