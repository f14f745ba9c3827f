import Microwatt.Fpu.FeMode

/-!
# The FPSCR between instructions

VX and FEX sum up the other bits after every edge.  FX is set at the end of an instruction if VX to
XX show an exception that they did not show at its capture.  An instruction in progress is either
one that computes, whose exceptions are told when it is done, or it has told of them already.
-/

namespace Microwatt.Fpu

/-! ## Exception bits -/

/-- VX and FEX are what they sum up. -/
structure Summarized (f : BitVec 32) : Prop where
  vx : f.getLsbD fpscrVx = Exc.invalid.isSet f
  fex : f.getLsbD fpscrFex = true ↔ ∃ x : Exc, x.enabled f = true ∧ x.isSet f = true

/-- No exception bit goes from 1 to 0. -/
def Grows (f f' : BitVec 32) : Prop :=
  ∀ x : Exc, ∀ k ∈ x.bits, f.getLsbD k = true → f'.getLsbD k = true

/-- An exception that was not there before has set FX. -/
def Told (f f' : BitVec 32) : Prop :=
  ∀ x : Exc, x.isSet f = false → x.isSet f' = true → f'.getLsbD fpscrFx = true

/-- The FPRF. -/
def InFprf (k : Nat) : Prop := fpscrFu ≤ k ∧ k < fpscrFu + 5

section Growth

variable {f g : BitVec 32}

theorem Grows.refl (f : BitVec 32) : Grows f f := fun _ _ _ h => h

theorem Grows.trans {h : BitVec 32} (hfg : Grows f g) (hgh : Grows g h) : Grows f h :=
  fun x k hk hf => hgh x k hk (hfg x k hk hf)

theorem Grows.mark (h : Grows f g) (n : Nat) : Grows f (setBit g n true) := by
  intro x k hk hf
  rw [getLsbD_setBit _ _ _ _ (Exc.bits_lt k hk)]
  split_ifs
  · rfl
  · exact h x k hk hf

theorem Grows.setRound (h : Grows f g) (round : Bool × Bool) : Grows f (setRound g round) := by
  intro x k hk hf
  have hne : k ≠ fpscrFr ∧ k ≠ fpscrFi := by
    clear hf
    revert k
    cases x <;> decide
  unfold Fpu.setRound
  rw [getLsbD_setBit _ _ _ _ (Exc.bits_lt k hk), if_neg hne.2,
    getLsbD_setBit _ _ _ _ (Exc.bits_lt k hk), if_neg hne.1]
  exact h x k hk hf

theorem Grows.or (h : Grows f g) (w : BitVec 32) : Grows f (g ||| w) := by
  intro x k hk hf
  rw [BitVec.getLsbD_or, h x k hk hf, Bool.true_or]

/-- The exception bits are the same. -/
theorem Grows.of_eq (h : ∀ x : Exc, ∀ k ∈ x.bits, g.getLsbD k = f.getLsbD k) : Grows f g :=
  fun x k hk hf => (h x k hk).trans hf

theorem told_refl (f : BitVec 32) :
    Told f f := fun _ h h' => absurd (h.symm.trans h') Bool.false_ne_true

/-- Where the exception bits lie. -/
theorem Exc.bits_apart {x : Exc} {k : Nat} (hk : k ∈ x.bits) :
    8 ≤ k ∧ k < fpscrVx ∧ ¬InFprf k ∧ k ≠ fpscrFr ∧ k ≠ fpscrFi := by
  unfold InFprf
  revert k
  cases x <;> decide

end Growth

/-! ## The summary -/

section Summary

variable {f : BitVec 32} {fx : Bool} {oldExc : BitVec 5}

theorem isSet_summarize (x : Exc) (fx : Bool) (oldExc : BitVec 5) (f : BitVec 32) :
    x.isSet (summarize fx oldExc f) = x.isSet f := by
  exact Exc.isSet_congr fun k hk => getLsbD_summarize fx oldExc f (Exc.bits_apart hk).2.1

theorem enabled_summarize (x : Exc) (fx : Bool) (oldExc : BitVec 5) (f : BitVec 32) :
    x.enabled (summarize fx oldExc f) = x.enabled f :=
  Exc.enabled_congr (fun _ hk => getLsbD_summarize fx oldExc f (by unfold fpscrVx; omega)) x

/-- The part of the summary that does not depend on `fx`. -/
theorem getLsbD_vx_summarize (fx : Bool) (oldExc : BitVec 5) (f : BitVec 32) :
    (summarize fx oldExc f).getLsbD fpscrVx = Exc.invalid.isSet f := by
  unfold summarize
  rw [invalid_isSet]
  dsimp only
  split_ifs
  · rw [getLsbD_setBit _ _ _ _ (by decide), if_neg (by decide), getLsbD_setBit _ _ _ _ (by decide),
      if_neg (by decide), getLsbD_setBit _ _ _ _ (by decide), if_pos rfl]
  · rw [getLsbD_setBit _ _ _ _ (by decide), if_neg (by decide), getLsbD_setBit _ _ _ _ (by decide),
      if_pos rfl]

theorem summarized_summarize (fx : Bool) (oldExc : BitVec 5) (f : BitVec 32) :
    Summarized (summarize fx oldExc f) := by
  refine ⟨?_, ?_⟩
  · rw [getLsbD_vx_summarize, isSet_summarize]
  · rw [fex_iff]
    simp only [enabled_summarize, isSet_summarize]

theorem summarized_zero : Summarized 0 := by
  refine ⟨by decide, ⟨fun h => absurd h (by decide), ?_⟩⟩
  rintro ⟨x, -, hx⟩
  rw [Exc.isSet_zero] at hx
  cases hx

theorem Exc.place_lt (x : Exc) : x.place < 5 := by
  cases x <;> decide

theorem Exc.exists_place {k : Nat} (hk : k < 5) : ∃ x : Exc, x.place = k := by
  interval_cases k
  exacts [⟨.inexact, rfl⟩, ⟨.zeroDivide, rfl⟩, ⟨.underflow, rfl⟩, ⟨.overflow, rfl⟩, ⟨.invalid, rfl⟩]

/-- VX to XX show the exceptions. -/
theorem getLsbD_place (x : Exc) (b : Bool) :
    (setBit (setBit f fpscrVx (Exc.invalid.isSet f)) fpscrFex b).getLsbD (fpscrXx + x.place) =
      x.isSet f := by
  cases x <;> simp only [Exc.place, fpscrXx, fpscrFex, fpscrVx] <;>
    rw [getLsbD_setBit _ _ _ _ (by decide), if_neg (by decide), getLsbD_setBit _ _ _ _ (by decide)]
  case invalid => simp
  all_goals
    rw [if_neg (by decide)]
    simp [Exc.isSet, Exc.bits, fpscrOx, fpscrUx, fpscrZx, fpscrXx]

/-- FX is set by an exception that VX to XX did not show before, and is never taken back. -/
theorem fx_summarize : (summarize fx oldExc f).getLsbD fpscrFx = true ↔
    f.getLsbD fpscrFx = true ∨
      (fx = true ∧ ∃ x : Exc, x.isSet f = true ∧ oldExc.getLsbD x.place = false) := by
  unfold summarize
  rw [invalid_isSet]
  extract_lets f1 f2
  have hkeep : f2.getLsbD fpscrFx = f.getLsbD fpscrFx := by
    unfold f2 f1
    rw [getLsbD_setBit _ _ _ _ (by decide), if_neg (by decide), getLsbD_setBit _ _ _ _ (by decide),
      if_neg (by decide)]
  have hnew : (f2.extractLsb' fpscrXx 5 &&& ~~~oldExc != 0) = true ↔
      ∃ x : Exc, x.isSet f = true ∧ oldExc.getLsbD x.place = false := by
    rw [bne_zero_iff]
    constructor
    · rintro ⟨k, hk, h⟩
      obtain ⟨x, rfl⟩ := Exc.exists_place hk
      rw [BitVec.getLsbD_and, BitVec.getLsbD_extractLsb', getLsbD_place, BitVec.getLsbD_not] at h
      exact ⟨x, by simpa [hk] using h⟩
    · rintro ⟨x, hx, hold⟩
      refine ⟨x.place, x.place_lt, ?_⟩
      rw [BitVec.getLsbD_and, BitVec.getLsbD_extractLsb', getLsbD_place,
        BitVec.getLsbD_not, hx, hold]
      simp [x.place_lt]
  cases fx with
  | false => simp [hkeep]
  | true =>
      rw [Bool.true_and]
      split_ifs with hne
      · rw [getLsbD_setBit _ _ _ _ (by decide), if_pos rfl]
        simp [hnew.mp hne]
      · rw [hnew] at hne
        simp [hkeep, hne]

/-- An FPSCR that sums up its bits stays as it is if it has no new exception. -/
theorem Summarized.summarize_eq (h : Summarized f)
    (hold : fx = true → ∀ x : Exc, oldExc.getLsbD x.place = x.isSet f) :
    summarize fx oldExc f = f := by
  apply BitVec.eq_of_getLsbD_eq
  intro k hk
  by_cases hlow : k < fpscrVx
  · exact getLsbD_summarize _ _ _ hlow
  · obtain rfl | rfl | rfl : k = fpscrVx ∨ k = fpscrFex ∨ k = fpscrFx := by
      unfold fpscrVx fpscrFex fpscrFx at *
      omega
    · rw [getLsbD_vx_summarize, h.vx]
    · rw [Bool.eq_iff_iff, fex_iff, h.fex]
    · rw [Bool.eq_iff_iff, fx_summarize, or_iff_left]
      rintro ⟨hfx, x, hx, hno⟩
      rw [hold hfx, hx] at hno
      cases hno

/-- The bits below VX decide whether an FPSCR is summed up. -/
theorem Summarized.congr {f' : BitVec 32} (h : Summarized f)
    (heq : ∀ k, ¬InFprf k → f'.getLsbD k = f.getLsbD k) : Summarized f' := by
  have hset : ∀ x : Exc, x.isSet f' = x.isSet f := by
    exact fun x => Exc.isSet_congr fun k hk => heq k (Exc.bits_apart hk).2.2.1
  have hen : ∀ x : Exc, x.enabled f' = x.enabled f := fun x =>
    Exc.enabled_congr (fun k hk => heq k (by unfold InFprf fpscrFu; omega)) x
  refine ⟨?_, ?_⟩
  · rw [heq _ (by unfold InFprf; decide), h.vx, hset]
  · rw [heq _ (by unfold InFprf; decide), h.fex]
    simp only [hset, hen]

end Summary

/-! ## What a state does -/

/-- The instructions that assign exception bits as they are told. -/
def assigns : State → Bool
  | .doMcrfs | .doMtfsb | .doMtfsfi | .doMtfsf => true
  | _ => false

theorem eq_of_assigns {s : State} (h : assigns s = true) :
    s = .doMcrfs ∨ s = .doMtfsb ∨ s = .doMtfsfi ∨ s = .doMtfsf := by
  cases s <;> first | exact Bool.noConfusion h | decide

/-- The states that leave the exception bits alone. -/
def calm (s : State) : Bool :=
  !computes s && !assigns s && s != .idle && s != .doFcmp

/-- What a state of the machine assigns, whichever state the registers are in. -/
def branch (s : State) (r : Reg) (e : Execute1ToFPU) (done : Bool) (c : Ctl) : Ctl :=
  states { r with state := s } e done c

section States

variable {r : Reg} {e : Execute1ToFPU} {done : Bool} {c : Ctl}

theorem states_eq {s : State} (hs : r.state = s) : states r e done c = branch s r e done c := by
  subst hs
  rfl

theorem grows_ite {f g h : BitVec 32} {p : Prop} [Decidable p] (hg : Grows f g) (hh : Grows f h) :
    Grows f (if p then g else h) := by
  split_ifs
  · exact hg
  · exact hh

/-- The FPSCR that `ROUNDING` leaves. -/
theorem rounding_fpscr (r : Reg) (c : Ctl) : ∃ round, (rounding r c).fpscr =
    if losesBits r && r.tiny then
      setBit (if losesBits r then setBit (setRound c.fpscr round) fpscrXx true
        else setRound c.fpscr round) fpscrUx true
    else if losesBits r then setBit (setRound c.fpscr round) fpscrXx true
    else setRound c.fpscr round := by
  refine ⟨fpRounding r.r r.x r.i.singlePrec r.i.roundMode r.resultSign, ?_⟩
  unfold rounding losesBits
  dsimp only
  split_ifs <;> simp_all

/-- A state that computes clears no exception bit. -/
theorem computes_grows (e : Execute1ToFPU) (done : Bool) (c : Ctl) (h : computes r.state = true) :
    Grows c.fpscr (states r e done c).fpscr := by
  cases hm : marks r.state with
  | false =>
      rw [(states_unmarked e done c h hm).1]
      exact Grows.refl _
  | true =>
      have hf := Grows.refl c.fpscr
      have hall : ∀ s, marks s = true → Grows c.fpscr (branch s r e done c).fpscr := by
        intro s hm
        cases s <;> (try exact Bool.noConfusion hm)
        case intRound => exact hf.setRound _
        case intFinal =>
          change Grows _ (intFinal _ c).fpscr
          unfold intFinal
          split_ifs
          exacts [hf, hf.mark _, hf]
        case intCheck =>
          change Grows _ (intCheck _ c).fpscr
          rw [intCheck_eq]
          dsimp only
          split_ifs
          exacts [hf.mark _, hf.mark _, hf]
        case intOflow => exact hf.mark _
        case roundUflow =>
          change Grows _ (roundUflow _ c).fpscr
          unfold roundUflow
          dsimp only
          split_ifs
          exacts [hf, hf.mark _, hf.mark _]
        case roundOflow =>
          change Grows _ (roundOflow _ c).fpscr
          unfold roundOflow
          dsimp only
          split_ifs
          exacts [((hf.mark _).mark _).mark _, hf.mark _]
        case rounding =>
          obtain ⟨round, heq⟩ := rounding_fpscr { r with state := .rounding } c
          change Grows _ (rounding { r with state := .rounding } c).fpscr
          rw [heq]
          have hround := hf.setRound round
          exact grows_ite ((grows_ite (hround.mark _) hround).mark _)
            (grows_ite (hround.mark _) hround)
      exact hall _ hm

/-- What the first cycle of a comparison does. -/
structure Compares (c c' : Ctl) : Prop where
  grows : Grows c.fpscr c'.fpscr
  updateFx : c'.updateFx = true
  goes : c'.state = .cmp1 ∨ c'.instrDone = true

theorem doFcmp_compares : Compares c (doFcmp r c) := by
  have hf := Grows.refl c.fpscr
  have hsnan := hf.mark fpscrVxsnan
  unfold doFcmp
  extract_lets c₀ snan c₁
  have hmarks : Grows c.fpscr c₁.fpscr ∧ c₁.updateFx = true := by
    unfold c₁
    split_ifs
    exacts [⟨hsnan.mark _, rfl⟩, ⟨hsnan, rfl⟩, ⟨hf.mark _, rfl⟩, ⟨hf, rfl⟩, ⟨hf, rfl⟩]
  -- with the mantissas to compare, then without
  split_ifs
  · exact ⟨hmarks.1, hmarks.2, Or.inl rfl⟩
  · exact ⟨hmarks.1, hmarks.2, Or.inr rfl⟩

/-- What a calm state does. -/
structure Calm (c c' : Ctl) : Prop where
  state : calm c'.state = true
  high : ∀ k, 8 ≤ k → k < 32 → c'.fpscr.getLsbD k = c.fpscr.getLsbD k

theorem doMffs_high {k : Nat} (hk : 8 ≤ k) (hlt : k < 32) :
    (doMffs r c).fpscr.getLsbD k = c.fpscr.getLsbD k := by
  have hout : ∀ {n : Nat} (at' : Nat) (x : BitVec n), at' + n ≤ 8 →
      (setBits c.fpscr at' x).getLsbD k = c.fpscr.getLsbD k := by
    intro n at' x hle
    rw [getLsbD_setBits _ _ _ _ hlt, if_neg (by omega)]
  unfold doMffs
  split <;> first | rfl | exact hout _ _ (by decide)

theorem Calm.of_eq {c' : Ctl} (hs : calm c'.state = true) (hf : c'.fpscr = c.fpscr) : Calm c c' :=
  ⟨hs, fun _ _ _ => by rw [hf]⟩

theorem Calm.ite {p : Prop} [Decidable p] {c₁ c₂ : Ctl} (h₁ : Calm c c₁) (h₂ : Calm c c₂) :
    Calm c (if p then c₁ else c₂) := by
  split_ifs
  · exact h₁
  · exact h₂

theorem calm_ite {p : Prop} [Decidable p] {s₁ s₂ : State} (h₁ : calm s₁ = true)
    (h₂ : calm s₂ = true) :
    calm (if p then s₁ else s₂) = true := by
  split_ifs
  · exact h₁
  · exact h₂

theorem calm_states (hc : c.state = r.state) (h : calm r.state = true) :
    Calm c (states r e done c) := by
  have hsame : calm c.state = true := hc ▸ h
  have hmffs : Calm c (doMffs r c) := by
    refine ⟨?_, fun k hk hlt => doMffs_high hk hlt⟩
    have hstate : (doMffs r c).state = c.state := by
      unfold doMffs
      split <;> rfl
    rw [hstate, hsame]
  have hall : ∀ s, calm s = true → Calm c (branch s r e done c) := by
    intro s h
    cases s <;> (try exact Bool.noConfusion h)
    case doMffs => exact hmffs
    case doFsel =>
      change Calm c (doFsel _ c)
      unfold doFsel
      extract_lets c₀ c₁
      have hsel : c₁.state = c.state ∧ c₁.fpscr = c.fpscr := by
        unfold c₁
        split_ifs <;> exact ⟨rfl, rfl⟩
      exact Calm.of_eq (hsel.1 ▸ hsame) hsel.2
    case idivNr1 =>
      change Calm c (idivNr1 _ c done)
      unfold idivNr1
      extract_lets c₀ c₁
      have hnr : Calm c c₁ := by
        unfold c₁
        split_ifs
        exacts [.of_eq rfl rfl, .of_eq rfl rfl, .of_eq hsame rfl, .of_eq hsame rfl]
      exact Calm.ite ⟨rfl, hnr.high⟩ hnr
    all_goals
      repeat
        first
        | exact Calm.of_eq rfl rfl
        | exact Calm.of_eq hsame rfl
        | refine Calm.ite ?_ ?_
        | exact Calm.of_eq (calm_ite rfl rfl) rfl
  exact hall _ h

end States

/-! ## A cycle -/

/-- The instructions that clear exception bits. -/
def Clears (e : Execute1ToFPU) : Prop := assigns (execState e) = true

/-- `mtfsf`, `mtfsfi` and `mtfsb1` set the bits that they are told to set. -/
def Sets (e : Execute1ToFPU) : Prop :=
  execState e = .doMtfsf ∨ execState e = .doMtfsfi ∨ execState e = .doMtfsb ∧
    e.insn.getLsbD 6 = true

/-- The instruction `e`, which found the FPSCR `f`, is in progress. -/
structure Underway (e : Execute1ToFPU) (f : BitVec 32) (r : Reg) : Prop where
  insn : r.i.insn = e.insn
  execState : r.execState = execState e
  computes : computes r.state = true → computes (Fpu.execState e) = true
  /-- What was there when the instruction came in. -/
  oldExc : ∀ x : Exc, r.oldExc.getLsbD x.place = x.isSet f
  /-- Nothing is left of the instruction before. -/
  taken : r.instrDone = true → outputsSeen r = true
  updateFprf : r.updateFprf = false
  cycle1Ar : r.cycle1Ar = true → Fpu.computes r.state = true
  phase : Fpu.computes r.state = true ∨ (calm r.state = true ∧ Told f r.fpscr) ∨
    (r.state = Fpu.execState e ∧ r.fpscr = f)
  grows : ¬Clears e → Grows f r.fpscr

/-- The instruction `e`, which found the FPSCR `f`, is done. -/
structure Accounted (e : Execute1ToFPU) (f : BitVec 32) (r : Reg) : Prop where
  told : ¬Sets e → Told f r.fpscr
  grows : ¬Clears e → Grows f r.fpscr

section Cycle

variable {r : Reg} {e : Execute1ToFPU} {t : BitVec 19} {m : MultiplyOutput} {i : Execute1ToFPU}
  {f : BitVec 32} {c : Ctl}

/-- The end of a cycle assigns the FPRF or a part of it, FR and the summary bits. -/
theorem nextFpscr_eq (r : Reg) (c : Ctl) :
    ∃ g, nextFpscr r c = summarize (updateFx r c) r.oldExc g ∧
    ∀ k < 32, ¬InFprf k → k ≠ fpscrFr → g.getLsbD k = c.fpscr.getLsbD k := by
  refine ⟨_, rfl, fun k hw hprf hfr => ?_⟩
  unfold InFprf at hprf
  have hcls : (classFpscr r c).getLsbD k = c.fpscr.getLsbD k := by
    unfold classFpscr
    split_ifs
    · rw [getLsbD_setBit _ _ _ _ hw, if_neg hfr]
    · rfl
  have hcc : (setBits (classFpscr r c) fpscrFu (crResult r c)).getLsbD k = c.fpscr.getLsbD k := by
    rw [getLsbD_setBits _ _ _ _ hw, if_neg (by omega), hcls]
  split_ifs
  · rw [getLsbD_setBits _ _ _ _ hw, if_neg hprf, hcc]
  · rw [getLsbD_setBits _ _ _ _ hw, if_neg hprf, hcls]
  · exact hcc
  · exact hcls

/-- The end of a cycle leaves the exception bits alone. -/
theorem exc_nextFpscr {x : Exc} {k : Nat} (hk : k ∈ x.bits) :
    (nextFpscr r c).getLsbD k = c.fpscr.getLsbD k := by
  obtain ⟨g, heq, hg⟩ := nextFpscr_eq r c
  obtain ⟨-, hvx, hprf, hfr, -⟩ := Exc.bits_apart hk
  rw [heq, getLsbD_summarize _ _ _ hvx, hg k (Exc.bits_lt k hk) hprf hfr]

theorem exc_isSet_nextFpscr (x : Exc) : x.isSet (nextFpscr r c) = x.isSet c.fpscr :=
  Exc.isSet_congr fun _ hk => exc_nextFpscr hk

/-- FX stays. -/
theorem fx_nextFpscr (h : c.fpscr.getLsbD fpscrFx = true) :
    (nextFpscr r c).getLsbD fpscrFx = true := by
  obtain ⟨g, heq, hg⟩ := nextFpscr_eq r c
  have hprf : ¬InFprf fpscrFx := by unfold InFprf; decide
  rw [heq, fx_summarize]
  exact Or.inl ((hg _ (by decide) hprf (by decide)).trans h)

/-- A cycle with `update_fx` tells of every exception that was not there at the capture. -/
theorem told_nextFpscr (hold : ∀ x : Exc, r.oldExc.getLsbD x.place = x.isSet f)
    (hfx : updateFx r c = true) : Told f (nextFpscr r c) := by
  intro x hx hset
  obtain ⟨g, heq, -⟩ := nextFpscr_eq r c
  rw [heq, isSet_summarize] at hset
  rw [heq, fx_summarize]
  exact Or.inr ⟨hfx, x, hset, (hold x).trans hx⟩

theorem base_fpscr (h : r.cycle1Ar = false) : (base r i).fpscr = r.fpscr := by
  simp [base, h]

/-- An instruction that computes clears no exception bit. -/
theorem ctl_grows_of_computes (h : computes r.state = true) (done : Bool) :
    Grows r.fpscr (ctl r i done).fpscr := by
  cases hcyc : r.cycle1Ar with
  | false =>
      have hgrow := computes_grows i done (base r i) h
      rw [base_fpscr hcyc] at hgrow
      rwa [ctl_of_not_cycle1Ar hcyc]
  | true =>
      rw [ctl, (specialCases_overrides hcyc).fpscr]
      exact (Grows.refl _).or _

/-- The parts of the control that decide whether an instruction ends. -/
structure Proceeds (r : Reg) (c : Ctl) : Prop where
  state : computes c.state = true
  instrDone : c.instrDone = false

theorem Underway.proceeds (h : Underway e f r) (hs : Fpu.computes r.state = true) (done : Bool) :
    Proceeds r (ctl r i done) := by
  have hkeep : Keeps (base r i) (states r i done (base r i)) :=
    states_keeps rfl hs (by rw [h.execState]; exact h.computes hs)
  have hdone : (base r i).instrDone = false := Computing.seen_of h.taken
  cases hcyc : r.cycle1Ar with
  | false =>
      rw [ctl_of_not_cycle1Ar hcyc]
      exact ⟨hkeep.state, hkeep.instrDone.trans hdone⟩
  | true =>
      have ho := specialCases_overrides (c := states r i done (base r i)) hcyc
      exact ⟨ho.state ▸ hkeep.state, ho.instrDone.trans (hkeep.instrDone.trans hdone)⟩

/-- The special cases are for instructions that compute. -/
theorem Underway.cycle1Ar_eq_false (h : Underway e f r) (hs : Fpu.computes r.state = false) :
    r.cycle1Ar = false := by
  by_contra hc
  rw [h.cycle1Ar (by simpa using hc)] at hs
  cases hs

/-- Where an instruction is after a cycle. -/
def Moves (e : Execute1ToFPU) (f : BitVec 32) (r : Reg) : Prop :=
  (Fpu.computes r.state = true ∧ Fpu.computes (execState e) = true) ∨
    (calm r.state = true ∧ Told f r.fpscr) ∨ (r.state = .idle ∧ (¬Sets e → Told f r.fpscr))

theorem state_rin : (rin r i t m).state =
    if ends r (ctl r i m.valid) then .idle else (ctl r i m.valid).state := rfl

theorem fpscr_rin : (rin r i t m).fpscr = nextFpscr r (ctl r i m.valid) := rfl

theorem Underway.moves_of_computes (h : Underway e f r) (hs : Fpu.computes r.state = true) :
    Moves e f (rin r i t m) := by
  have hp : Proceeds r (ctl r i m.valid) := h.proceeds hs m.valid
  unfold Moves
  rw [state_rin, fpscr_rin]
  cases hends : ends r (ctl r i m.valid) with
  | false => exact Or.inl ⟨hp.state, h.computes hs⟩
  | true =>
      -- it ends as arithmetic instructions do, with `update_fx`
      have hdone : arithDone r (ctl r i m.valid) = true := by
        unfold ends nextInstrDone at hends
        rw [hp.instrDone, Bool.false_or, Bool.and_eq_true] at hends
        exact hends.1
      exact Or.inr (Or.inr ⟨rfl, fun _ => told_nextFpscr h.oldExc (by simp [updateFx, hdone])⟩)

theorem Underway.calm_ctl (h : Underway e f r) (hs : calm r.state = true) (done : Bool) :
    calm (ctl r i done).state = true ∧
      ∀ k, 8 ≤ k → k < 32 → (ctl r i done).fpscr.getLsbD k = r.fpscr.getLsbD k := by
  have hcyc : r.cycle1Ar = false := h.cycle1Ar_eq_false (by simp [calm] at hs; exact hs.1.1.1)
  have hcalm : Calm (base r i) (states r i done (base r i)) := calm_states rfl hs
  rw [← ctl_of_not_cycle1Ar hcyc] at hcalm
  exact ⟨hcalm.state, fun k hk hlt => by rw [hcalm.high k hk hlt, base_fpscr hcyc]⟩

theorem Underway.moves_of_calm (h : Underway e f r) (hs : calm r.state = true)
    (htold : Told f r.fpscr) : Moves e f (rin r i t m) := by
  obtain ⟨hstate, hhigh⟩ := h.calm_ctl (i := i) hs m.valid
  have hnext : Told f (nextFpscr r (ctl r i m.valid)) := by
    intro x hx hset
    have hsame : x.isSet (ctl r i m.valid).fpscr = x.isSet r.fpscr :=
      Exc.isSet_congr fun k hk => hhigh k (Exc.bits_apart hk).1 (Exc.bits_lt k hk)
    rw [exc_isSet_nextFpscr, hsame] at hset
    exact fx_nextFpscr ((hhigh _ (by decide) (by decide)).trans (htold x hx hset))
  unfold Moves
  rw [state_rin, fpscr_rin]
  split_ifs
  · exact Or.inr (Or.inr ⟨rfl, fun _ => hnext⟩)
  · exact Or.inr (Or.inl ⟨hstate, hnext⟩)

/-- A comparison tells of its exceptions in its first cycle. -/
theorem Underway.moves_of_doFcmp (h : Underway e f r) (hs : r.state = .doFcmp) :
    Moves e f (rin r i t m) := by
  have hcyc : r.cycle1Ar = false := h.cycle1Ar_eq_false (by rw [hs]; rfl)
  have hctl : ctl r i m.valid = doFcmp r (base r i) :=
    (ctl_of_not_cycle1Ar hcyc _).trans (states_eq hs)
  obtain ⟨-, hfx, hgo⟩ : Compares (base r i) (doFcmp r (base r i)) := doFcmp_compares
  have hnext : Told f (nextFpscr r (ctl r i m.valid)) := by
    refine told_nextFpscr h.oldExc ?_
    rw [updateFx, hctl, hfx, Bool.true_or]
  unfold Moves
  rw [state_rin, fpscr_rin]
  cases hends : ends r (ctl r i m.valid) with
  | true => exact Or.inr (Or.inr ⟨rfl, fun _ => hnext⟩)
  | false =>
      rcases hgo with hgo | hgo
      · exact Or.inr (Or.inl ⟨by rw [hctl, hgo]; rfl, hnext⟩)
      · rw [ends, nextInstrDone, hctl, hgo, hs] at hends
        cases hends

/-- An instruction that assigns exception bits ends at once. -/
theorem Underway.moves_of_assigns (h : Underway e f r) (hs : assigns r.state = true)
    (hexec : r.state = Fpu.execState e) (hf : r.fpscr = f) : Moves e f (rin r i t m) := by
  have hkind := eq_of_assigns hs
  have hcyc : r.cycle1Ar = false := by
    refine h.cycle1Ar_eq_false ?_
    rcases hkind with hst | hst | hst | hst <;> rw [hst] <;> rfl
  have hidle : r.state ≠ .idle := by
    intro hst
    rw [hst] at hs
    cases hs
  have hctl : ctl r i m.valid = states r i m.valid (base r i) := ctl_of_not_cycle1Ar hcyc _
  have hdone : (ctl r i m.valid).instrDone = true := by
    rw [hctl]
    rcases hkind with hst | hst | hst | hst <;> rw [states_eq hst] <;> rfl
  have hends : ends r (ctl r i m.valid) = true := by simp [ends, nextInstrDone, hdone, hidle]
  have hset : ¬Sets e → ∀ x : Exc, ∀ k ∈ x.bits, (ctl r i m.valid).fpscr.getLsbD k = true →
      f.getLsbD k = true := by
    intro hno x k hk hbit
    rw [hctl] at hbit
    rcases hkind with hst | hst | hst | hst
    · rw [states_eq hst] at hbit
      change (r.fpscr &&& _).getLsbD k = true at hbit
      rw [BitVec.getLsbD_and, Bool.and_eq_true] at hbit
      rw [← hf]
      exact hbit.1
    · have hzero : r.i.insn.getLsbD 6 = false := by
        by_contra hone
        refine hno (Or.inr (Or.inr ⟨hexec ▸ hst, ?_⟩))
        rw [← h.insn]
        simpa using hone
      rw [states_eq hst] at hbit
      change (setBit (base r i).fpscr _ (r.i.insn.getLsbD 6)).getLsbD k = true at hbit
      rw [hzero, getLsbD_setBit _ _ _ _ (Exc.bits_lt k hk), base_fpscr hcyc, hf] at hbit
      split_ifs at hbit
      exact hbit
    · exact absurd (Or.inr (Or.inl (hexec ▸ hst))) hno
    · exact absurd (Or.inl (hexec ▸ hst)) hno
  unfold Moves
  rw [state_rin, fpscr_rin, hends]
  refine Or.inr (Or.inr ⟨rfl, fun hno x hx hnew => ?_⟩)
  rw [exc_isSet_nextFpscr] at hnew
  obtain ⟨k, hk, hbit⟩ := List.any_eq_true.mp hnew
  have hold : x.isSet f = true := List.any_eq_true.mpr ⟨k, hk, hset hno x k hk hbit⟩
  exact absurd (hold.symm.trans hx) Bool.true_eq_false.mp

theorem state_kinds {s : State} (hs : s ≠ .idle) :
    computes s = true ∨ calm s = true ∨ assigns s = true ∨ s = .doFcmp := by
  cases s <;> first | exact absurd rfl hs | decide

theorem Underway.moves (h : Underway e f r) (hs : r.state ≠ .idle) : Moves e f (rin r i t m) := by
  rcases h.phase with hcomp | ⟨hcalm, htold⟩ | ⟨hexec, hf⟩
  · exact h.moves_of_computes hcomp
  · exact h.moves_of_calm hcalm htold
  · rcases state_kinds hs with hcomp | hcalm | hassign | hfcmp
    · exact h.moves_of_computes hcomp
    · exact h.moves_of_calm hcalm (hf ▸ told_refl f)
    · exact h.moves_of_assigns hassign hexec hf
    · exact h.moves_of_doFcmp hfcmp

theorem Underway.grows_next (h : Underway e f r) (hs : r.state ≠ .idle) (hno : ¬Clears e) :
    Grows f (rin r i t m).fpscr := by
  refine (h.grows hno).trans (Grows.trans ?_ (Grows.of_eq fun _ _ hk => exc_nextFpscr hk))
  rcases state_kinds hs with hcomp | hcalm | hassign | hfcmp
  · exact ctl_grows_of_computes hcomp m.valid
  · have hhigh := (h.calm_ctl (i := i) hcalm m.valid).2
    exact Grows.of_eq fun x k hk => hhigh k (Exc.bits_apart hk).1 (Exc.bits_lt k hk)
  · exfalso
    rcases h.phase with hcomp | ⟨hcalm, -⟩ | ⟨hexec, -⟩
    · rcases eq_of_assigns hassign with hst | hst | hst | hst <;> rw [hst] at hcomp <;> cases hcomp
    · simp [calm, hassign] at hcalm
    · exact hno (show assigns (Fpu.execState e) = true from hexec ▸ hassign)
  · have hcyc : r.cycle1Ar = false := h.cycle1Ar_eq_false (by rw [hfcmp]; rfl)
    have hgrow : Grows (base r i).fpscr (doFcmp r (base r i)).fpscr := doFcmp_compares.grows
    rw [base_fpscr hcyc] at hgrow
    rw [ctl_of_not_cycle1Ar hcyc]
    unfold states
    rwa [hfcmp]

/-- After a cycle the instruction is done or goes on. -/
theorem Underway.next (h : Underway e f r) (hs : r.state ≠ .idle) (hv : i.valid = false) :
    ((rin r i t m).state = .idle → Accounted e f (rin r i t m)) ∧
      ((rin r i t m).state ≠ .idle → Underway e f (rin r i t m)) := by
  have hmoves : Moves e f (rin r i t m) := h.moves hs
  refine ⟨fun hidle => ⟨fun hno => ?_, h.grows_next hs⟩, fun hgo => ?_⟩
  · rcases hmoves with ⟨hcomp, -⟩ | ⟨hcalm, -⟩ | ⟨-, htold⟩
    · rw [hidle] at hcomp
      cases hcomp
    · rw [hidle] at hcalm
      cases hcalm
    · exact htold hno
  · have hends : ends r (ctl r i m.valid) = false := by
      by_contra hends
      exact hgo (by rw [state_rin, if_pos (by simpa using hends)])
    have hopen : nextInstrDone r (ctl r i m.valid) = false := by
      simpa [ends, hs] using hends
    have hquiet : arithDone r (ctl r i m.valid) = false := by
      unfold nextInstrDone at hopen
      rw [Bool.or_eq_false_iff] at hopen
      exact hopen.2
    refine ⟨?_, ?_, fun hcomp => ?_, ?_, ?_, ?_, ?_, ?_, h.grows_next hs⟩
    · simpa [rin, rinOf, hv] using h.insn
    · simpa [rin, rinOf, accepts, hv] using h.execState
    · rcases hmoves with ⟨-, hexec⟩ | ⟨hcalm, -⟩ | ⟨hidle, -⟩
      · exact hexec
      · simp [calm, hcomp] at hcalm
      · exact absurd hidle hgo
    · simpa [rin, rinOf, hs] using h.oldExc
    · simp [rin, rinOf, hopen]
    · simp [rin, rinOf, delivers, hquiet]
    · simp [rin, rinOf, hv]
    · rcases hmoves with ⟨hcomp, -⟩ | hcalm | ⟨hidle, -⟩
      · exact Or.inl hcomp
      · exact Or.inr (Or.inl hcalm)
      · exact absurd hidle hgo

end Cycle

/-! ## The moves -/

/-- The FPSCR, with the FPRF of the last result, which goes in a cycle later. -/
def Reg.settled (r : Reg) : BitVec 32 :=
  if r.updateFprf then
    setBits r.fpscr fpscrFu (resultFlags r.resSign r.resultClass (r.r.getLsbD unitBit && !r.denorm))
  else r.fpscr

section Moves

variable {r : Reg} {e i : Execute1ToFPU} {t : BitVec 19} {m : MultiplyOutput} {f : BitVec 32}

theorem settled_apart {k : Nat} (hk : k < 32) (hprf : ¬InFprf k) :
    r.settled.getLsbD k = r.fpscr.getLsbD k := by
  unfold Reg.settled
  split_ifs
  · rw [getLsbD_setBits _ _ _ _ hk]
    exact if_neg hprf
  · rfl

theorem isSet_settled (x : Exc) : x.isSet r.settled = x.isSet r.fpscr :=
  Exc.isSet_congr fun k hk => settled_apart (Exc.bits_lt k hk) (Exc.bits_apart hk).2.2.1

theorem Summarized.settled (h : Summarized r.fpscr) : Summarized r.settled := by
  refine h.congr fun k hprf => ?_
  by_cases hk : k < 32
  · exact settled_apart hk hprf
  · rw [BitVec.getLsbD_of_ge _ _ (by omega), BitVec.getLsbD_of_ge _ _ (by omega)]

/-- `fmr` and the instructions that go with it, and `fmrgew` and `fmrgow`, end at once and leave the
FPSCR as it is. -/
theorem Underway.moved (h : Underway e f r) (hsum : Summarized f) (hf : r.fpscr = f)
    (hs : r.state = .doFmr ∨ r.state = .doFmrg) :
    (rin r i t m).state = .idle ∧ (rin r i t m).settled = f := by
  have hcyc : r.cycle1Ar = false :=
    h.cycle1Ar_eq_false (by rcases hs with hs | hs <;> rw [hs] <;> rfl)
  have hbase : (base r i).fpscr = f := (base_fpscr hcyc).trans hf
  have hctl : ∃ c, ctl r i m.valid = c ∧ c.fpscr = f ∧ c.instrDone = true ∧ c.setFpcc = false ∧
      c.updateFx = false ∧ c.arithDone = false ∧ c.rclsOp ≠ .tzero ∧ c.rclsOp ≠ .tinf := by
    refine ⟨_, rfl, ?_⟩
    rw [ctl_of_not_cycle1Ar hcyc]
    rcases hs with hs | hs <;> rw [states_eq hs]
    · exact ⟨hbase, rfl, rfl, rfl, rfl, by rintro ⟨⟩, by rintro ⟨⟩⟩
    · exact ⟨hbase, rfl, rfl, rfl, rfl, by rintro ⟨⟩, by rintro ⟨⟩⟩
  obtain ⟨c, hc, hfpscr, hdone, hcc, hfx, harith, htzero, htinf⟩ := hctl
  have hidle : r.state ≠ .idle := by
    rcases hs with hs | hs <;> rw [hs] <;> decide
  have hquiet : arithDone r c = false := by simp [arithDone, harith, htzero]
  have hfp : nextFpscr r c = f := by
    unfold nextFpscr classFpscr updateFx
    rw [hcc, hfx, hquiet, h.updateFprf, hfpscr]
    have hsame : summarize false r.oldExc f = f := hsum.summarize_eq fun h => Bool.noConfusion h
    simpa [htinf] using hsame
  refine ⟨?_, ?_⟩
  · rw [state_rin, hc]
    simp [ends, nextInstrDone, hdone, hidle]
  · have hprf : (rin r i t m).updateFprf = false := by simp [rin, rinOf, hc, delivers, hquiet]
    rw [Reg.settled, hprf, fpscr_rin, hc, hfp]
    rfl

/-- `fsel` ends as arithmetic instructions do: only the FPRF can change. -/
theorem Underway.selected (h : Underway e f r) (hsum : Summarized f) (hf : r.fpscr = f)
    (hs : r.state = .doFsel) : (rin r i t m).state = .idle ∧ (rin r i t m).fpscr = f := by
  have hcyc : r.cycle1Ar = false := h.cycle1Ar_eq_false (by rw [hs]; rfl)
  have hctl : ctl r i m.valid = doFsel r (base r i) :=
    (ctl_of_not_cycle1Ar hcyc _).trans (states_eq hs)
  have hbase : (base r i).fpscr = f := (base_fpscr hcyc).trans hf
  have hparts : (doFsel r (base r i)).fpscr = f ∧ (doFsel r (base r i)).setFpcc = false ∧
      (doFsel r (base r i)).arithDone = true ∧ (doFsel r (base r i)).rclsOp = .sel := by
    unfold doFsel
    dsimp only
    split_ifs <;> exact ⟨hbase, rfl, rfl, rfl⟩
  obtain ⟨hfpscr, hcc, hdone, hcls⟩ := hparts
  refine ⟨?_, ?_⟩
  · rw [state_rin, hctl]
    simp [ends, nextInstrDone, arithDone, hdone, hs]
  · rw [fpscr_rin, hctl]
    unfold nextFpscr classFpscr
    rw [hcc, h.updateFprf, hfpscr, hcls]
    simpa using hsum.summarize_eq fun _ => h.oldExc

/-- The capture of an instruction. -/
theorem Ready.underway (hr : Ready r) (hsum : Summarized r.fpscr) (hv : i.valid = true)
    (hstall : i.stall = false) (hlegal : Fpu.execState i ≠ .doIllegal) :
    Underway i r.settled (rin r i t m) ∧ (rin r i t m).fpscr = r.settled ∧
      (Fpu.computes (rin r i t m).state = true ∧ isArith i = true ∨
        (rin r i t m).state = Fpu.execState i) := by
  have hctl := ctl_idle (e := i) hr m.valid
  have hends : ends r (ctl r i m.valid) = false := by simp [ends, hr.state]
  have hquiet : arithDone r (ctl r i m.valid) = false := by
    rw [hctl]
    rfl
  have hdone : nextInstrDone r (ctl r i m.valid) = (rin r i t m).instrDone := rfl
  have hfpscr : (rin r i t m).fpscr = r.settled := by
    rw [fpscr_rin, hr.nextFpscr]
    exact hsum.settled.summarize_eq fun h => Bool.noConfusion h
  have hstate : (rin r i t m).state =
      if isNanInf i || isZeroDen i then .doSpecial else Fpu.execState i := by
    rw [state_rin, hends, hctl]
    simp [idle, hv]
  have harith : isArith i = true → Fpu.computes (Fpu.execState i) = true := by
    intro ha
    exact IsArith.computes ⟨hv, by simpa [isArith] using ha, hlegal⟩
  have hkind : Fpu.computes (rin r i t m).state = true ∧ isArith i = true ∨
      (rin r i t m).state = Fpu.execState i := by
    rw [hstate]
    split_ifs with hspecial
    · left
      refine ⟨rfl, ?_⟩
      unfold isNanInf isZeroDen at hspecial
      rw [← Bool.and_or_distrib_left, Bool.and_eq_true] at hspecial
      exact hspecial.1
    · exact Or.inr rfl
  have hold : ∀ x : Exc, (rin r i t m).oldExc.getLsbD x.place = x.isSet r.settled := by
    intro x
    have hbit : r.fpscr.getLsbD (fpscrXx + x.place) = x.isSet r.fpscr := by
      cases x
      case invalid => exact hsum.vx
      all_goals simp [Exc.place, Exc.isSet, Exc.bits, fpscrXx, fpscrOx, fpscrUx, fpscrZx]
    have hexc : (rin r i t m).oldExc = r.fpscr.extractLsb' fpscrXx 5 := by
      simp [rin, rinOf, hr.state]
    rw [hexc, isSet_settled, BitVec.getLsbD_extractLsb', hbit]
    simp [x.place_lt]
  refine ⟨⟨?_, ?_, fun hcomp => ?_, hold, ?_, ?_, fun hcyc => ?_, ?_, fun _ => ?_⟩, hfpscr, hkind⟩
  · simp [rin, rinOf, hv, captured]
  · simp [rin, rinOf, accepts, hr.state, hv]
  · rcases hkind with ⟨-, ha⟩ | hexec
    · exact harith ha
    · rwa [← hexec]
  · intro h
    rw [outputsSeen_rin, hdone, h, hstall]
    rfl
  · simp [rin, rinOf, delivers, hquiet]
  · rcases hkind with ⟨hcomp, -⟩ | hexec
    · exact hcomp
    · rw [hexec]
      refine harith ?_
      simpa [rin, rinOf, hv] using hcyc
  · rcases hkind with ⟨hcomp, -⟩ | hexec
    · exact Or.inl hcomp
    · exact Or.inr (Or.inr ⟨hexec, hfpscr⟩)
  · rw [hfpscr]
    exact Grows.refl _

end Moves

/-! ## Every state sums up its bits -/

/-- The FPSCR and the committed one sum up their bits. -/
structure Consistent (r : Reg) : Prop where
  fpscr : Summarized r.fpscr
  commFpscr : Summarized r.commFpscr

theorem Consistent.step {lut : BitVec 10 → BitVec 18} {u : Machine} {j : Inputs}
    (h : Consistent u.reg) : Consistent (u.step lut j).reg := by
  unfold Machine.step
  dsimp only
  split_ifs
  · constructor
    · simp only [flushed]
      split_ifs
      · exact summarized_zero
      · exact h.commFpscr
      · exact summarized_zero
    · simp only [flushed]
      split_ifs
      · exact summarized_zero
      · exact h.commFpscr
  · constructor
    · exact summarized_summarize _ _ _
    · simp only [rin, rinOf]
      split_ifs
      · exact h.fpscr
      · exact h.commFpscr

theorem consistent_reset {lut : BitVec 10 → BitVec 18} {u : Machine} {j : Inputs}
    (h : j.rst = true) : Consistent (u.step lut j).reg := by
  unfold Machine.step
  rw [if_pos (by rw [h, Bool.true_or])]
  simp only [flushed, h, if_true]
  exact ⟨summarized_zero, summarized_zero⟩

/-! ## Runs -/

section Runs

variable (lut : BitVec 10 → BitVec 18) (u : Machine) (ins : Nat → Inputs)

/-- Execute1 sends an instruction when the unit is not busy and nothing stalls, and not right after
a reset or a flush, which empties decode2. -/
structure Fed : Prop where
  valid : ∀ n, (ins n).eIn.valid = true → (regs lut u ins n).busy = false ∧
    (ins n).eIn.stall = false
  after : ∀ n, (ins (n + 1)).eIn.valid = true → (ins n).rst = false ∧ (ins n).flushIn = false

/-- The instruction of edge `n` is in progress until edge `m`, with no reset or flush. -/
structure Executes (n m : Nat) : Prop where
  lt : n < m
  start : (regs lut u ins n).state = .idle
  valid : (ins n).eIn.valid = true
  legal : execState (ins n).eIn ≠ .doIllegal
  undisturbed : ∀ k, n ≤ k → k < m → (ins k).rst = false ∧ (ins k).flushIn = false
  state : ∀ k, n < k → k < m → (regs lut u ins k).state ≠ .idle
  done : (regs lut u ins m).state = .idle

variable {lut u ins}

variable (lut u) in
theorem regs_succ_of {n : Nat} (hrst : (ins n).rst = false) (hflush : (ins n).flushIn = false) :
    ∃ est mul, regs lut u ins (n + 1) = rin (regs lut u ins n) (ins n).eIn est mul := by
  refine ⟨(Clocked.trace (Machine.step lut) u ins n).inverseEst,
    (Clocked.trace (Machine.step lut) u ins n).multiply.out, ?_⟩
  unfold regs
  rw [Clocked.trace, Machine.step]
  simp only [hrst, hflush, Bool.or_self, Bool.false_eq_true, if_false]

/-- From a reset on, the unit is busy with an instruction and its FPSCR is summed up. -/
structure Kept (r : Reg) : Prop where
  busy : r.state ≠ .idle → r.busy = true
  consistent : Consistent r

theorem states_idle {r : Reg} {i : Execute1ToFPU} (done : Bool) (hs : r.state = .idle) :
    (ctl r i done).state =
      if i.valid then if isNanInf i || isZeroDen i then .doSpecial else execState i else .idle := by
  have hstates : (states r i done (base r i)).state =
      if i.valid then if isNanInf i || isZeroDen i then .doSpecial else execState i else .idle := by
    unfold states
    rw [hs]
    simp [idle, base, hs]
  cases hcyc : r.cycle1Ar with
  | false => rw [ctl_of_not_cycle1Ar hcyc, hstates]
  | true => rw [ctl, (specialCases_overrides hcyc).state, hstates]

theorem busy_rin {r : Reg} {i : Execute1ToFPU} {t : BitVec 19} {m : MultiplyOutput}
    (h : r.state ≠ .idle → r.busy = true) :
    (rin r i t m).state ≠ .idle → (rin r i t m).busy = true := by
  rw [state_rin]
  intro hgo
  have hends : ends r (ctl r i m.valid) = false := by
    by_contra hends
    simp [hends] at hgo
  have hin : accepts r i = true ∨ r.busy = true := by
    by_cases hs : r.state = .idle
    · left
      rw [hends, states_idle m.valid hs] at hgo
      by_contra hno
      simp [accepts, hs] at hno
      simp [hno] at hgo
    · exact Or.inr (h hs)
  rcases hin with hin | hin <;> simp [rin, rinOf, hends, hin]

variable (lut u) in
theorem kept_trace (hrst : (ins 0).rst = true) (n : Nat) : Kept (regs lut u ins (n + 1)) := by
  have hreset : ∀ k, ((ins k).rst || (ins k).flushIn) = true →
      (regs lut u ins (k + 1)).state = .idle := by
    intro k hk
    unfold regs
    rw [Clocked.trace, Machine.step, if_pos hk]
    rfl
  induction n with
  | zero => exact ⟨fun hs => absurd (hreset 0 (by simp [hrst])) hs, consistent_reset hrst⟩
  | succ n ih =>
      refine ⟨?_, ih.consistent.step⟩
      cases hdist : (ins (n + 1)).rst || (ins (n + 1)).flushIn with
      | true => exact fun hs => absurd (hreset (n + 1) hdist) hs
      | false =>
          rw [Bool.or_eq_false_iff] at hdist
          obtain ⟨est, mul, hnext⟩ := regs_succ_of lut u hdist.1 hdist.2
          rw [hnext]
          exact busy_rin ih.busy

theorem execState_ne_idle (e : Execute1ToFPU) : execState e ≠ .idle := by
  have harith : ∀ b : BitVec 5, arithDecode b ≠ .idle := by decide
  have hcmp : ∀ b : BitVec 3, cmpDecode b ≠ .idle := by decide
  have hmisc : ∀ b : BitVec 5, miscDecode b ≠ .idle := by decide
  unfold execState
  split
  · exact harith _
  · exact hcmp _
  · exact hmisc _
  · split_ifs <;> decide
  all_goals decide

/-- An instruction finds the unit ready. -/
theorem Fed.ready (h : Fed lut u ins) (hrst : (ins 0).rst = true) {n : Nat}
    (hs : (regs lut u ins (n + 1)).state = .idle) (hv : (ins (n + 1)).eIn.valid = true) :
    Ready (regs lut u ins (n + 1)) := by
  refine ⟨hs, ?_⟩
  obtain ⟨hno, hno'⟩ := h.after n hv
  obtain ⟨est, mul, hnext⟩ := regs_succ_of lut u hno hno'
  by_contra hcyc
  -- then an arithmetic instruction came in with the edge before, and is in progress
  rw [hnext] at hcyc hs
  have hlast : (ins n).eIn.valid = true ∧ isArith (ins n).eIn = true := by
    simpa [rin, rinOf] using hcyc
  have hidle : (regs lut u ins n).state = .idle := by
    cases n with
    | zero => simp [hrst] at hno
    | succ k =>
        by_contra hbusy
        have := (kept_trace lut u hrst k).busy hbusy
        rw [(h.valid (k + 1) hlast.1).1] at this
        cases this
  rw [state_rin, states_idle mul.valid hidle, if_pos hlast.1] at hs
  have hends : ends (regs lut u ins n) (ctl (regs lut u ins n) (ins n).eIn mul.valid) = false := by
    simp [ends, hidle]
  rw [hends, if_neg Bool.false_ne_true] at hs
  split_ifs at hs
  exact execState_ne_idle _ hs

section

variable {n m : Nat}

/-- The first edge of an instruction. -/
theorem Executes.started (he : Executes lut u ins n m) (h : Fed lut u ins)
    (hrst : (ins 0).rst = true) :
    Summarized (regs lut u ins n).settled ∧
      Underway (ins n).eIn (regs lut u ins n).settled (regs lut u ins (n + 1)) ∧
      (regs lut u ins (n + 1)).fpscr = (regs lut u ins n).settled ∧
      (computes (regs lut u ins (n + 1)).state = true ∧ isArith (ins n).eIn = true ∨
        (regs lut u ins (n + 1)).state = execState (ins n).eIn) := by
  obtain ⟨hno, hno'⟩ := he.undisturbed n le_rfl he.lt
  obtain ⟨est, mul, hnext⟩ := regs_succ_of lut u hno hno'
  obtain ⟨k, rfl⟩ : ∃ k, n = k + 1 := by
    cases n with
    | zero => simp [hrst] at hno
    | succ k => exact ⟨k, rfl⟩
  have hready := h.ready hrst he.start he.valid
  have hsum := (kept_trace lut u hrst k).consistent.fpscr
  rw [hnext]
  exact ⟨hsum.settled, hready.underway hsum he.valid (h.valid _ he.valid).2 he.legal⟩

/-- A cycle in which the instruction is in progress. -/
theorem Executes.cycle (he : Executes lut u ins n m) (h : Fed lut u ins) (hrst : (ins 0).rst = true)
    {k : Nat} (hk : n < k) (hkm : k < m) : ∃ est mul,
    regs lut u ins (k + 1) = rin (regs lut u ins k)
      (ins k).eIn est mul ∧ (ins k).eIn.valid = false := by
  obtain ⟨hno, hno'⟩ := he.undisturbed k hk.le hkm
  obtain ⟨est, mul, hnext⟩ := regs_succ_of lut u hno hno'
  refine ⟨est, mul, hnext, ?_⟩
  obtain ⟨l, rfl⟩ : ∃ l, k = l + 1 := ⟨k - 1, by omega⟩
  have hbusy := (kept_trace lut u hrst l).busy (he.state _ hk hkm)
  by_contra hv
  rw [(h.valid (l + 1) (by simpa using hv)).1] at hbusy
  cases hbusy

/-- The instruction is in progress at every edge before the last. -/
theorem Executes.underway (he : Executes lut u ins n m) (h : Fed lut u ins)
    (hrst : (ins 0).rst = true) {k : Nat} (hk : n + 1 ≤ k) (hkm : k < m) :
    Underway (ins n).eIn (regs lut u ins n).settled (regs lut u ins k) := by
  induction k, hk using Nat.le_induction with
  | base => exact (he.started h hrst).2.1
  | succ k hk ih =>
      obtain ⟨est, mul, hnext, hv⟩ := he.cycle h hrst hk (by omega)
      have hgo := he.state (k + 1) (by omega) hkm
      rw [hnext] at hgo ⊢
      exact ((ih (by omega)).next (he.state k hk (by omega)) hv).2 hgo

/-- An instruction does not end with the edge that it comes in with. -/
theorem Executes.lt_succ (he : Executes lut u ins n m) (h : Fed lut u ins)
    (hrst : (ins 0).rst = true) : n + 1 < m := by
  have hne : (regs lut u ins (n + 1)).state ≠ .idle := by
    rcases (he.started h hrst).2.2.2 with ⟨hcomp, -⟩ | hexec
    · intro hidle
      rw [hidle] at hcomp
      cases hcomp
    · rw [hexec]
      exact execState_ne_idle _
  have hlt := he.lt
  have hm : m ≠ n + 1 := fun hm => hne (hm ▸ he.done)
  omega

/-- What an instruction does to the exceptions. -/
theorem Executes.accounted (he : Executes lut u ins n m) (h : Fed lut u ins)
    (hrst : (ins 0).rst = true) :
    Accounted (ins n).eIn (regs lut u ins n).settled (regs lut u ins m) := by
  have hlt := he.lt_succ h hrst
  obtain ⟨k, rfl⟩ : ∃ k, m = k + 1 := ⟨m - 1, by omega⟩
  obtain ⟨est, mul, hnext, hv⟩ := he.cycle h hrst (k := k) (by omega) (by omega)
  have hdone := he.done
  have hgo := (he.underway h hrst (k := k) (by omega) (by omega)).next (t := est) (m := mul)
    (he.state k (by omega) (by omega)) hv
  rw [hnext] at hdone ⊢
  exact hgo.1 hdone

/-- An instruction that is done with its second edge. -/
theorem Executes.single (he : Executes lut u ins n m) (h : Fed lut u ins)
    (hrst : (ins 0).rst = true) (hdone : (regs lut u ins (n + 2)).state = .idle) : m = n + 2 := by
  have hlt := he.lt_succ h hrst
  by_contra hm
  exact he.state (n + 2) (by omega) (by omega) hdone

/-- What an instruction that found the FPSCR `f` may leave in it. -/
structure Books (e : Execute1ToFPU) (f f' : BitVec 32) : Prop where
  /-- `mtfsf`, `mtfsfi` and `mtfsb1` apart, FX tells of a new exception. -/
  fx : ¬Sets e → Told f f'
  /-- `mcrfs`, `mtfsf`, `mtfsfi` and `mtfsb0` apart, no exception bit is cleared. -/
  sticky : ¬Clears e → Grows f f'
  move : execState e = .doFmr ∨ execState e = .doFmrg → f' = f
  fsel : execState e = .doFsel → ∀ k < 32, ¬InFprf k → f'.getLsbD k = f.getLsbD k

theorem Executes.books (he : Executes lut u ins n m) (h : Fed lut u ins)
    (hrst : (ins 0).rst = true) :
    Books (ins n).eIn (regs lut u ins n).settled (regs lut u ins m).settled := by
  have hacc := he.accounted h hrst
  obtain ⟨hsum, hunder, hfpscr, hstate⟩ := he.started h hrst
  obtain ⟨est, mul, hnext, -⟩ := he.cycle h hrst (k := n + 1) (by omega) (he.lt_succ h hrst)
  -- moves do not compute, so that they are in their state from the first edge on
  have hexec : computes (execState (ins n).eIn) = false →
      (regs lut u ins (n + 1)).state = execState (ins n).eIn := by
    intro hno
    rcases hstate with ⟨hcomp, -⟩ | hexec
    · rw [hunder.computes hcomp] at hno
      cases hno
    · exact hexec
  refine ⟨fun hno x hx hset => ?_, fun hno x k hk hbit => ?_, fun hmove => ?_,
    fun hsel k hk hprf => ?_⟩
  · rw [isSet_settled] at hset
    have hprf : ¬InFprf fpscrFx := by unfold InFprf; decide
    rw [settled_apart (by decide) hprf]
    exact hacc.told hno x hx hset
  · rw [settled_apart (Exc.bits_lt k hk) (Exc.bits_apart hk).2.2.1]
    exact hacc.grows hno x k hk hbit
  · have hs := hexec (by rcases hmove with hmove | hmove <;> rw [hmove] <;> rfl)
    rw [← hs] at hmove
    obtain ⟨hidle, hsame⟩ :=
      hunder.moved (i := (ins (n + 1)).eIn) (t := est) (m := mul) hsum hfpscr hmove
    rw [← hnext] at hidle hsame
    rw [he.single h hrst hidle, hsame]
  · have hs := hexec (by rw [hsel]; rfl)
    obtain ⟨hidle, hsame⟩ :=
      hunder.selected (i := (ins (n + 1)).eIn) (t := est) (m := mul) hsum hfpscr (hs.trans hsel)
    rw [← hnext] at hidle hsame
    rw [he.single h hrst hidle, settled_apart hk hprf, hsame]

end

end Runs

/-- From a reset on, VX and FEX sum up the FPSCR in every state; and every instruction that runs
from its capture to its end, whatever came before it, keeps to the books. -/
theorem fpscr_bookkeeping (lut : BitVec 10 → BitVec 18) (u : Machine) (ins : Nat → Inputs)
    (hfed : Fed lut u ins) (hrst : (ins 0).rst = true) :
    (∀ n, Summarized (regs lut u ins (n + 1)).fpscr) ∧
      ∀ n m, Executes lut u ins n m →
        Books (ins n).eIn (regs lut u ins n).settled (regs lut u ins m).settled :=
  ⟨fun n => (kept_trace lut u hrst n).consistent.fpscr, fun _ _ he => he.books hfed hrst⟩

/-- A reset, and an instruction two edges later. -/
def afterReset (e : Execute1ToFPU) (n : Nat) : Inputs :=
  ⟨decide (n = 0), false, if n = 2 then e else .none⟩

theorem fed_afterReset (e : Execute1ToFPU) (hstall : e.stall = false) :
    Fed (fun _ => 0) .cold (afterReset e) := by
  have hvalid : ∀ n, (afterReset e n).eIn.valid = true → n = 2 := by
    intro n hv
    by_contra hn
    simp [afterReset, hn, Execute1ToFPU.none] at hv
  refine ⟨fun n hv => ?_, fun n hv => ?_⟩
  · obtain rfl := hvalid n hv
    have hbefore : regs (fun _ => 0) .cold (afterReset e) 2 =
        regs (fun _ => 0) .cold (afterReset .none) 2 := rfl
    exact ⟨by rw [hbefore]; decide +kernel, hstall⟩
  · obtain rfl : n = 1 := by simpa using hvalid _ hv
    exact ⟨rfl, rfl⟩

/-- The comparison with a signalling NaN. -/
def fcmpoSNaN : Execute1ToFPU := { fcmpo with frb := 0x7ff0000000000001 }

/-- From a reset on it sets VXSNAN and VXVC, with VX and FX, in two cycles. -/
theorem fpscr_bookkeeping_fcmpoSNaN :
    Books fcmpoSNaN (regs (fun _ => 0) .cold (afterReset fcmpoSNaN) 2).settled
        (regs (fun _ => 0) .cold (afterReset fcmpoSNaN) 4).settled ∧
      (regs (fun _ => 0) .cold (afterReset fcmpoSNaN) 2).settled = 0 ∧
      (regs (fun _ => 0) .cold (afterReset fcmpoSNaN) 4).settled = 0xa1081000 := by
  refine ⟨(fpscr_bookkeeping _ _ _ (fed_afterReset fcmpoSNaN rfl) rfl).2 2 4
    ⟨by decide, by decide +kernel, rfl, by decide, fun k hk hk' => ?_, fun k hk hk' => ?_,
      by decide +kernel⟩, by decide +kernel, by decide +kernel⟩
  · obtain rfl | rfl : k = 2 ∨ k = 3 := by omega
    · exact ⟨rfl, rfl⟩
    · exact ⟨rfl, rfl⟩
  · obtain rfl : k = 3 := by omega
    decide +kernel

end Microwatt.Fpu
