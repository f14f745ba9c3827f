import Microwatt.Execute1.Stage2
import Microwatt.Lib.Bits
import Microwatt.Lib.Run

/-!
# The timebase

The timebase counts the cycles in which it is not frozen, and `mtspr` writes its two words.  In the
source it is an incrementer for each word: the carry into the upper word is found a cycle ahead, and
kept in `tb_carry`.  Which word `mtspr` writes goes through `map_spr` of decode1, decode2 and the
write enables in `ex1`.

Here `timebaseNext` says what the timebase should be, from the instruction in the second stage.
-/

namespace Microwatt.Execute1

open Clocked

/-! ## The numbers of the SPRs -/

/-- `map_spr`. -/
def mapSpr (sprn : Nat) : SprId :=
  let i : SprId := ⟨0, true, false, false, false, false⟩
  match sprn with
  -- the timebase: two numbers to read it, two to write it
  | 268 => { i with sel := 1, ronly := true }
  | 269 => { i with sel := 2, ronly := true }
  | 284 => { i with sel := 1, wonly := true }
  | 285 => { i with sel := 1, wonly := true }
  | 22 => { i with sel := 3 }
  | 287 => { i with sel := 4 }
  | 724 => { i with sel := 5 }
  | 725 => { i with sel := 5, ronly := true }
  | 771 | 772 | 773 | 774 | 775 | 776 | 779 | 782 | 769 | 770 | 768 | 780 | 781
  | 787 | 788 | 789 | 790 | 791 | 792 | 795 | 798 | 785 | 786 | 784 | 796 | 797 =>
    { i with ispmu := true }
  | 736 | 737 | 738 | 752 | 753 | 754 => i
  | 28 => { i with sel := 6 }
  | 1 => { i with sel := 15 }
  | 153 => { i with sel := 7 }
  | 318 => { i with sel := 8 }
  | 339 => { i with sel := 9 }
  | 136 => { i with sel := 10, ronly := true }
  | 152 => { i with sel := 10, wonly := true }
  | 3 => { i with sel := 11 }
  | 17 => { i with sel := 11 }
  | 1023 => { i with sel := 12 }
  | 187 => { i with sel := 13 }
  | 828 | 471 => { i with sel := 14 }
  | 812 | 455 => { i with sel := 14, ronly := true }
  | 808 | 809 | 810 | 811 => { i with noop := true }
  | 336 | 337 | 313 => i
  | _ => { i with valid := false }

/-- `spr_select`, as decode2 sets it. -/
def sprSelect (op : InsnOp) (insn : BitVec 32) : SprId :=
  let i := mapSpr (decodeSprNum insn)
  match op with
  | .mfspr => if i.wonly then { i with valid := false } else i
  | .mtspr => if i.ronly then { i with valid := false } else i
  | _ => i

/-- The selection of an SPR comes from the instruction, and only branches decrement CTR. -/
structure SprDecoded (e : Decoded) : Prop where
  select : e.sprSelect = sprSelect e.op e.insn
  decCtr : e.op = .mtspr → e.decCtr = false

/-! ## What the timebase should be -/

/-- The words of the timebase. -/
inductive TbWord where
  | lower
  | upper
deriving DecidableEq

/-- The word that `mtspr` means by a number. -/
def TbWord.ofNum (sprn : Nat) : Option TbWord :=
  match sprn with
  | 284 => some .lower
  | 285 => some .upper
  | _ => none

/-- The write to the timebase that an instruction asks for. -/
def tbWrite (e : Decoded) : Option (TbWord × BitVec 32) :=
  if e.op = .mtspr then
    (TbWord.ofNum (decodeSprNum e.insn)).map fun w => (w, e.readData3.extractLsb' 0 32)
  else none

/-- The timebase after a cycle. -/
def timebaseNext (freeze : Bool) (write : Option (TbWord × BitVec 32)) (tb : BitVec 64) :
    BitVec 64 :=
  let count := if freeze then tb else tb + 1
  match write with
  | none => count
  | some (.lower, x) => tb.extractLsb' 32 32 ++ x
  | some (.upper, x) => x ++ count.extractLsb' 0 32

/-- execute1, the instruction whose effects are in `ex1`, and the timebase as it should be. -/
structure Timed where
  core : Core
  second : Option Decoded
  tb : BitVec 64

namespace Timed

variable (hasFpu : Bool) (t : Timed) (i : CoreInput)

/-- The write to the timebase that is due in this cycle. -/
def write : Option (TbWord × BitVec 32) :=
  if stage2Stall i then none else t.second.bind tbWrite

def step : Timed where
  core := t.core.step hasFpu i
  second :=
    if go hasFpu t.core.st (stageInput hasFpu t.core i) then some i.eIn
    else if busyOut t.core.st (stageInput hasFpu t.core i) then t.second
    else none
  tb := if i.tbReset then 0 else timebaseNext i.tbFreeze (t.write i) t.tb

/-- No write to the upper word is due. -/
def NoUpper : Prop :=
  (t.write i).all (fun w => w.1 = .lower) = true

instance : Decidable (t.NoUpper i) :=
  inferInstanceAs (Decidable (_ = true))

end Timed

/-! ## The write enables -/

section Actions

variable {hasFpu : Bool} {ctrl : Ctrl} {msr : BitVec 64} {e : Decoded} {dp : Datapath}
  {srr1 : BitVec 64} {fpException : Bool}

/-- What an instruction asks for in the timebase. -/
structure TbActions where
  writeTbl : Bool
  writeTbu : Bool
  data : BitVec 64

def Actions.onTb (a : Actions) : TbActions :=
  ⟨a.se.writeTbl, a.se.writeTbu, a.sprWriteData⟩

theorem onTb_exceptions (d : Draft) :
    (exceptions hasFpu ctrl msr e d).onTb = d.v.onTb :=
  exceptions_keeps hasFpu ctrl msr e Actions.onTb d (by intros; rfl)

theorem onTb_mfspr (d : Draft) : (mfsprActions ctrl msr e d).v.onTb = d.v.onTb := by
  unfold mfsprActions
  dsimp only
  split_ifs <;> rfl

/-- The selector that an SPR number leads to is that of the timebase for both of its words. -/
theorem sel_mapSpr (n : Nat) :
    (mapSpr n).valid = true ∧ (mapSpr n).ispmu = false ∧ (mapSpr n).ronly = false →
      (sprSelOf (mapSpr n).sel = .tb ↔ n = 284 ∨ n = 285) ∧ sprSelOf (mapSpr n).sel ≠ .tbu := by
  unfold mapSpr
  dsimp only
  split
  all_goals
    rintro ⟨h1, h2, h3⟩
    first
      | contradiction
      | exact ⟨by decide, by decide⟩

/-- decode2 lets `mtspr` through for the numbers at which the timebase is written, and the upper
word is not told apart from the lower one. -/
theorem tb_sprSelect (insn : BitVec 32) :
    (((sprSelect .mtspr insn).valid && !(sprSelect .mtspr insn).ispmu) = true ∧
        sprSelOf (sprSelect .mtspr insn).sel = .tb ↔
      decodeSprNum insn = 284 ∨ decodeSprNum insn = 285) ∧
      (((sprSelect .mtspr insn).valid && !(sprSelect .mtspr insn).ispmu) = true →
        sprSelOf (sprSelect .mtspr insn).sel ≠ .tbu) := by
  have hsel := sel_mapSpr (decodeSprNum insn)
  unfold sprSelect
  generalize decodeSprNum insn = n at hsel ⊢
  dsimp only
  by_cases hr : (mapSpr n).ronly = true
  · simp only [hr, if_true, Bool.false_and, Bool.false_eq_true, false_and, false_iff, not_or,
      false_implies, and_true]
    constructor
    · rintro rfl
      exact absurd hr (by decide)
    · rintro rfl
      exact absurd hr (by decide)
  · simp only [if_neg hr]
    cases hv : (mapSpr n).valid && !(mapSpr n).ispmu
    · simp only [Bool.false_eq_true, false_and, false_iff, not_or, false_implies, and_true]
      constructor
      · rintro rfl
        exact absurd hv (by decide)
      · rintro rfl
        exact absurd hv (by decide)
    · simp only [Bool.and_eq_true, Bool.not_eq_true'] at hv
      obtain ⟨htb, htbu⟩ := hsel ⟨hv.1, hv.2, by simpa using hr⟩
      simp only [true_and, forall_const]
      exact ⟨htb, htbu⟩

theorem onTb_mtsprEffect (v : Actions) : (mtsprEffect e v).onTb =
    ⟨v.se.writeTbl || decide (sprSelOf e.sprSelect.sel = .tb),
      v.se.writeTbu || decide (sprSelOf e.sprSelect.sel = .tbu), v.sprWriteData⟩ := by
  unfold mtsprEffect
  cases sprSelOf e.sprSelect.sel <;> simp [Actions.onTb]

/-- The write enable of the lower word belongs to `mtspr` to either word, and that of the upper word
to no instruction. -/
theorem onTb_execute1Actions (h : SprDecoded e) :
    (execute1Actions hasFpu ctrl msr e dp srr1 fpException).onTb =
      ⟨(tbWrite e).isSome, false, (defaultActions ctrl msr e dp srr1).v.sprWriteData⟩ := by
  have ha : (execute1Actions hasFpu ctrl msr e dp srr1 fpException).onTb =
      (opActions hasFpu ctrl msr e dp srr1 fpException
        (defaultActions ctrl msr e dp srr1)).v.onTb :=
    onTb_exceptions _
  rw [ha]
  unfold opActions
  dsimp only
  cases hop : e.op
  case mtspr =>
    have hsel := h.select
    rw [hop] at hsel
    obtain ⟨htb, htbu⟩ := tb_sprSelect e.insn
    rw [← hsel] at htb htbu
    have hsome : (tbWrite e).isSome = decide (decodeSprNum e.insn = 284 ∨
        decodeSprNum e.insn = 285) := by
      unfold tbWrite TbWord.ofNum
      rw [if_pos hop]
      split <;> simp_all
    rw [hsome, decide_eq_decide.mpr htb.symm]
    unfold mtsprActions
    dsimp only
    by_cases hv : (e.sprSelect.valid && !e.sprSelect.ispmu) = true
    · rw [if_pos hv, onTb_mtsprEffect, decide_eq_false (htbu hv)]
      simp [hv, defaultActions, SideEffect.init]
    · rw [if_neg hv, decide_eq_false (fun h => hv h.1)]
      rfl
  case mfspr =>
    rw [onTb_mfspr]
    simp [tbWrite, hop, defaultActions, Actions.onTb, SideEffect.init]
  all_goals
    have hnone : (tbWrite e).isSome = false := by simp [tbWrite, hop]
    rw [hnone]
    dsimp only
    first
      | rfl
      | (split_ifs <;> rfl)

end Actions

/-! ## The first stage -/

section Stage

variable (hasFpu : Bool) (s : State) (i : Input) (v : RegStage1)

def RegStage1.onTb (r : RegStage1) : TbActions :=
  ⟨r.se.writeTbl, r.se.writeTbu, r.sprWriteData⟩

theorem onTb_latch : (interrupts hasFpu s i (latch hasFpu s i v)).onTb =
    if busyOut s i then v.onTb else ⟨false, false, i.actions.sprWriteData⟩ := by
  have hinterrupts (u : RegStage1) : (interrupts hasFpu s i u).onTb = u.onTb :=
    interrupts_keeps hasFpu s i RegStage1.onTb u (by intros; rfl)
  rw [hinterrupts]
  unfold latch
  dsimp only
  cases busyOut s i <;> cases validIn s i <;> rfl

theorem onTb_dispatch : (dispatch hasFpu s i v).onTb =
    if go hasFpu s i then
      ⟨i.actions.se.writeTbl, i.actions.se.writeTbu, v.sprWriteData⟩
    else v.onTb := by
  unfold dispatch
  dsimp only
  split_ifs <;> rfl

/-- What follows the dispatch does not touch the timebase. -/
theorem onTb_after :
    (flush i (raise hasFpu s i (forwardXer (waitBits hasFpu s i (waitMul hasFpu s i
      (waitDiv hasFpu s i v)))))).onTb = v.onTb :=
  after_keeps hasFpu s i RegStage1.onTb v (by intros; rfl) (by intros; rfl) (by intros; rfl)
    (by intros; rfl)

theorem onTb_step : (step hasFpu s i).ex1.onTb =
    if go hasFpu s i then i.actions.onTb
    else if busyOut s i then s.ex1.onTb
    else ⟨false, false, i.actions.sprWriteData⟩ := by
  have hlatch := onTb_latch hasFpu s i s.ex1
  have hdispatch := onTb_dispatch hasFpu s i (interrupts hasFpu s i (latch hasFpu s i s.ex1))
  show (flush i (raise hasFpu s i _)).onTb = _
  rw [onTb_after, hdispatch]
  by_cases hgo : go hasFpu s i = true
  · have hbusy : busyOut s i = false := by
      by_contra hb
      simp [go, validIn, hb] at hgo
    rw [hbusy] at hlatch
    have hdata := congrArg TbActions.data hlatch
    simp only [Bool.false_eq_true, if_false, RegStage1.onTb] at hdata
    simp only [hgo, if_true, hdata]
    rfl
  · simp only [if_neg hgo, hlatch]

end Stage

/-! ## Runs -/

/-- The two incrementers add one, if the carry says that the lower word is all ones. -/
theorem append_succ (tb : BitVec 64) (carry : Bool)
    (hcarry : carry = (tb.extractLsb' 0 32 == BitVec.allOnes 32)) :
    (tb.extractLsb' 32 32 + (BitVec.ofBool carry).setWidth 32) ++ (tb.extractLsb' 0 32 + 1) =
      tb + 1 := by
  apply BitVec.eq_of_toNat_eq
  rw [Bits.toNat_append]
  have hlt := tb.isLt
  have hlow : (tb.extractLsb' 0 32).toNat = tb.toNat % 2 ^ 32 := by simp
  have hhigh : (tb.extractLsb' 32 32).toNat = tb.toNat / 2 ^ 32 := by
    simp only [BitVec.extractLsb'_toNat, Nat.shiftRight_eq_div_pow]
    omega
  have hall : (carry = true) ↔ tb.toNat % 2 ^ 32 = 2 ^ 32 - 1 := by
    rw [hcarry, beq_iff_eq, ← BitVec.toNat_inj, hlow, BitVec.toNat_allOnes]
  simp only [BitVec.toNat_add, hlow, hhigh]
  cases carry
  · have hne := mt hall.mpr (by simp)
    simp
    omega
  · have heq := hall.mp rfl
    simp
    omega

namespace Timed

variable {hasFpu : Bool} {t : Timed} {i : CoreInput}

/-- The write enables and the data are those of the instruction. -/
structure Carries (second : Option Decoded) (a : TbActions) : Prop where
  writeTbl : a.writeTbl = (second.bind tbWrite).isSome
  writeTbu : a.writeTbu = false
  data : ∀ w, second.bind tbWrite = some w → w.2 = a.data.extractLsb' 0 32

/-- The write enables belong to the instruction in `ex1`, the carry is known, and the timebase is
what it should be. -/
structure Ok (t : Timed) : Prop where
  carries : Carries t.second t.core.st.ex1.onTb
  carry : t.core.tbCarry = (t.core.timebase.extractLsb' 0 32 == BitVec.allOnes 32)
  tb : t.core.timebase = t.tb

/-- Without a write the two incrementers count. -/
theorem tbNext_of_none (h : t.Ok) (hw : t.write i = none) :
    tbNext t.core i = timebaseNext i.tbFreeze none t.core.timebase := by
  have htbl : t.core.st.ex1.se.writeTbl = (t.second.bind tbWrite).isSome := h.carries.writeTbl
  have htbu : t.core.st.ex1.se.writeTbu = false := h.carries.writeTbu
  have hoff : (!stage2Stall i && t.core.st.ex1.se.writeTbl) = false := by
    rw [htbl]
    cases hs : stage2Stall i
    · have hnone : t.second.bind tbWrite = none := by simpa [Timed.write, hs] using hw
      simp [hnone]
    · simp
  unfold tbNext timebaseNext
  simp only [hoff, htbu, Bool.and_false, Bool.false_eq_true, if_false, Bool.not_false,
    Bool.true_and]
  cases i.tbFreeze
  · simpa using append_succ t.core.timebase t.core.tbCarry h.carry
  · simpa using @BitVec.extractLsb'_append_extractLsb' 32 32 t.core.timebase

/-- A write to the lower word replaces it, and nothing is carried out of it. -/
theorem tbNext_of_lower (h : t.Ok) {x : BitVec 32} (hw : t.write i = some (.lower, x)) :
    tbNext t.core i = timebaseNext i.tbFreeze (some (.lower, x)) t.core.timebase := by
  unfold Timed.write at hw
  cases hs : stage2Stall i
  · rw [hs] at hw
    simp only [Bool.false_eq_true, if_false] at hw
    have htbl : t.core.st.ex1.se.writeTbl = (t.second.bind tbWrite).isSome := h.carries.writeTbl
    have htbu : t.core.st.ex1.se.writeTbu = false := h.carries.writeTbu
    rw [hw, Option.isSome_some] at htbl
    have hdata : x = t.core.st.ex1.sprWriteData.extractLsb' 0 32 := h.carries.data _ hw
    simp [tbNext, timebaseNext, hs, htbl, htbu, hdata]
  · simp [hs] at hw

/-- In a cycle without a write to the upper word the timebase does what it should. -/
theorem tbNext_eq (h : t.Ok) (hno : t.NoUpper i) :
    tbNext t.core i = timebaseNext i.tbFreeze (t.write i) t.core.timebase := by
  cases hw : t.write i with
  | none => exact tbNext_of_none h hw
  | some w =>
      obtain ⟨word, x⟩ := w
      have hword : word = .lower := by simpa [NoUpper, hw] using hno
      subst hword
      exact tbNext_of_lower h hw

/-- What `ex1` holds after an edge. -/
theorem onTb_core_step (h : SprDecoded i.eIn) :
    (t.core.step hasFpu i).st.ex1.onTb =
      if go hasFpu t.core.st (stageInput hasFpu t.core i) then
        ⟨(tbWrite i.eIn).isSome, false,
          if i.eIn.decCtr then ramsprOdd t.core i - 1 else i.eIn.readData3⟩
      else if busyOut t.core.st (stageInput hasFpu t.core i) then t.core.st.ex1.onTb
      else ⟨false, false, (actions hasFpu t.core i).sprWriteData⟩ := by
  have hactions : (stageInput hasFpu t.core i).actions.onTb = _ := onTb_execute1Actions h
  have hstep := onTb_step hasFpu t.core.st (stageInput hasFpu t.core i)
  rw [hactions] at hstep
  exact hstep

theorem carries_some {e : Decoded} (hd : SprDecoded e) (x : BitVec 64) :
    Carries (some e) ⟨(tbWrite e).isSome, false, if e.decCtr then x else e.readData3⟩ where
  writeTbl := rfl
  writeTbu := rfl
  data w hw := by
    simp only [Option.bind_some, tbWrite] at hw
    split_ifs at hw with hop
    rw [hd.decCtr hop, if_neg Bool.false_ne_true]
    obtain ⟨word, -, rfl⟩ := Option.map_eq_some_iff.mp hw
    rfl

theorem carries_none (x : BitVec 64) : Carries none ⟨false, false, x⟩ where
  writeTbl := rfl
  writeTbu := rfl
  data _ hw := nomatch hw

theorem ok_step (h : t.Ok) (hd : SprDecoded i.eIn) (hno : t.NoUpper i) :
    (t.step hasFpu i).Ok where
  carries := by
    have hon : (t.step hasFpu i).core.st.ex1.onTb = _ := onTb_core_step hd
    rw [hon]
    simp only [Timed.step]
    by_cases hgo : go hasFpu t.core.st (stageInput hasFpu t.core i) = true
    · simp only [if_pos hgo]
      exact carries_some hd _
    · simp only [if_neg hgo]
      by_cases hbusy : busyOut t.core.st (stageInput hasFpu t.core i) = true
      · simp only [if_pos hbusy]
        exact h.carries
      · simp only [if_neg hbusy]
        exact carries_none _
  carry := by
    simp only [Timed.step, Core.step]
    cases i.tbReset
    · simp
    · rfl
  tb := by
    simp only [Timed.step, Core.step, tbNext_eq h hno, h.tb]

/-- execute1 after a reset of the timebase, with no instruction in `ex1`. -/
structure AfterReset (t : Timed) : Prop where
  noTbl : t.core.st.ex1.se.writeTbl = false
  noTbu : t.core.st.ex1.se.writeTbu = false
  timebase : t.core.timebase = 0
  tbCarry : t.core.tbCarry = false
  second : t.second = none
  tb : t.tb = 0

theorem ok_init (h : t.AfterReset) : t.Ok where
  carries := by
    rw [h.second]
    have hon : t.core.st.ex1.onTb = ⟨false, false, t.core.st.ex1.sprWriteData⟩ := by
      rw [RegStage1.onTb, h.noTbl, h.noTbu]
    rw [hon]
    exact carries_none _
  carry := by
    rw [h.timebase, h.tbCarry]
    rfl
  tb := by rw [h.timebase, h.tb]

end Timed

/-- In every run in which no `mtspr` to the upper word takes effect, the timebase counts the cycles
in which it is not frozen, and writes to the lower word replace that word and nothing else. -/
theorem timebase_counts {hasFpu : Bool} {t : Timed} (ht : t.AfterReset) {is : List CoreInput}
    (hok : Along (Timed.step hasFpu) (fun t i => SprDecoded i.eIn ∧ t.NoUpper i) t is) :
    (run (Timed.step hasFpu) t is).core.timebase = (run (Timed.step hasFpu) t is).tb :=
  (hok.invariant (fun _ _ hi h => Timed.ok_step h hi.1 hi.2) (Timed.ok_init ht)).tb

/-! ## Fixed inputs -/

/-- `mtspr`. -/
def mtspr (sprn : BitVec 10) (rs : BitVec 64) : Decoded :=
  let insn : BitVec 32 := 31#6 ++ 0#5 ++ sprn.extractLsb' 0 5 ++ sprn.extractLsb' 5 5 ++ 0x3a6#11
  { Decoded.idle with
    valid := true, op := .mtspr, insn := insn, readData3 := rs
    sprSelect := sprSelect .mtspr insn, privileged := true }

def Timed.cold : Timed := ⟨.cold, none, 0⟩

theorem sprDecoded_mtspr (sprn : BitVec 10) (rs : BitVec 64) : SprDecoded (mtspr sprn rs) :=
  ⟨rfl, fun _ => rfl⟩

theorem sprDecoded_idle : SprDecoded .idle :=
  ⟨by decide, fun _ => rfl⟩

theorem Timed.afterReset_cold : Timed.cold.AfterReset := ⟨rfl, rfl, rfl, rfl, rfl, rfl⟩

/-- `mtspr` to the lower word, and the cycles after it. -/
theorem timebase_counts_lower :
    (run (Timed.step true) .cold [.of (mtspr 284 5), .of .idle, .of .idle]).core.timebase =
      (run (Timed.step true) .cold [.of (mtspr 284 5), .of .idle, .of .idle]).tb :=
  timebase_counts Timed.afterReset_cold
    ⟨⟨sprDecoded_mtspr 284 5, by decide +kernel⟩, ⟨sprDecoded_idle, by decide +kernel⟩,
      ⟨sprDecoded_idle, by decide +kernel⟩, trivial⟩

/-- `mtspr` to the upper word replaces the lower one. -/
theorem timebase_upper_lost :
    ¬ ∀ (t : Timed) (is : List CoreInput), t.AfterReset →
        Along (Timed.step true) (fun _ i => SprDecoded i.eIn) t is →
          (run (Timed.step true) t is).core.timebase = (run (Timed.step true) t is).tb := by
  intro h
  have hrun := h .cold [.of (mtspr 285 5), .of .idle] Timed.afterReset_cold
    ⟨sprDecoded_mtspr 285 5, sprDecoded_idle, trivial⟩
  have hlow : (run (Timed.step true) .cold [.of (mtspr 285 5), .of .idle]).core.timebase = 5 := by
    decide +kernel
  have htb : (run (Timed.step true) .cold [.of (mtspr 285 5), .of .idle]).tb = 0x500000002 := by
    decide +kernel
  rw [hlow, htb] at hrun
  exact absurd hrun (by decide)

end Microwatt.Execute1
