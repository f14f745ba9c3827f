import Microwatt.Control.Step
import Microwatt.Lib.Select

/-!
# The operands of an instruction that is issued

The instructions in flight are kept beside the registers of `control`, the youngest first, with the
results that they will write, and so are those that have completed.  An operand is taken from the
bypass that `control` selects, or from the register file together with the write of the same cycle.
-/

namespace Microwatt.Control

open Clocked

/-- The registers that an instruction can write: a GPR or FPR, the CR, and the common bits of
XER. -/
structure Results where
  gpr : BitVec 64
  cr : BitVec 32
  xerc : BitVec 5

/-- An instruction that has been issued. -/
structure Insn where
  tag : TagNumber
  flags : Presented
  results : Results

namespace Insn

def writes (r : GsprIndex) (y : Insn) : Bool :=
  y.flags.gprWriteValid && y.flags.gprWrite == r

def writesCr (y : Insn) : Bool :=
  y.flags.crWrite

def writesOv (y : Insn) : Bool :=
  y.flags.ovWrite

end Insn

/-- The register files. -/
structure Files where
  gpr : GsprIndex → BitVec 64
  cr : BitVec 32
  xerc : BitVec 5

/-- The files after the writes of an instruction. -/
def Files.write (f : Files) (y : Insn) : Files where
  gpr r := if y.writes r then y.results.gpr else f.gpr r
  cr := if y.writesCr then y.results.cr else f.cr
  xerc := if y.writesOv then y.results.xerc else f.xerc

/-- `control`, the instructions in flight and completed, the youngest first, and the register
files. -/
structure Sys where
  control : State
  inFlight : List Insn
  committed : List Insn
  files : Files

/-- The inputs of a cycle, with the results that the presented instruction will have. -/
structure SysInput extends Input where
  results : Results

namespace Sys

variable (ex1Bypass : Bool) (x : Sys) (i : SysInput)

/-- The instruction that completes. -/
def completing : Option Insn :=
  if i.completeIn.valid then x.inFlight.getLast? else none

/-- The instructions that do not complete. -/
def remaining : List Insn :=
  if i.completeIn.valid then x.inFlight.dropLast else x.inFlight

/-- The presented instruction, under the tag that it gets. -/
def presented : Insn :=
  ⟨(instrTag ex1Bypass x.control i.toInput).tag, i.insn, i.results⟩

/-- The files with the write of the same cycle. -/
def filesNow : Files :=
  match x.completing i with
  | some y => x.files.write y
  | none => x.files

/-- One clock edge.  A flush takes all instructions out of the pipeline, apart from the one that
completes. -/
def step : Sys where
  control := Control.step ex1Bypass x.control i.toInput
  inFlight :=
    if i.rst || i.flushIn then []
    else if (instrTag ex1Bypass x.control i.toInput).valid then
      x.presented ex1Bypass i :: x.remaining i
    else x.remaining i
  committed := (x.completing i).toList ++ x.committed
  files := x.filesNow i

/-- The value of a source register in decode2. -/
def gprOperand (g : GprRead) : BitVec 64 :=
  match gprBypass ex1Bypass i.toInput g with
  | .execute => i.executeNextBypass.data
  | .execute2 => i.execute2NextBypass.data
  | .writeback => i.writebackBypass.data
  | .none => (x.filesNow i).gpr g.reg

/-- The value of the CR in decode2. -/
def crOperand : BitVec 32 :=
  match crBypass ex1Bypass x.control i.toInput with
  | .execute => i.executeNextCr.data
  | .execute2 => i.execute2NextCr.data
  | _ => (x.filesNow i).cr

/-- The value of the common bits of XER in decode2. -/
def xercOperand : BitVec 5 :=
  (x.filesNow i).xerc

/-- All instructions that were issued and not flushed, the youngest first. -/
def history : List Insn :=
  x.inFlight ++ x.committed

/-- The bypass carries the result of the instruction in place `k`. -/
def Carries (b : BypassData) (k : Nat) : Prop :=
  b.tag.valid = true ∧ ∃ y, x.inFlight[k]? = some y ∧ y.tag = b.tag.tag ∧ y.writes b.reg = true ∧
    b.data = y.results.gpr

/-- The bypass carries the CR that an instruction in flight leaves. -/
def CarriesCr (b : CrBypassData) : Prop :=
  ∃ y ∈ x.inFlight, y.tag = b.tag.tag ∧ y.writesCr = true ∧ b.data = y.results.cr

/-- What the rest of the core does: instructions complete in the order of issue, there are never
more in flight than tags, and the bypasses carry results of instructions in flight, the youngest
first. -/
structure Contract : Prop where
  complete : i.completeIn.valid = true →
    ∃ y, x.inFlight.getLast? = some y ∧ y.tag = i.completeIn.tag
  room : (x.step ex1Bypass i).inFlight.length ≤ 4
  execute : i.executeNextBypass.tag.valid = true → ∃ k, x.Carries i.executeNextBypass k
  execute2 : i.execute2NextBypass.tag.valid = true → ∃ k, x.Carries i.execute2NextBypass k
  writeback : i.writebackBypass.tag.valid = true → ∃ k, x.Carries i.writebackBypass k
  executeFirst : ∀ k k', x.Carries i.executeNextBypass k →
    x.Carries i.execute2NextBypass k' → k ≤ k'
  executeCr : i.executeNextCr.tag.valid = true → x.CarriesCr i.executeNextCr
  execute2Cr : i.execute2NextCr.tag.valid = true → x.CarriesCr i.execute2NextCr

end Sys

/-- The value that the youngest writer in the history has left, `init` without one. -/
def youngest {α : Type} (writes : Insn → Bool) (result : Insn → α) (init : α) (l : List Insn) : α :=
  ((l.find? writes).map result).getD init

/-! ## Marks -/

/-- `mark` holds of the tag of the youngest instruction in flight with `p`, and of no other. -/
def Marks (mark : TagNumber → Prop) (p : Insn → Bool) (l : List Insn) : Prop :=
  ∀ t, mark t ↔ ∃ y, l.find? p = some y ∧ y.tag = t

section

variable {mark mark' : TagNumber → Prop} {p : Insn → Bool} {l : List Insn} {y : Insn}

theorem Marks.nil (h : ∀ t, ¬mark t) : Marks mark p [] := by
  intro t
  simp [h t]

/-- The oldest instruction completes. -/
theorem Marks.complete (h : Marks mark p (l ++ [y])) (hy : ∀ z ∈ l, z.tag ≠ y.tag)
    (hm : ∀ t, mark' t ↔ mark t ∧ t ≠ y.tag) : Marks mark' p l := by
  intro t
  rw [hm, h t, List.find?_append]
  constructor
  · rintro ⟨⟨z, hz, rfl⟩, hne⟩
    cases hl : l.find? p with
    | some w =>
        rw [hl] at hz
        exact ⟨z, hz, rfl⟩
    | none =>
        -- the only instruction left is the one that completes
        rw [hl, Option.none_or] at hz
        have hzy : z = y := List.mem_singleton.mp (List.mem_of_find?_eq_some hz)
        exact absurd (by rw [hzy]) hne
  · rintro ⟨z, hz, rfl⟩
    refine ⟨⟨z, by rw [hz]; rfl, rfl⟩, ?_⟩
    exact hy z (List.mem_of_find?_eq_some hz)

/-- An instruction is issued. -/
theorem Marks.issue (h : Marks mark p l) (hy : ∀ z ∈ l, z.tag ≠ y.tag)
    (hm : ∀ t, mark' t ↔ if t = y.tag then p y = true else mark t ∧ p y = false) :
    Marks mark' p (y :: l) := by
  intro t
  rw [hm, List.find?_cons]
  cases hp : p y with
  | true =>
      constructor
      · intro ht
        split_ifs at ht with heq
        · exact ⟨y, rfl, heq.symm⟩
        · exact absurd ht.2 (by simp)
      · rintro ⟨z, hz, rfl⟩
        rw [Option.some.inj hz, if_pos rfl]
  | false =>
      rw [← h t]
      constructor
      · intro ht
        split_ifs at ht with heq
        exact ht.1
      · intro ht
        have hne : t ≠ y.tag := by
          obtain ⟨z, hz, rfl⟩ := (h t).mp ht
          exact hy z (List.mem_of_find?_eq_some hz)
        rw [if_neg hne]
        exact ⟨ht, rfl⟩

end

/-! ## The invariant -/

/-- The tag is the recent writer of the register. -/
def gprMark (s : State) (r : GsprIndex) (t : TagNumber) : Prop :=
  (s.tagRegs t).valid = true ∧ (s.tagRegs t).recent = true ∧ (s.tagRegs t).reg = r

def crMark (s : State) (t : TagNumber) : Prop :=
  t = s.currCrTag ∧ (s.tagRegs t).wrCr = true

def ovMark (s : State) (t : TagNumber) : Prop :=
  t = s.currOvTag ∧ (s.tagRegs t).wrOv = true

/-- The tags of the instructions in flight are the last ones given out, the marks are on the
youngest writers, and the files hold what the completed instructions have written.  `init` is what
they held before. -/
structure Inv (init : Files) (x : Sys) : Prop where
  len : x.inFlight.length ≤ 4
  tags : ∀ k y, x.inFlight[k]? = some y → y.tag + Fin.ofNat 4 (k + 1) = x.control.currTag
  gpr : ∀ r, Marks (gprMark x.control r) (Insn.writes r) x.inFlight
  cr : Marks (crMark x.control) Insn.writesCr x.inFlight
  ov : Marks (ovMark x.control) Insn.writesOv x.inFlight
  gprFile : ∀ r, x.files.gpr r = youngest (Insn.writes r) (·.results.gpr) (init.gpr r) x.committed
  crFile : x.files.cr = youngest Insn.writesCr (·.results.cr) init.cr x.committed
  xercFile : x.files.xerc = youngest Insn.writesOv (·.results.xerc) init.xerc x.committed

section

variable {ex1Bypass : Bool} {x : Sys} {i : SysInput} {init : Files}

/-- Instructions in flight have different tags. -/
theorem Inv.place_eq (h : Inv init x) {k k' : Nat} {y y' : Insn} (hk : x.inFlight[k]? = some y)
    (hk' : x.inFlight[k']? = some y') (ht : y.tag = y'.tag) : k = k' := by
  have hlt := (List.getElem?_eq_some_iff.mp hk).1
  have hlt' := (List.getElem?_eq_some_iff.mp hk').1
  have hlen := h.len
  have h1 := h.tags k y hk
  have h2 := h.tags k' y' hk'
  rw [← h2, ht] at h1
  have h3 := congrArg Fin.val (add_left_cancel h1)
  simp only [Fin.val_ofNat] at h3
  omega

theorem Inv.eq_of_tag (h : Inv init x) {y y' : Insn} (hy : y ∈ x.inFlight) (hy' : y' ∈ x.inFlight)
    (ht : y.tag = y'.tag) : y = y' := by
  obtain ⟨k, hk⟩ := List.mem_iff_getElem?.mp hy
  obtain ⟨k', hk'⟩ := List.mem_iff_getElem?.mp hy'
  obtain rfl := h.place_eq hk hk' ht
  exact Option.some.inj (hk.symm.trans hk')

/-- What completes and what stays in flight. -/
theorem completing_cases (hc : x.Contract ex1Bypass i) :
    (i.completeIn.valid = false ∧ x.completing i = none ∧ x.remaining i = x.inFlight) ∨
    ∃ y, i.completeIn.valid = true ∧ x.completing i = some y ∧ y.tag = i.completeIn.tag ∧
      x.inFlight = x.remaining i ++ [y] := by
  cases hv : i.completeIn.valid with
  | false => exact Or.inl ⟨rfl, by simp [Sys.completing, hv], by simp [Sys.remaining, hv]⟩
  | true =>
      obtain ⟨y, hy, ht⟩ := hc.complete hv
      refine Or.inr ⟨y, rfl, by simp [Sys.completing, hv, hy], ht, ?_⟩
      simp only [Sys.remaining, hv, if_true]
      exact (List.dropLast_append_getLast? y hy).symm

/-- The instructions that stay have other tags than the one that completes. -/
theorem Inv.tag_ne_completing (h : Inv init x) {l : List Insn} {y : Insn}
    (heq : x.inFlight = l ++ [y]) : ∀ z ∈ l, z.tag ≠ y.tag := by
  intro z hz ht
  obtain ⟨k, hk⟩ := List.mem_iff_getElem?.mp hz
  have hlt := (List.getElem?_eq_some_iff.mp hk).1
  have hkz : x.inFlight[k]? = some z := by
    rw [heq, List.getElem?_append_left hlt, hk]
  have hly : x.inFlight[l.length]? = some y := by
    rw [heq]
    simp
  have := h.place_eq hkz hly ht
  omega

/-- What stays in flight is the beginning of the list. -/
theorem remaining_getElem? (hc : x.Contract ex1Bypass i) {k : Nat} {y : Insn}
    (hk : (x.remaining i)[k]? = some y) : x.inFlight[k]? = some y := by
  rcases completing_cases hc with ⟨-, -, hrem⟩ | ⟨z, -, -, -, heq⟩
  · rw [hrem] at hk
    exact hk
  · have hlt := (List.getElem?_eq_some_iff.mp hk).1
    rw [heq, List.getElem?_append_left hlt, hk]

/-- The tag that is given out next is free. -/
theorem Inv.tag_ne_issued (h : Inv init x) (hc : x.Contract ex1Bypass i)
    (hlen : (x.remaining i).length ≤ 3) : ∀ z ∈ x.remaining i, z.tag ≠ x.control.currTag := by
  intro z hz ht
  obtain ⟨k, hk⟩ := List.mem_iff_getElem?.mp hz
  have hlt := (List.getElem?_eq_some_iff.mp hk).1
  have htag := h.tags k z (remaining_getElem? hc hk)
  rw [ht] at htag
  have h0 : Fin.ofNat 4 (k + 1) = 0 := by
    have := add_left_cancel (htag.trans (add_zero x.control.currTag).symm)
    exact this
  have h1 := congrArg Fin.val h0
  simp only [Fin.val_ofNat, Fin.val_zero] at h1
  omega

end

/-! ## One edge -/

section

variable {ex1Bypass : Bool} {s : State} {i : Input}

/-- The mark after an edge without flush: from the instruction that is issued, or as before. -/
def markNext (ex1Bypass : Bool) (s : State) (i : Input) (mark : TagNumber → Prop) (w : Prop)
    (t : TagNumber) : Prop :=
  if (instrTag ex1Bypass s i).valid = true ∧ t = s.currTag then w
  else (mark t ∧ ¬(i.completeIn.valid = true ∧ t = i.completeIn.tag)) ∧
    ((instrTag ex1Bypass s i).valid = true → ¬w)

theorem validOut_of_instrTag (h : (instrTag ex1Bypass s i).valid = true) :
    validOut ex1Bypass s i = true := by
  simp only [instrTag, Bool.and_eq_true] at h
  exact h.1

/-- An entry after an edge without flush. -/
theorem tagRegNext_of_not_flush (ex1Bypass : Bool) (s : State) (hr : i.rst = false)
    (hf : i.flushIn = false) (t : TagNumber) :
    let r := tagRegNext ex1Bypass s i t
    let done := i.completeIn.valid = true ∧ t = i.completeIn.tag
    ((instrTag ex1Bypass s i).valid = true ∧ t = s.currTag →
      r.valid = true ∧ r.recent = i.insn.gprWriteValid ∧ r.reg = i.insn.gprWrite ∧
      r.wrCr = i.insn.crWrite ∧ r.wrOv = i.insn.ovWrite) ∧
    (¬((instrTag ex1Bypass s i).valid = true ∧ t = s.currTag) →
      (r.valid = true ↔ (s.tagRegs t).valid = true ∧ ¬done) ∧
      (r.recent = true ↔ (s.tagRegs t).recent = true ∧
        ((instrTag ex1Bypass s i).valid = true →
          ¬(i.insn.gprWriteValid = true ∧ i.insn.gprWrite = (s.tagRegs t).reg))) ∧
      r.reg = (s.tagRegs t).reg ∧
      (r.wrCr = true ↔ (s.tagRegs t).wrCr = true ∧ ¬done) ∧
      (r.wrOv = true ↔ (s.tagRegs t).wrOv = true ∧ ¬done)) := by
  have htag : (instrTag ex1Bypass s i).tag = s.currTag := rfl
  constructor
  · rintro ⟨hv, rfl⟩
    have hout := validOut_of_instrTag hv
    simp [tagRegNext, hr, hf, hv, htag, writeValid, hout]
  · intro hno
    have hif : ((instrTag ex1Bypass s i).valid && t == (instrTag ex1Bypass s i).tag) = false := by
      rw [htag]
      simpa using hno
    simp only [tagRegNext, hr, hf, Bool.or_self, Bool.false_eq_true, if_false, hif]
    by_cases hd : i.completeIn.valid = true ∧ t = i.completeIn.tag
    · have hdb : (i.completeIn.valid && t == i.completeIn.tag) = true := by simpa using hd
      simp only [hd]
      by_cases hv : (instrTag ex1Bypass s i).valid = true
      · have hout := validOut_of_instrTag hv
        simp only [hv, hout, writeValid, Bool.and_true, Bool.true_and]
        grind
      · simp [hv]
    · have hdb : (i.completeIn.valid && t == i.completeIn.tag) = false := by simpa using hd
      simp only [hdb, Bool.false_eq_true, if_false]
      by_cases hv : (instrTag ex1Bypass s i).valid = true
      · have hout := validOut_of_instrTag hv
        simp only [hv, hout, writeValid, Bool.and_true, Bool.true_and]
        grind
      · simp [hv, hd]

theorem gprMark_step (hr : i.rst = false) (hf : i.flushIn = false) (r : GsprIndex)
    (t : TagNumber) : gprMark (step ex1Bypass s i) r t ↔
      markNext ex1Bypass s i (gprMark s r)
        (i.insn.gprWriteValid = true ∧ i.insn.gprWrite = r) t := by
  obtain ⟨hnew, hold⟩ := tagRegNext_of_not_flush ex1Bypass s hr hf t
  show (tagRegNext ex1Bypass s i t).valid = true ∧ (tagRegNext ex1Bypass s i t).recent = true ∧
    (tagRegNext ex1Bypass s i t).reg = r ↔ _
  unfold markNext gprMark
  split_ifs with h
  · obtain ⟨hv, hrec, hreg, -, -⟩ := hnew h
    rw [hv, hrec, hreg]
    simp
  · obtain ⟨hv, hrec, hreg, -, -⟩ := hold h
    rw [hv, hrec, hreg]
    constructor
    · rintro ⟨⟨h1, h2⟩, ⟨h3, h4⟩, rfl⟩
      exact ⟨⟨⟨h1, h3, rfl⟩, h2⟩, h4⟩
    · rintro ⟨⟨⟨h1, h3, rfl⟩, h2⟩, h4⟩
      exact ⟨⟨h1, h2⟩, ⟨h3, h4⟩, rfl⟩

/-- A flag at the tag of its latest writer, after an edge without flush. -/
theorem latestMark_step (curr : TagNumber) {curr' t : TagNumber} {flag flag' wr : Prop}
    (hcurr : (instrTag ex1Bypass s i).valid = true ∧ wr → curr' = s.currTag)
    (hkept : ¬((instrTag ex1Bypass s i).valid = true ∧ wr) → curr' = curr)
    (hnew : (instrTag ex1Bypass s i).valid = true ∧ t = s.currTag → (flag' ↔ wr))
    (hold : ¬((instrTag ex1Bypass s i).valid = true ∧ t = s.currTag) →
      (flag' ↔ flag ∧ ¬(i.completeIn.valid = true ∧ t = i.completeIn.tag))) :
    t = curr' ∧ flag' ↔ markNext ex1Bypass s i (fun t => t = curr ∧ flag) wr t := by
  unfold markNext
  by_cases hw : (instrTag ex1Bypass s i).valid = true ∧ wr
  · rw [hcurr hw]
    split_ifs with h
    · rw [hnew h]
      simp [h.2]
    · constructor
      · rintro ⟨rfl, -⟩
        exact absurd ⟨hw.1, rfl⟩ h
      · rintro ⟨-, himp⟩
        exact absurd hw.2 (himp hw.1)
  · rw [hkept hw]
    split_ifs with h
    · rw [hnew h]
      exact ⟨fun hb => hb.2, fun hwr => absurd ⟨h.1, hwr⟩ hw⟩
    · rw [hold h]
      constructor
      · rintro ⟨ht, hf, hd⟩
        exact ⟨⟨⟨ht, hf⟩, hd⟩, fun hv hwr => hw ⟨hv, hwr⟩⟩
      · rintro ⟨⟨⟨ht, hf⟩, hd⟩, -⟩
        exact ⟨ht, hf, hd⟩

theorem crMark_step (hr : i.rst = false) (hf : i.flushIn = false) (t : TagNumber) :
    crMark (step ex1Bypass s i) t ↔
      markNext ex1Bypass s i (crMark s) (i.insn.crWrite = true) t := by
  obtain ⟨hnew, hold⟩ := tagRegNext_of_not_flush ex1Bypass s hr hf t
  refine latestMark_step s.currCrTag ?_ ?_ ?_ ?_
  · rintro ⟨hv, hw⟩
    simp [step, hr, hv, hw, writeValid, validOut_of_instrTag hv]
    rfl
  · intro hno
    have hif : ((instrTag ex1Bypass s i).valid &&
        writeValid ex1Bypass s i i.insn.crWrite) = false := by
      by_contra hc
      simp only [Bool.not_eq_false, Bool.and_eq_true, writeValid] at hc
      exact hno ⟨hc.1, hc.2.1⟩
    simp [step, hr, hif]
  · intro h
    rw [← (hnew h).2.2.2.1]
    rfl
  · intro h
    exact (hold h).2.2.2.1

theorem ovMark_step (hr : i.rst = false) (hf : i.flushIn = false) (t : TagNumber) :
    ovMark (step ex1Bypass s i) t ↔
      markNext ex1Bypass s i (ovMark s) (i.insn.ovWrite = true) t := by
  obtain ⟨hnew, hold⟩ := tagRegNext_of_not_flush ex1Bypass s hr hf t
  refine latestMark_step s.currOvTag ?_ ?_ ?_ ?_
  · rintro ⟨hv, hw⟩
    simp [step, hr, hv, hw, writeValid, validOut_of_instrTag hv]
    rfl
  · intro hno
    have hif : ((instrTag ex1Bypass s i).valid &&
        writeValid ex1Bypass s i i.insn.ovWrite) = false := by
      by_contra hc
      simp only [Bool.not_eq_false, Bool.and_eq_true, writeValid] at hc
      exact hno ⟨hc.1, hc.2.1⟩
    simp [step, hr, hif]
  · intro h
    rw [← (hnew h).2.2.2.2]
    rfl
  · intro h
    exact (hold h).2.2.2.2

end

section

variable {ex1Bypass : Bool} {x : Sys} {i : SysInput} {init : Files}

theorem inFlight_step (hr : i.rst = false) (hf : i.flushIn = false) :
    (x.step ex1Bypass i).inFlight =
      if (instrTag ex1Bypass x.control i.toInput).valid then
        x.presented ex1Bypass i :: x.remaining i
      else x.remaining i := by
  simp [Sys.step, hr, hf]

theorem inFlight_step_flush (h : (i.rst || i.flushIn) = true) :
    (x.step ex1Bypass i).inFlight = [] := by
  simp only [Sys.step, h, if_true]

/-- There is room for an instruction that is issued. -/
theorem remaining_le (hc : x.Contract ex1Bypass i) (hr : i.rst = false) (hf : i.flushIn = false)
    (hv : (instrTag ex1Bypass x.control i.toInput).valid = true) :
    (x.remaining i).length ≤ 3 := by
  have hroom := hc.room
  rw [inFlight_step hr hf, if_pos hv, List.length_cons] at hroom
  omega

/-- Marks follow the instructions in flight. -/
theorem Inv.marks_step (h : Inv init x) (hc : x.Contract ex1Bypass i) (hr : i.rst = false)
    (hf : i.flushIn = false) {mark mark' : TagNumber → Prop} {p : Insn → Bool}
    (hmark : Marks mark p x.inFlight)
    (hm : ∀ t, mark' t ↔
      markNext ex1Bypass x.control i.toInput mark (p (x.presented ex1Bypass i) = true) t) :
    Marks mark' p (x.step ex1Bypass i).inFlight := by
  have hrem : Marks (fun t => mark t ∧ ¬(i.completeIn.valid = true ∧ t = i.completeIn.tag)) p
      (x.remaining i) := by
    rcases completing_cases hc with ⟨hv, -, hrem⟩ | ⟨y, hv, -, ht, heq⟩
    · rw [hrem]
      simpa [hv] using hmark
    · refine Marks.complete (heq ▸ hmark) (h.tag_ne_completing heq) ?_
      intro t
      simp [hv, ht]
  rw [inFlight_step hr hf]
  split_ifs with hv
  · refine Marks.issue hrem (h.tag_ne_issued hc (remaining_le hc hr hf hv)) ?_
    intro t
    rw [hm t, markNext]
    have htag : (x.presented ex1Bypass i).tag = x.control.currTag := rfl
    simp only [hv, true_and, htag, forall_const, Bool.not_eq_true]
  · intro t
    rw [hm t, markNext, ← hrem t]
    simp [hv]

theorem youngest_cons {α : Type} {p : Insn → Bool} {f : Insn → α} {a : α} {y : Insn}
    {l : List Insn} : youngest p f a (y :: l) = if p y then f y else youngest p f a l := by
  unfold youngest
  rw [List.find?_cons]
  cases p y <;> rfl

theorem Inv.tags_step (h : Inv init x) (hc : x.Contract ex1Bypass i) (k : Nat) (y : Insn)
    (hk : (x.step ex1Bypass i).inFlight[k]? = some y) :
    y.tag + Fin.ofNat 4 (k + 1) = (x.step ex1Bypass i).control.currTag := by
  cases hflush : i.rst || i.flushIn with
  | true =>
      rw [inFlight_step_flush hflush] at hk
      simp at hk
  | false =>
      rw [Bool.or_eq_false_iff] at hflush
      obtain ⟨hr, hf⟩ := hflush
      rw [inFlight_step hr hf] at hk
      have hcurr : (x.step ex1Bypass i).control.currTag =
          if (instrTag ex1Bypass x.control i.toInput).valid then x.control.currTag + 1
          else x.control.currTag := by
        simp [Sys.step, Control.step, hr]
      rw [hcurr]
      split_ifs at hk ⊢ with hv
      · cases k with
        | zero =>
            simp only [List.getElem?_cons_zero, Option.some.injEq] at hk
            subst hk
            rfl
        | succ k =>
            rw [List.getElem?_cons_succ] at hk
            have hsucc : Fin.ofNat 4 (k + 1 + 1) = Fin.ofNat 4 (k + 1) + 1 := by
              apply Fin.ext
              simp [Fin.val_add]
            rw [hsucc, ← add_assoc, h.tags k y (remaining_getElem? hc hk)]
      · exact h.tags k y (remaining_getElem? hc hk)

/-- The invariant is kept by every edge. -/
theorem Inv.step (h : Inv init x) (hc : x.Contract ex1Bypass i) :
    Inv init (x.step ex1Bypass i) := by
  have hfiles : (∀ r, (x.step ex1Bypass i).files.gpr r =
        youngest (Insn.writes r) (·.results.gpr) (init.gpr r) (x.step ex1Bypass i).committed) ∧
      (x.step ex1Bypass i).files.cr =
        youngest Insn.writesCr (·.results.cr) init.cr (x.step ex1Bypass i).committed ∧
      (x.step ex1Bypass i).files.xerc =
        youngest Insn.writesOv (·.results.xerc) init.xerc (x.step ex1Bypass i).committed := by
    simp only [Sys.step, Sys.filesNow]
    cases hdone : x.completing i with
    | none => exact ⟨h.gprFile, h.crFile, h.xercFile⟩
    | some y =>
        simp only [Option.toList_some, List.singleton_append, youngest_cons, Files.write]
        rw [← h.crFile, ← h.xercFile]
        exact ⟨fun r => by rw [← h.gprFile], rfl, rfl⟩
  cases hflush : i.rst || i.flushIn with
  | true =>
      have hempty := @inFlight_step_flush ex1Bypass x i hflush
      have hreg : ∀ t, (tagRegNext ex1Bypass x.control i.toInput t).valid = false ∧
          (tagRegNext ex1Bypass x.control i.toInput t).wrCr = false ∧
          (tagRegNext ex1Bypass x.control i.toInput t).wrOv = false := by
        intro t
        simp [tagRegNext, hflush]
      refine ⟨hc.room, h.tags_step hc, fun r => ?_, ?_, ?_, hfiles.1, hfiles.2.1, hfiles.2.2⟩
      · rw [hempty]
        refine Marks.nil fun t ht => ?_
        exact Bool.noConfusion ((hreg t).1.symm.trans ht.1)
      · rw [hempty]
        refine Marks.nil fun t ht => ?_
        exact Bool.noConfusion ((hreg t).2.1.symm.trans ht.2)
      · rw [hempty]
        refine Marks.nil fun t ht => ?_
        exact Bool.noConfusion ((hreg t).2.2.symm.trans ht.2)
  | false =>
      rw [Bool.or_eq_false_iff] at hflush
      obtain ⟨hr, hf⟩ := hflush
      refine ⟨hc.room, h.tags_step hc, fun r => ?_, ?_, ?_, hfiles.1, hfiles.2.1, hfiles.2.2⟩
      · refine h.marks_step hc hr hf (h.gpr r) fun t => ?_
        rw [show (x.step ex1Bypass i).control = Control.step ex1Bypass x.control i.toInput from rfl,
          gprMark_step hr hf]
        simp [Insn.writes, Sys.presented]
      · exact h.marks_step hc hr hf h.cr (crMark_step hr hf)
      · exact h.marks_step hc hr hf h.ov (ovMark_step hr hf)

end

/-! ## The operands -/

section

variable {ex1Bypass : Bool} {x : Sys} {i : SysInput} {init : Files} {g : GprRead} {b : BypassData}
  {w y : Insn} {k kw : Nat}

theorem youngest_history {α : Type} {p : Insn → Bool} {f : Insn → α} {a : α} :
    youngest p f a x.history =
      match x.inFlight.find? p with
      | some y => f y
      | none => youngest p f a x.committed := by
  unfold youngest Sys.history
  rw [List.find?_append]
  cases x.inFlight.find? p <;> rfl

/-- The place of the youngest writer. -/
theorem exists_place {p : Insn → Bool} {l : List Insn} (h : l.find? p = some w) :
    p w = true ∧
      ∃ kw : Nat, l[kw]? = some w ∧ ∀ (k : Nat) y, l[k]? = some y → p y = true → kw ≤ k := by
  obtain ⟨hp, kw, hlt, heq, hfirst⟩ := List.find?_eq_some_iff_getElem.mp h
  refine ⟨hp, kw, by rw [List.getElem?_eq_getElem hlt, heq], ?_⟩
  intro k y hk hy
  by_contra hlt'
  obtain ⟨hkl, hky⟩ := List.getElem?_eq_some_iff.mp hk
  have hno := hfirst k (by omega)
  rw [hky, hy] at hno
  simp at hno

theorem writes_iff {r : GsprIndex} :
    y.writes r = true ↔ y.flags.gprWriteValid = true ∧ y.flags.gprWrite = r := by
  simp [Insn.writes]

theorem Sys.Carries.data_eq (hb : x.Carries b k) (hw : x.inFlight[k]? = some w) :
    b.data = w.results.gpr := by
  obtain ⟨-, y, hy, -, -, hdata⟩ := hb
  obtain rfl := Option.some.inj (hy.symm.trans hw)
  exact hdata

/-- A bypass with the tag of an instruction in flight carries its result. -/
theorem Inv.carries_of_tag (h : Inv init x) (hb : x.Carries b k) (hw : x.inFlight[kw]? = some w)
    (ht : b.tag.tag = w.tag) {r : GsprIndex} (hr : w.writes r = true) : k = kw ∧ b.reg = r := by
  obtain ⟨-, y, hy, htag, hwr, -⟩ := hb
  have hk := h.place_eq hy hw (htag.trans ht)
  subst hk
  obtain rfl := Option.some.inj (hy.symm.trans hw)
  exact ⟨rfl, (writes_iff.mp hwr).2.symm.trans (writes_iff.mp hr).2⟩

/-- The selected bypass is one that is valid and has the register. -/
theorem gprBypass_cases (i : Input) (g : GprRead) :
    (gprBypass ex1Bypass i g = .execute ∧ i.executeNextBypass.tag.valid = true ∧
      i.executeNextBypass.reg = g.reg) ∨
    (¬(ex1Bypass = true ∧ i.executeNextBypass.tag.valid = true ∧
        i.executeNextBypass.reg = g.reg) ∧
      gprBypass ex1Bypass i g = .execute2 ∧ i.execute2NextBypass.tag.valid = true ∧
      i.execute2NextBypass.reg = g.reg) ∨
    (¬(ex1Bypass = true ∧ i.executeNextBypass.tag.valid = true ∧
        i.executeNextBypass.reg = g.reg) ∧
      ¬(ex1Bypass = true ∧ i.execute2NextBypass.tag.valid = true ∧
        i.execute2NextBypass.reg = g.reg) ∧
      ((gprBypass ex1Bypass i g = .writeback ∧ i.writebackBypass.tag.valid = true ∧
        i.writebackBypass.reg = g.reg) ∨ gprBypass ex1Bypass i g = .none)) := by
  unfold gprBypass
  simp only [Bool.and_eq_true, beq_iff_eq]
  split_ifs <;> simp_all

/-- Without a writer in flight the operand comes from the file. -/
theorem gprOperand_of_none (hc : x.Contract ex1Bypass i)
    (hnone : x.inFlight.find? (Insn.writes g.reg) = none) :
    x.gprOperand ex1Bypass i g = x.files.gpr g.reg := by
  have hnot : ∀ y ∈ x.inFlight, y.writes g.reg = false := by
    intro y hy
    simpa using List.find?_eq_none.mp hnone y hy
  have hbus : ∀ b : BypassData, (∃ k, x.Carries b k) → b.reg ≠ g.reg := by
    rintro b ⟨k, -, y, hy, -, hwr, -⟩ heq
    rw [heq, hnot y (List.mem_of_getElem? hy)] at hwr
    cases hwr
  have hbyp : gprBypass ex1Bypass i.toInput g = .none := by
    rcases @gprBypass_cases ex1Bypass i.toInput g with
      ⟨-, hv, heq⟩ | ⟨-, -, hv, heq⟩ | ⟨-, -, ⟨-, hv, heq⟩ | hn⟩
    · exact absurd heq (hbus _ (hc.execute hv))
    · exact absurd heq (hbus _ (hc.execute2 hv))
    · exact absurd heq (hbus _ (hc.writeback hv))
    · exact hn
  rw [Sys.gprOperand, hbyp]
  simp only [Sys.filesNow]
  rcases completing_cases hc with ⟨-, hdone, -⟩ | ⟨y, -, hdone, -, heq⟩
  · rw [hdone]
  · rw [hdone]
    simp only [Files.write]
    rw [if_neg]
    rw [hnot y (by rw [heq]; simp)]
    simp

/-- A result that is on a bypass or written back is the operand, if it is that of the youngest
writer. -/
theorem Inv.gprOperand_of_available (h : Inv init x) (hc : x.Contract ex1Bypass i)
    (hw : x.inFlight.find? (Insn.writes g.reg) = some w)
    (hav : available ex1Bypass i.toInput ⟨w.tag, true⟩ = true) :
    x.gprOperand ex1Bypass i g = w.results.gpr := by
  obtain ⟨hwr, kw, hkw, hfirst⟩ := exists_place hw
  have hplace : ∀ (b : BypassData) (k : Nat), x.Carries b k → b.reg = g.reg → kw ≤ k := by
    rintro b k ⟨-, y, hy, -, hyw, -⟩ heq
    rw [heq] at hyw
    exact hfirst k y hy hyw
  simp only [available, tagMatch, Bool.or_eq_true, Bool.and_eq_true, beq_iff_eq,
    Bool.and_true] at hav
  -- it is enough that the bypass that is selected carries the youngest writer
  rcases hav with (⟨hex, hv, ht⟩ | ⟨hex, hv, ht⟩) | ⟨hv, ht⟩
  · obtain ⟨k, hk⟩ := hc.execute hv
    obtain ⟨rfl, hreg⟩ := h.carries_of_tag hk hkw ht hwr
    rcases @gprBypass_cases ex1Bypass i.toInput g with ⟨hb, -⟩ | ⟨hno, -⟩ | ⟨hno, -⟩
    · rw [Sys.gprOperand, hb]
      exact hk.data_eq hkw
    · exact absurd ⟨hex, hv, hreg⟩ hno
    · exact absurd ⟨hex, hv, hreg⟩ hno
  · obtain ⟨k, hk⟩ := hc.execute2 hv
    obtain ⟨rfl, hreg⟩ := h.carries_of_tag hk hkw ht hwr
    rcases @gprBypass_cases ex1Bypass i.toInput g with ⟨hb, hv1, hr1⟩ | ⟨-, hb, -⟩ | ⟨-, hno, -⟩
    · -- a result before it is younger, so it is the same
      obtain ⟨k1, hk1⟩ := hc.execute hv1
      have hle := hc.executeFirst k1 k hk1 hk
      have hge := hplace _ k1 hk1 hr1
      obtain rfl : k1 = k := by omega
      rw [Sys.gprOperand, hb]
      exact hk1.data_eq hkw
    · rw [Sys.gprOperand, hb]
      exact hk.data_eq hkw
    · exact absurd ⟨hex, hv, hreg⟩ hno
  · -- the oldest instruction is the only writer
    obtain ⟨y, -, hdone, hyt, heq⟩ := (completing_cases hc).resolve_left (by simp [hv])
    have hyl : x.inFlight[(x.remaining i).length]? = some y := by
      rw [heq]
      simp
    have hlast := h.place_eq hkw hyl (hyt.trans ht).symm
    have hlen : x.inFlight.length = kw + 1 := by
      rw [heq, hlast]
      simp
    have honly : ∀ (b : BypassData), (∃ k, x.Carries b k) → b.reg = g.reg →
        b.data = w.results.gpr := by
      rintro b ⟨k, hk⟩ hreg
      have hge := hplace b k hk hreg
      obtain ⟨-, z, hz, -⟩ := id hk
      have hlt := (List.getElem?_eq_some_iff.mp hz).1
      obtain rfl : k = kw := by omega
      exact hk.data_eq hkw
    rw [Sys.gprOperand]
    rcases @gprBypass_cases ex1Bypass i.toInput g with
      ⟨hb, hv1, hr1⟩ | ⟨-, hb, hv1, hr1⟩ | ⟨-, -, ⟨hb, hv1, hr1⟩ | hb⟩
    · rw [hb]
      exact honly _ (hc.execute hv1) hr1
    · rw [hb]
      exact honly _ (hc.execute2 hv1) hr1
    · rw [hb]
      exact honly _ (hc.writeback hv1) hr1
    · rw [hb]
      have hwy : w = y := by
        rw [hlast] at hkw
        exact Option.some.inj (hkw.symm.trans hyl)
      simp only [Sys.filesNow, hdone, Files.write]
      rw [← hwy, if_pos hwr]

/-- A source register of an instruction that is not held back. -/
theorem Inv.gprOperand_eq (h : Inv init x) (hc : x.Contract ex1Bypass i) (hg : g.valid = true)
    (hstall : (gprTag ex1Bypass x.control i.toInput g).valid = false) :
    x.gprOperand ex1Bypass i g =
      youngest (Insn.writes g.reg) (·.results.gpr) (init.gpr g.reg) x.history := by
  rw [youngest_history]
  cases hw : x.inFlight.find? (Insn.writes g.reg) with
  | none =>
      rw [gprOperand_of_none hc hw]
      exact h.gprFile g.reg
  | some w =>
      refine h.gprOperand_of_available hc hw ?_
      obtain ⟨hv, hrec, hreg⟩ := (h.gpr g.reg w.tag).mpr ⟨w, hw, rfl⟩
      unfold gprTag at hstall
      rcases Select.foldl_last_cases (recentWriter x.control g)
        (fun t => (⟨t, !available ex1Bypass i.toInput ⟨t, true⟩⟩ : InstrTag)) ⟨0, false⟩
        (List.finRange 4) with ⟨hnone, -⟩ | ⟨t, -, ht, heq⟩
      · have hno := hnone w.tag (List.mem_finRange _)
        simp [recentWriter, hv, hrec, hreg, hg] at hno
      · -- the only recent writer is the youngest
        simp only [recentWriter, Bool.and_eq_true, beq_iff_eq] at ht
        obtain ⟨z, hz, rfl⟩ := (h.gpr g.reg t).mp ⟨ht.1.1.1, ht.1.1.2, ht.1.2⟩
        obtain rfl := Option.some.inj (hw.symm.trans hz)
        rw [heq] at hstall
        simpa using hstall

end

section

variable {ex1Bypass : Bool} {x : Sys} {i : SysInput} {init : Files}

/-- With no writer in flight but the one that completes, a file is right once it has the write of
the same cycle. -/
theorem fileNow_eq {α : Type} {p : Insn → Bool} {f : Insn → α} {a file now : α}
    (hc : x.Contract ex1Bypass i) (hfile : file = youngest p f a x.committed)
    (hnow : now = match x.completing i with
      | some y => if p y then f y else file
      | none => file)
    (hdone : ∀ w, x.inFlight.find? p = some w → x.completing i = some w) :
    now = youngest p f a x.history := by
  rw [youngest_history, hnow, hfile]
  cases hw : x.inFlight.find? p with
  | some w => simp [hdone w hw, List.find?_some hw]
  | none =>
      rcases completing_cases hc with ⟨-, hnone, -⟩ | ⟨y, -, hsome, -, heq⟩
      · rw [hnone]
      · have hy := List.find?_eq_none.mp hw y (by rw [heq]; simp)
        simp [hsome, hy]

/-- The instruction in flight with the tag that completes. -/
theorem Inv.completing_of_tag (h : Inv init x) (hc : x.Contract ex1Bypass i) {w : Insn}
    (hw : w ∈ x.inFlight) (hv : i.completeIn.valid = true) (ht : w.tag = i.completeIn.tag) :
    x.completing i = some w := by
  obtain ⟨y, -, hdone, hyt, heq⟩ := (completing_cases hc).resolve_left (by simp [hv])
  have hy : y ∈ x.inFlight := by
    rw [heq]
    simp
  rw [hdone, h.eq_of_tag hy hw (hyt.trans ht.symm)]

/-- The CR of an instruction that is not held back. -/
theorem Inv.crOperand_eq (h : Inv init x) (hc : x.Contract ex1Bypass i)
    (hread : i.insn.crRead = true)
    (hstall : crTagStall ex1Bypass x.control i.toInput = false) :
    x.crOperand ex1Bypass i = youngest Insn.writesCr (·.results.cr) init.cr x.history := by
  by_cases hvalid : (tagCr x.control i.toInput).valid = true
  · -- the youngest writer is in flight, and its result on a bypass
    have htag : tagCr x.control i.toInput = ⟨x.control.currCrTag, true⟩ ∧
        (x.control.tagRegs x.control.currCrTag).wrCr = true := by
      unfold tagCr at hvalid ⊢
      simp only [hread, Bool.true_and] at hvalid ⊢
      split_ifs at hvalid ⊢ with hm
      have hw : (x.control.tagRegs x.control.currCrTag).wrCr = true := hvalid
      exact ⟨by rw [hw], hw⟩
    obtain ⟨w, hw, hwt⟩ := (h.cr x.control.currCrTag).mp ⟨rfl, htag.2⟩
    have hmem := List.mem_of_find?_eq_some hw
    have hcarry : ∀ b : CrBypassData, x.CarriesCr b → b.tag.tag = x.control.currCrTag →
        b.data = w.results.cr := by
      rintro b ⟨y, hy, hyt, -, hdata⟩ hbt
      rw [hdata, h.eq_of_tag hy hmem (hyt.trans (hbt.trans hwt.symm))]
    rw [youngest_history, hw, Sys.crOperand]
    have hsel : crBypass ex1Bypass x.control i.toInput ≠ .none := by
      simpa [crTagStall, hvalid] using hstall
    unfold crBypass at hsel ⊢
    rw [htag.1] at hsel ⊢
    split_ifs at hsel ⊢ with h1 h2
    · simp only [tagMatch, Bool.and_eq_true, beq_iff_eq] at h1
      exact hcarry _ (hc.executeCr h1.2.1.1) h1.2.2
    · simp only [tagMatch, Bool.and_eq_true, beq_iff_eq] at h2
      exact hcarry _ (hc.execute2Cr h2.2.1.1) h2.2.2
    · exact absurd rfl hsel
  · -- the youngest writer completes, or has completed
    have hbyp : crBypass ex1Bypass x.control i.toInput = .none := by
      simp [crBypass, tagMatch, hvalid]
    rw [Sys.crOperand, hbyp]
    refine fileNow_eq hc h.crFile ?_ ?_
    · simp only [Sys.filesNow]
      cases x.completing i <;> rfl
    · intro w hw
      obtain ⟨ht, hwr⟩ := (h.cr w.tag).mpr ⟨w, hw, rfl⟩
      rw [ht] at hwr
      refine h.completing_of_tag hc (List.mem_of_find?_eq_some hw) ?_ ?_
      · by_contra hv
        exact hvalid (by simp [tagCr, tagMatch, hv, hread, hwr])
      · by_contra hne
        rw [ht] at hne
        exact hvalid (by simp [tagCr, tagMatch, hne, hread, hwr])

/-- The common bits of XER of an instruction that is not held back. -/
theorem Inv.xercOperand_eq (h : Inv init x) (hc : x.Contract ex1Bypass i)
    (hread : i.insn.ovRead = true) (hstall : (tagOv x.control i.toInput).valid = false) :
    x.xercOperand i = youngest Insn.writesOv (·.results.xerc) init.xerc x.history := by
  refine fileNow_eq hc h.xercFile ?_ ?_
  · simp only [Sys.xercOperand, Sys.filesNow]
    cases x.completing i <;> rfl
  · intro w hw
    obtain ⟨ht, hwr⟩ := (h.ov w.tag).mpr ⟨w, hw, rfl⟩
    rw [ht] at hwr
    refine h.completing_of_tag hc (List.mem_of_find?_eq_some hw) ?_ ?_
    · by_contra hv
      simp [tagOv, tagMatch, hv, hread, hwr] at hstall
    · by_contra hne
      rw [ht] at hne
      simp [tagOv, tagMatch, hne, hread, hwr] at hstall

end

/-- Every operand that the presented instruction reads is the result of the youngest instruction
that was issued before it, was not flushed and writes it. -/
structure OperandsRight (ex1Bypass : Bool) (init : Files) (x : Sys) (i : SysInput) : Prop where
  gpr : ∀ g, g = i.insn.gprA ∨ g = i.insn.gprB ∨ g = i.insn.gprC → g.valid = true →
    x.gprOperand ex1Bypass i g =
      youngest (Insn.writes g.reg) (·.results.gpr) (init.gpr g.reg) x.history
  cr : i.insn.crRead = true →
    x.crOperand ex1Bypass i = youngest Insn.writesCr (·.results.cr) init.cr x.history
  xerc : i.insn.ovRead = true →
    x.xercOperand i = youngest Insn.writesOv (·.results.xerc) init.xerc x.history

/-- Reset, with the registers as they were where reset leaves them. -/
def Sys.reset (s : State) (init : Files) : Sys where
  control :=
    { tagRegs := fun t =>
        { s.tagRegs t with wrGpr := false, wrCr := false, wrOv := false, valid := false }
      currTag := 0
      currCrTag := 0
      currOvTag := 0
      prevTag := 0 }
  inFlight := []
  committed := []
  files := init

theorem inv_reset (s : State) (init : Files) : Inv init (Sys.reset s init) := by
  refine ⟨by simp [Sys.reset], ?_, ?_, ?_, ?_, fun _ => rfl, rfl, rfl⟩
  · intro k y hk
    simp [Sys.reset] at hk
  · exact fun r => Marks.nil fun t ht => Bool.noConfusion ht.1
  · exact Marks.nil fun t ht => Bool.noConfusion ht.2
  · exact Marks.nil fun t ht => Bool.noConfusion ht.2

/-- In every run from reset, an instruction that is let through has the right operands. -/
theorem operands_right (ex1Bypass : Bool) (s : State) (init : Files) (is : List SysInput)
    (i : SysInput)
    (hrun : Along (Sys.step ex1Bypass) (Sys.Contract ex1Bypass) (Sys.reset s init) is)
    (hc : (run (Sys.step ex1Bypass) (Sys.reset s init) is).Contract ex1Bypass i)
    (hout : validOut ex1Bypass (run (Sys.step ex1Bypass) (Sys.reset s init) is).control i.toInput =
      true) :
    OperandsRight ex1Bypass init (run (Sys.step ex1Bypass) (Sys.reset s init) is) i := by
  have hinv := hrun.invariant (fun x i hc h => Inv.step h hc) (inv_reset s init)
  simp only [validOut, Bool.and_eq_true, Bool.not_eq_true', Bool.or_eq_false_iff] at hout
  obtain ⟨-, ⟨⟨hgpr, hcr⟩, hov⟩, -⟩ := hout
  simp only [gprTagStall, Bool.or_eq_false_iff] at hgpr
  refine ⟨?_, fun hread => hinv.crOperand_eq hc hread hcr,
    fun hread => hinv.xercOperand_eq hc hread hov⟩
  rintro g (rfl | rfl | rfl) hg
  · exact hinv.gprOperand_eq hc hg hgpr.1.1
  · exact hinv.gprOperand_eq hc hg hgpr.1.2
  · exact hinv.gprOperand_eq hc hg hgpr.2

/-- A cycle in which an instruction is presented and nothing is on the bypasses. -/
def presentOnly (p : Presented) (gpr : BitVec 64) : SysInput where
  rst := false
  completeIn := ⟨0, false⟩
  validIn := true
  flushIn := false
  deferred := false
  stopMarkIn := false
  insn := p
  executeNextBypass := ⟨⟨0, false⟩, 0, 0⟩
  execute2NextBypass := ⟨⟨0, false⟩, 0, 0⟩
  writebackBypass := ⟨⟨0, false⟩, 0, 0⟩
  executeNextCr := ⟨⟨0, false⟩, 0⟩
  execute2NextCr := ⟨⟨0, false⟩, 0⟩
  results := ⟨gpr, 0, 0⟩

/-- `li r3,7`. -/
def loadR3 : Presented :=
  ⟨true, 3, ⟨false, 0⟩, ⟨false, 0⟩, ⟨false, 0⟩, false, false, false, false, false⟩

/-- `mr r4,r3`. -/
def moveR3 : Presented :=
  ⟨true, 4, ⟨true, 3⟩, ⟨false, 0⟩, ⟨false, 0⟩, false, false, false, false, false⟩

/-- The second instruction comes right behind the first, whose result is on the bypass. -/
def moveInput : SysInput :=
  { presentOnly moveR3 7 with executeNextBypass := ⟨⟨0, true⟩, 3, 7⟩ }

def coldState : State :=
  ⟨fun _ => ⟨false, 0, false, false, false, false⟩, 0, 0, 0, 0⟩

def zeroFiles : Files :=
  ⟨fun _ => 0, 0, 0⟩

theorem operands_right_bypass :
    (run (Sys.step true) (Sys.reset coldState zeroFiles) [presentOnly loadR3 7]).gprOperand true
      moveInput ⟨true, 3⟩ = 7 := by
  have hfirst : (Sys.reset coldState zeroFiles).Contract true (presentOnly loadR3 7) := by
    refine ⟨nofun, by decide +kernel, nofun, nofun, nofun, ?_, nofun, nofun⟩
    rintro k k' ⟨hv, -⟩
    cases hv
  have hsecond : (run (Sys.step true) (Sys.reset coldState zeroFiles)
      [presentOnly loadR3 7]).Contract true moveInput := by
    refine ⟨nofun, by decide +kernel, fun _ => ?_, nofun, nofun, ?_, nofun, nofun⟩
    · exact ⟨0, rfl, _, rfl, rfl, rfl, rfl⟩
    · rintro k k' - ⟨hv, -⟩
      cases hv
  have hright := operands_right true coldState zeroFiles [presentOnly loadR3 7] moveInput
    ⟨hfirst, trivial⟩ hsecond (by decide +kernel)
  rw [hright.gpr ⟨true, 3⟩ (Or.inl rfl) rfl]
  rfl

end Microwatt.Control
