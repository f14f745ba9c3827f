import Microwatt.Spi.Header

/-!
# Reads of the memory map

The bits of a byte come in from the highest one on, and are all there when the shifter gives its
ack; the four bytes of a word are those at the address of the read.
-/

namespace Microwatt.Spi

open Clocked Soc

section

variable {g : Config} {f : Flash} {x : Sys} {e : Edge}

/-! ## Bits of a byte -/

theorem lines_mul_clks (s : State) : linesOf (autoCfgMode s) * byteClocks s = 8 := by
  unfold linesOf byteClocks modeToClks
  split_ifs <;> rfl

/-- The bits that a read mode takes at an edge stand lowest. -/
theorem getLsbD_shiftIn (dataLines : Nat) (s : State) (ireg : BitVec 8) (dat : BitVec 4)
    (hl : linesOf (autoCfgMode s) ≤ dataLines) {b : Nat} (hb : b < 8) :
    (shiftIn dataLines (autoCfgMode s ++ 0#1) ireg dat).getLsbD b =
      if b < linesOf (autoCfgMode s) then
        dat.getLsbD (if linesOf (autoCfgMode s) = 1 then (if dataLines = 1 then 0 else 1) else b)
      else ireg.getLsbD (b - linesOf (autoCfgMode s)) := by
  have hmode : ∀ m : BitVec 2, (dataDual (m ++ 0#1) = true ↔ m = modeDual) ∧
      (dataQuad (m ++ 0#1) = true ↔ m = modeQuad) := by decide
  obtain ⟨hdual, hquad⟩ := hmode (autoCfgMode s)
  unfold shiftIn
  by_cases h4 : autoCfgMode s = modeQuad
  · have hlines : linesOf (autoCfgMode s) = 4 := if_pos h4
    have hnd : ¬dataDual (autoCfgMode s ++ 0#1) = true := by
      rw [hdual, h4]
      decide
    rw [hlines] at hl ⊢
    rw [if_neg (by omega), if_neg hnd, if_pos (hquad.2 h4), BitVec.getLsbD_append]
    by_cases hb4 : b < 4
    · simp [hb4]
    · rw [if_neg hb4, if_neg hb4, BitVec.getLsbD_extractLsb', Nat.zero_add]
      simp [show b - 4 < 4 by omega]
  · by_cases h2 : autoCfgMode s = modeDual
    · have hlines : linesOf (autoCfgMode s) = 2 := by
        unfold linesOf
        rw [if_neg h4, if_pos h2]
      rw [hlines] at hl ⊢
      rw [if_neg (by omega), if_pos (hdual.2 h2), BitVec.getLsbD_append]
      by_cases hb2 : b < 2
      · rw [if_pos hb2, if_pos hb2, BitVec.getLsbD_extractLsb', Nat.zero_add]
        simp [hb2]
      · rw [if_neg hb2, if_neg hb2, BitVec.getLsbD_extractLsb', Nat.zero_add]
        simp [show b - 2 < 6 by omega]
    · have hlines : linesOf (autoCfgMode s) = 1 := by
        unfold linesOf
        rw [if_neg h4, if_neg h2]
      rw [hlines, if_neg (fun hc => h2 (hdual.1 hc)), if_neg (fun hc => h4 (hquad.1 hc)),
        if_pos rfl]
      -- one line, which is another one when there are more
      have hone : ∀ l, (ireg.extractLsb' 0 7 ++ BitVec.ofBool (dat.getLsbD l)).getLsbD b =
          if b < 1 then dat.getLsbD l else ireg.getLsbD (b - 1) := by
        intro l
        rw [BitVec.getLsbD_append]
        split_ifs with hb1
        · have : b = 0 := by omega
          simp [this]
        · rw [BitVec.getLsbD_extractLsb', Nat.zero_add]
          simp [show b - 1 < 7 by omega]
      by_cases h1 : dataLines = 1
      · rw [if_pos h1, if_pos h1]
        exact hone 0
      · rw [if_neg h1, if_neg h1]
        exact hone 1

/-- The level of a line that the flash drives. -/
theorem getLsbD_sdat_data (d : Device) (dataLines : Nat) (other : BitVec 4) {c : ReadCmd}
    (hdec : f.decode d.cmd = some c) (hshown : c.header ≤ d.shown) {b : Nat} (hb : b < c.lines)
    (hb4 : b < 4) :
    (d.sdat f dataLines other).getLsbD (if c.lines = 1 then (if dataLines = 1 then 0 else 1)
      else b) =
      d.bit f c b := by
  by_cases h1 : c.lines = 1
  · have hb0 : b = 0 := by omega
    have hl : (if dataLines = 1 then 0 else 1) < 4 := by split_ifs <;> omega
    rw [if_pos h1, Device.getLsbD_sdat _ _ _ _ hl, hb0]
    simp only [Device.line, hdec]
    rw [if_neg (by omega), if_pos h1]
    exact if_pos trivial
  · rw [if_neg h1, Device.getLsbD_sdat _ _ _ _ hb4]
    simp only [Device.line, hdec]
    rw [if_neg (by omega), if_neg h1, if_pos hb]

theorem extractLsb_setByte (d : BitVec 32) (j m : Fin 4) (b : BitVec 8) :
    (setByte d j b).extractLsb' (8 * m.val) 8 =
      if m = j then b else d.extractLsb' (8 * m.val) 8 := by
  ext i hi
  have hff : ∀ n, (0xff#32).getLsbD n = decide (n < 8) := by
    intro n
    by_cases hn : n < 32
    · have hall : ∀ n < 32, (0xff#32).getLsbD n = decide (n < 8) := by decide
      exact hall n hn
    · rw [BitVec.getLsbD_of_ge _ _ (by omega)]
      simp
      omega
  have hm := m.isLt
  have hj := j.isLt
  rw [BitVec.getElem_extractLsb', setByte, BitVec.getLsbD_or, BitVec.getLsbD_and,
    BitVec.getLsbD_not, BitVec.getLsbD_shiftLeft, BitVec.getLsbD_shiftLeft, hff,
    BitVec.getLsbD_setWidth]
  by_cases hmj : m = j
  · subst hmj
    rw [if_pos rfl]
    simp [show 8 * m.val + i < 32 by omega, hi]
    intro hlt
    omega
  · rw [if_neg hmj, BitVec.getElem_extractLsb']
    have hne : m.val ≠ j.val := fun hc => hmj (Fin.ext hc)
    by_cases hlt : 8 * m.val + i < 8 * j.val
    · simp [hlt, show 8 * m.val + i < 32 by omega]
    · have hge : ¬8 * m.val + i - 8 * j.val < 8 := by omega
      have h8 : b.getLsbD (8 * m.val + i - 8 * j.val) = false :=
        BitVec.getLsbD_of_ge _ _ (by omega)
      simp [h8, hge, show 8 * m.val + i < 32 by omega]

/-- A byte of the word that comes next. -/
def wordByte (f : Flash) (x : Sys) (j : Nat) : BitVec 8 :=
  f.mem (x.first % 2 ^ (8 * addrBytes x.st) + 4 * x.words + j)

/-- The pieces of the byte that the shifter has. -/
def pieces (s : State) : Nat :=
  byteClocks s - left s.rxtx - (if s.rxtx.sckRecvD then 1 else 0)

/-- The bytes of the word that the machine has. -/
def got : AutoState → Nat
  | .dat j | .datData j => j.val
  | .sendAck => 4
  | _ => 0

structure Data (g : Config) (f : Flash) (x : Sys) : Prop where
  fresh : ∀ j, x.st.autoState = .datData j → x.st.rxtx.sckRecvD = true →
    left x.st.rxtx < byteClocks x.st
  bits : Suits g f x.st → ∀ j, x.st.autoState = .datData j →
    ∀ b < linesOf (autoCfgMode x.st) * pieces x.st, x.st.rxtx.ireg.getLsbD b =
      (wordByte f x j).getLsbD (8 - linesOf (autoCfgMode x.st) * pieces x.st + b)
  bytes : Suits g f x.st → ∀ m : Fin 4, m.val < got x.st.autoState →
    x.st.autoData.extractLsb' (8 * m.val) 8 = wordByte f x m

/-- The flash has the address when data comes. -/
theorem Header.adr_data (h : Header g f x) (hsel : selected x.st.autoState = true)
    (hsuits : Suits g f x.st) (hclk : headerClocks x.st ≤ x.dev.clocks) :
    x.dev.adr = x.first % 2 ^ (8 * addrBytes x.st) ∧ x.dev.cmd = autoCfgCmd x.st := by
  have hhdr : 8 + 8 * addrBytes x.st ≤ headerClocks x.st := Nat.le_add_right _ _
  refine ⟨?_, ?_⟩
  · rw [h.adr hsel hsuits, show 8 * addrBytes x.st - (x.dev.clocks - 8) = 0 by omega, pow_zero,
      Nat.div_one]
  · rw [h.cmd hsel, show 8 - x.dev.clocks = 0 by omega, BitVec.ushiftRight_zero]

/-- While a bit is sampled, the flash shows the piece that comes next. -/
theorem sampled_bit (h : Header g f x) (hc : Count x) (hd : Data g f x) {j : Fin 4}
    (hst : x.st.autoState = .datData j) (hsuits : Suits g f x.st)
    (hrd : x.st.rxtx.sckRecvD = true) {b : Nat} (hb : b < linesOf (autoCfgMode x.st)) :
    ((x.input g f e).sdatI).getLsbD
        (if linesOf (autoCfgMode x.st) = 1 then (if g.dataLines = 1 then 0 else 1) else b) =
      (wordByte f x j).getLsbD
        (8 - linesOf (autoCfgMode x.st) * (pieces x.st + 1) + b) := by
  have hsel : selected x.st.autoState = true := by rw [hst]; rfl
  have hclocks : x.dev.clocks + left x.st.rxtx =
      headerClocks x.st + byteClocks x.st * (4 * x.words + j.val + 1) := by
    rw [hc.clocks hsel, issued, hst]
  have hshown := (hc.shown hsel).2 hrd
  have hfresh := hd.fresh j hst hrd
  have hpieces : pieces x.st = byteClocks x.st - left x.st.rxtx - 1 := by simp [pieces, hrd]
  have hmul : byteClocks x.st * (4 * x.words + j.val + 1) =
      byteClocks x.st * (4 * x.words + j.val) + byteClocks x.st := by ring
  have h8 := lines_mul_clks x.st
  obtain ⟨hadr, hcmd⟩ := h.adr_data hsel hsuits (by omega)
  have hdec : f.decode x.dev.cmd =
      some ⟨addrBytes x.st, dummyClocks x.st, linesOf (autoCfgMode x.st)⟩ := by
    rw [hcmd]
    exact hsuits.decode
  have hhdr : (ReadCmd.mk (addrBytes x.st) (dummyClocks x.st) (linesOf (autoCfgMode x.st))).header =
      headerClocks x.st := rfl
  have hlines4 : linesOf (autoCfgMode x.st) ≤ 4 := by
    unfold linesOf
    split_ifs <;> omega
  refine (getLsbD_sdat_data x.dev g.dataLines e.other hdec (by rw [hhdr]; omega) hb
    (by omega)).trans ?_
  -- the position of the piece in the stream
  have hpos : (x.dev.shown - headerClocks x.st) * linesOf (autoCfgMode x.st) =
      8 * (4 * x.words + j.val) + linesOf (autoCfgMode x.st) * pieces x.st := by
    have hs : x.dev.shown - headerClocks x.st =
        byteClocks x.st * (4 * x.words + j.val) + pieces x.st := by omega
    rw [hs, ← h8]
    ring
  have hlt : linesOf (autoCfgMode x.st) * pieces x.st + linesOf (autoCfgMode x.st) ≤ 8 := by
    rw [← h8, ← Nat.mul_succ]
    exact Nat.mul_le_mul_left _ (by omega)
  show (f.mem (x.dev.adr + (x.dev.shown - headerClocks x.st) * linesOf (autoCfgMode x.st) /
      8)).getLsbD
    (8 - (x.dev.shown - headerClocks x.st) * linesOf (autoCfgMode x.st) % 8 -
      linesOf (autoCfgMode x.st) + b) = _
  have hdiv : linesOf (autoCfgMode x.st) * pieces x.st / 8 = 0 := Nat.div_eq_of_lt (by omega)
  have hmod : linesOf (autoCfgMode x.st) * pieces x.st % 8 =
      linesOf (autoCfgMode x.st) * pieces x.st := Nat.mod_eq_of_lt (by omega)
  rw [hpos, hadr, wordByte, Nat.mul_add_div (by omega), Nat.mul_add_mod, hdiv, hmod]
  congr 2
  · ring_nf
  · rw [Nat.mul_succ]
    omega

/-! ## One edge -/

theorem suits_step (hst : x.st.autoState ≠ .idle) (hr : ctrlReset x.st = false)
    (hs : Suits g f (x.step g f e).st) : Suits g f x.st :=
  hs.congr (autoCfg_step hst hr)

theorem wordByte_congr (hcfg : (x.step g f e).st.autoCfg = x.st.autoCfg)
    (hfirst : (x.step g f e).first = x.first) (hw : (x.step g f e).words = x.words) (j : Nat) :
    wordByte f (x.step g f e) j = wordByte f x j := by
  unfold wordByte
  rw [hfirst, hw, (lengths_congr hcfg).1]

/-- While a byte comes in, each edge that samples adds a piece to it. -/
theorem bits_step (h : Header g f x) (hc : Count x) (hd : Data g f x) {j : Fin 4}
    (hst : x.st.autoState = .datData j) (hok : x.st.rxtx.Ok) (hack : Acks x.st)
    (hs : startCmd x.st.rxtx (cmdOut g x.st (x.input g f e)) = false) (hsuits : Suits g f x.st)
    (hcfg : (x.step g f e).st.autoCfg = x.st.autoCfg) :
    ∀ b < linesOf (autoCfgMode x.st) * pieces (x.step g f e).st,
      (x.step g f e).st.rxtx.ireg.getLsbD b = (wordByte f x j).getLsbD
        (8 - linesOf (autoCfgMode x.st) * pieces (x.step g f e).st + b) := by
  obtain ⟨hmode, hle, -⟩ := hack.data j hst
  have hleft : left (x.step g f e).st.rxtx =
      if rises x.st.rxtx then left x.st.rxtx - 1 else left x.st.rxtx := left_of_not_start hok hs
  have hclks := (lengths_congr hcfg).2.2
  have hpieces : pieces (x.step g f e).st = byteClocks x.st - left x.st.rxtx := by
    unfold pieces
    rw [hclks, hleft, sckRecvD_step]
    by_cases hr : rises x.st.rxtx = true
    · have := hok.left_pos_of_rises hr
      simp only [hr, if_true]
      omega
    · simp [hr]
  have hireg : (x.step g f e).st.rxtx.ireg =
      if x.st.rxtx.sckRecvD then
        shiftIn g.dataLines x.st.rxtx.cmdMode x.st.rxtx.ireg (x.input g f e).sdatI
      else x.st.rxtx.ireg := rfl
  intro b hb
  rw [hpieces] at hb ⊢
  rw [hireg]
  cases hrd : x.st.rxtx.sckRecvD with
  | false =>
      have hsame : pieces x.st = byteClocks x.st - left x.st.rxtx := by simp [pieces, hrd]
      have := hd.bits hsuits j hst b (by rwa [hsame])
      rw [hsame] at this
      exact this
  | true =>
      have hfresh := hd.fresh j hst hrd
      have hsucc : byteClocks x.st - left x.st.rxtx = pieces x.st + 1 := by
        simp only [pieces, hrd, if_true]
        omega
      have h8 : linesOf (autoCfgMode x.st) * (pieces x.st + 1) ≤ 8 := by
        rw [← lines_mul_clks x.st]
        exact Nat.mul_le_mul_left _ (by omega)
      rw [hsucc] at hb ⊢
      rw [Nat.mul_succ] at h8 hb
      rw [if_pos rfl, hmode, getLsbD_shiftIn _ _ _ _ hsuits.lines (by omega)]
      by_cases hlow : b < linesOf (autoCfgMode x.st)
      · -- the piece that is sampled now
        rw [if_pos hlow]
        exact sampled_bit h hc hd hst hsuits hrd hlow
      · rw [if_neg hlow, hd.bits hsuits j hst _ (by omega), Nat.mul_succ]
        congr 1
        omega

/-- When the shifter gives its ack, the byte is there. -/
theorem ireg_of_dAck (hd : Data g f x) {j : Fin 4} (hst : x.st.autoState = .datData j)
    (hack : Acks x.st) (hv : x.st.rxtx.dAck = true) (hsuits : Suits g f x.st) :
    x.st.rxtx.ireg = wordByte f x j := by
  obtain ⟨hz, hrd⟩ : left x.st.rxtx = 0 ∧ x.st.rxtx.sckRecvD = false := by
    obtain ⟨-, -, ⟨-, -, hn⟩ | ⟨-, -, hn⟩ | ⟨hz, -, -, hrd⟩⟩ := hack.data j hst
    · rw [hv] at hn; cases hn
    · rw [hv] at hn; cases hn
    · exact ⟨hz, hrd⟩
  have hall : linesOf (autoCfgMode x.st) * pieces x.st = 8 := by
    simp [pieces, hz, hrd, lines_mul_clks]
  apply BitVec.eq_of_getLsbD_eq
  intro b hb
  have := hd.bits hsuits j hst b (by omega)
  rwa [hall, Nat.sub_self, Nat.zero_add] at this

theorem autoData_step :
    (x.step g f e).st.autoData = (autoComb g x.st (x.input g f e)).dataNext := rfl

/-- A state that waits for no byte, with the bytes that it had. -/
theorem Data.of_keeps (hd : Data g f x) (hst : x.st.autoState ≠ .idle) (hr : ctrlReset x.st = false)
    (hdata : (x.step g f e).st.autoData = x.st.autoData) (hw : (x.step g f e).words = x.words)
    (hst' : ∀ j, (x.step g f e).st.autoState ≠ .datData j)
    (hgot : got (x.step g f e).st.autoState ≤ got x.st.autoState) : Data g f (x.step g f e) := by
  refine ⟨fun j hj => absurd hj (hst' j), fun _ j hj => absurd hj (hst' j), fun hs m hm => ?_⟩
  rw [hdata, wordByte_congr (autoCfg_step hst hr) (first_step hst) hw]
  exact hd.bytes (suits_step hst hr hs) m (by omega)

theorem Data.of_none (hst' : ∀ j, (x.step g f e).st.autoState ≠ .datData j)
    (hgot : got (x.step g f e).st.autoState = 0) : Data g f (x.step g f e) := by
  refine ⟨fun j hj => absurd hj (hst' j), fun _ j hj => absurd hj (hst' j), fun _ m hm => ?_⟩
  rw [hgot] at hm
  omega

theorem Data.step (hd : Data g f x) (h : Header g f x) (hc : Count x) (hok : x.st.rxtx.Ok)
    (hack : Acks x.st) (hb : Bus x) : Data g f (x.step g f e) := by
  by_cases hr : ctrlReset x.st = true
  · have hnext : (x.step g f e).st.autoState = .boot := by
      simp [autoState_step, autoComb, hr, AutoOut.default]
    exact .of_none (by simp [hnext]) (by rw [hnext]; rfl)
  simp only [Bool.not_eq_true] at hr
  cases move (g := g) (i := x.input g f e) hr hb.cs with
  | stay hnext hs hkeeps _ hbyte =>
      have hst' : (x.step g f e).st.autoState = x.st.autoState := hnext
      have hdata : (x.step g f e).st.autoData = x.st.autoData := hkeeps.data
      by_cases hdat : ∃ j, x.st.autoState = .datData j
      · obtain ⟨j, hj⟩ := hdat
        have hidle : x.st.autoState ≠ .idle := by simp [hj]
        have hcfg := autoCfg_step (g := g) (f := f) (e := e) hidle hr
        have hw : (x.step g f e).words = x.words := words_step (by simp [hst', hj]) (by simp [hj])
        have hword := wordByte_congr hcfg (first_step hidle) hw
        have hmode : autoCfgMode (x.step g f e).st = autoCfgMode x.st := by
          unfold autoCfgMode
          rw [hcfg]
        refine ⟨fun k _ hrd => ?_, fun hsuits k hk => ?_, fun hsuits m hm => ?_⟩
        · -- the bit that was just sampled is no longer left
          rw [sckRecvD_step] at hrd
          have hpos := hok.left_pos_of_rises hrd
          have hle := (hack.data j hj).2.1
          have hleft : left (x.step g f e).st.rxtx =
              if rises x.st.rxtx then left x.st.rxtx - 1 else left x.st.rxtx :=
            left_of_not_start hok hs
          rw [hleft, if_pos hrd, (lengths_congr hcfg).2.2]
          omega
        · obtain rfl : k = j := by
            rw [hst', hj] at hk
            cases hk
            rfl
          rw [hmode, hword]
          exact bits_step h hc hd hj hok hack hs (hsuits.congr hcfg) hcfg
        · rw [hdata, hword]
          rw [hst'] at hm
          exact hd.bytes (hsuits.congr hcfg) m hm
      · have hnd : ∀ j, x.st.autoState ≠ .datData j := fun j hj => hdat ⟨j, hj⟩
        by_cases hgot : got x.st.autoState = 0
        · exact .of_none (by rwa [hst']) (by rw [hst', hgot])
        · have hidle : x.st.autoState ≠ .idle := fun hc' => hgot (by rw [hc']; rfl)
          refine hd.of_keeps hidle hr hdata ?_ (by rwa [hst']) (by rw [hst'])
          exact (words_stay hst').resolve_right fun hc' => hgot (by rw [hc']; rfl)
  | send q hq hs _ hclks _ hnext hkeeps =>
      have hst' : (x.step g f e).st.autoState = q.next := hnext
      have hdata : (x.step g f e).st.autoData = x.st.autoData := hkeeps.data
      rcases sending_next hq with ⟨-, hq'⟩ | ⟨j, hq', -⟩ | ⟨-, hq', -⟩ | ⟨-, hq'⟩ | ⟨j, hj, hq'⟩
      · exact .of_none (by simp [hst', hq']) (by rw [hst', hq']; rfl)
      · exact .of_none (by simp [hst', hq']) (by rw [hst', hq']; rfl)
      · exact .of_none (by simp [hst', hq']) (by rw [hst', hq']; rfl)
      · exact .of_none (by simp [hst', hq']) (by rw [hst', hq']; rfl)
      · -- the command of a byte: nothing of it has come
        rw [hq'] at hst'
        have hidle : x.st.autoState ≠ .idle := by simp [hj]
        have hcfg := autoCfg_step (g := g) (f := f) (e := e) hidle hr
        have hw : (x.step g f e).words = x.words := words_step (by simp [hst']) (by simp [hj])
        have hz : left x.st.rxtx = 0 := by
          simp only [startCmd, Bool.and_eq_true] at hs
          exact left_of_nextCmd hs.1
        have hrd := not_sckRecvD_of_left (g := g) (f := f) (e := e) hok hz
        have hleft : left (x.step g f e).st.rxtx = byteClocks x.st := by
          refine (left_of_startCmd hok hs).trans ?_
          rw [hclks]
          simp only [sending, hj] at hq
          rw [← Option.some.inj hq]
          rfl
        have hpieces : pieces (x.step g f e).st = 0 := by
          simp [pieces, hleft, (lengths_congr hcfg).2.2]
        refine ⟨fun _ _ hc' => ?_, fun _ k _ b hb' => ?_, fun hsuits m hm => ?_⟩
        · rw [hrd] at hc'
          cases hc'
        · rw [hpieces, Nat.mul_zero] at hb'
          omega
        · rw [hdata, wordByte_congr hcfg (first_step hidle) hw]
          rw [hst'] at hm
          exact hd.bytes (hsuits.congr hcfg) m (by rw [hj]; exact hm)
  | noBoot _ hnext =>
      have hst' : (x.step g f e).st.autoState = .idle := hnext
      exact .of_none (by simp [hst']) (by rw [hst']; rfl)
  | select _ _ _ hnext =>
      have hst' : (x.step g f e).st.autoState = .csOn := hnext
      exact .of_none (by simp [hst']) (by rw [hst']; rfl)
  | command _ hnext =>
      have hst' : (x.step g f e).st.autoState = .cmd := hnext
      exact .of_none (by simp [hst']) (by rw [hst']; rfl)
  | byte j hst hv hnext hs hdata =>
      have hst' : (x.step g f e).st.autoState = afterByte j := hnext
      have hidle : x.st.autoState ≠ .idle := by simp [hst]
      have hcfg := autoCfg_step (g := g) (f := f) (e := e) hidle hr
      have hw : (x.step g f e).words = x.words := by
        refine words_step ?_ (by simp [hst])
        rw [hst']
        fin_cases j <;> rintro ⟨⟩
      have hnd : ∀ k, (x.step g f e).st.autoState ≠ .datData k := by
        rw [hst']
        fin_cases j <;> simp [afterByte]
      have hgot : got (x.step g f e).st.autoState = j.val + 1 := by
        rw [hst']
        fin_cases j <;> rfl
      refine ⟨fun k hk => absurd hk (hnd k), fun _ k hk => absurd hk (hnd k), fun hsuits m hm => ?_⟩
      have hsuits' := hsuits.congr hcfg
      rw [autoData_step, hdata, extractLsb_setByte, wordByte_congr hcfg (first_step hidle) hw]
      split_ifs with hmj
      · rw [hmj]
        exact ireg_of_dAck hd hst hack hv hsuits'
      · refine hd.bytes hsuits' m ?_
        have hne : m.val ≠ j.val := fun hc' => hmj (Fin.ext hc')
        rw [hst]
        show m.val < j.val
        omega
  | answer _ hnext =>
      have hst' : (x.step g f e).st.autoState = .waitReq := hnext
      exact .of_none (by simp [hst']) (by rw [hst']; rfl)
  | goOn _ _ _ _ hnext =>
      have hst' : (x.step g f e).st.autoState = .dat 0 := hnext
      exact .of_none (by simp [hst']) (by rw [hst']; rfl)
  | release _ hnext =>
      have hst' : (x.step g f e).st.autoState = .recovery := hnext
      exact .of_none (by simp [hst']) (by rw [hst']; rfl)
  | recovered _ hnext =>
      have hst' : (x.step g f e).st.autoState = .idle := hnext
      exact .of_none (by simp [hst']) (by rw [hst']; rfl)

/-! ## The answer -/

/-- The word that is given is the one at the address of the read. -/
def Reply (g : Config) (f : Flash) (x : Sys) : Prop :=
  x.st.wbOut.ack = true → ∀ a, x.outstanding = some a → a.map = true → a.req.we = false →
    Suits g f x.st → a.Fits x.st → x.st.wbOut.dat = f.word a.addr

theorem bytes_append (d : BitVec 32) : d = d.extractLsb' (8 * 3) 8 ++ d.extractLsb' (8 * 2) 8 ++
    d.extractLsb' (8 * 1) 8 ++ d.extractLsb' (8 * 0) 8 := by
  apply BitVec.eq_of_getLsbD_eq
  intro i hi
  simp only [BitVec.getLsbD_append, BitVec.getLsbD_extractLsb']
  split_ifs with h0 h1 h2
  · simp [h0]
  · rw [show 8 * 1 + (i - 8) = i by omega]
    simp [h1]
  · rw [show 8 * 2 + (i - 8 - 8) = i by omega]
    simp [h2]
  · rw [show 8 * 3 + (i - 8 - 8 - 8) = i by omega]
    simp [show i - 8 - 8 - 8 < 8 by omega]

theorem reply_step (hd : Data g f x) (ha : Asked x) (hb : Bus x) (he : OneAtATime x e) :
    Reply g f (x.step g f e) := by
  intro hack a hout hmap hwe hsuits hfits
  cases bus_move (g := g) (f := f) hb he with
  | idle _ _ hack' => rw [hack'] at hack; cases hack
  | accept _ _ _ _ hack' => rw [hack'] at hack; cases hack
  | wait _ _ _ _ _ hack' => rw [hack'] at hack; cases hack
  | answer b hnow hwait hrsp hout' _ _ hdat =>
      obtain rfl : b = a := Option.some.inj (hout'.symm.trans hout)
      have hv : wbMapValid x.st (x.input g f e) = true := by
        rw [(selects_of_pending (g := g) (f := f) hb he hnow hwait).1, hmap]
      obtain ⟨hrack, -, hrdat⟩ := wbRsp_of_map (g := g) hv hb.cs
      have hauto : (autoComb g x.st (x.input g f e)).ack = true := by rw [← hrack, hrsp]
      have hreq := (hb.pending b hnow hwait).1
      have hr : ctrlReset x.st = false := by
        by_contra hc
        have := (hb.reset (by simpa using hc)).1
        rw [hwait] at this
        cases this
      -- only a state that has the whole word answers a read
      have hst : x.st.autoState = .sendAck := by
        cases move (g := g) (i := x.input g f e) hr hb.cs with
        | stay _ _ _ hidle =>
            have := (hidle hauto).2
            rw [hreq, hwe] at this
            cases this
        | answer hst => exact hst
        | send _ _ _ _ _ _ _ _ hno => rw [hauto] at hno; cases hno
        | noBoot _ _ _ _ hno => rw [hauto] at hno; cases hno
        | select _ _ _ _ _ _ hno => rw [hauto] at hno; cases hno
        | command _ _ _ _ hno => rw [hauto] at hno; cases hno
        | byte _ _ _ _ _ _ _ hno => rw [hauto] at hno; cases hno
        | goOn _ _ _ _ _ _ _ hno => rw [hauto] at hno; cases hno
        | release _ _ _ _ hno => rw [hauto] at hno; cases hno
        | recovered _ _ _ _ hno => rw [hauto] at hno; cases hno
      have hidle : x.st.autoState ≠ .idle := by simp [hst]
      have hcfg := autoCfg_step (g := g) (f := f) (e := e) hidle hr
      have haddr : b.addr = x.first + 4 * x.words := by
        rw [← ha.word (by rw [hst]; rfl), addr_toNat, hreq]
        rfl
      have hfits' : b.addr + 4 ≤ 2 ^ (8 * addrBytes x.st) := by
        rw [← (lengths_congr hcfg).1]
        exact hfits
      have hbyte : ∀ m : Fin 4, x.st.autoData.extractLsb' (8 * m.val) 8 =
          f.mem (b.addr + m.val) := by
        intro m
        rw [hd.bytes (hsuits.congr hcfg) m (by rw [hst]; exact m.isLt), wordByte,
          Nat.mod_eq_of_lt (by omega), haddr]
      rw [hdat, hrdat, bytes_append x.st.autoData, Flash.word]
      have h0 := hbyte 0
      have h1 := hbyte 1
      have h2 := hbyte 2
      have h3 := hbyte 3
      simp only [Fin.val_zero, Fin.val_one, Fin.val_two, Nat.add_zero] at h0 h1 h2
      rw [h0, h1, h2]
      exact congrArg (· ++ _ ++ _ ++ _) h3

/-- The invariant of all runs in which no read starts while a byte is still on its way. -/
structure Good (g : Config) (f : Flash) (x : Sys) : Prop where
  ok : x.st.rxtx.Ok
  bus : Bus x
  acks : Acks x.st
  count : Count x
  asked : Asked x
  header : Header g f x
  data : Data g f x
  reply : Reply g f x

theorem Good.step (h : Good g f x) (he : OneAtATime x e) (hq : StartsQuiet g f x e) :
    Good g f (x.step g f e) := by
  have hb' := h.bus.step (g := g) (f := f) he
  exact {
    ok := h.ok.step
    bus := hb'
    acks := h.acks.step h.ok h.bus
    count := h.count.step h.ok h.acks h.bus hb' hq
    asked := h.asked.step h.bus he h.count.place
    header := h.header.step h.count h.asked h.bus hb' h.ok hq
    data := h.data.step h.header h.count h.ok h.acks h.bus
    reply := reply_step h.data h.asked h.bus he }

theorem ok_of_reset {s : State} (h : State.Reset g s) : s.rxtx.Ok where
  count := by rw [h.divider.1, h.divider.2]
  send hs := by rw [h.pulses.1] at hs; cases hs
  recv hr := by rw [h.pulses.2.1] at hr; cases hr
  standby _ := ⟨h.sck.2, Or.inr ⟨h.pulses.2.1, h.pulses.1⟩⟩
  data hst := by rw [h.standby] at hst; cases hst

theorem acks_of_reset {s : State} (h : State.Reset g s) : Acks s where
  other _ := by
    refine ⟨fun hpos => ?_, h.pulses.2.2.1, h.pulses.2.2.2⟩
    rw [left_of_busIdle h.standby] at hpos
    omega
  data j hj := by rw [h.autoState] at hj; cases hj

theorem good_start {s : State} (h : State.Reset g s) : Good g f (Sys.start s) := by
  have hst : (Sys.start s).st.autoState = .boot := h.autoState
  have hsel : selected (Sys.start s).st.autoState = false := by rw [hst]; rfl
  refine ⟨ok_of_reset h, bus_start h, acks_of_reset h, ?_, ?_, .of_not_selected hsel, ?_, ?_⟩
  · refine ⟨fun _ => rfl, fun hc => ?_, fun hc => ?_, ?_⟩
    · rw [hsel] at hc; cases hc
    · rw [hsel] at hc; cases hc
    · rw [hst]
      trivial
  · refine ⟨fun hc => ?_, fun hc => ?_, fun hc => ?_⟩
    · rw [hst] at hc; cases hc
    · rw [hst] at hc; cases hc
    · rw [hst] at hc
      rcases hc with hc | hc <;> cases hc
  · refine ⟨fun j hj => ?_, fun _ j hj => ?_, fun _ m hm => ?_⟩
    · rw [hst] at hj; cases hj
    · rw [hst] at hj; cases hj
    · rw [hst] at hm
      exact absurd hm (Nat.not_lt_zero _)
  · intro hack
    have : s.wbOut.ack = true := hack
    rw [h.out.1] at this
    cases this

/-- The select is given up after whole bytes. -/
theorem Good.whole_bytes (h : Good g f x) (he : OneAtATime x e) (hcs : csN x.st = false)
    (hcs' : csN (x.step g f e).st = true) :
    ∃ k, x.dev.clocks = headerClocks x.st + byteClocks x.st * k := by
  have hb' := h.bus.step (g := g) (f := f) he
  have hsel : selected x.st.autoState = true := by
    rw [csN_of_selected h.bus] at hcs
    simpa using hcs
  have hsel' : selected (x.step g f e).st.autoState = false := by
    rw [csN_of_selected hb'] at hcs'
    simpa using hcs'
  have hidle := ne_idle_of_selected hsel
  rw [autoState_step] at hsel'
  have hon : ∀ a : AutoState, (autoComb g x.st (x.input g f e)).next = a → selected a = true →
      False := by
    intro a hnext ha
    rw [hnext, ha] at hsel'
    cases hsel'
  cases move (g := g) (i := x.input g f e) (h.bus.not_reset hidle) h.bus.cs with
  | release hst =>
      refine ⟨4 * x.words + 4, ?_⟩
      have hz := h.count.place.at hst
      have hclocks := h.count.clocks hsel
      have hiss : issued x = headerClocks x.st + byteClocks x.st * (4 * x.words + 4) := by
        rw [issued, hst]
      have hz' : left x.st.rxtx = 0 := hz
      omega
  | stay hnext => exact (hon _ hnext hsel).elim
  | send q hq _ _ _ _ hnext =>
      have hboot : x.st.autoState ≠ .boot := by
        intro hc
        rw [hc] at hsel
        cases hsel
      exact (hon _ hnext (sending_selected hq hboot).2.1).elim
  | noBoot hst => rw [hst] at hsel; cases hsel
  | select hst => exact absurd hst hidle
  | command _ hnext => exact (hon _ hnext rfl).elim
  | byte j _ _ hnext =>
      refine (hon _ hnext ?_).elim
      fin_cases j <;> rfl
  | answer _ hnext => exact (hon _ hnext rfl).elim
  | goOn _ _ _ _ hnext => exact (hon _ hnext rfl).elim
  | recovered hst => rw [hst] at hsel; cases hsel

end

end Microwatt.Spi
