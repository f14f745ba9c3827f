import Microwatt.Spi.Bus

/-!
# Counting clocks

The clocks that the flash has counted since it was selected, with those that the command under way
has still to make, are those of the commands sent so far.
-/

namespace Microwatt.Spi

open Soc

section

variable {g : Config} {f : Flash} {x : Sys} {e : Edge}

/-! ## Acks of the shifter -/

/-- An ack stands for a byte that the machine waits for, and no clock is left then. -/
structure Acks (s : State) : Prop where
  other : (∀ j, s.autoState ≠ .datData j) →
    (0 < left s.rxtx → s.rxtx.cmdMode.getLsbD 0 = true) ∧ s.rxtx.datAckL = false ∧
      s.rxtx.dAck = false
  data : ∀ j, s.autoState = .datData j →
    s.rxtx.cmdMode = autoCfgMode s ++ 0#1 ∧ left s.rxtx ≤ byteClocks s ∧
      ((0 < left s.rxtx ∧ s.rxtx.datAckL = false ∧ s.rxtx.dAck = false) ∨
        (left s.rxtx = 0 ∧ s.rxtx.datAckL = true ∧ s.rxtx.dAck = false) ∨
        (left s.rxtx = 0 ∧ s.rxtx.datAckL = false ∧ s.rxtx.dAck = true ∧ s.rxtx.sckRecvD = false))

theorem rises_of_left {r : Rxtx} (h : r.Ok) (hl : left r = 0) : rises r = false := by
  by_contra hr
  have := h.left_pos_of_rises (by simpa using hr)
  omega

theorem sckRecvD_step : (x.step g f e).st.rxtx.sckRecvD = rises x.st.rxtx := by
  show (if x.st.rxtx.state == .data then x.st.rxtx.sckRecv else false) = _
  unfold rises
  cases x.st.rxtx.state == .data <;> rfl

theorem not_sckRecvD_of_left (hok : x.st.rxtx.Ok) (hz : left x.st.rxtx = 0) :
    (x.step g f e).st.rxtx.sckRecvD = false := by
  rw [sckRecvD_step, rises_of_left hok hz]

section

variable {s : State} {i : Input}

/-- Without a command to start, a state that waits for no byte stays without acks. -/
theorem Acks.other_edge (h : Acks s) (hok : s.rxtx.Ok) (hst : ∀ j, s.autoState ≠ .datData j)
    (hs : startCmd s.rxtx (cmdOut g s i) = false) :
    (0 < left (Spi.step g s i).rxtx → (Spi.step g s i).rxtx.cmdMode.getLsbD 0 = true) ∧
      (Spi.step g s i).rxtx.datAckL = false ∧ (Spi.step g s i).rxtx.dAck = false := by
  obtain ⟨hmode, hl, -⟩ := h.other hst
  have hmode' : (Spi.step g s i).rxtx.cmdMode = s.rxtx.cmdMode := by
    simp [Spi.step, Rxtx.step, hs]
  have hleft' : left (Spi.step g s i).rxtx ≤ left s.rxtx := by
    have hl' : left (Spi.step g s i).rxtx =
        if rises s.rxtx then left s.rxtx - 1 else left s.rxtx :=
      left_of_not_start hok hs
    refine hl'.trans_le ?_
    split_ifs <;> omega
  refine ⟨fun hpos => ?_, ?_, hl⟩
  · rw [hmode']
    exact hmode (by omega)
  · refine (datAckL_step hok).trans ?_
    by_cases hr : rises s.rxtx = true
    · have := hok.left_pos_of_rises hr
      rw [hmode (by omega)]
      simp
    · simp [hr]

/-- While a byte is read, its bits come, then its ack. -/
theorem Acks.data_edge (h : Acks s) (hok : s.rxtx.Ok) {j : Fin 4}
    (hst : s.autoState = .datData j) (hcfg : (Spi.step g s i).autoCfg = s.autoCfg)
    (hs : startCmd s.rxtx (cmdOut g s i) = false) (hd : s.rxtx.dAck = false) :
    (Spi.step g s i).rxtx.cmdMode = autoCfgMode (Spi.step g s i) ++ 0#1 ∧
      left (Spi.step g s i).rxtx ≤ byteClocks (Spi.step g s i) ∧
      ((0 < left (Spi.step g s i).rxtx ∧ (Spi.step g s i).rxtx.datAckL = false ∧
          (Spi.step g s i).rxtx.dAck = false) ∨
        (left (Spi.step g s i).rxtx = 0 ∧ (Spi.step g s i).rxtx.datAckL = true ∧
          (Spi.step g s i).rxtx.dAck = false) ∨
        (left (Spi.step g s i).rxtx = 0 ∧ (Spi.step g s i).rxtx.datAckL = false ∧
          (Spi.step g s i).rxtx.dAck = true ∧ (Spi.step g s i).rxtx.sckRecvD = false)) := by
  obtain ⟨hmode, hle, hcases⟩ := h.data j hst
  have hread : s.rxtx.cmdMode.getLsbD 0 = false := by
    rw [hmode, BitVec.getLsbD_append, if_pos (by omega)]
    rfl
  have hmode' : (Spi.step g s i).rxtx.cmdMode = autoCfgMode (Spi.step g s i) ++ 0#1 := by
    unfold autoCfgMode at hmode ⊢
    rw [hcfg, ← hmode]
    simp [Spi.step, Rxtx.step, hs]
  have hleft : left (Spi.step g s i).rxtx =
      if rises s.rxtx then left s.rxtx - 1 else left s.rxtx := left_of_not_start hok hs
  have hack : (Spi.step g s i).rxtx.datAckL =
      (rises s.rxtx && left s.rxtx == 1 && !s.rxtx.cmdMode.getLsbD 0) := datAckL_step hok
  have hdack : (Spi.step g s i).rxtx.dAck = s.rxtx.datAckL := rfl
  have hclks : byteClocks (Spi.step g s i) = byteClocks s := by
    simp only [byteClocks, autoCfgMode, hcfg]
  refine ⟨hmode', ?_, ?_⟩
  · rw [hclks, hleft]
    split_ifs <;> omega
  · rw [hleft, hack, hdack, hread]
    rcases hcases with ⟨hpos, hl, -⟩ | ⟨hz, hl, -⟩ | ⟨-, -, hd', -⟩
    · -- a bit may have come, the last one too
      by_cases hr : rises s.rxtx = true
      · by_cases hone : left s.rxtx = 1
        · exact Or.inr (Or.inl ⟨by simp [hr, hone], by simp [hr, hone], hl⟩)
        · refine Or.inl ⟨?_, by simp [hone], hl⟩
          rw [if_pos hr]
          omega
      · exact Or.inl ⟨by rwa [if_neg hr], by simp [hr], hl⟩
    · have hr := rises_of_left hok hz
      have hrd : (Spi.step g s i).rxtx.sckRecvD = false := by
        simp only [rises, Bool.and_eq_false_iff] at hr
        show (if s.rxtx.state == .data then s.rxtx.sckRecv else false) = false
        rcases hr with hr | hr <;> simp [hr]
      exact Or.inr (Or.inr ⟨by simp [hr, hz], by simp [hr], hl, hrd⟩)
    · rw [hd] at hd'
      cases hd'

/-- A reset is not made while a byte is read. -/
theorem Acks.edge (h : Acks s) (hok : s.rxtx.Ok) (hcs : ctrlCs s = false)
    (hreset : ctrlReset s = true → ∀ j, s.autoState ≠ .datData j) : Acks (Spi.step g s i) := by
  have hstate : (Spi.step g s i).autoState = (autoComb g s i).next := rfl
  -- states before and after in which no byte is awaited
  have hother : (∀ j, s.autoState ≠ .datData j) →
      startCmd s.rxtx (cmdOut g s i) = false →
      (∀ j, (Spi.step g s i).autoState ≠ .datData j) → Acks (Spi.step g s i) := by
    intro hst hs hst'
    exact ⟨fun _ => h.other_edge hok hst hs, fun j hj => absurd hj (hst' j)⟩
  by_cases hr : ctrlReset s = true
  · refine hother (hreset hr) ?_ ?_
    · simp [startCmd_auto hcs, autoComb, hr, AutoOut.default]
    · simp [hstate, autoComb, hr, AutoOut.default]
  · simp only [Bool.not_eq_true] at hr
    cases move (g := g) (i := i) hr hcs with
    | stay hnext hs _ _ hbyte =>
        by_cases hdat : ∃ j, s.autoState = .datData j
        · obtain ⟨j, hj⟩ := hdat
          have hcfg := autoCfg_edge (g := g) (i := i) (by simp [hj]) hr
          refine ⟨fun hn => absurd (hstate.trans (hnext.trans hj)) (hn j), fun _ _ => ?_⟩
          exact h.data_edge hok hj hcfg hs (hbyte j hj)
        · have hst : ∀ j, s.autoState ≠ .datData j := fun j hj => hdat ⟨j, hj⟩
          exact hother hst hs (by rw [hstate, hnext]; exact hst)
    | send q hq hs hmode hclks _ hnext =>
        have hn : nextCmd s.rxtx = true := by
          simp only [startCmd, Bool.and_eq_true] at hs
          exact hs.1
        have hst := sending_ne_datData hq
        have hdack : (Spi.step g s i).rxtx.dAck = false := (h.other hst).2.1
        have hack : (Spi.step g s i).rxtx.datAckL = false := by
          refine (datAckL_step hok).trans ?_
          rw [rises_of_left hok (left_of_nextCmd hn)]
          rfl
        have hmode' : (Spi.step g s i).rxtx.cmdMode = q.mode := by
          rw [← hmode]
          simp [Spi.step, Rxtx.step, hs]
        have hleft : left (Spi.step g s i).rxtx = q.clks.toNat + 1 := by
          rw [← hclks]
          exact left_of_startCmd hok hs
        rcases sending_mode hq with ⟨j, hj, rfl⟩ | ⟨hone, hnot⟩
        · -- the command that reads a byte
          have hcfg := autoCfg_edge (g := g) (i := i) (by simp [hj]) hr
          refine ⟨fun hc => absurd (hstate.trans hnext) (hc j), fun _ _ => ⟨?_, ?_, ?_⟩⟩
          · simp only [hmode', autoCfgMode, hcfg]
          · simp only [hleft, byteClocks, autoCfgMode, hcfg]
            rfl
          · exact Or.inl ⟨by omega, hack, hdack⟩
        · refine ⟨fun _ => ⟨fun _ => ?_, hack, hdack⟩, fun j hj => ?_⟩
          · rw [hmode', hone]
            rfl
          · exact absurd (hnext.symm.trans (hstate.symm.trans hj)) (hnot j)
    | noBoot hst hnext hs => exact hother (by simp [hst]) hs (by simp [hstate, hnext])
    | select hst _ _ hnext hs => exact hother (by simp [hst]) hs (by simp [hstate, hnext])
    | command hst hnext hs => exact hother (by simp [hst]) hs (by simp [hstate, hnext])
    | byte j hst hv hnext hs =>
        obtain ⟨-, -, ⟨-, -, hd⟩ | ⟨-, -, hd⟩ | ⟨hz, hl, -⟩⟩ := h.data j hst
        · rw [hv] at hd
          cases hd
        · rw [hv] at hd
          cases hd
        · have hr' := rises_of_left hok hz
          have hleft : left (Spi.step g s i).rxtx = 0 := by
            refine (left_of_not_start hok hs).trans ?_
            simp [hr', hz]
          have hack : (Spi.step g s i).rxtx.datAckL = false := by
            refine (datAckL_step hok).trans ?_
            simp [hr']
          refine ⟨fun _ => ⟨fun hpos => by omega, hack, hl⟩, fun k hk => ?_⟩
          rw [hstate, hnext] at hk
          fin_cases j <;> cases hk
    | answer hst hnext hs => exact hother (by simp [hst]) hs (by simp [hstate, hnext])
    | goOn hst _ _ _ hnext hs => exact hother (by simp [hst]) hs (by simp [hstate, hnext])
    | release hst hnext hs => exact hother (by simp [hst]) hs (by simp [hstate, hnext])
    | recovered hst hnext hs => exact hother (by simp [hst]) hs (by simp [hstate, hnext])

end

theorem Acks.step (h : Acks x.st) (hok : x.st.rxtx.Ok) (hb : Bus x) : Acks (x.step g f e).st :=
  h.edge hok hb.cs fun hr j => by simp [(hb.reset hr).2]

/-! ## The clocks of the flash -/

/-- The states in which the flash is selected. -/
def selected (a : AutoState) : Bool :=
  a != .idle && a != .recovery && a != .boot

/-- The clocks of the commands that were sent since the flash was selected. -/
def issued (x : Sys) : Nat :=
  match x.st.autoState with
  | .adr j => 8 * (addrBytes x.st - j.val)
  | .dummy => 8 + 8 * addrBytes x.st
  | .dat j => headerClocks x.st + byteClocks x.st * (4 * x.words + j.val)
  | .datData j => headerClocks x.st + byteClocks x.st * (4 * x.words + j.val + 1)
  | .sendAck | .waitReq => headerClocks x.st + byteClocks x.st * (4 * x.words + 4)
  | _ => 0

/-- What belongs to a state: the header comes before the words, and the shifter has finished where
the machine waits for something else. -/
def PlaceAt (x : Sys) : AutoState → Prop
  | .csOn | .cmd => x.words = 0
  | .adr j => x.words = 0 ∧ (j = 3 → autoCfgAddr4 x.st = true)
  | .dummy => x.words = 0 ∧ autoCfgDummies x.st ≠ 0
  | .dat j => (j = 0 ∧ x.words = 0) ∨ left x.st.rxtx = 0
  | .sendAck | .waitReq | .recovery => left x.st.rxtx = 0
  | _ => True

/-- The flash has counted the clocks that were sent, but for those that are left. -/
structure Count (x : Sys) : Prop where
  clear : selected x.st.autoState = false → x.dev = .clear
  clocks : selected x.st.autoState = true → x.dev.clocks + left x.st.rxtx = issued x
  shown : selected x.st.autoState = true →
    (x.st.rxtx.sck1 = false → x.dev.shown = x.dev.clocks) ∧
      (x.st.rxtx.sckRecvD = true → x.dev.shown + 1 = x.dev.clocks)
  place : PlaceAt x x.st.autoState

theorem PlaceAt.at {a : AutoState} (h : PlaceAt x x.st.autoState) (hst : x.st.autoState = a) :
    PlaceAt x a :=
  hst ▸ h

theorem Bus.autoCs_eq (h : Bus x) : autoCs x.st = selected x.st.autoState := by
  unfold autoCs selected
  by_cases hr : ctrlReset x.st = true
  · rw [(h.reset hr).2]
    simp
  · simp [hr]

/-- What the flash sees of an edge after which it is selected. -/
theorem dev_step (hok : x.st.rxtx.Ok) (hcs : csN (x.step g f e).st = false) :
    (x.step g f e).dev =
      if rises x.st.rxtx then x.dev.rise f (mosi (x.step g f e).st)
      else if startCmd x.st.rxtx (cmdOut g x.st (x.input g f e)) || falls x.st.rxtx then x.dev.fall
      else x.dev := by
  have hsck : (x.step g f e).st.rxtx.sck1 =
      if startCmd x.st.rxtx (cmdOut g x.st (x.input g f e)) || falls x.st.rxtx then false
      else if rises x.st.rxtx then true else x.st.rxtx.sck1 := sck1_step hok
  have hdev : (x.step g f e).dev = x.dev.edge f (csN (x.step g f e).st) x.st.rxtx.sck1
      (x.step g f e).st.rxtx.sck1 (mosi (x.step g f e).st) := rfl
  rw [hdev, hcs, hsck]
  unfold Device.edge
  by_cases hr : rises x.st.rxtx = true
  · have hn := hok.not_start_of_rises hr
    simp [hr, hok.not_falls_of_rises hr, startCmd, hn, hok.sck1_of_rises hr]
  · simp only [Bool.not_eq_true] at hr
    by_cases hs : startCmd x.st.rxtx (cmdOut g x.st (x.input g f e)) = true
    · have hn : nextCmd x.st.rxtx = true := by
        simp only [startCmd, Bool.and_eq_true] at hs
        exact hs.1
      simp [hr, hs, hok.sck1_of_nextCmd hn]
    · simp only [Bool.not_eq_true] at hs
      by_cases hf : falls x.st.rxtx = true
      · simp [hr, hs, hf, hok.sck1_of_falls hf]
      · simp only [Bool.not_eq_true] at hf
        simp [hr, hs, hf]

/-- The clocks counted and those left grow by those of a command that starts. -/
theorem clocks_step (hok : x.st.rxtx.Ok) (hcs : csN (x.step g f e).st = false) :
    (x.step g f e).dev.clocks + left (x.step g f e).st.rxtx =
      if startCmd x.st.rxtx (cmdOut g x.st (x.input g f e)) then
        x.dev.clocks + left x.st.rxtx + ((cmdOut g x.st (x.input g f e)).clks.toNat + 1)
      else x.dev.clocks + left x.st.rxtx := by
  rw [dev_step hok hcs]
  by_cases hs : startCmd x.st.rxtx (cmdOut g x.st (x.input g f e)) = true
  · have hn : nextCmd x.st.rxtx = true := by
      simp only [startCmd, Bool.and_eq_true] at hs
      exact hs.1
    have hleft : left (x.step g f e).st.rxtx = (cmdOut g x.st (x.input g f e)).clks.toNat + 1 :=
      left_of_startCmd hok hs
    have hz := left_of_nextCmd hn
    rw [rises_of_left hok hz, hs, hleft, hz]
    simp [Device.fall]
  · simp only [Bool.not_eq_true] at hs
    have hleft : left (x.step g f e).st.rxtx =
        if rises x.st.rxtx then left x.st.rxtx - 1 else left x.st.rxtx := left_of_not_start hok hs
    rw [hleft, hs]
    by_cases hr : rises x.st.rxtx = true
    · have := hok.left_pos_of_rises hr
      simp only [hr, if_true, Device.rise]
      simp
      omega
    · simp only [hr, Bool.false_or]
      split_ifs <;> simp [Device.fall] at *

/-- Data is shown from the falling edge on. -/
theorem shown_step (h : Count x) (hok : x.st.rxtx.Ok) (hcs : csN (x.step g f e).st = false)
    (hsel : selected x.st.autoState = true) :
    ((x.step g f e).st.rxtx.sck1 = false → (x.step g f e).dev.shown = (x.step g f e).dev.clocks) ∧
      ((x.step g f e).st.rxtx.sckRecvD = true →
        (x.step g f e).dev.shown + 1 = (x.step g f e).dev.clocks) := by
  have hsck : (x.step g f e).st.rxtx.sck1 =
      if startCmd x.st.rxtx (cmdOut g x.st (x.input g f e)) || falls x.st.rxtx then false
      else if rises x.st.rxtx then true else x.st.rxtx.sck1 := sck1_step hok
  rw [dev_step hok hcs, hsck, sckRecvD_step]
  by_cases hr : rises x.st.rxtx = true
  · have hlow := (h.shown hsel).1 (hok.sck1_of_rises hr)
    have hn := hok.not_start_of_rises hr
    simp [hr, hok.not_falls_of_rises hr, startCmd, hn, Device.rise, hlow]
  · simp only [Bool.not_eq_true] at hr
    simp only [hr, Bool.false_eq_true, if_false]
    split_ifs with hdown
    · exact ⟨fun _ => rfl, (by rintro ⟨⟩)⟩
    · exact ⟨fun hlow => (h.shown hsel).1 hlow, (by rintro ⟨⟩)⟩

/-! ### The machine and the clocks -/

theorem addrBytes_bounds (s : State) : 3 ≤ addrBytes s ∧ addrBytes s ≤ 4 := by
  unfold addrBytes
  split_ifs <;> omega

/-- The lengths depend on the configuration only. -/
theorem lengths_congr {s t : State} (h : t.autoCfg = s.autoCfg) :
    addrBytes t = addrBytes s ∧ headerClocks t = headerClocks s ∧ byteClocks t = byteClocks s := by
  have hb : addrBytes t = addrBytes s := by
    unfold addrBytes autoCfgAddr4
    rw [h]
  refine ⟨hb, ?_, ?_⟩
  · unfold headerClocks dummyClocks autoCfgDummies
    rw [hb, h]
  · unfold byteClocks autoCfgMode
    rw [h]

/-- What was issued depends on the state, the configuration and the words read. -/
theorem issued_congr {y : Sys} (hst : y.st.autoState = x.st.autoState)
    (hcfg : y.st.autoCfg = x.st.autoCfg) (hw : y.words = x.words ∨ x.st.autoState = .csOn) :
    issued y = issued x := by
  obtain ⟨hb, hh, hc⟩ := lengths_congr hcfg
  unfold issued
  rw [hst, hb, hh, hc]
  rcases hw with hw | hcs
  · rw [hw]
  · rw [hcs]

theorem sending_selected {s : State} {q : Sending} (hq : sending s = some q)
    (hboot : s.autoState ≠ .boot) :
    selected s.autoState = true ∧ selected q.next = true ∧ q.next ≠ .csOn ∧
      s.autoState ≠ .waitReq := by
  rcases sending_next hq with ⟨hb, -⟩ | ⟨j, hq', hf | ⟨k, hf⟩, -⟩ | ⟨hf, hq', -⟩ | ⟨hf | hf, hq'⟩ |
    ⟨j, hf, hq'⟩
  · exact absurd hb hboot
  all_goals
    rw [hf, hq']
    exact ⟨rfl, rfl, nofun, nofun⟩

/-- A command that is taken issues its clocks. -/
theorem issued_send (h : Count x) {q : Sending} (hq : sending x.st = some q)
    (hsel : selected x.st.autoState = true) {y : Sys} (hst : y.st.autoState = q.next)
    (hcfg : y.st.autoCfg = x.st.autoCfg) (hw : y.words = x.words) :
    issued y = issued x + (q.clks.toNat + 1) := by
  obtain ⟨hb, hh, hc⟩ := lengths_congr hcfg
  have hseven : (7 : BitVec 3).toNat = 7 := rfl
  unfold sending at hq
  split at hq
  case h_1 hs => rw [hs] at hsel; cases hsel
  case h_9 => cases hq
  all_goals
    rename_i hs
    obtain rfl := Option.some.inj hq
    simp only at hst
  · -- the first byte of the address is the highest one
    cases ha : autoCfgAddr4 x.st with
    | true =>
        have hab : addrBytes x.st = 4 := by simp [addrBytes, ha]
        rw [ha] at hst
        simp [issued, hs, hst, hb, hab]
    | false =>
        have hab : addrBytes x.st = 3 := by simp [addrBytes, ha]
        rw [ha] at hst
        simp [issued, hs, hst, hb, hab]
  · have hab : addrBytes x.st = 4 := by simp [addrBytes, (h.place.at hs).2 rfl]
    simp [issued, hs, hst, hb, hab]
  · have := (addrBytes_bounds x.st).1
    simp only [issued, hs, hst, hb]
    omega
  · have := (addrBytes_bounds x.st).1
    simp only [issued, hs, hst, hb]
    omega
  · have hz := (h.place.at hs).1
    by_cases hd : autoCfgDummies x.st = 0
    · rw [if_pos hd] at hst
      have hhdr : headerClocks x.st = 8 + 8 * addrBytes x.st := by
        simp [headerClocks, dummyClocks, hd]
      simp [issued, hs, hst, hh, hw, hz, hhdr]
      omega
    · rw [if_neg hd] at hst
      simp [issued, hs, hst, hb]
      omega
  · obtain ⟨hz, hd⟩ := h.place.at hs
    have hhdr : headerClocks x.st =
        8 + 8 * addrBytes x.st + ((autoCfgDummies x.st).toNat + 1) := by
      unfold headerClocks dummyClocks
      rw [if_neg hd]
    simp [issued, hs, hst, hh, hw, hz, hhdr]
  · have hclks : (modeToClks (autoCfgMode x.st)).toNat + 1 = byteClocks x.st := rfl
    simp only [issued, hs, hst, hh, hc, hw, hclks]
    ring

/-- What a step leaves alone while the machine is not idle. -/
theorem words_step (hst : (x.step g f e).st.autoState ≠ .csOn)
    (hgo : x.st.autoState ≠ .waitReq) : (x.step g f e).words = x.words := by
  have hw : (x.step g f e).words = if (x.step g f e).st.autoState = .csOn then 0
      else if x.st.autoState = .waitReq ∧ (x.step g f e).st.autoState = .dat 0 then x.words + 1
      else x.words := rfl
  rw [hw, if_neg hst, if_neg (fun hc => hgo hc.1)]

theorem words_csOn (hst : (x.step g f e).st.autoState = .csOn) : (x.step g f e).words = 0 :=
  if_pos hst

theorem words_goOn (hst : x.st.autoState = .waitReq) (hst' : (x.step g f e).st.autoState = .dat 0) :
    (x.step g f e).words = x.words + 1 := by
  have hw : (x.step g f e).words = if (x.step g f e).st.autoState = .csOn then 0
      else if x.st.autoState = .waitReq ∧ (x.step g f e).st.autoState = .dat 0 then x.words + 1
      else x.words := rfl
  rw [hw, if_neg (by simp [hst']), if_pos ⟨hst, hst'⟩]

theorem words_stay (hst : (x.step g f e).st.autoState = x.st.autoState) :
    (x.step g f e).words = x.words ∨ x.st.autoState = .csOn := by
  by_cases hcs : x.st.autoState = .csOn
  · exact Or.inr hcs
  · have hw : (x.step g f e).words = if (x.step g f e).st.autoState = .csOn then 0
        else if x.st.autoState = .waitReq ∧ (x.step g f e).st.autoState = .dat 0 then x.words + 1
        else x.words := rfl
    refine Or.inl ?_
    rw [hw, if_neg (by rwa [hst]), if_neg]
    rintro ⟨h1, h2⟩
    rw [hst, h1] at h2
    cases h2

theorem clear_step (hcs : csN (x.step g f e).st = true) : (x.step g f e).dev = .clear := by
  show x.dev.edge f (csN (x.step g f e).st) _ _ _ = _
  rw [hcs]
  rfl

theorem csN_of_selected (hb : Bus x) : csN x.st = !selected x.st.autoState := by
  rw [hb.csN_eq, hb.autoCs_eq]

/-- The clocks agree after an edge between two states in which the flash is selected. -/
theorem Count.of_selected (h : Count x) (hok : x.st.rxtx.Ok) (hb' : Bus (x.step g f e))
    (hsel : selected x.st.autoState = true) (hsel' : selected (x.step g f e).st.autoState = true)
    (hiss : issued (x.step g f e) =
      if startCmd x.st.rxtx (cmdOut g x.st (x.input g f e)) then
        issued x + ((cmdOut g x.st (x.input g f e)).clks.toNat + 1)
      else issued x)
    (hplace : PlaceAt (x.step g f e) (x.step g f e).st.autoState) : Count (x.step g f e) := by
  have hcs : csN (x.step g f e).st = false := by rw [csN_of_selected hb', hsel']; rfl
  refine ⟨fun hc => ?_, fun _ => ?_, fun _ => shown_step h hok hcs hsel, hplace⟩
  · rw [hsel'] at hc
    cases hc
  · rw [clocks_step hok hcs, hiss, h.clocks hsel]

theorem Count.of_not_selected (hb' : Bus (x.step g f e))
    (hsel' : selected (x.step g f e).st.autoState = false)
    (hplace : PlaceAt (x.step g f e) (x.step g f e).st.autoState) :
    Count (x.step g f e) := by
  have hcs : csN (x.step g f e).st = true := by rw [csN_of_selected hb', hsel']; rfl
  refine ⟨fun _ => clear_step hcs, fun hc => ?_, fun hc => ?_, hplace⟩ <;>
    · rw [hsel'] at hc
      cases hc

theorem autoState_step : (x.step g f e).st.autoState = (autoComb g x.st (x.input g f e)).next := rfl

/-- The shifter stays finished without a command. -/
theorem left_zero_step (hok : x.st.rxtx.Ok)
    (hs : startCmd x.st.rxtx (cmdOut g x.st (x.input g f e)) = false) (hz : left x.st.rxtx = 0) :
    left (x.step g f e).st.rxtx = 0 := by
  refine (left_of_not_start hok hs).trans ?_
  rw [rises_of_left hok hz, hz]
  rfl

/-- The clock rests, so that the flash starts with nothing counted. -/
theorem dev_select (hok : x.st.rxtx.Ok)
    (hs : startCmd x.st.rxtx (cmdOut g x.st (x.input g f e)) = false) (hz : left x.st.rxtx = 0)
    (hclear : x.dev = .clear) (hcs : csN (x.step g f e).st = false) :
    (x.step g f e).dev = .clear := by
  have hsck : (x.step g f e).st.rxtx.sck1 = true :=
    Rxtx.Ok.sck1_of_left hok.step (left_zero_step (g := g) (f := f) (e := e) hok hs hz)
  show x.dev.edge f (csN (x.step g f e).st) x.st.rxtx.sck1 (x.step g f e).st.rxtx.sck1 _ = _
  rw [hcs, hok.sck1_of_left hz, hsck, hclear]
  rfl

theorem PlaceAt.stay (h : PlaceAt x x.st.autoState) (hok : x.st.rxtx.Ok)
    (hst : (x.step g f e).st.autoState = x.st.autoState)
    (hs : startCmd x.st.rxtx (cmdOut g x.st (x.input g f e)) = false)
    (hcfg : x.st.autoState ≠ .idle → (x.step g f e).st.autoCfg = x.st.autoCfg) :
    PlaceAt (x.step g f e) (x.step g f e).st.autoState := by
  have hwords : x.st.autoState ≠ .csOn → (x.step g f e).words = x.words :=
    fun hn => (words_stay hst).resolve_right hn
  rw [hst]
  cases ha : x.st.autoState with
  | csOn => exact words_csOn (hst.trans ha)
  | cmd => exact (hwords (by simp [ha])).trans (h.at ha)
  | adr j =>
      obtain ⟨hz, h4⟩ := h.at ha
      refine ⟨(hwords (by simp [ha])).trans hz, ?_⟩
      unfold autoCfgAddr4
      rwa [hcfg (by simp [ha])]
  | dummy =>
      obtain ⟨hz, hd⟩ := h.at ha
      refine ⟨(hwords (by simp [ha])).trans hz, ?_⟩
      unfold autoCfgDummies
      rwa [hcfg (by simp [ha])]
  | dat j =>
      rcases h.at ha with ⟨h0, hz⟩ | hz
      · exact Or.inl ⟨h0, (hwords (by simp [ha])).trans hz⟩
      · exact Or.inr (left_zero_step hok hs hz)
  | sendAck => exact left_zero_step hok hs (h.at ha)
  | waitReq => exact left_zero_step hok hs (h.at ha)
  | recovery => exact left_zero_step hok hs (h.at ha)
  | boot => trivial
  | idle => trivial
  | datData j => trivial

/-- A command that is taken. -/
theorem PlaceAt.send (h : PlaceAt x x.st.autoState) (hst : x.st.autoState ≠ .idle)
    (hr : ctrlReset x.st = false) {q : Sending} (hq : sending x.st = some q)
    (hnext : (x.step g f e).st.autoState = q.next) :
    PlaceAt (x.step g f e) (x.step g f e).st.autoState := by
  have hcfg := autoCfg_step (g := g) (f := f) (e := e) hst hr
  rw [hnext]
  rcases sending_next hq with ⟨-, hq'⟩ | ⟨j, hq', hfrom, h4⟩ | ⟨hfrom, hq', hd⟩ | ⟨hfrom, hq'⟩ |
    ⟨j, -, hq'⟩
  · rw [hq']
    trivial
  · rw [hq'] at hnext ⊢
    refine ⟨?_, ?_⟩
    · rcases hfrom with hf | ⟨k, hf⟩
      · exact (words_step (by simp [hnext]) (by simp [hf])).trans (h.at hf)
      · exact (words_step (by simp [hnext]) (by simp [hf])).trans (h.at hf).1
    · unfold autoCfgAddr4 at h4 ⊢
      rwa [hcfg]
  · rw [hq'] at hnext ⊢
    refine ⟨(words_step (by simp [hnext]) (by simp [hfrom])).trans (h.at hfrom).1, ?_⟩
    unfold autoCfgDummies at hd ⊢
    rwa [hcfg]
  · rw [hq'] at hnext ⊢
    refine Or.inl ⟨rfl, ?_⟩
    rcases hfrom with hf | hf
    · exact (words_step (by simp [hnext]) (by simp [hf])).trans (h.at hf).1
    · exact (words_step (by simp [hnext]) (by simp [hf])).trans (h.at hf).1
  · rw [hq']
    trivial

theorem Count.step (h : Count x) (hok : x.st.rxtx.Ok) (hacks : Acks x.st) (hb : Bus x)
    (hb' : Bus (x.step g f e)) (hquiet : StartsQuiet g f x e) : Count (x.step g f e) := by
  by_cases hr : ctrlReset x.st = true
  · have hnext : (x.step g f e).st.autoState = .boot := by
      simp [autoState_step, autoComb, hr, AutoOut.default]
    exact .of_not_selected hb' (by rw [hnext]; rfl) (by rw [hnext]; trivial)
  simp only [Bool.not_eq_true] at hr
  have hcfg : x.st.autoState ≠ .idle → (x.step g f e).st.autoCfg = x.st.autoCfg :=
    fun hst => autoCfg_step hst hr
  cases move (g := g) (i := x.input g f e) hr hb.cs with
  | stay hnext hs =>
      have hst' : (x.step g f e).st.autoState = x.st.autoState := hnext
      have hplace := h.place.stay hok hst' hs hcfg
      cases hsel : selected x.st.autoState with
      | false => exact .of_not_selected hb' (by rw [hst', hsel]) hplace
      | true =>
          have hidle : x.st.autoState ≠ .idle := by
            intro hc
            rw [hc] at hsel
            cases hsel
          refine h.of_selected hok hb' hsel (by rw [hst', hsel]) ?_ hplace
          rw [hs]
          exact issued_congr hst' (hcfg hidle) (words_stay hst')
  | send q hq hs hmode hclks _ hnext =>
      have hst' : (x.step g f e).st.autoState = q.next := hnext
      have hidle : x.st.autoState ≠ .idle := by
        intro hc
        simp [sending, hc] at hq
      have hplace := h.place.send hidle hr hq hst'
      by_cases hboot : x.st.autoState = .boot
      · have hq' : q.next = .idle := by
          simp only [sending, hboot] at hq
          rw [← Option.some.inj hq]
        exact .of_not_selected hb' (by rw [hst', hq']; rfl) hplace
      · obtain ⟨hsel, hsel', hcs, hwait⟩ := sending_selected hq hboot
        refine h.of_selected hok hb' hsel (by rw [hst', hsel']) ?_ hplace
        rw [hs, hclks]
        exact issued_send h hq hsel hst' (hcfg hidle) (words_step (by rwa [hst']) hwait)
  | noBoot hst hnext hs =>
      have hst' : (x.step g f e).st.autoState = .idle := hnext
      exact .of_not_selected hb' (by rw [hst']; rfl) (by rw [hst']; trivial)
  | select hst hv hwe hnext hs =>
      have hst' : (x.step g f e).st.autoState = .csOn := hnext
      have hz := hquiet hst hv hwe
      have hz' := left_zero_step (g := g) (f := f) (e := e) hok hs hz
      have hcs : csN (x.step g f e).st = false := by rw [csN_of_selected hb', hst']; rfl
      have hdev : (x.step g f e).dev = .clear :=
        dev_select hok hs hz (h.clear (by rw [hst]; rfl)) hcs
      have hrd := not_sckRecvD_of_left (g := g) (f := f) (e := e) hok hz
      refine ⟨fun hc => ?_, fun _ => ?_, fun _ => ⟨fun _ => ?_, fun hc => ?_⟩, ?_⟩
      · rw [hst'] at hc
        cases hc
      · rw [hdev, hz', issued, hst']
        rfl
      · rw [hdev]
        rfl
      · rw [hrd] at hc
        cases hc
      · rw [hst']
        exact words_csOn hst'
  | command hst hnext hs =>
      have hst' : (x.step g f e).st.autoState = .cmd := hnext
      refine h.of_selected hok hb' (by rw [hst]; rfl) (by rw [hst']; rfl) ?_ ?_
      · rw [hs]
        simp [issued, hst, hst']
      · rw [hst']
        exact (words_step (by simp [hst']) (by simp [hst])).trans (h.place.at hst)
  | byte j hst hv hnext hs =>
      have hst' : (x.step g f e).st.autoState = afterByte j := hnext
      have hz : left x.st.rxtx = 0 := by
        obtain ⟨-, -, ⟨-, -, hd⟩ | ⟨-, -, hd⟩ | ⟨hz, -⟩⟩ := hacks.data j hst
        · rw [hv] at hd; cases hd
        · rw [hv] at hd; cases hd
        · exact hz
      obtain ⟨-, hh, hc⟩ := lengths_congr (hcfg (by simp [hst]))
      have hw : (x.step g f e).words = x.words := by
        refine words_step ?_ (by simp [hst])
        rw [hst']
        fin_cases j <;> rintro ⟨⟩
      have hz' := left_zero_step (g := g) (f := f) (e := e) hok hs hz
      refine h.of_selected hok hb' (by rw [hst]; rfl) ?_ ?_ ?_
      · rw [hst']
        fin_cases j <;> rfl
      · rw [hs]
        fin_cases j <;> simp [issued, hst, hst', afterByte, hh, hc, hw]
      · rw [hst']
        fin_cases j <;> first | exact Or.inr hz' | exact hz'
  | answer hst hnext hs =>
      have hst' : (x.step g f e).st.autoState = .waitReq := hnext
      obtain ⟨-, hh, hc⟩ := lengths_congr (hcfg (by simp [hst]))
      have hw : (x.step g f e).words = x.words := words_step (by simp [hst']) (by simp [hst])
      refine h.of_selected hok hb' (by rw [hst]; rfl) (by rw [hst']; rfl) ?_ ?_
      · rw [hs]
        simp [issued, hst, hst', hh, hc, hw]
      · rw [hst']
        exact left_zero_step hok hs (h.place.at hst)
  | goOn hst _ _ _ hnext hs =>
      have hst' : (x.step g f e).st.autoState = .dat 0 := hnext
      obtain ⟨-, hh, hc⟩ := lengths_congr (hcfg (by simp [hst]))
      have hw := words_goOn hst hst'
      refine h.of_selected hok hb' (by rw [hst]; rfl) (by rw [hst']; rfl) ?_ ?_
      · rw [hs]
        simp only [issued, hst, hst', hh, hc, hw]
        simp [Nat.mul_add]
      · rw [hst']
        exact Or.inr (left_zero_step hok hs (h.place.at hst))
  | release hst hnext hs =>
      have hst' : (x.step g f e).st.autoState = .recovery := hnext
      refine .of_not_selected hb' (by rw [hst']; rfl) ?_
      rw [hst']
      exact left_zero_step hok hs (h.place.at hst)
  | recovered hst hnext hs =>
      have hst' : (x.step g f e).st.autoState = .idle := hnext
      exact .of_not_selected hb' (by rw [hst']; rfl) (by rw [hst']; trivial)

end

end Microwatt.Spi
