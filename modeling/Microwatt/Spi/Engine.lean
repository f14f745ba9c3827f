import Microwatt.Spi.Progress

/-!
# Commands of the shifter

The shifter by itself, with a command port and a divider that may do anything.  The rising edges of
the serial clock after a command has been taken, and before the next one is, are its clocks; at each
of them the data lines hold the next bits to be sent, and what they carry then is what the ack of a
read comes with.
-/

namespace Microwatt.Spi

/-- What comes into the shifter in a cycle: the command port, and the data lines at the falling edge
of the system clock and at the rising edge that ends the cycle. -/
structure RxtxIn where
  cmd : Cmd
  sdatMid : BitVec 4
  sdatEnd : BitVec 4

/-- Data line `l`: `sdat_o`. -/
def sdatO (r : Rxtx) (l : Nat) : Bool :=
  r.oreg.getLsbD (7 - l)

def dataWrite (mode : BitVec 3) : Bool :=
  mode.getLsbD 0

/-- The lines that a mode drives. -/
def drives (mode : BitVec 3) (l : Nat) : Bool :=
  (l == 0 && (dataSingle mode || dataWrite mode)) || (l == 1 && dataDual mode && dataWrite mode) ||
    (decide (0 < l) && dataQuad mode && dataWrite mode)

/-- `sdat_oe`. -/
def sdatOe (r : Rxtx) (l : Nat) : Bool :=
  r.state == .data && drives r.cmdMode l

/-- The bits of a mode in one clock. -/
def modeBits (mode : BitVec 3) : Nat :=
  if dataSingle mode then 1 else if dataDual mode then 2 else 4

/-- The bits that are taken from `dataLines` lines in one clock, and the line of the lowest. -/
def inBits (dataLines : Nat) (mode : BitVec 3) : Nat :=
  if dataLines = 1 then 1 else modeBits mode

def inLine (dataLines : Nat) (mode : BitVec 3) : Nat :=
  if dataLines ≠ 1 ∧ dataSingle mode = true then 1 else 0

/-! ## Shifting -/

theorem mode_cases (mode : BitVec 3) :
    (dataSingle mode = true ∧ dataDual mode = false ∧ dataQuad mode = false) ∨
    (dataSingle mode = false ∧ dataDual mode = true ∧ dataQuad mode = false) ∨
    (dataSingle mode = false ∧ dataDual mode = false ∧ dataQuad mode = true) := by
  revert mode
  decide

theorem shiftOut_eq (mode : BitVec 3) (x : BitVec 8) : shiftOut mode x = x <<< modeBits mode := by
  unfold shiftOut modeBits
  split_ifs <;> rfl

theorem shiftOut_iterate (mode : BitVec 3) (x : BitVec 8) (k : Nat) :
    (shiftOut mode)^[k] x = x <<< (modeBits mode * k) := by
  induction k with
  | zero => simp
  | succ k ih =>
      rw [Function.iterate_succ_apply', ih, shiftOut_eq, ← BitVec.shiftLeft_add, Nat.mul_succ]

theorem inBits_pos (dataLines : Nat) (mode : BitVec 3) : 0 < inBits dataLines mode := by
  unfold inBits modeBits
  split_ifs <;> decide

/-- What is shifted in goes below what was there. -/
theorem shiftIn_getLsbD (dataLines : Nat) (mode : BitVec 3) (x : BitVec 8)
    (dat : BitVec 4) {q : Nat} (hq : q < 8) : (shiftIn dataLines mode x dat).getLsbD q =
      if q < inBits dataLines mode then dat.getLsbD (inLine dataLines mode + q)
      else x.getLsbD (q - inBits dataLines mode) := by
  have happend {w v : Nat} (a : BitVec 8) (b : BitVec w) (hv : q < w + v) :
      (a.extractLsb' 0 v ++ b).getLsbD q = if q < w then b.getLsbD q else a.getLsbD (q - w) := by
    rw [BitVec.getLsbD_append]
    split_ifs with hlt
    · rfl
    · rw [BitVec.getLsbD_extractLsb', decide_eq_true (by omega), Bool.true_and, Nat.zero_add]
  have hone (b : Bool) : q < 1 → (BitVec.ofBool b).getLsbD q = b := by
    intro h
    obtain rfl : q = 0 := by omega
    cases b <;> rfl
  unfold shiftIn inBits inLine modeBits
  rcases mode_cases mode with ⟨h1, h2, h3⟩ | ⟨h1, h2, h3⟩ | ⟨h1, h2, h3⟩
  · by_cases hl : dataLines = 1
    · simp only [hl, if_true, ne_eq, not_true, false_and, if_false]
      rw [happend _ _ (by omega)]
      refine if_ctx_congr Iff.rfl (fun h => ?_) fun _ => rfl
      rw [hone _ h, show q = 0 by omega]
    · simp only [hl, h1, h2, h3, if_true, if_false, Bool.false_eq_true, ne_eq, not_false_eq_true,
        true_and]
      rw [happend _ _ (by omega)]
      refine if_ctx_congr Iff.rfl (fun h => ?_) fun _ => rfl
      rw [hone _ h, show q = 0 by omega]
  · by_cases hl : dataLines = 1
    · simp only [hl, if_true, ne_eq, not_true, false_and, if_false]
      rw [happend _ _ (by omega)]
      refine if_ctx_congr Iff.rfl (fun h => ?_) fun _ => rfl
      rw [hone _ h, show q = 0 by omega]
    · simp only [hl, h1, h2, if_true, if_false, Bool.false_eq_true, and_false]
      rw [happend _ _ (by omega)]
      refine if_ctx_congr Iff.rfl (fun h => ?_) fun _ => rfl
      rw [BitVec.getLsbD_extractLsb', decide_eq_true h, Bool.true_and]
  · by_cases hl : dataLines = 1
    · simp only [hl, if_true, ne_eq, not_true, false_and, if_false]
      rw [happend _ _ (by omega)]
      refine if_ctx_congr Iff.rfl (fun h => ?_) fun _ => rfl
      rw [hone _ h, show q = 0 by omega]
    · simp only [hl, h1, h2, h3, if_true, if_false, Bool.false_eq_true, and_false]
      rw [happend _ _ (by omega), Nat.zero_add]

/-- The bits that have come in, the last at the bottom. -/
theorem getLsbD_foldl_shiftIn (dataLines : Nat) (mode : BitVec 3) (x : BitVec 8)
    (dats : List (BitVec 4)) {q : Nat} (hq : q < 8)
    (hlt : q < inBits dataLines mode * dats.length) :
    (dats.foldl (shiftIn dataLines mode) x).getLsbD q =
      (dats.getD (dats.length - 1 - q / inBits dataLines mode) 0).getLsbD
        (inLine dataLines mode + q % inBits dataLines mode) := by
  have hpos := inBits_pos dataLines mode
  induction dats using List.reverseRecOn generalizing q with
  | nil => simp at hlt
  | append_singleton dats d ih =>
      rw [List.foldl_append, List.foldl_cons, List.foldl_nil, shiftIn_getLsbD _ _ _ _ hq,
        List.length_append, List.length_singleton, Nat.add_sub_cancel]
      rw [List.length_append, List.length_singleton] at hlt
      generalize hw : inBits dataLines mode = w at *
      split_ifs with hlow
      · rw [Nat.div_eq_of_lt hlow, Nat.mod_eq_of_lt hlow, Nat.sub_zero,
          List.getD_eq_getElem?_getD, List.getElem?_append_right le_rfl, Nat.sub_self]
        rfl
      · obtain ⟨q', rfl⟩ : ∃ q', q = q' + w := ⟨q - w, by omega⟩
        have hq' : q' < w * dats.length := by
          rw [Nat.mul_succ] at hlt
          omega
        have hdiv : q' / w < dats.length := Nat.div_lt_of_lt_mul hq'
        rw [Nat.add_sub_cancel, ih (by omega) hq', Nat.add_div_right _ hpos, Nat.add_mod_right,
          List.getD_eq_getElem?_getD, List.getD_eq_getElem?_getD]
        generalize q' / w = k at hdiv
        rw [List.getElem?_append_left (by omega)]
        congr 3
        omega

/-! ## Runs -/

/-- The registers after a reset. -/
structure Rxtx.Reset (r : Rxtx) : Prop where
  sck : r.sck0 = true ∧ r.sck1 = true
  pulses : r.sckSend = false ∧ r.sckRecv = false
  divider : r.clkDiv = 0 ∧ r.counter = 0
  standby : r.state = .standby
  acks : r.datAckL = false ∧ r.dAck = false

theorem Rxtx.Reset.ok {r : Rxtx} (h : r.Reset) : r.Ok := by
  refine ⟨?_, ?_, ?_, ?_, ?_⟩
  · rw [h.divider.1, h.divider.2]
  · simp [h.pulses]
  · simp [h.pulses]
  · intro _
    exact ⟨h.sck.2, Or.inr ⟨h.pulses.2, h.pulses.1⟩⟩
  · intro hd
    rw [h.standby] at hd
    cases hd

/-- The shifter with its generics, out of reset, and all that comes into it. -/
structure Bench where
  dataLines : Nat
  inputDelay : Nat
  start : Rxtx
  datStart : BitVec 4
  input : Nat → RxtxIn
  reset : start.Reset

namespace Bench

variable (b : Bench)

/-- `dat_i_l` at the edge that ends cycle `n`. -/
def datIL : Nat → BitVec 4
  | 0 => if b.inputDelay = 1 then (b.input 0).sdatMid else b.datStart
  | n + 1 => if b.inputDelay = 1 then (b.input (n + 1)).sdatMid else (b.input n).sdatEnd

/-- The registers before edge `n`. -/
def rxtx : Nat → Rxtx
  | 0 => b.start
  | n + 1 => (rxtx n).step (b.input n).cmd b.dataLines (b.datIL n)

/-- A command is taken at edge `n`. -/
def accepts (n : Nat) : Bool := startCmd (b.rxtx n) (b.input n).cmd

/-- The serial clock rises at edge `n`. -/
def sckRises (n : Nat) : Bool := !(b.rxtx n).sck1 && (b.rxtx (n + 1)).sck1

/-- What the data lines carry at the rising edge `n`, or half a cycle after it. -/
def sample (n : Nat) : BitVec 4 :=
  if b.inputDelay = 1 then (b.input (n + 1)).sdatMid else (b.input n).sdatEnd

/-- The command taken at edge `n` is the last before edge `t`. -/
structure Current (n t : Nat) : Prop where
  accepted : b.accepts n = true
  after : n < t
  last : ∀ j, n < j → j < t → b.accepts j = false

/-- The rising edges in the first `k` cycles after edge `n`. -/
def edges (n : Nat) : Nat → List Nat
  | 0 => []
  | k + 1 => if b.sckRises (n + 1 + k) then edges n k ++ [n + 1 + k] else edges n k

end Bench

namespace Bench

variable {b : Bench} {n t k : Nat}

theorem ok (b : Bench) (n : Nat) : (b.rxtx n).Ok := by
  induction n with
  | zero => exact b.reset.ok
  | succ n ih => exact ih.step

/-- The edges of the serial clock are those that the pulses stand ahead of. -/
theorem sckRises_eq (b : Bench) (n : Nat) : b.sckRises n = rises (b.rxtx n) := by
  have hok := b.ok n
  have hstep : (b.rxtx (n + 1)).sck1 = if startCmd (b.rxtx n) (b.input n).cmd || falls (b.rxtx n)
      then false else if rises (b.rxtx n) then true else (b.rxtx n).sck1 := sck1_step hok
  unfold sckRises
  rw [hstep]
  cases hr : rises (b.rxtx n) with
  | true =>
      rw [hok.sck1_of_rises hr, startCmd, hok.not_start_of_rises hr, hok.not_falls_of_rises hr]
      rfl
  | false =>
      cases (b.rxtx n).sck1 <;> simp

/-- There is a command while the state is `DATA`. -/
theorem exists_current (h : (b.rxtx t).state = .data) : ∃ n, b.Current n t := by
  induction t with
  | zero =>
      rw [show (b.rxtx 0).state = _ from b.reset.standby] at h
      cases h
  | succ t ih =>
      cases ha : b.accepts t with
      | true => exact ⟨t, ha, Nat.lt_succ_self t, fun j h1 h2 => by omega⟩
      | false =>
          have hst : (b.rxtx t).state = .data := by
            refine state_eq_data fun hs => ?_
            have hstep : (b.rxtx (t + 1)).state = if startCmd (b.rxtx t) (b.input t).cmd then .data
                else if endCmd (b.rxtx t) (b.input t).cmd then .standby else (b.rxtx t).state := rfl
            rw [hstep, show startCmd _ _ = false from ha, hs] at h
            simp at h
          obtain ⟨n, hn⟩ := ih hst
          refine ⟨n, hn.accepted, by have := hn.after; omega, fun j h1 h2 => ?_⟩
          rcases Nat.lt_or_eq_of_le (Nat.le_of_lt_succ h2) with hlt | rfl
          · exact hn.last j h1 hlt
          · exact ha

/-- How far a command has got before edge `t`. -/
structure Running (b : Bench) (n t : Nat) (es : List Nat) : Prop where
  mode : (b.rxtx t).cmdMode = (b.input n).cmd.mode
  left : left (b.rxtx t) + es.length = (b.input n).cmd.clks.toNat + 1
  /-- The bits that have gone are those of the falling edges but the first. -/
  high : 0 < Spi.left (b.rxtx t) → (b.rxtx t).sck1 = true → 0 < es.length
  out : 0 < Spi.left (b.rxtx t) → (b.rxtx t).oreg =
    (shiftOut (b.input n).cmd.mode)^[if (b.rxtx t).sck1 then es.length - 1 else es.length]
      (b.input n).cmd.txd
  /-- The bits that have come are there an edge later. -/
  data : (b.rxtx (t + 1)).ireg =
    (es.map b.sample).foldl (shiftIn b.dataLines (b.input n).cmd.mode) (b.rxtx (n + 1)).ireg

theorem step_of_not_accepts (ha : b.accepts t = false) :
    (b.rxtx (t + 1)).cmdMode = (b.rxtx t).cmdMode ∧
    (b.rxtx (t + 1)).oreg =
      (if (b.rxtx t).sckSend then shiftOut (b.rxtx t).cmdMode (b.rxtx t).oreg
        else (b.rxtx t).oreg) ∧
    Spi.left (b.rxtx (t + 1)) =
      (if rises (b.rxtx t) then Spi.left (b.rxtx t) - 1 else Spi.left (b.rxtx t)) ∧
    (b.rxtx (t + 1)).sck1 =
      (if falls (b.rxtx t) then false else if rises (b.rxtx t) then true else (b.rxtx t).sck1) := by
  have hs : startCmd (b.rxtx t) (b.input t).cmd = false := ha
  refine ⟨?_, ?_, left_of_not_start (b.ok t) hs, ?_⟩
  · change (if startCmd (b.rxtx t) (b.input t).cmd then _ else _) = _
    rw [hs, if_neg Bool.false_ne_true]
  · change (if startCmd (b.rxtx t) (b.input t).cmd then _ else _) = _
    rw [hs, if_neg Bool.false_ne_true]
  · have hstep : (b.rxtx (t + 1)).sck1 = if startCmd (b.rxtx t) (b.input t).cmd || falls (b.rxtx t)
        then false else if rises (b.rxtx t) then true else (b.rxtx t).sck1 := sck1_step (b.ok t)
    rw [hstep, hs, Bool.false_or]

theorem ireg_step (b : Bench) (t : Nat) : (b.rxtx (t + 2)).ireg = if rises (b.rxtx t) then
    shiftIn b.dataLines (b.rxtx (t + 1)).cmdMode (b.rxtx (t + 1)).ireg (b.sample t)
    else (b.rxtx (t + 1)).ireg := by
  have hrd : (b.rxtx (t + 1)).sckRecvD = rises (b.rxtx t) := by
    change (if (b.rxtx t).state == .data then (b.rxtx t).sckRecv else false) = _
    unfold rises
    cases (b.rxtx t).state == .data <;> rfl
  rw [← hrd]
  rfl

theorem running_start (ha : b.accepts n = true) : Running b n (n + 1) [] := by
  have hok := b.ok n
  have hs : startCmd (b.rxtx n) (b.input n).cmd = true := ha
  have hlow : (b.rxtx (n + 1)).sck1 = false := by
    have hstep : (b.rxtx (n + 1)).sck1 = if startCmd (b.rxtx n) (b.input n).cmd || falls (b.rxtx n)
        then false else if rises (b.rxtx n) then true else (b.rxtx n).sck1 := sck1_step hok
    rw [hstep, hs]
    rfl
  refine ⟨?_, left_of_startCmd hok hs, ?_, ?_, ?_⟩
  · change (if startCmd (b.rxtx n) (b.input n).cmd then _ else _) = _
    rw [hs, if_pos rfl]
  · intro _ hhigh
    rw [hlow] at hhigh
    cases hhigh
  · intro _
    rw [hlow]
    change (if startCmd (b.rxtx n) (b.input n).cmd then _ else _) = _
    rw [hs, if_pos rfl]
    rfl
  · have hno : rises (b.rxtx n) = false := by
      by_contra hr
      have := hok.not_start_of_rises (by simpa using hr)
      simp only [startCmd, this, Bool.false_and] at hs
      cases hs
    rw [ireg_step, hno]
    rfl

/-- One cycle of a command. -/
theorem Running.step {es : List Nat} (h : Running b n t es) (ha : b.accepts t = false) :
    Running b n (t + 1) (if b.sckRises t then es ++ [t] else es) := by
  have hok := b.ok t
  obtain ⟨hmode, hout, hleft, hsck⟩ := step_of_not_accepts ha
  rw [b.sckRises_eq]
  cases hr : rises (b.rxtx t) with
  | true =>
      -- a bit has gone and one will come
      have hpos : 0 < Spi.left (b.rxtx t) := by
        rw [hok.left_pos_of_rises hr]
        exact Nat.succ_pos _
      have hlow := hok.sck1_of_rises hr
      have hsend : (b.rxtx t).sckSend = false := by
        by_contra hsend
        have := hok.not_send_recv (by simpa using hsend)
        simp [rises, this] at hr
      rw [hr, if_pos rfl] at hleft
      rw [hok.not_falls_of_rises hr, hr, if_neg Bool.false_ne_true, if_pos rfl] at hsck
      rw [hsend, if_neg Bool.false_ne_true] at hout
      simp only [if_true]
      refine ⟨hmode.trans h.mode, ?_, ?_, ?_, ?_⟩
      · have := h.left
        rw [hleft, List.length_append, List.length_singleton]
        omega
      · intro _ _
        simp
      · intro _
        rw [hsck, if_pos rfl, hout, h.out hpos, hlow, if_neg Bool.false_ne_true,
          List.length_append, List.length_singleton, Nat.add_sub_cancel]
      · rw [ireg_step, hr, if_pos rfl, hmode, h.mode, h.data, List.map_append, List.foldl_append]
        rfl
  | false =>
      rw [hr, if_neg Bool.false_ne_true] at hleft
      rw [hr, if_neg Bool.false_ne_true] at hsck
      simp only [Bool.false_eq_true, if_false]
      refine ⟨hmode.trans h.mode, hleft ▸ h.left, ?_, ?_, ?_⟩
      · intro hpos hhigh
        rw [hleft] at hpos
        rw [hsck] at hhigh
        split_ifs at hhigh
        exact h.high hpos hhigh
      · intro hpos
        rw [hleft] at hpos
        have hst : (b.rxtx t).state = .data := by
          refine state_eq_data fun hs => ?_
          rw [left_of_busIdle hs] at hpos
          omega
        have hnn : nextCmd (b.rxtx t) = false := by
          by_contra hn
          rw [left_of_nextCmd (by simpa using hn)] at hpos
          omega
        have hfalls : falls (b.rxtx t) = (b.rxtx t).sckSend := by simp [falls, hst, hnn]
        rw [hout, hsck, hfalls]
        cases hsend : (b.rxtx t).sckSend with
        | true =>
            -- the clock falls and the next bits come out
            have hhigh := hok.sck1_of_falls (hfalls.trans hsend)
            have hes := h.high hpos hhigh
            rw [if_pos rfl, if_pos rfl, if_neg Bool.false_ne_true, h.mode, h.out hpos, hhigh,
              if_pos rfl, ← Function.iterate_succ_apply' (shiftOut _)]
            congr 1
            omega
        | false => exact h.out hpos
      · rw [ireg_step, hr, if_neg Bool.false_ne_true]
        exact h.data

/-- A command, as long as no other has been taken. -/
theorem running_of_current (h : b.Current n (n + 1 + k)) :
    Running b n (n + 1 + k) (b.edges n k) := by
  induction k with
  | zero => exact running_start h.accepted
  | succ k ih =>
      have hk : b.Current n (n + 1 + k) :=
        ⟨h.accepted, by omega, fun j h1 h2 => h.last j h1 (by omega)⟩
      exact (ih hk).step (h.last _ (by omega) (by omega))

/-! ### The clocks of a command -/

theorem mem_edges : t ∈ b.edges n k ↔ n < t ∧ t < n + 1 + k ∧ b.sckRises t = true := by
  induction k with
  | zero =>
      simp only [edges, List.not_mem_nil, false_iff]
      omega
  | succ k ih =>
      unfold edges
      split_ifs with hr
      · rw [List.mem_append, List.mem_singleton, ih]
        constructor
        · rintro (⟨h1, h2, h3⟩ | rfl)
          · exact ⟨h1, by omega, h3⟩
          · exact ⟨by omega, by omega, hr⟩
        · rintro ⟨h1, h2, h3⟩
          by_cases heq : t = n + 1 + k
          · exact Or.inr heq
          · exact Or.inl ⟨h1, by omega, h3⟩
      · rw [ih]
        constructor
        · rintro ⟨h1, h2, h3⟩
          exact ⟨h1, by omega, h3⟩
        · rintro ⟨h1, h2, h3⟩
          refine ⟨h1, ?_, h3⟩
          by_contra hge
          obtain rfl : t = n + 1 + k := by omega
          exact hr h3

theorem edges_sorted (b : Bench) (n k : Nat) : (b.edges n k).Pairwise (· < ·) := by
  induction k with
  | zero => exact List.Pairwise.nil
  | succ k ih =>
      unfold edges
      split_ifs
      · refine List.pairwise_append.mpr ⟨ih, List.pairwise_singleton _ _, fun t ht u hu => ?_⟩
        rw [List.mem_singleton] at hu
        have := (mem_edges.mp ht).2.1
        omega
      · exact ih

theorem length_edges_mono (b : Bench) (n : Nat) : Monotone fun k => (b.edges n k).length := by
  apply monotone_nat_of_le_succ
  intro k
  change (b.edges n k).length ≤ (if _ then _ else _ : List Nat).length
  split_ifs
  · rw [List.length_append]
    omega
  · exact le_rfl

/-- Edge `i` of a command comes when there have been `i` before it. -/
theorem getElem_edges {i : Nat} (hi : i < (b.edges n k).length) : ∃ j, j < k ∧
    (b.edges n k)[i] = n + 1 + j ∧ (b.edges n j).length = i ∧ b.sckRises (n + 1 + j) = true := by
  induction k with
  | zero => simp [edges] at hi
  | succ k ih =>
      by_cases hr : b.sckRises (n + 1 + k) = true
      · have heq : b.edges n (k + 1) = b.edges n k ++ [n + 1 + k] := if_pos hr
        simp only [heq] at hi ⊢
        rw [List.length_append, List.length_singleton] at hi
        by_cases hlt : i < (b.edges n k).length
        · obtain ⟨j, hj, hget, hlen, hrj⟩ := ih hlt
          exact ⟨j, by omega, by rw [List.getElem_append_left hlt, hget], hlen, hrj⟩
        · obtain rfl : i = (b.edges n k).length := by omega
          exact ⟨k, by omega, by simp, rfl, hr⟩
      · have heq : b.edges n (k + 1) = b.edges n k := if_neg hr
        simp only [heq] at hi ⊢
        obtain ⟨j, hj, hrest⟩ := ih hi
        exact ⟨j, by omega, hrest⟩

/-- The clock goes on until the command has made all its edges. -/
theorem exists_left_zero (t : Nat) (h : b.Current n t) :
    ∃ u, b.Current n u ∧ Spi.left (b.rxtx u) = 0 := by
  by_cases hl : Spi.left (b.rxtx t) = 0
  · exact ⟨t, h, hl⟩
  · have hn : nextCmd (b.rxtx t) = false := by
      by_contra hn
      exact hl (left_of_nextCmd (by simpa using hn))
    have ha : b.accepts t = false := by simp [accepts, startCmd, hn]
    have hnext : b.Current n (t + 1) := by
      refine ⟨h.accepted, by have := h.after; omega, fun j h1 h2 => ?_⟩
      rcases Nat.lt_or_eq_of_le (Nat.le_of_lt_succ h2) with hlt | rfl
      · exact h.last j h1 hlt
      · exact ha
    have hdec : Prod.Lex (· < ·) (· < ·)
        (halves (b.rxtx (t + 1)), (b.rxtx (t + 1)).clkDiv - (b.rxtx (t + 1)).counter)
        (halves (b.rxtx t), (b.rxtx t).clkDiv - (b.rxtx t).counter) := by
      have hstep : halves (b.rxtx (t + 1)) < halves (b.rxtx t) ∨
          (halves (b.rxtx (t + 1)) = halves (b.rxtx t) ∧
            (b.rxtx (t + 1)).clkDiv - (b.rxtx (t + 1)).counter <
              (b.rxtx t).clkDiv - (b.rxtx t).counter) := halves_step (b.ok t) hn
      rcases hstep with hlt | ⟨heq, hlt⟩
      · exact Prod.Lex.left _ _ hlt
      · rw [heq]
        exact Prod.Lex.right _ hlt
    exact exists_left_zero (t + 1) hnext
termination_by (halves (b.rxtx t), (b.rxtx t).clkDiv - (b.rxtx t).counter)
decreasing_by exact hdec

theorem Current.mono (h : b.Current n t) {u : Nat} (h1 : n < u) (h2 : u ≤ t) : b.Current n u :=
  ⟨h.accepted, h1, fun j hj hju => h.last j hj (by omega)⟩

theorem Current.succ (h : b.Current n t) (ha : b.accepts t = false) : b.Current n (t + 1) := by
  refine ⟨h.accepted, by have := h.after; omega, fun j h1 h2 => ?_⟩
  rcases Nat.lt_or_eq_of_le (Nat.le_of_lt_succ h2) with hlt | rfl
  · exact h.last j h1 hlt
  · exact ha

/-- A command has a last edge, with all the others before it. -/
theorem exists_last (ha : b.accepts n = true) : ∃ k, b.Current n (n + 1 + k + 1) ∧
    b.sckRises (n + 1 + k) = true ∧ (b.edges n k).length = (b.input n).cmd.clks.toNat := by
  obtain ⟨u, hu, hl⟩ := exists_left_zero (n + 1) ⟨ha, by omega, fun j h1 h2 => by omega⟩
  obtain ⟨K, rfl⟩ : ∃ K, u = n + 1 + K := ⟨u - (n + 1), by have := hu.after; omega⟩
  have hcount := (running_of_current hu).left
  rw [hl, Nat.zero_add] at hcount
  obtain ⟨k, hk, -, hlen, hr⟩ := @getElem_edges b n K (b.input n).cmd.clks.toNat (by omega)
  exact ⟨k, hu.mono (by omega) (by omega), hr, hlen⟩

/-- What a command that is taken at edge `n` does: its rising edges `ts`, and what goes with
them. -/
structure Clocks (b : Bench) (n : Nat) (ts : List Nat) : Prop where
  count : ts.length = (b.input n).cmd.clks.toNat + 1
  sorted : ts.Pairwise (· < ·)
  edges : ∀ t, t ∈ ts ↔ b.sckRises t = true ∧ b.Current n t
  /-- At each edge the lines hold the next bits from the top, the highest of them on line 0. -/
  lines : ∀ (i : Nat) (hi : i < ts.length) (l : Nat), l < modeBits (b.input n).cmd.mode →
    sdatO (b.rxtx ts[i]) l =
      (if modeBits (b.input n).cmd.mode * i + l < 8 then
        (b.input n).cmd.txd.getLsbD (7 - (modeBits (b.input n).cmd.mode * i + l)) else false) ∧
    sdatO (b.rxtx (ts[i] + 1)) l = sdatO (b.rxtx ts[i]) l
  driven : ∀ t ∈ ts, ∀ l, sdatOe (b.rxtx t) l = drives (b.input n).cmd.mode l
  /-- Two cycles after the last edge the samples of all are in the receive register. -/
  received : ∀ T, ts.getLast? = some T → ∀ q, q < 8 →
    q < inBits b.dataLines (b.input n).cmd.mode * ts.length →
    (b.rxtx (T + 2)).ireg.getLsbD q =
      ((ts.map b.sample).getD
        ((b.input n).cmd.clks.toNat - q / inBits b.dataLines (b.input n).cmd.mode) 0).getLsbD
        (inLine b.dataLines (b.input n).cmd.mode + q % inBits b.dataLines (b.input n).cmd.mode)

theorem left_eq_one_iff (hc : b.Current n (n + 1 + k)) :
    Spi.left (b.rxtx (n + 1 + k)) = 1 ↔ (b.edges n k).length = (b.input n).cmd.clks.toNat := by
  have := (running_of_current hc).left
  omega

theorem left_pos_of_sckRises (hr : b.sckRises t = true) : 0 < Spi.left (b.rxtx t) := by
  rw [b.sckRises_eq] at hr
  rw [(b.ok t).left_pos_of_rises hr]
  exact Nat.succ_pos _

/-- At a rising edge no command is taken, and the lines stay as they are. -/
theorem of_sckRises (hr : b.sckRises t = true) :
    b.accepts t = false ∧ (b.rxtx (t + 1)).oreg = (b.rxtx t).oreg := by
  rw [b.sckRises_eq] at hr
  have ha : b.accepts t = false := by
    simp [accepts, startCmd, (b.ok t).not_start_of_rises hr]
  have hsend : (b.rxtx t).sckSend = false := by
    by_contra hsend
    have := (b.ok t).not_send_recv (by simpa using hsend)
    simp [rises, this] at hr
  refine ⟨ha, ?_⟩
  rw [(step_of_not_accepts ha).2.1, hsend, if_neg Bool.false_ne_true]

/-- What the lines hold at a rising edge. -/
theorem sdatO_of_current (hc : b.Current n (n + 1 + k))
    (hr : b.sckRises (n + 1 + k) = true) {l : Nat}
    (hl : l < modeBits (b.input n).cmd.mode) : sdatO (b.rxtx (n + 1 + k)) l =
      if modeBits (b.input n).cmd.mode * (b.edges n k).length + l < 8 then
        (b.input n).cmd.txd.getLsbD
          (7 - (modeBits (b.input n).cmd.mode * (b.edges n k).length + l))
      else false := by
  have hlow : (b.rxtx (n + 1 + k)).sck1 = false :=
    (b.ok _).sck1_of_rises (b.sckRises_eq _ ▸ hr)
  have hw : modeBits (b.input n).cmd.mode ≤ 4 := by
    unfold modeBits
    split_ifs <;> decide
  have hout := (running_of_current hc).out (left_pos_of_sckRises hr)
  rw [hlow, if_neg Bool.false_ne_true, shiftOut_iterate] at hout
  rw [sdatO, hout, BitVec.getLsbD_shiftLeft, decide_eq_true (by omega), Bool.true_and]
  generalize modeBits (b.input n).cmd.mode * (b.edges n k).length = d
  split_ifs with hlt
  · rw [decide_eq_false (by omega), Bool.not_false, Bool.true_and]
    congr 1
    omega
  · rw [decide_eq_true (by omega)]
    rfl

theorem clocks_of_last (hc : b.Current n (n + 1 + k + 1)) (hr : b.sckRises (n + 1 + k) = true)
    (hlen : (b.edges n k).length = (b.input n).cmd.clks.toNat) :
    Clocks b n (b.edges n (k + 1)) := by
  have heq : b.edges n (k + 1) = b.edges n k ++ [n + 1 + k] := if_pos hr
  have hrun := running_of_current (k := k + 1) hc
  have hl : (b.edges n (k + 1)).length = (b.input n).cmd.clks.toNat + 1 := by
    rw [heq, List.length_append, hlen, List.length_singleton]
  refine ⟨hl, b.edges_sorted n (k + 1), fun t => ?_, fun i hi l hlt => ?_, fun t ht l => ?_, ?_⟩
  · rw [mem_edges]
    constructor
    · rintro ⟨h1, h2, h3⟩
      exact ⟨h3, hc.mono h1 (by omega)⟩
    · rintro ⟨h3, hct⟩
      refine ⟨hct.after, ?_, h3⟩
      by_contra hge
      obtain ⟨j, rfl⟩ : ∃ j, t = n + 1 + j := ⟨t - (n + 1), by have := hct.after; omega⟩
      -- all edges have been made before
      have hmono := b.length_edges_mono n (show k + 1 ≤ j by omega)
      simp only [hl] at hmono
      have hleft := (running_of_current hct).left
      have := left_pos_of_sckRises h3
      omega
  · obtain ⟨j, hj, hget, hlenj, hrj⟩ := getElem_edges hi
    rw [hget]
    have hcj : b.Current n (n + 1 + j) := hc.mono (by omega) (by omega)
    have hout := sdatO_of_current hcj hrj hlt
    rw [hlenj] at hout
    exact ⟨hout, by rw [sdatO, sdatO, (of_sckRises hrj).2]⟩
  · obtain ⟨h1, h2, h3⟩ := mem_edges.mp ht
    obtain ⟨j, rfl⟩ : ∃ j, t = n + 1 + j := ⟨t - (n + 1), by omega⟩
    have hst : (b.rxtx (n + 1 + j)).state = .data := by
      rw [b.sckRises_eq] at h3
      simp only [rises, Bool.and_eq_true, beq_iff_eq] at h3
      exact h3.1
    simp [sdatOe, hst, (running_of_current (hc.mono (by omega) (by omega) :
      b.Current n (n + 1 + j))).mode]
  · intro T hT q hq hqt
    obtain rfl : n + 1 + k = T := by
      rw [heq, List.getLast?_append_of_ne_nil _ (List.cons_ne_nil _ _)] at hT
      simpa using hT
    have hdata : (b.rxtx (n + 1 + k + 2)).ireg = _ := hrun.data
    rw [hdata, getLsbD_foldl_shiftIn _ _ _ _ hq (by rw [List.length_map]; exact hqt),
      List.length_map, hl, Nat.add_sub_cancel]

/-- A read gives its ack two cycles after its last edge. -/
theorem dAck_iff (b : Bench) (t : Nat) : (b.rxtx (t + 2)).dAck = true ↔
    ∃ n k, t = n + 1 + k ∧ b.Current n t ∧ b.sckRises t = true ∧
      (b.edges n k).length = (b.input n).cmd.clks.toNat ∧
      (b.input n).cmd.mode.getLsbD 0 = false := by
  have hack : (b.rxtx (t + 2)).dAck =
      (rises (b.rxtx t) && Spi.left (b.rxtx t) == 1 && !(b.rxtx t).cmdMode.getLsbD 0) :=
    @datAckL_step _ (b.input t).cmd b.dataLines (b.datIL t) (b.ok t)
  rw [hack, ← b.sckRises_eq]
  simp only [Bool.and_eq_true, beq_iff_eq, Bool.not_eq_true']
  constructor
  · rintro ⟨⟨hr, hone⟩, hread⟩
    have hst : (b.rxtx t).state = .data := by
      rw [b.sckRises_eq] at hr
      simp only [rises, Bool.and_eq_true, beq_iff_eq] at hr
      exact hr.1
    obtain ⟨n, hc⟩ := exists_current hst
    obtain ⟨k, rfl⟩ : ∃ k, t = n + 1 + k := ⟨t - (n + 1), by have := hc.after; omega⟩
    exact ⟨n, k, rfl, hc, hr, (left_eq_one_iff hc).mp hone, (running_of_current hc).mode ▸ hread⟩
  · rintro ⟨n, k, rfl, hc, hr, hlen, hread⟩
    exact ⟨⟨hr, (left_eq_one_iff hc).mpr hlen⟩, (running_of_current hc).mode.symm ▸ hread⟩

/-- Every command that the shifter takes makes its clocks, with its data on the lines, and every
read gives one ack, with what came in at its clocks; and there are no other clocks, driven lines or
acks. -/
theorem commands (b : Bench) :
    (∀ n, b.accepts n = true → ∃ ts, b.Clocks n ts) ∧
    (∀ t, b.sckRises t = true → ∃ n, b.Current n t) ∧
    (∀ t l, sdatOe (b.rxtx t) l = true →
      ∃ n, b.Current n t ∧ drives (b.input n).cmd.mode l = true) ∧
    (∀ t, (b.rxtx t).dAck = true ↔ ∃ n ts T, b.accepts n = true ∧ b.Clocks n ts ∧
      (b.input n).cmd.mode.getLsbD 0 = false ∧ ts.getLast? = some T ∧ t = T + 2) := by
  refine ⟨fun n ha => ?_, fun t hr => ?_, fun t l hoe => ?_, fun t => ?_⟩
  · obtain ⟨k, hc, hr, hlen⟩ := exists_last ha
    exact ⟨_, clocks_of_last hc hr hlen⟩
  · rw [b.sckRises_eq] at hr
    simp only [rises, Bool.and_eq_true, beq_iff_eq] at hr
    exact exists_current hr.1
  · simp only [sdatOe, Bool.and_eq_true, beq_iff_eq] at hoe
    obtain ⟨n, hc⟩ := exists_current hoe.1
    obtain ⟨k, rfl⟩ : ∃ k, t = n + 1 + k := ⟨t - (n + 1), by have := hc.after; omega⟩
    exact ⟨n, hc, (running_of_current hc).mode ▸ hoe.2⟩
  · constructor
    · intro hack
      obtain ⟨t, rfl⟩ : ∃ u, t = u + 2 := by
        rcases t with _ | _ | u
        · rw [show (b.rxtx 0).dAck = false from b.reset.acks.2] at hack
          cases hack
        · rw [show (b.rxtx 1).dAck = false from b.reset.acks.1] at hack
          cases hack
        · exact ⟨u, rfl⟩
      obtain ⟨n, k, rfl, hc, hr, hlen, hread⟩ := (b.dAck_iff t).mp hack
      have hnext : b.Current n (n + 1 + k + 1) := hc.succ (of_sckRises hr).1
      refine ⟨n, _, n + 1 + k, hc.accepted, clocks_of_last hnext hr hlen, hread, ?_, rfl⟩
      rw [show b.edges n (k + 1) = b.edges n k ++ [n + 1 + k] from if_pos hr,
        List.getLast?_append_of_ne_nil _ (List.cons_ne_nil _ _)]
      rfl
    · rintro ⟨n, ts, T, ha, hts, hread, hlast, rfl⟩
      refine (b.dAck_iff T).mpr ?_
      obtain ⟨hr, hc⟩ := (hts.edges T).mp (List.mem_of_getLast? hlast)
      obtain ⟨k, hck, hrk, hlen⟩ := exists_last ha
      have heq : ts = b.edges n (k + 1) :=
        hts.sorted.eq_of_mem_iff (b.edges_sorted n (k + 1)) fun u =>
          (hts.edges u).trans ((clocks_of_last hck hrk hlen).edges u).symm
      obtain rfl : n + 1 + k = T := by
        rw [heq, show b.edges n (k + 1) = b.edges n k ++ [n + 1 + k] from if_pos hrk,
          List.getLast?_append_of_ne_nil _ (List.cons_ne_nil _ _)] at hlast
        simpa using hlast
      exact ⟨n, k, rfl, hc, hr, hlen, hread⟩

/-- The registers after a reset. -/
def zeroRxtx : Rxtx where
  sck0 := true
  sck1 := true
  clkDiv := 0
  counter := 0
  sckSend := false
  sckRecv := false
  cmdMode := 0
  oreg := 0
  datAckL := false
  dAck := false
  sckRecvD := false
  ireg := 0
  bitCount := 0
  state := .standby

/-- Quad reads of two clocks without a gap, at the fastest clock; the lines count the cycles. -/
def quadReads : Bench where
  dataLines := 4
  inputDelay := 1
  start := zeroRxtx
  datStart := 0
  input := fun n => ⟨⟨true, 0, 6, 1, 0⟩, BitVec.ofNat 4 n, 0⟩
  reset := ⟨⟨rfl, rfl⟩, ⟨rfl, rfl⟩, ⟨rfl, rfl⟩, rfl, ⟨rfl, rfl⟩⟩

example : ((List.range 12).filter fun t => (quadReads.rxtx t).dAck).map
    (fun t => (t, (quadReads.rxtx t).ireg)) = [(6, 0x35), (10, 0x79)] := by decide +kernel

end Bench

end Microwatt.Spi
