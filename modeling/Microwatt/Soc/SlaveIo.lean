import Microwatt.Lib.Run
import Microwatt.Wishbone

/-!
# The I/O bus of the SoC

The processes `slave_io_latch` and `slave_io_intercon` of the SoC with the accelerator.  A 64-bit
access becomes one or two 32-bit accesses, and the device that is meant is selected by a register of
its own for as long as the access lasts.
-/

namespace Microwatt.Soc

/-- `wb_io_master_out`. -/
structure WbIoMasterOut where
  adr : BitVec 30
  dat : BitVec 32
  sel : BitVec 4
  cyc : Bool
  stb : Bool
  we : Bool
deriving DecidableEq

/-- `wb_io_slave_out`. -/
structure WbIoSlaveOut where
  dat : BitVec 32
  ack : Bool
  stall : Bool
deriving DecidableEq

/-- The devices on the I/O bus, and the answer to an address that none of them has.  Each has a
register `io_cycle_*`. -/
inductive Device where
  | none
  | syscon
  | uart
  | uart1
  | icp
  | ics
  | spiFlash
  | gpio
  | external
  | accel
deriving DecidableEq

/-- The registers that tell the parts of a device apart: `wb_ext_is_*` and `wb_spiflash_is_*`. -/
structure Parts where
  extIsDramInit : Bool
  extIsDramCsr : Bool
  extIsEth : Bool
  extIsSdcard : Bool
  spiflashIsMap : Bool
  spiflashIsReg : Bool
deriving DecidableEq

def Parts.off : Parts := ⟨false, false, false, false, false, false⟩

/-- `state_t` of the latch. -/
inductive LatchState where
  | idle
  | waitAckBot
  | waitAckTop
deriving DecidableEq

/-- The generics that the address decoder looks at. -/
structure Config where
  hasDram : Bool
  hasLiteeth : Bool
  hasSdCard : Bool

/-- The registers of the latch. -/
structure State where
  state : LatchState
  hasTop : Bool
  hasBot : Bool
  datLatch : BitVec 32
  selLatch : BitVec 4
  wbIoOut : WishboneSlaveOut
  wbSioOut : WbIoMasterOut
  ioCycle : Device → Bool
  parts : Parts
  /-- `current_io_decode`; an address without a device leaves it at `SLAVE_IO_SYSCON`. -/
  currentIoDecode : Device

/-- The inputs of one cycle: the access on the 64-bit bus and what the devices answer. -/
structure Input where
  socReset : Bool
  wbIoIn : WishboneMasterOut
  deviceOut : Device → WbIoSlaveOut

section

variable (c : Config)

/-- The decoder: `match` holds real address bits 31 to 12. -/
def decode (m : BitVec 20) : Device × Parts :=
  if m.extractLsb' 12 8 = 0xff ∧ c.hasDram = true then
    (.external, { Parts.off with extIsDramInit := true })
  else if m.extractLsb' 16 4 = 0xf then
    (.spiFlash, { Parts.off with spiflashIsMap := true })
  else if m.extractLsb' 12 8 = 0xc8 then
    -- the chip selects of the external I/O
    if m.extractLsb' 4 8 = 0x00 ∧ c.hasDram = true then
      (.external, { Parts.off with extIsDramCsr := true })
    else if (m.extractLsb' 4 8 = 0x02 ∨ m.extractLsb' 4 8 = 0x03) ∧ c.hasLiteeth = true then
      (.external, { Parts.off with extIsEth := true })
    else if m.extractLsb' 4 8 = 0x04 ∧ c.hasSdCard = true then
      (.external, { Parts.off with extIsSdcard := true })
    else (.none, Parts.off)
  else if m = 0xc0000 then (.syscon, Parts.off)
  else if m = 0xc0002 then (.uart, Parts.off)
  else if m = 0xc0003 then (.uart1, Parts.off)
  else if m = 0xc0004 then (.icp, Parts.off)
  else if m = 0xc0005 then (.ics, Parts.off)
  else if m = 0xc0006 then (.spiFlash, { Parts.off with spiflashIsReg := true })
  else if m = 0xc0007 then (.gpio, Parts.off)
  else if m = 0xc0008 then (.accel, Parts.off)
  else (.none, Parts.off)

/-- The device at a 64-bit bus address. -/
def deviceAt (adr : WbAddr) : Device :=
  (decode c (3#2 ++ adr.extractLsb' 9 18)).1

/-- The device at an address of the 32-bit bus. -/
def deviceAtIo (adr : BitVec 30) : Device :=
  (decode c (3#2 ++ adr.extractLsb' 10 18)).1

variable (s : State) (i : Input)

/-- `wb_sio_in`: the answer of the device that was decoded, or the default one. -/
def wbSioIn : WbIoSlaveOut :=
  if s.ioCycle .none then ⟨BitVec.allOnes 32, s.wbSioOut.stb && s.wbSioOut.cyc, false⟩
  else i.deviceOut s.currentIoDecode

/-- `do_cyc`: an access starts. -/
def doCyc : Bool :=
  !i.socReset && s.state == .idle && i.wbIoIn.cyc && i.wbIoIn.stb

/-- A word is acked and is the last of its access. -/
def lastAck : Bool :=
  (wbSioIn s i).ack && (s.state == .waitAckTop || (s.state == .waitAckBot && !s.hasTop))

/-- `end_cyc`: an access ends. -/
def endCyc : Bool :=
  i.socReset || lastAck s i

/-- The start of an access in state `IDLE`: the low word first, if there is one. -/
def startAccess : State :=
  let hasBot := i.wbIoIn.sel.extractLsb' 0 4 != 0
  { s with
    state := if hasBot then .waitAckBot else .waitAckTop
    hasTop := i.wbIoIn.sel.extractLsb' 4 4 != 0
    hasBot := hasBot
    datLatch := i.wbIoIn.dat.extractLsb' 32 32
    selLatch := i.wbIoIn.sel.extractLsb' 4 4
    wbIoOut := { s.wbIoOut with ack := false, stall := true }
    wbSioOut := { s.wbSioOut with
      stb := true
      we := i.wbIoIn.we
      adr := i.wbIoIn.adr ++ (if hasBot then 0#1 else 1#1)
      dat := if hasBot then i.wbIoIn.dat.extractLsb' 0 32 else i.wbIoIn.dat.extractLsb' 32 32
      sel := if hasBot then i.wbIoIn.sel.extractLsb' 0 4 else i.wbIoIn.sel.extractLsb' 4 4 } }

/-- The end of an access: ack it upstream. -/
def finishAccess (v : State) : State :=
  { v with
    state := .idle
    wbIoOut := { v.wbIoOut with ack := true, stall := false } }

/-- The state machine outside reset. -/
def latch : State :=
  match s.state with
  | .idle =>
      if i.wbIoIn.cyc && i.wbIoIn.stb then startAccess s i
      else { s with wbIoOut := { s.wbIoOut with ack := false } }
  | .waitAckBot =>
      let stb := s.wbSioOut.stb && (wbSioIn s i).stall
      if (wbSioIn s i).ack then
        let v := { s with
          wbIoOut := { s.wbIoOut with
            dat := s.wbIoOut.dat.extractLsb' 32 32 ++ (wbSioIn s i).dat } }
        if s.hasTop then
          { v with
            state := .waitAckTop
            wbSioOut := { s.wbSioOut with
              dat := s.datLatch
              sel := s.selLatch
              adr := s.wbSioOut.adr.extractLsb' 1 29 ++ 1#1
              stb := true } }
        else finishAccess { v with wbSioOut := { s.wbSioOut with stb := stb } }
      else { s with wbSioOut := { s.wbSioOut with stb := stb } }
  | .waitAckTop =>
      let stb := s.wbSioOut.stb && (wbSioIn s i).stall
      if (wbSioIn s i).ack then
        finishAccess { s with
          wbIoOut := { s.wbIoOut with
            dat := (wbSioIn s i).dat ++ s.wbIoOut.dat.extractLsb' 0 32 }
          wbSioOut := { s.wbSioOut with stb := stb } }
      else { s with wbSioOut := { s.wbSioOut with stb := stb } }

/-- `slave_io_latch` in reset. -/
def resetLatch : State :=
  { s with
    state := .idle
    hasTop := false
    hasBot := false
    datLatch := 0
    selLatch := 0
    wbIoOut := { s.wbIoOut with ack := false, stall := false }
    wbSioOut := { s.wbSioOut with stb := false } }

/-- The registered selects: the list that is cleared at the start and at the end of an access leaves
out `io_cycle_accel`. -/
def selects : Device → Bool :=
  let cleared := fun d =>
    if (doCyc s i || endCyc s i) && d != .accel then false else s.ioCycle d
  if doCyc s i then Function.update cleared (deviceAt c i.wbIoIn.adr) true else cleared

/-- One clock edge. -/
def step : State :=
  let v := if i.socReset then resetLatch s else latch s i
  let wbSioOut := { v.wbSioOut with
    cyc := if doCyc s i then true else if endCyc s i then false else s.wbSioOut.cyc }
  let parts :=
    if doCyc s i then (decode c (3#2 ++ i.wbIoIn.adr.extractLsb' 9 18)).2
    else if endCyc s i then Parts.off
    else s.parts
  let dev := deviceAt c i.wbIoIn.adr
  { v with
    wbSioOut := wbSioOut
    ioCycle := selects c s i
    parts := parts
    currentIoDecode :=
      if doCyc s i then (if dev = .none then .syscon else dev) else s.currentIoDecode }

end

/-- The bus as a device sees it: only `cyc` is its own.  The widths of the XICS and flash addresses
are cut down on the way. -/
def deviceIn (s : State) (d : Device) : WbIoMasterOut :=
  let w := { s.wbSioOut with cyc := s.ioCycle d }
  match d with
  | .spiFlash => { w with adr := w.adr.extractLsb' 28 2 ++ 0#2 ++ w.adr.extractLsb' 0 26 }
  | .icp => { w with adr := (w.adr.extractLsb' 0 6).setWidth 30 }
  | .ics => { w with adr := (w.adr.extractLsb' 0 10).setWidth 30 }
  | _ => w

/-- Power-on. -/
def State.cold : State where
  state := .idle
  hasTop := false
  hasBot := false
  datLatch := 0
  selLatch := 0
  wbIoOut := ⟨0, false, false⟩
  wbSioOut := ⟨0, 0, 0, false, false, false⟩
  ioCycle := fun _ => false
  parts := Parts.off
  currentIoDecode := .syscon

/-! ## The selects -/

/-- The selects are as they should be: that of the device at the address of the access that is
under way, and no other. -/
structure SelectsOne (c : Config) (s : State) : Prop where
  decoded : ∀ d, s.ioCycle d = true ↔ s.state ≠ .idle ∧ d = deviceAtIo c s.wbSioOut.adr
  alone : ∀ d e, s.ioCycle d = true → s.ioCycle e = true → d = e
  idle : s.wbIoOut.ack = true → ∀ d, s.ioCycle d = false
  seen : ∀ d, (deviceIn s d).cyc = true → (deviceIn s d).stb = true →
    d = deviceAtIo c s.wbSioOut.adr

/-- An access to the accelerator ends, by its ack or by a reset. -/
def endsAccel (c : Config) (s : State) (i : Input) : Prop :=
  s.state ≠ .idle ∧ deviceAtIo c s.wbSioOut.adr = .accel ∧ endCyc s i = true

section

variable {c : Config} {s : State} {i : Input}

theorem deviceIn_cyc (d : Device) : (deviceIn s d).cyc = s.ioCycle d := by
  cases d <;> rfl

/-- What the selects look like while an access lasts, and that the ack comes after it. -/
structure SelectInv (c : Config) (s : State) : Prop where
  decoded : ∀ d, s.ioCycle d = true ↔ s.state ≠ .idle ∧ d = deviceAtIo c s.wbSioOut.adr
  acked : s.wbIoOut.ack = true → s.state = .idle

theorem SelectInv.selectsOne (h : SelectInv c s) : SelectsOne c s where
  decoded := h.decoded
  alone := by
    intro d e hd he
    rw [((h.decoded d).mp hd).2, ((h.decoded e).mp he).2]
  idle := by
    intro ha d
    by_contra hd
    exact ((h.decoded d).mp (by simpa using hd)).1 (h.acked ha)
  seen := by
    intro d hd _
    rw [deviceIn_cyc] at hd
    exact ((h.decoded d).mp hd).2

/-- The low bit of the 32-bit address does not matter to the decoder. -/
theorem deviceAtIo_append (a : BitVec 29) (b : BitVec 1) :
    deviceAtIo c (a ++ b) = deviceAt c a := by
  have : (a ++ b).extractLsb' 10 18 = a.extractLsb' 9 18 := by
    apply BitVec.eq_of_getLsbD_eq
    intro k hk
    simp only [BitVec.getLsbD_extractLsb', BitVec.getLsbD_append, hk, decide_true, Bool.true_and]
    rw [if_neg (by omega)]
    congr 1
    omega
  rw [deviceAtIo, deviceAt, this]

theorem deviceAtIo_bump (a : BitVec 30) (b : BitVec 1) :
    deviceAtIo c (a.extractLsb' 1 29 ++ b) = deviceAtIo c a := by
  rw [deviceAtIo_append]
  have : (a.extractLsb' 1 29).extractLsb' 9 18 = a.extractLsb' 10 18 := by
    apply BitVec.eq_of_getLsbD_eq
    intro k hk
    have hk' : 9 + k < 29 := by omega
    simp only [BitVec.getLsbD_extractLsb', hk, hk', decide_true, Bool.true_and]
    congr 1
    omega
  rw [deviceAt, deviceAtIo, this]

/-- An access that ends clears the selects, unless it is one to the accelerator. -/
theorem SelectInv.selects_end (h : SelectInv c s) (hd : doCyc s i = false)
    (he : endCyc s i = true) (hn : ¬ endsAccel c s i) (d : Device) : selects c s i d = false := by
  simp only [selects, hd, he, Bool.false_or, Bool.false_eq_true, if_false, Bool.true_and]
  split_ifs with hne
  · rfl
  · obtain rfl : d = .accel := by simpa using hne
    by_contra hacc
    obtain ⟨hidle, hdev⟩ := (h.decoded .accel).mp (by simpa using hacc)
    exact hn ⟨hidle, hdev.symm, he⟩

theorem selects_kept (hd : doCyc s i = false) (he : endCyc s i = false) :
    selects c s i = s.ioCycle := by
  simp [selects, hd, he]

/-- The selects at the start of an access. -/
theorem SelectInv.selects_start (h : SelectInv c s) (hd : doCyc s i = true) (d : Device) :
    selects c s i d = true ↔ d = deviceAt c i.wbIoIn.adr := by
  have hidle : s.state = .idle := by
    simp only [doCyc, Bool.and_eq_true, beq_iff_eq] at hd
    exact hd.1.1.2
  have hoff : ∀ e, s.ioCycle e = false := by
    intro e
    by_contra he
    exact ((h.decoded e).mp (by simpa using he)).1 hidle
  simp only [selects, hd, if_true]
  by_cases hdev : d = deviceAt c i.wbIoIn.adr
  · subst hdev
    simp
  · simp [hoff, hdev]

/-- The machine goes to `IDLE` when an access ends. -/
theorem step_of_end (he : endCyc s i = true) :
    (step c s i).state = .idle := by
  unfold endCyc at he
  cases hr : i.socReset with
  | true => simp [step, hr, resetLatch]
  | false =>
      rw [hr, Bool.false_or] at he
      simp only [lastAck, Bool.and_eq_true, Bool.or_eq_true, beq_iff_eq, Bool.not_eq_true'] at he
      obtain ⟨hack, hst | ⟨hst, htop⟩⟩ := he
      · simp [step, hr, latch, hst, hack, finishAccess]
      · simp [step, hr, latch, hst, hack, htop, finishAccess]

theorem step_of_start (hd : doCyc s i = true) : (step c s i).state ≠ .idle ∧
    deviceAtIo c (step c s i).wbSioOut.adr = deviceAt c i.wbIoIn.adr ∧
    (step c s i).wbIoOut.ack = false := by
  simp only [doCyc, Bool.and_eq_true, beq_iff_eq, Bool.not_eq_true'] at hd
  obtain ⟨⟨⟨hr, hst⟩, hcyc⟩, hstb⟩ := hd
  have hv : latch s i = startAccess s i := by simp [latch, hst, hcyc, hstb]
  refine ⟨?_, ?_, ?_⟩
  · simp only [step, hr, Bool.false_eq_true, if_false, hv, startAccess]
    split_ifs <;> decide
  · simp only [step, hr, Bool.false_eq_true, if_false, hv, startAccess]
    exact deviceAtIo_append _ _
  · simp [step, hr, hv, startAccess]

/-- In the other cycles an access goes on, or there is none. -/
theorem step_of_kept (hd : doCyc s i = false) (he : endCyc s i = false) :
    ((step c s i).state = .idle ↔ s.state = .idle) ∧
    deviceAtIo c (step c s i).wbSioOut.adr = deviceAtIo c s.wbSioOut.adr ∧
    ((step c s i).wbIoOut.ack = true → s.wbIoOut.ack = true ∧ s.state ≠ .idle) := by
  obtain ⟨hr, hlast⟩ := Bool.or_eq_false_iff.mp he
  cases hst : s.state with
  | idle =>
      have hno : (i.wbIoIn.cyc && i.wbIoIn.stb) = false := by
        simpa [doCyc, hr, hst, Bool.and_assoc] using hd
      have hv : latch s i = { s with wbIoOut := { s.wbIoOut with ack := false } } := by
        simp [latch, hst, hno]
      refine ⟨?_, ?_, ?_⟩ <;> simp [step, hr, hv, hst]
  | waitAckBot =>
      cases hack : (wbSioIn s i).ack with
      | true =>
          have htop : s.hasTop = true := by simpa [lastAck, hack, hst] using hlast
          refine ⟨?_, ?_, ?_⟩
          · simp [step, hr, latch, hst, hack, htop]
          · simp only [step, hr, Bool.false_eq_true, if_false, latch, hst, hack, if_true, htop]
            exact deviceAtIo_bump _ _
          · simp [step, hr, latch, hst, hack, htop]
      | false =>
          refine ⟨?_, ?_, ?_⟩ <;> simp [step, hr, latch, hst, hack]
  | waitAckTop =>
      have hack : (wbSioIn s i).ack = false := by simpa [lastAck, hst] using hlast
      refine ⟨?_, ?_, ?_⟩ <;> simp [step, hr, latch, hst, hack]

theorem SelectInv.step (h : SelectInv c s) (hn : ¬ endsAccel c s i) :
    SelectInv c (step c s i) := by
  have hsel : (Soc.step c s i).ioCycle = selects c s i := rfl
  cases hd : doCyc s i with
  | true =>
      obtain ⟨hst, hdev, hack⟩ := @step_of_start c s i hd
      constructor
      · intro d
        rw [hsel, h.selects_start hd, hdev]
        simp [hst]
      · rw [hack]
        nofun
  | false =>
      cases he : endCyc s i with
      | true =>
          have hst := @step_of_end c s i he
          constructor
          · intro d
            rw [hsel, h.selects_end hd he hn, hst]
            simp
          · exact fun _ => hst
      | false =>
          obtain ⟨hst, hdev, hack⟩ := @step_of_kept c s i hd he
          constructor
          · intro d
            rw [hsel, selects_kept hd he, h.decoded, ne_eq, ne_eq, hst, hdev]
          · intro ha
            obtain ⟨ha', hne⟩ := hack ha
            exact absurd (h.acked ha') hne

/-- After an access to the accelerator its select stays. -/
theorem SelectsOne.not_step (h : SelectsOne c s) (he : endsAccel c s i) :
    ¬ SelectsOne c (Soc.step c s i) := by
  obtain ⟨hst, hdev, hend⟩ := he
  have hd : doCyc s i = false := by simp [doCyc, hst]
  intro h'
  have hacc : (Soc.step c s i).ioCycle .accel = true := by
    show selects c s i .accel = true
    simp only [selects, hd, hend, Bool.false_or, Bool.false_eq_true, if_false]
    exact (h.decoded .accel).mpr ⟨hst, hdev.symm⟩
  exact ((h'.decoded .accel).mp hacc).1 (step_of_end hend)

theorem selectInv_cold : SelectInv c State.cold := by
  constructor
  · intro d
    simp [State.cold]
  · exact fun _ => rfl

/-- In a run from power-on the selects are right in every state that is reached if and only if no
access to the accelerator ends before the last of them. -/
theorem selects_one_iff (c : Config) (is : List Input) :
    (∀ pre, pre <+: is → SelectsOne c (Clocked.run (Soc.step c) State.cold pre)) ↔
      Clocked.Along (Soc.step c) (fun s i => ¬ endsAccel c s i) State.cold is := by
  have hgen : ∀ (is : List Input) (s : State), SelectInv c s →
      ((∀ pre, pre <+: is → SelectsOne c (Clocked.run (Soc.step c) s pre)) ↔
        Clocked.Along (Soc.step c) (fun s i => ¬ endsAccel c s i) s is) := by
    intro is
    induction is with
    | nil =>
        intro s h
        refine ⟨fun _ => trivial, fun _ pre hpre => ?_⟩
        rw [List.prefix_nil.mp hpre]
        exact h.selectsOne
    | cons i is ih =>
        intro s h
        constructor
        · intro hall
          have hn : ¬ endsAccel c s i := by
            intro he
            exact h.selectsOne.not_step he (hall [i] (by simp))
          refine ⟨hn, (ih _ (h.step hn)).mp ?_⟩
          intro pre hpre
          exact hall (i :: pre) (List.prefix_cons_inj i |>.mpr hpre)
        · rintro ⟨hn, hrest⟩ pre hpre
          cases pre with
          | nil => exact h.selectsOne
          | cons j pre =>
              obtain ⟨rfl, hpre'⟩ := List.cons_prefix_cons.mp hpre
              exact (ih _ (h.step hn)).mpr hrest pre hpre'
  exact hgen is State.cold selectInv_cold

end

/-- An access to a 64-bit bus address, low word only. -/
def Input.access (adr : WbAddr) : Input where
  socReset := false
  wbIoIn := ⟨adr, 0, 0x0f, true, true, false⟩
  deviceOut _ := ⟨0, false, false⟩

/-- The device acks. -/
def Input.acked : Input where
  socReset := false
  wbIoIn := ⟨0, 0, 0, false, false, false⟩
  deviceOut _ := ⟨0, true, false⟩

/-- The accelerator at `0xC0008000` is read, and then the UART at `0xC0002000`. -/
def accelThenUart : List Input :=
  [.access 0x18001000, .acked, .access 0x18000400]

/-- Both devices see the access to the UART. -/
theorem accel_sees_uart_access :
    let s := Clocked.run (Soc.step ⟨true, true, true⟩) State.cold accelThenUart
    deviceAtIo ⟨true, true, true⟩ s.wbSioOut.adr = .uart ∧
    ((deviceIn s .uart).cyc = true ∧ (deviceIn s .uart).stb = true) ∧
    (deviceIn s .accel).cyc = true ∧ (deviceIn s .accel).stb = true ∧
    ¬ SelectsOne ⟨true, true, true⟩ s := by
  refine ⟨by decide +kernel, by decide +kernel, by decide +kernel, by decide +kernel, fun h => ?_⟩
  have := h.alone .uart .accel (by decide +kernel) (by decide +kernel)
  cases this

end Microwatt.Soc
