import Microwatt.Lib.Fair
import Microwatt.Spi.FlashCtrl

/-!
# The controller with a flash

The flash counts the rising edges of the clock since it was selected.  It takes the command, and if
that is a read command it takes the address; after the dummy clocks it puts a new piece of the data
on its lines at each falling edge, for as long as it is selected.  On the other side stands a master
that has one access at a time.
-/

namespace Microwatt.Spi

open Clocked Soc

/-! ## The flash -/

/-- What belongs to a read command: how many bytes of address, dummy clocks and data lines. -/
structure ReadCmd where
  addrBytes : Nat
  dummies : Nat
  lines : Nat
deriving DecidableEq

structure Flash where
  mem : Nat → BitVec 8
  decode : BitVec 8 → Option ReadCmd

/-- Rising edges since the flash was selected, those up to the last falling edge, and what it
took. -/
structure Device where
  clocks : Nat
  shown : Nat
  cmd : BitVec 8
  adr : Nat
deriving DecidableEq

def Device.clear : Device := ⟨0, 0, 0, 0⟩

/-- The clocks of a read command up to the data. -/
def ReadCmd.header (c : ReadCmd) : Nat :=
  8 + 8 * c.addrBytes + c.dummies

section

variable (f : Flash) (d : Device)

def Device.rise (mosi : Bool) : Device where
  clocks := d.clocks + 1
  shown := d.shown
  cmd := if d.clocks < 8 then d.cmd.extractLsb' 0 7 ++ BitVec.ofBool mosi else d.cmd
  adr :=
    match f.decode d.cmd with
    | some c =>
        if 8 ≤ d.clocks ∧ d.clocks < 8 + 8 * c.addrBytes then 2 * d.adr + mosi.toNat else d.adr
    | none => d.adr

def Device.fall : Device :=
  { d with shown := d.clocks }

/-- What the flash does when its clock or its select changes. -/
def Device.edge (csN sck sck' mosi : Bool) : Device :=
  if csN then .clear
  else if !sck && sck' then d.rise f mosi
  else if sck && !sck' then d.fall
  else d

/-- The bit that the flash puts on its line `l`, when it has more than one. -/
def Device.bit (c : ReadCmd) (l : Nat) : Bool :=
  let k := (d.shown - c.header) * c.lines
  (f.mem (d.adr + k / 8)).getLsbD (8 - k % 8 - c.lines + l)

/-- A line of the bus, with the level that it has when the flash does not drive it. -/
def Device.line (dataLines : Nat) (other : BitVec 4) (l : Nat) : Bool :=
  match f.decode d.cmd with
  | some c =>
      if d.shown < c.header then other.getLsbD l
      else if c.lines = 1 then
        (if l = (if dataLines = 1 then 0 else 1) then d.bit f c 0 else other.getLsbD l)
      else if l < c.lines then d.bit f c l
      else other.getLsbD l
  | none => other.getLsbD l

def Device.sdat (dataLines : Nat) (other : BitVec 4) : BitVec 4 :=
  BitVec.ofBool (d.line f dataLines other 3) ++ BitVec.ofBool (d.line f dataLines other 2) ++
    BitVec.ofBool (d.line f dataLines other 1) ++ BitVec.ofBool (d.line f dataLines other 0)

theorem Device.getLsbD_sdat (dataLines : Nat) (other : BitVec 4) {l : Nat} (hl : l < 4) :
    (d.sdat f dataLines other).getLsbD l = d.line f dataLines other l := by
  unfold Device.sdat
  have hcases : l = 0 ∨ l = 1 ∨ l = 2 ∨ l = 3 := by omega
  rcases hcases with rfl | rfl | rfl | rfl <;> simp only [BitVec.getLsbD_append] <;> simp

end

/-! ## The system -/

/-- An access of the master, to the memory map or to the registers. -/
structure Access where
  map : Bool
  req : WbIoMasterOut
deriving DecidableEq

/-- The access under way stands beside the registers; so do the address with which the selected
flash was first asked for data, and the number of words it has given since. -/
structure Sys where
  st : State
  dev : Device
  outstanding : Option Access
  first : Nat
  words : Nat

/-- What the master and the open data lines have in a cycle. -/
structure Edge where
  wbIn : WbIoMasterOut
  wbSelReg : Bool
  wbSelMap : Bool
  other : BitVec 4

section

variable (g : Config) (f : Flash) (x : Sys) (e : Edge)

def Sys.input : Input where
  wbIn := e.wbIn
  wbSelReg := e.wbSelReg
  wbSelMap := e.wbSelMap
  sdatI := x.dev.sdat f g.dataLines e.other

/-- The request on the bus is accepted. -/
def accepts : Bool :=
  e.wbIn.cyc && e.wbIn.stb && !x.st.wbOut.stall

/-- `sdat_o(0)`. -/
def mosi (s : State) : Bool :=
  s.rxtx.oreg.getLsbD 7

def Sys.step : Sys :=
  let s' := Spi.step g x.st (x.input g f e)
  { st := s'
    dev := x.dev.edge f (csN s') x.st.rxtx.sck1 s'.rxtx.sck1 (mosi s')
    outstanding :=
      if accepts x e then some ⟨e.wbSelMap, e.wbIn⟩
      else if x.st.wbOut.ack then none
      else x.outstanding
    first := if s'.autoState = .csOn ∧ x.st.autoState = .idle then (addr x.st).toNat else x.first
    words :=
      if s'.autoState = .csOn then 0
      else if x.st.autoState = .waitReq ∧ s'.autoState = .dat 0 then x.words + 1
      else x.words }

def Sys.start (s : State) : Sys where
  st := s
  dev := .clear
  outstanding := none
  first := 0
  words := 0

/-- The state before edge `n`. -/
def sysAt (s : State) (input : Nat → Edge) (n : Nat) : Sys :=
  trace (Sys.step g f) (Sys.start s) input n

/-! ## The master -/

/-- No access sets `ctrl_cs`. -/
def Access.KeepsCs (a : Access) : Prop :=
  a.map = false → a.req.we = true → a.req.adr.extractLsb' 0 3 = spiRegCtrl →
    a.req.sel.getLsbD 0 = true → a.req.dat.getLsbD 1 = false

instance (a : Access) : Decidable a.KeepsCs :=
  inferInstanceAs (Decidable (_ → _ → _ → _ → _))

/-- One access at a time, with `ctrl_cs` left alone: a request comes when no access is under way,
with one of the selects, which then stay until the ack. -/
structure OneAtATime : Prop where
  issue : e.wbIn.cyc = true → e.wbIn.stb = true →
    (x.outstanding = none ∨ x.st.wbOut.ack = true) ∧ e.wbSelReg = !e.wbSelMap ∧
      Access.KeepsCs ⟨e.wbSelMap, e.wbIn⟩
  held : ∀ a ∈ x.outstanding, x.st.wbOut.ack = false → e.wbSelMap = a.map ∧ e.wbSelReg = !a.map

/-- A read of the map is not started while a byte is still on its way to the flash. -/
def StartsQuiet : Prop :=
  x.st.autoState = .idle → wbMapValid x.st (x.input g f e) = true → x.st.wbReq.we = false →
    left x.st.rxtx = 0

/-! ## What is read -/

/-- The bytes of address that the machine sends. -/
def addrBytes (s : State) : Nat :=
  if autoCfgAddr4 s then 4 else 3

/-- The dummy clocks that the machine sends. -/
def dummyClocks (s : State) : Nat :=
  if autoCfgDummies s = 0 then 0 else (autoCfgDummies s).toNat + 1

/-- The data lines of a mode. -/
def linesOf (mode : BitVec 2) : Nat :=
  if mode = modeQuad then 4
  else if mode = modeDual then 2
  else 1

/-- The flash has the command of the configuration, with its address length, dummy clocks and mode,
and the controller has the data lines. -/
structure Suits (s : State) : Prop where
  decode : f.decode (autoCfgCmd s) =
    some ⟨addrBytes s, dummyClocks s, linesOf (autoCfgMode s)⟩
  lines : linesOf (autoCfgMode s) ≤ g.dataLines

/-- The flash address of an access. -/
def Access.addr (a : Access) : Nat :=
  4 * (a.req.adr.extractLsb' 0 28).toNat

/-- The address can be sent. -/
def Access.Fits (s : State) (a : Access) : Prop :=
  a.addr + 4 ≤ 2 ^ (8 * addrBytes s)

/-- Four bytes of the flash. -/
def Flash.word (a : Nat) : BitVec 32 :=
  f.mem (a + 3) ++ f.mem (a + 2) ++ f.mem (a + 1) ++ f.mem a

/-- The clocks from the select to the data. -/
def headerClocks (s : State) : Nat :=
  8 + 8 * addrBytes s + dummyClocks s

/-- The clocks of a byte of data. -/
def byteClocks (s : State) : Nat :=
  (modeToClks (autoCfgMode s)).toNat + 1

end

end Microwatt.Spi
