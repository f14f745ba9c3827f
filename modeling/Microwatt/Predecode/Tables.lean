import Microwatt.Predecode.InsnCode

/-!
# The predecode tables

`major_predecode_rom`, indexed by bits 31 to 26 and 4 to 0 of an instruction, and
`row_predecode_rom`, which the opcodes 19, 31, 59 and 63 share.  An entry is a range of addresses.
-/

namespace Microwatt.Predecode

/-- One line of a table. -/
structure RomEntry where
  first : Nat
  last : Nat
  icode : InsnCode

/-- A line for a single address. -/
def RomEntry.one (addr : Nat) (icode : InsnCode) : RomEntry := ⟨addr, addr, icode⟩

/-- What a table holds at an address. -/
def romLookup (rom : List RomEntry) (addr : BitVec 11) : InsnCode :=
  match rom.find? fun e => e.first ≤ addr.toNat && addr.toNat ≤ e.last with
  | some e => e.icode
  | none => .illegal

def majorPredecodeRom : List RomEntry :=
  [⟨0b001100_00000, 0b001100_11111, .addic⟩,
   ⟨0b001101_00000, 0b001101_11111, .addicDot⟩,
   ⟨0b001110_00000, 0b001110_11111, .addi⟩,
   ⟨0b001111_00000, 0b001111_11111, .addis⟩,
   ⟨0b010011_00100, 0b010011_00101, .addpcis⟩,
   ⟨0b011100_00000, 0b011100_11111, .andiDot⟩,
   ⟨0b011101_00000, 0b011101_11111, .andisDot⟩,
   .one 0b000000_00000 .attn,
   ⟨0b010010_00000, 0b010010_00001, .brel⟩,
   ⟨0b010010_00010, 0b010010_00011, .babs⟩,
   ⟨0b010010_00100, 0b010010_00101, .brel⟩,
   ⟨0b010010_00110, 0b010010_00111, .babs⟩,
   ⟨0b010010_01000, 0b010010_01001, .brel⟩,
   ⟨0b010010_01010, 0b010010_01011, .babs⟩,
   ⟨0b010010_01100, 0b010010_01101, .brel⟩,
   ⟨0b010010_01110, 0b010010_01111, .babs⟩,
   ⟨0b010010_10000, 0b010010_10001, .brel⟩,
   ⟨0b010010_10010, 0b010010_10011, .babs⟩,
   ⟨0b010010_10100, 0b010010_10101, .brel⟩,
   ⟨0b010010_10110, 0b010010_10111, .babs⟩,
   ⟨0b010010_11000, 0b010010_11001, .brel⟩,
   ⟨0b010010_11010, 0b010010_11011, .babs⟩,
   ⟨0b010010_11100, 0b010010_11101, .brel⟩,
   ⟨0b010010_11110, 0b010010_11111, .babs⟩,
   ⟨0b010000_00000, 0b010000_00001, .bcrel⟩,
   ⟨0b010000_00010, 0b010000_00011, .bcabs⟩,
   ⟨0b010000_00100, 0b010000_00101, .bcrel⟩,
   ⟨0b010000_00110, 0b010000_00111, .bcabs⟩,
   ⟨0b010000_01000, 0b010000_01001, .bcrel⟩,
   ⟨0b010000_01010, 0b010000_01011, .bcabs⟩,
   ⟨0b010000_01100, 0b010000_01101, .bcrel⟩,
   ⟨0b010000_01110, 0b010000_01111, .bcabs⟩,
   ⟨0b010000_10000, 0b010000_10001, .bcrel⟩,
   ⟨0b010000_10010, 0b010000_10011, .bcabs⟩,
   ⟨0b010000_10100, 0b010000_10101, .bcrel⟩,
   ⟨0b010000_10110, 0b010000_10111, .bcabs⟩,
   ⟨0b010000_11000, 0b010000_11001, .bcrel⟩,
   ⟨0b010000_11010, 0b010000_11011, .bcabs⟩,
   ⟨0b010000_11100, 0b010000_11101, .bcrel⟩,
   ⟨0b010000_11110, 0b010000_11111, .bcabs⟩,
   ⟨0b001011_00000, 0b001011_11111, .cmpi⟩,
   ⟨0b001010_00000, 0b001010_11111, .cmpli⟩,
   ⟨0b100010_00000, 0b100010_11111, .lbz⟩,
   ⟨0b100011_00000, 0b100011_11111, .lbzu⟩,
   ⟨0b110010_00000, 0b110010_11111, .lfd⟩,
   ⟨0b110011_00000, 0b110011_11111, .lfdu⟩,
   ⟨0b110000_00000, 0b110000_11111, .lfs⟩,
   ⟨0b110001_00000, 0b110001_11111, .lfsu⟩,
   ⟨0b101010_00000, 0b101010_11111, .lha⟩,
   ⟨0b101011_00000, 0b101011_11111, .lhau⟩,
   ⟨0b101000_00000, 0b101000_11111, .lhz⟩,
   ⟨0b101001_00000, 0b101001_11111, .lhzu⟩,
   ⟨0b100000_00000, 0b100000_11111, .lwz⟩,
   ⟨0b100001_00000, 0b100001_11111, .lwzu⟩,
   ⟨0b000111_00000, 0b000111_11111, .mulli⟩,
   ⟨0b011000_00000, 0b011000_11111, .ori⟩,
   ⟨0b011001_00000, 0b011001_11111, .oris⟩,
   ⟨0b010100_00000, 0b010100_11111, .rlwimi⟩,
   ⟨0b010101_00000, 0b010101_11111, .rlwinm⟩,
   ⟨0b010111_00000, 0b010111_11111, .rlwnm⟩,
   ⟨0b010001_00000, 0b010001_11111, .sc⟩,
   ⟨0b100110_00000, 0b100110_11111, .stb⟩,
   ⟨0b100111_00000, 0b100111_11111, .stbu⟩,
   ⟨0b110110_00000, 0b110110_11111, .stfd⟩,
   ⟨0b110111_00000, 0b110111_11111, .stfdu⟩,
   ⟨0b110100_00000, 0b110100_11111, .stfs⟩,
   ⟨0b110101_00000, 0b110101_11111, .stfsu⟩,
   ⟨0b101100_00000, 0b101100_11111, .sth⟩,
   ⟨0b101101_00000, 0b101101_11111, .sthu⟩,
   ⟨0b100100_00000, 0b100100_11111, .stw⟩,
   ⟨0b100101_00000, 0b100101_11111, .stwu⟩,
   ⟨0b001000_00000, 0b001000_11111, .subfic⟩,
   ⟨0b000010_00000, 0b000010_11111, .tdi⟩,
   ⟨0b000011_00000, 0b000011_11111, .twi⟩,
   ⟨0b011010_00000, 0b011010_11111, .xori⟩,
   ⟨0b011011_00000, 0b011011_11111, .xoris⟩,
   .one 0b000100_10000 .maddhd,
   .one 0b000100_10001 .maddhdu,
   .one 0b000100_10011 .maddld,
   ⟨0b011110_01000, 0b011110_01001, .rldic⟩,
   ⟨0b011110_01010, 0b011110_01011, .rldic⟩,
   ⟨0b011110_00000, 0b011110_00001, .rldicl⟩,
   ⟨0b011110_00010, 0b011110_00011, .rldicl⟩,
   ⟨0b011110_00100, 0b011110_00101, .rldicr⟩,
   ⟨0b011110_00110, 0b011110_00111, .rldicr⟩,
   ⟨0b011110_01100, 0b011110_01101, .rldimi⟩,
   ⟨0b011110_01110, 0b011110_01111, .rldimi⟩,
   ⟨0b011110_10000, 0b011110_10001, .rldcl⟩,
   ⟨0b011110_10010, 0b011110_10011, .rldcr⟩,
   ⟨0b111000_00000, 0b111000_11111, .lq⟩,
   .one 0b111010_00000 .ld,
   .one 0b111010_00001 .ldu,
   .one 0b111010_00010 .lwa,
   .one 0b111010_00100 .ld,
   .one 0b111010_00101 .ldu,
   .one 0b111010_00110 .lwa,
   .one 0b111010_01000 .ld,
   .one 0b111010_01001 .ldu,
   .one 0b111010_01010 .lwa,
   .one 0b111010_01100 .ld,
   .one 0b111010_01101 .ldu,
   .one 0b111010_01110 .lwa,
   .one 0b111010_10000 .ld,
   .one 0b111010_10001 .ldu,
   .one 0b111010_10010 .lwa,
   .one 0b111010_10100 .ld,
   .one 0b111010_10101 .ldu,
   .one 0b111010_10110 .lwa,
   .one 0b111010_11000 .ld,
   .one 0b111010_11001 .ldu,
   .one 0b111010_11010 .lwa,
   .one 0b111010_11100 .ld,
   .one 0b111010_11101 .ldu,
   .one 0b111010_11110 .lwa,
   ⟨0b111011_00100, 0b111011_00101, .fdivs⟩,
   ⟨0b111011_01000, 0b111011_01001, .fsubs⟩,
   ⟨0b111011_01010, 0b111011_01011, .fadds⟩,
   ⟨0b111011_01100, 0b111011_01101, .fsqrts⟩,
   ⟨0b111011_10000, 0b111011_10001, .fres⟩,
   ⟨0b111011_10010, 0b111011_10011, .fmuls⟩,
   ⟨0b111011_10100, 0b111011_10101, .frsqrtes⟩,
   ⟨0b111011_11000, 0b111011_11001, .fmsubs⟩,
   ⟨0b111011_11010, 0b111011_11011, .fmadds⟩,
   ⟨0b111011_11100, 0b111011_11101, .fnmsubs⟩,
   ⟨0b111011_11110, 0b111011_11111, .fnmadds⟩,
   .one 0b111110_00000 .std,
   .one 0b111110_00001 .stdu,
   .one 0b111110_00010 .stq,
   .one 0b111110_00100 .std,
   .one 0b111110_00101 .stdu,
   .one 0b111110_00110 .stq,
   .one 0b111110_01000 .std,
   .one 0b111110_01001 .stdu,
   .one 0b111110_01010 .stq,
   .one 0b111110_01100 .std,
   .one 0b111110_01101 .stdu,
   .one 0b111110_01110 .stq,
   .one 0b111110_10000 .std,
   .one 0b111110_10001 .stdu,
   .one 0b111110_10010 .stq,
   .one 0b111110_10100 .std,
   .one 0b111110_10101 .stdu,
   .one 0b111110_10110 .stq,
   .one 0b111110_11000 .std,
   .one 0b111110_11001 .stdu,
   .one 0b111110_11010 .stq,
   .one 0b111110_11100 .std,
   .one 0b111110_11101 .stdu,
   .one 0b111110_11110 .stq,
   ⟨0b111111_00100, 0b111111_00101, .fdiv⟩,
   ⟨0b111111_01000, 0b111111_01001, .fsub⟩,
   ⟨0b111111_01010, 0b111111_01011, .fadd⟩,
   ⟨0b111111_01100, 0b111111_01101, .fsqrt⟩,
   ⟨0b111111_01110, 0b111111_01111, .fsel⟩,
   ⟨0b111111_10000, 0b111111_10001, .fre⟩,
   ⟨0b111111_10010, 0b111111_10011, .fmul⟩,
   ⟨0b111111_10100, 0b111111_10101, .frsqrte⟩,
   ⟨0b111111_11000, 0b111111_11001, .fmsub⟩,
   ⟨0b111111_11010, 0b111111_11011, .fmadd⟩,
   ⟨0b111111_11100, 0b111111_11101, .fnmsub⟩,
   ⟨0b111111_11110, 0b111111_11111, .fnmadd⟩,
   ⟨0b000001_00000, 0b000001_11111, .prefixInsn⟩,
   ⟨0b111001_00000, 0b111001_11111, .op57⟩,
   ⟨0b111100_00000, 0b111100_11111, .op60⟩,
   ⟨0b111101_00000, 0b111101_11111, .op61⟩]

def rowPredecodeRom : List RomEntry :=
  [.one 0b0_01000_01010 .add,
   .one 0b0_11000_01010 .add,
   .one 0b0_00000_01010 .addc,
   .one 0b0_10000_01010 .addc,
   .one 0b0_00100_01010 .adde,
   .one 0b0_10100_01010 .adde,
   .one 0b0_00101_01010 .addex,
   .one 0b0_00010_01010 .addg6s,
   .one 0b0_00111_01010 .addme,
   .one 0b0_10111_01010 .addme,
   .one 0b0_00110_01010 .addze,
   .one 0b0_10110_01010 .addze,
   .one 0b0_00000_11100 .and,
   .one 0b0_00001_11100 .andc,
   .one 0b0_00111_11100 .bperm,
   .one 0b0_00110_11011 .brh,
   .one 0b0_00100_11011 .brw,
   .one 0b0_00101_11011 .brd,
   .one 0b0_01001_11010 .cbcdtd,
   .one 0b0_01000_11010 .cdtbcd,
   .one 0b0_00110_11100 .cfuged,
   .one 0b0_00000_00000 .cmp,
   .one 0b0_01111_11100 .cmpb,
   .one 0b0_00111_00000 .cmpeqb,
   .one 0b0_00001_00000 .cmpl,
   .one 0b0_00110_00000 .cmprb,
   .one 0b0_00001_11010 .cntlzd,
   .one 0b0_00000_11010 .cntlzw,
   .one 0b0_10001_11010 .cnttzd,
   .one 0b0_10000_11010 .cnttzw,
   .one 0b0_11010_00110 .rnop,
   .one 0b0_10111_10011 .darn,
   .one 0b0_00010_10110 .dcbf,
   .one 0b0_00001_10110 .dcbst,
   .one 0b0_01000_10110 .dcbt,
   .one 0b0_00111_10110 .dcbtst,
   .one 0b0_11111_10110 .dcbz,
   .one 0b0_01100_01001 .divdeu,
   .one 0b0_11100_01001 .divdeu,
   .one 0b0_01100_01011 .divweu,
   .one 0b0_11100_01011 .divweu,
   .one 0b0_01101_01001 .divde,
   .one 0b0_11101_01001 .divde,
   .one 0b0_01101_01011 .divwe,
   .one 0b0_11101_01011 .divwe,
   .one 0b0_01110_01001 .divdu,
   .one 0b0_11110_01001 .divdu,
   .one 0b0_01110_01011 .divwu,
   .one 0b0_11110_01011 .divwu,
   .one 0b0_01111_01001 .divd,
   .one 0b0_11111_01001 .divd,
   .one 0b0_01111_01011 .divw,
   .one 0b0_11111_01011 .divw,
   .one 0b0_11001_10110 .rnop,
   .one 0b0_01010_10110 .rnop,
   .one 0b0_01011_10110 .rnop,
   .one 0b0_11010_10110 .eieio,
   .one 0b0_01000_11100 .eqv,
   .one 0b0_11101_11010 .extsb,
   .one 0b0_11100_11010 .extsh,
   .one 0b0_11110_11010 .extsw,
   .one 0b0_11011_11010 .extswsli,
   .one 0b0_11011_11011 .extswsli,
   .one 0b0_11110_10110 .icbi,
   .one 0b0_00000_10110 .icbt,
   .one 0b0_00000_01111 .isel,
   .one 0b0_00001_01111 .isel,
   .one 0b0_00010_01111 .isel,
   .one 0b0_00011_01111 .isel,
   .one 0b0_00100_01111 .isel,
   .one 0b0_00101_01111 .isel,
   .one 0b0_00110_01111 .isel,
   .one 0b0_00111_01111 .isel,
   .one 0b0_01000_01111 .isel,
   .one 0b0_01001_01111 .isel,
   .one 0b0_01010_01111 .isel,
   .one 0b0_01011_01111 .isel,
   .one 0b0_01100_01111 .isel,
   .one 0b0_01101_01111 .isel,
   .one 0b0_01110_01111 .isel,
   .one 0b0_01111_01111 .isel,
   .one 0b0_10000_01111 .isel,
   .one 0b0_10001_01111 .isel,
   .one 0b0_10010_01111 .isel,
   .one 0b0_10011_01111 .isel,
   .one 0b0_10100_01111 .isel,
   .one 0b0_10101_01111 .isel,
   .one 0b0_10110_01111 .isel,
   .one 0b0_10111_01111 .isel,
   .one 0b0_11000_01111 .isel,
   .one 0b0_11001_01111 .isel,
   .one 0b0_11010_01111 .isel,
   .one 0b0_11011_01111 .isel,
   .one 0b0_11100_01111 .isel,
   .one 0b0_11101_01111 .isel,
   .one 0b0_11110_01111 .isel,
   .one 0b0_11111_01111 .isel,
   .one 0b0_00001_10100 .lbarx,
   .one 0b0_11010_10101 .lbzcix,
   .one 0b0_00011_10111 .lbzux,
   .one 0b0_00010_10111 .lbzx,
   .one 0b0_00010_10100 .ldarx,
   .one 0b0_10000_10100 .ldbrx,
   .one 0b0_11011_10101 .ldcix,
   .one 0b0_00001_10101 .ldux,
   .one 0b0_00000_10101 .ldx,
   .one 0b0_10010_10111 .lfdx,
   .one 0b0_10011_10111 .lfdux,
   .one 0b0_11010_10111 .lfiwax,
   .one 0b0_11011_10111 .lfiwzx,
   .one 0b0_10000_10111 .lfsx,
   .one 0b0_10001_10111 .lfsux,
   .one 0b0_00011_10100 .lharx,
   .one 0b0_01011_10111 .lhaux,
   .one 0b0_01010_10111 .lhax,
   .one 0b0_11000_10110 .lhbrx,
   .one 0b0_11001_10101 .lhzcix,
   .one 0b0_01001_10111 .lhzux,
   .one 0b0_01000_10111 .lhzx,
   .one 0b0_01000_10100 .lqarx,
   .one 0b0_00000_10100 .lwarx,
   .one 0b0_01011_10101 .lwaux,
   .one 0b0_01010_10101 .lwax,
   .one 0b0_10000_10110 .lwbrx,
   .one 0b0_11000_10101 .lwzcix,
   .one 0b0_00001_10111 .lwzux,
   .one 0b0_00000_10111 .lwzx,
   .one 0b0_10010_00000 .mcrxrx,
   .one 0b0_00000_10011 .mfcr,
   .one 0b0_00010_10011 .mfmsr,
   .one 0b0_01010_10011 .mfspr,
   .one 0b0_01000_01001 .modud,
   .one 0b0_01000_01011 .moduw,
   .one 0b0_11000_01001 .modsd,
   .one 0b0_11000_01011 .modsw,
   .one 0b0_00111_01110 .msgclr,
   .one 0b0_00110_01110 .msgsnd,
   .one 0b0_11011_10110 .msgsync,
   .one 0b0_00100_10000 .mtcrf,
   .one 0b0_00100_10010 .mtmsr,
   .one 0b0_00101_10010 .mtmsrd,
   .one 0b0_01110_10011 .mtspr,
   .one 0b0_00010_01001 .mulhd,
   .one 0b0_00000_01001 .mulhdu,
   .one 0b0_00010_01011 .mulhw,
   .one 0b0_00000_01011 .mulhwu,
   .one 0b0_10010_01001 .mulhd,
   .one 0b0_10000_01001 .mulhdu,
   .one 0b0_10010_01011 .mulhw,
   .one 0b0_10000_01011 .mulhwu,
   .one 0b0_00111_01001 .mulld,
   .one 0b0_10111_01001 .mulld,
   .one 0b0_00111_01011 .mullw,
   .one 0b0_10111_01011 .mullw,
   .one 0b0_01110_11100 .nand,
   .one 0b0_00011_01000 .neg,
   .one 0b0_10011_01000 .neg,
   .one 0b0_10000_10010 .rnop,
   .one 0b0_10001_10010 .rnop,
   .one 0b0_10010_10010 .rnop,
   .one 0b0_10011_10010 .rnop,
   .one 0b0_10110_10010 .hashst,
   .one 0b0_10111_10010 .hashchk,
   .one 0b0_10100_10010 .hashstp,
   .one 0b0_10101_10010 .hashchkp,
   .one 0b0_00011_11100 .nor,
   .one 0b0_01101_11100 .or,
   .one 0b0_01100_11100 .orc,
   .one 0b0_00100_11100 .pdepd,
   .one 0b0_00101_11100 .pextd,
   .one 0b0_00011_11010 .popcntb,
   .one 0b0_01111_11010 .popcntd,
   .one 0b0_01011_11010 .popcntw,
   .one 0b0_00101_11010 .prtyd,
   .one 0b0_00100_11010 .prtyw,
   .one 0b0_00100_00000 .setb,
   .one 0b0_01100_00000 .setb,
   .one 0b0_01101_00000 .setb,
   .one 0b0_01110_00000 .setb,
   .one 0b0_01111_00000 .setb,
   .one 0b0_01111_10010 .slbia,
   .one 0b0_00000_11011 .sld,
   .one 0b0_00000_11000 .slw,
   .one 0b0_11000_11010 .srad,
   .one 0b0_11001_11010 .sradi,
   .one 0b0_11001_11011 .sradi,
   .one 0b0_11000_11000 .sraw,
   .one 0b0_11001_11000 .srawi,
   .one 0b0_10000_11011 .srd,
   .one 0b0_10000_11000 .srw,
   .one 0b0_11110_10101 .stbcix,
   .one 0b0_10101_10110 .stbcx,
   .one 0b0_00111_10111 .stbux,
   .one 0b0_00110_10111 .stbx,
   .one 0b0_10100_10100 .stdbrx,
   .one 0b0_11111_10101 .stdcix,
   .one 0b0_00110_10110 .stdcx,
   .one 0b0_00101_10101 .stdux,
   .one 0b0_00100_10101 .stdx,
   .one 0b0_10110_10111 .stfdx,
   .one 0b0_10111_10111 .stfdux,
   .one 0b0_11110_10111 .stfiwx,
   .one 0b0_10100_10111 .stfsx,
   .one 0b0_10101_10111 .stfsux,
   .one 0b0_11100_10110 .sthbrx,
   .one 0b0_11101_10101 .sthcix,
   .one 0b0_10110_10110 .sthcx,
   .one 0b0_01101_10111 .sthux,
   .one 0b0_01100_10111 .sthx,
   .one 0b0_00101_10110 .stqcx,
   .one 0b0_10100_10110 .stwbrx,
   .one 0b0_11100_10101 .stwcix,
   .one 0b0_00100_10110 .stwcx,
   .one 0b0_00101_10111 .stwux,
   .one 0b0_00100_10111 .stwx,
   .one 0b0_00001_01000 .subf,
   .one 0b0_10001_01000 .subf,
   .one 0b0_00000_01000 .subfc,
   .one 0b0_10000_01000 .subfc,
   .one 0b0_00100_01000 .subfe,
   .one 0b0_10100_01000 .subfe,
   .one 0b0_00111_01000 .subfme,
   .one 0b0_10111_01000 .subfme,
   .one 0b0_00110_01000 .subfze,
   .one 0b0_10110_01000 .subfze,
   .one 0b0_10010_10110 .sync,
   .one 0b0_00010_00100 .td,
   .one 0b0_00000_00100 .tw,
   .one 0b0_01001_10010 .tlbie,
   .one 0b0_01000_10010 .tlbiel,
   .one 0b0_10001_10110 .tlbsync,
   .one 0b0_00000_11110 .wait,
   .one 0b0_01001_11100 .xor,
   .one 0b1_10000_11000 .bcctr,
   .one 0b1_00000_11000 .bclr,
   .one 0b1_10001_11000 .bctar,
   .one 0b1_01000_10001 .crand,
   .one 0b1_00100_10001 .crandc,
   .one 0b1_01001_10001 .creqv,
   .one 0b1_00111_10001 .crnand,
   .one 0b1_00001_10001 .crnor,
   .one 0b1_01110_10001 .cror,
   .one 0b1_01101_10001 .crorc,
   .one 0b1_00110_10001 .crxor,
   .one 0b1_00100_11110 .isync,
   .one 0b1_00000_10000 .mcrf,
   .one 0b1_00000_11010 .rfid,
   .one 0b1_00010_11010 .rfscv,
   .one 0b1_01000_11010 .rfid,
   .one 0b1_11010_10110 .fcfids,
   .one 0b1_11110_10110 .fcfidus,
   .one 0b1_00000_00000 .fcmpu,
   .one 0b1_00001_00000 .fcmpo,
   .one 0b1_00010_00000 .mcrfs,
   .one 0b1_00100_00000 .ftdiv,
   .one 0b1_00101_00000 .ftsqrt,
   .one 0b1_00001_00110 .mtfsb,
   .one 0b1_00010_00110 .mtfsb,
   .one 0b1_00100_00110 .mtfsfi,
   .one 0b1_11010_00110 .fmrgow,
   .one 0b1_11110_00110 .fmrgew,
   .one 0b1_10010_00111 .mffs,
   .one 0b1_10110_00111 .mtfsf,
   .one 0b1_00000_01000 .fcpsgn,
   .one 0b1_00001_01000 .fneg,
   .one 0b1_00010_01000 .fmr,
   .one 0b1_00100_01000 .fnabs,
   .one 0b1_01000_01000 .fabs,
   .one 0b1_01100_01000 .frin,
   .one 0b1_01101_01000 .friz,
   .one 0b1_01110_01000 .frip,
   .one 0b1_01111_01000 .frim,
   .one 0b1_00000_01100 .frsp,
   .one 0b1_00000_01110 .fctiw,
   .one 0b1_00100_01110 .fctiwu,
   .one 0b1_11001_01110 .fctid,
   .one 0b1_11010_01110 .fcfid,
   .one 0b1_11101_01110 .fctidu,
   .one 0b1_11110_01110 .fcfidu,
   .one 0b1_00000_01111 .fctiwz,
   .one 0b1_00100_01111 .fctiwuz,
   .one 0b1_11001_01111 .fctidz,
   .one 0b1_11101_01111 .fctiduz]

end Microwatt.Predecode
