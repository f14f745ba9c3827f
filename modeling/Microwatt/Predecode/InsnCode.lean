import Mathlib.Data.List.Basic

/-!
# Instruction codes

`insn_code` of `decode_types.vhdl` and the primary opcode that goes with a code.  The order of the
codes is part of the design: their positions are what the instruction cache stores.
-/

namespace Microwatt.Predecode

/-- `insn_code`. -/
inductive InsnCode where
  | illegal | fetchFail | prefixInsn | pnop | addic | addicDot | addis | addme | addpcis
  | addze | andiDot | andisDot | attn | brel | babs | bcrel | bcabs | bcctr | bclr | bctar
  | brh | brw | brd | cbcdtd | cdtbcd | cmpi | cmpli | cntlzw | cntlzd | cnttzw | cnttzd
  | crand | crandc | creqv | crnand | crnor | cror | crorc | crxor | darn | eieio | extsb
  | extsh | extsw | extswsli | isync | lbzu | ld | ldu | lhau | lwa | lwzu | mcrf | mcrxrx
  | mfcr | mfmsr | mfspr | msgsync | mtcrf | mtmsr | mtmsrd | mtspr | mulli | neg | nop | ori
  | oris | popcntb | popcntw | popcntd | prtyw | prtyd | rfid | rfscv | rldic | rldicl | rldicr
  | rldimi | rlwimi | rlwinm | rnop | sc | setb | slbia | sradi | srawi | stbu | std | stdu
  | sthu | stq | stwu | subfic | subfme | subfze | sync | tdi | tlbsync | twi | wait | xori
  | xoris | addi | paddi | lbz | plbz | lha | plha | lhz | plhz | lwz | plwz | stb | pstb | sth
  | psth | stw | pstw | lhzu | plwa | lq | plq | op57 | pld | op60 | pstq | op61 | pstd | add
  | addc | adde | addex | addg6s | and | andc | bperm | cfuged | cmp | cmpb | cmpeqb | cmpl
  | cmprb | dcbf | dcbst | dcbt | dcbtst | dcbz | divd | divdu | divde | divdeu | divw | divwu
  | divwe | divweu | eqv | hashchk | hashchkp | hashst | hashstp | icbi | icbt | isel | lbarx
  | lbzcix | lbzux | lbzx | ldarx | ldbrx | ldcix | ldx | ldux | lharx | lhax | lhaux | lhbrx
  | lhzcix | lhzx | lhzux | lqarx | lwarx | lwax | lwaux | lwbrx | lwzcix | lwzx | lwzux
  | modsd | modsw | moduw | modud | msgclr | msgsnd | mulhw | mulhwu | mulhd | mulhdu | mullw
  | mulld | nand | nor | or | orc | pdepd | pextd | rldcl | rldcr | rlwnm | slw | sld | sraw
  | srad | srw | srd | stbcix | stbcx | stbx | stbux | stdbrx | stdcix | stdcx | stdx | stdux
  | sthbrx | sthcix | sthcx | sthx | sthux | stqcx | stwbrx | stwcix | stwcx | stwx | stwux
  | subf | subfc | subfe | td | tlbie | tlbiel | tw | xor | insn242 | insn243 | insn244
  | insn245 | insn246 | insn247 | maddld | maddhd | maddhdu | insn251 | insn252 | insn253
  | insn254 | insn255 | stfd | pstfd | stfs | pstfs | lfd | plfd | lfs | plfs | stfdu | stfsu
  | stfdux | stfdx | stfiwx | stfsux | stfsx | lfdu | lfsu | lfdx | lfdux | lfiwax | lfiwzx
  | lfsx | lfsux | mcrfs | mtfsb | mtfsfi | insn282 | insn283 | insn284 | insn285 | insn286
  | insn287 | fabs | fadd | fadds | fcfid | fcfids | fcfidu | fcfidus | fcmpo | fcmpu | fcpsgn
  | fctid | fctidz | fctidu | fctiduz | fctiw | fctiwz | fctiwu | fctiwuz | fdiv | fdivs | fmr
  | fmrgew | fmrgow | fnabs | fneg | fre | fres | frim | frin | frip | friz | frsp | frsqrte
  | frsqrtes | fsqrt | fsqrts | fsub | fsubs | ftdiv | ftsqrt | mffs | mtfsf | insn330
  | insn331 | insn332 | insn333 | insn334 | insn335 | fmul | fmuls | fmadd | fmadds | fmsub
  | fmsubs | fnmadd | fnmadds | fnmsub | fnmsubs | fsel
deriving DecidableEq

/-- `insn_code'pos`. -/
def InsnCode.pos (icode : InsnCode) : BitVec 10 := BitVec.ofNat 10 icode.ctorIdx

/-- `insn_code'val`. -/
def InsnCode.val (n : BitVec 10) : InsnCode := InsnCode.ofNat n.toNat

/-- `recode_primary_opcode`; `none` stands for undefined bits. -/
def recodePrimaryOpcode (icode : InsnCode) : Option (BitVec 6) :=
  match icode with
  | .addic => some 0b001100
  | .addicDot => some 0b001101
  | .addi => some 0b001110
  | .addis => some 0b001111
  | .addpcis => some 0b010011
  | .andiDot => some 0b011100
  | .andisDot => some 0b011101
  | .attn => some 0b000000
  | .brel => some 0b010010
  | .babs => some 0b010010
  | .bcrel => some 0b010000
  | .bcabs => some 0b010000
  | .brh => some 0b011111
  | .brw => some 0b011111
  | .brd => some 0b011111
  | .cmpi => some 0b001011
  | .cmpli => some 0b001010
  | .lbz => some 0b100010
  | .lbzu => some 0b100011
  | .lfd => some 0b110010
  | .lfdu => some 0b110011
  | .lfs => some 0b110000
  | .lfsu => some 0b110001
  | .lha => some 0b101010
  | .lhau => some 0b101011
  | .lhz => some 0b101000
  | .lhzu => some 0b101001
  | .lq => some 0b111000
  | .lwz => some 0b100000
  | .lwzu => some 0b100001
  | .mulli => some 0b000111
  | .nop => some 0b011000
  | .ori => some 0b011000
  | .oris => some 0b011001
  | .rlwimi => some 0b010100
  | .rlwinm => some 0b010101
  | .rlwnm => some 0b010111
  | .sc => some 0b010001
  | .stb => some 0b100110
  | .stbu => some 0b100111
  | .stfd => some 0b110110
  | .stfdu => some 0b110111
  | .stfs => some 0b110100
  | .stfsu => some 0b110101
  | .sth => some 0b101100
  | .sthu => some 0b101101
  | .stw => some 0b100100
  | .stq => some 0b111110
  | .stwu => some 0b100101
  | .subfic => some 0b001000
  | .tdi => some 0b000010
  | .twi => some 0b000011
  | .xori => some 0b011010
  | .xoris => some 0b011011
  | .maddhd => some 0b000100
  | .maddhdu => some 0b000100
  | .maddld => some 0b000100
  | .rldic => some 0b011110
  | .rldicl => some 0b011110
  | .rldicr => some 0b011110
  | .rldimi => some 0b011110
  | .rldcl => some 0b011110
  | .rldcr => some 0b011110
  | .ld => some 0b111010
  | .ldu => some 0b111010
  | .lwa => some 0b111010
  | .fdivs => some 0b111011
  | .fsubs => some 0b111011
  | .fadds => some 0b111011
  | .fsqrts => some 0b111011
  | .fres => some 0b111011
  | .fmuls => some 0b111011
  | .frsqrtes => some 0b111011
  | .fmsubs => some 0b111011
  | .fmadds => some 0b111011
  | .fnmsubs => some 0b111011
  | .fnmadds => some 0b111011
  | .std => some 0b111110
  | .stdu => some 0b111110
  | .fdiv => some 0b111111
  | .fsub => some 0b111111
  | .fadd => some 0b111111
  | .fsqrt => some 0b111111
  | .fsel => some 0b111111
  | .fre => some 0b111111
  | .fmul => some 0b111111
  | .frsqrte => some 0b111111
  | .fmsub => some 0b111111
  | .fmadd => some 0b111111
  | .fnmsub => some 0b111111
  | .fnmadd => some 0b111111
  | .prefixInsn => some 0b000001
  | .op57 => some 0b111001
  | .op60 => some 0b111100
  | .op61 => some 0b111101
  | .add => some 0b011111
  | .addc => some 0b011111
  | .adde => some 0b011111
  | .addex => some 0b011111
  | .addg6s => some 0b011111
  | .addme => some 0b011111
  | .addze => some 0b011111
  | .and => some 0b011111
  | .andc => some 0b011111
  | .bperm => some 0b011111
  | .cbcdtd => some 0b011111
  | .cdtbcd => some 0b011111
  | .cmp => some 0b011111
  | .cmpb => some 0b011111
  | .cmpeqb => some 0b011111
  | .cmpl => some 0b011111
  | .cmprb => some 0b011111
  | .cntlzd => some 0b011111
  | .cntlzw => some 0b011111
  | .cnttzd => some 0b011111
  | .cnttzw => some 0b011111
  | .darn => some 0b011111
  | .dcbf => some 0b011111
  | .dcbst => some 0b011111
  | .dcbt => some 0b011111
  | .dcbtst => some 0b011111
  | .dcbz => some 0b011111
  | .divdeu => some 0b011111
  | .divweu => some 0b011111
  | .divde => some 0b011111
  | .divwe => some 0b011111
  | .divdu => some 0b011111
  | .divwu => some 0b011111
  | .divd => some 0b011111
  | .divw => some 0b011111
  | .hashchk => some 0b011111
  | .hashchkp => some 0b011111
  | .hashst => some 0b011111
  | .hashstp => some 0b011111
  | .eieio => some 0b011111
  | .eqv => some 0b011111
  | .extsb => some 0b011111
  | .extsh => some 0b011111
  | .extsw => some 0b011111
  | .extswsli => some 0b011111
  | .icbi => some 0b011111
  | .icbt => some 0b011111
  | .isel => some 0b011111
  | .lbarx => some 0b011111
  | .lbzcix => some 0b011111
  | .lbzux => some 0b011111
  | .lbzx => some 0b011111
  | .ldarx => some 0b011111
  | .ldbrx => some 0b011111
  | .ldcix => some 0b011111
  | .ldux => some 0b011111
  | .ldx => some 0b011111
  | .lfdx => some 0b011111
  | .lfdux => some 0b011111
  | .lfiwax => some 0b011111
  | .lfiwzx => some 0b011111
  | .lfsx => some 0b011111
  | .lfsux => some 0b011111
  | .lharx => some 0b011111
  | .lhaux => some 0b011111
  | .lhax => some 0b011111
  | .lhbrx => some 0b011111
  | .lhzcix => some 0b011111
  | .lhzux => some 0b011111
  | .lhzx => some 0b011111
  | .lqarx => some 0b011111
  | .lwarx => some 0b011111
  | .lwaux => some 0b011111
  | .lwax => some 0b011111
  | .lwbrx => some 0b011111
  | .lwzcix => some 0b011111
  | .lwzux => some 0b011111
  | .lwzx => some 0b011111
  | .mcrxrx => some 0b011111
  | .mfcr => some 0b011111
  | .mfmsr => some 0b011111
  | .mfspr => some 0b011111
  | .modud => some 0b011111
  | .moduw => some 0b011111
  | .modsd => some 0b011111
  | .modsw => some 0b011111
  | .msgclr => some 0b011111
  | .msgsnd => some 0b011111
  | .msgsync => some 0b011111
  | .mtcrf => some 0b011111
  | .mtmsr => some 0b011111
  | .mtmsrd => some 0b011111
  | .mtspr => some 0b011111
  | .mulhd => some 0b011111
  | .mulhdu => some 0b011111
  | .mulhw => some 0b011111
  | .mulhwu => some 0b011111
  | .mulld => some 0b011111
  | .mullw => some 0b011111
  | .nand => some 0b011111
  | .neg => some 0b011111
  | .rnop => some 0b011111
  | .nor => some 0b011111
  | .or => some 0b011111
  | .orc => some 0b011111
  | .popcntb => some 0b011111
  | .popcntd => some 0b011111
  | .popcntw => some 0b011111
  | .prtyd => some 0b011111
  | .prtyw => some 0b011111
  | .setb => some 0b011111
  | .slbia => some 0b011111
  | .sld => some 0b011111
  | .slw => some 0b011111
  | .srad => some 0b011111
  | .sradi => some 0b011111
  | .sraw => some 0b011111
  | .srawi => some 0b011111
  | .srd => some 0b011111
  | .srw => some 0b011111
  | .stbcix => some 0b011111
  | .stbcx => some 0b011111
  | .stbux => some 0b011111
  | .stbx => some 0b011111
  | .stdbrx => some 0b011111
  | .stdcix => some 0b011111
  | .stdcx => some 0b011111
  | .stdux => some 0b011111
  | .stdx => some 0b011111
  | .stfdx => some 0b011111
  | .stfdux => some 0b011111
  | .stfiwx => some 0b011111
  | .stfsx => some 0b011111
  | .stfsux => some 0b011111
  | .sthbrx => some 0b011111
  | .sthcix => some 0b011111
  | .sthcx => some 0b011111
  | .sthux => some 0b011111
  | .sthx => some 0b011111
  | .stqcx => some 0b011111
  | .stwbrx => some 0b011111
  | .stwcix => some 0b011111
  | .stwcx => some 0b011111
  | .stwux => some 0b011111
  | .stwx => some 0b011111
  | .subf => some 0b011111
  | .subfc => some 0b011111
  | .subfe => some 0b011111
  | .subfme => some 0b011111
  | .subfze => some 0b011111
  | .sync => some 0b011111
  | .td => some 0b011111
  | .tw => some 0b011111
  | .tlbie => some 0b011111
  | .tlbiel => some 0b011111
  | .tlbsync => some 0b011111
  | .wait => some 0b011111
  | .xor => some 0b011111
  | .bcctr => some 0b010011
  | .bclr => some 0b010011
  | .bctar => some 0b010011
  | .crand => some 0b010011
  | .crandc => some 0b010011
  | .creqv => some 0b010011
  | .crnand => some 0b010011
  | .crnor => some 0b010011
  | .cror => some 0b010011
  | .crorc => some 0b010011
  | .crxor => some 0b010011
  | .isync => some 0b010011
  | .mcrf => some 0b010011
  | .rfid => some 0b010011
  | .fcfids => some 0b111011
  | .fcfidus => some 0b111011
  | .fcmpu => some 0b111111
  | .fcmpo => some 0b111111
  | .mcrfs => some 0b111111
  | .ftdiv => some 0b111111
  | .ftsqrt => some 0b111111
  | .mtfsb => some 0b111111
  | .mtfsfi => some 0b111111
  | .fmrgow => some 0b111111
  | .fmrgew => some 0b111111
  | .mffs => some 0b111111
  | .mtfsf => some 0b111111
  | .fcpsgn => some 0b111111
  | .fneg => some 0b111111
  | .fmr => some 0b111111
  | .fnabs => some 0b111111
  | .fabs => some 0b111111
  | .frin => some 0b111111
  | .friz => some 0b111111
  | .frip => some 0b111111
  | .frim => some 0b111111
  | .frsp => some 0b111111
  | .fctiw => some 0b111111
  | .fctiwu => some 0b111111
  | .fctid => some 0b111111
  | .fcfid => some 0b111111
  | .fctidu => some 0b111111
  | .fcfidu => some 0b111111
  | .fctiwz => some 0b111111
  | .fctiwuz => some 0b111111
  | .fctidz => some 0b111111
  | .fctiduz => some 0b111111
  | _ => none

end Microwatt.Predecode
