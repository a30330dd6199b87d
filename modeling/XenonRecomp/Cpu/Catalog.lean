/-
# The opcode catalogue

`src/cpu/ppc/decoder/opcode_catalog.inc`, one row per opcode: the pattern of
its fixed bits, its mnemonic, its instruction format and its group.  The
`InstructionType` column is read by no function modelled here and is left out.

The rows keep the order of the source, which `Decoder::make_decode_index`
depends on.
-/

import XenonRecomp.Cpu.Mnemonic
import Mathlib.Data.BitVec

namespace XenonRecomp
namespace Cpu

/-- `InstructionFormat`. -/
inductive InstructionFormat where
  | SC | D | DS | B | I | X | XL | XFX | XFL | XS | XO | A | M | MD | MDS | DCBZ
  | VX | VC | VA | VX128 | VX128_1 | VX128_2 | VX128_3 | VX128_4 | VX128_5 | VX128_R | VX128_P
deriving DecidableEq, Repr

/-- `InstructionGroup`. -/
inductive InstructionGroup where
  | Branch | Control | Memory | Integer | FloatingPoint | Vector
deriving DecidableEq, Repr

/-- `OpcodeInfo`: what a catalogue row says about one opcode. -/
structure OpcodeInfo where
  pattern : BitVec 32
  mnemonic : Mnemonic
  format : InstructionFormat
  group : InstructionGroup
deriving DecidableEq, Repr

/-- `kCatalog`: the rows of `opcode_catalog.inc`. -/
def opcodeCatalog : List OpcodeInfo := [
  ⟨0x7c000014, .addcx, .XO, .Integer⟩, ⟨0x7c000114, .addex, .XO, .Integer⟩,
  ⟨0x38000000, .addi, .D, .Integer⟩, ⟨0x30000000, .addic, .D, .Integer⟩,
  ⟨0x34000000, .addicx, .D, .Integer⟩, ⟨0x3c000000, .addis, .D, .Integer⟩,
  ⟨0x7c0001d4, .addmex, .XO, .Integer⟩, ⟨0x7c000214, .addx, .XO, .Integer⟩,
  ⟨0x7c000194, .addzex, .XO, .Integer⟩, ⟨0x7c000078, .andcx, .X, .Integer⟩,
  ⟨0x74000000, .andisx, .D, .Integer⟩, ⟨0x70000000, .andix, .D, .Integer⟩,
  ⟨0x7c000038, .andx, .X, .Integer⟩, ⟨0x4c000420, .bcctrx, .XL, .Branch⟩,
  ⟨0x4c000020, .bclrx, .XL, .Branch⟩, ⟨0x40000000, .bcx, .B, .Branch⟩,
  ⟨0x48000000, .bx, .I, .Branch⟩, ⟨0x7c000000, .cmp, .X, .Integer⟩,
  ⟨0x2c000000, .cmpi, .D, .Integer⟩, ⟨0x7c000040, .cmpl, .X, .Integer⟩,
  ⟨0x28000000, .cmpli, .D, .Integer⟩, ⟨0x7c000074, .cntlzdx, .X, .Integer⟩,
  ⟨0x7c000034, .cntlzwx, .X, .Integer⟩, ⟨0x4c000202, .crand, .XL, .Control⟩,
  ⟨0x4c000102, .crandc, .XL, .Control⟩, ⟨0x4c000242, .creqv, .XL, .Control⟩,
  ⟨0x4c0001c2, .crnand, .XL, .Control⟩, ⟨0x4c000042, .crnor, .XL, .Control⟩,
  ⟨0x4c000382, .cror, .XL, .Control⟩, ⟨0x4c000342, .crorc, .XL, .Control⟩,
  ⟨0x4c000182, .crxor, .XL, .Control⟩, ⟨0x7c0000ac, .dcbf, .X, .Memory⟩,
  ⟨0x7c0003ac, .dcbi, .X, .Memory⟩, ⟨0x7c00006c, .dcbst, .X, .Memory⟩,
  ⟨0x7c00022c, .dcbt, .X, .Memory⟩, ⟨0x7c0001ec, .dcbtst, .X, .Memory⟩,
  ⟨0x7c0007ec, .dcbz, .DCBZ, .Memory⟩, ⟨0x7c2007ec, .dcbz128, .DCBZ, .Memory⟩,
  ⟨0x7c000392, .divdux, .XO, .Integer⟩, ⟨0x7c0003d2, .divdx, .XO, .Integer⟩,
  ⟨0x7c000396, .divwux, .XO, .Integer⟩, ⟨0x7c0003d6, .divwx, .XO, .Integer⟩,
  ⟨0x7c0006ac, .eieio, .X, .Integer⟩, ⟨0x7c000238, .eqvx, .X, .Integer⟩,
  ⟨0x7c000774, .extsbx, .X, .Integer⟩, ⟨0x7c000734, .extshx, .X, .Integer⟩,
  ⟨0x7c0007b4, .extswx, .X, .Integer⟩, ⟨0xfc000210, .fabsx, .X, .FloatingPoint⟩,
  ⟨0xec00002a, .faddsx, .A, .FloatingPoint⟩, ⟨0xfc00002a, .faddx, .A, .FloatingPoint⟩,
  ⟨0xfc00069c, .fcfidx, .X, .FloatingPoint⟩, ⟨0xfc000040, .fcmpo, .X, .FloatingPoint⟩,
  ⟨0xfc000000, .fcmpu, .X, .FloatingPoint⟩, ⟨0xfc00065c, .fctidx, .X, .FloatingPoint⟩,
  ⟨0xfc00065e, .fctidzx, .X, .FloatingPoint⟩, ⟨0xfc00001c, .fctiwx, .X, .FloatingPoint⟩,
  ⟨0xfc00001e, .fctiwzx, .X, .FloatingPoint⟩, ⟨0xec000024, .fdivsx, .A, .FloatingPoint⟩,
  ⟨0xfc000024, .fdivx, .A, .FloatingPoint⟩, ⟨0xec00003a, .fmaddsx, .A, .FloatingPoint⟩,
  ⟨0xfc00003a, .fmaddx, .A, .FloatingPoint⟩, ⟨0xfc000090, .fmrx, .X, .FloatingPoint⟩,
  ⟨0xec000038, .fmsubsx, .A, .FloatingPoint⟩, ⟨0xfc000038, .fmsubx, .A, .FloatingPoint⟩,
  ⟨0xec000032, .fmulsx, .A, .FloatingPoint⟩, ⟨0xfc000032, .fmulx, .A, .FloatingPoint⟩,
  ⟨0xfc000110, .fnabsx, .X, .FloatingPoint⟩, ⟨0xfc000050, .fnegx, .X, .FloatingPoint⟩,
  ⟨0xec00003e, .fnmaddsx, .A, .FloatingPoint⟩, ⟨0xfc00003e, .fnmaddx, .A, .FloatingPoint⟩,
  ⟨0xec00003c, .fnmsubsx, .A, .FloatingPoint⟩, ⟨0xfc00003c, .fnmsubx, .A, .FloatingPoint⟩,
  ⟨0xec000030, .fresx, .A, .FloatingPoint⟩, ⟨0xfc000018, .frspx, .X, .FloatingPoint⟩,
  ⟨0xfc000034, .frsqrtex, .A, .FloatingPoint⟩, ⟨0xfc00002e, .fselx, .A, .FloatingPoint⟩,
  ⟨0xec00002c, .fsqrtsx, .A, .FloatingPoint⟩, ⟨0xfc00002c, .fsqrtx, .A, .FloatingPoint⟩,
  ⟨0xec000028, .fsubsx, .A, .FloatingPoint⟩, ⟨0xfc000028, .fsubx, .A, .FloatingPoint⟩,
  ⟨0x7c0007ac, .icbi, .X, .Memory⟩, ⟨0x4c00012c, .isync, .XL, .Integer⟩,
  ⟨0x88000000, .lbz, .D, .Memory⟩, ⟨0x8c000000, .lbzu, .D, .Memory⟩,
  ⟨0x7c0000ee, .lbzux, .X, .Memory⟩, ⟨0x7c0000ae, .lbzx, .X, .Memory⟩,
  ⟨0xe8000000, .ld, .DS, .Memory⟩, ⟨0x7c0000a8, .ldarx, .X, .Memory⟩,
  ⟨0x7c000428, .ldbrx, .X, .Memory⟩, ⟨0xe8000001, .ldu, .DS, .Memory⟩,
  ⟨0x7c00006a, .ldux, .X, .Memory⟩, ⟨0x7c00002a, .ldx, .X, .Memory⟩,
  ⟨0xc8000000, .lfd, .D, .Memory⟩, ⟨0xcc000000, .lfdu, .D, .Memory⟩,
  ⟨0x7c0004ee, .lfdux, .X, .Memory⟩, ⟨0x7c0004ae, .lfdx, .X, .Memory⟩,
  ⟨0xc0000000, .lfs, .D, .Memory⟩, ⟨0xc4000000, .lfsu, .D, .Memory⟩,
  ⟨0x7c00046e, .lfsux, .X, .Memory⟩, ⟨0x7c00042e, .lfsx, .X, .Memory⟩,
  ⟨0xa8000000, .lha, .D, .Memory⟩, ⟨0xac000000, .lhau, .D, .Memory⟩,
  ⟨0x7c0002ee, .lhaux, .X, .Memory⟩, ⟨0x7c0002ae, .lhax, .X, .Memory⟩,
  ⟨0x7c00062c, .lhbrx, .X, .Memory⟩, ⟨0xa0000000, .lhz, .D, .Memory⟩,
  ⟨0xa4000000, .lhzu, .D, .Memory⟩, ⟨0x7c00026e, .lhzux, .X, .Memory⟩,
  ⟨0x7c00022e, .lhzx, .X, .Memory⟩, ⟨0xb8000000, .lmw, .D, .Memory⟩,
  ⟨0x7c0004aa, .lswi, .X, .Memory⟩, ⟨0x7c00042a, .lswx, .X, .Memory⟩,
  ⟨0x7c00000e, .lvebx, .X, .Memory⟩, ⟨0x7c00004e, .lvehx, .X, .Memory⟩,
  ⟨0x7c00008e, .lvewx, .X, .Memory⟩, ⟨0x10000083, .lvewx128, .VX128_1, .Memory⟩,
  ⟨0x7c00040e, .lvlx, .X, .Memory⟩, ⟨0x10000403, .lvlx128, .VX128_1, .Memory⟩,
  ⟨0x7c00060e, .lvlxl, .X, .Memory⟩, ⟨0x10000603, .lvlxl128, .VX128_1, .Memory⟩,
  ⟨0x7c00044e, .lvrx, .X, .Memory⟩, ⟨0x10000443, .lvrx128, .VX128_1, .Memory⟩,
  ⟨0x7c00064e, .lvrxl, .X, .Memory⟩, ⟨0x10000643, .lvrxl128, .VX128_1, .Memory⟩,
  ⟨0x7c00000c, .lvsl, .X, .Vector⟩, ⟨0x10000003, .lvsl128, .VX128_1, .Vector⟩,
  ⟨0x7c00004c, .lvsr, .X, .Vector⟩, ⟨0x10000043, .lvsr128, .VX128_1, .Vector⟩,
  ⟨0x7c0000ce, .lvx, .X, .Memory⟩, ⟨0x100000c3, .lvx128, .VX128_1, .Memory⟩,
  ⟨0x7c0002ce, .lvxl, .X, .Memory⟩, ⟨0x100002c3, .lvxl128, .VX128_1, .Memory⟩,
  ⟨0xe8000002, .lwa, .DS, .Memory⟩, ⟨0x7c000028, .lwarx, .X, .Memory⟩,
  ⟨0x7c0002ea, .lwaux, .X, .Memory⟩, ⟨0x7c0002aa, .lwax, .X, .Memory⟩,
  ⟨0x7c00042c, .lwbrx, .X, .Memory⟩, ⟨0x80000000, .lwz, .D, .Memory⟩,
  ⟨0x84000000, .lwzu, .D, .Memory⟩, ⟨0x7c00006e, .lwzux, .X, .Memory⟩,
  ⟨0x7c00002e, .lwzx, .X, .Memory⟩, ⟨0x4c000000, .mcrf, .XL, .Control⟩,
  ⟨0xfc000080, .mcrfs, .X, .Control⟩, ⟨0x7c000400, .mcrxr, .X, .Control⟩,
  ⟨0x7c000026, .mfcr, .X, .Control⟩, ⟨0xfc00048e, .mffsx, .X, .Control⟩,
  ⟨0x7c0000a6, .mfmsr, .X, .Control⟩, ⟨0x7c0002a6, .mfspr, .XFX, .Control⟩,
  ⟨0x7c0002e6, .mftb, .XFX, .Control⟩, ⟨0x10000604, .mfvscr, .VX, .Control⟩,
  ⟨0x7c000120, .mtcrf, .XFX, .Control⟩, ⟨0xfc00008c, .mtfsb0x, .X, .Control⟩,
  ⟨0xfc00004c, .mtfsb1x, .X, .Control⟩, ⟨0xfc00010c, .mtfsfix, .X, .Control⟩,
  ⟨0xfc00058e, .mtfsfx, .XFL, .Control⟩, ⟨0x7c000124, .mtmsr, .X, .Control⟩,
  ⟨0x7c000164, .mtmsrd, .X, .Control⟩, ⟨0x7c0003a6, .mtspr, .XFX, .Control⟩,
  ⟨0x10000644, .mtvscr, .VX, .Control⟩, ⟨0x7c000012, .mulhdux, .XO, .Integer⟩,
  ⟨0x7c000092, .mulhdx, .XO, .Integer⟩, ⟨0x7c000016, .mulhwux, .XO, .Integer⟩,
  ⟨0x7c000096, .mulhwx, .XO, .Integer⟩, ⟨0x7c0001d2, .mulldx, .XO, .Integer⟩,
  ⟨0x1c000000, .mulli, .D, .Integer⟩, ⟨0x7c0001d6, .mullwx, .XO, .Integer⟩,
  ⟨0x7c0003b8, .nandx, .X, .Integer⟩, ⟨0x7c0000d0, .negx, .XO, .Integer⟩,
  ⟨0x7c0000f8, .norx, .X, .Integer⟩, ⟨0x7c000338, .orcx, .X, .Integer⟩,
  ⟨0x60000000, .ori, .D, .Integer⟩, ⟨0x64000000, .oris, .D, .Integer⟩,
  ⟨0x7c000378, .orx, .X, .Integer⟩, ⟨0x78000010, .rldclx, .MDS, .Integer⟩,
  ⟨0x78000012, .rldcrx, .MDS, .Integer⟩, ⟨0x78000000, .rldiclx, .MD, .Integer⟩,
  ⟨0x78000004, .rldicrx, .MD, .Integer⟩, ⟨0x78000008, .rldicx, .MD, .Integer⟩,
  ⟨0x7800000c, .rldimix, .MD, .Integer⟩, ⟨0x50000000, .rlwimix, .M, .Integer⟩,
  ⟨0x54000000, .rlwinmx, .M, .Integer⟩, ⟨0x5c000000, .rlwnmx, .M, .Integer⟩,
  ⟨0x44000002, .sc, .SC, .Branch⟩, ⟨0x7c000036, .sldx, .X, .Integer⟩,
  ⟨0x7c000030, .slwx, .X, .Integer⟩, ⟨0x7c000674, .sradix, .XS, .Integer⟩,
  ⟨0x7c000634, .sradx, .X, .Integer⟩, ⟨0x7c000670, .srawix, .X, .Integer⟩,
  ⟨0x7c000630, .srawx, .X, .Integer⟩, ⟨0x7c000436, .srdx, .X, .Integer⟩,
  ⟨0x7c000430, .srwx, .X, .Integer⟩, ⟨0x98000000, .stb, .D, .Memory⟩,
  ⟨0x9c000000, .stbu, .D, .Memory⟩, ⟨0x7c0001ee, .stbux, .X, .Memory⟩,
  ⟨0x7c0001ae, .stbx, .X, .Memory⟩, ⟨0xf8000000, .std, .DS, .Memory⟩,
  ⟨0x7c000528, .stdbrx, .X, .Memory⟩, ⟨0x7c0001ad, .stdcx, .X, .Memory⟩,
  ⟨0xf8000001, .stdu, .DS, .Memory⟩, ⟨0x7c00016a, .stdux, .X, .Memory⟩,
  ⟨0x7c00012a, .stdx, .X, .Memory⟩, ⟨0xd8000000, .stfd, .D, .Memory⟩,
  ⟨0xdc000000, .stfdu, .D, .Memory⟩, ⟨0x7c0005ee, .stfdux, .X, .Memory⟩,
  ⟨0x7c0005ae, .stfdx, .X, .Memory⟩, ⟨0x7c0007ae, .stfiwx, .X, .Memory⟩,
  ⟨0xd0000000, .stfs, .D, .Memory⟩, ⟨0xd4000000, .stfsu, .D, .Memory⟩,
  ⟨0x7c00056e, .stfsux, .X, .Memory⟩, ⟨0x7c00052e, .stfsx, .X, .Memory⟩,
  ⟨0xb0000000, .sth, .D, .Memory⟩, ⟨0x7c00072c, .sthbrx, .X, .Memory⟩,
  ⟨0xb4000000, .sthu, .D, .Memory⟩, ⟨0x7c00036e, .sthux, .X, .Memory⟩,
  ⟨0x7c00032e, .sthx, .X, .Memory⟩, ⟨0xbc000000, .stmw, .D, .Memory⟩,
  ⟨0x7c0005aa, .stswi, .X, .Memory⟩, ⟨0x7c00052a, .stswx, .X, .Memory⟩,
  ⟨0x7c00010e, .stvebx, .X, .Memory⟩, ⟨0x7c00014e, .stvehx, .X, .Memory⟩,
  ⟨0x7c00018e, .stvewx, .X, .Memory⟩, ⟨0x10000183, .stvewx128, .VX128_1, .Memory⟩,
  ⟨0x7c00050e, .stvlx, .X, .Memory⟩, ⟨0x10000503, .stvlx128, .VX128_1, .Memory⟩,
  ⟨0x7c00070e, .stvlxl, .X, .Memory⟩, ⟨0x10000703, .stvlxl128, .VX128_1, .Memory⟩,
  ⟨0x7c00054e, .stvrx, .X, .Memory⟩, ⟨0x10000543, .stvrx128, .VX128_1, .Memory⟩,
  ⟨0x7c00074e, .stvrxl, .X, .Memory⟩, ⟨0x10000743, .stvrxl128, .VX128_1, .Memory⟩,
  ⟨0x7c0001ce, .stvx, .X, .Memory⟩, ⟨0x100001c3, .stvx128, .VX128_1, .Memory⟩,
  ⟨0x7c0003ce, .stvxl, .X, .Memory⟩, ⟨0x100003c3, .stvxl128, .VX128_1, .Memory⟩,
  ⟨0x90000000, .stw, .D, .Memory⟩, ⟨0x7c00052c, .stwbrx, .X, .Memory⟩,
  ⟨0x7c00012d, .stwcx, .X, .Memory⟩, ⟨0x94000000, .stwu, .D, .Memory⟩,
  ⟨0x7c00016e, .stwux, .X, .Memory⟩, ⟨0x7c00012e, .stwx, .X, .Memory⟩,
  ⟨0x7c000010, .subfcx, .XO, .Integer⟩, ⟨0x7c000110, .subfex, .XO, .Integer⟩,
  ⟨0x20000000, .subficx, .D, .Integer⟩, ⟨0x7c0001d0, .subfmex, .XO, .Integer⟩,
  ⟨0x7c000050, .subfx, .XO, .Integer⟩, ⟨0x7c000190, .subfzex, .XO, .Integer⟩,
  ⟨0x7c0004ac, .sync, .X, .Integer⟩, ⟨0x7c000088, .td, .X, .Branch⟩,
  ⟨0x08000000, .tdi, .D, .Branch⟩, ⟨0x7c000008, .tw, .X, .Branch⟩,
  ⟨0x0c000000, .twi, .D, .Branch⟩, ⟨0x10000180, .vaddcuw, .VX, .Vector⟩,
  ⟨0x1000000a, .vaddfp, .VX, .Vector⟩, ⟨0x14000010, .vaddfp128, .VX128, .Vector⟩,
  ⟨0x10000300, .vaddsbs, .VX, .Vector⟩, ⟨0x10000340, .vaddshs, .VX, .Vector⟩,
  ⟨0x10000380, .vaddsws, .VX, .Vector⟩, ⟨0x10000000, .vaddubm, .VX, .Vector⟩,
  ⟨0x10000200, .vaddubs, .VX, .Vector⟩, ⟨0x10000040, .vadduhm, .VX, .Vector⟩,
  ⟨0x10000240, .vadduhs, .VX, .Vector⟩, ⟨0x10000080, .vadduwm, .VX, .Vector⟩,
  ⟨0x10000280, .vadduws, .VX, .Vector⟩, ⟨0x10000404, .vand, .VX, .Vector⟩,
  ⟨0x14000210, .vand128, .VX128, .Vector⟩, ⟨0x10000444, .vandc, .VX, .Vector⟩,
  ⟨0x14000250, .vandc128, .VX128, .Vector⟩, ⟨0x10000502, .vavgsb, .VX, .Vector⟩,
  ⟨0x10000542, .vavgsh, .VX, .Vector⟩, ⟨0x10000582, .vavgsw, .VX, .Vector⟩,
  ⟨0x10000402, .vavgub, .VX, .Vector⟩, ⟨0x10000442, .vavguh, .VX, .Vector⟩,
  ⟨0x10000482, .vavguw, .VX, .Vector⟩, ⟨0x18000230, .vcfpsxws128, .VX128_3, .Vector⟩,
  ⟨0x18000270, .vcfpuxws128, .VX128_3, .Vector⟩, ⟨0x1000034a, .vcfsx, .VX, .Vector⟩,
  ⟨0x1000030a, .vcfux, .VX, .Vector⟩, ⟨0x100003c6, .vcmpbfp, .VC, .Vector⟩,
  ⟨0x18000180, .vcmpbfp128, .VX128_R, .Vector⟩, ⟨0x100000c6, .vcmpeqfp, .VC, .Vector⟩,
  ⟨0x18000000, .vcmpeqfp128, .VX128_R, .Vector⟩, ⟨0x10000006, .vcmpequb, .VC, .Vector⟩,
  ⟨0x10000046, .vcmpequh, .VC, .Vector⟩, ⟨0x10000086, .vcmpequw, .VC, .Vector⟩,
  ⟨0x18000200, .vcmpequw128, .VX128_R, .Vector⟩, ⟨0x100001c6, .vcmpgefp, .VC, .Vector⟩,
  ⟨0x18000080, .vcmpgefp128, .VX128_R, .Vector⟩, ⟨0x100002c6, .vcmpgtfp, .VC, .Vector⟩,
  ⟨0x18000100, .vcmpgtfp128, .VX128_R, .Vector⟩, ⟨0x10000306, .vcmpgtsb, .VC, .Vector⟩,
  ⟨0x10000346, .vcmpgtsh, .VC, .Vector⟩, ⟨0x10000386, .vcmpgtsw, .VC, .Vector⟩,
  ⟨0x10000206, .vcmpgtub, .VC, .Vector⟩, ⟨0x10000246, .vcmpgtuh, .VC, .Vector⟩,
  ⟨0x10000286, .vcmpgtuw, .VC, .Vector⟩, ⟨0x180002b0, .vcsxwfp128, .VX128_3, .Vector⟩,
  ⟨0x100003ca, .vctsxs, .VX, .Vector⟩, ⟨0x1000038a, .vctuxs, .VX, .Vector⟩,
  ⟨0x180002f0, .vcuxwfp128, .VX128_3, .Vector⟩, ⟨0x1000018a, .vexptefp, .VX, .Vector⟩,
  ⟨0x180006b0, .vexptefp128, .VX128_3, .Vector⟩, ⟨0x100001ca, .vlogefp, .VX, .Vector⟩,
  ⟨0x180006f0, .vlogefp128, .VX128_3, .Vector⟩, ⟨0x14000110, .vmaddcfp128, .VX128, .Vector⟩,
  ⟨0x1000002e, .vmaddfp, .VA, .Vector⟩, ⟨0x140000d0, .vmaddfp128, .VX128, .Vector⟩,
  ⟨0x1000040a, .vmaxfp, .VX, .Vector⟩, ⟨0x18000280, .vmaxfp128, .VX128, .Vector⟩,
  ⟨0x10000102, .vmaxsb, .VX, .Vector⟩, ⟨0x10000142, .vmaxsh, .VX, .Vector⟩,
  ⟨0x10000182, .vmaxsw, .VX, .Vector⟩, ⟨0x10000002, .vmaxub, .VX, .Vector⟩,
  ⟨0x10000042, .vmaxuh, .VX, .Vector⟩, ⟨0x10000082, .vmaxuw, .VX, .Vector⟩,
  ⟨0x10000020, .vmhaddshs, .VA, .Vector⟩, ⟨0x10000021, .vmhraddshs, .VA, .Vector⟩,
  ⟨0x1000044a, .vminfp, .VX, .Vector⟩, ⟨0x180002c0, .vminfp128, .VX128, .Vector⟩,
  ⟨0x10000302, .vminsb, .VX, .Vector⟩, ⟨0x10000342, .vminsh, .VX, .Vector⟩,
  ⟨0x10000382, .vminsw, .VX, .Vector⟩, ⟨0x10000202, .vminub, .VX, .Vector⟩,
  ⟨0x10000242, .vminuh, .VX, .Vector⟩, ⟨0x10000282, .vminuw, .VX, .Vector⟩,
  ⟨0x10000022, .vmladduhm, .VA, .Vector⟩, ⟨0x1000000c, .vmrghb, .VX, .Vector⟩,
  ⟨0x1000004c, .vmrghh, .VX, .Vector⟩, ⟨0x1000008c, .vmrghw, .VX, .Vector⟩,
  ⟨0x18000300, .vmrghw128, .VX128, .Vector⟩, ⟨0x1000010c, .vmrglb, .VX, .Vector⟩,
  ⟨0x1000014c, .vmrglh, .VX, .Vector⟩, ⟨0x1000018c, .vmrglw, .VX, .Vector⟩,
  ⟨0x18000340, .vmrglw128, .VX128, .Vector⟩, ⟨0x14000190, .vmsum3fp128, .VX128, .Vector⟩,
  ⟨0x140001d0, .vmsum4fp128, .VX128, .Vector⟩, ⟨0x10000025, .vmsummbm, .VA, .Vector⟩,
  ⟨0x10000028, .vmsumshm, .VA, .Vector⟩, ⟨0x10000029, .vmsumshs, .VA, .Vector⟩,
  ⟨0x10000024, .vmsumubm, .VA, .Vector⟩, ⟨0x10000026, .vmsumuhm, .VA, .Vector⟩,
  ⟨0x10000027, .vmsumuhs, .VA, .Vector⟩, ⟨0x10000308, .vmulesb, .VX, .Vector⟩,
  ⟨0x10000348, .vmulesh, .VX, .Vector⟩, ⟨0x10000208, .vmuleub, .VX, .Vector⟩,
  ⟨0x10000248, .vmuleuh, .VX, .Vector⟩, ⟨0x14000090, .vmulfp128, .VX128, .Vector⟩,
  ⟨0x10000108, .vmulosb, .VX, .Vector⟩, ⟨0x10000148, .vmulosh, .VX, .Vector⟩,
  ⟨0x10000008, .vmuloub, .VX, .Vector⟩, ⟨0x10000048, .vmulouh, .VX, .Vector⟩,
  ⟨0x1000002f, .vnmsubfp, .VA, .Vector⟩, ⟨0x14000150, .vnmsubfp128, .VX128, .Vector⟩,
  ⟨0x10000504, .vnor, .VX, .Vector⟩, ⟨0x14000290, .vnor128, .VX128, .Vector⟩,
  ⟨0x10000484, .vor, .VX, .Vector⟩, ⟨0x140002d0, .vor128, .VX128, .Vector⟩,
  ⟨0x1000002b, .vperm, .VA, .Vector⟩, ⟨0x14000000, .vperm128, .VX128_2, .Vector⟩,
  ⟨0x18000210, .vpermwi128, .VX128_P, .Vector⟩, ⟨0x18000610, .vpkd3d128, .VX128_4, .Vector⟩,
  ⟨0x1000030e, .vpkpx, .VX, .Vector⟩, ⟨0x1000018e, .vpkshss, .VX, .Vector⟩,
  ⟨0x14000200, .vpkshss128, .VX128, .Vector⟩, ⟨0x1000010e, .vpkshus, .VX, .Vector⟩,
  ⟨0x14000240, .vpkshus128, .VX128, .Vector⟩, ⟨0x100001ce, .vpkswss, .VX, .Vector⟩,
  ⟨0x14000280, .vpkswss128, .VX128, .Vector⟩, ⟨0x1000014e, .vpkswus, .VX, .Vector⟩,
  ⟨0x140002c0, .vpkswus128, .VX128, .Vector⟩, ⟨0x1000000e, .vpkuhum, .VX, .Vector⟩,
  ⟨0x14000300, .vpkuhum128, .VX128, .Vector⟩, ⟨0x1000008e, .vpkuhus, .VX, .Vector⟩,
  ⟨0x14000340, .vpkuhus128, .VX128, .Vector⟩, ⟨0x1000004e, .vpkuwum, .VX, .Vector⟩,
  ⟨0x14000380, .vpkuwum128, .VX128, .Vector⟩, ⟨0x100000ce, .vpkuwus, .VX, .Vector⟩,
  ⟨0x140003c0, .vpkuwus128, .VX128, .Vector⟩, ⟨0x1000010a, .vrefp, .VX, .Vector⟩,
  ⟨0x18000630, .vrefp128, .VX128_3, .Vector⟩, ⟨0x100002ca, .vrfim, .VX, .Vector⟩,
  ⟨0x18000330, .vrfim128, .VX128_3, .Vector⟩, ⟨0x1000020a, .vrfin, .VX, .Vector⟩,
  ⟨0x18000370, .vrfin128, .VX128_3, .Vector⟩, ⟨0x1000028a, .vrfip, .VX, .Vector⟩,
  ⟨0x180003b0, .vrfip128, .VX128_3, .Vector⟩, ⟨0x1000024a, .vrfiz, .VX, .Vector⟩,
  ⟨0x180003f0, .vrfiz128, .VX128_3, .Vector⟩, ⟨0x10000004, .vrlb, .VX, .Vector⟩,
  ⟨0x10000044, .vrlh, .VX, .Vector⟩, ⟨0x18000710, .vrlimi128, .VX128_4, .Vector⟩,
  ⟨0x10000084, .vrlw, .VX, .Vector⟩, ⟨0x18000050, .vrlw128, .VX128, .Vector⟩,
  ⟨0x1000014a, .vrsqrtefp, .VX, .Vector⟩, ⟨0x18000670, .vrsqrtefp128, .VX128_3, .Vector⟩,
  ⟨0x1000002a, .vsel, .VA, .Vector⟩, ⟨0x14000350, .vsel128, .VX128, .Vector⟩,
  ⟨0x100001c4, .vsl, .VX, .Vector⟩, ⟨0x10000104, .vslb, .VX, .Vector⟩,
  ⟨0x1000002c, .vsldoi, .VA, .Vector⟩, ⟨0x10000010, .vsldoi128, .VX128_5, .Vector⟩,
  ⟨0x10000144, .vslh, .VX, .Vector⟩, ⟨0x1000040c, .vslo, .VX, .Vector⟩,
  ⟨0x14000390, .vslo128, .VX128, .Vector⟩, ⟨0x10000184, .vslw, .VX, .Vector⟩,
  ⟨0x180000d0, .vslw128, .VX128, .Vector⟩, ⟨0x1000020c, .vspltb, .VX, .Vector⟩,
  ⟨0x1000024c, .vsplth, .VX, .Vector⟩, ⟨0x1000030c, .vspltisb, .VX, .Vector⟩,
  ⟨0x1000034c, .vspltish, .VX, .Vector⟩, ⟨0x1000038c, .vspltisw, .VX, .Vector⟩,
  ⟨0x18000770, .vspltisw128, .VX128_3, .Vector⟩, ⟨0x1000028c, .vspltw, .VX, .Vector⟩,
  ⟨0x18000730, .vspltw128, .VX128_3, .Vector⟩, ⟨0x100002c4, .vsr, .VX, .Vector⟩,
  ⟨0x10000304, .vsrab, .VX, .Vector⟩, ⟨0x10000344, .vsrah, .VX, .Vector⟩,
  ⟨0x10000384, .vsraw, .VX, .Vector⟩, ⟨0x18000150, .vsraw128, .VX128, .Vector⟩,
  ⟨0x10000204, .vsrb, .VX, .Vector⟩, ⟨0x10000244, .vsrh, .VX, .Vector⟩,
  ⟨0x1000044c, .vsro, .VX, .Vector⟩, ⟨0x140003d0, .vsro128, .VX128, .Vector⟩,
  ⟨0x10000284, .vsrw, .VX, .Vector⟩, ⟨0x180001d0, .vsrw128, .VX128, .Vector⟩,
  ⟨0x10000580, .vsubcuw, .VX, .Vector⟩, ⟨0x1000004a, .vsubfp, .VX, .Vector⟩,
  ⟨0x14000050, .vsubfp128, .VX128, .Vector⟩, ⟨0x10000700, .vsubsbs, .VX, .Vector⟩,
  ⟨0x10000740, .vsubshs, .VX, .Vector⟩, ⟨0x10000780, .vsubsws, .VX, .Vector⟩,
  ⟨0x10000400, .vsububm, .VX, .Vector⟩, ⟨0x10000600, .vsububs, .VX, .Vector⟩,
  ⟨0x10000440, .vsubuhm, .VX, .Vector⟩, ⟨0x10000640, .vsubuhs, .VX, .Vector⟩,
  ⟨0x10000480, .vsubuwm, .VX, .Vector⟩, ⟨0x10000680, .vsubuws, .VX, .Vector⟩,
  ⟨0x10000688, .vsum2sws, .VX, .Vector⟩, ⟨0x10000708, .vsum4sbs, .VX, .Vector⟩,
  ⟨0x10000648, .vsum4shs, .VX, .Vector⟩, ⟨0x10000608, .vsum4ubs, .VX, .Vector⟩,
  ⟨0x10000788, .vsumsws, .VX, .Vector⟩, ⟨0x180007f0, .vupkd3d128, .VX128_3, .Vector⟩,
  ⟨0x1000034e, .vupkhpx, .VX, .Vector⟩, ⟨0x1000020e, .vupkhsb, .VX, .Vector⟩,
  ⟨0x18000380, .vupkhsb128, .VX128, .Vector⟩, ⟨0x1000024e, .vupkhsh, .VX, .Vector⟩,
  ⟨0x100003ce, .vupklpx, .VX, .Vector⟩, ⟨0x1000028e, .vupklsb, .VX, .Vector⟩,
  ⟨0x180003c0, .vupklsb128, .VX128, .Vector⟩, ⟨0x100002ce, .vupklsh, .VX, .Vector⟩,
  ⟨0x100004c4, .vxor, .VX, .Vector⟩, ⟨0x14000310, .vxor128, .VX128, .Vector⟩,
  ⟨0x68000000, .xori, .D, .Integer⟩, ⟨0x6c000000, .xoris, .D, .Integer⟩,
  ⟨0x7c000278, .xorx, .X, .Integer⟩]

end Cpu
end XenonRecomp
