/-
# The mnemonics of the opcode catalogue

`src/cpu/ppc/decoder/opcode_catalog.inc` names 455 Xenon/PowerPC opcodes.  The
source carries a mnemonic as a `std::string_view` and compares it with string
literals; here it is an enumeration with one constructor per catalogue row, and
`Mnemonic.text` gives back the string for the places that match on a prefix
(`starts_with`) or a suffix (`ends_with`) of it.

The catalogue writes the record forms with a final `x` (`addx` is `add`,
`add.`, `addo` and `addo.`).
-/

import Mathlib.Algebra.Order.Ring.Int

namespace XenonRecomp
namespace Cpu

/-- The mnemonics of `opcode_catalog.inc`, in the order of its rows. -/
inductive Mnemonic where
  | addcx | addex | addi | addic | addicx | addis | addmex | addx | addzex | andcx | andisx
  | andix | andx | bcctrx | bclrx | bcx | bx | cmp | cmpi | cmpl | cmpli | cntlzdx | cntlzwx
  | crand | crandc | creqv | crnand | crnor | cror | crorc | crxor | dcbf | dcbi | dcbst | dcbt
  | dcbtst | dcbz | dcbz128 | divdux | divdx | divwux | divwx | eieio | eqvx | extsbx | extshx
  | extswx | fabsx | faddsx | faddx | fcfidx | fcmpo | fcmpu | fctidx | fctidzx | fctiwx
  | fctiwzx | fdivsx | fdivx | fmaddsx | fmaddx | fmrx | fmsubsx | fmsubx | fmulsx | fmulx
  | fnabsx | fnegx | fnmaddsx | fnmaddx | fnmsubsx | fnmsubx | fresx | frspx | frsqrtex | fselx
  | fsqrtsx | fsqrtx | fsubsx | fsubx | icbi | isync | lbz | lbzu | lbzux | lbzx | ld | ldarx
  | ldbrx | ldu | ldux | ldx | lfd | lfdu | lfdux | lfdx | lfs | lfsu | lfsux | lfsx | lha | lhau
  | lhaux | lhax | lhbrx | lhz | lhzu | lhzux | lhzx | lmw | lswi | lswx | lvebx | lvehx | lvewx
  | lvewx128 | lvlx | lvlx128 | lvlxl | lvlxl128 | lvrx | lvrx128 | lvrxl | lvrxl128 | lvsl
  | lvsl128 | lvsr | lvsr128 | lvx | lvx128 | lvxl | lvxl128 | lwa | lwarx | lwaux | lwax | lwbrx
  | lwz | lwzu | lwzux | lwzx | mcrf | mcrfs | mcrxr | mfcr | mffsx | mfmsr | mfspr | mftb
  | mfvscr | mtcrf | mtfsb0x | mtfsb1x | mtfsfix | mtfsfx | mtmsr | mtmsrd | mtspr | mtvscr
  | mulhdux | mulhdx | mulhwux | mulhwx | mulldx | mulli | mullwx | nandx | negx | norx | orcx
  | ori | oris | orx | rldclx | rldcrx | rldiclx | rldicrx | rldicx | rldimix | rlwimix | rlwinmx
  | rlwnmx | sc | sldx | slwx | sradix | sradx | srawix | srawx | srdx | srwx | stb | stbu
  | stbux | stbx | std | stdbrx | stdcx | stdu | stdux | stdx | stfd | stfdu | stfdux | stfdx
  | stfiwx | stfs | stfsu | stfsux | stfsx | sth | sthbrx | sthu | sthux | sthx | stmw | stswi
  | stswx | stvebx | stvehx | stvewx | stvewx128 | stvlx | stvlx128 | stvlxl | stvlxl128 | stvrx
  | stvrx128 | stvrxl | stvrxl128 | stvx | stvx128 | stvxl | stvxl128 | stw | stwbrx | stwcx
  | stwu | stwux | stwx | subfcx | subfex | subficx | subfmex | subfx | subfzex | sync | td | tdi
  | tw | twi | vaddcuw | vaddfp | vaddfp128 | vaddsbs | vaddshs | vaddsws | vaddubm | vaddubs
  | vadduhm | vadduhs | vadduwm | vadduws | vand | vand128 | vandc | vandc128 | vavgsb | vavgsh
  | vavgsw | vavgub | vavguh | vavguw | vcfpsxws128 | vcfpuxws128 | vcfsx | vcfux | vcmpbfp
  | vcmpbfp128 | vcmpeqfp | vcmpeqfp128 | vcmpequb | vcmpequh | vcmpequw | vcmpequw128 | vcmpgefp
  | vcmpgefp128 | vcmpgtfp | vcmpgtfp128 | vcmpgtsb | vcmpgtsh | vcmpgtsw | vcmpgtub | vcmpgtuh
  | vcmpgtuw | vcsxwfp128 | vctsxs | vctuxs | vcuxwfp128 | vexptefp | vexptefp128 | vlogefp
  | vlogefp128 | vmaddcfp128 | vmaddfp | vmaddfp128 | vmaxfp | vmaxfp128 | vmaxsb | vmaxsh
  | vmaxsw | vmaxub | vmaxuh | vmaxuw | vmhaddshs | vmhraddshs | vminfp | vminfp128 | vminsb
  | vminsh | vminsw | vminub | vminuh | vminuw | vmladduhm | vmrghb | vmrghh | vmrghw | vmrghw128
  | vmrglb | vmrglh | vmrglw | vmrglw128 | vmsum3fp128 | vmsum4fp128 | vmsummbm | vmsumshm
  | vmsumshs | vmsumubm | vmsumuhm | vmsumuhs | vmulesb | vmulesh | vmuleub | vmuleuh | vmulfp128
  | vmulosb | vmulosh | vmuloub | vmulouh | vnmsubfp | vnmsubfp128 | vnor | vnor128 | vor
  | vor128 | vperm | vperm128 | vpermwi128 | vpkd3d128 | vpkpx | vpkshss | vpkshss128 | vpkshus
  | vpkshus128 | vpkswss | vpkswss128 | vpkswus | vpkswus128 | vpkuhum | vpkuhum128 | vpkuhus
  | vpkuhus128 | vpkuwum | vpkuwum128 | vpkuwus | vpkuwus128 | vrefp | vrefp128 | vrfim
  | vrfim128 | vrfin | vrfin128 | vrfip | vrfip128 | vrfiz | vrfiz128 | vrlb | vrlh | vrlimi128
  | vrlw | vrlw128 | vrsqrtefp | vrsqrtefp128 | vsel | vsel128 | vsl | vslb | vsldoi | vsldoi128
  | vslh | vslo | vslo128 | vslw | vslw128 | vspltb | vsplth | vspltisb | vspltish | vspltisw
  | vspltisw128 | vspltw | vspltw128 | vsr | vsrab | vsrah | vsraw | vsraw128 | vsrb | vsrh
  | vsro | vsro128 | vsrw | vsrw128 | vsubcuw | vsubfp | vsubfp128 | vsubsbs | vsubshs | vsubsws
  | vsububm | vsububs | vsubuhm | vsubuhs | vsubuwm | vsubuws | vsum2sws | vsum4sbs | vsum4shs
  | vsum4ubs | vsumsws | vupkd3d128 | vupkhpx | vupkhsb | vupkhsb128 | vupkhsh | vupklpx
  | vupklsb | vupklsb128 | vupklsh | vxor | vxor128 | xori | xoris | xorx
deriving DecidableEq, Repr

/-- `OpcodeInfo::mnemonic` as the catalogue spells it. -/
def Mnemonic.text : Mnemonic → String
  | .addcx => "addcx" | .addex => "addex" | .addi => "addi" | .addic => "addic"
  | .addicx => "addicx" | .addis => "addis" | .addmex => "addmex" | .addx => "addx"
  | .addzex => "addzex" | .andcx => "andcx" | .andisx => "andisx" | .andix => "andix"
  | .andx => "andx" | .bcctrx => "bcctrx" | .bclrx => "bclrx" | .bcx => "bcx" | .bx => "bx"
  | .cmp => "cmp" | .cmpi => "cmpi" | .cmpl => "cmpl" | .cmpli => "cmpli" | .cntlzdx => "cntlzdx"
  | .cntlzwx => "cntlzwx" | .crand => "crand" | .crandc => "crandc" | .creqv => "creqv"
  | .crnand => "crnand" | .crnor => "crnor" | .cror => "cror" | .crorc => "crorc"
  | .crxor => "crxor" | .dcbf => "dcbf" | .dcbi => "dcbi" | .dcbst => "dcbst" | .dcbt => "dcbt"
  | .dcbtst => "dcbtst" | .dcbz => "dcbz" | .dcbz128 => "dcbz128" | .divdux => "divdux"
  | .divdx => "divdx" | .divwux => "divwux" | .divwx => "divwx" | .eieio => "eieio"
  | .eqvx => "eqvx" | .extsbx => "extsbx" | .extshx => "extshx" | .extswx => "extswx"
  | .fabsx => "fabsx" | .faddsx => "faddsx" | .faddx => "faddx" | .fcfidx => "fcfidx"
  | .fcmpo => "fcmpo" | .fcmpu => "fcmpu" | .fctidx => "fctidx" | .fctidzx => "fctidzx"
  | .fctiwx => "fctiwx" | .fctiwzx => "fctiwzx" | .fdivsx => "fdivsx" | .fdivx => "fdivx"
  | .fmaddsx => "fmaddsx" | .fmaddx => "fmaddx" | .fmrx => "fmrx" | .fmsubsx => "fmsubsx"
  | .fmsubx => "fmsubx" | .fmulsx => "fmulsx" | .fmulx => "fmulx" | .fnabsx => "fnabsx"
  | .fnegx => "fnegx" | .fnmaddsx => "fnmaddsx" | .fnmaddx => "fnmaddx" | .fnmsubsx => "fnmsubsx"
  | .fnmsubx => "fnmsubx" | .fresx => "fresx" | .frspx => "frspx" | .frsqrtex => "frsqrtex"
  | .fselx => "fselx" | .fsqrtsx => "fsqrtsx" | .fsqrtx => "fsqrtx" | .fsubsx => "fsubsx"
  | .fsubx => "fsubx" | .icbi => "icbi" | .isync => "isync" | .lbz => "lbz" | .lbzu => "lbzu"
  | .lbzux => "lbzux" | .lbzx => "lbzx" | .ld => "ld" | .ldarx => "ldarx" | .ldbrx => "ldbrx"
  | .ldu => "ldu" | .ldux => "ldux" | .ldx => "ldx" | .lfd => "lfd" | .lfdu => "lfdu"
  | .lfdux => "lfdux" | .lfdx => "lfdx" | .lfs => "lfs" | .lfsu => "lfsu" | .lfsux => "lfsux"
  | .lfsx => "lfsx" | .lha => "lha" | .lhau => "lhau" | .lhaux => "lhaux" | .lhax => "lhax"
  | .lhbrx => "lhbrx" | .lhz => "lhz" | .lhzu => "lhzu" | .lhzux => "lhzux" | .lhzx => "lhzx"
  | .lmw => "lmw" | .lswi => "lswi" | .lswx => "lswx" | .lvebx => "lvebx" | .lvehx => "lvehx"
  | .lvewx => "lvewx" | .lvewx128 => "lvewx128" | .lvlx => "lvlx" | .lvlx128 => "lvlx128"
  | .lvlxl => "lvlxl" | .lvlxl128 => "lvlxl128" | .lvrx => "lvrx" | .lvrx128 => "lvrx128"
  | .lvrxl => "lvrxl" | .lvrxl128 => "lvrxl128" | .lvsl => "lvsl" | .lvsl128 => "lvsl128"
  | .lvsr => "lvsr" | .lvsr128 => "lvsr128" | .lvx => "lvx" | .lvx128 => "lvx128"
  | .lvxl => "lvxl" | .lvxl128 => "lvxl128" | .lwa => "lwa" | .lwarx => "lwarx"
  | .lwaux => "lwaux" | .lwax => "lwax" | .lwbrx => "lwbrx" | .lwz => "lwz" | .lwzu => "lwzu"
  | .lwzux => "lwzux" | .lwzx => "lwzx" | .mcrf => "mcrf" | .mcrfs => "mcrfs" | .mcrxr => "mcrxr"
  | .mfcr => "mfcr" | .mffsx => "mffsx" | .mfmsr => "mfmsr" | .mfspr => "mfspr" | .mftb => "mftb"
  | .mfvscr => "mfvscr" | .mtcrf => "mtcrf" | .mtfsb0x => "mtfsb0x" | .mtfsb1x => "mtfsb1x"
  | .mtfsfix => "mtfsfix" | .mtfsfx => "mtfsfx" | .mtmsr => "mtmsr" | .mtmsrd => "mtmsrd"
  | .mtspr => "mtspr" | .mtvscr => "mtvscr" | .mulhdux => "mulhdux" | .mulhdx => "mulhdx"
  | .mulhwux => "mulhwux" | .mulhwx => "mulhwx" | .mulldx => "mulldx" | .mulli => "mulli"
  | .mullwx => "mullwx" | .nandx => "nandx" | .negx => "negx" | .norx => "norx" | .orcx => "orcx"
  | .ori => "ori" | .oris => "oris" | .orx => "orx" | .rldclx => "rldclx" | .rldcrx => "rldcrx"
  | .rldiclx => "rldiclx" | .rldicrx => "rldicrx" | .rldicx => "rldicx" | .rldimix => "rldimix"
  | .rlwimix => "rlwimix" | .rlwinmx => "rlwinmx" | .rlwnmx => "rlwnmx" | .sc => "sc"
  | .sldx => "sldx" | .slwx => "slwx" | .sradix => "sradix" | .sradx => "sradx"
  | .srawix => "srawix" | .srawx => "srawx" | .srdx => "srdx" | .srwx => "srwx" | .stb => "stb"
  | .stbu => "stbu" | .stbux => "stbux" | .stbx => "stbx" | .std => "std" | .stdbrx => "stdbrx"
  | .stdcx => "stdcx" | .stdu => "stdu" | .stdux => "stdux" | .stdx => "stdx" | .stfd => "stfd"
  | .stfdu => "stfdu" | .stfdux => "stfdux" | .stfdx => "stfdx" | .stfiwx => "stfiwx"
  | .stfs => "stfs" | .stfsu => "stfsu" | .stfsux => "stfsux" | .stfsx => "stfsx" | .sth => "sth"
  | .sthbrx => "sthbrx" | .sthu => "sthu" | .sthux => "sthux" | .sthx => "sthx" | .stmw => "stmw"
  | .stswi => "stswi" | .stswx => "stswx" | .stvebx => "stvebx" | .stvehx => "stvehx"
  | .stvewx => "stvewx" | .stvewx128 => "stvewx128" | .stvlx => "stvlx" | .stvlx128 => "stvlx128"
  | .stvlxl => "stvlxl" | .stvlxl128 => "stvlxl128" | .stvrx => "stvrx" | .stvrx128 => "stvrx128"
  | .stvrxl => "stvrxl" | .stvrxl128 => "stvrxl128" | .stvx => "stvx" | .stvx128 => "stvx128"
  | .stvxl => "stvxl" | .stvxl128 => "stvxl128" | .stw => "stw" | .stwbrx => "stwbrx"
  | .stwcx => "stwcx" | .stwu => "stwu" | .stwux => "stwux" | .stwx => "stwx"
  | .subfcx => "subfcx" | .subfex => "subfex" | .subficx => "subficx" | .subfmex => "subfmex"
  | .subfx => "subfx" | .subfzex => "subfzex" | .sync => "sync" | .td => "td" | .tdi => "tdi"
  | .tw => "tw" | .twi => "twi" | .vaddcuw => "vaddcuw" | .vaddfp => "vaddfp"
  | .vaddfp128 => "vaddfp128" | .vaddsbs => "vaddsbs" | .vaddshs => "vaddshs"
  | .vaddsws => "vaddsws" | .vaddubm => "vaddubm" | .vaddubs => "vaddubs" | .vadduhm => "vadduhm"
  | .vadduhs => "vadduhs" | .vadduwm => "vadduwm" | .vadduws => "vadduws" | .vand => "vand"
  | .vand128 => "vand128" | .vandc => "vandc" | .vandc128 => "vandc128" | .vavgsb => "vavgsb"
  | .vavgsh => "vavgsh" | .vavgsw => "vavgsw" | .vavgub => "vavgub" | .vavguh => "vavguh"
  | .vavguw => "vavguw" | .vcfpsxws128 => "vcfpsxws128" | .vcfpuxws128 => "vcfpuxws128"
  | .vcfsx => "vcfsx" | .vcfux => "vcfux" | .vcmpbfp => "vcmpbfp" | .vcmpbfp128 => "vcmpbfp128"
  | .vcmpeqfp => "vcmpeqfp" | .vcmpeqfp128 => "vcmpeqfp128" | .vcmpequb => "vcmpequb"
  | .vcmpequh => "vcmpequh" | .vcmpequw => "vcmpequw" | .vcmpequw128 => "vcmpequw128"
  | .vcmpgefp => "vcmpgefp" | .vcmpgefp128 => "vcmpgefp128" | .vcmpgtfp => "vcmpgtfp"
  | .vcmpgtfp128 => "vcmpgtfp128" | .vcmpgtsb => "vcmpgtsb" | .vcmpgtsh => "vcmpgtsh"
  | .vcmpgtsw => "vcmpgtsw" | .vcmpgtub => "vcmpgtub" | .vcmpgtuh => "vcmpgtuh"
  | .vcmpgtuw => "vcmpgtuw" | .vcsxwfp128 => "vcsxwfp128" | .vctsxs => "vctsxs"
  | .vctuxs => "vctuxs" | .vcuxwfp128 => "vcuxwfp128" | .vexptefp => "vexptefp"
  | .vexptefp128 => "vexptefp128" | .vlogefp => "vlogefp" | .vlogefp128 => "vlogefp128"
  | .vmaddcfp128 => "vmaddcfp128" | .vmaddfp => "vmaddfp" | .vmaddfp128 => "vmaddfp128"
  | .vmaxfp => "vmaxfp" | .vmaxfp128 => "vmaxfp128" | .vmaxsb => "vmaxsb" | .vmaxsh => "vmaxsh"
  | .vmaxsw => "vmaxsw" | .vmaxub => "vmaxub" | .vmaxuh => "vmaxuh" | .vmaxuw => "vmaxuw"
  | .vmhaddshs => "vmhaddshs" | .vmhraddshs => "vmhraddshs" | .vminfp => "vminfp"
  | .vminfp128 => "vminfp128" | .vminsb => "vminsb" | .vminsh => "vminsh" | .vminsw => "vminsw"
  | .vminub => "vminub" | .vminuh => "vminuh" | .vminuw => "vminuw" | .vmladduhm => "vmladduhm"
  | .vmrghb => "vmrghb" | .vmrghh => "vmrghh" | .vmrghw => "vmrghw" | .vmrghw128 => "vmrghw128"
  | .vmrglb => "vmrglb" | .vmrglh => "vmrglh" | .vmrglw => "vmrglw" | .vmrglw128 => "vmrglw128"
  | .vmsum3fp128 => "vmsum3fp128" | .vmsum4fp128 => "vmsum4fp128" | .vmsummbm => "vmsummbm"
  | .vmsumshm => "vmsumshm" | .vmsumshs => "vmsumshs" | .vmsumubm => "vmsumubm"
  | .vmsumuhm => "vmsumuhm" | .vmsumuhs => "vmsumuhs" | .vmulesb => "vmulesb"
  | .vmulesh => "vmulesh" | .vmuleub => "vmuleub" | .vmuleuh => "vmuleuh"
  | .vmulfp128 => "vmulfp128" | .vmulosb => "vmulosb" | .vmulosh => "vmulosh"
  | .vmuloub => "vmuloub" | .vmulouh => "vmulouh" | .vnmsubfp => "vnmsubfp"
  | .vnmsubfp128 => "vnmsubfp128" | .vnor => "vnor" | .vnor128 => "vnor128" | .vor => "vor"
  | .vor128 => "vor128" | .vperm => "vperm" | .vperm128 => "vperm128"
  | .vpermwi128 => "vpermwi128" | .vpkd3d128 => "vpkd3d128" | .vpkpx => "vpkpx"
  | .vpkshss => "vpkshss" | .vpkshss128 => "vpkshss128" | .vpkshus => "vpkshus"
  | .vpkshus128 => "vpkshus128" | .vpkswss => "vpkswss" | .vpkswss128 => "vpkswss128"
  | .vpkswus => "vpkswus" | .vpkswus128 => "vpkswus128" | .vpkuhum => "vpkuhum"
  | .vpkuhum128 => "vpkuhum128" | .vpkuhus => "vpkuhus" | .vpkuhus128 => "vpkuhus128"
  | .vpkuwum => "vpkuwum" | .vpkuwum128 => "vpkuwum128" | .vpkuwus => "vpkuwus"
  | .vpkuwus128 => "vpkuwus128" | .vrefp => "vrefp" | .vrefp128 => "vrefp128" | .vrfim => "vrfim"
  | .vrfim128 => "vrfim128" | .vrfin => "vrfin" | .vrfin128 => "vrfin128" | .vrfip => "vrfip"
  | .vrfip128 => "vrfip128" | .vrfiz => "vrfiz" | .vrfiz128 => "vrfiz128" | .vrlb => "vrlb"
  | .vrlh => "vrlh" | .vrlimi128 => "vrlimi128" | .vrlw => "vrlw" | .vrlw128 => "vrlw128"
  | .vrsqrtefp => "vrsqrtefp" | .vrsqrtefp128 => "vrsqrtefp128" | .vsel => "vsel"
  | .vsel128 => "vsel128" | .vsl => "vsl" | .vslb => "vslb" | .vsldoi => "vsldoi"
  | .vsldoi128 => "vsldoi128" | .vslh => "vslh" | .vslo => "vslo" | .vslo128 => "vslo128"
  | .vslw => "vslw" | .vslw128 => "vslw128" | .vspltb => "vspltb" | .vsplth => "vsplth"
  | .vspltisb => "vspltisb" | .vspltish => "vspltish" | .vspltisw => "vspltisw"
  | .vspltisw128 => "vspltisw128" | .vspltw => "vspltw" | .vspltw128 => "vspltw128"
  | .vsr => "vsr" | .vsrab => "vsrab" | .vsrah => "vsrah" | .vsraw => "vsraw"
  | .vsraw128 => "vsraw128" | .vsrb => "vsrb" | .vsrh => "vsrh" | .vsro => "vsro"
  | .vsro128 => "vsro128" | .vsrw => "vsrw" | .vsrw128 => "vsrw128" | .vsubcuw => "vsubcuw"
  | .vsubfp => "vsubfp" | .vsubfp128 => "vsubfp128" | .vsubsbs => "vsubsbs"
  | .vsubshs => "vsubshs" | .vsubsws => "vsubsws" | .vsububm => "vsububm" | .vsububs => "vsububs"
  | .vsubuhm => "vsubuhm" | .vsubuhs => "vsubuhs" | .vsubuwm => "vsubuwm" | .vsubuws => "vsubuws"
  | .vsum2sws => "vsum2sws" | .vsum4sbs => "vsum4sbs" | .vsum4shs => "vsum4shs"
  | .vsum4ubs => "vsum4ubs" | .vsumsws => "vsumsws" | .vupkd3d128 => "vupkd3d128"
  | .vupkhpx => "vupkhpx" | .vupkhsb => "vupkhsb" | .vupkhsb128 => "vupkhsb128"
  | .vupkhsh => "vupkhsh" | .vupklpx => "vupklpx" | .vupklsb => "vupklsb"
  | .vupklsb128 => "vupklsb128" | .vupklsh => "vupklsh" | .vxor => "vxor" | .vxor128 => "vxor128"
  | .xori => "xori" | .xoris => "xoris" | .xorx => "xorx"

/-- The bytes of a string, which `std::string_view` compares. -/
def stringBytes (s : String) : List UInt8 := s.toUTF8.data.toList

/-- `m.starts_with(p)`. -/
def Mnemonic.startsWith (m : Mnemonic) (p : String) : Bool :=
  (stringBytes p).isPrefixOf (stringBytes m.text)

/-- `m.ends_with(p)`. -/
def Mnemonic.endsWith (m : Mnemonic) (p : String) : Bool :=
  (stringBytes p).isSuffixOf (stringBytes m.text)

end Cpu
end XenonRecomp
