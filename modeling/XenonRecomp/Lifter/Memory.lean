/-
# Lifting loads and stores

`Lifter::lift_memory` of `src/cpu/ppc/lifter/memory.cpp`.  An effective address
keeps all 64 bits; the access itself cuts it to a guest address.  Where the
source reads two registers as the arguments of one call, RA is read first here.
-/

import XenonRecomp.Ir.Builder

namespace XenonRecomp
namespace Lifter

open Cpu Ir

/-- What `scalar_load_desc` and `scalar_store_desc` say of a mnemonic. -/
structure ScalarDesc where
  bytes : ℕ
  sign : Bool
  update : Bool
  indexed : Bool
  endian : Endian
deriving DecidableEq, Repr

/-- `scalar_load_desc`. -/
def scalarLoadDesc : Mnemonic → Option ScalarDesc
  | .lbz => some ⟨1, false, false, false, .big⟩
  | .lbzu => some ⟨1, false, true, false, .big⟩
  | .lbzx => some ⟨1, false, false, true, .big⟩
  | .lbzux => some ⟨1, false, true, true, .big⟩
  | .lha => some ⟨2, true, false, false, .big⟩
  | .lhau => some ⟨2, true, true, false, .big⟩
  | .lhax => some ⟨2, true, false, true, .big⟩
  | .lhaux => some ⟨2, true, true, true, .big⟩
  | .lhz => some ⟨2, false, false, false, .big⟩
  | .lhzu => some ⟨2, false, true, false, .big⟩
  | .lhzx => some ⟨2, false, false, true, .big⟩
  | .lhzux => some ⟨2, false, true, true, .big⟩
  | .lwa => some ⟨4, true, false, false, .big⟩
  | .lwax => some ⟨4, true, false, true, .big⟩
  | .lwaux => some ⟨4, true, true, true, .big⟩
  | .lwz => some ⟨4, false, false, false, .big⟩
  | .lwzu => some ⟨4, false, true, false, .big⟩
  | .lwzx => some ⟨4, false, false, true, .big⟩
  | .lwzux => some ⟨4, false, true, true, .big⟩
  | .ld => some ⟨8, false, false, false, .big⟩
  | .ldu => some ⟨8, false, true, false, .big⟩
  | .ldx => some ⟨8, false, false, true, .big⟩
  | .ldux => some ⟨8, false, true, true, .big⟩
  | .lhbrx => some ⟨2, false, false, true, .little⟩
  | .lwbrx => some ⟨4, false, false, true, .little⟩
  | .ldbrx => some ⟨8, false, false, true, .little⟩
  | _ => none

/-- `scalar_store_desc`. -/
def scalarStoreDesc : Mnemonic → Option ScalarDesc
  | .stb => some ⟨1, false, false, false, .big⟩
  | .stbu => some ⟨1, false, true, false, .big⟩
  | .stbx => some ⟨1, false, false, true, .big⟩
  | .stbux => some ⟨1, false, true, true, .big⟩
  | .sth => some ⟨2, false, false, false, .big⟩
  | .sthu => some ⟨2, false, true, false, .big⟩
  | .sthx => some ⟨2, false, false, true, .big⟩
  | .sthux => some ⟨2, false, true, true, .big⟩
  | .stw => some ⟨4, false, false, false, .big⟩
  | .stwu => some ⟨4, false, true, false, .big⟩
  | .stwx => some ⟨4, false, false, true, .big⟩
  | .stwux => some ⟨4, false, true, true, .big⟩
  | .std => some ⟨8, false, false, false, .big⟩
  | .stdu => some ⟨8, false, true, false, .big⟩
  | .stdx => some ⟨8, false, false, true, .big⟩
  | .stdux => some ⟨8, false, true, true, .big⟩
  | .sthbrx => some ⟨2, false, false, true, .little⟩
  | .stwbrx => some ⟨4, false, false, true, .little⟩
  | .stdbrx => some ⟨8, false, false, true, .little⟩
  | _ => none

/-- `width_type`. -/
def widthType : ℕ → IrType
  | 1 => .i8
  | 2 => .i16
  | 4 => .i32
  | _ => .i64

/-- `add_immediate`: nothing is emitted for a zero displacement. -/
def addImmediate (base : ValueId) (displacement : BitVec 64) : Build ValueId :=
  if displacement = 0 then pure base else emit .addImmediate .i64 [base] displacement

/-- `ea_d` and `ea_ds`, by the displacement: RA, or zero for `r0` in a form that
does not update it, plus the displacement. -/
def eaDisplacement (i : DecodedInstruction) (displacement : BitVec 64) (update : Bool) :
    Build ValueId :=
  if !update ∧ i.ra = 0 then constantI64 displacement
  else do
    let base ← readGpr i.ra
    addImmediate base displacement

/-- `ea_d`. -/
def eaD (i : DecodedInstruction) (update : Bool) : Build ValueId :=
  eaDisplacement i (i.simm16.signExtend 64) update

/-- `ea_ds`. -/
def eaDs (i : DecodedInstruction) (update : Bool) : Build ValueId :=
  eaDisplacement i i.dsDisplacement update

/-- `ea_x`. -/
def eaX (i : DecodedInstruction) (update : Bool) : Build ValueId :=
  if !update ∧ i.ra = 0 then readGpr i.rb
  else do
    let a ← readGpr i.ra
    let c ← readGpr i.rb
    emit .add .i64 [a, c]

/-- The effective address of a scalar access. -/
def eaScalar (i : DecodedInstruction) (update indexed : Bool) : Build ValueId :=
  if i.info.format = .DS then eaDs i update
  else if indexed then eaX i update else eaD i update

/-- `load_raw`. -/
def loadRaw (ea : ValueId) (type : IrType) (endian : Endian) : Build ValueId :=
  emit .load type [ea] endian.code

/-- `store_raw`. -/
def storeRaw (ea v : ValueId) (type : IrType) (endian : Endian) : Build Unit :=
  emitVoid .store [ea, v] endian.code type.code

/-- `extend`. -/
def extend (v : ValueId) (src : IrType) (sign : Bool) : Build ValueId :=
  if src = .i64 then pure v else emit (if sign then .signExtend else .zeroExtend) .i64 [v]

/-- Scalar loads. -/
def liftLoad (i : DecodedInstruction) (d : ScalarDesc) : Build Unit := do
  let ea ← eaScalar i d.update d.indexed
  let raw ← loadRaw ea (widthType d.bytes) d.endian
  let value ← extend raw (widthType d.bytes) d.sign
  writeGpr i.rt value
  if d.update then writeGpr i.ra ea

/-- Scalar stores. -/
def liftStore (i : DecodedInstruction) (d : ScalarDesc) : Build Unit := do
  let ea ← eaScalar i d.update d.indexed
  let value ← readGpr i.rs
  let value ← if d.bytes ≠ 8 then emit .truncate (widthType d.bytes) [value] else pure value
  storeRaw ea value (widthType d.bytes) d.endian
  if d.update then writeGpr i.ra ea

/-- One register of `lmw` or `stmw`. -/
def liftMultipleOne (i : DecodedInstruction) (isLoad : Bool) (base : ValueId) (r : ℕ) :
    Build Unit := do
  let ea ← addImmediate base
    (i.simm16.signExtend 64 + BitVec.ofNat 64 ((r - i.rt.toNat) * 4))
  if isLoad then
    let raw ← loadRaw ea .i32 .big
    let value ← extend raw .i32 false
    writeGpr (BitVec.ofNat 5 r) value
  else
    let v ← readGpr (BitVec.ofNat 5 r)
    let v ← emit .truncate .i32 [v]
    storeRaw ea v .i32 .big

/-- The `lmw`, `stmw` family: registers RT to 31, in order. -/
def liftMultiple (i : DecodedInstruction) (isLoad : Bool) : Build Unit := do
  let base ← if i.ra ≠ 0 then readGpr i.ra else constantI64 0
  (List.range' i.rt.toNat (32 - i.rt.toNat)).forM (liftMultipleOne i isLoad base)

/-- The string family. -/
def liftString (i : DecodedInstruction) (isLoad indexed : Bool) : Build Unit := do
  let ea ← if indexed then eaX i false
    else if i.ra ≠ 0 then readGpr i.ra else constantI64 0
  let count ← if indexed then do
      let xer ← emit .readXER .i32 []
      let mask ← constantI32 0x7F
      emit .and .i32 [xer, mask]
    else constantI32 (if i.rb = 0 then 32 else i.rb.setWidth 32)
  emitVoid (if isLoad then .stringLoad else .stringStore) [ea, count] (i.rt.setWidth 64)
    (if indexed then 1 else 0)

/-- Floating-point loads. -/
def liftFloatLoad (i : DecodedInstruction) (single update indexed : Bool) : Build Unit := do
  let ea ← if indexed then eaX i update else eaD i update
  let bits ← if single then do
      let raw ← loadRaw ea .i32 .big
      let f32 ← emit .bitcast .f32 [raw]
      let f64 ← emit .fPromote .f64 [f32]
      emit .bitcast .i64 [f64]
    else loadRaw ea .i64 .big
  writeFprBits i.frt bits
  if update then writeGpr i.ra ea

/-- Floating-point stores. -/
def liftFloatStore (i : DecodedInstruction) (single update indexed : Bool) : Build Unit := do
  let ea ← if indexed then eaX i update else eaD i update
  let bits ← readFprBits i.frs
  if single then
    let f64 ← emit .bitcast .f64 [bits]
    let f32 ← emit .fTruncate .f32 [f64]
    let raw ← emit .bitcast .i32 [f32]
    storeRaw ea raw .i32 .big
  else storeRaw ea bits .i64 .big
  if update then writeGpr i.ra ea

/-- `stfiwx`. -/
def liftStoreFloatWord (i : DecodedInstruction) : Build Unit := do
  let ea ← eaX i false
  let bits ← readFprBits i.frs
  let low ← emit .truncate .i32 [bits]
  storeRaw ea low .i32 .big

/-- The `lwarx`, `ldarx` family. -/
def liftLoadReserve (i : DecodedInstruction) (t : IrType) : Build Unit := do
  let ea ← eaX i false
  let raw ← emit .reserveLoad t [ea] Endian.big.code
  let value ← extend raw t false
  writeGpr i.rt value

/-- The `stwcx`, `stdcx` family. -/
def liftStoreConditional (i : DecodedInstruction) (t : IrType) : Build Unit := do
  let ea ← eaX i false
  let value ← readGpr i.rs
  let value ← if t = .i32 then emit .truncate .i32 [value] else pure value
  let ok ← emit .storeConditional .i1 [ea, value] Endian.big.code t.code
  let no ← constantI1 false
  let so ← emit .readXerSO .i1 []
  emitVoid .writeCRCompare [no, no, ok, so] 0

/-- `vector_reg`. -/
def vectorReg (i : DecodedInstruction) : BitVec 7 :=
  if i.info.format = .VX128_1 then i.vx128Vd else i.rt.setWidth 7

/-- The effective address aligned to sixteen bytes. -/
def eaAligned (i : DecodedInstruction) : Build ValueId := do
  let ea ← eaX i false
  let alignMask ← constantI64 (~~~0xF)
  emit .and .i64 [ea, alignMask]

/-- The aligned vector loads. -/
def liftVectorLoad (i : DecodedInstruction) : Build Unit := do
  let ea ← eaAligned i
  let v ← emit .load .v128 [ea] Endian.raw.code 16
  writeVector (vectorReg i) v

/-- The aligned vector stores. -/
def liftVectorStore (i : DecodedInstruction) : Build Unit := do
  let ea ← eaAligned i
  let v ← readVector (vectorReg i)
  emitVoid .store [ea, v] Endian.raw.code IrType.v128.code

/-- The vector loads that merge into the register: element, left and right. -/
def liftVectorLoadPart (i : DecodedInstruction) (op : Op) (imm0 : BitVec 64) : Build Unit := do
  let ea ← eaX i false
  let old ← readVector (vectorReg i)
  let v ← emit op .v128 [old, ea] imm0
  writeVector (vectorReg i) v

/-- The partial vector stores. -/
def liftVectorStorePart (i : DecodedInstruction) (op : Op) (imm0 : BitVec 64) : Build Unit := do
  let ea ← eaX i false
  let v ← readVector (vectorReg i)
  emitVoid op [v, ea] imm0

/-- The cache operations of one address. -/
def liftCache (i : DecodedInstruction) (op : Op) (imm0 : BitVec 64) : Build Unit := do
  let ea ← eaX i false
  emitVoid op [ea] imm0

/-- The last-use hint of the left and right vector accesses. -/
def lastUse (m : Mnemonic) : BitVec 64 := if m.endsWith "l" then 1 else 0

/-- The forms of `lift_memory` after the scalar tables. -/
def liftMemoryOther (i : DecodedInstruction) : Build Bool := do
  let m := i.mnemonic
  match m with
  | .lmw | .stmw => liftMultiple i (m = .lmw)
  | .lswi => liftString i true false
  | .lswx => liftString i true true
  | .stswi => liftString i false false
  | .stswx => liftString i false true
  | .lfd => liftFloatLoad i false false false
  | .lfdu => liftFloatLoad i false true false
  | .lfdx => liftFloatLoad i false false true
  | .lfdux => liftFloatLoad i false true true
  | .lfs => liftFloatLoad i true false false
  | .lfsu => liftFloatLoad i true true false
  | .lfsx => liftFloatLoad i true false true
  | .lfsux => liftFloatLoad i true true true
  | .stfd => liftFloatStore i false false false
  | .stfdu => liftFloatStore i false true false
  | .stfdx => liftFloatStore i false false true
  | .stfdux => liftFloatStore i false true true
  | .stfs => liftFloatStore i true false false
  | .stfsu => liftFloatStore i true true false
  | .stfsx => liftFloatStore i true false true
  | .stfsux => liftFloatStore i true true true
  | .stfiwx => liftStoreFloatWord i
  | .lwarx => liftLoadReserve i .i32
  | .ldarx => liftLoadReserve i .i64
  | .stwcx => liftStoreConditional i .i32
  | .stdcx => liftStoreConditional i .i64
  | .lvx | .lvxl | .lvx128 | .lvxl128 => liftVectorLoad i
  | .stvx | .stvxl | .stvx128 | .stvxl128 => liftVectorStore i
  | .lvebx => liftVectorLoadPart i .vLoadElement 1
  | .lvehx => liftVectorLoadPart i .vLoadElement 2
  | .lvewx | .lvewx128 => liftVectorLoadPart i .vLoadElement 4
  | .stvebx => liftVectorStorePart i .vStoreElement 1
  | .stvehx => liftVectorStorePart i .vStoreElement 2
  | .stvewx | .stvewx128 => liftVectorStorePart i .vStoreElement 4
  | .lvlx | .lvlxl | .lvlx128 | .lvlxl128 => liftVectorLoadPart i .vLoadLeft (lastUse m)
  | .lvrx | .lvrxl | .lvrx128 | .lvrxl128 => liftVectorLoadPart i .vLoadRight (lastUse m)
  | .stvlx | .stvlxl | .stvlx128 | .stvlxl128 => liftVectorStorePart i .vStoreLeft (lastUse m)
  | .stvrx | .stvrxl | .stvrx128 | .stvrxl128 => liftVectorStorePart i .vStoreRight (lastUse m)
  | .dcbz => liftCache i .cacheZero 32
  | .dcbz128 => liftCache i .cacheZero 128
  | .icbi => liftCache i .iCacheInvalidate 0
  | .dcbf | .dcbi | .dcbst | .dcbt | .dcbtst => liftCache i .cacheHint (i.info.pattern.setWidth 64)
  | _ => return false
  return true

/-- `lift_memory`. -/
def liftMemory (i : DecodedInstruction) : Build Bool := do
  match scalarLoadDesc i.mnemonic, scalarStoreDesc i.mnemonic with
  | some d, _ =>
      liftLoad i d
      return true
  | none, some d =>
      liftStore i d
      return true
  | none, none => liftMemoryOther i

end Lifter
end XenonRecomp
