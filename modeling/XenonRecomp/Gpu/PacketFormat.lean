/-
# The format of PM4 packets

The packet headers, opcodes and word transformations of
`src/include/xenon/gpu/types.hpp`.  A header word is a packet of one of four
types; a type-3 packet carries an opcode of seven bits, of which not all have a
name.
-/

import Mathlib.Algebra.Order.Ring.Int
import Mathlib.Data.BitVec

namespace XenonRecomp
namespace Gpu

/-- `Type3Opcode`; any other code of seven bits stays a number. -/
inductive Type3Opcode where
  | nop | regRmw | drawIndx | vizQuery | setState | waitForIdle | imLoad | imLoadImmediate
  | imStore | setConstant | loadConstantContext | loadAluConstant | drawIndxBin | drawIndx2Bin
  | drawIndx2 | indirectBufferPfd | invalidateState | waitRegMem | memWrite | regToMem
  | indirectBuffer | condExec | condWrite | eventWrite | meInit | setShaderBases
  | setBinBaseOffset | memWriteCounter | setBinMask | setBinSelect | waitRegEq | waitRegGte
  | interrupt | setConstant2 | setShaderConstants | eventWriteShaderDone | eventWriteCacheFlush
  | eventWriteExtent | eventWriteZPassDone | waitUntilRead | waitIndirectBufferPfdComplete
  | contextUpdate | setBinMaskLow | setBinMaskHigh | setBinSelectLow | setBinSelectHigh
  | unnamed (code : ℕ)
deriving DecidableEq, Repr

/-- The opcode with this code. -/
def Type3Opcode.ofCode : ℕ → Type3Opcode
  | 0x10 => .nop
  | 0x21 => .regRmw
  | 0x22 => .drawIndx
  | 0x23 => .vizQuery
  | 0x25 => .setState
  | 0x26 => .waitForIdle
  | 0x27 => .imLoad
  | 0x2B => .imLoadImmediate
  | 0x2C => .imStore
  | 0x2D => .setConstant
  | 0x2E => .loadConstantContext
  | 0x2F => .loadAluConstant
  | 0x34 => .drawIndxBin
  | 0x35 => .drawIndx2Bin
  | 0x36 => .drawIndx2
  | 0x37 => .indirectBufferPfd
  | 0x3B => .invalidateState
  | 0x3C => .waitRegMem
  | 0x3D => .memWrite
  | 0x3E => .regToMem
  | 0x3F => .indirectBuffer
  | 0x44 => .condExec
  | 0x45 => .condWrite
  | 0x46 => .eventWrite
  | 0x48 => .meInit
  | 0x4A => .setShaderBases
  | 0x4B => .setBinBaseOffset
  | 0x4F => .memWriteCounter
  | 0x50 => .setBinMask
  | 0x51 => .setBinSelect
  | 0x52 => .waitRegEq
  | 0x53 => .waitRegGte
  | 0x54 => .interrupt
  | 0x55 => .setConstant2
  | 0x56 => .setShaderConstants
  | 0x58 => .eventWriteShaderDone
  | 0x59 => .eventWriteCacheFlush
  | 0x5A => .eventWriteExtent
  | 0x5B => .eventWriteZPassDone
  | 0x5C => .waitUntilRead
  | 0x5D => .waitIndirectBufferPfdComplete
  | 0x5E => .contextUpdate
  | 0x60 => .setBinMaskLow
  | 0x61 => .setBinMaskHigh
  | 0x62 => .setBinSelectLow
  | 0x63 => .setBinSelectHigh
  | code => .unnamed code

/-- `PacketHeader`, with what each type of packet has. -/
inductive PacketHeader where
  | type0 (count registerIndex : ℕ) (writeOneRegister : Bool)
  | type1 (registerIndex1 registerIndex2 : ℕ)
  | type2
  | type3 (count : ℕ) (opcode : Type3Opcode) (predicate : Bool)
deriving DecidableEq, Repr

/-- The dwords behind the header. -/
def PacketHeader.count : PacketHeader → ℕ
  | .type0 count _ _ => count
  | .type1 _ _ => 2
  | .type2 => 0
  | .type3 count _ _ => count

/-- `decode_packet_header`. -/
def decodePacketHeader (word : BitVec 32) : PacketHeader :=
  let count := ((word >>> 16) &&& 0x3FFF).toNat + 1
  match (word >>> 30).toNat with
  | 0 => .type0 count (word &&& 0x7FFF).toNat ((word >>> 15) &&& 1 ≠ 0)
  | 1 => .type1 (word &&& 0x7FF).toNat ((word >>> 11) &&& 0x7FF).toNat
  | 2 => .type2
  | _ => .type3 count (.ofCode ((word >>> 8) &&& 0x7F).toNat) (word &&& 1 ≠ 0)

/-- `Endian`. -/
inductive Endian where
  | none | swap8In16 | swap8In32 | swap16In32
deriving DecidableEq, Repr

/-- The two low bits of an address. -/
def Endian.ofWord (word : BitVec 32) : Endian :=
  match (word &&& 3).toNat with
  | 0 => .none
  | 1 => .swap8In16
  | 2 => .swap8In32
  | _ => .swap16In32

/-- `cpu_to_gpu_address`. -/
def gpuAddress (address : BitVec 32) : BitVec 32 :=
  address &&& 0x1FFFFFFF

/-- `cpu_to_gpu_address`, as a place in physical memory. -/
def cpuToGpuAddress (address : BitVec 32) : ℕ :=
  (gpuAddress address).toNat

/-- The address bits of a word that also carries two bits of endianness. -/
def gpuDwordAddress (address : BitVec 32) : ℕ :=
  cpuToGpuAddress (address &&& ~~~3)

/-- `gpu_swap`. -/
def gpuSwap (value : BitVec 32) : Endian → BitVec 32
  | .none => value
  | .swap8In16 => ((value &&& 0x00FF00FF) <<< 8) ||| ((value &&& 0xFF00FF00) >>> 8)
  | .swap8In32 =>
      ((value &&& 0x000000FF) <<< 24) ||| ((value &&& 0x0000FF00) <<< 8) |||
        ((value &&& 0x00FF0000) >>> 8) ||| ((value &&& 0xFF000000) >>> 24)
  | .swap16In32 => (value <<< 16) ||| (value >>> 16)

/-- `encode_be32`. -/
def encodeBe32 (value : BitVec 32) : List (BitVec 8) :=
  [value.extractLsb' 24 8, value.extractLsb' 16 8, value.extractLsb' 8 8, value.extractLsb' 0 8]

/-- `encode_le32`. -/
def encodeLe32 (value : BitVec 32) : List (BitVec 8) :=
  (encodeBe32 value).reverse

/-- `encode_be16`. -/
def encodeBe16 (value : BitVec 16) : List (BitVec 8) :=
  [value.extractLsb' 8 8, value.extractLsb' 0 8]

end Gpu
end XenonRecomp
