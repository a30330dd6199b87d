/-
# Native replacements of C functions

The string and memory functions of `src/recomp/runtime/native_replacements.cpp`, which
run in place of the code of the guest: they take their arguments from r3 on, leave
their result in r3 and return to the address in LR.  Guest memory is reached through
the default range functions of `MemoryPort`, which go byte by byte; an access to a byte
that is not mapped ends the function, which is `none` here.
-/

import XenonRecomp.Library.ByteMemory
import XenonRecomp.Machine.Host

namespace XenonRecomp
namespace Recomp
namespace NativeReplacements

open Cpu Machine Library

/-- The memory of the guest, as a `MemoryPort` reaches it. -/
abbrev GuestMemory := ByteMemory 32

/-- `ExecutionContext`, its state and its memory. -/
structure ExecutionContext where
  state : CpuState
  memory : GuestMemory

namespace ExecutionContext

/-- A register as a `std::uint32_t`. -/
def arg (context : ExecutionContext) (reg : BitVec 5) : BitVec 32 :=
  (context.state.gpr reg).setWidth 32

/-- A register as a `std::uint8_t`. -/
def byteArg (context : ExecutionContext) (reg : BitVec 5) : BitVec 8 :=
  (context.state.gpr reg &&& 0xFF).setWidth 8

end ExecutionContext

/-- `guest_return`. -/
def guestReturn (state : CpuState) : ExecutionResult :=
  ⟨.return, (state.lr &&& ~~~3).setWidth 32, 0⟩

/-- The context with a result in r3 and a memory, and the return to the caller. -/
def finish (context : ExecutionContext) (result : BitVec 64) (memory : GuestMemory) :
    ExecutionContext × ExecutionResult :=
  let state := context.state.setGpr 3 result
  ({ state := state, memory := memory }, guestReturn state)

/-- `fill_bytes`. -/
def fillBytes (memory : GuestMemory) (address : GuestAddress) : ℕ → BitVec 8 → Option GuestMemory
  | 0, _ => some memory
  | count + 1, value => do
    let memory ← memory.write8 address value
    fillBytes memory (address + 1) count value

/-- `read_guest_cstring`. -/
def readGuestCstring (memory : GuestMemory) (address : GuestAddress) :
    ℕ → Option (List (BitVec 8))
  | 0 => some []
  | maxLength + 1 => do
    let byte ← memory.read8 address
    if byte = 0 then return []
    let rest ← readGuestCstring memory (address + 1) maxLength
    return byte :: rest

/-- The bound of `read_guest_cstring` where none is given. -/
def defaultMaxLength : ℕ := 0xFFFF

/-- `memcpy_v2`. -/
def memcpyV2 (context : ExecutionContext) : Option (ExecutionContext × ExecutionResult) := do
  let dst := context.arg 3
  let src := context.arg 4
  let count := context.arg 5
  let bytes ← context.memory.readBytes src count.toNat
  let memory ← context.memory.writeBytes dst bytes
  return finish context (dst.setWidth 64) memory

/-- `memmove_v2`. -/
def memmoveV2 (context : ExecutionContext) : Option (ExecutionContext × ExecutionResult) :=
  memcpyV2 context

/-- `memset_v2`. -/
def memsetV2 (context : ExecutionContext) : Option (ExecutionContext × ExecutionResult) := do
  let dst := context.arg 3
  let value := context.byteArg 4
  let count := context.arg 5
  let memory ← fillBytes context.memory dst count.toNat value
  return finish context (dst.setWidth 64) memory

/-- `memcpy_checked_v2`. -/
def memcpyCheckedV2 (context : ExecutionContext) : Option (ExecutionContext × ExecutionResult) :=
  let dst := context.arg 3
  let dstSize := context.arg 4
  let src := context.arg 5
  let count := context.arg 6
  if dstSize < count then some (finish context 34 context.memory)
  else do
    let bytes ← context.memory.readBytes src count.toNat
    let memory ← context.memory.writeBytes dst bytes
    return finish context 0 memory

/-- `memmove_checked_v2`. -/
def memmoveCheckedV2 (context : ExecutionContext) : Option (ExecutionContext × ExecutionResult) :=
  memcpyCheckedV2 context

/-- The loop of `memcmp_v2` over the bytes that were read. -/
def compareBytes : List (BitVec 8) → List (BitVec 8) → ℤ
  | a :: lhs, b :: rhs => if a ≠ b then (a.toNat : ℤ) - b.toNat else compareBytes lhs rhs
  | _, _ => 0

/-- A `std::int32_t` as the value of a register. -/
def signedResult (result : ℤ) : BitVec 64 := BitVec.ofInt 64 result

/-- `memcmp_v2`. -/
def memcmpV2 (context : ExecutionContext) : Option (ExecutionContext × ExecutionResult) := do
  let lhs := context.arg 3
  let rhs := context.arg 4
  let count := context.arg 5
  let lhsBytes ← context.memory.readBytes lhs count.toNat
  let rhsBytes ← context.memory.readBytes rhs count.toNat
  return finish context (signedResult (compareBytes lhsBytes rhsBytes)) context.memory

/-- `strlen_v2`. -/
def strlenV2 (context : ExecutionContext) : Option (ExecutionContext × ExecutionResult) := do
  let str := context.arg 3
  let text ← readGuestCstring context.memory str defaultMaxLength
  return finish context (BitVec.ofNat 64 text.length) context.memory

/-- The loop of `strncmp_v2`, of `count` more rounds. -/
def compareStrings (memory : GuestMemory) (lhs rhs : GuestAddress) : ℕ → Option ℤ
  | 0 => some 0
  | count + 1 => do
    let a ← memory.read8 lhs
    let b ← memory.read8 rhs
    if a ≠ b then return (a.toNat : ℤ) - b.toNat
    if a = 0 then return 0
    compareStrings memory (lhs + 1) (rhs + 1) count

/-- `strncmp_v2`. -/
def strncmpV2 (context : ExecutionContext) : Option (ExecutionContext × ExecutionResult) := do
  let lhs := context.arg 3
  let rhs := context.arg 4
  let count := context.arg 5
  let result ← compareStrings context.memory lhs rhs count.toNat
  return finish context (signedResult result) context.memory

/-- The loop of `strncpy_v2`, of `count` more rounds. -/
def copyString (memory : GuestMemory) (dst src : GuestAddress) :
    ℕ → Bool → Option GuestMemory
  | 0, _ => some memory
  | count + 1, ended => do
    let byte ← if ended then some 0 else memory.read8 src
    let memory ← memory.write8 dst byte
    copyString memory (dst + 1) (src + 1) count (ended || byte == 0)

/-- `strncpy_v2`. -/
def strncpyV2 (context : ExecutionContext) : Option (ExecutionContext × ExecutionResult) := do
  let dst := context.arg 3
  let src := context.arg 4
  let count := context.arg 5
  let memory ← copyString context.memory dst src count.toNat false
  return finish context (dst.setWidth 64) memory

/-- The loop of `strchr_v2` from an address on: where it stops.  It looks at an address
again after 2 ^ 32 rounds, so that it goes on for ever when as many were not enough. -/
def searchByte (memory : GuestMemory) (target : BitVec 8) : ℕ → GuestAddress → Option GuestAddress
  | 0, _ => none
  | rounds + 1, address => do
    let byte ← memory.read8 address
    if byte = target then return address
    if byte = 0 then return 0
    searchByte memory target rounds (address + 1)

/-- `strchr_v2`. -/
def strchrV2 (context : ExecutionContext) : Option (ExecutionContext × ExecutionResult) := do
  let str := context.arg 3
  let target := context.byteArg 4
  let result ← searchByte context.memory target (2 ^ 32) str
  return finish context (result.setWidth 64) context.memory

/-- `std::string::find`. -/
def find (text needle : List (BitVec 8)) : Option ℕ :=
  (List.range (text.length + 1)).find? fun i => needle.isPrefixOf (text.drop i)

/-- `std::string::find_last_of`, of one character. -/
def findLastOf (text : List (BitVec 8)) (c : BitVec 8) : Option ℕ :=
  (List.range text.length).reverse.find? fun i => text.getD i 0 == c

/-- `strstr_v2`. -/
def strstrV2 (context : ExecutionContext) : Option (ExecutionContext × ExecutionResult) := do
  let haystackAddr := context.arg 3
  let needleAddr := context.arg 4
  let haystack ← readGuestCstring context.memory haystackAddr defaultMaxLength
  let needle ← readGuestCstring context.memory needleAddr defaultMaxLength
  let result :=
    if needle.isEmpty then haystackAddr
    else
      match find haystack needle with
      | some position => haystackAddr + BitVec.ofNat 32 position
      | none => 0
  return finish context (result.setWidth 64) context.memory

/-- `strrchr_v2`. -/
def strrchrV2 (context : ExecutionContext) : Option (ExecutionContext × ExecutionResult) := do
  let str := context.arg 3
  let target := context.byteArg 4
  let text ← readGuestCstring context.memory str defaultMaxLength
  let result :=
    match findLastOf text target with
    | some position => str + BitVec.ofNat 32 position
    | none => if target = 0 then str + BitVec.ofNat 32 text.length else 0
  return finish context (result.setWidth 64) context.memory

/-- `strcpy_checked_v2`. -/
def strcpyCheckedV2 (context : ExecutionContext) :
    Option (ExecutionContext × ExecutionResult) := do
  let dst := context.arg 3
  let dstSize := context.arg 4
  let src := context.arg 5
  let text ← readGuestCstring context.memory src dstSize.toNat
  if dstSize = 0 ∨ dstSize.toNat < text.length + 1 then
    let memory ← if 0 < dstSize then context.memory.write8 dst 0 else some context.memory
    return finish context 34 memory
  else
    let memory ← context.memory.writeBytes dst text
    let memory ← memory.write8 (dst + BitVec.ofNat 32 text.length) 0
    return finish context 0 memory

end NativeReplacements
end Recomp
end XenonRecomp
