/-
# Lifting one guest instruction

`Lifter::lift` of `src/cpu/ppc/lifter/lifter.cpp`: the group of the catalogue row
selects the lifter, with the instruction as the builder's current guest.
-/

import XenonRecomp.Lifter.Integer
import XenonRecomp.Lifter.Memory
import XenonRecomp.Lifter.FloatingPoint
import XenonRecomp.Lifter.Vector

namespace XenonRecomp
namespace Lifter

open Cpu Ir

/-- The lifter of an instruction's group. -/
def liftGroup (i : DecodedInstruction) : Build Bool :=
  match i.info.group with
  | .Integer => liftInteger i
  | .Control | .Branch => liftControl i
  | .Memory => liftMemory i
  | .FloatingPoint => liftFpu i
  | .Vector => liftVector i

/-- `Lifter::lift`: the code of one instruction, with its values numbered from
`n`, if the instruction is lowered. -/
def lift (i : DecodedInstruction) (n : ValueId) : Option (Built Unit) :=
  let r := liftGroup i i n
  if r.result then some ⟨(), r.next, r.code⟩ else none

end Lifter
end XenonRecomp
