/-
# Entries and records

The entry a record calls for: of a page in a managed region it is a function of
the page's own record (`makeHotEntry_managed`), of a page in a direct view a
function of the frame's record (`makeHotEntry_direct`).  A publication writes
entries and leaves the records alone.
-/

import XenonRecomp.Memory.MemoryCalls

namespace XenonRecomp
namespace Memory

open Library Library.Loop

/-! ### The entry a record calls for -/

/-- The entry of a record in a managed region. -/
def pageEntry (p : Page) (slow : Bool) : HotEntry :=
  match p.state, p.physicalPage with
  | .committed, some frame => encodePage frame p.currentProtect slow
  | _, _ => { slow }

/-- No direct view lies in a managed region. -/
theorem physicalAliasAddress_managed {r : Region} (hr : r ∈ kRegions) (hm : r.managed = true)
    {g : ℕ} (hg : r.Holds g) : physicalAliasAddress (g * kBasePageSize) = none := by
  unfold physicalAliasAddress
  unfold Region.Holds at hg
  simp only [kBasePageSize]
  rcases Region.managed_cases hr hm with ⟨-, h⟩ | ⟨-, h₁, h₂⟩ | ⟨-, h₁, h₂⟩ <;>
    rw [if_neg (by omega), if_neg (by omega), if_neg (by omega)]

/-- **In a managed region the entry is the one of the page's own record.** -/
theorem makeHotEntry_managed {s : AddressSpace} {r : Region} (hr : r ∈ kRegions)
    (hm : r.managed = true) {g : ℕ} (hg : r.Holds g) :
    s.makeHotEntry g = pageEntry (s.pages g) (pageHasMmio s.mmioRanges g) := by
  have hlt : ¬kPageCount ≤ g := by
    have := (kRegions_aligned r hr).2.2
    unfold Region.Holds at hg
    omega
  have hregion : regionFor (g * kBasePageSize) = some r :=
    regionFor_page.mpr ⟨hr, by rw [Nat.mul_div_cancel _ (by decide)]; exact hg⟩
  have hmmio : r.kind ≠ .mmio := by
    rcases Region.managed_cases hr hm with ⟨h, -⟩ | ⟨h, -⟩ | ⟨h, -⟩ <;> simp [h]
  rw [AddressSpace.makeHotEntry, if_neg hlt]
  simp only [physicalAliasAddress_managed hr hm hg, Option.filter_none, hregion]
  rw [if_neg hmmio, if_neg (by simp [hm])]
  rfl

/-- **In a direct view the entry is the one of the frame's record.** -/
theorem makeHotEntry_direct {s : AddressSpace} {g frame : ℕ} (hg : g < kPageCount)
    (hf : frameShown g = some frame) :
    s.makeHotEntry g =
      encodePage frame (s.frames.metadata frame).currentProtect (pageHasMmio s.mmioRanges g) := by
  obtain ⟨direct, hdirect, rfl⟩ := Option.map_eq_some_iff.mp hf
  have hlt : direct < kPhysicalMemorySize := by
    unfold physicalAliasAddress at hdirect
    unfold kPhysicalMemorySize
    simp only [kBasePageSize, kPhysical4KViewOffset] at hdirect
    split_ifs at hdirect <;> simp at hdirect <;> omega
  rw [AddressSpace.makeHotEntry, if_neg (by omega)]
  simp only [hdirect, Option.filter_some, hlt, decide_true, if_true]
  rw [AddressSpace.physicalProtect, if_neg (by omega)]

/-! ### Publication -/

/-- A publication leaves the records alone. -/
theorem publishHotRange_pages (s : AddressSpace) (base size : ℕ) :
    (s.publishHotRange base size).pages = s.pages := by
  unfold AddressSpace.publishHotRange
  split_ifs <;> rfl

theorem publishPair_pages (s : AddressSpace) (xex : Bool) (base size : ℕ) :
    (s.publishPair xex base size).pages = s.pages := by
  unfold AddressSpace.publishPair
  cases xex with
  | false => exact publishHotRange_pages s base size
  | true => exact (publishHotRange_pages _ _ _).trans (publishHotRange_pages s base size)

theorem publishPhysicalAliasRange_pages (s : AddressSpace) (address size : ℕ) :
    (s.publishPhysicalAliasRange address size).pages = s.pages := by
  unfold AddressSpace.publishPhysicalAliasRange
  split_ifs <;> rfl

end Memory
end XenonRecomp
