/-
# Requests to `allocate`

What `AddressSpace::allocate` (`src/memory/guest/virtual/virtual_allocation.cpp`)
does with a request, in every state a run of calls reaches.  A well-formed
request whose rounded size fits in 32 bits, and downwards in the region, is
served at the extreme usable address, or there is none, or the frames run out
while it is committed; the assertion about page indices is not reached.  A
malformed request is refused and changes nothing.

Outside that condition the code does something else: a size that rounds to
`2 ^ 32` is a size of zero to the search, and `end + 1 - size` of a size larger
than the region starts the downward search above the region.
-/

import XenonRecomp.Memory.AllocationSearch
import XenonRecomp.Memory.GuardPages

namespace XenonRecomp
namespace Memory

open Library Library.Loop

/-- The arguments of `allocate`. -/
structure AllocationRequest where
  size : BitVec 32
  alignment : BitVec 32
  protect : Protect
  topDown : Bool
  requestedPageSize : Option (BitVec 32)
  commit : Bool
  zeroInitialize : Bool
  drained : ℕ → Bool

namespace AllocationRequest

/-- The page size a request asks for. -/
def pageSize (q : AllocationRequest) : ℕ :=
  (q.requestedPageSize.map BitVec.toNat).getD kBasePageSize

/-- The alignment of the address. -/
def alignmentBytes (q : AllocationRequest) : ℕ :=
  AddressSpace.requestedAlignment q.alignment.toNat q.pageSize

/-- The size in whole pages. -/
def rounded (q : AllocationRequest) : ℕ :=
  AddressSpace.roundedSize q.size.toNat q.pageSize

/-- The call with these arguments. -/
def call (q : AllocationRequest) : Call :=
  .allocate q.size q.alignment q.protect q.topDown q.requestedPageSize q.commit q.zeroInitialize
    q.drained

/-- The request passes the guards of `allocate` and of `reserve_pages`. -/
def WellFormed (q : AllocationRequest) : Prop :=
  q.size.toNat ≠ 0 ∧ hasSingleBit q.alignmentBytes = true ∧ Protect.valid q.protect = true

/-- The rounded size fits in 32 bits, and downwards in the region. -/
def Fits (q : AllocationRequest) : Prop :=
  q.rounded < 2 ^ 32 ∧ ∀ region, AddressSpace.allocationRegion q.pageSize = some region →
    q.topDown = true → q.rounded ≤ region.last + 1

/-- The call reaches the assertion about page indices. -/
def asserts (q : AllocationRequest) (s : AddressSpace) : Bool :=
  if q.size.toNat = 0 then false
  else
    match AddressSpace.allocationRegion q.pageSize with
    | none => false
    | some region =>
      if hasSingleBit q.alignmentBytes = false then false
      else s.searchAsserts region (alignUp q.size.toNat q.pageSize) q.alignmentBytes q.topDown

end AllocationRequest

namespace AddressSpace

variable {s s' : AddressSpace} {q : AllocationRequest} {region : Region} {size A : ℕ}

/-- An address the request may be served at. -/
def Usable (s : AddressSpace) (q : AllocationRequest) (A : ℕ) : Prop :=
  ∃ region, allocationRegion q.pageSize = some region ∧
    s.Candidate region q.rounded q.alignmentBytes A

/-- The pages of the range are in use and form one allocation. -/
def OneAllocation (s : AddressSpace) (base size : ℕ) : Prop :=
  ∀ i < size / kBasePageSize,
    (s.pages (base / kBasePageSize + i)).state ≠ .free ∧
    (s.pages (base / kBasePageSize + i)).allocationBasePage = base / kBasePageSize ∧
    (s.pages (base / kBasePageSize + i)).allocationPageCount = size / kBasePageSize

/-- Committing the request at an address, the frames run out: some pages have
got theirs, and after the retired frames were taken back none is free. -/
def FramesRunOut (s : AddressSpace) (q : AllocationRequest) (A : ℕ) : Prop :=
  q.commit = true ∧ ∃ k < q.rounded / kBasePageSize, ∃ (s₁ : AddressSpace) (fr : Frames),
    commitLoop false (A / kBasePageSize) q.protect q.zeroInitialize q.drained k 0 []
      (s.reservePages A q.rounded q.protect).2 = .ok (true, s₁) ∧
    reclaimRetiredPhysicalPages s₁.frames (q.drained k) = .ok fr ∧
    ∀ f < kPhysicalPageCount, f ∉ fr.free

/-- What a request asks of `allocate`: the extreme usable address and one
allocation there, or no usable address or no frames; and no assertion. -/
structure Allocates (s : AddressSpace) (q : AllocationRequest) : Prop where
  no_assertion : q.asserts s = false
  served : ∀ r s', s.perform q.call = .ok (r, s') → r.ok = true →
    ∃ A, r.outAddress = some A ∧ s.Usable q A ∧
      (∀ B, s.Usable q B → if q.topDown then B ≤ A else A ≤ B) ∧
      s'.OneAllocation A q.rounded ∧ q.size.toNat ≤ q.rounded
  refused : ∀ r s', s.perform q.call = .ok (r, s') → r.ok = false →
    (∀ A, ¬s.Usable q A) ∨ ∃ A, r.outAddress = some A ∧ s.FramesRunOut q A

/-! ### The reservation -/

/-- The records after the second loop of `reserve_pages` in a region without an
alias. -/
theorem reservePage_loop {base count : ℕ} {protect : Protect} (n : ℕ) :
    ∀ h, ((loop (reservePage base count protect .virtual) n s).pages h) =
      if base / kBasePageSize ≤ h ∧ h < base / kBasePageSize + n then
        reservedPage (s.pages h) (base / kBasePageSize) count protect .virtual
      else s.pages h := by
  refine loop_induct (I := fun n (s' : AddressSpace) => ∀ h, s'.pages h =
    if base / kBasePageSize ≤ h ∧ h < base / kBasePageSize + n then
      reservedPage (s.pages h) (base / kBasePageSize) count protect .virtual
    else s.pages h) (fun h => by rw [if_neg (by omega)]) fun i s₁ _ hs h => ?_
  simp only [reservePage, reduceCtorEq, if_false, setPage]
  rcases eq_or_ne h (base / kBasePageSize + i) with rfl | hne
  · rw [Function.update_self, hs, if_neg (by omega), if_pos (by omega)]
  · rw [Function.update_of_ne hne, hs]
    split_ifs <;> first | rfl | omega

/-- **A usable range is reserved** as one allocation. -/
theorem reservePages_of_candidate {pageSize alignment : ℕ} {protect : Protect}
    (hregion : allocationRegion pageSize = some region)
    (hcand : s.Candidate region size alignment A) (hsize : 0 < size)
    (hvalid : Protect.valid protect = true) :
    ∃ s', s.reservePages A size protect = (true, s') ∧ regionFor A = some region ∧
      region.kind = .virtual ∧ ∀ i < size / kBasePageSize,
        s'.pages (A / kBasePageSize + i) = reservedPage (s.pages (A / kBasePageSize + i))
          (A / kBasePageSize) (size / kBasePageSize) protect .virtual := by
  obtain ⟨hmem, hkind, -⟩ := allocationRegion_cases hregion
  have hfor : regionFor A = some region := by
    have h₁ := hcand.above
    have h₂ := hcand.inside
    exact regionFor_eq_some.mpr ⟨hmem, h₁, by omega⟩
  have hfree := hcand.free
  simp only [candidateFree, decide_eq_true_eq] at hfree
  refine ⟨(loop (reservePage A (size / kBasePageSize) protect region.kind) (size / kBasePageSize)
    s).publishPair (region.kind == .xex) A size, ?_, hfor, hkind, fun i hi => ?_⟩
  · unfold reservePages
    rw [if_neg (by simp [hvalid]), hfor]
    dsimp only
    rw [if_neg]
    rintro ⟨i, hi, h | ⟨h, -⟩⟩
    · exact h (hfree i hi)
    · rw [hkind] at h
      cases h
  · rw [publishPair_pages _ _ _ _, hkind, reservePage_loop, if_pos (by omega)]

/-! ### The commitment -/

/-- Every page keeps its allocation, and none becomes free. -/
def KeepsAllocations (s s' : AddressSpace) : Prop :=
  ∀ g, (s'.pages g).allocationBasePage = (s.pages g).allocationBasePage ∧
    (s'.pages g).allocationPageCount = (s.pages g).allocationPageCount ∧
    ((s.pages g).state ≠ .free → (s'.pages g).state ≠ .free)

namespace KeepsAllocations

theorem refl (s : AddressSpace) : KeepsAllocations s s :=
  fun _ => ⟨rfl, rfl, id⟩

theorem trans {s'' : AddressSpace} (h : KeepsAllocations s s') (h' : KeepsAllocations s' s'') :
    KeepsAllocations s s'' :=
  fun g => ⟨(h' g).1.trans (h g).1, (h' g).2.1.trans (h g).2.1, fun hs => (h' g).2.2 ((h g).2.2 hs)⟩

theorem of_pages (hp : s'.pages = s.pages) : KeepsAllocations s s' := by
  intro g
  rw [hp]
  exact ⟨rfl, rfl, id⟩

theorem setPage (s : AddressSpace) (g : ℕ) {p : Page}
    (hb : p.allocationBasePage = (s.pages g).allocationBasePage)
    (hc : p.allocationPageCount = (s.pages g).allocationPageCount)
    (hs : (s.pages g).state ≠ .free → p.state ≠ .free) : KeepsAllocations s (s.setPage g p) := by
  intro h
  rcases eq_or_ne h g with rfl | hne
  · simpa [AddressSpace.setPage] using ⟨hb, hc, hs⟩
  · simp [AddressSpace.setPage, hne]

theorem oneAllocation (h : KeepsAllocations s s') (hone : s.OneAllocation A size) :
    s'.OneAllocation A size := by
  intro i hi
  obtain ⟨h₁, h₂, h₃⟩ := hone i hi
  exact ⟨(h _).2.2 h₁, (h _).1.trans h₂, (h _).2.1.trans h₃⟩

theorem backPage {g frame : ℕ} {protect : Protect} {zero : Bool}
    (hrun : s.backPage false g frame protect zero = .ok s') : KeepsAllocations s s' := by
  unfold AddressSpace.backPage at hrun
  dsimp only at hrun
  obtain ⟨frames, -, hrun⟩ := bind_eq_ok.mp hrun
  obtain rfl := Except.ok.inj hrun
  have h₁ := setPage s g (p := { s.pages g with
    physicalPage := some frame, state := .committed, currentProtect := protect }) rfl rfl
    fun _ => nofun
  cases zero with
  | false => exact h₁
  | true => exact h₁

end KeepsAllocations

/-- A commitment that goes through keeps the allocations. -/
theorem commitLoop_keeps {first : ℕ} {protect : Protect} {zero : Bool} {drained : ℕ → Bool} :
    ∀ {n i : ℕ} {newly : List ℕ} {s s' : AddressSpace},
      commitLoop false first protect zero drained n i newly s = .ok (true, s') →
      KeepsAllocations s s'
  | 0, _, _, s, _, hrun => by
    obtain ⟨-, rfl⟩ := Prod.mk.inj (Except.ok.inj hrun)
    exact .refl s
  | n + 1, i, newly, s, s', hrun => by
    rw [commitLoop] at hrun
    split at hrun
    · refine .trans (KeepsAllocations.setPage s (first + i) ?_ ?_ ?_) (commitLoop_keeps hrun)
      · rfl
      · rfl
      · exact id
    · obtain ⟨⟨allocated, frames⟩, -, hrun⟩ := bind_eq_ok.mp hrun
      dsimp only at hrun
      cases allocated with
      | none =>
        obtain ⟨s₁, -, hrun⟩ := bind_eq_ok.mp hrun
        cases hrun
      | some frame =>
        obtain ⟨s₁, hback, hrun⟩ := bind_eq_ok.mp hrun
        have hframes : KeepsAllocations s { s with frames } := .of_pages rfl
        exact hframes.trans (.trans (.backPage hback) (commitLoop_keeps hrun))

/-- Where no frame is found, none is free. -/
theorem allocatePhysicalPage_none {fr fr' : Frames} {drained : Bool}
    (hrun : allocatePhysicalPage fr false drained = .ok (none, fr')) :
    reclaimRetiredPhysicalPages fr drained = .ok fr' ∧ ∀ f < kPhysicalPageCount, f ∉ fr'.free := by
  obtain ⟨fr₀, hreclaim, hrun⟩ := bind_eq_ok.mp hrun
  split at hrun
  · next hor =>
    obtain ⟨-, rfl⟩ := Prod.mk.inj (Except.ok.inj hrun)
    refine ⟨hreclaim, fun f hf => ?_⟩
    have hnone := (Option.or_eq_none_iff.mp hor).2
    rw [allocateQuietly, if_neg (by decide), RangeMap.allocate_eq_none] at hnone
    rintro ⟨r, hr, h₁, h₂⟩
    have := hnone r hr
    rw [placeIn] at this
    simp only [alignPageUp, Nat.div_one, Nat.mul_one, Nat.max_zero] at this
    unfold kPhysicalPageCount at this hf
    simp at this
    omega
  · cases hrun

/-- **A commitment fails only when the frames run out.** -/
theorem commitLoop_false {first : ℕ} {protect : Protect} {zero : Bool} {drained : ℕ → Bool} :
    ∀ {n i : ℕ} {newly : List ℕ} {s s' : AddressSpace},
      commitLoop false first protect zero drained n i newly s = .ok (false, s') →
      ∃ k < n, ∃ (s₁ : AddressSpace) (fr : Frames),
        commitLoop false first protect zero drained k i newly s = .ok (true, s₁) ∧
        reclaimRetiredPhysicalPages s₁.frames (drained (i + k)) = .ok fr ∧
        ∀ f < kPhysicalPageCount, f ∉ fr.free
  | 0, _, _, _, _, hrun => by cases hrun
  | n + 1, i, newly, s, s', hrun => by
    rw [commitLoop] at hrun
    split at hrun
    · next hstate =>
      obtain ⟨k, hk, s₁, fr, hloop, hnone⟩ := commitLoop_false hrun
      refine ⟨k + 1, by omega, s₁, fr, ?_, by rwa [← Nat.add_assoc, Nat.add_right_comm]⟩
      rw [commitLoop, if_pos hstate]
      exact hloop
    · next hstate =>
      obtain ⟨⟨allocated, frames⟩, halloc, hrun⟩ := bind_eq_ok.mp hrun
      dsimp only at hrun
      cases allocated with
      | none =>
        exact ⟨0, by omega, s, frames, rfl, allocatePhysicalPage_none halloc⟩
      | some frame =>
        obtain ⟨s₁, hback, hrun⟩ := bind_eq_ok.mp hrun
        obtain ⟨k, hk, s₂, fr, hloop, hnone⟩ := commitLoop_false hrun
        refine ⟨k + 1, by omega, s₂, fr, ?_, by rwa [← Nat.add_assoc, Nat.add_right_comm]⟩
        rw [commitLoop, if_neg hstate, halloc]
        show ((({ s with frames } : AddressSpace).backPage false (first + i) frame protect zero) >>=
          fun s => commitLoop false first protect zero drained k (i + 1) (newly ++ [frame]) s) = _
        rw [hback]
        exact hloop

/-- The commitment of a reservation just made: it goes through with the
allocation kept, or the frames run out. -/
theorem commitPages_of_reserved {protect : Protect} {zero : Bool} {drained : ℕ → Bool} {ok : Bool}
    (hvalid : Protect.valid protect = true) (hfor : regionFor A = some region)
    (hkind : region.kind = .virtual)
    (hpages : ∀ i < size / kBasePageSize, (s.pages (A / kBasePageSize + i)).state ≠ .free ∧
      (s.pages (A / kBasePageSize + i)).permanentGuard = false)
    (hrun : s.commitPages A size protect zero drained = .ok (ok, s')) :
    if ok then KeepsAllocations s s'
    else ∃ k < size / kBasePageSize, ∃ (s₁ : AddressSpace) (fr : Frames),
      commitLoop false (A / kBasePageSize) protect zero drained k 0 [] s = .ok (true, s₁) ∧
      reclaimRetiredPhysicalPages s₁.frames (drained k) = .ok fr ∧
      ∀ f < kPhysicalPageCount, f ∉ fr.free := by
  unfold commitPages at hrun
  rw [if_neg (by simp [hvalid]), hfor] at hrun
  dsimp only at hrun
  rw [if_neg, hkind] at hrun
  · obtain ⟨⟨ok', s₁⟩, hloop, hrun⟩ := bind_eq_ok.mp hrun
    obtain ⟨rfl, rfl⟩ := Prod.mk.inj (Except.ok.inj hrun)
    cases ok' with
    | true =>
      refine (commitLoop_keeps hloop).trans (.of_pages ?_)
      rw [if_pos rfl]
      exact publishPair_pages _ _ _ _
    | false =>
      obtain ⟨k, hk, s₂, fr, h⟩ := commitLoop_false hloop
      refine ⟨k, hk, s₂, fr, ?_⟩
      rwa [Nat.zero_add] at h
  · rintro ⟨i, hi, h | h⟩
    · exact (hpages i hi).1 h
    · rw [(hpages i hi).2] at h
      cases h

/-! ### One call -/

/-- The page sizes there is a region for. -/
theorem dvd_of_allocationRegion {pageSize : ℕ} (h : allocationRegion pageSize = some region) :
    kBasePageSize ∣ pageSize ∧ 0 < pageSize ∧ pageSize < 2 ^ 32 := by
  obtain ⟨-, -, -, ⟨rfl, -⟩ | ⟨rfl, -⟩⟩ := allocationRegion_cases h
  · exact ⟨Nat.dvd_refl _, by decide, by decide⟩
  · exact ⟨by decide, by decide, by decide⟩

/-- A power of two below `2 ^ 32` is at most `2 ^ 31`. -/
theorem le_of_hasSingleBit {n : ℕ} (h : hasSingleBit n = true) (hlt : n < 2 ^ 32) : n ≤ 2 ^ 31 := by
  by_contra hgt
  unfold hasSingleBit at h
  simp only [Bool.and_eq_true, bne_iff_ne, beq_iff_eq] at h
  have h₁ : n.testBit 31 = true := by
    rw [Nat.testBit_eq_decide_div_mod_eq]
    simp only [decide_eq_true_eq]
    omega
  have h₂ : (n - 1).testBit 31 = true := by
    rw [Nat.testBit_eq_decide_div_mod_eq]
    simp only [decide_eq_true_eq]
    omega
  have h₃ := congrArg (fun m => m.testBit 31) h.2
  simp [Nat.testBit_and, h₁, h₂] at h₃

/-- Rounding up to whole pages. -/
theorem le_roundedSize {pageSize : ℕ} (h : 0 < pageSize) (n : ℕ) : n ≤ roundedSize n pageSize := by
  have := Nat.lt_div_mul_add (a := n + pageSize - 1) h
  unfold roundedSize
  omega

/-- The call of a well-formed request. -/
theorem perform_call (hsize : q.size.toNat ≠ 0) (halign : hasSingleBit q.alignmentBytes = true) :
    s.perform q.call =
      match allocationRegion q.pageSize with
      | none => .ok (⟨false, none, none⟩, s)
      | some region =>
        match s.searchAllocation region (alignUp q.size.toNat q.pageSize) q.alignmentBytes
            q.topDown with
        | none => .ok (⟨false, none, none⟩, s)
        | some A =>
          match s.reservePages A (alignUp q.size.toNat q.pageSize) q.protect with
          | (false, s) => .ok (⟨false, some A, none⟩, s)
          | (true, s) =>
            if q.commit then do
              let (ok, s) ← s.commitPages A (alignUp q.size.toNat q.pageSize) q.protect
                q.zeroInitialize q.drained
              return (⟨ok, some A, none⟩, s)
            else .ok (⟨true, some A, none⟩, s) := by
  show s.allocate _ _ _ _ _ _ _ _ = _
  unfold allocate
  rw [if_neg hsize]
  unfold AllocationRequest.pageSize
  dsimp only
  cases allocationRegion _ with
  | none => rfl
  | some region => exact if_neg (by rw [Bool.not_eq_false]; exact halign)

/-- What a region and a fitting request say of the rounded size and the
alignment. -/
theorem request_bounds (hregion : allocationRegion q.pageSize = some region)
    (hsize : q.size.toNat ≠ 0) (halign : hasSingleBit q.alignmentBytes = true)
    (hfit : q.rounded < 2 ^ 32) :
    alignUp q.size.toNat q.pageSize = q.rounded ∧ 0 < q.rounded ∧ q.size.toNat ≤ q.rounded ∧
      kBasePageSize ≤ q.alignmentBytes ∧ q.alignmentBytes ≤ 2 ^ 31 := by
  obtain ⟨hdvd, hpos, hlt⟩ := dvd_of_allocationRegion hregion
  have hle : q.size.toNat ≤ q.rounded := le_roundedSize hpos _
  have hpage : kBasePageSize ≤ q.pageSize := Nat.le_of_dvd hpos hdvd
  refine ⟨Nat.mod_eq_of_lt hfit, by omega, hle, ?_, le_of_hasSingleBit halign ?_⟩
  · exact hpage.trans (Nat.le_max_right _ _)
  · have := q.alignment.isLt
    unfold AllocationRequest.alignmentBytes requestedAlignment
    split_ifs <;> omega

/-- The reservation and commitment of a usable range: one allocation, or the
frames run out. -/
theorem serve_candidate (hs : s.FreeUnguarded) (hregion : allocationRegion q.pageSize = some region)
    (hcand : s.Candidate region q.rounded q.alignmentBytes A) (hpos : 0 < q.rounded)
    (hvalid : Protect.valid q.protect = true) {r : Reply}
    (hrun : (match s.reservePages A q.rounded q.protect with
      | (false, s) => .ok (⟨false, some A, none⟩, s)
      | (true, s) =>
        if q.commit then do
          let (ok, s) ← s.commitPages A q.rounded q.protect q.zeroInitialize q.drained
          return (⟨ok, some A, none⟩, s)
        else .ok (⟨true, some A, none⟩, s) : Except String (Reply × AddressSpace)) = .ok (r, s')) :
    r.outAddress = some A ∧ (r.ok = true → s'.OneAllocation A q.rounded) ∧
      (r.ok = false → s.FramesRunOut q A) := by
  obtain ⟨s₁, hreserve, hfor, hkind, hpages⟩ :=
    reservePages_of_candidate hregion hcand hpos hvalid
  have hfree := hcand.free
  simp only [candidateFree, decide_eq_true_eq] at hfree
  have hone : s₁.OneAllocation A q.rounded := fun i hi => by
    rw [hpages i hi]
    exact ⟨nofun, rfl, rfl⟩
  have hguard : ∀ i < q.rounded / kBasePageSize,
      (s₁.pages (A / kBasePageSize + i)).permanentGuard = false := fun i hi => by
    rw [hpages i hi]
    exact hs _ (hfree i hi)
  rw [hreserve] at hrun
  dsimp only at hrun
  split at hrun
  · next hcommit =>
    obtain ⟨⟨ok, s₂⟩, hcommitted, hrun⟩ := bind_eq_ok.mp hrun
    obtain ⟨rfl, rfl⟩ := Prod.mk.inj (Except.ok.inj hrun)
    have hspec := commitPages_of_reserved hvalid hfor hkind
      (fun i hi => ⟨(hone i hi).1, hguard i hi⟩) hcommitted
    refine ⟨rfl, fun hok => ?_, fun hok => ?_⟩
    · obtain rfl : ok = true := hok
      exact KeepsAllocations.oneAllocation hspec hone
    · obtain rfl : ok = false := hok
      refine ⟨hcommit, ?_⟩
      rw [hreserve]
      exact hspec
  · obtain ⟨rfl, rfl⟩ := Prod.mk.inj (Except.ok.inj hrun)
    exact ⟨rfl, fun _ => hone, nofun⟩

/-- **A well-formed request that fits** is served as it asks. -/
theorem allocates_of_fits (hs : s.FreeUnguarded) (hq : q.WellFormed) (hfit : q.Fits) :
    s.Allocates q := by
  obtain ⟨hsize, halign, hvalid⟩ := hq
  have hperform := perform_call (s := s) hsize halign
  cases hregion : allocationRegion q.pageSize with
  | none =>
    rw [hregion] at hperform
    refine ⟨?_, fun r s' hrun hok => ?_, fun r s' _ _ => .inl ?_⟩
    · unfold AllocationRequest.asserts
      rw [if_neg hsize, hregion]
    · rw [hperform] at hrun
      cases hrun
      cases hok
    · rintro A ⟨region, h, -⟩
      rw [hregion] at h
      cases h
  | some region =>
    rw [hregion] at hperform
    dsimp only at hperform
    obtain ⟨hround, hpos, hle, halign₁, halign₂⟩ :=
      request_bounds hregion hsize halign hfit.1
    rw [hround] at hperform
    have husable : ∀ A, s.Usable q A ↔ s.Candidate region q.rounded q.alignmentBytes A := by
      intro A
      constructor
      · rintro ⟨region', h, hc⟩
        obtain rfl := Option.some.inj (hregion.symm.trans h)
        exact hc
      · exact fun hc => ⟨region, hregion, hc⟩
    obtain ⟨hassert, hsome, hnone⟩ := @searchAllocation_spec s _ _ _ _ q.topDown
      hregion hpos halign₁ halign₂ (hfit.2 region hregion)
    refine ⟨?_, fun r s' hrun hok => ?_, fun r s' hrun hok => ?_⟩
    · unfold AllocationRequest.asserts
      rw [if_neg hsize, hregion]
      dsimp only
      rw [if_neg (by simp [halign]), hround]
      exact hassert
    · rw [hperform] at hrun
      cases hsearch : s.searchAllocation region q.rounded q.alignmentBytes q.topDown with
      | none =>
        rw [hsearch] at hrun
        cases hrun
        cases hok
      | some A =>
        rw [hsearch] at hrun
        obtain ⟨hcand, hextreme⟩ := hsome A hsearch
        obtain ⟨hout, hserved, -⟩ := serve_candidate hs hregion hcand hpos hvalid hrun
        exact ⟨A, hout, (husable A).mpr hcand, fun B hB => hextreme B ((husable B).mp hB),
          hserved hok, hle⟩
    · rw [hperform] at hrun
      cases hsearch : s.searchAllocation region q.rounded q.alignmentBytes q.topDown with
      | none => exact .inl fun A hA => hnone hsearch A ((husable A).mp hA)
      | some A =>
        rw [hsearch] at hrun
        obtain ⟨hout, -, hframes⟩ :=
          serve_candidate hs hregion (hsome A hsearch).1 hpos hvalid hrun
        exact .inr ⟨A, hout, hframes hok⟩

/-- **A malformed request** is refused and changes nothing. -/
theorem refuses_malformed (hq : ¬q.WellFormed) (hfit : q.Fits) :
    q.asserts s = false ∧ ∃ out, s.perform q.call = .ok (⟨false, out, none⟩, s) := by
  by_cases hsize : q.size.toNat = 0
  · refine ⟨if_pos hsize, none, ?_⟩
    show s.allocate _ _ _ _ _ _ _ _ = _
    unfold allocate
    rw [if_pos hsize]
  cases halign : hasSingleBit q.alignmentBytes with
  | false =>
    refine ⟨?_, none, ?_⟩
    · unfold AllocationRequest.asserts
      rw [if_neg hsize]
      split
      · rfl
      · exact if_pos halign
    · show s.allocate _ _ _ _ _ _ _ _ = _
      unfold allocate
      rw [if_neg hsize]
      dsimp only
      split
      · rfl
      · exact if_pos halign
  | true =>
    have hvalid : Protect.valid q.protect = false := by
      by_contra hv
      exact hq ⟨hsize, halign, by simpa using hv⟩
    have hperform := perform_call (s := s) hsize halign
    cases hregion : allocationRegion q.pageSize with
    | none =>
      rw [hregion] at hperform
      refine ⟨?_, none, hperform⟩
      unfold AllocationRequest.asserts
      rw [if_neg hsize, hregion]
    | some region =>
      obtain ⟨hround, hpos, -, halign₁, halign₂⟩ := request_bounds hregion hsize halign hfit.1
      rw [hregion] at hperform
      dsimp only at hperform
      rw [hround] at hperform
      refine ⟨?_, s.searchAllocation region q.rounded q.alignmentBytes q.topDown, ?_⟩
      · unfold AllocationRequest.asserts
        rw [if_neg hsize, hregion]
        dsimp only
        rw [if_neg (by simp [halign]), hround]
        exact (searchAllocation_spec hregion hpos halign₁ halign₂ (hfit.2 region hregion)).1
      · rw [hperform]
        cases s.searchAllocation region q.rounded q.alignmentBytes q.topDown with
        | none => rfl
        | some A =>
          dsimp only
          rw [reservePages, if_pos hvalid]

/-- **`allocate` returns usable ranges.**  In every state a run of calls reaches, a well-formed
request that fits is served at the extreme usable address by one allocation, or no address is
usable, or the frames run out; a malformed one is refused and changes nothing.  Neither reaches
the assertion about page indices. -/
theorem allocate_usable (cs : List Call) (q : AllocationRequest) (hfit : q.Fits) :
    (q.WellFormed → (after cs initialized).Allocates q) ∧
    (¬q.WellFormed → q.asserts (after cs initialized) = false ∧
      ∃ out, (after cs initialized).perform q.call =
        .ok (⟨false, out, none⟩, after cs initialized)) :=
  ⟨fun hq => allocates_of_fits (freeUnguarded_after cs) hq hfit, fun hq => refuses_malformed hq hfit⟩

/-- The smallest request, in a state no call was made in. -/
theorem allocate_usable_page : initialized.Allocates
    ⟨0x1000, 0, Protect.readWrite, false, none, true, true, fun _ => true⟩ :=
  (allocate_usable [] ⟨0x1000, 0, Protect.readWrite, false, none, true, true, fun _ => true⟩
    ⟨by decide, fun _ _ => nofun⟩).1 ⟨by decide, by decide, by decide⟩

/-- A request with an alignment of three pages is refused although an address is
usable, and a downward one of a page more than the region reaches the
assertion. -/
theorem allocate_refuses_and_asserts :
    ¬initialized.Allocates
      ⟨0x1000, 0x3000, Protect.readWrite, false, none, true, true, fun _ => true⟩ ∧
    ¬initialized.Allocates
      ⟨0x40001000, 0, Protect.readWrite, true, none, true, true, fun _ => true⟩ := by
  constructor
  · intro h
    rcases h.refused ⟨false, none, none⟩ initialized rfl rfl with hnone | ⟨A, hA, -⟩
    · refine hnone 0x12000 ⟨⟨0, 0x3FFFFFFF, kBasePageSize, .virtual⟩, rfl, ⟨by decide, ?_, ?_, ?_⟩⟩
      · decide
      · decide
      · decide
    · cases hA
  · intro h
    have := h.no_assertion
    revert this
    decide

end AddressSpace

end Memory
end XenonRecomp
