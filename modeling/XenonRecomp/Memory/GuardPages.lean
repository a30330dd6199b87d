/-
# Free pages are no guard pages

The 16 guard pages of the low 64 KiB are committed when the address space is
reset, and the calls that change records refuse them.  Whatever a call does, a
record it leaves free carries no guard flag: the flag is set nowhere else, and a
page becomes free only by getting the blank record.  This is what lets a commit
right after a reservation go through: `commit_pages` refuses guard pages, and
the pages a reservation took were free.
-/

import XenonRecomp.Memory.CallEffects

namespace XenonRecomp
namespace Memory

open Library Library.Loop

/-- The record is no guard if it is free. -/
def Page.Unguarded (p : Page) : Prop :=
  p.state = .free → p.permanentGuard = false

theorem unguarded_of_state {p : Page} (h : p.state ≠ .free) : p.Unguarded :=
  fun hf => absurd hf h

theorem unguarded_blank : Page.Unguarded {} :=
  fun _ => rfl

/-- A free page is no guard page. -/
def AddressSpace.FreeUnguarded (s : AddressSpace) : Prop :=
  ∀ g, (s.pages g).Unguarded

namespace AddressSpace
namespace FreeUnguarded

variable {s s' : AddressSpace} {xex zero : Bool} {g first count frame : ℕ} {protect : Protect}

theorem of_pages (h : s.FreeUnguarded) (hp : s'.pages = s.pages) : s'.FreeUnguarded := by
  intro g
  rw [hp]
  exact h g

/-- A call that refuses its request leaves the state alone. -/
theorem refused {R : Type} {r r' : R} (h : s.FreeUnguarded)
    (hrun : (Except.ok (r, s) : Except String (R × AddressSpace)) = .ok (r', s')) :
    s'.FreeUnguarded := by
  obtain ⟨-, rfl⟩ := Prod.mk.inj (Except.ok.inj hrun)
  exact h

theorem withFrames (h : s.FreeUnguarded) (frames : Frames) :
    ({ s with frames } : AddressSpace).FreeUnguarded :=
  h

theorem setPage (h : s.FreeUnguarded) {p : Page} (hp : p.Unguarded) :
    (s.setPage g p).FreeUnguarded := by
  intro g'
  rcases eq_or_ne g' g with rfl | hne
  · simpa [AddressSpace.setPage] using hp
  · simpa [AddressSpace.setPage, hne] using h g'

theorem modifyPair (h : s.FreeUnguarded) {c : Page → Page}
    (hc : ∀ p : Page, p.Unguarded → (c p).Unguarded) :
    (s.modifyPair xex g c).FreeUnguarded := by
  unfold AddressSpace.modifyPair
  have h₁ : (s.setPage g (c (s.pages g))).FreeUnguarded := h.setPage (hc _ (h g))
  cases xex with
  | false => exact h₁
  | true => exact h₁.setPage (hc _ (h₁ _))

theorem publishPair (h : s.FreeUnguarded) (base size : ℕ) :
    (s.publishPair xex base size).FreeUnguarded :=
  h.of_pages (publishPair_pages s xex base size)

theorem publishAlias (h : s.FreeUnguarded) (base size : ℕ) :
    (s.publishPhysicalAliasRange base size).FreeUnguarded :=
  h.of_pages (publishPhysicalAliasRange_pages s base size)

theorem advanceIf (h : s.FreeUnguarded) (changed : Bool) (frame : ℕ) :
    (s.advanceIf changed frame).FreeUnguarded := by
  refine h.of_pages ?_
  unfold AddressSpace.advanceIf AddressSpace.advanceExecutableGeneration
  split_ifs <;> rfl

/-! ### Reservation and commitment -/

theorem reservePage (h : s.FreeUnguarded) {base : ℕ} {kind : RegionKind} (i : ℕ) :
    (AddressSpace.reservePage base count protect kind i s).FreeUnguarded := by
  have h₁ := h.setPage (g := base / kBasePageSize + i)
    (p := reservedPage (s.pages (base / kBasePageSize + i)) (base / kBasePageSize) count protect
      kind) (unguarded_of_state nofun)
  unfold AddressSpace.reservePage
  dsimp only
  split
  · exact h₁.setPage (unguarded_of_state nofun)
  · exact h₁

theorem reservePages (h : s.FreeUnguarded) (base size : ℕ) (protect : Protect) :
    (s.reservePages base size protect).2.FreeUnguarded := by
  unfold AddressSpace.reservePages
  split
  · exact h
  · split
    · exact h
    · dsimp only
      split
      · exact h
      · exact publishPair (loop_induct (I := fun _ s => AddressSpace.FreeUnguarded s) h
          fun i _ _ hs => hs.reservePage i) base size

theorem backPage (h : s.FreeUnguarded) (hrun : s.backPage xex g frame protect zero = .ok s') :
    s'.FreeUnguarded := by
  unfold AddressSpace.backPage at hrun
  dsimp only at hrun
  obtain ⟨frames, -, hrun⟩ := bind_eq_ok.mp hrun
  have h₁ := (h.setPage (g := g) (p := { s.pages g with
    physicalPage := some frame, state := .committed, currentProtect := protect })
    (unguarded_of_state nofun)).withFrames frames
  have h₂ : ∀ s₁ : AddressSpace, s₁.FreeUnguarded →
      (if zero then s₁.zeroFrames frame 1 else s₁).FreeUnguarded := by
    intro s₁ hs₁
    split
    · exact hs₁.of_pages rfl
    · exact hs₁
  replace h₁ := h₂ _ h₁
  cases xex with
  | false =>
    obtain rfl := Except.ok.inj hrun
    exact h₁
  | true =>
    obtain ⟨frames', -, hrun⟩ := bind_eq_ok.mp hrun
    obtain rfl := Except.ok.inj hrun
    exact (h₁.setPage (unguarded_of_state (by simp))).withFrames frames'

theorem rollbackPage (h : s.FreeUnguarded) {newly : List ℕ} {j : ℕ}
    (hrun : AddressSpace.rollbackPage xex first newly j s = .ok s') : s'.FreeUnguarded := by
  unfold AddressSpace.rollbackPage at hrun
  split at hrun
  · obtain rfl := Except.ok.inj hrun
    exact h
  · split at hrun
    · obtain rfl := Except.ok.inj hrun
      exact h
    · obtain ⟨frames, -, hrun⟩ := bind_eq_ok.mp hrun
      obtain rfl := Except.ok.inj hrun
      exact (h.withFrames frames).modifyPair (c := unbacked) fun _ _ =>
        unguarded_of_state (by simp [unbacked])

theorem commitLoop {drained : ℕ → Bool} :
    ∀ {n i : ℕ} {newly : List ℕ} {s s' : AddressSpace} {ok : Bool}, s.FreeUnguarded →
      AddressSpace.commitLoop xex first protect zero drained n i newly s = .ok (ok, s') →
      s'.FreeUnguarded
  | 0, _, _, _, _, _, h, hrun => by
    obtain ⟨-, rfl⟩ := Prod.mk.inj (Except.ok.inj hrun)
    exact h
  | n + 1, i, newly, s, s', ok, h, hrun => by
    rw [AddressSpace.commitLoop] at hrun
    split at hrun
    · exact commitLoop (h.modifyPair (c := fun p => { p with currentProtect := protect })
        fun _ hp => hp) hrun
    · obtain ⟨⟨allocated, frames⟩, -, hrun⟩ := bind_eq_ok.mp hrun
      dsimp only at hrun
      cases allocated with
      | none =>
        obtain ⟨s₁, hroll, hrun⟩ := bind_eq_ok.mp hrun
        obtain ⟨-, rfl⟩ := Prod.mk.inj (Except.ok.inj hrun)
        exact loopM_keeps (I := fun s : AddressSpace => s.FreeUnguarded)
          (fun j _ _ hs hbody => rollbackPage hs hbody) (h.withFrames frames) hroll
      | some frame =>
        obtain ⟨s₁, hback, hrun⟩ := bind_eq_ok.mp hrun
        exact commitLoop (backPage (h.withFrames frames) hback) hrun

theorem commitPages (h : s.FreeUnguarded) {base size : ℕ} {drained : ℕ → Bool} {ok : Bool}
    (hrun : s.commitPages base size protect zero drained = .ok (ok, s')) : s'.FreeUnguarded := by
  unfold AddressSpace.commitPages at hrun
  split at hrun
  · exact refused h hrun
  · split at hrun
    · exact refused h hrun
    · dsimp only at hrun
      split at hrun
      · exact refused h hrun
      · obtain ⟨⟨ok', s₁⟩, hloop, hrun⟩ := bind_eq_ok.mp hrun
        obtain ⟨-, rfl⟩ := Prod.mk.inj (Except.ok.inj hrun)
        have h₁ := commitLoop h hloop
        split
        · exact h₁.publishPair base size
        · exact h₁

/-! ### Decommitment, release and protection -/

theorem decommitPage (h : s.FreeUnguarded) {i : ℕ}
    (hrun : AddressSpace.decommitPage xex first i s = .ok s') : s'.FreeUnguarded := by
  unfold AddressSpace.decommitPage at hrun
  dsimp only at hrun
  split at hrun
  · next frame _ _ =>
    obtain ⟨frames, -, hrun⟩ := bind_eq_ok.mp hrun
    obtain rfl := Except.ok.inj hrun
    have h₁ := (h.advanceIf (Protect.has (s.pages (first + i)).currentProtect Protect.execute)
      frame).withFrames frames
    refine setPage ?_ (unguarded_of_state (by simp [decommitted]))
    split
    · exact h₁.setPage (unguarded_of_state (by simp [unbacked]))
    · exact h₁
  · obtain rfl := Except.ok.inj hrun
    exact h.setPage (unguarded_of_state (by simp))

theorem releasePage (h : s.FreeUnguarded) {i : ℕ}
    (hrun : AddressSpace.releasePage xex first i s = .ok s') : s'.FreeUnguarded := by
  have hblank : ∀ s₁ : AddressSpace, s₁.FreeUnguarded →
      ((if xex then s₁.setPage (xexAlias (first + i)) {} else s₁).setPage (first + i)
        {}).FreeUnguarded := by
    intro s₁ hs₁
    refine setPage ?_ unguarded_blank
    split
    · exact hs₁.setPage unguarded_blank
    · exact hs₁
  unfold AddressSpace.releasePage at hrun
  dsimp only at hrun
  split at hrun
  · obtain ⟨frames, -, hrun⟩ := bind_eq_ok.mp hrun
    obtain rfl := Except.ok.inj hrun
    exact hblank _ ((h.advanceIf _ _).withFrames frames)
  · obtain rfl := Except.ok.inj hrun
    exact hblank _ h

theorem protectPage (h : s.FreeUnguarded) (i : ℕ) :
    (AddressSpace.protectPage protect first i s).FreeUnguarded := by
  unfold AddressSpace.protectPage
  have hprotect : ∀ t : AddressSpace, t.FreeUnguarded →
      (t.modifyPair ((s.pages (first + i)).kind == .xex) (first + i) fun p =>
        { p with currentProtect := protect }).FreeUnguarded :=
    fun t ht => ht.modifyPair fun _ hp => hp
  dsimp only
  cases (s.pages (first + i)).physicalPage with
  | none =>
    dsimp only
    split
    · exact (hprotect s h).of_pages rfl
    · exact (hprotect s h).of_pages rfl
  | some frame =>
    dsimp only
    split
    · exact (hprotect _ (h.advanceIf _ frame)).of_pages rfl
    · exact (hprotect _ (h.advanceIf _ frame)).of_pages rfl

theorem decommit (h : s.FreeUnguarded) {base size : ℕ} {ok : Bool}
    (hrun : s.decommit base size = .ok (ok, s')) : s'.FreeUnguarded := by
  unfold AddressSpace.decommit at hrun
  dsimp only at hrun
  iterate 5
    split at hrun
    · exact refused h hrun
  obtain ⟨s₁, hloop, hrun⟩ := bind_eq_ok.mp hrun
  obtain ⟨-, rfl⟩ := Prod.mk.inj (Except.ok.inj hrun)
  exact publishPair (loopM_keeps (I := fun s : AddressSpace => s.FreeUnguarded)
    (fun _ _ _ hs hbody => decommitPage hs hbody) h hloop) _ _

theorem release (h : s.FreeUnguarded) {base : ℕ} {ok : Bool}
    (hrun : s.release base = .ok (ok, s')) : s'.FreeUnguarded := by
  unfold AddressSpace.release at hrun
  dsimp only at hrun
  iterate 3
    split at hrun
    · exact refused h hrun
  obtain ⟨s₁, hloop, hrun⟩ := bind_eq_ok.mp hrun
  obtain ⟨-, rfl⟩ := Prod.mk.inj (Except.ok.inj hrun)
  exact publishPair (loopM_keeps (I := fun s : AddressSpace => s.FreeUnguarded)
    (fun _ _ _ hs hbody => releasePage hs hbody) h hloop) _ _

theorem protectRange (h : s.FreeUnguarded) (base size : ℕ) :
    (s.protect base size protect).2.FreeUnguarded := by
  unfold AddressSpace.protect
  dsimp only
  iterate 5
    split
    · exact h
  exact loop_induct (I := fun _ s => AddressSpace.FreeUnguarded s) h fun i _ _ hs =>
    hs.protectPage i

/-! ### The other calls -/

theorem reserveFixed (h : s.FreeUnguarded) (base size : ℕ) (protect : Protect) :
    (s.reserveFixed base size protect).2.FreeUnguarded := by
  unfold AddressSpace.reserveFixed
  split
  · exact h
  split
  · exact h
  exact h.reservePages base size protect

theorem commitFixed (h : s.FreeUnguarded) {base size : ℕ} {drained : ℕ → Bool} {ok : Bool}
    (hrun : s.commitFixed base size protect zero drained = .ok (ok, s')) : s'.FreeUnguarded := by
  unfold AddressSpace.commitFixed at hrun
  dsimp only at hrun
  split at hrun
  · exact refused h hrun
  split at hrun
  · exact refused h hrun
  split at hrun
  · have hres := h.reservePages base size protect
    split at hrun
    · next heq =>
      rw [heq] at hres
      exact refused hres hrun
    · next heq =>
      rw [heq] at hres
      exact hres.commitPages hrun
  · exact h.commitPages hrun

theorem allocate (h : s.FreeUnguarded) {size alignment : ℕ} {topDown commit : Bool}
    {pageSize : Option ℕ} {drained : ℕ → Bool} {r : Reply}
    (hrun : s.allocate size alignment protect topDown pageSize commit zero drained =
      .ok (r, s')) : s'.FreeUnguarded := by
  unfold AddressSpace.allocate at hrun
  dsimp only at hrun
  generalize max (if alignment = 0 then _ else _ : ℕ) _ = alignment at hrun
  iterate 4
    split at hrun
    · exact refused h hrun
  next address _ =>
    have hres := h.reservePages address (alignUp size (pageSize.getD kBasePageSize)) protect
    split at hrun
    · next heq =>
      rw [heq] at hres
      exact refused hres hrun
    · next heq =>
      rw [heq] at hres
      split at hrun
      · obtain ⟨⟨ok, s₁⟩, hcommit, hrun⟩ := bind_eq_ok.mp hrun
        exact refused (hres.commitPages hcommit) hrun
      · exact refused hres hrun

/-- The physical calls change frames, not page records. -/
theorem allocatePhysical (h : s.FreeUnguarded) {size : ℕ} {options : PhysicalAllocationOptions}
    {drained : Bool} {r : Reply}
    (hrun : s.allocatePhysical size options drained = .ok (r, s')) : s'.FreeUnguarded := by
  unfold AddressSpace.allocatePhysical at hrun
  dsimp only at hrun
  split at hrun
  · exact refused h hrun
  generalize max (if options.alignment.toNat = 0 then _ else _ : ℕ) _ = alignment at hrun
  split at hrun
  · exact refused h hrun
  generalize (if options.pageClass = .page4K then _ else _ : ℕ) = maximumAddress at hrun
  split at hrun
  · exact refused h hrun
  split at hrun
  · exact refused h hrun
  obtain ⟨⟨reserved, frames⟩, -, hrun⟩ := bind_eq_ok.mp hrun
  cases reserved with
  | none => exact refused (h.withFrames frames) hrun
  | some first =>
    refine refused (publishAlias ?_ _ _) hrun
    split
    · exact h.of_pages rfl
    · exact h.of_pages rfl

theorem freePhysical (h : s.FreeUnguarded) {base size : ℕ} {ok : Bool}
    (hrun : s.freePhysical base size = .ok (ok, s')) : s'.FreeUnguarded := by
  unfold AddressSpace.freePhysical at hrun
  dsimp only at hrun
  generalize (if (s.frames.metadata _).explicitAllocation = true then alignUp _ _ / _ else _ : ℕ) =
    requestedCount at hrun
  generalize (if (s.frames.metadata _).explicitAllocation = true then _ else _ : ℕ) = count at hrun
  iterate 4
    split at hrun
    · exact refused h hrun
  split at hrun
  · cases hrun
  · refine refused (publishAlias (withFrames ?_ _) _ _) hrun
    exact loop_induct (I := fun _ s => AddressSpace.FreeUnguarded s) h fun i s _ hs =>
      (hs.advanceIf _ _).withFrames _

theorem protectPhysical (h : s.FreeUnguarded) (base size : ℕ) :
    (s.protectPhysical base size protect).2.FreeUnguarded := by
  unfold AddressSpace.protectPhysical
  dsimp only
  iterate 5
    split
    · exact h
  refine publishAlias ?_ _ _
  exact loop_induct (I := fun _ s => AddressSpace.FreeUnguarded s) h fun i s _ hs =>
    (hs.advanceIf _ _).withFrames _

theorem mapPage (h : s.FreeUnguarded) {physicalFirst i : ℕ}
    (hrun : AddressSpace.mapPage first count physicalFirst protect i s = .ok s') :
    s'.FreeUnguarded := by
  unfold AddressSpace.mapPage at hrun
  obtain ⟨frames, -, hrun⟩ := bind_eq_ok.mp hrun
  obtain rfl := Except.ok.inj hrun
  exact (h.setPage (unguarded_of_state (by simp))).withFrames frames

theorem mapVirtualToPhysical (h : s.FreeUnguarded) {vbase pbase size : ℕ} {drained ok : Bool}
    (hrun : s.mapVirtualToPhysical vbase pbase size protect drained = .ok (ok, s')) :
    s'.FreeUnguarded := by
  unfold AddressSpace.mapVirtualToPhysical at hrun
  dsimp only at hrun
  iterate 6
    split at hrun
    · exact refused h hrun
  obtain ⟨frames, -, hrun⟩ := bind_eq_ok.mp hrun
  obtain ⟨unretired, -, hrun⟩ := bind_eq_ok.mp hrun
  split at hrun
  · obtain ⟨frames', -, hrun⟩ := bind_eq_ok.mp hrun
    obtain ⟨s₁, hloop, hrun⟩ := bind_eq_ok.mp hrun
    refine refused (publishAlias (of_pages ?_ (publishHotRange_pages _ _ _)) _ _) hrun
    exact loopM_keeps (I := fun s : AddressSpace => s.FreeUnguarded)
      (fun _ _ _ hs hbody => mapPage hs hbody) (h.withFrames frames') hloop
  · exact refused (h.withFrames frames) hrun

/-- After a reset the free pages are blank. -/
theorem reset (s : AddressSpace) : s.reset.FreeUnguarded := by
  intro g
  show (if g < 16 then guardPage else {} : Page).Unguarded
  split
  · exact unguarded_of_state (by simp [guardPage])
  · exact unguarded_blank

/-- **One call** leaves no guard page free. -/
theorem perform (h : s.FreeUnguarded) {c : Call} {r : Reply} (hrun : s.perform c = .ok (r, s')) :
    s'.FreeUnguarded := by
  have hreply : ∀ {x : Except String (Bool × AddressSpace)}, x.map replyOf = .ok (r, s') →
      ∃ ok, x = .ok (ok, s') := by
    rintro (e | ⟨ok, s₁⟩) heq
    · cases heq
    · cases heq
      exact ⟨ok, rfl⟩
  cases c with
  | reserveFixed base size protect =>
    cases hrun
    exact h.reserveFixed _ _ _
  | commitFixed base size protect zero drained => exact h.commitFixed (hreply hrun).choose_spec
  | allocate size alignment protect topDown pageSize commit zero drained => exact h.allocate hrun
  | decommit base size => exact h.decommit (hreply hrun).choose_spec
  | release base => exact h.release (hreply hrun).choose_spec
  | protect base size protect =>
    obtain rfl : (s.protect base.toNat size.toNat protect).2 = s' := by
      rw [Except.ok.inj hrun]
    exact h.protectRange _ _
  | allocatePhysical size options drained => exact h.allocatePhysical hrun
  | freePhysical base size => exact h.freePhysical (hreply hrun).choose_spec
  | protectPhysical base size protect =>
    obtain rfl : (s.protectPhysical base.toNat size.toNat protect).2 = s' := by
      rw [Except.ok.inj hrun]
    exact h.protectPhysical _ _
  | mapVirtualToPhysical vbase pbase size protect drained =>
    exact h.mapVirtualToPhysical (hreply hrun).choose_spec
  | addMmioRange base size =>
    cases hrun
    refine h.of_pages ?_
    unfold AddressSpace.addMmioRange
    dsimp only
    split_ifs
    · rfl
    · rfl
    · rfl
    · exact publishHotRange_pages _ _ _
  | clearMmioRanges =>
    cases hrun
    exact h.of_pages rfl
  | reset =>
    cases hrun
    exact reset s

end FreeUnguarded

/-! ### Runs -/

/-- The state after a run of calls. -/
def after (cs : List Call) (s : AddressSpace) : AddressSpace :=
  cs.foldl (fun s c => (s.step c).1) s

/-- **In every state a run reaches, no guard page is free.** -/
theorem freeUnguarded_after (cs : List Call) : (after cs initialized).FreeUnguarded := by
  suffices ∀ s : AddressSpace, s.FreeUnguarded → (after cs s).FreeUnguarded from
    this initialized (FreeUnguarded.reset _)
  induction cs with
  | nil => exact fun _ h => h
  | cons c cs ih =>
    intro s h
    refine ih _ ?_
    show (s.step c).1.FreeUnguarded
    unfold AddressSpace.step
    split
    · next hrun => exact h.perform hrun
    · exact h

end AddressSpace

end Memory
end XenonRecomp
