/-
# Owners of EDRAM tiles

`EdramOwnershipTracker` (`src/graphics/xenos/edram_ownership.cpp`) says which
native surface holds each tile of EDRAM; the canonical store is owner 0.  A
backend makes a plan, moves what the plan lists, and commits it.  Between the
two, other plans may be committed.

`commit` compares the owners of the tiles that the plan lists as changes with
what the plan says.  A tile that the requester owned when it planned is no
change, so `commit` never looks at it again: if another surface took it in the
meantime, the commit takes it back unlisted (`ownership_never_taken_unplanned`).
-/

import XenonRecomp.Gpu.EdramSurface
import XenonRecomp.Library.Transition

namespace XenonRecomp
namespace Gpu

open Library.Transition

/-- `EdramOwnerId`. -/
abbrev EdramOwnerId : Type := ℕ

/-- `kCanonicalEdramOwner`. -/
def canonicalEdramOwner : EdramOwnerId := 0

/-- `EdramOwnershipChange`: tiles that one owner has to give up. -/
structure EdramOwnershipChange where
  previousOwner : EdramOwnerId
  tiles : List Tile
deriving DecidableEq, Repr

/-- `EdramOwnershipPlan`. -/
structure EdramOwnershipPlan where
  requestedOwner : EdramOwnerId
  coveredTiles : List Tile
  changes : List EdramOwnershipChange
  valid : Bool
deriving DecidableEq, Repr

/-- Lists a tile under its previous owner. -/
def addChange (previous : EdramOwnerId) (tile : Tile) :
    List EdramOwnershipChange → List EdramOwnershipChange
  | [] => [⟨previous, [tile]⟩]
  | change :: changes =>
      if change.previousOwner = previous then
        { change with tiles := change.tiles ++ [tile] } :: changes
      else change :: addChange previous tile changes

/-- `make_plan`. -/
def makePlan (requestedOwner : EdramOwnerId) (owners : Tile → EdramOwnerId) (tiles : List Tile) :
    EdramOwnershipPlan :=
  if requestedOwner = canonicalEdramOwner then ⟨requestedOwner, [], [], false⟩
  else
    { requestedOwner
      coveredTiles := tiles
      changes := tiles.foldl (fun changes tile =>
        if owners tile = requestedOwner then changes
        else addChange (owners tile) tile changes) []
      valid := !tiles.isEmpty }

/-- `EdramOwnershipTracker`. -/
structure EdramOwnershipTracker where
  owners : Tile → EdramOwnerId

namespace EdramOwnershipTracker

variable (s : EdramOwnershipTracker)

/-- The constructor and `reset`. -/
def reset : EdramOwnershipTracker :=
  ⟨fun _ => canonicalEdramOwner⟩

def plan (requestedOwner : EdramOwnerId) (surface : EdramSurfaceLayout) : EdramOwnershipPlan :=
  makePlan requestedOwner s.owners (coveredTiles surface)

def planRegion (requestedOwner : EdramOwnerId) (surface : EdramSurfaceLayout)
    (region : EdramSurfaceRegion) : EdramOwnershipPlan :=
  makePlan requestedOwner s.owners (coveredEdramTiles surface region)

/-- All tiles of the list get the owner. -/
def assign (tiles : List Tile) (owner : EdramOwnerId) : EdramOwnershipTracker :=
  ⟨fun tile => if tile ∈ tiles then owner else s.owners tile⟩

/-- The test of `commit`: nothing that the plan lists has another owner by now. -/
def fresh (plan : EdramOwnershipPlan) : Bool :=
  plan.changes.all fun change => change.tiles.all fun tile => s.owners tile = change.previousOwner

/-- `commit`, with its answer. -/
def commit (plan : EdramOwnershipPlan) : EdramOwnershipTracker × Bool :=
  if plan.valid = false ∨ plan.requestedOwner = canonicalEdramOwner then (s, false)
  else if s.fresh plan then (s.assign plan.coveredTiles plan.requestedOwner, true)
  else (s, false)

def makeCanonical (surface : EdramSurfaceLayout) : EdramOwnershipTracker :=
  s.assign (Gpu.coveredTiles surface) canonicalEdramOwner

def makeCanonicalRegion (surface : EdramSurfaceLayout) (region : EdramSurfaceRegion) :
    EdramOwnershipTracker :=
  s.assign (coveredEdramTiles surface region) canonicalEdramOwner

def release (owner : EdramOwnerId) : EdramOwnershipTracker :=
  if owner = canonicalEdramOwner then s
  else ⟨fun tile => if s.owners tile = owner then canonicalEdramOwner else s.owners tile⟩

/-- `release_tiles`; the numbers of the tiles wrap. -/
def releaseTiles (owner : EdramOwnerId) (tiles : List ℕ) : EdramOwnershipTracker :=
  if owner = canonicalEdramOwner then s
  else
    ⟨fun tile =>
      if tile ∈ tiles.map tileOf ∧ s.owners tile = owner then canonicalEdramOwner
      else s.owners tile⟩

/-- `owned_tile_count`. -/
def ownedTileCount (owner : EdramOwnerId) : ℕ :=
  (List.finRange tileCount).countP fun tile => s.owners tile = owner

end EdramOwnershipTracker

/-! ### The system -/

/-- The tracker, and the plans made so far, the oldest first. -/
structure Ownership where
  tracker : EdramOwnershipTracker
  plans : List EdramOwnershipPlan

/-- The calls.  A plan is committed by its number. -/
inductive OwnershipCall where
  | plan (requestedOwner : EdramOwnerId) (surface : EdramSurfaceLayout)
  | planRegion (requestedOwner : EdramOwnerId) (surface : EdramSurfaceLayout)
      (region : EdramSurfaceRegion)
  | commit (number : ℕ)
  | makeCanonical (surface : EdramSurfaceLayout)
  | makeCanonicalRegion (surface : EdramSurfaceLayout) (region : EdramSurfaceRegion)
  | release (owner : EdramOwnerId)
  | releaseTiles (owner : EdramOwnerId) (tiles : List ℕ)
  | reset
deriving DecidableEq, Repr

/-- A call of `commit` as it is seen from outside: the plan, the owners before and
after, and the answer. -/
structure Commit where
  plan : EdramOwnershipPlan
  before : Tile → EdramOwnerId
  after : Tile → EdramOwnerId
  answer : Bool

namespace Ownership

def init : Ownership :=
  ⟨.reset, []⟩

/-- One call; a `commit` replies. -/
def step (s : Ownership) : OwnershipCall → Ownership × Option Commit
  | .plan owner surface => ({ s with plans := s.plans ++ [s.tracker.plan owner surface] }, none)
  | .planRegion owner surface region =>
      ({ s with plans := s.plans ++ [s.tracker.planRegion owner surface region] }, none)
  | .commit number =>
      match s.plans[number]? with
      | none => (s, none)
      | some plan =>
          let (tracker, answer) := s.tracker.commit plan
          ({ s with tracker }, some ⟨plan, s.tracker.owners, tracker.owners, answer⟩)
  | .makeCanonical surface => ({ s with tracker := s.tracker.makeCanonical surface }, none)
  | .makeCanonicalRegion surface region =>
      ({ s with tracker := s.tracker.makeCanonicalRegion surface region }, none)
  | .release owner => ({ s with tracker := s.tracker.release owner }, none)
  | .releaseTiles owner tiles => ({ s with tracker := s.tracker.releaseTiles owner tiles }, none)
  | .reset => ({ s with tracker := .reset }, none)

end Ownership

/-! ### What a plan records -/

/-- Some change of the plan lists the tile. -/
def EdramOwnershipPlan.Lists (plan : EdramOwnershipPlan) (tile : Tile) : Prop :=
  ∃ change ∈ plan.changes, tile ∈ change.tiles

instance (plan : EdramOwnershipPlan) (tile : Tile) : Decidable (plan.Lists tile) :=
  inferInstanceAs (Decidable (∃ change ∈ plan.changes, tile ∈ change.tiles))

/-- The owner that the plan records for a covered tile: the previous owner of the
change that lists it, or else the requester. -/
def EdramOwnershipPlan.Records (plan : EdramOwnershipPlan) (tile : Tile) (owner : EdramOwnerId) :
    Prop :=
  (∃ change ∈ plan.changes, tile ∈ change.tiles ∧ change.previousOwner = owner) ∨
    (tile ∈ plan.coveredTiles ∧ ¬plan.Lists tile ∧ owner = plan.requestedOwner)

/-! ### What a commit takes -/

/-- The contract of `commit`: a successful one changes the owners of tiles only
whose owner is the one the plan recorded, and a refused one changes nothing. -/
def Commit.Planned (c : Commit) : Prop :=
  (c.answer = true → ∀ tile, c.after tile ≠ c.before tile → c.plan.Records tile (c.before tile)) ∧
    (c.answer = false → c.after = c.before)

/-- Either the plan is refused, or the requester still owns the covered tiles that
the plan does not list. -/
def EdramOwnershipTracker.keeps (s : EdramOwnershipTracker) (plan : EdramOwnershipPlan) : Bool :=
  !plan.valid || plan.requestedOwner = canonicalEdramOwner || !s.fresh plan ||
    plan.coveredTiles.all fun tile => plan.Lists tile || s.owners tile = plan.requestedOwner

/-- **What a commit takes.**  It takes tiles only from the owners that the plan
recorded exactly if the requester still owns what it owned. -/
theorem EdramOwnershipTracker.commit_planned_iff (s : EdramOwnershipTracker)
    (plan : EdramOwnershipPlan) :
    (⟨plan, s.owners, (s.commit plan).1.owners, (s.commit plan).2⟩ : Commit).Planned ↔
      s.keeps plan = true := by
  rw [Commit.Planned, EdramOwnershipTracker.commit, EdramOwnershipTracker.keeps]
  split_ifs with hrefused hfresh
  · have hkeeps : (!plan.valid || decide (plan.requestedOwner = canonicalEdramOwner)) = true := by
      rcases hrefused with h | h
      · simp [h]
      · simp [h]
    rw [hkeeps]
    simp
  · obtain ⟨hvalid, hrequested⟩ := not_or.mp hrefused
    have hlisted : ∀ tile, plan.Lists tile → plan.Records tile (s.owners tile) := by
      rintro tile ⟨change, hmem, htile⟩
      refine .inl ⟨change, hmem, htile, ?_⟩
      have hchange := List.all_eq_true.mp hfresh change hmem
      exact (of_decide_eq_true (List.all_eq_true.mp hchange tile htile)).symm
    simp only [hfresh, Bool.not_true, Bool.or_false]
    rw [Bool.eq_true_of_not_eq_false hvalid, decide_eq_false hrequested]
    simp only [Bool.not_true, Bool.false_or, List.all_eq_true, Bool.or_eq_true, decide_eq_true_eq,
      forall_const, false_implies, and_true, assign]
    constructor
    · intro h tile hcovered
      by_cases howner : s.owners tile = plan.requestedOwner
      · exact .inr howner
      · rcases h tile (by rw [if_pos hcovered]; exact fun h => howner h.symm) with
          ⟨change, hmem, htile, -⟩ | ⟨-, -, hrequester⟩
        · exact .inl ⟨change, hmem, htile⟩
        · exact .inr hrequester
    · intro h tile htaken
      by_cases hcovered : tile ∈ plan.coveredTiles
      · rcases h tile hcovered with hlists | howner
        · exact hlisted tile hlists
        · rw [if_pos hcovered] at htaken
          exact absurd howner.symm htaken
      · rw [if_neg hcovered] at htaken
        exact absurd rfl htaken
  · simp [hfresh]

/-- The requester of a plan that is committed still owns what it owned. -/
def Ownership.keeps (s : Ownership) : OwnershipCall → Bool
  | .commit number => s.plans[number]?.all s.tracker.keeps
  | _ => true

/-- One call meets the contract exactly if it keeps what the requester owned. -/
theorem Ownership.step_planned_iff (s : Ownership) (call : OwnershipCall) :
    (∀ c ∈ (s.step call).2, c.Planned) ↔ s.keeps call = true := by
  cases call with
  | commit number =>
      rw [Ownership.step, Ownership.keeps]
      cases s.plans[number]? with
      | none => simp
      | some plan =>
          simp only [Option.mem_def, Option.some.injEq, forall_eq', Option.all_some]
          exact s.tracker.commit_planned_iff plan
  | _ => simp [Ownership.step, Ownership.keeps]

/-- **Ownership is taken as planned.**  In a run of calls in any order, every commit
takes tiles only from the owners its plan recorded, and a refused one takes
none, exactly if no plan is committed while a tile that its requester owned at
the planning is with somebody else. -/
theorem ownership_never_taken_unplanned (s : Ownership) (calls : List OwnershipCall) :
    (∀ call c, (call, some c) ∈ trace Ownership.step s calls → c.Planned) ↔
      Along Ownership.step (fun s call => s.keeps call = true) s calls := by
  induction calls generalizing s with
  | nil => simp [trace, Along]
  | cons call calls ih =>
      rw [Along, ← ih, ← Ownership.step_planned_iff, trace]
      constructor
      · intro h
        refine ⟨fun c hc => h call c ?_, fun call' c hc => h call' c (List.mem_cons_of_mem _ hc)⟩
        rw [← Option.mem_def.mp hc]
        exact List.mem_cons_self
      · rintro ⟨hfirst, hrest⟩ call' c hc
        rcases List.mem_cons.mp hc with heq | hc
        · exact hfirst c (Option.mem_def.mpr (Prod.mk.inj heq).2.symm)
        · exact hrest call' c hc

/-- The surface of one tile. -/
def oneTile : EdramSurfaceLayout :=
  ⟨0, 80, 16, .x1, false, false⟩

/-- Owner 1 has the tile and plans to acquire it again, owner 2 acquires it, and
then the plan of owner 1 is committed: it takes the tile from owner 2, which no
change lists. -/
theorem commit_takes_unlisted_tile :
    ∃ call c, (call, some c) ∈ trace Ownership.step Ownership.init
      [.plan 1 oneTile, .commit 0, .plan 1 oneTile, .plan 2 oneTile, .commit 2, .commit 1] ∧
      c.answer = true ∧ c.before 0 = 2 ∧ c.after 0 = 1 ∧ c.plan.changes = [] ∧ ¬c.Planned := by
  have htiles : coveredTiles oneTile = [0] := by decide
  refine ⟨.commit 1, ⟨⟨1, [0], [], true⟩, fun tile => if tile ∈ [0] then 2 else if tile ∈ [0] then 1
    else 0, fun tile => if tile ∈ [0] then 1 else if tile ∈ [0] then 2 else
      if tile ∈ [0] then 1 else 0, true⟩, ?_, rfl, rfl, rfl, rfl, ?_⟩
  · simp [trace, Ownership.step, Ownership.init, EdramOwnershipTracker.plan, makePlan, htiles,
      EdramOwnershipTracker.commit, EdramOwnershipTracker.fresh, EdramOwnershipTracker.assign,
      EdramOwnershipTracker.reset, canonicalEdramOwner, addChange]
  · rintro ⟨h, -⟩
    rcases h rfl 0 (by decide) with ⟨change, hmem, -⟩ | ⟨-, -, howner⟩
    · simp at hmem
    · simp at howner

end Gpu
end XenonRecomp
