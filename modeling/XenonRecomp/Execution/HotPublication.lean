/-
# Concurrent callers of lookup_v2 on the hot slots

`src/cpu/execution/executable_code_cache.cpp`.  `lookup_v2` reads a hot slot
without the cache's lock: it loads `guest_key`, `function`, `page_stamp` and
`flags` and then `guest_key` again.  `publish_hot` clears `guest_key`, stores
the other three words and stores the key last, and it runs under the *shared*
lock, so two callers may publish at once.  Here every load and store of a slot
word is one step of its thread, the shared and exclusive sections of
`lookup_v2` hold the lock, and any number of callers interleave in any order
while the pages' stamps change under them.

The re-read of the key rejects one publisher.  It does not reject two: a caller
publishing `B` may store its function into the slot after a caller publishing
`A` stored its own and before that caller stores the key of `A`.  The slot then
shows the key of `A` with the function of `B`, and a lookup of `A` returns it
(`hot_lookup_returns_other_entry`).  What is missing is a condition on one
step, the store of the function word (`Exclusive`); in every run in which that
store meets it, a hot hit is the function registered for the entry it was asked
for (`hot_lookup_returns_own_entry`).
-/

import XenonRecomp.Execution.CodeCache
import XenonRecomp.Library.Interleaving

namespace XenonRecomp
namespace Execution

open Cpu Library Library.Transition Library.Interleaving

variable {G F : Type}

/-- `std::shared_mutex`: the number of shared holders, and whether it is held
exclusively. -/
structure SharedMutex where
  readers : ℕ
  writer : Bool

/-- What concurrent callers share. -/
structure Shared (G F : Type) where
  hotEntries : BitVec 8 → HotEntry F
  entries : List (GuestAddress × Entry G F)
  mutex : SharedMutex
  memory : PageStamps

/-- Where a caller of `lookup_v2` stands: the step it takes next and the locals
it has read.  The five `store` steps are `publish_hot`. -/
inductive Caller (G F : Type) where
  | idle
  | loadKeyBefore (entry : GuestAddress) (kind : CompiledLookupKind)
  | loadFunction (entry : GuestAddress) (kind : CompiledLookupKind)
  | loadStamp (entry : GuestAddress) (kind : CompiledLookupKind) (function : Option F)
  | loadFlags (entry : GuestAddress) (kind : CompiledLookupKind) (function : Option F)
      (stampBits : BitVec 64)
  | loadKeyAfter (entry : GuestAddress) (kind : CompiledLookupKind) (function : Option F)
      (stampBits : BitVec 64) (flags : BitVec 32)
  | compareStamp (entry : GuestAddress) (kind : CompiledLookupKind) (function : F)
      (stampBits : BitVec 64)
  | lockShared (entry : GuestAddress) (kind : CompiledLookupKind)
  | findEntry (entry : GuestAddress) (kind : CompiledLookupKind)
  | storeKeyZero (e : Entry G F) (function : F) (stamp : ExecutablePageStamp)
  | storeFunction (e : Entry G F) (function : F) (stamp : ExecutablePageStamp)
  | storeStamp (e : Entry G F) (function : F) (stamp : ExecutablePageStamp)
  | storeFlags (e : Entry G F) (function : F)
  | storeKey (e : Entry G F) (function : F)
  | unlockShared (result : Option F)
  | lockExclusive (entry : GuestAddress) (serial : BitVec 64)
  | findStale (entry : GuestAddress) (serial : BitVec 64)
  | clearLoadKey (entry : GuestAddress)
  | clearStoreKey (entry : GuestAddress)
  | eraseEntry (entry : GuestAddress)
  | unlockExclusive
  | hotHit (entry : GuestAddress) (function : F)
  | returned (result : Option F)

/-- What the scheduler may choose: a new call of an idle caller, a change of the
pages' stamps by some store or remapping, or the caller's next step. -/
inductive Choice where
  | call (entry : GuestAddress) (kind : CompiledLookupKind)
  | remap (memory : PageStamps)
  | next

/-- A slot with one of its words rewritten. -/
def setSlot (s : Shared G F) (entry : GuestAddress) (f : HotEntry F → HotEntry F) : Shared G F :=
  { s with
    hotEntries :=
      Function.update s.hotEntries (hotIndex entry) (f (s.hotEntries (hotIndex entry))) }

/-- The flags word `publish_hot` stores. -/
def Entry.hotFlags (e : Entry G F) : BitVec 32 :=
  if e.directCallSafe then 1 else 0

/-- The slot an entry address maps to. -/
def Shared.slot (s : Shared G F) (entry : GuestAddress) : HotEntry F :=
  s.hotEntries (hotIndex entry)

/-- The next atomic step of a caller. -/
def lookupStep (s : Shared G F) : Caller G F → Option (Shared G F × Caller G F)
  | .idle => none
  | .loadKeyBefore entry kind =>
      if (s.slot entry).guestKey = hotKey entry then some (s, .loadFunction entry kind)
      else some (s, .lockShared entry kind)
  | .loadFunction entry kind => some (s, .loadStamp entry kind (s.slot entry).function)
  | .loadStamp entry kind function =>
      some (s, .loadFlags entry kind function (s.slot entry).pageStamp)
  | .loadFlags entry kind function stampBits =>
      some (s, .loadKeyAfter entry kind function stampBits (s.slot entry).flags)
  | .loadKeyAfter entry kind function stampBits flags =>
      match function with
      | some f =>
          if (s.slot entry).guestKey = hotKey entry ∧ (kind ≠ .call ∨ flags &&& 1 ≠ 0) then
            some (s, .compareStamp entry kind f stampBits)
          else some (s, .lockShared entry kind)
      | none => some (s, .lockShared entry kind)
  | .compareStamp entry kind function stampBits =>
      if executablePageStamp s.memory entry = decodeStamp stampBits then
        some (s, .hotHit entry function)
      else some (s, .lockShared entry kind)
  | .lockShared entry kind =>
      if s.mutex.writer then none
      else some ({ s with mutex := ⟨s.mutex.readers + 1, false⟩ }, .findEntry entry kind)
  | .findEntry entry kind =>
      match find s.entries entry with
      | none => some (s, .unlockShared none)
      | some e =>
          match e.functionV2 with
          | none => some (s, .unlockShared none)
          | some f =>
              if kind = .call ∧ e.directCallSafe = false then some (s, .unlockShared none)
              else if snapshotMatches s.memory e.source then
                match e.source.pages with
                | [stamp] => some (s, .storeKeyZero e f stamp)
                | _ => some (s, .unlockShared (some f))
              else
                some ({ s with mutex := { s.mutex with readers := s.mutex.readers - 1 } },
                  .lockExclusive entry e.serial)
  | .storeKeyZero e function stamp =>
      some (setSlot s e.entry fun h => { h with guestKey := 0 }, .storeFunction e function stamp)
  | .storeFunction e function stamp =>
      some (setSlot s e.entry fun h => { h with function := some function },
        .storeStamp e function stamp)
  | .storeStamp e function stamp =>
      some (setSlot s e.entry fun h => { h with pageStamp := encodeStamp stamp },
        .storeFlags e function)
  | .storeFlags e function =>
      some (setSlot s e.entry fun h => { h with flags := e.hotFlags },
        .storeKey e function)
  | .storeKey e function =>
      some (setSlot s e.entry fun h => { h with guestKey := hotKey e.entry },
        .unlockShared (some function))
  | .unlockShared result =>
      some ({ s with mutex := { s.mutex with readers := s.mutex.readers - 1 } },
        .returned result)
  | .lockExclusive entry serial =>
      if s.mutex.writer ∨ s.mutex.readers ≠ 0 then none
      else some ({ s with mutex := ⟨0, true⟩ }, .findStale entry serial)
  | .findStale entry serial =>
      match find s.entries entry with
      | none => some (s, .unlockExclusive)
      | some e =>
          if e.serial = serial ∧ snapshotMatches s.memory e.source = false then
            some (s, .clearLoadKey entry)
          else some (s, .unlockExclusive)
  | .clearLoadKey entry =>
      if (s.slot entry).guestKey = hotKey entry then some (s, .clearStoreKey entry)
      else some (s, .eraseEntry entry)
  | .clearStoreKey entry =>
      some (setSlot s entry fun h => { h with guestKey := 0 }, .eraseEntry entry)
  | .eraseEntry entry => some ({ s with entries := erase s.entries entry }, .unlockExclusive)
  | .unlockExclusive => some ({ s with mutex := ⟨0, false⟩ }, .returned none)
  | .hotHit _ _ => some (s, .idle)
  | .returned _ => some (s, .idle)

/-- A caller with the scheduler's choice. -/
def lookupCaller (s : Shared G F) (l : Caller G F) : Choice → Option (Shared G F × Caller G F)
  | .call entry kind =>
      match l with
      | .idle => some (s, .loadKeyBefore entry kind)
      | _ => none
  | .remap memory => some ({ s with memory := memory }, l)
  | .next => lookupStep s l

/-- The entry whose function word a caller relies on: it has matched the key and
not loaded the function yet, or it has stored the function and not the key. -/
def Caller.relies : Caller G F → Option GuestAddress
  | .loadFunction entry _ => some entry
  | .storeStamp e _ _ => some e.entry
  | .storeFlags e _ => some e.entry
  | .storeKey e _ => some e.entry
  | _ => none

/-- The function a caller holds, with the entry it holds it for. -/
def Caller.holds : Caller G F → Option (GuestAddress × Option F)
  | .loadStamp entry _ function => some (entry, function)
  | .loadFlags entry _ function _ => some (entry, function)
  | .loadKeyAfter entry _ function _ _ => some (entry, function)
  | .compareStamp entry _ function _ => some (entry, some function)
  | .hotHit entry function => some (entry, some function)
  | .storeKeyZero e function _ => some (e.entry, some function)
  | .storeFunction e function _ => some (e.entry, some function)
  | .storeStamp e function _ => some (e.entry, some function)
  | .storeFlags e function => some (e.entry, some function)
  | .storeKey e function => some (e.entry, some function)
  | _ => none

/-- The entry and the function of a call that returns from the hot path. -/
def Caller.hotResult : Caller G F → Option (GuestAddress × F)
  | .hotHit entry function => some (entry, function)
  | _ => none

/-- A call that returns from the hot path holds what it returns. -/
theorem Caller.holds_of_hotResult {l : Caller G F} {entry : GuestAddress} {function : F}
    (h : l.hotResult = some (entry, function)) : l.holds = some (entry, some function) := by
  cases l <;> simp_all [Caller.hotResult, Caller.holds]

/-- The entry whose function word a caller is about to store. -/
def Caller.stores : Caller G F → Choice → Option GuestAddress
  | .storeFunction e _ _, .next => some e.entry
  | _, _ => none

/-- **The condition on publication.**  When a caller stores the function word of
a slot, the slot shows no other entry's key, and no caller relies on the
function word for another entry of that slot. -/
def Exclusive {T : Type} (c : Config (Shared G F) (Caller G F) T) (ev : T × Choice) : Prop :=
  ∀ stored ∈ (c.threads ev.1).stores ev.2,
    ((c.shared.slot stored).guestKey = 0 ∨ (c.shared.slot stored).guestKey = hotKey stored) ∧
      ∀ u, ∀ entry ∈ (c.threads u).relies, hotIndex entry = hotIndex stored → entry = stored

-- The guest addresses are a finite type too: the instances name the options, so
-- that deciding looks at the one entry they hold.
instance {T : Type} [Fintype T] (c : Config (Shared G F) (Caller G F) T) :
    DecidablePred (Exclusive c) :=
  fun ev =>
    have (stored : GuestAddress) (u : T) :
        Decidable (∀ entry ∈ (c.threads u).relies, hotIndex entry = hotIndex stored →
          entry = stored) :=
      Option.decidableForallMem (c.threads u).relies
    Option.decidableForallMem ((c.threads ev.1).stores ev.2)

/-- The function registered for an entry. -/
def registered (entries : List (GuestAddress × Entry G F)) (entry : GuestAddress) : Option F :=
  (find entries entry).bind Entry.functionV2

/-- Every entry of the registry is filed under its own address. -/
def Filed (entries : List (GuestAddress × Entry G F)) : Prop :=
  ∀ entry e, find entries entry = some e → e.entry = entry

/-- A published slot holds the function `reg` gives for the entry it shows. -/
def SlotsCoherent (reg : GuestAddress → Option F) (s : Shared G F) : Prop :=
  ∀ entry, (s.slot entry).guestKey = hotKey entry → (s.slot entry).function = reg entry

/-- The registry holds nothing but what `reg` says. -/
def RegistryWithin (reg : GuestAddress → Option F) (s : Shared G F) : Prop :=
  ∀ entry e, find s.entries entry = some e → e.entry = entry ∧ e.functionV2 = reg entry

/-- A caller relies on, and holds, registered functions only. -/
def CallerCoherent (reg : GuestAddress → Option F) (s : Shared G F) (l : Caller G F) : Prop :=
  (∀ entry, l.relies = some entry → (s.slot entry).function = reg entry) ∧
    ∀ entry function, l.holds = some (entry, function) → function = reg entry

/-! ## What one step changes -/

/-- The rewritten slot. -/
@[simp] theorem setSlot_slot (s : Shared G F) (entry a : GuestAddress)
    (f : HotEntry F → HotEntry F) :
    (setSlot s entry f).slot a =
      if hotIndex a = hotIndex entry then f (s.slot a) else s.slot a := by
  by_cases h : hotIndex a = hotIndex entry
  · simp [setSlot, Shared.slot, h]
  · simp [setSlot, Shared.slot, h]

/-- A rewrite that keeps a slot's function keeps every function word. -/
theorem setSlot_function (s : Shared G F) (entry a : GuestAddress)
    {f : HotEntry F → HotEntry F} (hf : ∀ h, (f h).function = h.function) :
    ((setSlot s entry f).slot a).function = (s.slot a).function := by
  rw [setSlot_slot]
  split
  · exact hf _
  · rfl

section

variable {s s' : Shared G F} {l l' : Caller G F}

/-- A step stores one word of a slot as `publish_hot` or `clear_hot` does, or it
leaves the slots alone and at most erases an entry of the registry. -/
theorem lookupStep_cases (h : lookupStep s l = some (s', l')) :
    (s'.hotEntries = s.hotEntries ∧
      (s'.entries = s.entries ∨ ∃ k, s'.entries = erase s.entries k)) ∨
    (∃ entry, s' = setSlot s entry fun h => { h with guestKey := 0 }) ∨
    (∃ e f stamp, l = .storeFunction e f stamp ∧
      s' = setSlot s e.entry fun h => { h with function := some f }) ∨
    (∃ e f stamp, l = .storeStamp e f stamp ∧
      s' = setSlot s e.entry fun h => { h with pageStamp := encodeStamp stamp }) ∨
    (∃ e f, l = .storeFlags e f ∧
      s' = setSlot s e.entry fun h => { h with flags := e.hotFlags }) ∨
    (∃ e f, l = .storeKey e f ∧
      s' = setSlot s e.entry fun h => { h with guestKey := hotKey e.entry }) := by
  cases l <;> simp only [lookupStep] at h <;> (repeat' split at h) <;>
    simp only [Option.some.injEq, Prod.mk.injEq, reduceCtorEq] at h <;>
    obtain ⟨rfl, rfl⟩ := h <;> simp
  case storeKeyZero e f stamp => exact .inr ⟨e.entry, rfl⟩
  case clearStoreKey entry => exact .inr ⟨entry, rfl⟩

/-- A caller comes to rely on a function word by matching the key or by storing
the word itself. -/
theorem lookupStep_relies (h : lookupStep s l = some (s', l')) {entry : GuestAddress}
    (hr : l'.relies = some entry) :
    l.relies = some entry ∨
      ((s.slot entry).guestKey = hotKey entry ∧ s' = s) ∨
      ∃ e f stamp, l = .storeFunction e f stamp ∧ e.entry = entry := by
  cases l <;> simp only [lookupStep] at h <;> (repeat' split at h) <;>
    simp only [Option.some.injEq, Prod.mk.injEq, reduceCtorEq] at h <;>
    obtain ⟨rfl, rfl⟩ := h <;> simp_all [Caller.relies]

/-- A caller takes the function it holds from the slot it relies on or from the
registry. -/
theorem lookupStep_holds (h : lookupStep s l = some (s', l')) {entry : GuestAddress}
    {function : Option F} (hh : l'.holds = some (entry, function)) :
    l.holds = some (entry, function) ∨
      (l.relies = some entry ∧ (s.slot entry).function = function) ∨
      ∃ a e, find s.entries a = some e ∧ e.entry = entry ∧ e.functionV2 = function := by
  cases l <;> simp only [lookupStep] at h <;> (repeat' split at h) <;>
    simp only [Option.some.injEq, Prod.mk.injEq, reduceCtorEq] at h <;>
    obtain ⟨rfl, rfl⟩ := h <;> simp_all [Caller.relies, Caller.holds]
  case loadFunction => exact .inl (hh.1 ▸ hh.2)
  case h_1 hfind _ _ _ _ hf _ _ _ => exact ⟨_, _, hfind, hh.1, hf⟩

/-- A step leaves every function word as it was, except the store of one. -/
theorem lookupStep_function (h : lookupStep s l = some (s', l')) :
    (∀ entry, (s'.slot entry).function = (s.slot entry).function) ∨
      ∃ e f stamp, l = .storeFunction e f stamp ∧
        s' = setSlot s e.entry fun h => { h with function := some f } := by
  rcases lookupStep_cases h with ⟨hhot, -⟩ | ⟨a, rfl⟩ | ⟨e, f, stamp, hl, hs⟩ |
    ⟨e, f, stamp, -, rfl⟩ | ⟨e, f, -, rfl⟩ | ⟨e, f, -, rfl⟩
  · exact .inl fun entry => by simp [Shared.slot, hhot]
  · exact .inl fun entry => setSlot_function s a entry fun _ => rfl
  · exact .inr ⟨e, f, stamp, hl, hs⟩
  all_goals exact .inl fun entry => setSlot_function s e.entry entry fun _ => rfl

end

/-! ## The invariant -/

section

variable {reg : GuestAddress → Option F} {s s' : Shared G F} {l l' : Caller G F}

/-- A step keeps the registry within what was registered. -/
theorem RegistryWithin.step (hreg : RegistryWithin reg s)
    (h : lookupStep s l = some (s', l')) : RegistryWithin reg s' := by
  intro entry e hfind
  rcases lookupStep_cases h with ⟨-, hent | ⟨k, hent⟩⟩ | ⟨a, rfl⟩ | ⟨e', f, stamp, -, rfl⟩ |
    ⟨e', f, stamp, -, rfl⟩ | ⟨e', f, -, rfl⟩ | ⟨e', f, -, rfl⟩
  · exact hreg entry e (hent ▸ hfind)
  · exact hreg entry e (find_of_find_erase (hent ▸ hfind))
  all_goals exact hreg entry e hfind

/-- A step keeps published slots coherent, if a store of the function word finds
no other entry shown in its slot. -/
theorem SlotsCoherent.step (hslots : SlotsCoherent reg s) (hl : CallerCoherent reg s l)
    (hown : ∀ stored ∈ l.stores .next, (s.slot stored).guestKey = 0 ∨
      (s.slot stored).guestKey = hotKey stored)
    (h : lookupStep s l = some (s', l')) : SlotsCoherent reg s' := by
  intro entry hkey
  rcases lookupStep_cases h with ⟨hhot, -⟩ | ⟨a, rfl⟩ | ⟨e, f, stamp, rfl, rfl⟩ |
    ⟨e, f, stamp, rfl, rfl⟩ | ⟨e, f, rfl, rfl⟩ | ⟨e, f, rfl, rfl⟩
  · simp only [Shared.slot, hhot] at hkey ⊢
    exact hslots entry hkey
  · by_cases hi : hotIndex entry = hotIndex a
    · simp only [setSlot_slot, hi, if_true] at hkey
      exact absurd hkey.symm (hotKey_ne_zero entry)
    · simp only [setSlot_slot, hi, if_false] at hkey ⊢
      exact hslots entry hkey
  · by_cases hi : hotIndex entry = hotIndex e.entry
    · have hslot : s.slot e.entry = s.slot entry := by simp [Shared.slot, hi]
      have hshown : (s.slot e.entry).guestKey = hotKey entry := by
        simpa [hi, hslot] using hkey
      have hsame : entry = e.entry := by
        rcases hown e.entry rfl with hzero | hmine
        · exact absurd (hshown.symm.trans hzero) (hotKey_ne_zero entry)
        · exact hotKey_inj (hshown.symm.trans hmine)
      have hf : some f = reg e.entry := hl.2 _ _ rfl
      simpa [hsame] using hf
    · simp only [setSlot_slot, hi, if_false] at hkey ⊢
      exact hslots entry hkey
  iterate 2
    · by_cases hi : hotIndex entry = hotIndex e.entry
      · simp only [setSlot_slot, hi, if_true] at hkey ⊢
        exact hslots entry hkey
      · simp only [setSlot_slot, hi, if_false] at hkey ⊢
        exact hslots entry hkey
  · by_cases hi : hotIndex entry = hotIndex e.entry
    · simp only [setSlot_slot, hi, if_true] at hkey ⊢
      have hsame : entry = e.entry := (hotKey_inj hkey).symm
      rw [hsame]
      exact hl.1 e.entry rfl
    · simp only [setSlot_slot, hi, if_false] at hkey ⊢
      exact hslots entry hkey

/-- A caller that relies on nothing and holds nothing is coherent. -/
theorem CallerCoherent.of_empty (hr : l.relies = none) (hh : l.holds = none) :
    CallerCoherent reg s l := by
  refine ⟨fun entry h => ?_, fun entry function h => ?_⟩
  · rw [hr] at h
    cases h
  · rw [hh] at h
    cases h

/-- A step keeps its own caller coherent. -/
theorem CallerCoherent.step (hl : CallerCoherent reg s l) (hslots : SlotsCoherent reg s)
    (hreg : RegistryWithin reg s) (h : lookupStep s l = some (s', l')) :
    CallerCoherent reg s' l' := by
  refine ⟨fun entry hrelies => ?_, fun entry function hholds => ?_⟩
  · rcases lookupStep_relies h hrelies with hr | ⟨hkey, rfl⟩ | ⟨e, f, stamp, rfl, rfl⟩
    · rcases lookupStep_function h with hsame | ⟨e, f, stamp, rfl, -⟩
      · rw [hsame entry]
        exact hl.1 entry hr
      · cases hr
    · exact hslots entry hkey
    · have hf : some f = reg e.entry := hl.2 _ _ rfl
      simp only [lookupStep, Option.some.injEq, Prod.mk.injEq] at h
      rw [← h.1]
      simpa using hf
  · rcases lookupStep_holds h hholds with hh | ⟨hr, rfl⟩ | ⟨a, e, hfind, rfl, rfl⟩
    · exact hl.2 entry function hh
    · exact hl.1 entry hr
    · obtain ⟨rfl, hf⟩ := hreg a e hfind
      exact hf

/-- A step keeps another caller coherent, if a store of the function word finds
that caller relying on no other entry of the slot. -/
theorem CallerCoherent.other {m : Caller G F} (hm : CallerCoherent reg s m)
    (hl : CallerCoherent reg s l) (h : lookupStep s l = some (s', l'))
    (hexcl : ∀ stored ∈ l.stores .next, ∀ entry ∈ m.relies,
      hotIndex entry = hotIndex stored → entry = stored) :
    CallerCoherent reg s' m := by
  refine ⟨fun entry hrelies => ?_, hm.2⟩
  rcases lookupStep_function h with hsame | ⟨e, f, stamp, rfl, rfl⟩
  · rw [hsame entry]
    exact hm.1 entry hrelies
  · by_cases hi : hotIndex entry = hotIndex e.entry
    · have hsame : entry = e.entry := hexcl e.entry rfl entry hrelies hi
      have hf : some f = reg e.entry := hl.2 _ _ rfl
      simpa [hsame] using hf
    · simpa [setSlot_slot, hi] using hm.1 entry hrelies

end

/-- What the scheduler's choice can do besides the caller's next step: start a
call, or change the pages' stamps. -/
theorem lookupCaller_cases {s s' : Shared G F} {l l' : Caller G F} {a : Choice}
    (h : lookupCaller s l a = some (s', l')) :
    (∃ entry kind, l = .idle ∧ l' = .loadKeyBefore entry kind ∧ s' = s) ∨
      (∃ memory, l' = l ∧ s' = { s with memory := memory }) ∨
      (a = .next ∧ lookupStep s l = some (s', l')) := by
  cases a with
  | call entry kind =>
      cases l <;> simp only [lookupCaller, Option.some.injEq, Prod.mk.injEq, reduceCtorEq] at h
      exact .inl ⟨entry, kind, rfl, h.2.symm, h.1.symm⟩
  | remap memory =>
      simp only [lookupCaller, Option.some.injEq, Prod.mk.injEq] at h
      exact .inr (.inl ⟨memory, h.2.symm, h.1.symm⟩)
  | next => exact .inr (.inr ⟨rfl, h⟩)

/-- A cache before any concurrent call: the registry files every entry under its
own address, every published slot holds the function registered for the entry
it shows, and the lock is free. -/
structure Quiescent (s : Shared G F) : Prop where
  filed : Filed s.entries
  slots : SlotsCoherent (registered s.entries) s
  unlocked : s.mutex = ⟨0, false⟩

/-- Every caller before its first call. -/
def launch (T : Type) (s : Shared G F) : Config (Shared G F) (Caller G F) T :=
  ⟨s, fun _ => .idle⟩

/-- **A hot hit is the function of the entry asked for.**  Any number of callers
of `lookup_v2` run in any order, while pages change their stamps; in every run
in which each store of a function word meets `Exclusive`, a call that returns
from the hot path returns the function registered for its own entry. -/
theorem hot_lookup_returns_own_entry {T : Type} [DecidableEq T] (s : Shared G F)
    (hs : Quiescent s) (es : List (T × Choice))
    (hex : Along (Interleaving.step lookupCaller) Exclusive (launch T s) es)
    (t : T) (entry : GuestAddress) (function : F)
    (hhit : ((run (Interleaving.step lookupCaller) (launch T s) es).threads t).hotResult =
      some (entry, function)) :
    registered s.entries entry = some function := by
  have hwithin : RegistryWithin (registered s.entries) s := fun a e hfind =>
    ⟨hs.filed a e hfind, by simp [registered, hfind]⟩
  have hinv := run_noninterference
    (G := fun x => SlotsCoherent (registered s.entries) x ∧
      RegistryWithin (registered s.entries) x)
    (Q := fun (_ : T) x l => CallerCoherent (registered s.entries) x l)
    (P := Exclusive) ?own ?others (launch T s) es ⟨hs.slots, hwithin⟩
    (fun _ => .of_empty rfl rfl) hex
  case own =>
    rintro c u a x l ⟨hslots, hreg⟩ hcallers hP hprog
    rcases lookupCaller_cases hprog with ⟨b, kind, hl, rfl, rfl⟩ | ⟨memory, rfl, rfl⟩ |
      ⟨rfl, hstep⟩
    · exact ⟨⟨hslots, hreg⟩, .of_empty rfl rfl⟩
    · exact ⟨⟨hslots, hreg⟩, hcallers u⟩
    · refine ⟨⟨hslots.step (hcallers u) ?_ hstep, hreg.step hstep⟩,
        (hcallers u).step hslots hreg hstep⟩
      exact fun stored hstored => (hP stored hstored).1
  case others =>
    rintro c u a x l ⟨hslots, hreg⟩ hcallers hP hprog v -
    rcases lookupCaller_cases hprog with ⟨b, kind, hl, rfl, rfl⟩ | ⟨memory, rfl, rfl⟩ |
      ⟨rfl, hstep⟩
    · exact hcallers v
    · exact hcallers v
    · exact (hcallers v).other (hcallers u) hstep fun stored hstored =>
        (hP stored hstored).2 v
  exact ((hinv.2 t).2 entry (some function) (Caller.holds_of_hotResult hhit)).symm

/-- A direct-callable V2 translation of four bytes. -/
def smallEntry (entry : GuestAddress) (function : Bool) : Entry Unit Bool :=
  ⟨entry, none, some function, ⟨entry, 4, [⟨1, 1⟩]⟩, true, 1⟩

/-- A cache with two translations of one code page whose entries share a slot. -/
def collidingCache : Shared Unit Bool where
  hotEntries := fun _ => ⟨0, none, 0, 0⟩
  entries := [(0x82000000#32, smallEntry 0x82000000#32 false),
    (0x82000400#32, smallEntry 0x82000400#32 true)]
  mutex := ⟨0, false⟩
  memory := fun _ => ⟨1, 1⟩

/-- `count` steps of one caller. -/
def steps {T : Type} (t : T) (count : ℕ) : List (T × Choice) :=
  List.replicate count (t, .next)

theorem collidingCache_quiescent : Quiescent collidingCache := by
  refine ⟨fun entry e h => ?_, fun entry h => absurd h.symm (hotKey_ne_zero entry), rfl⟩
  rw [find, collidingCache, List.lookup_cons, List.lookup_cons] at h
  split at h
  · next heq =>
      cases h
      exact (beq_iff_eq.mp heq).symm
  · split at h
    · next heq =>
        cases h
        exact (beq_iff_eq.mp heq).symm
    · cases h

/-- One caller publishes the first entry and finds it again. -/
theorem hot_lookup_returns_own_entry_single :
    registered collidingCache.entries 0x82000000#32 = some false :=
  hot_lookup_returns_own_entry (T := Unit) collidingCache collidingCache_quiescent
    ((((), .call 0x82000000#32 .branch) :: steps () 10) ++
      (((), .call 0x82000000#32 .call) :: steps () 6))
    (by decide) () 0x82000000#32 false (by decide)

/-- **Two publishers of one slot tear it.**  The caller `false` publishes the
first entry and is overtaken, after its function store, by the caller `true`
publishing the second; the next lookup of the first entry takes the hot path and
returns the function of the second. -/
theorem hot_lookup_returns_other_entry :
    Quiescent collidingCache ∧
      ((run (Interleaving.step lookupCaller) (launch Bool collidingCache)
        (((false, .call 0x82000000#32 .branch) :: steps false 5) ++
          ((true, .call 0x82000400#32 .branch) :: steps true 5) ++ steps false 5 ++
          ((false, .call 0x82000000#32 .branch) :: steps false 6))).threads false).hotResult =
        some (0x82000000#32, true) ∧
      registered collidingCache.entries 0x82000000#32 = some false ∧
      registered collidingCache.entries 0x82000400#32 = some true :=
  ⟨collidingCache_quiescent, by decide, by decide, by decide⟩

end Execution
end XenonRecomp
