import LvglAic.Player.Allocator

/-! # The memory that the allocator holds

An observer of the calls to `aicos_malloc_align` and `aicos_free_align` knows the
blocks that are live.
-/

namespace LvglAic.Player

variable {trace events : List AllocatorEvent} {live base blocks : List Block}
  {capacity answers : Plane → Nat} {planes held : List Plane}

def Block.Apart (block other : Block) : Prop :=
  block.address + block.size ≤ other.address ∨ other.address + other.size ≤ block.address

instance (block other : Block) : Decidable (block.Apart other) :=
  inferInstanceAs (Decidable (_ ∨ _))

/-- What a call to the memory does to the live blocks. -/
def AllocatorEvent.onBlocks (live : List Block) : AllocatorEvent → List Block
  | .obtained block => block :: live
  | .freed address => live.filter fun block => block.address ≠ address
  | _ => live

def liveBlocks (trace : List AllocatorEvent) : List Block :=
  trace.foldl AllocatorEvent.onBlocks []

/-- A new block overlaps none that is live. -/
def FreshBlock (before : List AllocatorEvent) : AllocatorEvent → Prop
  | .obtained block => ∀ other ∈ liveBlocks before, block.Apart other
  | _ => True

instance FreshBlock.decidable (before : List AllocatorEvent) :
    ∀ event, Decidable (FreshBlock before event)
  | .obtained _ => inferInstanceAs (Decidable (∀ other ∈ liveBlocks before, _))
  | .freed _ | .allocated _ _ | .sdkFreed _ | .pinned _ _ | .unpinned _ | .destroyed =>
      isTrue trivial

/-- Only a block that is live is freed. -/
def FreesLive (before : List AllocatorEvent) : AllocatorEvent → Prop
  | .freed address => ∃ block ∈ liveBlocks before, block.address = address
  | _ => True

/-- Blocks of memory side by side. -/
structure Separate (blocks : List Block) : Prop where
  apart : blocks.Pairwise Block.Apart
  sized : ∀ block ∈ blocks, block.size ≠ 0

theorem Block.Apart.symm {block other : Block} (apart : block.Apart other) : other.Apart block :=
  Or.symm apart

theorem Block.Apart.address_ne {block other : Block} (apart : block.Apart other)
    (sized : block.size ≠ 0) (otherSized : other.size ≠ 0) : block.address ≠ other.address := by
  unfold Block.Apart at apart
  omega

namespace Separate

theorem perm (separate : Separate live) (same : live.Perm blocks) : Separate blocks :=
  ⟨(same.pairwise_iff fun apart => apart.symm).mp separate.apart,
    fun block member => separate.sized block (same.mem_iff.mpr member)⟩

theorem cons {block : Block} (separate : Separate live) (sized : block.size ≠ 0)
    (apart : ∀ other ∈ live, block.Apart other) : Separate (block :: live) :=
  ⟨List.pairwise_cons.mpr ⟨apart, separate.apart⟩, List.forall_mem_cons.mpr ⟨sized, separate.sized⟩⟩

theorem tail {block : Block} (separate : Separate (block :: live)) : Separate live :=
  ⟨(List.pairwise_cons.mp separate.apart).2, (List.forall_mem_cons.mp separate.sized).2⟩

theorem head {block other : Block} (separate : Separate (block :: live)) (member : other ∈ live) :
    other.address ≠ block.address :=
  (((List.pairwise_cons.mp separate.apart).1 other member).address_ne
    (separate.sized block List.mem_cons_self)
    (separate.sized other (List.mem_cons_of_mem _ member))).symm

theorem right (separate : Separate (blocks ++ base)) : Separate base :=
  ⟨(List.pairwise_append.mp separate.apart).2.1,
    fun block member => separate.sized block (List.mem_append_right _ member)⟩

/-- Freeing the first block leaves the others. -/
theorem filter_head {block : Block} (separate : Separate (block :: live)) :
    (block :: live).filter (fun other => other.address ≠ block.address) = live := by
  rw [List.filter_cons_of_neg (by simp)]
  exact List.filter_eq_self.mpr fun other member => by simpa using separate.head member

end Separate

/-! ## Freeing -/

theorem liveBlocks_append : liveBlocks (trace ++ events) =
    events.foldl AllocatorEvent.onBlocks (liveBlocks trace) := by
  simp [liveBlocks, List.foldl_append]

theorem liveBlocks_snoc {event : AllocatorEvent} :
    liveBlocks (trace ++ [event]) = event.onBlocks (liveBlocks trace) := by
  simp [liveBlocks_append]

/-- Blocks that are given back leave the others live. -/
theorem free_blocks (separate : Separate (liveBlocks trace))
    (same : (liveBlocks trace).Perm (blocks ++ base)) :
    Guarded.Continues FreesLive trace (blocks.map fun block => .freed block.address) ∧
      (liveBlocks (trace ++ blocks.map fun block => .freed block.address)).Perm base := by
  induction blocks generalizing trace with
  | nil => exact ⟨trivial, by simpa using same⟩
  | cons block rest ih =>
      have freed : (liveBlocks (trace ++ [.freed block.address])).Perm (rest ++ base) := by
        rw [liveBlocks_snoc]
        refine (same.filter _).trans (.of_eq ?_)
        exact (separate.perm same).filter_head
      have remaining := ih ((separate.perm same).tail.perm freed.symm) freed
      have member : block ∈ liveBlocks trace := same.mem_iff.mpr List.mem_cons_self
      refine ⟨⟨⟨block, member, rfl⟩, remaining.1⟩, ?_⟩
      simpa using remaining.2

/-! ## Obtaining -/

namespace Allocator

/-- The memory that answers for a plane. -/
def planeBlock (capacity answers : Plane → Nat) (plane : Plane) : Block where
  address := answers plane
  size := capacity plane

/-- All the planes are obtained, or nothing stays live. -/
structure Obtains (capacity answers : Plane → Nat) (planes held : List Plane)
    (base : List Block) (trace : List AllocatorEvent) (result : Bool × List AllocatorEvent) :
    Prop where
  frees : Guarded.Continues FreesLive trace result.2
  kept : result.1 = true → (liveBlocks (trace ++ result.2)).Perm
    ((held ++ planes.filter fun plane => capacity plane ≠ 0).map (planeBlock capacity answers) ++
      base)
  separate : Separate (liveBlocks (trace ++ result.2))
  none : result.1 = false → (liveBlocks (trace ++ result.2)).Perm base

theorem free_held (trace : List AllocatorEvent) (separate : Separate (liveBlocks trace))
    (same : (liveBlocks trace).Perm (held.map (planeBlock capacity answers) ++ base)) :
    Guarded.Continues FreesLive trace (held.map fun plane => .freed (answers plane)) ∧
      (liveBlocks (trace ++ held.map fun plane => .freed (answers plane))).Perm base := by
  have freed := free_blocks separate same
  rw [List.map_map] at freed
  exact freed

/-- A new block lies beside the live ones. -/
theorem separate_obtained {plane : Plane} (separate : Separate (liveBlocks trace))
    (needed : capacity plane ≠ 0)
    (fresh : FreshBlock trace (.obtained (planeBlock capacity answers plane))) :
    Separate (liveBlocks (trace ++ [.obtained (planeBlock capacity answers plane)])) := by
  rw [liveBlocks_snoc]
  exact separate.cons needed fresh

/-- The memory that is refused is given back with what was obtained before it. -/
theorem obtain_refused {plane : Plane} (separate : Separate (liveBlocks trace))
    (same : (liveBlocks trace).Perm (held.map (planeBlock capacity answers) ++ base))
    (needed : capacity plane ≠ 0)
    (fresh : Guarded.Continues FreshBlock trace
      ((if answers plane = 0 then []
        else [.obtained (planeBlock capacity answers plane), .freed (answers plane)]) ++
          held.map fun plane => .freed (answers plane))) :
    Obtains capacity answers (plane :: planes) held base trace
      (false, (if answers plane = 0 then []
        else [.obtained (planeBlock capacity answers plane), .freed (answers plane)]) ++
          held.map fun plane => .freed (answers plane)) := by
  have clean := (separate.perm same).right
  by_cases null : answers plane = 0
  · have returned := free_held trace separate same
    simp only [null, if_true, List.nil_append]
    exact ⟨returned.1, nofun, clean.perm returned.2.symm, fun _ => returned.2⟩
  · simp only [null, if_false, List.cons_append, List.nil_append] at fresh ⊢
    have added := separate_obtained separate needed fresh.1
    have back : liveBlocks ((trace ++ [.obtained (planeBlock capacity answers plane)]) ++
        [.freed (answers plane)]) = liveBlocks trace := by
      rw [liveBlocks_snoc]
      rw [liveBlocks_snoc] at added ⊢
      exact added.filter_head
    have returned := free_held ((trace ++ [.obtained (planeBlock capacity answers plane)])
      ++ [.freed (answers plane)]) (by rwa [back]) (by rwa [back])
    have left : (liveBlocks (trace ++ .obtained (planeBlock capacity answers plane) ::
        .freed (answers plane) :: held.map fun plane => .freed (answers plane))).Perm base := by
      simpa using returned.2
    have member : planeBlock capacity answers plane ∈
        liveBlocks (trace ++ [.obtained (planeBlock capacity answers plane)]) := by
      rw [liveBlocks_snoc]
      exact List.mem_cons_self
    exact ⟨⟨trivial, ⟨_, member, rfl⟩, returned.1⟩, nofun, clean.perm left.symm, fun _ => left⟩

theorem obtain_blocks (held : List Plane) (separate : Separate (liveBlocks trace))
    (same : (liveBlocks trace).Perm (held.map (planeBlock capacity answers) ++ base))
    (fresh : Guarded.Continues FreshBlock trace (obtain capacity answers planes held).2) :
    Obtains capacity answers planes held base trace (obtain capacity answers planes held) := by
  induction planes generalizing held trace with
  | nil =>
      exact {
        frees := trivial
        kept := fun _ => by simpa [obtain] using same
        separate := by simpa [obtain] using separate
        none := nofun }
  | cons plane rest ih =>
      by_cases empty : capacity plane = 0
      · have unchanged : obtain capacity answers (plane :: rest) held =
            obtain capacity answers rest held := by
          simp only [obtain, empty, if_true]
        rw [unchanged] at fresh ⊢
        obtain ⟨frees, kept, after, none⟩ := ih held separate same fresh
        exact ⟨frees, by simpa [empty] using kept, after, none⟩
      · by_cases refused : rejected (answers plane) (capacity plane)
        · have failed : obtain capacity answers (plane :: rest) held =
              (false, (if answers plane = 0 then []
                else [.obtained (planeBlock capacity answers plane), .freed (answers plane)]) ++
                  held.map fun plane => .freed (answers plane)) := by
            simp only [obtain, empty, refused, if_true, if_false, planeBlock]
          rw [failed] at fresh ⊢
          exact obtain_refused separate same empty fresh
        · have taken : obtain capacity answers (plane :: rest) held =
              ((obtain capacity answers rest (held ++ [plane])).1,
                .obtained (planeBlock capacity answers plane) ::
                  (obtain capacity answers rest (held ++ [plane])).2) := by
            simp only [obtain, empty, refused, if_false, Bool.false_eq_true, planeBlock]
          rw [taken] at fresh ⊢
          have added := separate_obtained separate empty fresh.1
          have grown : (liveBlocks (trace ++ [.obtained (planeBlock capacity answers plane)])).Perm
              ((held ++ [plane]).map (planeBlock capacity answers) ++ base) := by
            rw [liveBlocks_snoc]
            refine (same.cons _).trans ?_
            have middle : (held.map (planeBlock capacity answers) ++
                planeBlock capacity answers plane :: base).Perm
                (planeBlock capacity answers plane ::
                  (held.map (planeBlock capacity answers) ++ base)) := List.perm_middle
            simpa using middle.symm
          obtain ⟨frees, kept, after, none⟩ := ih (held ++ [plane]) added grown fresh.2
          refine ⟨⟨trivial, frees⟩, ?_, ?_, ?_⟩
          · simpa [empty] using kept
          · simpa using after
          · simpa using none

end Allocator

end LvglAic.Player
