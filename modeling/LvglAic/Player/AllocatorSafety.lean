import LvglAic.Player.AllocatorBlocks

/-! # What the allocator accounts for

A frame keeps its memory until the SDK has freed it and it is not pinned.
-/

namespace LvglAic.Player

variable {trace events : List AllocatorEvent} {a b : Allocator} {index : FrameIndex}

/-- A call to the memory. -/
def AllocatorEvent.onMemory : AllocatorEvent → Bool
  | .obtained _ | .freed _ => true
  | _ => false

/-- What happened to the last frame of a slot. -/
structure FrameCustody where
  blocks : List Block
  sdkFreed : Bool
  pinned : Bool

def AllocatorEvent.onCustody (custody : FrameIndex → FrameCustody) :
    AllocatorEvent → FrameIndex → FrameCustody
  | .allocated index blocks =>
      Function.update custody index { blocks := blocks, sdkFreed := false, pinned := false }
  | .sdkFreed index => Function.update custody index { custody index with sdkFreed := true }
  | .pinned index _ => Function.update custody index { custody index with pinned := true }
  | .unpinned index => Function.update custody index { custody index with pinned := false }
  | _ => custody

def frameCustody (trace : List AllocatorEvent) : FrameIndex → FrameCustody :=
  trace.foldl AllocatorEvent.onCustody fun _ => { blocks := [], sdkFreed := false, pinned := false }

/-- The memory that the frame still needs. -/
def FrameCustody.outstanding (custody : FrameCustody) : List Block :=
  if custody.sdkFreed && !custody.pinned then [] else custody.blocks

/-- The new blocks lie beside the live ones. -/
def MallocContract (trace : List AllocatorEvent) (a : Allocator) (call : AllocatorCall) : Prop :=
  Guarded.Continues FreshBlock trace (a.perform call).2

def Allocation.bytes (r : Allocation) : Nat := r.capacity 0 + r.capacity 1 + r.capacity 2

/-! ## Layouts -/

theorem le_roundLine (size : Nat) : size ≤ roundLine size := by
  unfold roundLine line
  omega

theorem sampling_planes {format : PixelFormat} {s : Sampling} (known : format.sampling = some s) :
    0 < s.planes := by
  cases format <;> simp [PixelFormat.sampling] at known <;> subst known <;> decide

theorem layout_cases {buf view : MppBuf} {stride height : Int} {format : PixelFormat}
    {capacity : Plane → Nat} (laid : layout buf stride height format = some (view, capacity)) :
    ∃ s, format.sampling = some s ∧ 1 ≤ stride ∧ 1 ≤ height ∧
      (∀ plane : Plane, plane.val < s.planes → view.stride plane = s.pitch stride.toNat plane) ∧
      capacity = fun plane => roundLine (s.size stride.toNat height.toNat plane) := by
  unfold layout at laid
  split at laid
  · cases laid
  · rename_i bounds
    cases known : format.sampling with
    | none => simp [known] at laid
    | some s =>
        simp only [known] at laid
        split at laid
        · cases laid
        · split at laid
          · cases laid
          · simp only [Option.some.injEq, Prod.mk.injEq] at laid
            obtain ⟨rfl, rfl⟩ := laid
            simp only [Bool.or_eq_true, decide_eq_true_eq, not_or, Int.not_lt] at bounds
            obtain ⟨⟨⟨_, tall⟩, long⟩, _⟩ := bounds
            exact ⟨s, rfl, by omega, by omega, fun plane within => if_pos within, rfl⟩

/-- The first plane of a frame is never empty. -/
theorem layout_sized {buf view : MppBuf} {stride height : Int} {format : PixelFormat}
    {capacity : Plane → Nat} (laid : layout buf stride height format = some (view, capacity)) :
    capacity 0 ≠ 0 := by
  obtain ⟨s, known, long, tall, _, rfl⟩ := layout_cases laid
  have planes := sampling_planes known
  have first : s.size stride.toNat height.toNat 0 = stride.toNat * height.toNat := by
    simp [Sampling.size, Sampling.pitch, Sampling.rows, planes]
  have bytes : 0 < stride.toNat * height.toNat := Nat.mul_pos (by omega) (by omega)
  have rounded := le_roundLine (s.size stride.toNat height.toNat 0)
  show roundLine (s.size stride.toNat height.toNat 0) ≠ 0
  omega

namespace Allocator

theorem firstFrame_holds {test : FrameIndex → Bool} (found : firstFrame test = some index) :
    test index = true :=
  List.find?_some found

/-! ## The slots -/

theorem slots_split (f : FrameIndex → List Block) (index : FrameIndex) :
    ((List.finRange frameCount).flatMap f).Perm
      (f index ++ ((List.finRange frameCount).erase index).flatMap f) := by
  have split := (List.perm_cons_erase (List.mem_finRange index)).flatMap_right f
  rwa [List.flatMap_cons] at split

theorem slots_others {f g : FrameIndex → List Block}
    (same : ∀ other, other ≠ index → f other = g other) :
    ((List.finRange frameCount).erase index).flatMap f =
      ((List.finRange frameCount).erase index).flatMap g :=
  List.flatMap_congr fun other member =>
    same other ((List.nodup_finRange frameCount).mem_erase_iff.mp member).1

theorem sum_others {f g : FrameIndex → Nat} (index : FrameIndex)
    (same : ∀ other, other ≠ index → f other = g other) :
    ∑ other, f other + g index = ∑ other, g other + f index := by
  have split := Finset.add_sum_erase Finset.univ f (Finset.mem_univ index)
  have others := Finset.add_sum_erase Finset.univ g (Finset.mem_univ index)
  have agree : ∑ other ∈ Finset.univ.erase index, f other =
      ∑ other ∈ Finset.univ.erase index, g other :=
    Finset.sum_congr rfl fun other member => same other (Finset.ne_of_mem_erase member)
  omega

/-- The memory of the live records is the live memory. -/
structure Stored (trace : List AllocatorEvent) (a : Allocator) : Prop where
  zeroed : ∀ index, (a.frames index).live = false → a.frames index = .zero
  sized : ∀ index, (a.frames index).live = true → (a.frames index).capacity 0 ≠ 0
  separate : Separate (liveBlocks trace)
  memory : (liveBlocks trace).Perm
    ((List.finRange frameCount).flatMap fun index => (a.frames index).blocks)
  used : a.used = ∑ index, (a.frames index).bytes
  budget : a.used ≤ a.budget

/-- A pinned record has a ticket of its own. -/
structure Ticketed (a : Allocator) : Prop where
  retired : ∀ index, (a.frames index).retired = true → (a.frames index).ticket ≠ 0
  issued : ∀ index, (a.frames index).ticket ≤ a.nextTicket
  distinct : ∀ index other, (a.frames index).ticket = (a.frames other).ticket →
    (a.frames index).ticket ≠ 0 → index = other

/-- What the record of a frame says about it. -/
def Tracks (custody : FrameCustody) (r : Allocation) : Prop :=
  if r.live then custody = { blocks := r.blocks, sdkFreed := r.retired, pinned := r.ticket ≠ 0 }
  else custody.outstanding = []

def Tracked (trace : List AllocatorEvent) (a : Allocator) : Prop :=
  ∀ index, Tracks (frameCustody trace index) (a.frames index)

@[simp] theorem setFrame_frames_self {r : Allocation} : (a.setFrame index r).frames index = r := by
  simp [setFrame]

theorem setFrame_frames_other {r : Allocation} {other : FrameIndex} (different : other ≠ index) :
    (a.setFrame index r).frames other = a.frames other := by
  simp [setFrame, different]

/-! ## Records -/

namespace Stored

/-- Pins and retirements leave the memory alone. -/
theorem relabel (stored : Stored trace a) (quiet : liveBlocks (trace ++ events) = liveBlocks trace)
    (used : b.used = a.used) (budget : b.budget = a.budget)
    (zeroed : ∀ index, (b.frames index).live = false → b.frames index = .zero)
    (live : ∀ index, (b.frames index).live = (a.frames index).live)
    (capacity : ∀ index, (b.frames index).capacity = (a.frames index).capacity)
    (buf : ∀ index, (b.frames index).buf = (a.frames index).buf) : Stored (trace ++ events) b where
  zeroed := zeroed
  sized index alive := by
    rw [live] at alive
    rw [capacity]
    exact stored.sized index alive
  separate := by
    rw [quiet]
    exact stored.separate
  memory := by
    have same : (fun index => (b.frames index).blocks) = fun index => (a.frames index).blocks := by
      funext index
      simp only [Allocation.blocks, capacity, buf]
    rw [quiet, same]
    exact stored.memory
  used := by
    simp only [used, stored.used, Allocation.bytes, capacity]
  budget := by
    rw [used, budget]
    exact stored.budget

theorem pinned_live (stored : Stored trace a) (index : FrameIndex)
    (pinned : (a.frames index).ticket ≠ 0) :
    (a.frames index).live = true := by
  by_contra dead
  rw [stored.zeroed index (by simpa using dead)] at pinned
  exact pinned rfl

theorem update {r : Allocation} (stored : Stored trace a) (nextTicket : Nat)
    (quiet : liveBlocks (trace ++ events) = liveBlocks trace)
    (live : (a.frames index).live = true) (same : r.live = true)
    (capacity : r.capacity = (a.frames index).capacity) (buf : r.buf = (a.frames index).buf) :
    Stored (trace ++ events) { a.setFrame index r with nextTicket := nextTicket } := by
  have at_index : (a.setFrame index r).frames index = r := setFrame_frames_self
  refine stored.relabel quiet rfl rfl ?_ ?_ ?_ ?_ <;> intro other <;>
    by_cases here : other = index
  · subst here
    simp [same]
  · simpa only [setFrame_frames_other here] using stored.zeroed other
  · subst here
    simp [same, live]
  · simp only [setFrame_frames_other here]
  · subst here
    simp [capacity]
  · simp only [setFrame_frames_other here]
  · subst here
    simp [buf]
  · simp only [setFrame_frames_other here]

/-- Disposing of a record gives back what it holds, and nothing else. -/
theorem dispose (stored : Stored trace a) (index : FrameIndex) :
    Stored (trace ++ (a.dispose index).2) (a.dispose index).1 ∧
      Guarded.Continues FreesLive trace (a.dispose index).2 := by
  have split := stored.memory.trans (slots_split (fun index => (a.frames index).blocks) index)
  obtain ⟨frees, left⟩ := free_blocks stored.separate split
  have others : ∀ other, other ≠ index → ((a.dispose index).1.frames other) = a.frames other :=
    fun other different => setFrame_frames_other different
  have self : (a.dispose index).1.frames index = .zero := setFrame_frames_self
  have counted : ∑ other, (a.frames other).bytes + 0 =
      ∑ other, ((a.dispose index).1.frames other).bytes + (a.frames index).bytes := by
    have sums := sum_others (f := fun other => (a.frames other).bytes)
      (g := fun other => ((a.dispose index).1.frames other).bytes) index
      (fun other different => by rw [others other different])
    simpa only [self, Allocation.bytes, Allocation.zero] using sums
  have remaining : (a.dispose index).1.used = a.used - (a.frames index).bytes := rfl
  have total := stored.used
  refine ⟨{ zeroed := ?_, sized := ?_, separate := ?_, memory := ?_, used := ?_, budget := ?_ },
    frees⟩
  · intro other dead
    by_cases here : other = index
    · rw [here, self]
    · rw [others other here] at dead ⊢
      exact stored.zeroed other dead
  · intro other alive
    by_cases here : other = index
    · rw [here, self] at alive
      cases alive
    · rw [others other here] at alive ⊢
      exact stored.sized other alive
  · exact (stored.separate.perm split).right.perm left.symm
  · refine left.trans ?_
    have whole := slots_split (fun other => ((a.dispose index).1.frames other).blocks) index
    rw [slots_others (g := fun other => (a.frames other).blocks)
      (fun other different => by rw [others other different])] at whole
    simp only [self] at whole
    exact whole.symm
  · omega
  · have within := stored.budget
    have same : (a.dispose index).1.budget = a.budget := rfl
    omega

/-- A new record takes the memory that was obtained for it. -/
theorem allocate {r : Allocation} (stored : Stored trace a) (free : (a.frames index).live = false)
    (alive : r.live = true) (sized : r.capacity 0 ≠ 0) (fits : r.bytes ≤ a.budget - a.used)
    (separate : Separate (liveBlocks (trace ++ events)))
    (obtained : (liveBlocks (trace ++ events)).Perm (r.blocks ++ liveBlocks trace)) :
    Stored (trace ++ events) { a.setFrame index r with used := a.used + r.bytes } := by
  have self : (a.setFrame index r).frames index = r := setFrame_frames_self
  have others : ∀ other, other ≠ index → (a.setFrame index r).frames other = a.frames other :=
    fun other different => setFrame_frames_other different
  have counted : ∑ other, (a.frames other).bytes + r.bytes =
      ∑ other, ((a.setFrame index r).frames other).bytes + 0 := by
    have sums := sum_others (f := fun other => (a.frames other).bytes)
      (g := fun other => ((a.setFrame index r).frames other).bytes) index
      (fun other different => by rw [others other different])
    simpa only [self, stored.zeroed index free, Allocation.zero, Allocation.bytes] using sums
  have total := stored.used
  have within := stored.budget
  refine { zeroed := ?_, sized := ?_, separate := separate, memory := ?_, used := ?_, budget := ?_ }
  · intro other dead
    by_cases here : other = index
    · subst here
      simp [alive] at dead
    · simp only [others other here] at dead ⊢
      exact stored.zeroed other dead
  · intro other lives
    by_cases here : other = index
    · subst here
      simpa using sized
    · simp only [others other here] at lives ⊢
      exact stored.sized other lives
  · have before := stored.memory.trans (slots_split (fun index => (a.frames index).blocks) index)
    have whole := slots_split (fun other => ((a.setFrame index r).frames other).blocks) index
    rw [slots_others (g := fun other => (a.frames other).blocks)
      (fun other different => by rw [others other different])] at whole
    simp only [self] at whole
    simp only [stored.zeroed index free] at before
    exact obtained.trans ((before.append_left r.blocks).trans whole.symm)
  · show a.used + r.bytes = ∑ other, ((a.setFrame index r).frames other).bytes
    omega
  · show a.used + r.bytes ≤ a.budget
    omega

end Stored

/-! ## What each call does -/

theorem newFrame_blocks {buf : MppBuf} {capacity answers : Plane → Nat} :
    (newFrame buf capacity answers).blocks =
      ((List.finRange 3).filter fun plane => capacity plane ≠ 0).map
        (planeBlock capacity answers) := by
  refine List.map_congr_left fun plane member => ?_
  have needed : (newFrame buf capacity answers).capacity plane ≠ 0 := by
    simpa using (List.mem_filter.mp member).2
  have positive : capacity plane ≠ 0 := needed
  simp [newFrame, planeBlock, positive]

/-- It fails with nothing changed, or it fills a free slot. -/
theorem allocate_cases (a : Allocator) (frame : Option MppBuf) (stride height : Int)
    (format : PixelFormat) (answers : Plane → Nat) :
    a.allocate frame stride height format answers = (none, a, []) ∨
    (∃ capacity, (obtain capacity answers (List.finRange 3) []).1 = false ∧
      a.allocate frame stride height format answers =
        (none, a, (obtain capacity answers (List.finRange 3) []).2)) ∨
    ∃ buf capacity slot returned, capacity 0 ≠ 0 ∧ (a.frames slot).live = false ∧
      (newFrame buf capacity answers).bytes ≤ a.budget - a.used ∧
      (obtain capacity answers (List.finRange 3) []).1 = true ∧
      a.allocate frame stride height format answers = (some returned,
        { a.setFrame slot (newFrame buf capacity answers) with
          used := a.used + (newFrame buf capacity answers).bytes },
        (obtain capacity answers (List.finRange 3) []).2 ++
          [.allocated slot (newFrame buf capacity answers).blocks]) := by
  cases frame with
  | none => exact .inl rfl
  | some frame =>
      cases laid : layout { MppBuf.zero with width := frame.width } stride height format with
      | none => exact .inl (by simp only [allocate, laid])
      | some view =>
          obtain ⟨buf, capacity⟩ := view
          cases found : firstFrame fun index => !(a.frames index).live with
          | none => exact .inl (by simp only [allocate, laid, found])
          | some slot =>
              have free : (a.frames slot).live = false := by
                simpa using firstFrame_holds found
              by_cases short : a.budget - a.used < capacity 0 + capacity 1 + capacity 2
              · exact .inl (by simp only [allocate, laid, found, short, if_true])
              · cases result : (obtain capacity answers (List.finRange 3) []).1 with
                | false =>
                    exact .inr (.inl ⟨capacity, result, by
                      simp only [allocate, laid, found, short, result, if_false, Bool.not_false,
                        if_true]⟩)
                | true =>
                    exact .inr (.inr ⟨buf, capacity, slot, _, layout_sized laid, free,
                      Nat.not_lt.mp short, result, by
                        simp only [allocate, laid, found, short, result, if_false, Bool.not_true,
                          Bool.false_eq_true]
                        rfl⟩)

theorem freeFrame_cases (a : Allocator) (frame : Option MppBuf) :
    (∃ answer, a.freeFrame frame = (answer, a, [])) ∨
    ∃ index, (a.frames index).live = true ∧ (a.frames index).retired = false ∧
      (((a.frames index).ticket ≠ 0 ∧ a.freeFrame frame =
          (true, a.setFrame index { a.frames index with retired := true }, [.sdkFreed index])) ∨
        ((a.frames index).ticket = 0 ∧ a.freeFrame frame =
          (true, (a.dispose index).1, .sdkFreed index :: (a.dispose index).2))) := by
  cases frame with
  | none => exact .inl ⟨_, rfl⟩
  | some frame =>
      cases found : firstFrame fun index => «matches» (a.frames index) frame with
      | none => exact .inl ⟨_, by simp only [freeFrame, found]; rfl⟩
      | some index =>
          have same := firstFrame_holds found
          simp only [«matches», Bool.and_eq_true] at same
          cases retired : (a.frames index).retired with
          | true => exact .inl ⟨_, by simp only [freeFrame, found, retired, if_true]; rfl⟩
          | false =>
              refine .inr ⟨index, same.1.1.1, retired, ?_⟩
              by_cases pinned : (a.frames index).ticket = 0
              · exact .inr ⟨pinned, by simp [freeFrame, found, retired, pinned]⟩
              · exact .inl ⟨pinned, by simp [freeFrame, found, retired, pinned]⟩

theorem acquire_cases (a : Allocator) (frame : Option MppBuf) :
    a.acquire frame = (none, a, []) ∨
    ∃ view index, frame = some view ∧ a.pinnable view (a.frames index) = true ∧
      a.acquire frame = (some ((a.frames index).capacity, a.nextTicket + 1),
        { a.setFrame index { a.frames index with ticket := a.nextTicket + 1 } with
          nextTicket := a.nextTicket + 1 },
        [.pinned index (a.nextTicket + 1)]) := by
  cases frame with
  | none => exact .inl rfl
  | some view =>
      cases found : firstFrame fun index => a.pinnable view (a.frames index) with
      | none => exact .inl (by simp only [acquire, found])
      | some index =>
          exact .inr ⟨view, index, rfl, firstFrame_holds found, by simp only [acquire, found]⟩

theorem release_cases (a : Allocator) (ticket : Nat) :
    a.release ticket = (false, a, []) ∨
    ∃ index, (a.frames index).ticket = ticket ∧ ticket ≠ 0 ∧
      (((a.frames index).retired = false ∧ a.release ticket =
          (true, a.setFrame index { a.frames index with ticket := 0 }, [.unpinned index])) ∨
        ((a.frames index).retired = true ∧ a.release ticket =
          (true, ((a.setFrame index { a.frames index with ticket := 0 }).dispose index).1,
            .unpinned index ::
              ((a.setFrame index { a.frames index with ticket := 0 }).dispose index).2))) := by
  by_cases zero : ticket = 0
  · exact .inl (by simp only [release, zero, if_true])
  · cases found : firstFrame fun index => (a.frames index).ticket == ticket with
    | none => exact .inl (by simp only [release, zero, found, if_false])
    | some index =>
        have same := firstFrame_holds found
        refine .inr ⟨index, by simpa using same, zero, ?_⟩
        cases retired : (a.frames index).retired with
        | false => exact .inl ⟨rfl, by simp [release, zero, found, retired]⟩
        | true => exact .inr ⟨rfl, by simp [release, zero, found, retired]⟩

theorem pinnable_cases {frame : MppBuf} {r : Allocation} (pinnable : a.pinnable frame r = true) :
    «matches» r frame = true ∧ r.retired = false ∧ r.ticket = 0 ∧ a.nextTicket ≠ 2 ^ 64 - 1 ∧
      ∃ view capacity, layout { MppBuf.zero with width := frame.width } (frame.stride 0)
        frame.height frame.format = some (view, capacity) ∧
        (∀ plane, view.stride plane = frame.stride plane) ∧
        ∀ plane, capacity plane ≤ r.capacity plane := by
  simp only [Allocator.pinnable, Bool.and_eq_true, Bool.not_eq_true', decide_eq_true_eq]
    at pinnable
  obtain ⟨⟨⟨⟨⟨⟨⟨same, unretired⟩, unpinned⟩, left⟩, _⟩, _⟩, _⟩, fits⟩ := pinnable
  refine ⟨same, unretired, unpinned, left, ?_⟩
  split at fits
  · cases fits
  · rename_i view capacity laid
    simp only [Bool.and_eq_true, List.all_eq_true, List.mem_finRange, forall_const,
      decide_eq_true_eq] at fits
    exact ⟨view, capacity, laid, fits.1, fits.2⟩

theorem matches_live {frame : MppBuf} {r : Allocation} (same : «matches» r frame = true) :
    r.live = true := by
  simp only [«matches», Bool.and_eq_true] at same
  exact same.1.1.1

/-! ## Custody -/

theorem frameCustody_append : frameCustody (trace ++ events) =
    events.foldl AllocatorEvent.onCustody (frameCustody trace) := by
  simp [frameCustody, List.foldl_append]

theorem memory_custody (only : ∀ event ∈ events, event.onMemory = true) :
    frameCustody (trace ++ events) = frameCustody trace := by
  rw [frameCustody_append]
  induction events with
  | nil => rfl
  | cons event rest ih =>
      have first := only event List.mem_cons_self
      rw [List.foldl_cons]
      cases event with
      | obtained | freed => exact ih fun event member => only event (List.mem_cons_of_mem _ member)
      | _ => cases first

theorem dispose_memory : ∀ event ∈ (a.dispose index).2, event.onMemory = true := by
  intro event member
  obtain ⟨block, _, rfl⟩ := List.mem_map.mp member
  rfl

theorem obtain_memory {capacity answers : Plane → Nat} {planes held : List Plane} :
    ∀ event ∈ (obtain capacity answers planes held).2, event.onMemory = true := by
  induction planes generalizing held with
  | nil => nofun
  | cons plane rest ih =>
      intro event member
      simp only [obtain] at member
      split at member
      · exact ih event member
      · split at member
        · rcases List.mem_append.mp member with taken | back
          · split at taken
            · cases taken
            · simp only [List.mem_cons, List.not_mem_nil, or_false] at taken
              rcases taken with rfl | rfl <;> rfl
          · obtain ⟨plane, _, rfl⟩ := List.mem_map.mp back
            rfl
        · rcases List.mem_cons.mp member with rfl | later
          · rfl
          · exact ih event later

theorem Tracked.update (tracked : Tracked trace a) (index : FrameIndex)
    (custody : ∀ other, other ≠ index →
      frameCustody (trace ++ events) other = frameCustody trace other)
    (frames : ∀ other, other ≠ index → b.frames other = a.frames other)
    (own : Tracks (frameCustody (trace ++ events) index) (b.frames index)) :
    Tracked (trace ++ events) b := by
  intro other
  by_cases here : other = index
  · rw [here]
    exact own
  · rw [custody other here, frames other here]
    exact tracked other

/-! ## Tickets -/

theorem Ticketed.update {r : Allocation} (ticketed : Ticketed a) {nextTicket : Nat}
    (later : a.nextTicket ≤ nextTicket) (retired : r.retired = true → r.ticket ≠ 0)
    (issued : r.ticket ≤ nextTicket)
    (own : r.ticket ≠ 0 → ∀ other, other ≠ index → (a.frames other).ticket ≠ r.ticket)
    (frames : ∀ other, other ≠ index → b.frames other = a.frames other)
    (self : b.frames index = r) (next : b.nextTicket = nextTicket) : Ticketed b where
  retired other := by
    by_cases here : other = index
    · rw [here, self]
      exact retired
    · rw [frames other here]
      exact ticketed.retired other
  issued other := by
    rw [next]
    by_cases here : other = index
    · rw [here, self]
      exact issued
    · rw [frames other here]
      exact (ticketed.issued other).trans later
  distinct first second same pinned := by
    by_cases here : first = index
    · by_cases there : second = index
      · exact here.trans there.symm
      · rw [here, self] at same pinned
        rw [frames second there] at same
        exact absurd same.symm (own pinned second there)
    · by_cases there : second = index
      · rw [there, self, frames first here] at same
        rw [frames first here, same] at pinned
        exact absurd same (own pinned first here)
      · rw [frames first here, frames second there] at same
        rw [frames first here] at pinned
        exact ticketed.distinct first second same pinned

theorem Ticketed.clear (ticketed : Ticketed a) (index : FrameIndex)
    (frames : ∀ other, other ≠ index → b.frames other = a.frames other)
    (self : b.frames index = .zero) (next : b.nextTicket = a.nextTicket) : Ticketed b :=
  ticketed.update le_rfl (by decide) (Nat.zero_le _) (fun pinned => absurd rfl pinned) frames self
    next

theorem Ticketed.dispose (ticketed : Ticketed a) : Ticketed (a.dispose index).1 :=
  ticketed.clear index (fun _ different => setFrame_frames_other different) setFrame_frames_self rfl

/-! ## The invariant -/

structure Accounted (trace : List AllocatorEvent) (a : Allocator) : Prop where
  stored : Stored trace a
  ticketed : Ticketed a
  tracked : Tracked trace a
  guarded : Guarded FreesLive trace

theorem Accounted.idle (accounted : Accounted trace a) : Accounted (trace ++ []) a := by
  rwa [List.append_nil]

theorem Accounted.begin {budget : Nat} (made : create budget = some a) : Accounted [] a := by
  unfold create at made
  split at made
  · cases made
  · simp only [Option.some.injEq] at made
    subst made
    exact {
      stored := {
        zeroed := fun _ _ => rfl
        sized := nofun
        separate := ⟨.nil, nofun⟩
        memory := by simp [liveBlocks, Allocation.blocks, Allocation.zero]
        used := by simp [Allocation.bytes, Allocation.zero]
        budget := Nat.zero_le _ }
      ticketed := {
        retired := nofun
        issued := fun _ => le_rfl
        distinct := fun _ _ _ pinned => absurd rfl pinned }
      tracked := fun _ => rfl
      guarded := .nil }

/-- What a failed `allocate` obtained is free again. -/
theorem Stored.failed {capacity answers : Plane → Nat} (stored : Stored trace a)
    (refused : (obtain capacity answers (List.finRange 3) []).1 = false)
    (fresh : Guarded.Continues FreshBlock trace (obtain capacity answers (List.finRange 3) []).2) :
    (liveBlocks (trace ++ (obtain capacity answers (List.finRange 3) []).2)).Perm
      (liveBlocks trace) :=
  (obtain_blocks [] stored.separate (.refl _) fresh).none refused

theorem Accounted.allocate (accounted : Accounted trace a) {frame : Option MppBuf}
    {stride height : Int} {format : PixelFormat} {answers : Plane → Nat}
    (fresh : Guarded.Continues FreshBlock trace
      (a.allocate frame stride height format answers).2.2) :
    Accounted (trace ++ (a.allocate frame stride height format answers).2.2)
      (a.allocate frame stride height format answers).2.1 := by
  obtain ⟨stored, ticketed, tracked, guarded⟩ := accounted
  rcases a.allocate_cases frame stride height format answers with
    same | ⟨capacity, refused, same⟩ |
      ⟨buf, capacity, slot, returned, sized, free, fits, granted, same⟩
  · rw [same]
    exact Accounted.idle ⟨stored, ticketed, tracked, guarded⟩
  · rw [same] at fresh ⊢
    have obtains := obtain_blocks [] stored.separate (.refl _) fresh
    have back := stored.failed refused fresh
    refine ⟨?_, ticketed, ?_, guarded.append obtains.frees⟩
    · exact ⟨stored.zeroed, stored.sized, obtains.separate, back.trans stored.memory, stored.used,
        stored.budget⟩
    · show Tracked _ a
      intro index
      rw [memory_custody obtain_memory]
      exact tracked index
  · rw [same] at fresh ⊢
    have obtains := obtain_blocks [] stored.separate (.refl _) fresh.left
    have kept := obtains.kept granted
    have quiet : liveBlocks (trace ++ ((obtain capacity answers (List.finRange 3) []).2 ++
        [.allocated slot (newFrame buf capacity answers).blocks])) =
        liveBlocks (trace ++ (obtain capacity answers (List.finRange 3) []).2) := by
      rw [← List.append_assoc, liveBlocks_snoc]
      rfl
    have custody : frameCustody (trace ++ ((obtain capacity answers (List.finRange 3) []).2 ++
        [.allocated slot (newFrame buf capacity answers).blocks])) =
        Function.update (frameCustody trace) slot
          { blocks := (newFrame buf capacity answers).blocks, sdkFreed := false, pinned := false } := by
      rw [← List.append_assoc, frameCustody_append, memory_custody obtain_memory]
      rfl
    refine ⟨?_, ?_, ?_, ?_⟩
    · refine stored.allocate free rfl sized fits ?_ ?_
      · rw [quiet]
        exact obtains.separate
      · rw [quiet, newFrame_blocks]
        exact kept
    · refine ticketed.update (r := newFrame buf capacity answers) le_rfl nofun (Nat.zero_le _)
        (fun pinned => absurd rfl pinned) (fun _ different => setFrame_frames_other different)
        setFrame_frames_self rfl
    · refine tracked.update slot (fun other different => ?_)
        (fun _ different => setFrame_frames_other different) ?_
      · rw [custody, Function.update_of_ne different]
      · show Tracks _ ((a.setFrame slot (newFrame buf capacity answers)).frames slot)
        rw [custody, Function.update_self, setFrame_frames_self]
        rfl
    · rw [← List.append_assoc]
      exact (guarded.append obtains.frees).snoc trivial

/-- A record without its frame's custody can be disposed of. -/
theorem Accounted.dispose (stored : Stored trace a) (ticketed : Ticketed (a.dispose index).1)
    (guarded : Guarded FreesLive trace)
    (tracked : ∀ other, other ≠ index → Tracks (frameCustody trace other) (a.frames other))
    (spent : (frameCustody trace index).outstanding = []) :
    Accounted (trace ++ (a.dispose index).2) (a.dispose index).1 := by
  obtain ⟨left, frees⟩ := stored.dispose index
  refine ⟨left, ticketed, fun other => ?_, guarded.append frees⟩
  rw [memory_custody dispose_memory]
  by_cases here : other = index
  · subst here
    rw [show (a.dispose other).1.frames other = .zero from setFrame_frames_self]
    exact spent
  · rw [show (a.dispose index).1.frames other = a.frames other from setFrame_frames_other here]
    exact tracked other here

theorem Accounted.freeFrame (accounted : Accounted trace a) (frame : Option MppBuf) :
    Accounted (trace ++ (a.freeFrame frame).2.2) (a.freeFrame frame).2.1 := by
  obtain ⟨stored, ticketed, tracked, guarded⟩ := accounted
  rcases a.freeFrame_cases frame with
    ⟨answer, same⟩ | ⟨index, live, unretired, ⟨pinned, same⟩ | ⟨unpinned, same⟩⟩
  · rw [same]
    exact Accounted.idle ⟨stored, ticketed, tracked, guarded⟩
  · have own := tracked index
    simp only [Tracks, live, if_true] at own
    rw [same]
    refine ⟨?_, ?_, ?_, guarded.snoc trivial⟩
    · exact stored.update a.nextTicket (by rw [liveBlocks_snoc]; rfl) live live rfl rfl
    · exact ticketed.update (r := { a.frames index with retired := true }) le_rfl
        (fun _ => pinned) (ticketed.issued index)
        (fun _ other different equal => different (ticketed.distinct other index equal
          (equal ▸ pinned)))
        (fun _ different => setFrame_frames_other different) setFrame_frames_self rfl
    · refine tracked.update index (fun other different => ?_)
        (fun _ different => setFrame_frames_other different) ?_
      · rw [frameCustody_append]
        exact Function.update_of_ne different _ _
      · show Tracks _ ((a.setFrame index { a.frames index with retired := true }).frames index)
        rw [setFrame_frames_self, frameCustody_append]
        simp [AllocatorEvent.onCustody, Tracks, own, live, Allocation.blocks]
  · have own := tracked index
    simp only [Tracks, live, if_true] at own
    rw [same, show trace ++ AllocatorEvent.sdkFreed index :: (a.dispose index).2 =
      (trace ++ [.sdkFreed index]) ++ (a.dispose index).2 by simp]
    have stored : Stored (trace ++ [.sdkFreed index]) a :=
      stored.relabel (by rw [liveBlocks_snoc]; rfl) rfl rfl stored.zeroed (fun _ => rfl)
        (fun _ => rfl) fun _ => rfl
    refine Accounted.dispose stored ticketed.dispose (guarded.snoc trivial) (fun other different => ?_) ?_
    · rw [frameCustody_append]
      simpa [AllocatorEvent.onCustody, different] using tracked other
    · rw [frameCustody_append]
      simp [AllocatorEvent.onCustody, FrameCustody.outstanding, own, unpinned]

theorem Accounted.acquire (accounted : Accounted trace a) (frame : Option MppBuf) :
    Accounted (trace ++ (a.acquire frame).2.2) (a.acquire frame).2.1 := by
  obtain ⟨stored, ticketed, tracked, guarded⟩ := accounted
  rcases a.acquire_cases frame with same | ⟨view, index, _, pinnable, same⟩
  · rw [same]
    exact Accounted.idle ⟨stored, ticketed, tracked, guarded⟩
  · obtain ⟨found, unretired, _, _⟩ := pinnable_cases pinnable
    have live := matches_live found
    have own := tracked index
    simp only [Tracks, live, if_true] at own
    rw [same]
    refine ⟨?_, ?_, ?_, guarded.snoc trivial⟩
    · exact stored.update _ (by rw [liveBlocks_snoc]; rfl) live live rfl rfl
    · refine ticketed.update (r := { a.frames index with ticket := a.nextTicket + 1 })
        (Nat.le_succ _) (fun _ => Nat.succ_ne_zero _) le_rfl (fun _ other _ equal => ?_)
        (fun _ different => setFrame_frames_other different) setFrame_frames_self rfl
      have issued := ticketed.issued other
      simp only at equal
      omega
    · refine tracked.update index (fun other different => ?_)
        (fun _ different => setFrame_frames_other different) ?_
      · rw [frameCustody_append]
        exact Function.update_of_ne different _ _
      · show Tracks _ ((a.setFrame index
          { a.frames index with ticket := a.nextTicket + 1 }).frames index)
        rw [setFrame_frames_self, frameCustody_append]
        simp [AllocatorEvent.onCustody, Tracks, own, live, Allocation.blocks]

theorem Accounted.release (accounted : Accounted trace a) (ticket : Nat) :
    Accounted (trace ++ (a.release ticket).2.2) (a.release ticket).2.1 := by
  obtain ⟨stored, ticketed, tracked, guarded⟩ := accounted
  rcases a.release_cases ticket with
    same | ⟨index, holds, pinned, ⟨unretired, same⟩ | ⟨retired, same⟩⟩
  · rw [same]
    exact Accounted.idle ⟨stored, ticketed, tracked, guarded⟩
  · have live := stored.pinned_live index (by rwa [holds])
    have own := tracked index
    simp only [Tracks, live, if_true] at own
    rw [same]
    refine ⟨?_, ?_, ?_, guarded.snoc trivial⟩
    · exact stored.update a.nextTicket (by rw [liveBlocks_snoc]; rfl) live live rfl rfl
    · exact ticketed.update (r := { a.frames index with ticket := 0 }) le_rfl
        (fun gone => absurd gone (by simp [unretired])) (Nat.zero_le _)
        (fun none => absurd rfl none) (fun _ different => setFrame_frames_other different)
        setFrame_frames_self rfl
    · refine tracked.update index (fun other different => ?_)
        (fun _ different => setFrame_frames_other different) ?_
      · rw [frameCustody_append]
        exact Function.update_of_ne different _ _
      · show Tracks _ ((a.setFrame index { a.frames index with ticket := 0 }).frames index)
        rw [setFrame_frames_self, frameCustody_append]
        simp [AllocatorEvent.onCustody, Tracks, own, live, Allocation.blocks]
  · have live := stored.pinned_live index (by rwa [holds])
    have own := tracked index
    simp only [Tracks, live, if_true] at own
    rw [same, show ∀ rest, trace ++ AllocatorEvent.unpinned index :: rest =
      (trace ++ [.unpinned index]) ++ rest by simp]
    have unpinned : Stored (trace ++ [.unpinned index])
        (a.setFrame index { a.frames index with ticket := 0 }) :=
      stored.update a.nextTicket (by rw [liveBlocks_snoc]; rfl) live live rfl rfl
    have cleared : Ticketed
        ((a.setFrame index { a.frames index with ticket := 0 }).dispose index).1 := by
      refine ticketed.clear index (fun other different => ?_) setFrame_frames_self rfl
      exact (setFrame_frames_other different).trans (setFrame_frames_other different)
    refine Accounted.dispose unpinned cleared (guarded.snoc trivial)
      (fun other different => ?_) ?_
    · rw [frameCustody_append, setFrame_frames_other different]
      simpa [AllocatorEvent.onCustody, different] using tracked other
    · rw [frameCustody_append]
      simp [AllocatorEvent.onCustody, FrameCustody.outstanding, own, retired]

theorem Accounted.step (accounted : Accounted trace a) {call : AllocatorCall}
    (contract : MallocContract trace a call) :
    Accounted (trace ++ (a.perform call).2) (a.perform call).1 := by
  cases call with
  | allocate frame stride height format answers => exact accounted.allocate contract
  | freeFrame frame => exact accounted.freeFrame frame
  | acquire frame => exact accounted.acquire frame
  | release ticket => exact accounted.release ticket
  | destroy =>
      simp only [perform, destroy]
      split
      · exact accounted.idle
      · obtain ⟨stored, ticketed, tracked, guarded⟩ := accounted
        refine ⟨?_, ?_, ?_, guarded.snoc trivial⟩
        · exact stored.relabel (by rw [liveBlocks_snoc]; rfl) rfl rfl stored.zeroed (fun _ => rfl)
            (fun _ => rfl) fun _ => rfl
        · exact ⟨ticketed.retired, ticketed.issued, ticketed.distinct⟩
        · intro index
          rw [frameCustody_append]
          exact tracked index

theorem blocks_nil {r : Allocation} : r.blocks = [] ↔ r.bytes = 0 := by
  have planes : r.blocks = [] ↔ ∀ plane, r.capacity plane = 0 := by
    simp [Allocation.blocks, List.filter_eq_nil_iff]
  rw [planes]
  simp only [Allocation.bytes, Fin.forall_fin_succ, Nat.add_eq_zero_iff]
  simp
  tauto

theorem Stored.empty (stored : Stored trace a) : a.used = 0 ↔ liveBlocks trace = [] := by
  have none : liveBlocks trace = [] ↔ ∀ index, (a.frames index).blocks = [] := by
    rw [show (liveBlocks trace = [] ↔ (List.finRange frameCount).flatMap
      (fun index => (a.frames index).blocks) = []) from
        ⟨fun gone => List.perm_nil.mp (gone ▸ stored.memory.symm),
          fun gone => List.perm_nil.mp (gone ▸ stored.memory)⟩]
    simp [List.flatMap_eq_nil_iff]
  rw [none, stored.used, Finset.sum_eq_zero_iff]
  simp only [Finset.mem_univ, forall_const, blocks_nil]

theorem Tracked.outstanding (stored : Stored trace a) (tracked : Tracked trace a)
    (ticketed : Ticketed a) (index : FrameIndex) :
    (frameCustody trace index).outstanding = (a.frames index).blocks := by
  have own := tracked index
  cases live : (a.frames index).live with
  | false =>
      simp only [Tracks, live, Bool.false_eq_true, if_false] at own
      rw [own, stored.zeroed index live]
      rfl
  | true =>
      simp only [Tracks, live, if_true] at own
      rw [own, FrameCustody.outstanding]
      refine if_neg fun gone => ?_
      simp only [Bool.and_eq_true, Bool.not_eq_true', decide_eq_false_iff_not, ne_eq,
        not_not] at gone
      exact ticketed.retired index gone.1 gone.2

end Allocator

instance MallocContract.decidable (trace : List AllocatorEvent) (a : Allocator)
    (call : AllocatorCall) : Decidable (MallocContract trace a call) :=
  inferInstanceAs (Decidable (Guarded.Continues FreshBlock trace _))

end LvglAic.Player
