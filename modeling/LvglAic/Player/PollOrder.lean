import LvglAic.Player.FramesCustody

/-! # The order of polled frames

Leases are numbered as they are acquired.  A slot moves through the queue from
BUILDING to PUBLISHING; the queue is ordered when a slot further along always
holds an older lease.
-/

namespace LvglAic.Player

/-- The leases of the polled images, oldest poll first. -/
def polledLeases (trace : List FrameEvent) : List Nat :=
  trace.filterMap fun
    | .polled lease _ => some lease
    | _ => none

/-- How far a slot is from being polled; four stands outside the queue. -/
def SlotState.rank : SlotState → Nat
  | .publishing => 0
  | .ready => 1
  | .deferred => 2
  | .building => 3
  | _ => 4

namespace Frames

/-- Older leases are further along, and every queued lease is newer than the
images polled so far. -/
structure Ordered (trace : List FrameEvent) (f : Frames) : Prop where
  increasing : (polledLeases trace).Pairwise (· < ·)
  submitted : ∀ lease ∈ polledLeases trace, .submitted lease .ok ∈ trace
  polled : ∀ index, (f.slots index).state.rank < 4 → ∀ lease ∈ polledLeases trace,
    lease < (f.slots index).lease
  ascending : ∀ i j, (f.slots i).state.rank < (f.slots j).state.rank →
    (f.slots j).state.rank < 4 → (f.slots i).lease < (f.slots j).lease
  ready : ∀ i j, (f.slots i).state = .ready → (f.slots j).state = .ready → i = j
  contended : ∀ i j, (f.slots i).state = .publishing → (f.slots j).state = .ready →
    f.preserve = false

/-- If this section of `drain` promotes a DEFERRED slot, no DEFERRED slot holds
an older lease than the lowest one. -/
def PromotesOldest (f : Frames) : Prop :=
  (∀ index, published (f.slots index).state = false) →
    ∀ index, (firstIndex fun index => (f.slots index).state == .deferred) = some index →
      ∀ other, (f.slots other).state = .deferred → (f.slots index).lease ≤ (f.slots other).lease

end Frames

/-- The worker submits in acquisition order; it may repeat a submit that has to
wait. -/
def SubmitContract (trace : List FrameEvent) (f : Frames) (action : FrameAction) : Prop :=
  FrameContract trace f action ∧
    match action with
    | .worker (.submit lease) _ =>
        ∀ earlier result, .submitted earlier result ∈ trace → earlier ≤ lease
    | _ => True

/-- The worker submits in acquisition order, and `drain` promotes the oldest
DEFERRED frame. -/
def OrderContract (trace : List FrameEvent) (f : Frames) (action : FrameAction) : Prop :=
  SubmitContract trace f action ∧
    match action with
    | .worker .resume _ => f.worker = .drainPromote → f.PromotesOldest
    | _ => True

section
variable {trace events : List FrameEvent} {f next : Frames} {lease : Nat} {slot : LeaseIndex}

@[simp] theorem polledLeases_append :
    polledLeases (trace ++ events) = polledLeases trace ++ polledLeases events :=
  List.filterMap_append

@[simp] theorem rank_publishing : SlotState.publishing.rank = 0 := rfl
@[simp] theorem rank_ready : SlotState.ready.rank = 1 := rfl
@[simp] theorem rank_deferred : SlotState.deferred.rank = 2 := rfl
@[simp] theorem rank_building : SlotState.building.rank = 3 := rfl
theorem rank_first {state : SlotState} (first : state.rank < 1) : state = .publishing := by
  cases state <;> simp [SlotState.rank] at first
  rfl

@[simp] theorem rank_empty : SlotState.empty.rank = 4 := rfl
@[simp] theorem rank_returning : SlotState.returning.rank = 4 := rfl

namespace Frames

/-- Slots that stay as they are or leave the queue keep it ordered. -/
theorem Ordered.retreat (ordered : Ordered trace f) (quiet : polledLeases events = [])
    (preserve : next.preserve = f.preserve)
    (slots : ∀ index, ((next.slots index).state = (f.slots index).state ∧
      (next.slots index).lease = (f.slots index).lease) ∨ (next.slots index).state.rank = 4) :
    Ordered (trace ++ events) next := by
  have ready := rank_ready
  have publishing := rank_publishing
  obtain ⟨increasing, submitted, polled, ascending, unique, contended⟩ := ordered
  constructor
  · simpa [quiet] using increasing
  · simp only [polledLeases_append, quiet, List.append_nil]
    exact fun lease member => List.mem_append_left _ (submitted lease member)
  · simp only [polledLeases_append, quiet, List.append_nil]
    grind
  · grind
  · grind
  · grind

/-- One slot that stays, or leaves the queue. -/
theorem Ordered.retreat_slot {new : FrameSlot} (ordered : Ordered trace f)
    (quiet : polledLeases events = []) (preserve : next.preserve = f.preserve)
    (slots : next.slots = Function.update f.slots slot new)
    (leaves : (new.state = (f.slots slot).state ∧ new.lease = (f.slots slot).lease) ∨
      new.state.rank = 4) : Ordered (trace ++ events) next := by
  refine ordered.retreat quiet preserve fun index => ?_
  rw [slots]
  by_cases same : index = slot
  · subst same
    simpa using leaves
  · simp [same]

/-- One slot takes a new place in the queue; the others stay or leave it. -/
theorem Ordered.place (slot : LeaseIndex) (new : FrameSlot) (ordered : Ordered trace f)
    (quiet : polledLeases events = []) (changed : next.slots slot = new)
    (others : ∀ index, index ≠ slot → ((next.slots index).state = (f.slots index).state ∧
      (next.slots index).lease = (f.slots index).lease) ∨ (next.slots index).state.rank = 4)
    (fresh : ∀ lease ∈ polledLeases trace, lease < new.lease)
    (newer : ∀ index, index ≠ slot → (next.slots index).state.rank < new.state.rank →
      (f.slots index).lease < new.lease)
    (older : ∀ index, index ≠ slot → new.state.rank < (next.slots index).state.rank →
      (next.slots index).state.rank < 4 → new.lease < (f.slots index).lease)
    (single : new.state = .ready → ∀ index, index ≠ slot → (next.slots index).state ≠ .ready)
    (contest : new.state = .ready → ∀ index, index ≠ slot →
      (next.slots index).state = .publishing → next.preserve = false)
    (contested : new.state = .publishing → ∀ index, (f.slots index).state ≠ .ready ∨ index = slot)
    (preserve : next.preserve = f.preserve) : Ordered (trace ++ events) next := by
  have ready := rank_ready
  have publishing := rank_publishing
  obtain ⟨increasing, submitted, polled, ascending, unique, contended⟩ := ordered
  subst changed
  refine ⟨?_, ?_, ?_, ?_, ?_, ?_⟩
  · simpa [quiet] using increasing
  · simp only [polledLeases_append, quiet, List.append_nil]
    exact fun lease member => List.mem_append_left _ (submitted lease member)
  · simp only [polledLeases_append, quiet, List.append_nil]
    intro index queued
    by_cases same : index = slot
    · subst same
      exact fresh
    · rcases others index same with ⟨state, lease⟩ | gone
      · rw [lease]
        exact polled index (state ▸ queued)
      · omega
  · intro i j lower queued
    by_cases left : i = slot
    · subst left
      have apart : j ≠ i := by
        rintro rfl
        omega
      obtain ⟨_, lease⟩ := (others j apart).resolve_right (by omega)
      rw [lease]
      exact older j apart lower queued
    · obtain ⟨state, lease⟩ := (others i left).resolve_right (by omega)
      by_cases right : j = slot
      · subst right
        rw [lease]
        exact newer i left lower
      · obtain ⟨otherState, otherLease⟩ := (others j right).resolve_right (by omega)
        rw [lease, otherLease]
        exact ascending i j (state ▸ otherState ▸ lower) (otherState ▸ queued)
  · intro i j left right
    by_cases first : i = slot
    · subst first
      by_contra apart
      exact single left j (Ne.symm apart) right
    · by_cases second : j = slot
      · subst second
        exact absurd left (single right i first)
      · grind
  · grind

theorem Ordered.submit (ordered : Ordered trace f) (sound : Custody.Sound trace f.custody)
    (idle : f.worker = .idle)
    (later : ∀ earlier result, .submitted earlier result ∈ trace → earlier ≤ lease) :
    Ordered (trace ++ (f.submit lease).2) (f.submit lease).1 := by
  obtain ⟨same, _⟩ | ⟨_, _, same, _⟩ | ⟨slot, frame, held, empty, free, _, _, _, same⟩ :=
    submit_cases f lease
  · rw [same]
    exact ordered.retreat rfl rfl fun _ => .inl ⟨rfl, rfl⟩
  · rw [same]
    exact ordered.retreat rfl rfl fun _ => .inl ⟨rfl, rfl⟩
  · rw [same]
    have newer : ∀ index, (f.slots index).state ≠ .empty → (f.slots index).lease < lease := by
      intro index full
      refine Nat.lt_of_le_of_ne ?_ (free index full)
      have settled := sound.leases.settled index _ (custody_occupant.mpr ⟨full, rfl⟩)
      exact later _ .ok (settled.resolve_left (by simp [idle_rests idle]))
    have unpolled : ∀ other ∈ polledLeases trace, other < lease := by
      intro other member
      have submitted := ordered.submitted other member
      refine Nat.lt_of_le_of_ne (later _ .ok submitted) ?_
      rintro rfl
      rcases sound.leases.submitted other submitted with ⟨index, occupied⟩ | put
      · exact free index (custody_occupant.mp occupied).1 (custody_occupant.mp occupied).2
      · exact (sound.leases.gone other (.inl put)).1 held
    dsimp only
    refine ordered.place slot { f.slots slot with lease, state := .building } rfl
      (setSlot_same _ _ _) (fun index apart => .inl (by simp [setSlot, apart])) unpolled
      (fun index apart lower => newer index ?_) (fun index _ lower queued => ?_) (by simp) (by simp)
      (by simp) rfl
    · intro vacant
      simp [setSlot, apart, vacant] at lower
    · exact absurd lower (Nat.not_lt.mpr (Nat.le_of_lt_succ queued))

/-- While a submit is being published its slot holds the newest lease. -/
theorem Ordered.newest (ordered : Ordered trace f) (control : f.Control)
    (pc : f.worker = .submitPublish slot) (index : LeaseIndex) (apart : index ≠ slot)
    (queued : (f.slots index).state.rank < 4) :
    (f.slots index).state.rank < 3 ∧ (f.slots index).lease < (f.slots slot).lease := by
  obtain ⟨state, clean⟩ := (control.builds slot).mp (by rw [pc]; rfl)
  have building : (f.slots index).state ≠ .building := by
    intro building
    have builds := (control.builds index).mpr ⟨building, clean⟩
    rw [pc] at builds
    exact apart (Option.some.inj builds).symm
  have low : (f.slots index).state.rank < 3 := by
    cases found : (f.slots index).state <;> simp_all [SlotState.rank]
  exact ⟨low, ordered.ascending index slot (by simp [state, low]) (by simp [state])⟩

theorem Ordered.stepPublish (ordered : Ordered trace f) (control : f.Control)
    (pc : f.worker = .submitPublish slot) :
    Ordered (trace ++ (f.stepPublish slot).2) (f.stepPublish slot).1 := by
  have state : (f.slots slot).state = .building := ((control.builds slot).mp (by rw [pc]; rfl)).1
  have newest := ordered.newest control pc
  have fresh := ordered.polled slot (by simp [state])
  unfold Frames.stepPublish
  dsimp only
  split
  · refine ordered.place slot { f.slots slot with state := .deferred } rfl (setSlot_same _ _ _)
      (fun index apart => .inl (by simp [setState, setSlot, apart])) fresh
      (fun index apart lower => (newest index apart ?_).2) (fun index apart lower queued => ?_)
      (by simp) (by simp) (by simp) rfl
    · simp only [setState, setSlot_other _ _ _ apart, rank_deferred] at lower
      omega
    · simp only [setState, setSlot_other _ _ _ apart, rank_deferred] at lower queued
      have bound := (newest index apart queued).1
      omega
  · rename_i unqueued
    simp only [Bool.and_eq_true, Bool.not_eq_true', anySlot_true, not_and, not_exists] at unqueued
    have others : ∀ index, unconsumed (f.slots index).state = false ∧
        (f.retire unconsumed).slots index = f.slots index ∨
        ((f.retire unconsumed).slots index).state = .returning := by
      intro index
      cases waits : unconsumed (f.slots index).state with
      | true => exact .inr (by simp [retire, waits])
      | false => exact .inl ⟨rfl, by simp [retire, waits]⟩
    have kept : ∀ index new, index ≠ slot →
        ((((f.retire unconsumed).setSlot slot new).slots index).state = (f.slots index).state ∧
          (((f.retire unconsumed).setSlot slot new).slots index).lease = (f.slots index).lease) ∨
        (((f.retire unconsumed).setSlot slot new).slots index).state.rank = 4 := by
      intro index new apart
      rw [setSlot_other _ _ _ apart]
      rcases others index with ⟨_, same⟩ | gone
      · exact .inl (by simp [same])
      · exact .inr (by simp [gone])
    have base : (f.retire unconsumed).slots slot = f.slots slot := by
      simp [retire, state, unconsumed]
    cases opened : f.closing || f.quarantined with
    | true =>
        refine ordered.retreat rfl rfl fun index => ?_
        by_cases same : index = slot
        · subst same
          exact .inr (by simp [setState])
        · exact kept index _ same
    | false =>
        simp only [Bool.or_eq_false_iff] at opened
        have unready : ∀ index, index ≠ slot →
            (((f.retire unconsumed).setSlot slot { f.slots slot with state := .ready }).slots
              index).state ≠ .ready := by
          intro index apart
          rw [setSlot_other _ _ _ apart]
          rcases others index with ⟨settled, same⟩ | gone
          · rw [same]
            intro ready
            simp [ready, unconsumed] at settled
          · simp [gone]
        simp only [setState, base, Bool.false_eq_true, ↓reduceIte]
        refine ordered.place slot { f.slots slot with state := .ready } rfl (setSlot_same _ _ _)
          (fun index apart => kept index _ apart) fresh
          (fun index apart lower => (newest index apart ?_).2) (fun index apart lower queued => ?_)
          (fun _ => unready) (fun _ index apart publishing => ?_) (by simp) rfl
        · rcases kept index { f.slots slot with state := .ready } apart with ⟨same, _⟩ | gone
          · rw [← same]
            exact Nat.lt_trans lower (by simp)
          · exact absurd lower (by simp [gone])
        · rw [setSlot_other _ _ _ apart] at lower queued
          rcases others index with ⟨settled, same⟩ | gone
          · rw [same] at lower queued
            have bound := (newest index apart queued).1
            cases found : (f.slots index).state <;>
              simp [found, unconsumed, SlotState.rank] at settled lower bound
          · exact absurd queued (by simp [gone])
        · rw [setSlot_other _ _ _ apart, retire_state] at publishing
          by_contra preserve
          refine unqueued ⟨⟨Bool.eq_true_of_not_eq_false preserve, opened.1⟩, opened.2⟩ index ?_
          split at publishing
          · cases publishing
          · simp [publishing, published]

theorem Ordered.stepPromote (ordered : Ordered trace f) (sound : Custody.Sound trace f.custody)
    (oldest : f.PromotesOldest) : Ordered (trace ++ []) f.stepPromote := by
  unfold Frames.stepPromote
  obtain same | ⟨slot, unqueued, deferred, lowest, same⟩ := promote_cases f
  · rw [same]
    exact ordered.retreat rfl rfl fun _ => .inl ⟨rfl, rfl⟩
  · rw [same]
    have first := oldest unqueued slot lowest
    have waiting : ∀ index, (f.slots index).state.rank < 4 → 2 ≤ (f.slots index).state.rank := by
      intro index queued
      have unpublished := unqueued index
      cases found : (f.slots index).state <;> simp_all [SlotState.rank, published]
    cases f.closing with
    | true => exact ordered.retreat_slot rfl rfl rfl (.inr rfl)
    | false =>
        refine ordered.place slot { f.slots slot with state := .ready } rfl (setSlot_same _ _ _)
          (fun index apart => .inl (by simp [setState, setSlot, apart]))
          (ordered.polled slot (by simp [deferred])) (fun index apart lower => ?_)
          (fun index apart lower queued => ?_) (fun _ index apart => ?_)
          (fun _ index apart publishing => ?_) (by simp) rfl
        · rw [setState, setSlot_other _ _ _ apart] at lower
          have bound := waiting index (Nat.lt_trans lower (by simp))
          exact absurd bound (Nat.not_le.mpr (Nat.lt_trans lower (by simp)))
        · rw [setState, setSlot_other _ _ _ apart] at lower queued
          by_cases waits : (f.slots index).state = .deferred
          · refine Nat.lt_of_le_of_ne (first index waits) fun equal => apart ?_
            exact sound.leases.distinct index slot _
              (custody_occupant.mpr ⟨by simp [waits], equal.symm⟩)
              (custody_occupant.mpr ⟨by simp [deferred], rfl⟩)
          · refine ordered.ascending slot index ?_ queued
            cases found : (f.slots index).state <;>
              simp_all [SlotState.rank]
        · rw [setState, setSlot_other _ _ _ apart]
          intro ready
          simpa [ready, published] using unqueued index
        · rw [setState, setSlot_other _ _ _ apart] at publishing
          simpa [publishing, published] using unqueued index

theorem Ordered.poll {yuvOnly : Bool} (ordered : Ordered trace f) :
    Ordered (trace ++ (f.poll yuvOnly).2) (f.poll yuvOnly).1 := by
  obtain same | ⟨slot, _, _, ready, same⟩ := poll_cases f yuvOnly
  · rw [same]
    exact ordered.retreat rfl rfl fun _ => .inl ⟨rfl, rfl⟩
  · rw [same]
    dsimp only
    refine ordered.place slot { f.slots slot with state := .publishing } rfl (setSlot_same _ _ _)
      (fun index apart => .inl (by simp [setState, setSlot, apart]))
      (ordered.polled slot (by simp [ready])) (fun index apart lower => ?_)
      (fun index apart lower queued => ?_) (by simp) (by simp) (fun _ index => ?_) rfl
    · exact absurd lower (by simp)
    · simp only [setState, setSlot_other _ _ _ apart, rank_publishing] at lower queued
      refine ordered.ascending slot index ?_ queued
      have unpublished : (f.slots index).state ≠ .ready := fun other =>
        apart (ordered.ready index slot other ready)
      cases found : (f.slots index).state <;> simp_all [SlotState.rank]
    · by_cases other : (f.slots index).state = .ready
      · exact .inr (ordered.ready index slot other ready)
      · exact .inl other

/-- No other slot is PUBLISHING. -/
theorem publishing_unique (control : f.Control) (publishes : f.ui.publishes = some slot)
    (index : LeaseIndex) (publishing : (f.slots index).state = .publishing) : index = slot := by
  have other := (control.publishes index).mpr publishing
  rw [publishes] at other
  exact (Option.some.inj other).symm

theorem Ordered.stepCreate {ready : Bool} (ordered : Ordered trace f) (control : f.Control)
    (sound : Custody.Sound trace f.custody) (pc : f.ui = .creating slot) :
    Ordered (trace ++ (f.stepCreate slot ready).2) (f.stepCreate slot ready).1 := by
  obtain same | ⟨_, _, same⟩ := stepCreate_cases f slot ready
  · rw [same]
    exact ordered.retreat rfl rfl fun _ => .inl ⟨rfl, rfl⟩
  · rw [same]
    have publishes : f.ui.publishes = some slot := by rw [pc]; rfl
    have publishing := (control.publishes slot).mp publishes
    have unique := publishing_unique control publishes
    have settled : .submitted (f.slots slot).lease .ok ∈ trace := by
      refine (sound.leases.settled slot _ (custody_occupant.mpr ⟨by simp [publishing], rfl⟩))
        |>.resolve_left ?_
      simp [control.builds, publishing]
    have appended : polledLeases (trace ++ [.polled (f.slots slot).lease (f.slots slot).pts]) =
        polledLeases trace ++ [(f.slots slot).lease] := polledLeases_append
    have shown : Ordered (trace ++ []) { f.setState slot .published with
        images := f.images ++ [slot], ui := .idle } :=
      ordered.retreat_slot rfl rfl rfl (.inr rfl)
    rw [List.append_nil] at shown
    obtain ⟨increasing, submitted, polled, ascending, single, contended⟩ := shown
    refine ⟨?_, ?_, ?_, ascending, single, contended⟩
    · rw [appended, List.pairwise_append]
      refine ⟨increasing, List.pairwise_singleton _ _, fun lease member last final => ?_⟩
      rw [List.mem_singleton.mp final]
      exact ordered.polled slot (by simp [publishing]) lease member
    · rw [appended]
      intro lease member
      refine List.mem_append_left _ ?_
      rcases List.mem_append.mp member with earlier | final
      · exact submitted lease earlier
      · rw [List.mem_singleton.mp final]
        exact settled
    · rw [appended]
      intro index queued lease member
      rcases List.mem_append.mp member with earlier | final
      · exact polled index queued lease earlier
      · rw [List.mem_singleton.mp final]
        by_cases apart : index = slot
        · subst apart
          simp [setState, SlotState.rank] at queued
        · simp only [setState, setSlot_other _ _ _ apart] at queued ⊢
          refine ordered.ascending slot index ?_ queued
          rw [publishing, rank_publishing, Nat.pos_iff_ne_zero]
          exact fun first => apart (unique index (rank_first (by omega)))

theorem Ordered.stepFail (ordered : Ordered trace f) (control : f.Control)
    (pc : f.ui = .failing slot) : Ordered (trace ++ (f.stepFail slot).2) (f.stepFail slot).1 := by
  have publishes : f.ui.publishes = some slot := by rw [pc]; rfl
  have publishing := (control.publishes slot).mp publishes
  have unique := publishing_unique control publishes
  unfold Frames.stepFail
  split
  · rename_i kept
    simp only [Bool.and_eq_true, Bool.not_eq_true'] at kept
    have unready : ∀ index, (f.slots index).state ≠ .ready := by
      intro index ready
      have relaxed := ordered.contended slot index publishing ready
      rw [kept.1.1] at relaxed
      cases relaxed
    refine ordered.place slot { f.slots slot with state := .ready } rfl (setSlot_same _ _ _)
      (fun index apart => .inl (by simp [setState, setSlot, apart]))
      (ordered.polled slot (by simp [publishing])) (fun index apart lower => ?_)
      (fun index apart lower queued => ?_) (fun _ index apart => ?_)
      (fun _ index apart other => ?_) (by simp) rfl
    · simp only [setState, setSlot_other _ _ _ apart, rank_ready] at lower
      exact absurd (unique index (rank_first lower)) apart
    · simp only [setState, setSlot_other _ _ _ apart, rank_ready] at lower queued
      exact ordered.ascending slot index (by simp [publishing]; omega) queued
    · rw [setState, setSlot_other _ _ _ apart]
      exact unready index
    · rw [setState, setSlot_other _ _ _ apart] at other
      exact absurd (unique index other) apart
  · exact ordered.retreat_slot rfl rfl rfl (.inr rfl)

theorem nextSlot_polled {success : Bool} : polledLeases (f.nextSlot slot success).2 = [] := by
  unfold nextSlot
  split <;> rfl

theorem Ordered.stepWorker {call : WorkerCall} {answers : FrameAnswers}
    (ordered : Ordered trace f) (control : f.Control) (sound : Custody.Sound trace f.custody)
    (allowed : OrderContract trace f (.worker call answers))
    (moved : f.stepWorker call answers = some (next, events)) : Ordered (trace ++ events) next := by
  have stays : ∀ next events, polledLeases events = [] → next.preserve = f.preserve →
      next.slots = f.slots → Ordered (trace ++ events) next := by
    intro next events quiet preserve slots
    exact ordered.retreat quiet preserve fun index => .inl (by rw [slots]; exact ⟨rfl, rfl⟩)
  unfold Frames.stepWorker at moved
  split at moved
  case h_15 => cases moved
  all_goals
    rename_i pc
    obtain ⟨rfl, rfl⟩ := Prod.ext_iff.mp (Option.some.inj moved)
  case h_1 call =>
    refine stays _ _ ?_ (by cases call <;> rfl) (by cases call <;> rfl)
    cases call with
    | acquire =>
        unfold callSession
        dsimp only
        split <;> rfl
    | _ => rfl
  case h_2 => exact ordered.submit sound pc allowed.1.2
  case h_3 =>
    unfold drain
    split <;> exact stays _ _ rfl rfl rfl
  case h_4 =>
    refine ordered.retreat rfl rfl fun index => ?_
    simp only [Frames.close, retire]
    split
    · exact .inr rfl
    · exact .inl ⟨rfl, rfl⟩
  case h_5 =>
    unfold reopen
    split <;> exact stays _ _ rfl rfl rfl
  case h_6 => exact stays _ _ rfl rfl rfl
  case h_7 slot frame =>
    unfold stepPin
    dsimp only
    split
    · exact ordered.retreat_slot rfl rfl rfl (.inl ⟨rfl, rfl⟩)
    · split <;> exact ordered.retreat_slot rfl rfl rfl (.inl ⟨rfl, rfl⟩)
  case h_8 slot pin released =>
    unfold stepReject
    dsimp only
    split
    · exact ordered.retreat_slot rfl rfl rfl (.inr rfl)
    · exact ordered.retreat_slot rfl rfl rfl (.inl ⟨rfl, rfl⟩)
  case h_9 slot => exact ordered.stepPublish control pc
  case h_10 => exact ordered.stepPromote sound (allowed.2 pc)
  case h_11 slot success =>
    unfold stepDrainSlot
    split
    · exact ordered.retreat_slot rfl rfl rfl (.inr rfl)
    · refine stays _ _ nextSlot_polled ?_ nextSlot_slots
      unfold nextSlot
      split <;> rfl
  case h_12 slot success =>
    unfold stepDrainPin
    dsimp only
    split
    · exact stays _ _ rfl rfl rfl
    · refine ordered.retreat_slot ?_ rfl rfl (.inl ⟨rfl, rfl⟩)
      split <;> rfl
  case h_13 => exact stays _ _ rfl rfl rfl
  case h_14 slot success returned =>
    refine ordered.retreat_slot ?_ ?_ nextSlot_slots (.inr (by cases returned <;> rfl))
    · simp only [stepDrainStore, polledLeases_append, nextSlot_polled, List.append_nil]
      cases returned <;> rfl
    · unfold stepDrainStore nextSlot
      split <;> rfl

theorem Ordered.stepUi {call : UiCall} (ordered : Ordered trace f) (control : f.Control)
    (sound : Custody.Sound trace f.custody) (moved : f.stepUi call = some (next, events)) :
    Ordered (trace ++ events) next := by
  have stays : ∀ next events, polledLeases events = [] → next.preserve = f.preserve →
      next.slots = f.slots → Ordered (trace ++ events) next := by
    intro next events quiet preserve slots
    exact ordered.retreat quiet preserve fun index => .inl (by rw [slots]; exact ⟨rfl, rfl⟩)
  unfold Frames.stepUi at moved
  split at moved
  case h_7 slot pc =>
    unfold releaseImage at moved
    split at moved
    · obtain ⟨rfl, rfl⟩ := Prod.ext_iff.mp (Option.some.inj moved)
      exact ordered.retreat_slot rfl rfl rfl (.inr rfl)
    · cases moved
  case h_10 => cases moved
  all_goals
    rename_i pc
    obtain ⟨rfl, rfl⟩ := Prod.ext_iff.mp (Option.some.inj moved)
  case h_1 => exact ordered.poll
  case h_2 enabled =>
    rw [List.append_nil]
    refine { ordered with contended := fun i j publishing ready => ?_ }
    have publishes := (control.publishes i).mpr publishing
    rw [pc] at publishes
    cases publishes
  case h_3 =>
    refine ordered.retreat rfl rfl fun index => ?_
    simp only [Frames.close, retire]
    split
    · exact .inr rfl
    · exact .inl ⟨rfl, rfl⟩
  case h_4 =>
    unfold reopen
    split <;> exact stays _ _ rfl rfl rfl
  case h_5 => exact stays _ _ rfl rfl rfl
  case h_6 => exact stays _ _ rfl rfl rfl
  case h_8 slot ready => exact ordered.stepCreate control sound pc
  case h_9 slot _ => exact ordered.stepFail control pc

theorem created_ordered : Ordered [] created where
  increasing := List.Pairwise.nil
  submitted := by simp [polledLeases]
  polled := by simp [polledLeases]
  ascending := by simp [created]
  ready := by simp [created]
  contended := by simp [created]

end Frames

/-- Polls follow the order of acquisition when every promotion takes the
oldest DEFERRED frame. -/
theorem frames_polled_in_order (reached : framesMachine.Reaches OrderContract trace f) :
    (polledLeases trace).Pairwise (· < ·) := by
  have sound : ∀ {trace f}, framesMachine.Reaches OrderContract trace f →
      f.Control ∧ Custody.Sound trace f.custody := fun reached =>
    framesMachine_sound (reached.weaken fun _ _ _ allowed => allowed.1.1)
  suffices ordered : f.Ordered trace from ordered.increasing
  induction reached with
  | start initial =>
      rw [initial]
      exact Frames.created_ordered
  | @step trace events before after action reached allowed moved ih =>
      obtain ⟨control, custody⟩ := sound reached
      cases action with
      | worker call answers =>
          exact ih.stepWorker control custody allowed (framesMachine_step moved).2
      | ui call => exact ih.stepUi control custody (framesMachine_step moved).2

end

def submitContract (trace : List FrameEvent) (f : Frames) (action : FrameAction) : Bool :=
  frameContract trace f action &&
    match action with
    | .worker (.submit lease) _ => trace.all fun
        | .submitted earlier _ => earlier ≤ lease
        | _ => true
    | _ => true

theorem submitContract_sound {trace : List FrameEvent} {f : Frames} {action : FrameAction}
    (checked : submitContract trace f action = true) : SubmitContract trace f action := by
  simp only [submitContract, Bool.and_eq_true] at checked
  refine ⟨frameContract_sound checked.1, ?_⟩
  split
  · intro earlier result member
    simpa using List.all_eq_true.mp checked.2 _ member
  · trivial

instance {f : Frames} : Decidable f.PromotesOldest :=
  inferInstanceAs (Decidable (_ → ∀ index, _ → ∀ other, _ → _))

def orderContract (trace : List FrameEvent) (f : Frames) (action : FrameAction) : Bool :=
  submitContract trace f action &&
    match action with
    | .worker .resume _ => decide (f.worker = .drainPromote → f.PromotesOldest)
    | _ => true

theorem orderContract_sound {trace : List FrameEvent} {f : Frames} {action : FrameAction}
    (checked : orderContract trace f action = true) : OrderContract trace f action := by
  simp only [orderContract, Bool.and_eq_true] at checked
  refine ⟨submitContract_sound checked.1, ?_⟩
  split
  · exact of_decide_eq_true checked.2
  · trivial

/-- A worker that acquires one lease and submits it up to its second section. -/
def submitting (lease : Nat) : List FrameAction :=
  [.worker (.session .acquire) (generousAnswers lease),
    .worker (.submit lease) (generousAnswers lease), .worker .resume (generousAnswers lease)]

def publishing : List FrameAction := [.worker .resume (generousAnswers 0)]

def polling : List FrameAction := [.ui (.poll false), .ui (.resume true)]

/-- A whole drain that returns `count` slots. -/
def draining (count : Nat) : List FrameAction :=
  .worker .drain (generousAnswers 0) ::
    List.replicate (9 + 2 * count) (.worker .resume (generousAnswers 0))

def starting : List FrameAction :=
  [.worker (.session (.open [47])) (generousAnswers 0),
    .worker (.session .start) (generousAnswers 0)]

/-- Frame 2 is deferred behind frame 1 and promoted after its poll. -/
def promotingActions : List FrameAction :=
  starting ++ submitting 1 ++ publishing ++ submitting 2 ++ [.ui (.preserve true)] ++ publishing ++
    polling ++ draining 0 ++ polling

theorem frames_polled_in_order_promoted :
    ∃ f trace, framesMachine.execute Frames.created promotingActions = some (f, trace) ∧
      polledLeases trace = [1, 2] ∧ (polledLeases trace).Pairwise (· < ·) := by
  obtain ⟨⟨f, trace⟩, executed⟩ : ∃ last, framesMachine.execute Frames.created promotingActions =
      some last := Option.isSome_iff_exists.mp (by decide)
  have polled : (framesMachine.execute Frames.created promotingActions).map
      (fun last => polledLeases last.2) = some [1, 2] := by decide
  have conforming : framesMachine.conforms orderContract [] Frames.created promotingActions =
      true := by decide
  have reached := (Machine.Reaches.start rfl).conform (fun _ _ _ => orderContract_sound) conforming
    executed
  rw [executed] at polled
  exact ⟨f, trace, executed, Option.some.inj polled, frames_polled_in_order reached⟩

/-- Frame 3 is deferred in slot 2 while frame 2 is READY; slot 0 becomes free
and takes frame 4, which is DEFERRED too. -/
def overtakingActions : List FrameAction :=
  starting ++ submitting 1 ++ publishing ++ polling ++ submitting 2 ++ publishing ++
    submitting 3 ++ [.ui (.preserve true)] ++ publishing ++ [.ui (.releaseImage 0)] ++ draining 1 ++
    [.ui (.preserve false)] ++ submitting 4 ++ [.ui (.preserve true)] ++ publishing ++ polling ++
    draining 0 ++ polling ++ draining 0 ++ polling

/-- `drain` promotes the lower slot first, and frame 3 is shown after frame 4. -/
theorem frames_polled_out_of_order :
    ¬∀ trace f, framesMachine.Reaches SubmitContract trace f →
      (polledLeases trace).Pairwise (· < ·) := by
  intro ordered
  obtain ⟨⟨f, trace⟩, executed⟩ : ∃ last, framesMachine.execute Frames.created overtakingActions =
      some last := Option.isSome_iff_exists.mp (by decide)
  have polled : (framesMachine.execute Frames.created overtakingActions).map
      (fun last => polledLeases last.2) = some [1, 2, 4, 3] := by decide
  have conforming : framesMachine.conforms submitContract [] Frames.created overtakingActions =
      true := by decide
  have reached := (Machine.Reaches.start rfl).conform (fun _ _ _ => submitContract_sound)
    conforming executed
  rw [executed] at polled
  have listed : polledLeases trace = [1, 2, 4, 3] := Option.some.inj polled
  have increasing := ordered trace f reached
  rw [listed] at increasing
  exact absurd increasing (by decide)

end LvglAic.Player
