import LvglAic.Apng.Mailbox

/-! # What the mailbox shows

The pixels of a returned image are one published frame until its release, and
the images come in the order of publication.
-/

namespace LvglAic.Apng

variable {count : Nat}

def PublisherPc.slot : PublisherPc count → Option (Fin count)
  | .idle => none
  | .writing slot _ _ => some slot

def PollPc.slot : PollPc count → Option (Fin count)
  | .idle => none
  | .creating slot | .undoing slot => some slot

/-- Slots that hold a published frame. -/
def SlotState.shown : SlotState → Bool
  | .ready | .claimed | .leased => true
  | .free | .writing => false

/-- Events that answer no frame. -/
def MailboxEvent.idle : MailboxEvent count → Bool
  | .refused _ | .pollFailed => true
  | _ => false

/-- The sequence numbers of the successful polls. -/
def polledSequences (trace : List (MailboxEvent count)) : List Nat :=
  trace.filterMap fun event => match event with
    | .polled image => some image.sequence
    | _ => none

namespace Mailbox

variable {f next : Mailbox count} {slot index : Fin count} {source : Source}
  {trace events : List (MailboxEvent count)}

section
variable (f : Mailbox count) (index : Fin count) (new : Slot) (state : SlotState)

@[simp, grind =] theorem setSlot_width : (f.setSlot index new).width = f.width := rfl
@[simp, grind =] theorem setSlot_height : (f.setSlot index new).height = f.height := rfl
@[simp, grind =] theorem setSlot_lastSequence : (f.setSlot index new).lastSequence = f.lastSequence := rfl
@[simp, grind =] theorem setSlot_closed : (f.setSlot index new).closed = f.closed := rfl
@[simp, grind =] theorem setSlot_preserve : (f.setSlot index new).preserve = f.preserve := rfl
@[simp, grind =] theorem setSlot_images : (f.setSlot index new).images = f.images := rfl
@[simp, grind =] theorem setSlot_publisher : (f.setSlot index new).publisher = f.publisher := rfl
@[simp, grind =] theorem setSlot_ui : (f.setSlot index new).ui = f.ui := rfl
@[simp, grind =] theorem setState_width : (f.setState index state).width = f.width := rfl
@[simp, grind =] theorem setState_height : (f.setState index state).height = f.height := rfl
@[simp, grind =] theorem setState_lastSequence : (f.setState index state).lastSequence = f.lastSequence := rfl
@[simp, grind =] theorem setState_closed : (f.setState index state).closed = f.closed := rfl
@[simp, grind =] theorem setState_preserve : (f.setState index state).preserve = f.preserve := rfl
@[simp, grind =] theorem setState_images : (f.setState index state).images = f.images := rfl
@[simp, grind =] theorem setState_publisher : (f.setState index state).publisher = f.publisher := rfl
@[simp, grind =] theorem setState_ui : (f.setState index state).ui = f.ui := rfl

end

@[grind =] theorem setSlot_slots {new : Slot} :
    (f.setSlot index new).slots slot = if slot = index then new else f.slots slot := by
  simp [setSlot, Function.update_apply]

@[grind =] theorem setState_state {state : SlotState} :
    ((f.setState index state).slots slot).state = if slot = index then state
      else (f.slots slot).state := by
  unfold setState
  grind

@[grind =] theorem setState_sequence {state : SlotState} :
    ((f.setState index state).slots slot).sequence = (f.slots slot).sequence := by
  unfold setState
  grind

@[grind =] theorem setState_pixels {state : SlotState} :
    ((f.setState index state).slots slot).pixels = (f.slots slot).pixels := by
  unfold setState
  grind

theorem firstSlot_some {state : SlotState} (found : f.firstSlot state = some slot) :
    (f.slots slot).state = state := by
  simpa using List.find?_some found

theorem firstSlot_none {state : SlotState} (none : f.firstSlot state = none) (slot : Fin count) :
    (f.slots slot).state ≠ state := by
  have absent := List.find?_eq_none.mp none slot (List.mem_finRange slot)
  simpa using absent

theorem pending_false (quiet : f.pending = false) (slot : Fin count) :
    (f.slots slot).state ≠ .ready ∧ (f.slots slot).state ≠ .claimed := by
  have absent := List.any_eq_false.mp quiet slot (List.mem_finRange slot)
  simpa using absent

/-- Everything but the slots, which may only become FREE. -/
theorem dropReady_state : (f.dropReady.slots slot).state =
    if (f.slots slot).state = .ready then .free else (f.slots slot).state := by
  unfold dropReady
  dsimp only
  split <;> rfl

/-- The threads and the images account for the states of the slots. -/
structure Tidy (f : Mailbox count) : Prop where
  writing : ∀ slot, (f.slots slot).state = .writing ↔ f.publisher.slot = some slot
  claimed : ∀ slot, (f.slots slot).state = .claimed ↔ f.ui.slot = some slot
  leased : ∀ slot, (f.slots slot).state = .leased ↔ ∃ image ∈ f.images, image.slot = slot
  distinct : (f.images.map Image.slot).Nodup
  ready : ∀ slot other, (f.slots slot).state = .ready → (f.slots other).state = .ready → slot = other
  quiet : f.publisher.slot ≠ none → ∀ slot, (f.slots slot).state ≠ .ready
  strict : f.preserve = true → f.ui.slot ≠ none →
    f.publisher.slot = none ∧ ∀ slot, (f.slots slot).state ≠ .ready
  shut : f.closed = true → ∀ slot, (f.slots slot).state ≠ .ready

/-- Every way through the first section of `publish`. -/
theorem publish_cases (f : Mailbox count) (source : Source) :
    f.publish source = (f, [.refused source]) ∨
    ∃ slot, f.publish source =
        ({ f.setState slot .writing with publisher := .writing slot source 0 }, []) ∧
      f.lastSequence < source.sequence ∧ f.closed = false ∧
      (f.preserve = true → ∀ index, (f.slots index).state ≠ .claimed) ∧
      ((f.slots slot).state = .ready ∨ (f.slots slot).state = .free ∧
        ∀ index, (f.slots index).state ≠ .ready) := by
  unfold publish
  split
  · exact .inl rfl
  split
  · exact .inl rfl
  rename_i fresh
  split
  · exact .inl rfl
  rename_i unblocked
  simp only [Bool.or_eq_true, decide_eq_true_eq, not_or, Bool.not_eq_true, Nat.not_le] at fresh
  simp only [Bool.and_eq_true, not_and, Bool.not_eq_true] at unblocked
  split
  · exact .inl rfl
  rename_i slot chosen
  split
  · exact .inl rfl
  refine .inr ⟨slot, rfl, fresh.2, fresh.1, fun strict index =>
    (pending_false (unblocked strict) index).2, ?_⟩
  cases ready : f.firstSlot .ready with
  | some found =>
      rw [ready] at chosen
      cases chosen
      exact .inl (firstSlot_some ready)
  | none =>
      rw [ready] at chosen
      exact .inr ⟨firstSlot_some chosen, firstSlot_none ready⟩

theorem Tidy.unclaimed (tidy : f.Tidy) (absent : ∀ index, (f.slots index).state ≠ .claimed) :
    f.ui.slot = none := by
  cases claimed : f.ui.slot with
  | none => rfl
  | some slot => exact absurd ((tidy.claimed slot).mpr claimed) (absent slot)

theorem Tidy.publish (tidy : f.Tidy) (idle : f.publisher = .idle) : (f.publish source).1.Tidy := by
  rcases f.publish_cases source with same | ⟨slot, same, _, open_, strict, chosen⟩ <;> rw [same]
  · exact tidy
  have alone := fun preserve => tidy.unclaimed (strict preserve)
  obtain ⟨writing, claimed, leased, distinct, ready, quiet, strict', shut⟩ := tidy
  constructor <;> grind [PublisherPc.slot]

@[grind =] theorem writePixel_state {done : Nat} :
    ((f.writePixel index source done).slots slot).state = (f.slots slot).state := by
  unfold writePixel
  grind

theorem Tidy.writePixel {done : Nat} (tidy : f.Tidy)
    (writing : f.publisher = .writing slot source done) : (f.writePixel slot source done).Tidy := by
  obtain ⟨writing, claimed, leased, distinct, ready, quiet, strict', shut⟩ := tidy
  constructor <;> grind [PublisherPc.slot, Mailbox.writePixel]

theorem Tidy.commit {done : Nat} (tidy : f.Tidy)
    (writing : f.publisher = .writing slot source done) : (f.commit slot source).1.Tidy := by
  obtain ⟨writing, claimed, leased, distinct, ready, quiet, strict', shut⟩ := tidy
  unfold Mailbox.commit
  split
  · constructor <;> grind [PublisherPc.slot]
  · constructor <;> grind [PublisherPc.slot]

theorem Tidy.dropReady (tidy : f.Tidy) : f.dropReady.Tidy := by
  obtain ⟨writing, claimed, leased, distinct, ready, quiet, strict', shut⟩ := tidy
  have fields : f.dropReady.publisher = f.publisher ∧ f.dropReady.ui = f.ui ∧
      f.dropReady.images = f.images ∧ f.dropReady.preserve = f.preserve ∧
      f.dropReady.closed = f.closed := ⟨rfl, rfl, rfl, rfl, rfl⟩
  constructor <;> grind [dropReady_state]

theorem Tidy.poll (tidy : f.Tidy) (idle : f.ui = .idle) : f.poll.1.Tidy := by
  obtain ⟨writing, claimed, leased, distinct, ready, quiet, strict', shut⟩ := tidy
  unfold Mailbox.poll
  split
  · constructor <;> assumption
  split
  · constructor <;> assumption
  · rename_i slot chosen
    have found := firstSlot_some chosen
    have calm : f.publisher.slot = none := by
      by_contra busy
      exact quiet busy slot found
    constructor <;> grind [PollPc.slot]

theorem Tidy.createImage {created : Bool} (tidy : f.Tidy) (creating : f.ui = .creating slot) :
    (f.createImage slot created).1.Tidy := by
  obtain ⟨writing, claimed, leased, distinct, ready, quiet, strict', shut⟩ := tidy
  unfold Mailbox.createImage
  split
  · rename_i held
    simp only [Bool.and_eq_true, beq_iff_eq] at held
    have fresh : ∀ image ∈ f.images, image.slot ≠ slot := by
      intro image member same
      have taken := (leased slot).mpr ⟨image, member, same⟩
      rw [held.2] at taken
      cases taken
    constructor
    case leased =>
      intro index
      simp only [List.mem_append, List.mem_singleton, or_and_right, exists_or, exists_eq_left]
      rw [← leased index]
      grind
    case distinct =>
      rw [List.map_append, List.nodup_append]
      refine ⟨distinct, List.nodup_singleton _, ?_⟩
      simpa using fresh
    all_goals grind [PollPc.slot]
  · constructor <;> grind [PollPc.slot]

theorem Tidy.undo (tidy : f.Tidy) (undoing : f.ui = .undoing slot) : (f.undo slot).1.Tidy := by
  obtain ⟨writing, claimed, leased, distinct, ready, quiet, strict', shut⟩ := tidy
  unfold Mailbox.undo
  constructor <;> grind [PollPc.slot]

theorem Tidy.release {image : Image count} (tidy : f.Tidy) (member : image ∈ f.images) :
    (f.release image).1.Tidy := by
  obtain ⟨writing, claimed, leased, distinct, ready, quiet, strict', shut⟩ := tidy
  unfold Mailbox.release
  have single : f.images.Nodup := distinct.of_map
  have others : ∀ other, other ∈ f.images.erase image ↔ other ≠ image ∧ other ∈ f.images :=
    fun other => single.mem_erase_iff
  have apart : ∀ other ∈ f.images, other ≠ image → other.slot ≠ image.slot :=
    fun other found different same =>
      different (List.inj_on_of_nodup_map distinct found member same)
  have taken := (leased image.slot).mpr ⟨image, member, rfl⟩
  constructor
  case leased =>
    intro index
    have before := leased index
    grind
  case distinct => exact distinct.sublist (List.erase_sublist.map _)
  all_goals grind

/-- The slots show published frames, and the polls follow the publications. -/
structure Told (trace : List (MailboxEvent count)) (f : Mailbox count) : Prop where
  bounded : ∀ slot, (f.slots slot).state.shown = true → (f.slots slot).sequence ≤ f.lastSequence
  content : ∀ slot, (f.slots slot).state.shown = true → ∃ source, .published source ∈ trace ∧
    source.sequence = (f.slots slot).sequence ∧
    ∀ pixel < f.width * f.height, (f.slots slot).pixels pixel = argb f.width source pixel
  progress : ∀ slot source done, f.publisher = .writing slot source done →
    f.lastSequence < source.sequence ∧ done ≤ f.width * f.height ∧
    ∀ pixel < done, (f.slots slot).pixels pixel = argb f.width source pixel
  published : ∀ source, .published source ∈ trace → source.sequence ≤ f.lastSequence
  unique : ∀ source other, .published source ∈ trace → .published other ∈ trace →
    source.sequence = other.sequence → source = other
  polled : ∀ sequence ∈ polledSequences trace, sequence ≤ f.lastSequence ∧
    ∀ slot, (f.slots slot).state = .ready ∨ (f.slots slot).state = .claimed →
      sequence < (f.slots slot).sequence
  order : ∀ slot other, (f.slots slot).state = .claimed → (f.slots other).state = .ready →
    (f.slots slot).sequence < (f.slots other).sequence
  increasing : (polledSequences trace).Pairwise (· < ·)
  image : ∀ image ∈ f.images, (f.slots image.slot).sequence = image.sequence
  kept : ∀ image, .polled image ∈ trace → .released image ∈ trace ∨ image ∈ f.images
  lent : ∀ image ∈ f.images, .polled image ∈ trace ∧ .released image ∉ trace
  returned : ∀ image, .released image ∈ trace → .polled image ∈ trace

theorem mem_polledSequences {image : Image count} (polled : .polled image ∈ trace) :
    image.sequence ∈ polledSequences trace :=
  List.mem_filterMap.mpr ⟨.polled image, polled, rfl⟩

theorem polledSequences_append : polledSequences (trace ++ events) =
    polledSequences trace ++ polledSequences events := List.filterMap_append

/-- A step that shows no new frame and answers nothing. -/
structure Hides (f next : Mailbox count) : Prop where
  size : next.width = f.width ∧ next.height = f.height
  lastSequence : next.lastSequence = f.lastSequence
  images : next.images = f.images
  pixels : ∀ slot, (next.slots slot).state.shown = true →
    (next.slots slot).pixels = (f.slots slot).pixels
  sequence : ∀ slot, (next.slots slot).sequence = (f.slots slot).sequence
  shown : ∀ slot, (next.slots slot).state.shown = true → (f.slots slot).state.shown = true
  open_ : ∀ slot, (next.slots slot).state = .ready ∨ (next.slots slot).state = .claimed →
    (f.slots slot).state = .ready ∨ (f.slots slot).state = .claimed
  order : ∀ slot other, (next.slots slot).state = .claimed → (next.slots other).state = .ready →
    (f.slots slot).state = .claimed ∧ (f.slots other).state = .ready

theorem Told.hides (told : Told trace f) (hides : Hides f next)
    (quiet : ∀ event ∈ events, MailboxEvent.idle event = true)
    (progress : ∀ slot source done, next.publisher = .writing slot source done →
      next.lastSequence < source.sequence ∧ done ≤ next.width * next.height ∧
      ∀ pixel < done, (next.slots slot).pixels pixel = argb next.width source pixel) :
    Told (trace ++ events) next := by
  obtain ⟨bounded, content, _, published, unique, polled, order, increasing, image, kept, lent,
    returned⟩ := told
  obtain ⟨⟨width, height⟩, last, images, pixels, sequence, shown, open_, both⟩ := hides
  have absent : ∀ event : MailboxEvent count, event.idle = false → event ∉ events := by
    intro event loud member
    rw [quiet event member] at loud
    cases loud
  have silent : polledSequences (trace ++ events) = polledSequences trace := by
    have none : polledSequences events = [] := by
      refine List.filterMap_eq_nil_iff.mpr fun event member => ?_
      cases event with
      | polled image => exact absurd member (absent (.polled image) rfl)
      | _ => rfl
    rw [polledSequences_append, none, List.append_nil]
  have told : ∀ source, .published source ∈ trace ++ events ↔ .published source ∈ trace := by
    intro source
    rw [List.mem_append, or_iff_left (absent (.published source) rfl)]
  constructor
  case bounded =>
    intro slot visible
    rw [sequence, last]
    exact bounded slot (shown slot visible)
  case content =>
    intro slot visible
    rw [sequence, pixels slot visible, width, height]
    simpa only [told] using content slot (shown slot visible)
  case progress => exact progress
  case published =>
    intro source member
    rw [last]
    exact published source ((told source).mp member)
  case unique => simpa only [told] using unique
  case polled =>
    rw [silent, last]
    intro number member
    refine ⟨(polled number member).1, fun slot visible => ?_⟩
    rw [sequence]
    exact (polled number member).2 slot (open_ slot visible)
  case order =>
    intro slot other claimed ready
    rw [sequence, sequence]
    exact order slot other (both slot other claimed ready).1 (both slot other claimed ready).2
  case increasing => rwa [silent]
  case image =>
    rw [images]
    intro found member
    rw [sequence]
    exact image found member
  case kept =>
    intro found member
    rw [List.mem_append, or_iff_left (absent (.polled found) rfl)] at member
    rw [images]
    exact (kept found member).imp_left (List.mem_append_left _)
  case lent =>
    rw [images]
    intro found member
    obtain ⟨before, out⟩ := lent found member
    rw [List.mem_append, List.mem_append, or_iff_left (absent (.released found) rfl)]
    exact ⟨.inl before, out⟩
  case returned =>
    intro found member
    rw [List.mem_append, or_iff_left (absent (.released found) rfl)] at member
    exact List.mem_append_left _ (returned found member)

/-- A publisher that is idle, or that keeps its slot and progress, is unaffected. -/
theorem Told.still (told : Told trace f) (hides : Hides f next)
    (quiet : ∀ event ∈ events, MailboxEvent.idle event = true)
    (publisher : next.publisher = .idle ∨ next.publisher = f.publisher ∧
      ∀ slot, f.publisher.slot = some slot → (next.slots slot).pixels = (f.slots slot).pixels) :
    Told (trace ++ events) next := by
  refine told.hides hides quiet fun slot source done writing => ?_
  rcases publisher with idle | ⟨same, pixels⟩
  · rw [idle] at writing
    cases writing
  · rw [same] at writing
    have progress := told.progress slot source done writing
    rw [hides.lastSequence, hides.size.1, hides.size.2, pixels slot (by rw [writing]; rfl)]
    exact progress

theorem Told.publish (told : Told trace f) (idle : f.publisher = .idle) :
    Told (trace ++ (f.publish source).2) (f.publish source).1 := by
  rcases f.publish_cases source with same | ⟨slot, same, fresh, _⟩ <;> rw [same]
  · exact told.still ⟨⟨rfl, rfl⟩, rfl, rfl, fun _ _ => rfl, fun _ => rfl, fun _ => id, fun _ => id,
      fun _ _ => .intro⟩ (by simp [MailboxEvent.idle]) (.inl idle)
  · refine told.hides ?_ (by simp) ?_
    · constructor <;> grind [SlotState.shown]
    · intro slot' source' done writing
      cases writing
      exact ⟨fresh, Nat.zero_le _, fun pixel none => absurd none (Nat.not_lt_zero _)⟩

theorem Told.writePixel {done : Nat} (told : Told trace f) (tidy : f.Tidy)
    (writing : f.publisher = .writing slot source done) (more : done < f.width * f.height) :
    Told (trace ++ []) (f.writePixel slot source done) := by
  have hidden := (tidy.writing slot).mpr (by rw [writing]; rfl)
  obtain ⟨fresh, _, progress⟩ := told.progress slot source done writing
  refine told.hides ?_ (by simp) ?_
  · unfold Mailbox.writePixel
    constructor <;> grind [SlotState.shown]
  · intro slot' source' done' same
    cases same
    refine ⟨fresh, more, fun pixel below => ?_⟩
    have same : ((f.writePixel slot source done).slots slot).pixels =
        Function.update (f.slots slot).pixels done (argb f.width source done) := by
      simp [Mailbox.writePixel, setSlot_slots]
    rw [same, Function.update_apply]
    split
    · rename_i last
      rw [last]
      rfl
    · exact progress pixel (by omega)

theorem Told.commit {done : Nat} (told : Told trace f) (tidy : f.Tidy)
    (writing : f.publisher = .writing slot source done) (all : ¬done < f.width * f.height) :
    Told (trace ++ (f.commit slot source).2) (f.commit slot source).1 := by
  have hidden := (tidy.writing slot).mpr (by rw [writing]; rfl)
  obtain ⟨fresh, within, progress⟩ := told.progress slot source done writing
  unfold Mailbox.commit
  split
  · refine told.still ?_ (by simp [MailboxEvent.idle]) (.inl rfl)
    constructor <;> grind [SlotState.shown]
  obtain ⟨bounded, content, _, published, unique, polled, order, increasing, image, kept, lent,
    returned⟩ := told
  have whole : ∀ pixel < f.width * f.height,
      (f.slots slot).pixels pixel = argb f.width source pixel :=
    fun pixel below => progress pixel (by omega)
  have told : ∀ other, .published other ∈ trace ++ [MailboxEvent.published source] ↔
      .published other ∈ trace ∨ other = source := by
    intro other
    simp
  have silent : polledSequences (trace ++ [MailboxEvent.published source]) =
      polledSequences trace := by
    simp [polledSequences]
  have unlent : ∀ found ∈ f.images, found.slot ≠ slot := by
    intro found member same
    have taken := (tidy.leased slot).mpr ⟨found, member, same⟩
    rw [hidden] at taken
    cases taken
  constructor
  case bounded => grind
  case content =>
    intro other visible
    by_cases same : other = slot
    · subst same
      exact ⟨source, (told source).mpr (.inr rfl), by simp [setSlot_slots],
        by simpa [setSlot_slots] using whole⟩
    · simp only [setSlot_slots, same, if_false] at visible ⊢
      obtain ⟨found, before, number, pixels⟩ := content other visible
      exact ⟨found, (told found).mpr (.inl before), number, pixels⟩
  case progress =>
    intro _ _ _ same
    cases same
  case published => grind
  case unique => grind
  case polled => grind
  case order => grind [SlotState.shown]
  case increasing => rwa [silent]
  case image => grind
  case kept =>
    intro found member
    simp only [List.mem_append, List.mem_singleton, reduceCtorEq, or_false] at member ⊢
    exact kept found member
  case lent => simpa using lent
  case returned => simpa using returned

theorem Told.dropReady (told : Told trace f) : Told (trace ++ []) f.dropReady := by
  have sequence : ∀ slot, (f.dropReady.slots slot).sequence = (f.slots slot).sequence := by
    intro slot
    unfold Mailbox.dropReady
    dsimp only
    split <;> rfl
  have pixels : ∀ slot, (f.dropReady.slots slot).pixels = (f.slots slot).pixels := by
    intro slot
    unfold Mailbox.dropReady
    dsimp only
    split <;> rfl
  refine told.still ⟨⟨rfl, rfl⟩, rfl, rfl, fun slot _ => pixels slot, sequence, ?_, ?_, ?_⟩ (by simp)
    (.inr ⟨rfl, fun slot _ => pixels slot⟩)
  all_goals grind [dropReady_state, SlotState.shown]

theorem Told.poll (told : Told trace f) (tidy : f.Tidy) :
    Told (trace ++ f.poll.2) f.poll.1 := by
  have unchanged : Told (trace ++ [.pollFailed]) f :=
    told.still ⟨⟨rfl, rfl⟩, rfl, rfl, fun _ _ => rfl, fun _ => rfl, fun _ => id, fun _ => id,
      fun _ _ => .intro⟩ (by simp [MailboxEvent.idle]) (.inr ⟨rfl, fun _ _ => rfl⟩)
  unfold Mailbox.poll
  split
  · exact unchanged
  split
  · exact unchanged
  · rename_i slot chosen
    have found := firstSlot_some chosen
    have alone := tidy.ready slot
    refine told.still ?_ (by simp) (.inr ⟨rfl, fun _ _ => setState_pixels⟩)
    constructor <;> grind [SlotState.shown]

theorem Told.undo (told : Told trace f) (tidy : f.Tidy) (undoing : f.ui = .undoing slot) :
    Told (trace ++ (f.undo slot).2) (f.undo slot).1 := by
  have claimed := tidy.claimed
  have found := (claimed slot).mpr (by rw [undoing]; rfl)
  unfold Mailbox.undo
  refine told.still ?_ (by simp [MailboxEvent.idle]) (.inr ⟨rfl, fun _ _ => setState_pixels⟩)
  constructor <;> grind [SlotState.shown, PollPc.slot]

theorem Told.createImage {created : Bool} (told : Told trace f) (tidy : f.Tidy)
    (creating : f.ui = .creating slot) :
    Told (trace ++ (f.createImage slot created).2) (f.createImage slot created).1 := by
  have found := (tidy.claimed slot).mpr (by rw [creating]; rfl)
  unfold Mailbox.createImage
  split
  · obtain ⟨bounded, content, progress, published, unique, polled, order, increasing, image,
      kept, lent, returned⟩ := told
    have shows : polledSequences (trace ++ [MailboxEvent.polled
        { slot := slot, sequence := (f.slots slot).sequence }]) =
        polledSequences trace ++ [(f.slots slot).sequence] := by
      simp [polledSequences]
    have limit := bounded slot (by rw [found]; rfl)
    constructor
    case bounded => grind [SlotState.shown]
    case content =>
      intro other visible
      rw [setState_sequence, setState_pixels]
      obtain ⟨source, before, number, pixels⟩ := content other (by grind [SlotState.shown])
      exact ⟨source, by simp [before], number, pixels⟩
    case progress => grind
    case published => grind
    case unique => grind
    case polled =>
      rw [shows]
      intro number member
      rcases List.mem_append.mp member with earlier | last
      · have before := polled number earlier
        grind
      · rw [List.mem_singleton.mp last]
        have claimed := tidy.claimed
        grind [PollPc.slot]
    case order => grind
    case increasing =>
      rw [shows, List.pairwise_append]
      refine ⟨increasing, List.pairwise_singleton _ _, fun number member last final => ?_⟩
      rw [List.mem_singleton.mp final]
      exact (polled number member).2 slot (.inr found)
    case image =>
      intro other member
      rw [setState_sequence]
      rcases List.mem_append.mp member with earlier | last
      · exact image other earlier
      · rw [List.mem_singleton.mp last]
    case kept =>
      intro other member
      rcases List.mem_append.mp member with earlier | last
      · exact (kept other earlier).imp (List.mem_append_left _) (List.mem_append_left _)
      · simp only [List.mem_singleton, MailboxEvent.polled.injEq] at last
        rw [last]
        exact .inr (List.mem_append_right _ (List.mem_singleton.mpr rfl))
    case lent =>
      intro other member
      simp only [List.mem_append, List.mem_singleton, reduceCtorEq, or_false,
        MailboxEvent.polled.injEq] at member ⊢
      rcases member with earlier | rfl
      · exact ⟨.inl (lent other earlier).1, (lent other earlier).2⟩
      · refine ⟨.inr rfl, fun out => ?_⟩
        have before := (polled _ (mem_polledSequences (returned _ out))).2 slot (.inr found)
        exact Nat.lt_irrefl _ before
    case returned =>
      intro other member
      simp only [List.mem_append, List.mem_singleton, reduceCtorEq, or_false] at member
      exact List.mem_append_left _ (returned other member)
  · refine told.still ⟨⟨rfl, rfl⟩, rfl, rfl, fun _ _ => rfl, fun _ => rfl, fun _ => id, fun _ => id,
      fun _ _ => .intro⟩ (by simp) (.inr ⟨rfl, fun _ _ => rfl⟩)

theorem Told.release {image : Image count} (told : Told trace f) (tidy : f.Tidy)
    (member : image ∈ f.images) : Told (trace ++ (f.release image).2) (f.release image).1 := by
  have taken := (tidy.leased image.slot).mpr ⟨image, member, rfl⟩
  obtain ⟨bounded, content, progress, published, unique, polled, order, increasing, image',
    kept, lent, returned⟩ := told
  have silent : polledSequences (trace ++ [MailboxEvent.released image]) =
      polledSequences trace := by
    simp [polledSequences]
  unfold Mailbox.release
  constructor
  case bounded => grind [SlotState.shown]
  case content =>
    intro other visible
    rw [setState_sequence, setState_pixels]
    obtain ⟨source, before, number, pixels⟩ := content other (by grind [SlotState.shown])
    exact ⟨source, by simp [before], number, pixels⟩
  case progress => grind
  case published => grind
  case unique => grind
  case polled => grind
  case order => grind
  case increasing => rwa [silent]
  case image =>
    intro other found
    rw [setState_sequence]
    exact image' other (List.mem_of_mem_erase found)
  case kept =>
    intro other found
    by_cases same : other = image
    · rw [same]
      exact .inl (by simp)
    · have before : .polled other ∈ trace := by simpa using found
      exact (kept other before).imp (List.mem_append_left _) (List.mem_erase_of_ne same).mpr
  case lent =>
    intro other still
    obtain ⟨different, before⟩ := tidy.distinct.of_map.mem_erase_iff.mp still
    obtain ⟨shown, out⟩ := lent other before
    simp only [List.mem_append, List.mem_singleton, reduceCtorEq, or_false, not_or,
      MailboxEvent.released.injEq]
    exact ⟨shown, out, different⟩
  case returned =>
    intro other member
    simp only [List.mem_append, List.mem_singleton, reduceCtorEq, or_false,
      MailboxEvent.released.injEq] at member ⊢
    rcases member with earlier | rfl
    · exact returned other earlier
    · exact (lent _ ‹_›).1

theorem dropReady_unready (slot : Fin count) : (f.dropReady.slots slot).state ≠ .ready := by
  rw [dropReady_state]
  split
  · nofun
  · assumption

theorem Tidy.close (tidy : f.Tidy) : f.close.Tidy := by
  obtain ⟨writing, claimed, leased, distinct, _, _, strict, _⟩ := tidy.dropReady
  exact ⟨writing, claimed, leased, distinct, fun slot _ ready => absurd ready (dropReady_unready slot),
    fun _ => dropReady_unready, strict, fun _ => dropReady_unready⟩

/-- A change of the policy or of `closed` shows and hides nothing. -/
theorem Told.flags {preserve closed : Bool} (told : Told trace f) :
    Told trace { f with preserve := preserve, closed := closed } := by
  obtain ⟨bounded, content, progress, published, unique, polled, order, increasing, image,
    kept, lent, returned⟩ := told
  constructor <;> assumption

theorem sound_step {action : MailboxAction count} (tidy : f.Tidy) (told : Told trace f)
    (moved : f.step action = some (next, events)) : next.Tidy ∧ Told (trace ++ events) next := by
  cases action with
  | publish source =>
      cases idle : f.publisher <;> simp only [step, idle, Option.some.injEq, reduceCtorEq] at moved
      obtain ⟨rfl, rfl⟩ := Prod.ext_iff.mp moved
      exact ⟨tidy.publish idle, told.publish idle⟩
  | publisher =>
      cases pc : f.publisher <;>
        simp only [step, stepPublisher, pc, reduceCtorEq] at moved
      split at moved <;> obtain ⟨rfl, rfl⟩ := Prod.ext_iff.mp (Option.some.inj moved)
      · rename_i more
        exact ⟨tidy.writePixel pc, told.writePixel tidy pc more⟩
      · rename_i all
        exact ⟨tidy.commit pc, told.commit tidy pc all⟩
  | discard =>
      cases idle : f.publisher <;> simp only [step, idle, Option.some.injEq, reduceCtorEq] at moved
      obtain ⟨rfl, rfl⟩ := Prod.ext_iff.mp moved
      exact ⟨tidy.dropReady, told.dropReady⟩
  | poll =>
      simp only [step, Option.ite_none_right_eq_some, Option.some.injEq] at moved
      obtain ⟨idle, same⟩ := moved
      obtain ⟨rfl, rfl⟩ := Prod.ext_iff.mp same
      exact ⟨tidy.poll idle, told.poll tidy⟩
  | create created =>
      cases pc : f.ui <;> simp only [step, pc, Option.some.injEq, reduceCtorEq] at moved
      obtain ⟨rfl, rfl⟩ := Prod.ext_iff.mp moved
      exact ⟨tidy.createImage pc, told.createImage tidy pc⟩
  | undo =>
      cases pc : f.ui <;> simp only [step, pc, Option.some.injEq, reduceCtorEq] at moved
      obtain ⟨rfl, rfl⟩ := Prod.ext_iff.mp moved
      exact ⟨tidy.undo pc, told.undo tidy pc⟩
  | preserve enabled =>
      simp only [step, Option.ite_none_right_eq_some, Option.some.injEq] at moved
      obtain ⟨idle, same⟩ := moved
      obtain ⟨rfl, rfl⟩ := Prod.ext_iff.mp same
      obtain ⟨writing, claimed, leased, distinct, ready, quiet, _, shut⟩ := tidy
      refine ⟨⟨writing, claimed, leased, distinct, ready, quiet, fun _ busy => ?_, shut⟩, ?_⟩
      · rw [show f.ui.slot = none by rw [idle]; rfl] at busy
        exact absurd rfl busy
      · rw [List.append_nil]
        exact told.flags
  | close =>
      simp only [step, Option.ite_none_right_eq_some, Option.some.injEq] at moved
      obtain ⟨_, same⟩ := moved
      obtain ⟨rfl, rfl⟩ := Prod.ext_iff.mp same
      exact ⟨tidy.close, told.dropReady.flags⟩
  | release image =>
      simp only [step, Option.ite_none_right_eq_some, Option.some.injEq] at moved
      obtain ⟨member, same⟩ := moved
      obtain ⟨rfl, rfl⟩ := Prod.ext_iff.mp same
      exact ⟨tidy.release member, told.release tidy member⟩

theorem create_sound {width height budget overhead base addressMax : Nat}
    (made : create count width height budget overhead base addressMax = some f) :
    f.Tidy ∧ Told [] f := by
  unfold create at made
  split at made
  · cases made
  split at made
  · cases made
  cases made
  constructor <;> constructor <;> simp [PublisherPc.slot, PollPc.slot, SlotState.shown, polledSequences]

theorem mailbox_sound {Allowed : List (MailboxEvent count) → Mailbox count → MailboxAction count → Prop}
    (reached : (mailboxMachine count).Reaches Allowed trace f) : f.Tidy ∧ Told trace f := by
  refine reached.invariant (fun trace f => f.Tidy ∧ Told trace f) ?_ ?_
  · rintro f ⟨_, _, _, _, _, _, made⟩
    exact create_sound made
  · intro trace before action after events ⟨tidy, told⟩ _ moved
    exact sound_step tidy told moved

theorem dropReady_pixels : (f.dropReady.slots slot).pixels = (f.slots slot).pixels := by
  unfold dropReady
  dsimp only
  split <;> rfl

/-- Only the publisher's own slot changes its pixels. -/
theorem step_pixels {action : MailboxAction count} (tidy : f.Tidy)
    (moved : f.step action = some (next, events)) (apart : (f.slots slot).state ≠ .writing) :
    (next.slots slot).pixels = (f.slots slot).pixels := by
  cases action with
  | publish source =>
      cases idle : f.publisher <;> simp only [step, idle, Option.some.injEq, reduceCtorEq] at moved
      obtain ⟨rfl, rfl⟩ := Prod.ext_iff.mp moved
      rcases f.publish_cases source with same | ⟨_, same, _⟩ <;> rw [same]
      exact setState_pixels
  | publisher =>
      cases pc : f.publisher with
      | idle => simp only [step, stepPublisher, pc, reduceCtorEq] at moved
      | writing written source done =>
          have hidden := (tidy.writing written).mpr (by rw [pc]; rfl)
          have other : slot ≠ written := by
            rintro rfl
            exact apart hidden
          simp only [step, stepPublisher, pc] at moved
          split at moved <;> obtain ⟨rfl, rfl⟩ := Prod.ext_iff.mp (Option.some.inj moved)
          · simp only [writePixel, setSlot_slots, other, if_false]
          · unfold commit
            split
            · exact setState_pixels
            · simp only [setSlot_slots, other, if_false]
  | discard =>
      cases idle : f.publisher <;> simp only [step, idle, Option.some.injEq, reduceCtorEq] at moved
      obtain ⟨rfl, rfl⟩ := Prod.ext_iff.mp moved
      exact dropReady_pixels
  | poll =>
      simp only [step, Option.ite_none_right_eq_some, Option.some.injEq] at moved
      obtain ⟨idle, same⟩ := moved
      obtain ⟨rfl, rfl⟩ := Prod.ext_iff.mp same
      unfold poll
      split
      · rfl
      · split
        · rfl
        · exact setState_pixels
  | create created =>
      cases pc : f.ui <;> simp only [step, pc, Option.some.injEq, reduceCtorEq] at moved
      obtain ⟨rfl, rfl⟩ := Prod.ext_iff.mp moved
      unfold createImage
      split
      · exact setState_pixels
      · rfl
  | undo =>
      cases pc : f.ui <;> simp only [step, pc, Option.some.injEq, reduceCtorEq] at moved
      obtain ⟨rfl, rfl⟩ := Prod.ext_iff.mp moved
      exact setState_pixels
  | preserve enabled =>
      simp only [step, Option.ite_none_right_eq_some, Option.some.injEq] at moved
      obtain ⟨_, same⟩ := moved
      obtain ⟨rfl, rfl⟩ := Prod.ext_iff.mp same
      rfl
  | close =>
      simp only [step, Option.ite_none_right_eq_some, Option.some.injEq] at moved
      obtain ⟨_, same⟩ := moved
      obtain ⟨rfl, rfl⟩ := Prod.ext_iff.mp same
      exact dropReady_pixels
  | release image =>
      simp only [step, Option.ite_none_right_eq_some, Option.some.injEq] at moved
      obtain ⟨_, same⟩ := moved
      obtain ⟨rfl, rfl⟩ := Prod.ext_iff.mp same
      exact setState_pixels

/-- With nothing in progress and nothing lent, closing frees every slot. -/
theorem Tidy.close_free (tidy : f.Tidy) (publisher : f.publisher = .idle) (ui : f.ui = .idle)
    (none : f.images = []) (slot : Fin count) : (f.close.slots slot).state = .free := by
  obtain ⟨writing, claimed, leased, _⟩ := tidy.close
  have unwritten := mt (writing slot).mp (by
    rw [show f.close.publisher = .idle from publisher]
    nofun)
  have unclaimed := mt (claimed slot).mp (by
    rw [show f.close.ui = .idle from ui]
    nofun)
  have unlent := mt (leased slot).mp (by
    rw [show f.close.images = [] from none]
    rintro ⟨_, member, _⟩
    cases member)
  have unready : (f.close.slots slot).state ≠ .ready := dropReady_unready slot
  cases state : (f.close.slots slot).state <;> simp_all

end Mailbox

/-- One snapshot at a time, unchanged as long as a reader may hold it, in the order
of publication; nothing is lost when all of it is given back. -/
theorem mailbox_snapshots {trace : List (MailboxEvent count)} {f : Mailbox count}
    (reached : (mailboxMachine count).Reaches Machine.Always trace f) :
    (∀ slot other, (f.slots slot).state = .ready → (f.slots other).state = .ready →
      slot = other) ∧
    (∀ action next events slot, f.step action = some (next, events) →
      (f.slots slot).state = .claimed ∨ (f.slots slot).state = .leased →
      (next.slots slot).pixels = (f.slots slot).pixels) ∧
    (polledSequences trace).Pairwise (· < ·) ∧
    (∀ image, .polled image ∈ trace → .released image ∉ trace →
      ∃ source, .published source ∈ trace ∧ source.sequence = image.sequence ∧
        (∀ other, .published other ∈ trace → other.sequence = image.sequence → other = source) ∧
        ∀ pixel < f.width * f.height,
          (f.slots image.slot).pixels pixel = Mailbox.argb f.width source pixel) ∧
    (∀ slot, (f.slots slot).state = .free ∨ (f.slots slot).state = .ready ∨
      (f.slots slot).state = .writing ∧ f.publisher.slot = some slot ∨
      (f.slots slot).state = .claimed ∧ f.ui.slot = some slot ∨
      (f.slots slot).state = .leased ∧
        ∃ image, .polled image ∈ trace ∧ .released image ∉ trace ∧ image.slot = slot) ∧
    (f.publisher = .idle → f.ui = .idle →
      (∀ image, .polled image ∈ trace → .released image ∈ trace) →
      (∀ slot, (f.close.slots slot).state = .free) ∧ f.destroy = true) := by
  obtain ⟨tidy, told⟩ := Mailbox.mailbox_sound reached
  refine ⟨tidy.ready, fun action next events slot moved held => ?_, told.increasing, ?_, ?_, ?_⟩
  · refine Mailbox.step_pixels tidy moved ?_
    rcases held with claimed | leased
    · rw [claimed]
      nofun
    · rw [leased]
      nofun
  · intro image polled out
    have member := (told.kept image polled).resolve_left out
    have leased := (tidy.leased image.slot).mpr ⟨image, member, rfl⟩
    obtain ⟨source, published, number, pixels⟩ := told.content image.slot (by rw [leased]; rfl)
    rw [told.image image member] at number
    exact ⟨source, published, number,
      fun other before same => told.unique other source before published (same.trans number.symm),
      pixels⟩
  · intro slot
    cases state : (f.slots slot).state with
    | free => exact .inl rfl
    | ready => exact .inr (.inl rfl)
    | writing => exact .inr (.inr (.inl ⟨rfl, (tidy.writing slot).mp state⟩))
    | claimed => exact .inr (.inr (.inr (.inl ⟨rfl, (tidy.claimed slot).mp state⟩)))
    | leased =>
        obtain ⟨image, member, same⟩ := (tidy.leased slot).mp state
        obtain ⟨polled, out⟩ := told.lent image member
        exact .inr (.inr (.inr (.inr ⟨rfl, image, polled, out, same⟩)))
  · intro publisher ui back
    have none : f.images = [] := by
      refine List.eq_nil_iff_forall_not_mem.mpr fun image member => ?_
      obtain ⟨polled, out⟩ := told.lent image member
      exact out (back image polled)
    have freed := tidy.close_free publisher ui none
    refine ⟨freed, List.all_eq_true.mpr fun slot _ => ?_⟩
    rw [freed slot]
    rfl

/-- A frame of one pixel. -/
def dotSource (sequence : Nat) : Source where
  rgba channel := (sequence * 16 + channel).toUInt8
  address := 4096
  stride := 4
  capacity := 4
  sequence := sequence

/-- The second frame replaces nothing that is shown, and is shown next. -/
def twoFrameActions : List (MailboxAction 2) :=
  [.publish (dotSource 1), .publisher, .publisher, .poll, .publish (dotSource 2), .create true,
    .publisher, .publisher, .poll, .create true, .release ⟨0, 1⟩]

theorem mailbox_snapshots_shown :
    ∃ (trace : List (MailboxEvent 2)) (f : Mailbox 2),
      (mailboxMachine 2).Reaches Machine.Always trace f ∧ polledSequences trace = [1, 2] ∧
      (polledSequences trace).Pairwise (· < ·) := by
  obtain ⟨start, made⟩ : ∃ start : Mailbox 2, Mailbox.create 2 1 1 1000 100 65536 (2 ^ 32 - 1) =
      some start := Option.isSome_iff_exists.mp (by decide)
  obtain ⟨⟨f, trace⟩, executed⟩ : ∃ last, (mailboxMachine 2).execute start twoFrameActions =
      some last := by
    cases made
    exact Option.isSome_iff_exists.mp (by decide)
  have shown : ((mailboxMachine 2).execute start twoFrameActions).map
      (fun last => polledSequences last.2) = some [1, 2] := by
    cases made
    decide
  rw [executed] at shown
  have initial : (mailboxMachine 2).Initial start := ⟨_, _, _, _, _, _, made⟩
  have reached : (mailboxMachine 2).Reaches Machine.Always trace f :=
    (Machine.Reaches.start initial).execute executed
  exact ⟨trace, f, reached, Option.some.inj shown, (mailbox_snapshots reached).2.2.1⟩

end LvglAic.Apng
