import LvglAic.Apng.ComposeRefines
import LvglAic.Apng.ExtractWhole
import LvglAic.Apng.Stream
import LvglAic.Apng.TimelineOrder

/-! # The stream shows the frames of its file in order (`lv_aic_apng_stream.c`)

The cursor of the file and the index of the timeline move at different times.  What keeps
them together is the number of the frame that comes next.
-/

namespace LvglAic.Apng

open LvglAic.Machine

/-! ## Copies of a document -/

section
variable {d : ApngDocument} {m n : Memory} {place cursor : ℕ} {c : Chunk} {header : PngChunk}
  {before after : List Chunk} {last : Chunk}

theorem control_copied (copied : d.CopiedTo m place n) :
    control (d.moved place) n c = control d m c := by
  unfold control
  rw [read_copied copied]

theorem nextBody_copied (copied : d.CopiedTo m place n) :
    nextBody (d.moved place) n = nextBody d m := by
  funext s
  unfold nextBody
  simp only [chunk_copied copied, control_copied copied]
  rfl

/-- The search for a frame finds the same in the copy. -/
theorem next_copied (copied : d.CopiedTo m place n) :
    apngNext (d.moved place) n cursor = apngNext d m cursor := by
  unfold apngNext
  rw [nextBody_copied copied]
  rfl

/-- An extraction ends, and writes only to its output. -/
theorem extract_inside {sizeMax output capacity : ℕ} {f : ApngFrame}
    (opened : Opened d m header before after last) :
    ∃ ok log, apngExtract sizeMax d m f output capacity = .value (ok, log) ∧
      ∀ w ∈ log, output ≤ w.1 ∧ w.1 < output + capacity := by
  have outcomes : apngExtract sizeMax d m f output capacity = .value (false, []) ∨ _ :=
    extract_cases opened
  rcases outcomes with nothing | ⟨w, written, done, holds, length, _, room, _⟩
  · exact ⟨false, [], nothing, fun _ none => absurd none List.not_mem_nil⟩
  · refine ⟨true, w.log, done, fun v member => ?_⟩
    rw [holds.log] at member
    have bounds := Memory.mem_placed member
    omega

end

/-! ## The frame that comes next -/

theorem toNat_ofNat_le (value : ℕ) : (UInt32.ofNat value).toNat ≤ value := by
  rw [UInt32.toNat_ofNat']
  exact Nat.mod_le _ _

theorem toNat_ofNat_lt {value : ℕ} (small : value < 2 ^ 32) : (UInt32.ofNat value).toNat = value := by
  rw [UInt32.toNat_ofNat']
  exact Nat.mod_eq_of_lt small

namespace Timeline

variable {c next : Timeline} {step : Step} {now : UInt64}

/-- The number of the frame that comes next; it is zero when a play starts. -/
def upcoming (c : Timeline) : ℕ := if c.awaitingFrame then c.index else c.index + 1

theorem upcoming_awaiting (awaiting : c.awaitingFrame = true) : c.upcoming = c.index :=
  if_pos awaiting

theorem upcoming_idle (idle : c.awaitingFrame = false) : c.upcoming = c.index + 1 := by
  unfold upcoming
  rw [idle]
  rfl

/-- A rate that a clock accepts. -/
structure Rated (c : Timeline) : Prop where
  faster : c.rateNum ≤ c.rateDen * 10
  slower : c.rateDen ≤ c.rateNum * 10

/-- The clock stays in front of the same frame, or a new play starts. -/
structure Ahead (c next : Timeline) : Prop where
  sound : next.Sound
  frames : next.frames = c.frames
  upcoming : next.upcoming = c.upcoming ∨ next.upcoming = 0
  minimum : next.minimumDelayUs = c.minimumDelayUs
  rated : c.Rated → next.Rated

theorem Ahead.trans {read : Timeline} (first : Ahead c read) (second : Ahead read next) :
    Ahead c next := by
  refine ⟨second.sound, second.frames.trans first.frames, ?_, second.minimum.trans first.minimum,
    fun rated => second.rated (first.rated rated)⟩
  rcases second.upcoming with same | zero
  · rw [same]
    exact first.upcoming
  · exact .inr zero

theorem advance_ahead (sound : c.Sound) (moved : c.advance now = some next) : Ahead c next := by
  have kept := advance_sound sound moved
  obtain ⟨_, _, rfl⟩ := advance_cases sound moved
  exact ⟨kept, rfl, .inl rfl, rfl, fun rated => ⟨rated.faster, rated.slower⟩⟩

theorem catchUp_ahead (sound : c.Sound) (caught : c.catchUp = some next) : Ahead c next := by
  have kept := catchUp_sound sound caught
  rcases catchUp_cases sound caught with ⟨rfl, _⟩ | ⟨idle, _, turned⟩
  · exact ⟨sound, rfl, .inl rfl, rfl, id⟩
  · have coming := (upcoming_idle idle).symm
    rcases turn_cases sound turned with ⟨_, rfl⟩ | ⟨_, _, ⟨_, rfl⟩ | ⟨_, rfl⟩⟩
    · exact ⟨kept, rfl, .inl coming, rfl, fun rated => ⟨rated.faster, rated.slower⟩⟩
    · exact ⟨kept, rfl, .inl coming, rfl, fun rated => ⟨rated.faster, rated.slower⟩⟩
    · exact ⟨kept, rfl, .inr rfl, rfl, fun rated => ⟨rated.faster, rated.slower⟩⟩

theorem poll_ahead (sound : c.Sound) (polled : c.poll now = some (next, step)) :
    Ahead c next ∧ (step.action = .frame → next.awaitingFrame = true ∧
      step.frameIndex = next.index ∧ step.resetCanvas = decide (next.index = 0)) := by
  obtain ⟨read, reads, settled⟩ := Option.bind_eq_some_iff.mp polled
  have first := advance_ahead sound reads
  rcases settle_cases settled with ⟨_, rfl, rfl⟩ | ⟨_, _, rfl, rfl⟩ | ⟨_, _, caught, outcome⟩
  · exact ⟨first, fun never => by cases never⟩
  · exact ⟨first, fun never => by cases never⟩
  · refine ⟨first.trans (catchUp_ahead first.sound caught), fun drawing => ?_⟩
    rcases outcome with ⟨_, rfl⟩ | ⟨_, awaiting, rfl⟩ | ⟨_, _, wait, _, rfl⟩
    · cases drawing
    · exact ⟨awaiting, rfl, rfl⟩
    · cases drawing

theorem pause_ahead {paused : Bool} (sound : c.Sound) (moved : c.pause now paused = some next) :
    Ahead c next := by
  have kept := pause_sound sound moved
  obtain ⟨read, reads, rfl⟩ := pause_cases moved
  exact (advance_ahead sound reads).trans
    ⟨kept, rfl, .inl rfl, rfl, fun rated => ⟨rated.faster, rated.slower⟩⟩

theorem rate_accepted {num den : UInt32} (moved : c.rate now num den = some next) :
    num.toNat ≤ den.toNat * 10 ∧ den.toNat ≤ num.toNat * 10 := by
  unfold rate at moved
  split at moved
  · cases moved
  · rename_i accepted
    simp only [Bool.or_eq_true, not_or, decide_eq_true_eq, not_lt] at accepted
    obtain ⟨⟨⟨⟨_, numBound⟩, denBound⟩, slower⟩, faster⟩ := accepted
    rw [u64_of_lt (by omega)] at slower faster
    exact ⟨faster, slower⟩

theorem rate_ahead {num den : UInt32} (sound : c.Sound) (moved : c.rate now num den = some next) :
    Ahead c next := by
  have kept := rate_sound sound moved
  obtain ⟨faster, slower⟩ := rate_accepted moved
  obtain ⟨_, _, read, reads, rfl⟩ := rate_cases sound moved
  exact (advance_ahead sound reads).trans ⟨kept, rfl, .inl rfl, rfl, fun _ => ⟨faster, slower⟩⟩

theorem commit_pace {num den : UInt16} (sound : c.Sound)
    (committed : c.commit now num den = some next) :
    next.minimumDelayUs = c.minimumDelayUs ∧ (c.Rated → next.Rated) := by
  obtain ⟨_, _, read, reads, outcome⟩ := commit_cases sound committed
  obtain ⟨_, _, _, minimum, rated⟩ := advance_ahead sound reads
  have begun : read.start.minimumDelayUs = read.minimumDelayUs ∧
      read.start.rateNum = read.rateNum ∧ read.start.rateDen = read.rateDen := by
    rcases start_eq read with same | ⟨_, _, same⟩
    · rw [same]
      exact ⟨rfl, rfl, rfl⟩
    · rw [same]
      exact ⟨rfl, rfl, rfl⟩
  obtain ⟨startMinimum, startNum, startDen⟩ := begun
  have paced : next.minimumDelayUs = read.minimumDelayUs ∧ next.rateNum = read.rateNum ∧
      next.rateDen = read.rateDen := by
    rcases outcome with ⟨_, rfl⟩ | ⟨_, _, _, rfl, _⟩
    · exact ⟨startMinimum, startNum, startDen⟩
    · exact ⟨startMinimum, startNum, startDen⟩
  obtain ⟨nextMinimum, nextNum, nextDen⟩ := paced
  refine ⟨nextMinimum.trans minimum, fun before => ⟨?_, ?_⟩⟩
  · rw [nextNum, nextDen]
    exact (rated before).faster
  · rw [nextNum, nextDen]
    exact (rated before).slower

/-- A new clock stands in front of the first frame. -/
structure Fresh (frames minimum : UInt32) (now : UInt64) (c : Timeline) : Prop where
  sound : c.Sound
  frames : c.frames = frames.toNat
  upcoming : c.upcoming = 0
  minimum : c.minimumDelayUs = minimum.toNat
  rated : c.Rated
  last : c.lastUs = now.toNat

theorem init_fresh {frames plays minimum : UInt32} {animated : Bool}
    (made : init frames plays animated minimum now = some c) : c.Fresh frames minimum now := by
  have sound := init_sound made
  unfold init at made
  split at made
  · cases made
  · cases made
    have rate : 1 ≤ 1 * 10 := by decide
    exact ⟨sound, rfl, rfl, rfl, ⟨rate, rate⟩, rfl⟩

/-- Whether a clock can be made does not depend on the time. -/
theorem init_again {frames plays minimum : UInt32} {animated : Bool}
    (made : init frames plays animated minimum now = some c) (later : UInt64) :
    ∃ next, init frames plays animated minimum later = some next := by
  unfold init at made ⊢
  split at made
  · cases made
  · rename_i accepted
    rw [if_neg accepted]
    exact ⟨_, rfl⟩

/-- A clock can be read again at once. -/
theorem advance_again (sound : c.Sound) (last : c.lastUs = now.toNat) :
    ∃ read, c.advance now = some read ∧ read.lastUs = now.toNat ∧ read.rateNum = c.rateNum ∧
      read.rateDen = c.rateDen := by
  have still : c.elapsed now = 0 := by
    unfold elapsed
    rw [last, Nat.sub_self, ite_self]
  have media : c.mediaAt now / c.rateDen ≤ uint64Max := by
    have whole : c.media / c.rateDen = c.mediaUs := by
      unfold Timeline.media
      rw [Nat.mul_comm, Nat.mul_add_div sound.rateDen.1, Nat.div_eq_of_lt sound.fraction,
        Nat.add_zero]
    unfold mediaAt
    rw [still, Nat.zero_mul, Nat.add_zero, whole]
    exact sound.media
  have readable : ¬c.Unreadable now := by
    unfold Unreadable
    omega
  rw [advance_eq sound, if_neg readable]
  exact ⟨_, rfl, rfl, rfl, rfl⟩

/-- The rate of a clock is one that every clock takes. -/
theorem rate_taken (sound : c.Sound) (rated : c.Rated) (first : Timeline) (now : UInt64) :
    first.rate now (.ofNat c.rateNum) (.ofNat c.rateDen) =
      (first.advance now).map fun read => { read with
        mediaFraction := u32 (u64 (read.mediaFraction * c.rateDen) / read.rateDen)
        rateNum := c.rateNum
        rateDen := c.rateDen } := by
  obtain ⟨numPositive, numSmall⟩ := sound.rateNum
  obtain ⟨denPositive, denSmall⟩ := sound.rateDen
  obtain ⟨faster, slower⟩ := rated
  have num : (UInt32.ofNat c.rateNum).toNat = c.rateNum := toNat_ofNat_lt (by omega)
  have den : (UInt32.ofNat c.rateDen).toNat = c.rateDen := toNat_ofNat_lt (by omega)
  unfold rate
  rw [if_neg, num, den]
  simp only [Bool.or_eq_true, not_or, decide_eq_true_eq, num, den, not_lt]
  refine ⟨⟨⟨⟨⟨fun zero => ?_, fun zero => ?_⟩, numSmall⟩, denSmall⟩, ?_⟩, ?_⟩
  · rw [zero] at num
    exact numPositive.ne num
  · rw [zero] at den
    exact denPositive.ne den
  · rw [u64_of_lt (by omega)]
    exact slower
  · rw [u64_of_lt (by omega)]
    exact faster

/-- A clock takes the rate and the pause of another one over. -/
theorem replay_some {first : Timeline} (sound : c.Sound) (rated : c.Rated) (begun : first.Sound)
    (last : first.lastUs = now.toNat) :
    ∃ second third, first.rate now (.ofNat c.rateNum) (.ofNat c.rateDen) = some second ∧
      second.pause now c.paused = some third ∧ third.rateNum = c.rateNum ∧
      third.rateDen = c.rateDen ∧ third.paused = c.paused := by
  obtain ⟨read, reads, readLast, _⟩ := advance_again begun last
  have ran := rate_taken sound rated first now
  rw [reads, Option.map_some] at ran
  have secondSound := (rate_ahead begun ran).sound
  obtain ⟨again, rereads, _, againNum, againDen⟩ := advance_again secondSound readLast
  refine ⟨_, { again with paused := c.paused }, ran, ?_, againNum, againDen, rfl⟩
  unfold pause
  rw [rereads]
  rfl

end Timeline

/-! ## The memory of a stream -/

section
variable {d : ApngDocument} {m n : Memory} {s next : StreamState} {sizeMax : ℕ} {r : Reference}
  {canvas : ApngCanvas} {log : List (ℕ × UInt8)} {header : PngChunk} {before after : List Chunk}
  {last : Chunk}

/-- The copy of the file, the packet, the rectangle and the canvas stand one after the other. -/
structure StreamState.Placed (d : ApngDocument) (m : Memory) (s : StreamState) : Prop where
  doc : s.stream.doc = d.moved s.stream.doc.data
  present : s.stream.doc.data ≠ 0
  copied : d.CopiedTo m s.stream.doc.data s.memory
  png : s.stream.doc.data + d.size ≤ s.stream.png
  rectangle : s.stream.png + s.stream.pngBytes ≤ s.stream.rectangle
  canvas : ∀ a, s.stream.canvas.Owns a → s.stream.rectangle + s.stream.rectangleBytes ≤ a
  width : s.stream.canvas.width = d.width
  height : s.stream.canvas.height = d.height
  fits : ∀ i, i < d.frames → ∃ f, documentFrame d m i = .value f ∧ f.pngBytes ≤ s.stream.pngBytes ∧
    f.width * f.height * 4 ≤ s.stream.rectangleBytes

/-- The places are the same, and so are the bytes of the file. -/
structure StreamState.Same (s next : StreamState) : Prop where
  doc : next.stream.doc = s.stream.doc
  png : next.stream.png = s.stream.png
  pngBytes : next.stream.pngBytes = s.stream.pngBytes
  rectangle : next.stream.rectangle = s.stream.rectangle
  rectangleBytes : next.stream.rectangleBytes = s.stream.rectangleBytes
  owns : ∀ a, next.stream.canvas.Owns a → s.stream.canvas.Owns a
  width : next.stream.canvas.width = s.stream.canvas.width
  height : next.stream.canvas.height = s.stream.canvas.height
  below : ∀ a, a < s.stream.png → next.memory a = s.memory a

theorem StreamState.Placed.same (placed : s.Placed d m) (same : s.Same next) : next.Placed d m := by
  obtain ⟨doc, present, copied, png, rectangle, canvas, width, height, fits⟩ := placed
  refine ⟨?_, ?_, fun i inside => ?_, ?_, ?_, fun a owned => ?_, same.width.trans width,
    same.height.trans height, fun i few => ?_⟩
  · rw [same.doc]
    exact doc
  · rw [same.doc]
    exact present
  · rw [same.doc, same.below _ (by omega)]
    exact copied i inside
  · rw [same.doc, same.png]
    exact png
  · rw [same.png, same.pngBytes, same.rectangle]
    exact rectangle
  · rw [same.rectangle, same.rectangleBytes]
    exact canvas a (same.owns a owned)
  · rw [same.pngBytes, same.rectangleBytes]
    exact fits i few

theorem StreamState.Placed.stored (placed : s.Placed d m)
    (inside : ∀ w ∈ log, s.stream.png ≤ w.1 ∧ w.1 < s.stream.png + s.stream.pngBytes) :
    s.Same { s with memory := s.memory.stores log } ∧
      ∀ a, s.stream.canvas.Owns a → s.memory.stores log a = s.memory a := by
  refine ⟨⟨rfl, rfl, rfl, rfl, rfl, fun _ => id, rfl, rfl, fun a low => ?_⟩, fun a owned => ?_⟩
  · refine Memory.stores_other fun w member => ?_
    have bounds := inside w member
    omega
  · refine Memory.stores_other fun w member => ?_
    have bounds := inside w member
    have above := placed.canvas a owned
    have order := placed.rectangle
    omega

theorem StreamState.Placed.decoded (placed : s.Placed d m) (contents : ℕ → UInt8) :
    s.Same (s.decoded contents) ∧
      ∀ a, s.stream.canvas.Owns a → (s.decoded contents).memory a = s.memory a := by
  refine ⟨⟨rfl, rfl, rfl, rfl, rfl, fun _ => id, rfl, rfl, fun a low => ?_⟩, fun a owned => ?_⟩
  · refine if_neg fun within => ?_
    have order := placed.rectangle
    omega
  · refine if_neg fun within => ?_
    have above := placed.canvas a owned
    omega

/-- A canvas that was drawn on. -/
structure Redrawn (c canvas : ApngCanvas) (m n : Memory) : Prop where
  owns : ∀ a, canvas.Owns a → c.Owns a
  width : canvas.width = c.width
  height : canvas.height = c.height
  confined : Confined c m n

theorem Redrawn.same (placed : s.Placed d m) (drawn : Redrawn s.stream.canvas canvas s.memory n) :
    s.Same ⟨{ s.stream with canvas }, n⟩ := by
  refine ⟨rfl, rfl, rfl, rfl, rfl, drawn.owns, drawn.width, drawn.height, fun a low => ?_⟩
  refine drawn.confined a fun owned => ?_
  have above := placed.canvas a owned
  have order := placed.rectangle
  omega

theorem cleared_follows (placed : s.Placed d m)
    (mirrors : Mirrors sizeMax s.stream.canvas s.memory r) (reset : Bool) :
    ∃ canvas n, s.cleared reset = .value ⟨{ s.stream with canvas }, n⟩ ∧
      Redrawn s.stream.canvas canvas s.memory n ∧
      Mirrors sizeMax canvas n (if reset then .blank d.width d.height else r) := by
  cases reset with
  | false => exact ⟨s.stream.canvas, s.memory, rfl, ⟨fun _ => id, rfl, rfl, .refl _ _⟩, mirrors⟩
  | true =>
      obtain ⟨n, ran, confined, blank⟩ := reset_blank (m := s.memory) mirrors.laid
      refine ⟨{ s.stream.canvas with havePrevious := false }, n, ?_,
        ⟨fun _ => id, rfl, rfl, confined⟩, ?_⟩
      · unfold StreamState.cleared
        rw [ran]
        rfl
      · rw [if_pos rfl, ← placed.width, ← placed.height]
        exact blank

theorem present_follows (mirrors : Mirrors sizeMax s.stream.canvas s.memory r) (f : ApngFrame)
    (cursor : ℕ) (later : UInt64) :
    ∃ canvas n, Redrawn s.stream.canvas canvas s.memory n ∧
      (s.present sizeMax f cursor later =
          .value (StreamState.failed ⟨{ s.stream with canvas }, n⟩, false) ∨
        ∃ clock, s.stream.clock.commit later (.ofNat f.delayNum) (.ofNat f.delayDen) = some clock ∧
          s.present sizeMax f cursor later =
            .value (⟨{ s.stream with canvas, clock, cursor, sequence := s.stream.sequence + 1 }, n⟩,
              true) ∧
          Mirrors sizeMax canvas n (r.draw f (s.source f))) := by
  cases accepted : s.stream.canvas.composable sizeMax f s.stream.rectangle (f.width * 4)
      s.stream.rectangleBytes with
  | none =>
      have ran : s.stream.canvas.compose sizeMax f s.stream.rectangle (f.width * 4)
          s.stream.rectangleBytes s.memory = some (false, s.stream.canvas, s.memory) := by
        unfold ApngCanvas.compose
        rw [accepted]
      refine ⟨s.stream.canvas, s.memory, ⟨fun _ => id, rfl, rfl, .refl _ _⟩, .inl ?_⟩
      unfold StreamState.present
      rw [ran]
      rfl
  | some bytes =>
      obtain ⟨n, ran, confined, drawn⟩ := compose_drawn mirrors accepted
      refine ⟨s.stream.canvas.drew f, n, ⟨fun _ => id, rfl, rfl, confined⟩, ?_⟩
      unfold StreamState.present
      rw [ran]
      simp only [orStray, Outcome.value_bind, Bool.not_true, Bool.false_eq_true, if_false]
      cases s.stream.clock.commit later (.ofNat f.delayNum) (.ofNat f.delayDen) with
      | none => exact .inl rfl
      | some clock => exact .inr ⟨clock, rfl, rfl, drawn⟩

/-- What a frame leaves behind that was taken with the cursor and composed. -/
structure Produced (sizeMax : ℕ) (d : ApngDocument) (m : Memory) (r : Reference) (f : ApngFrame)
    (source : Picture (Rgba ℕ)) (cursor : ℕ) (later : UInt64) (s next : StreamState) : Prop where
  placed : next.Placed d m
  mirrors : Mirrors sizeMax next.stream.canvas next.memory (r.draw f source)
  commit : s.stream.clock.commit later (.ofNat f.delayNum) (.ofNat f.delayDen) =
    some next.stream.clock
  cursor : next.stream.cursor = cursor
  sequence : next.stream.sequence = s.stream.sequence + 1
  fault : next.stream.fault = s.stream.fault

/-- A fault ends a stream. -/
structure Failed (s next : StreamState) : Prop where
  fault : next.stream.fault = true
  sequence : next.stream.sequence = s.stream.sequence

theorem draw_follows (placed : s.Placed d m)
    (mirrors : Mirrors sizeMax s.stream.canvas s.memory r) (f : ApngFrame) (cursor : ℕ)
    (reset : Bool) (later : UInt64) :
    (∃ next, s.draw sizeMax f cursor reset later = .value (next, none) ∧ Failed s next) ∨
      ∃ next source, s.draw sizeMax f cursor reset later = .value (next, some (f, source)) ∧
        Produced sizeMax d m (if reset then .blank d.width d.height else r) f source cursor later
          s next := by
  obtain ⟨canvas, n, cleared, blank, first⟩ := cleared_follows placed mirrors reset
  have ready := placed.same (blank.same placed)
  unfold StreamState.draw
  rw [cleared, Outcome.value_bind]
  obtain ⟨after, k, drawn, shown⟩ :=
    present_follows (s := ⟨{ s.stream with canvas }, n⟩) first f cursor later
  rcases shown with failed | ⟨clock, committed, done, second⟩
  · rw [failed]
    exact .inl ⟨_, rfl, rfl, rfl⟩
  · have same := drawn.same ready
    rw [done]
    exact .inr ⟨_, _, rfl, ready.same ⟨same.doc, same.png, same.pngBytes, same.rectangle,
      same.rectangleBytes, same.owns, same.width, same.height, same.below⟩, second, committed, rfl,
      rfl, rfl⟩

theorem produce_follows (opened : Opened d m header before after last) (placed : s.Placed d m)
    (mirrors : Mirrors sizeMax s.stream.canvas s.memory r) (step : Step) (later : UInt64) (ok : Bool)
    (contents : ℕ → UInt8) :
    (∃ next, s.produce sizeMax step later ok contents = .value (next, none) ∧ Failed s next) ∨
      ∃ next f source cursor,
        s.produce sizeMax step later ok contents = .value (next, some (f, source)) ∧
        apngNext d m (if step.resetCanvas then 0 else s.stream.cursor) = .value (f, cursor) ∧
        Produced sizeMax d m (if step.resetCanvas then .blank d.width d.height else r) f source cursor
          later s next := by
  unfold StreamState.produce
  split
  · exact .inl ⟨_, rfl, rfl, rfl⟩
  · have same : apngNext s.stream.doc s.memory = apngNext d m := by
      rw [placed.doc]
      exact funext fun _ => next_copied placed.copied
    rw [same]
    cases found : apngNext d m (if step.resetCanvas then 0 else s.stream.cursor) with
    | stray => exact absurd found next_ne_stray
    | refused => exact .inl ⟨_, rfl, rfl, rfl⟩
    | value taken =>
        obtain ⟨f, cursor⟩ := taken
        have copy : Opened s.stream.doc s.memory header before after last := by
          rw [placed.doc]
          exact opened.copied placed.copied placed.present
        obtain ⟨extracted, log, written, inside⟩ : ∃ extracted log,
            apngExtract sizeMax s.stream.doc s.memory f s.stream.png s.stream.pngBytes =
              .value (extracted, log) ∧ _ := extract_inside copy
        dsimp only
        rw [written, Outcome.value_bind]
        dsimp only
        cases extracted with
        | false => exact .inl ⟨_, rfl, rfl, rfl⟩
        | true =>
            cases ok with
            | false => exact .inl ⟨_, rfl, rfl, rfl⟩
            | true =>
                obtain ⟨stored, kept⟩ := placed.stored inside
                have filled := placed.same stored
                obtain ⟨decoded, left⟩ := filled.decoded contents
                have supplied := (mirrors.supply kept).supply left
                rcases draw_follows (filled.same decoded) supplied f cursor step.resetCanvas later
                  with ⟨next, ran, fault, sequence⟩ |
                    ⟨next, source, ran, placed, shown, commit, further, sequence, fault⟩
                · exact .inl ⟨next, ran, fault, sequence⟩
                · exact .inr ⟨next, f, source, cursor, ran, rfl, placed, shown, commit, further,
                    sequence, fault⟩

end

/-! ## Ticks -/

section
variable {d : ApngDocument} {m : Memory} {s next : StreamState} {sizeMax : ℕ}
  {pass : List (ApngFrame × Picture (Rgba ℕ))} {header : PngChunk} {before after : List Chunk}
  {last : Chunk} {clock : Timeline}

/-- The canvas shows the pass so far, and the cursor stands in front of the frame that comes next. -/
structure StreamState.Follows (sizeMax : ℕ) (d : ApngDocument) (m : Memory)
    (pass : List (ApngFrame × Picture (Rgba ℕ))) (s : StreamState) : Prop where
  placed : s.Placed d m
  mirrors : Mirrors sizeMax s.stream.canvas s.memory (.pass d.width d.height pass)
  clock : s.stream.clock.Sound
  frames : s.stream.clock.frames ≤ d.frames
  rated : s.stream.clock.Rated
  again : ∀ now, ∃ fresh, Timeline.init (.ofNat d.frames) (.ofNat d.plays) d.animated
    (.ofNat s.stream.clock.minimumDelayUs) now = some fresh
  cursor : s.stream.clock.upcoming ≠ 0 →
    documentCursor d m s.stream.clock.upcoming = .value s.stream.cursor
  length : s.stream.clock.upcoming ≠ 0 → pass.length = s.stream.clock.upcoming
  pass : ∀ i (inside : i < pass.length), documentFrame d m i = .value pass[i].1

/-- The clock may move to the frame that comes next, or to a new play. -/
theorem StreamState.Follows.retimed (follows : s.Follows sizeMax d m pass)
    (ahead : s.stream.clock.Ahead clock) :
    StreamState.Follows sizeMax d m pass { s with stream := { s.stream with clock } } := by
  obtain ⟨placed, mirrors, _, few, rated, again, cursor, length, frames⟩ := follows
  refine ⟨placed.same ⟨rfl, rfl, rfl, rfl, rfl, fun _ => id, rfl, rfl, fun _ _ => rfl⟩, mirrors,
    ahead.sound, ahead.frames.le.trans few, ahead.rated rated, fun now => ?_, fun further => ?_,
    fun further => ?_, frames⟩
  · change ∃ fresh, Timeline.init _ _ _ (.ofNat clock.minimumDelayUs) now = some fresh
    rw [ahead.minimum]
    exact again now
  · rcases ahead.upcoming with same | zero
    · change documentCursor d m clock.upcoming = _
      rw [same] at further ⊢
      exact cursor further
    · exact absurd zero further
  · rcases ahead.upcoming with same | zero
    · change pass.length = clock.upcoming
      rw [same] at further ⊢
      exact length further
    · exact absurd zero further

/-- The search for the frame of a tick starts where the frame stands. -/
theorem StreamState.Follows.here (follows : s.Follows sizeMax d m pass)
    (awaiting : s.stream.clock.awaitingFrame = true) :
    documentCursor d m s.stream.clock.index =
      .value (if decide (s.stream.clock.index = 0) then 0 else s.stream.cursor) := by
  have before := follows.cursor
  rw [Timeline.upcoming_awaiting awaiting] at before
  by_cases zero : s.stream.clock.index = 0
  · rw [if_pos (decide_eq_true zero), zero]
    rfl
  · rw [if_neg (by rw [decide_eq_true_eq]; exact zero)]
    exact before zero

theorem frames_snoc {f : ApngFrame} {source : Picture (Rgba ℕ)}
    (frames : ∀ i (inside : i < pass.length), documentFrame d m i = .value pass[i].1)
    (found : documentFrame d m pass.length = .value f) :
    ∀ i (inside : i < (pass ++ [(f, source)]).length),
      documentFrame d m i = .value (pass ++ [(f, source)])[i].1 := by
  intro i inside
  rw [List.length_append, List.length_singleton] at inside
  rcases Nat.lt_succ_iff_lt_or_eq.mp inside with earlier | rfl
  · rw [List.getElem_append_left earlier]
    exact frames i earlier
  · rw [List.getElem_concat_length rfl]
    exact found

theorem continued_length {index : ℕ} (length : index ≠ 0 → pass.length = index) :
    (continued index pass).length = index := by
  unfold continued
  by_cases zero : index = 0
  · rw [if_pos zero, zero]
    rfl
  · rw [if_neg zero]
    exact length zero

theorem continued_frames {index : ℕ}
    (frames : ∀ i (inside : i < pass.length), documentFrame d m i = .value pass[i].1) :
    ∀ i (inside : i < (continued index pass).length),
      documentFrame d m i = .value (continued index pass)[i].1 := by
  by_cases zero : index = 0
  · have empty : continued index pass = [] := if_pos zero
    rw [empty]
    exact fun i inside => absurd inside (Nat.not_lt_zero i)
  · have same : continued index pass = pass := if_neg zero
    rw [same]
    exact frames

theorem continued_drawn (width height index : ℕ) (drawn : ApngFrame × Picture (Rgba ℕ)) :
    Reference.pass width height (continued index pass ++ [drawn]) =
      (if decide (index = 0) then .blank width height else Reference.pass width height pass).draw
        drawn.1 drawn.2 := by
  unfold Reference.pass
  rw [List.foldl_append]
  by_cases zero : index = 0
  · rw [if_pos (decide_eq_true zero)]
    unfold continued
    rw [if_pos zero]
    rfl
  · rw [if_neg (by rw [decide_eq_true_eq]; exact zero)]
    unfold continued
    rw [if_neg zero]
    rfl

/-- A frame that was produced for the tick is the next one of the pass. -/
theorem Produced.follows {f : ApngFrame} {source : Picture (Rgba ℕ)} {cursor : ℕ}
    {later : UInt64} (follows : s.Follows sizeMax d m pass)
    (awaiting : s.stream.clock.awaitingFrame = true)
    (found : apngNext d m (if decide (s.stream.clock.index = 0) then 0 else s.stream.cursor) =
      .value (f, cursor))
    (produced : Produced sizeMax d m (if decide (s.stream.clock.index = 0) then
      .blank d.width d.height else .pass d.width d.height pass) f source cursor later s next) :
    documentFrame d m s.stream.clock.index = .value f ∧
      next.Follows sizeMax d m (continued s.stream.clock.index pass ++ [(f, source)]) := by
  have here := follows.here awaiting
  obtain ⟨_, _, sound, few, rated, again, _, length, frames⟩ := follows
  rw [Timeline.upcoming_awaiting awaiting] at length
  have frame : documentFrame d m s.stream.clock.index = .value f := by
    unfold documentFrame
    rw [here, Outcome.value_bind, found]
    rfl
  have further : documentCursor d m (s.stream.clock.index + 1) = .value cursor := by
    rw [documentCursor, here, Outcome.value_bind, found]
    rfl
  obtain ⟨_, _, idle, index, kept, _⟩ := Timeline.commit_order sound produced.commit
  have counted := continued_length length
  have coming : next.stream.clock.upcoming = s.stream.clock.index + 1 := by
    rw [Timeline.upcoming_idle idle, index]
  obtain ⟨minimum, paced⟩ := Timeline.commit_pace sound produced.commit
  refine ⟨frame, produced.placed, ?_, Timeline.commit_sound sound produced.commit,
    kept.le.trans few, paced rated, by rw [minimum]; exact again, fun _ => ?_, fun _ => ?_,
    frames_snoc (continued_frames frames) (by rw [counted]; exact frame)⟩
  · rw [continued_drawn]
    exact produced.mirrors
  · rw [coming, produced.cursor]
    exact further
  · rw [coming, List.length_append, counted]
    rfl

end

/-! ## Events -/

section
variable {d : ApngDocument} {m : Memory} {s next : StreamState} {sizeMax : ℕ}
  {trace : List StreamEvent} {e : StreamEvent} {header : PngChunk} {before after : List Chunk}
  {last : Chunk}

theorem currentPass_snoc : currentPass (trace ++ [e]) = passAfter (currentPass trace) e := by
  unfold currentPass
  rw [List.foldl_append]
  rfl

theorem composed_snoc :
    composed (trace ++ [e]) = composed trace + if e.drawn.isSome then 1 else 0 := by
  unfold composed
  rw [List.filter_append, List.length_append]
  cases drawn : e.drawn.isSome with
  | false =>
      have none : [e].filter (fun e => e.drawn.isSome) = [] :=
        List.filter_cons_of_neg (by rw [drawn]; exact Bool.false_ne_true)
      rw [none]
      rfl
  | true =>
      have one : [e].filter (fun e => e.drawn.isSome) = [e] := List.filter_cons_of_pos drawn
      rw [one]
      rfl

/-- The event of a tick after those before it: a frame is composed for each step `FRAME`, and it
is the frame of the document with the number of the step. -/
structure Numbered (d : ApngDocument) (m : Memory) (before : List StreamEvent) (e : StreamEvent) :
    Prop where
  drawn : e.drawn.isSome = true ↔ e.view.step.action = .frame
  frame : ∀ drawn, e.drawn = some drawn → documentFrame d m e.view.step.frameIndex = .value drawn.1
  length : e.drawn.isSome = true →
    (currentPass (before ++ [e])).length = e.view.step.frameIndex + 1
  sequence : e.view.sequence = composed (before ++ [e])

theorem tick_follows (opened : Opened d m header before after last)
    (follows : s.Follows sizeMax d m (currentPass trace)) (running : s.stream.fault = false)
    (count : s.stream.sequence = composed trace) (now later : UInt64) (ok : Bool)
    (contents : ℕ → UInt8) :
    (∃ next, apngStreamTick sizeMax s now later ok contents = .value (next, none) ∧ Failed s next) ∨
      ∃ next e, apngStreamTick sizeMax s now later ok contents = .value (next, some e) ∧
        Numbered d m trace e ∧ next.stream.sequence = composed (trace ++ [e]) ∧
        next.Follows sizeMax d m (currentPass (trace ++ [e])) := by
  unfold apngStreamTick
  rw [running, if_neg Bool.false_ne_true]
  cases polled : s.stream.clock.poll now with
  | none => exact .inl ⟨_, rfl, rfl, rfl⟩
  | some answer =>
      obtain ⟨clock, step⟩ := answer
      obtain ⟨ahead, framed⟩ := Timeline.poll_ahead follows.clock polled
      have retimed := follows.retimed ahead
      dsimp only
      by_cases drawing : step.action = .frame
      · rw [if_pos drawing]
        obtain ⟨awaiting, index, reset⟩ := framed drawing
        rcases produce_follows opened retimed.placed retimed.mirrors step later ok contents with
          ⟨next, ran, failed⟩ | ⟨next, f, source, cursor, ran, found, produced⟩
        · rw [ran]
          exact .inl ⟨next, rfl, failed.fault, failed.sequence⟩
        · rw [reset] at found produced
          obtain ⟨taken, shown⟩ := produced.follows retimed awaiting found
          have continues : currentPass (trace ++ [⟨next.view step, some (f, source)⟩]) =
              continued clock.index (currentPass trace) ++ [(f, source)] := by
            rw [currentPass_snoc, ← index]
            rfl
          have counted : next.stream.sequence =
              composed (trace ++ [⟨next.view step, some (f, source)⟩]) := by
            rw [composed_snoc, ← count]
            exact produced.sequence
          have length : (continued clock.index (currentPass trace)).length = clock.index := by
            refine continued_length fun further => ?_
            have counts := retimed.length
            rw [Timeline.upcoming_awaiting awaiting] at counts
            exact counts further
          rw [ran, Outcome.value_bind]
          refine .inr ⟨next, ⟨next.view step, some (f, source)⟩, rfl,
            ⟨iff_of_true rfl drawing, fun drawn same => ?_, fun _ => ?_, counted⟩, counted, ?_⟩
          · cases same
            change documentFrame d m step.frameIndex = _
            rw [index]
            exact taken
          · rw [continues, List.length_append, length, ← index]
            rfl
          · rw [continues]
            exact shown
      · rw [if_neg drawing]
        have counted : s.stream.sequence = composed (trace ++
            [⟨StreamState.view { s with stream := { s.stream with clock } } step, none⟩]) := by
          rw [composed_snoc]
          exact count
        refine .inr ⟨_, ⟨StreamState.view { s with stream := { s.stream with clock } } step, none⟩,
          rfl, ⟨iff_of_false Bool.false_ne_true drawing, fun _ never => ?_, fun never => ?_, counted⟩,
          counted, ?_⟩
        · cases never
        · cases never
        · rw [currentPass_snoc]
          exact retimed

end

/-! ## The other calls, and opening -/

section
variable {d : ApngDocument} {m : Memory} {s next : StreamState} {sizeMax record : ℕ}
  {trace : List StreamEvent} {pass : List (ApngFrame × Picture (Rgba ℕ))} {now : UInt64}

/-- A call that changes the clock only. -/
theorem retime_follows {change : Timeline → Option Timeline}
    (steady : ∀ c next, c.Sound → change c = some next → c.Ahead next) :
    ((s.stream.retime change).getD s.stream).fault = s.stream.fault ∧
      ((s.stream.retime change).getD s.stream).sequence = s.stream.sequence ∧
      (s.Follows sizeMax d m pass → StreamState.Follows sizeMax d m pass
        { s with stream := (s.stream.retime change).getD s.stream }) := by
  unfold ApngStream.retime
  split
  · exact ⟨rfl, rfl, id⟩
  · cases changed : change s.stream.clock with
    | none => exact ⟨rfl, rfl, id⟩
    | some clock =>
        exact ⟨rfl, rfl, fun follows => follows.retimed (steady _ _ follows.clock changed)⟩

theorem restart_follows :
    ((apngStreamRestart s.stream now).getD s.stream).fault = s.stream.fault ∧
      ((apngStreamRestart s.stream now).getD s.stream).sequence = s.stream.sequence ∧
      (s.Follows sizeMax d m pass → StreamState.Follows sizeMax d m pass
        { s with stream := (apngStreamRestart s.stream now).getD s.stream }) := by
  cases result : apngStreamRestart s.stream now with
  | none => exact ⟨rfl, rfl, id⟩
  | some after =>
      unfold apngStreamRestart at result
      split at result
      · cases result
      · obtain ⟨first, made, result⟩ := Option.bind_eq_some_iff.mp result
        obtain ⟨second, rated, result⟩ := Option.bind_eq_some_iff.mp result
        obtain ⟨clock, paused, result⟩ := Option.bind_eq_some_iff.mp result
        cases result
        have fresh := Timeline.init_fresh made
        have turned := (Timeline.rate_ahead fresh.sound rated).trans
          (Timeline.pause_ahead (Timeline.rate_ahead fresh.sound rated).sound paused)
        have upcoming : clock.upcoming = 0 := by
          rcases turned.upcoming with same | zero
          · exact same.trans fresh.upcoming
          · exact zero
        refine ⟨rfl, rfl, fun follows => ?_⟩
        obtain ⟨placed, mirrors, _, _, _, again, _, _, drawn⟩ := follows
        refine ⟨placed.same ⟨rfl, rfl, rfl, rfl, rfl, fun _ => id, rfl, rfl, fun _ _ => rfl⟩,
          mirrors, turned.sound, ?_, turned.rated fresh.rated, fun now => ?_,
          fun further => absurd upcoming further, fun further => absurd upcoming further, drawn⟩
        · change clock.frames ≤ d.frames
          have count : s.stream.doc.frames = d.frames := by
            rw [placed.doc]
            rfl
          rw [turned.frames, fresh.frames, count]
          exact toNat_ofNat_le d.frames
        · change ∃ fresh, Timeline.init _ _ _ (.ofNat clock.minimumDelayUs) now = some fresh
          rw [turned.minimum, fresh.minimum, UInt32.ofNat_toNat]
          exact again now

theorem orStray_value {Answer : Type} {o : Option Answer} {answer : Answer}
    (done : orStray o = .value answer) : o = some answer := by
  cases o with
  | none => cases done
  | some other =>
      cases done
      rfl

theorem orRefused_value {Answer : Type} {o : Option Answer} {answer : Answer}
    (done : orRefused o = .value answer) : o = some answer := by
  cases o with
  | none => cases done
  | some other =>
      cases done
      rfl

theorem owns_above {c : ApngCanvas} {least a : ℕ} (pixels : least ≤ c.pixels)
    (scratch : least ≤ c.scratch) (owned : c.Owns a) : least ≤ a := by
  rcases owned with ⟨y, low, i, left, rfl⟩ | ⟨low, below⟩
  · exact pixels.trans (Nat.le_add_right _ _)
  · exact scratch.trans low

/-- A file that is copied stands at its new place. -/
theorem copy_copied {n : Memory} {place room : ℕ}
    (copied : m.copy place room 0 d.data d.size 0 d.size = some n) : d.CopiedTo m place n := by
  unfold Memory.copy at copied
  split at copied
  · cases copied
    intro i inside
    refine (if_pos (by omega)).trans ?_
    rw [Nat.add_zero, Nat.add_zero, Nat.add_sub_cancel_left]
  · cases copied

/-- The sizes that opening has found are enough for all frames behind the cursor. -/
theorem sizes_fold {items : List ℕ} {k : ℕ} {sizes total : FrameSizes}
    (start : documentCursor d m k = .value sizes.cursor)
    (done : items.foldlM (sizeFrame d m) sizes = .value total) :
    (sizes.pngBytes ≤ total.pngBytes ∧ sizes.rectangleBytes ≤ total.rectangleBytes) ∧
      ∀ i, i < items.length → ∃ f, documentFrame d m (k + i) = .value f ∧
        f.pngBytes ≤ total.pngBytes ∧ f.width * f.height * 4 ≤ total.rectangleBytes := by
  induction items generalizing sizes k with
  | nil =>
      cases done
      exact ⟨⟨le_rfl, le_rfl⟩, fun i few => absurd few (Nat.not_lt_zero i)⟩
  | cons _ rest ih =>
      rw [List.foldlM_cons] at done
      obtain ⟨next, sized, done⟩ := Outcome.bind_eq_value.mp done
      obtain ⟨⟨f, cursor⟩, found, same⟩ := Outcome.bind_eq_value.mp sized
      have further : documentCursor d m (k + 1) = .value cursor := by
        rw [documentCursor, start, Outcome.value_bind, found]
        rfl
      cases same
      obtain ⟨⟨png, rectangle⟩, later⟩ := ih further done
      dsimp only at png rectangle
      have packets : sizes.pngBytes ≤ total.pngBytes ∧ f.pngBytes ≤ total.pngBytes := by
        split at png <;> omega
      have rectangles : sizes.rectangleBytes ≤ total.rectangleBytes ∧
          f.width * f.height * 4 ≤ total.rectangleBytes := by
        split at rectangle <;> omega
      refine ⟨⟨packets.1, rectangles.1⟩, fun i few => ?_⟩
      cases i with
      | zero =>
          refine ⟨f, ?_, packets.2, rectangles.2⟩
          unfold documentFrame
          rw [Nat.add_zero, start, Outcome.value_bind, found]
          rfl
      | succ i =>
          have found := later i (Nat.lt_of_succ_lt_succ few)
          rwa [Nat.add_right_comm, Nat.add_assoc] at found

theorem open_follows {data size storage : ℕ} {config : ApngStreamConfig} {decoder : Bool}
    (done : apngStreamOpen sizeMax record m data size config now storage decoder = .value s) :
    ∃ d, apngOpen sizeMax m data size config.limits = .value d ∧ s.Follows sizeMax d m [] ∧
      s.stream.sequence = 0 := by
  unfold apngStreamOpen at done
  obtain ⟨_, done⟩ := Outcome.ite_refused.mp done
  obtain ⟨d, accepted, done⟩ := Outcome.bind_eq_value.mp done
  obtain ⟨sizes, sized, done⟩ := Outcome.bind_eq_value.mp done
  obtain ⟨_, done⟩ := Outcome.ite_refused.mp done
  obtain ⟨total, _, done⟩ := Outcome.bind_eq_value.mp done
  obtain ⟨clock, timed, done⟩ := Outcome.bind_eq_value.mp done
  obtain ⟨given, done⟩ := Outcome.ite_refused.mp done
  obtain ⟨n, copy, done⟩ := Outcome.bind_eq_value.mp done
  obtain ⟨made, drawn, done⟩ := Outcome.bind_eq_value.mp done
  obtain ⟨answer, cleared, done⟩ := Outcome.bind_eq_value.mp done
  obtain ⟨canvas, k⟩ := answer
  cases done
  obtain ⟨⟨rfl, rfl, _⟩, _⟩ := open_opened accepted
  have copied := copy_copied (orStray_value copy)
  obtain rfl := orRefused_value cleared
  obtain ⟨mirrors, confined, same⟩ := init_blank (orStray_value drawn)
  have above : ∀ a, canvas.Owns a →
      storage + d.size + sizes.pngBytes + sizes.rectangleBytes ≤ a := by
    rw [same]
    exact fun a owned => owns_above le_rfl (Nat.le_add_right _ _) owned
  subst same
  have started := orRefused_value timed
  have fresh := Timeline.init_fresh started
  have found := (sizes_fold (k := 0) rfl sized).2
  rw [List.length_range] at found
  simp only [Bool.or_eq_true, decide_eq_true_eq, not_or] at given
  refine ⟨d, accepted, ⟨⟨rfl, given.1, fun i inside => ?_, le_rfl, le_rfl, above, rfl, rfl,
    fun i few => ?_⟩, mirrors, fresh.sound, ?_, fresh.rated, fun now => ?_,
    fun further => absurd fresh.upcoming further, fun further => absurd fresh.upcoming further,
    fun i inside => absurd inside (Nat.not_lt_zero i)⟩, rfl⟩
  · refine (confined _ fun owned => ?_).trans (copied i inside)
    have far : storage + d.size + sizes.pngBytes + sizes.rectangleBytes ≤ storage + i :=
      above _ owned
    omega
  · have fits := found i few
    rwa [Nat.zero_add] at fits
  · change clock.frames ≤ d.frames
    rw [fresh.frames]
    exact toNat_ofNat_le d.frames
  · change ∃ fresh, Timeline.init _ _ _ (.ofNat clock.minimumDelayUs) now = some fresh
    rw [fresh.minimum, UInt32.ofNat_toNat]
    exact Timeline.init_again started now

end

/-! ## Runs -/

section
variable {d : ApngDocument} {s t : StreamState} {sizeMax record : ℕ} {trace : List StreamEvent}
  {file : StreamFile} {header : PngChunk} {before after : List Chunk} {last : Chunk}

structure StreamSound (sizeMax : ℕ) (d : ApngDocument) (m : Memory) (trace : List StreamEvent)
    (s : StreamState) : Prop where
  numbered : Guarded (Numbered d m) trace
  sequence : s.stream.sequence = composed trace
  follows : s.stream.fault = false → s.Follows sizeMax d m (currentPass trace)

/-- No call goes wrong, and none leaves the order. -/
theorem step_sound (opened : Opened d file.memory header before after last)
    (sound : StreamSound sizeMax d file.memory trace s) (call : StreamCall) :
    ∃ next events, (streamMachine sizeMax record file).step s call = some (next, events) ∧
      StreamSound sizeMax d file.memory (trace ++ events) next := by
  obtain ⟨numbered, sequence, follows⟩ := sound
  have quiet : ∀ {after : ApngStream}, after.fault = s.stream.fault ∧
      after.sequence = s.stream.sequence ∧
      (s.Follows sizeMax d file.memory (currentPass trace) →
        StreamState.Follows sizeMax d file.memory (currentPass trace) { s with stream := after }) →
      StreamSound sizeMax d file.memory (trace ++ []) { s with stream := after } := by
    rintro after ⟨fault, count, kept⟩
    rw [List.append_nil]
    exact ⟨numbered, count.trans sequence, fun running => kept (follows (fault.symm.trans running))⟩
  cases call with
  | tick now later ok contents =>
      cases running : s.stream.fault with
      | true =>
          have ran : apngStreamTick sizeMax s now later ok contents = .value (s, none) :=
            if_pos running
          refine ⟨s, [], ?_, quiet ⟨rfl, rfl, id⟩⟩
          simp only [streamMachine, ran]
          rfl
      | false =>
          rcases tick_follows opened (follows running) running sequence now later ok contents with
            ⟨next, ran, fault, count⟩ | ⟨next, e, ran, last, count, after⟩
          · refine ⟨next, [], ?_, ?_⟩
            · simp only [streamMachine, ran]
              rfl
            · rw [List.append_nil]
              exact ⟨numbered, count.trans sequence, fun never => by rw [fault] at never; cases never⟩
          · refine ⟨next, [e], ?_, numbered.snoc last, count, fun _ => after⟩
            simp only [streamMachine, ran]
            rfl
  | pause now paused => exact ⟨_, [], rfl, quiet (retime_follows fun _ _ => Timeline.pause_ahead)⟩
  | rate now num den => exact ⟨_, [], rfl, quiet (retime_follows fun _ _ => Timeline.rate_ahead)⟩
  | restart now => exact ⟨_, [], rfl, quiet restart_follows⟩

theorem reached_sound
    (reached : (streamMachine sizeMax record file).Reaches Machine.Always trace t) :
    ∃ d, apngOpen sizeMax file.memory file.data file.size file.config.limits = .value d ∧
      StreamSound sizeMax d file.memory trace t := by
  refine reached.invariant (fun trace t =>
    ∃ d, apngOpen sizeMax file.memory file.data file.size file.config.limits = .value d ∧
      StreamSound sizeMax d file.memory trace t) ?_ ?_
  · rintro s ⟨now, storage, decoder, done⟩
    obtain ⟨d, accepted, follows, zero⟩ := open_follows done
    exact ⟨d, accepted, .nil, zero, fun _ => follows⟩
  · rintro trace s call next events ⟨d, accepted, sound⟩ _ moved
    obtain ⟨_, header, before, after, last, opened⟩ := open_opened accepted
    obtain ⟨other, more, ran, kept⟩ : ∃ next events,
        (streamMachine sizeMax record file).step s call = some (next, events) ∧ _ :=
      step_sound opened sound call
    rw [moved] at ran
    cases ran
    exact ⟨d, accepted, kept⟩

/-- In every run each step `FRAME` composes the frame of the document that has its number, the
sequence counts the composed frames, and while no call has failed the canvas shows what a reference
draws of the current pass.  No call goes wrong. -/
theorem apng_stream_lockstep
    (reached : (streamMachine sizeMax record file).Reaches Machine.Always trace t) :
    ∃ d, apngOpen sizeMax file.memory file.data file.size file.config.limits = .value d ∧
      Guarded (Numbered d file.memory) trace ∧ t.stream.sequence = composed trace ∧
      (t.stream.fault = false →
        (∀ i (inside : i < (currentPass trace).length),
          documentFrame d file.memory i = .value (currentPass trace)[i].1) ∧
        (t.stream.canvas.picture t.memory).Agrees
          (Reference.pass d.width d.height (currentPass trace)).shown) ∧
      ∀ call, ∃ next events, (streamMachine sizeMax record file).step t call = some (next, events) := by
  obtain ⟨d, accepted, sound⟩ := reached_sound reached
  obtain ⟨_, header, before, after, last, opened⟩ := open_opened accepted
  refine ⟨d, accepted, sound.numbered, sound.sequence, fun running => ?_, fun call => ?_⟩
  · have follows := sound.follows running
    exact ⟨follows.pass, follows.mirrors.shown⟩
  · obtain ⟨next, events, ran, _⟩ : ∃ next events,
        (streamMachine sizeMax record file).step t call = some (next, events) ∧ _ :=
      step_sound opened sound call
    exact ⟨next, events, ran⟩

def smallFile : StreamFile := ⟨smallMemory, 64, 58, ⟨smallLimits, 4096, 4096, 10000⟩⟩

/-- The first tick composes the only frame, and the second one comes after the end. -/
def smallCalls : List StreamCall :=
  [.tick 0 5 true fun _ => 255, .tick 9 9 true fun _ => 0]

def smallRun : Option (StreamState × List StreamEvent) :=
  match apngStreamOpen (2 ^ 32 - 1) 256 smallMemory 64 58 smallFile.config 0 1024 true with
  | .value s => (streamMachine (2 ^ 32 - 1) 256 smallFile).execute s smallCalls
  | _ => none

theorem apng_stream_lockstep_small : ∃ t trace,
    (streamMachine (2 ^ 32 - 1) 256 smallFile).Reaches Machine.Always trace t ∧ trace.length = 2 ∧
      t.stream.sequence = 1 ∧ ∃ d, Guarded (Numbered d smallMemory) trace := by
  have shown : smallRun.map (fun last => (last.2.length, last.1.stream.sequence)) = some (2, 1) := by
    decide +kernel
  obtain ⟨⟨t, trace⟩, executed, same⟩ := Option.map_eq_some_iff.mp shown
  obtain ⟨count, sequence⟩ := Prod.mk.inj same
  unfold smallRun at executed
  split at executed
  · rename_i s started
    have begun : (streamMachine (2 ^ 32 - 1) 256 smallFile).Reaches Machine.Always [] s :=
      .start ⟨0, 1024, true, started⟩
    have reached := begun.execute executed
    obtain ⟨d, _, numbered, _⟩ := apng_stream_lockstep reached
    exact ⟨t, trace, reached, count, sequence, d, numbered⟩
  · cases executed

/-- Whenever the clock of a stream that has not failed asks for a frame, the search for it succeeds
in the copy of the file, and what it finds fits the buffers that opening has sized. -/
theorem apng_stream_frame_fits
    (reached : (streamMachine sizeMax record file).Reaches Machine.Always trace t)
    (running : t.stream.fault = false) {now : UInt64} {clock : Timeline} {step : Step}
    (polled : t.stream.clock.poll now = some (clock, step)) (drawing : step.action = .frame) :
    ∃ d f cursor, apngOpen sizeMax file.memory file.data file.size file.config.limits = .value d ∧
      step.frameIndex < d.frames ∧ documentFrame d file.memory step.frameIndex = .value f ∧
      apngNext t.stream.doc t.memory (if step.resetCanvas then 0 else t.stream.cursor) =
        .value (f, cursor) ∧
      f.pngBytes ≤ t.stream.pngBytes ∧ f.width * f.height * 4 ≤ t.stream.rectangleBytes := by
  obtain ⟨d, accepted, sound⟩ := reached_sound reached
  have follows := sound.follows running
  obtain ⟨ahead, framed⟩ := Timeline.poll_ahead follows.clock polled
  have retimed := follows.retimed ahead
  obtain ⟨awaiting, index, reset⟩ := framed drawing
  have few : clock.index < d.frames := ahead.sound.index.trans_le retimed.frames
  obtain ⟨f, frame, png, rectangle⟩ := follows.placed.fits clock.index few
  have here : documentCursor d file.memory clock.index =
      .value (if decide (clock.index = 0) then 0 else t.stream.cursor) := retimed.here awaiting
  have searched := frame
  unfold documentFrame at searched
  rw [here, Outcome.value_bind] at searched
  obtain ⟨⟨other, cursor⟩, found, same⟩ := Outcome.bind_eq_value.mp searched
  cases same
  refine ⟨d, f, cursor, accepted, ?_, ?_, ?_, png, rectangle⟩
  · rw [index]
    exact few
  · rw [index]
    exact frame
  · rw [reset, follows.placed.doc, next_copied follows.placed.copied]
    exact found

def smallPoll : Option (StreamState × Timeline × Step) :=
  match apngStreamOpen (2 ^ 32 - 1) 256 smallMemory 64 58 smallFile.config 0 1024 true with
  | .value s => (s.stream.clock.poll 7).map fun polled => (s, polled)
  | _ => none

theorem smallPoll_reached {clock : Timeline} {step : Step} (begun : smallPoll = some (s, clock, step)) :
    (streamMachine (2 ^ 32 - 1) 256 smallFile).Reaches Machine.Always [] s ∧
      s.stream.clock.poll 7 = some (clock, step) := by
  unfold smallPoll at begun
  split at begun
  · rename_i start started
    obtain ⟨read, polled, same⟩ := Option.map_eq_some_iff.mp begun
    cases same
    exact ⟨.start ⟨0, 1024, true, started⟩, polled⟩
  · cases begun

theorem apng_stream_frame_fits_small : ∃ (s : StreamState) (f : ApngFrame) (cursor : ℕ),
    (streamMachine (2 ^ 32 - 1) 256 smallFile).Reaches Machine.Always [] s ∧
      s.stream.pngBytes = 58 ∧ apngNext s.stream.doc s.memory 0 = .value (f, cursor) ∧
      f.pngBytes ≤ s.stream.pngBytes := by
  have shown : smallPoll.map (fun r => (r.1.stream.fault, r.1.stream.pngBytes, r.2.2.action,
      r.2.2.resetCanvas)) = some (false, 58, .frame, true) := by decide +kernel
  obtain ⟨⟨s, clock, step⟩, begun, same⟩ := Option.map_eq_some_iff.mp shown
  simp only [Prod.mk.injEq] at same
  obtain ⟨running, size, drawing, reset⟩ := same
  obtain ⟨reached, polled⟩ := smallPoll_reached begun
  obtain ⟨d, f, cursor, _, _, _, found, png, _⟩ :=
    apng_stream_frame_fits reached running polled drawing
  rw [reset] at found
  exact ⟨s, f, cursor, reached, size, found, png⟩

/-- A restart fails on a fault or a clock that went back only.  It keeps the sequence, the rate and
the pause, and the next frame is the first one on a cleared canvas. -/
theorem apng_stream_restart_replays
    (reached : (streamMachine sizeMax record file).Reaches Machine.Always trace t)
    (running : t.stream.fault = false) {now : UInt64} (monotone : t.stream.clock.lastUs ≤ now.toNat) :
    ∃ next, apngStreamRestart t.stream now = some next ∧ next.fault = false ∧
      next.sequence = t.stream.sequence ∧ next.clock.rateNum = t.stream.clock.rateNum ∧
      next.clock.rateDen = t.stream.clock.rateDen ∧ next.clock.paused = t.stream.clock.paused ∧
      ∀ later clock step, next.clock.poll later = some (clock, step) → step.action = .frame →
        step.frameIndex = 0 ∧ step.resetCanvas = true := by
  obtain ⟨d, _, sound⟩ := reached_sound reached
  have follows := sound.follows running
  obtain ⟨first, made⟩ := follows.again now
  have fresh := Timeline.init_fresh made
  obtain ⟨second, third, rated, paused, num, den, pause⟩ :=
    Timeline.replay_some follows.clock follows.rated fresh.sound fresh.last
  have turned := (Timeline.rate_ahead fresh.sound rated).trans
    (Timeline.pause_ahead (Timeline.rate_ahead fresh.sound rated).sound paused)
  refine ⟨{ t.stream with clock := third, cursor := 0 }, ?_, running, rfl, num, den, pause,
    fun later clock step polled drawing => ?_⟩
  · have begins : Timeline.init (.ofNat t.stream.doc.frames) (.ofNat t.stream.doc.plays)
        t.stream.doc.animated (.ofNat t.stream.clock.minimumDelayUs) now = some first := by
      rw [follows.placed.doc]
      exact made
    have allowed : ¬(t.stream.fault || now.toNat < t.stream.clock.lastUs) = true := by
      rw [running, Bool.false_or, decide_eq_true_eq, not_lt]
      exact monotone
    unfold apngStreamRestart
    rw [if_neg allowed]
    change (Timeline.init (.ofNat t.stream.doc.frames) (.ofNat t.stream.doc.plays)
      t.stream.doc.animated (.ofNat t.stream.clock.minimumDelayUs) now).bind _ = _
    rw [begins]
    change (first.rate now (.ofNat t.stream.clock.rateNum) (.ofNat t.stream.clock.rateDen)).bind _ = _
    rw [rated]
    change (second.pause now t.stream.clock.paused).bind _ = _
    rw [paused]
    rfl
  · obtain ⟨ahead, framed⟩ := Timeline.poll_ahead turned.sound polled
    obtain ⟨awaiting, index, reset⟩ := framed drawing
    have upcoming : clock.upcoming = 0 := by
      rcases (turned.trans ahead).upcoming with same | zero
      · exact same.trans fresh.upcoming
      · exact zero
    have zero : clock.index = 0 := (Timeline.upcoming_awaiting awaiting).symm.trans upcoming
    rw [index, reset, zero]
    exact ⟨rfl, rfl⟩

theorem apng_stream_restart_replays_small : ∃ (s : StreamState) (next : ApngStream),
    (streamMachine (2 ^ 32 - 1) 256 smallFile).Reaches Machine.Always [] s ∧
      apngStreamRestart s.stream 9 = some next ∧ next.sequence = s.stream.sequence := by
  have shown : smallPoll.map (fun r => (r.1.stream.fault, r.1.stream.clock.lastUs)) =
      some (false, 0) := by decide +kernel
  obtain ⟨⟨s, clock, step⟩, begun, same⟩ := Option.map_eq_some_iff.mp shown
  obtain ⟨running, last⟩ := Prod.mk.inj same
  obtain ⟨reached, _⟩ := smallPoll_reached begun
  obtain ⟨next, ran, _, sequence, _⟩ :=
    apng_stream_restart_replays reached running (last.le.trans (Nat.zero_le _))
  exact ⟨s, next, reached, ran, sequence⟩

end

end LvglAic.Apng
