import LvglAic.Machine.FixedPoint

/-! # The clock of the player (`lv_aic_player_clock.c`)

The clock turns the wall clock into media time.  Media time is signed, and it stands
still while the clock is paused.
-/

namespace LvglAic.Player

open LvglAic.Machine

structure Clock where
  referencePts : Int64
  referenceUs : UInt64
  lastUs : UInt64
  valid : Bool
  paused : Bool
deriving DecidableEq

inductive ClockAction where
  | wait
  | present
  | drop
  | paused
deriving DecidableEq, Repr

namespace Clock

def reset (pts : Int64) (now : UInt64) : Clock := ⟨pts, now, now, true, false⟩

/-- The media time, where it is defined and in range. -/
def value (c : Clock) (now : UInt64) : Option Int64 :=
  if !c.valid || now < c.lastUs || now < c.referenceUs then none
  else
    let elapsed := if c.paused then 0 else now - c.referenceUs
    if elapsed > Int64.maxValue.toUInt64 ||
        c.referencePts > Int64.maxValue - elapsed.toInt64 then none
    else some (c.referencePts + elapsed.toInt64)

def sync (c : Clock) (pts : Int64) (now : UInt64) : Clock × Bool :=
  if c.valid && (c.paused || now < c.lastUs) then (c, false) else (reset pts now, true)

def time (c : Clock) (now : UInt64) : Clock × Option Int64 :=
  match c.value now with
  | none => (c, none)
  | some next => ({ c with lastUs := now }, some next)

def rebase (c : Clock) (pts : Int64) (paused : Bool) (now : UInt64) : Clock :=
  { c with referencePts := pts, referenceUs := now, lastUs := now, paused := paused }

def pause (c : Clock) (paused : Bool) (now : UInt64) : Clock × Bool :=
  match c.value now with
  | none => (c, false)
  | some pts => (c.rebase pts paused now, true)

/-- What becomes of a frame at a media time, and how long it waits. -/
def next (c : Clock) (framePts pts : Int64) (late : UInt64) : ClockAction × UInt64 :=
  if c.paused then (.paused, 0)
  else if framePts > pts then (.wait, framePts.toUInt64 - pts.toUInt64)
  else if pts.toUInt64 - framePts.toUInt64 > late then (.drop, 0)
  else (.present, 0)

def schedule (c : Clock) (framePts : Int64) (now late : UInt64) :
    Clock × Option (ClockAction × UInt64) :=
  match c.value now with
  | none => (c, none)
  | some pts => ({ c with lastUs := now }, some (c.next framePts pts late))

end Clock

/-! ## Calls -/

inductive ClockCall where
  | reset (pts : Int64) (now : UInt64)
  | sync (pts : Int64) (now : UInt64)
  | time (now : UInt64)
  | pause (paused : Bool) (now : UInt64)
  | schedule (framePts : Int64) (now late : UInt64)
deriving DecidableEq

inductive ClockReply where
  | failed
  | done
  | time (pts : Int64)
  | action (action : ClockAction) (delay : UInt64)
deriving DecidableEq

def ClockCall.now : ClockCall → UInt64
  | .reset _ now | .sync _ now | .time now | .pause _ now | .schedule _ now _ => now

/-- The media time that a reply tells. -/
def ClockReply.reading : ClockReply → Option Int64
  | .time pts => some pts
  | _ => none

/-- Calls that only look at the clock. -/
def ClockCall.Reads : ClockCall → Prop
  | .time _ | .schedule _ _ _ => True
  | _ => False

/-- Calls that leave the clock running. -/
def ClockCall.Runs : ClockCall → Prop
  | .time _ | .schedule _ _ _ | .pause false _ => True
  | _ => False

/-- Calls that stay on the timeline of the last synchronisation. -/
def ClockCall.Stays : ClockCall → Prop
  | .reset _ _ | .sync _ _ => False
  | _ => True

namespace Clock

def perform (c : Clock) : ClockCall → Clock × ClockReply
  | .reset pts now => (Clock.reset pts now, .done)
  | .sync pts now =>
      let (c, ok) := c.sync pts now
      (c, if ok then .done else .failed)
  | .time now =>
      match c.time now with
      | (c, some pts) => (c, .time pts)
      | (c, none) => (c, .failed)
  | .pause paused now =>
      let (c, ok) := c.pause paused now
      (c, if ok then .done else .failed)
  | .schedule framePts now late =>
      match c.schedule framePts now late with
      | (c, some (action, delay)) => (c, .action action delay)
      | (c, none) => (c, .failed)

def run (c : Clock) : List ClockCall → Clock
  | [] => c
  | call :: rest => (c.perform call).1.run rest

def replies (c : Clock) : List ClockCall → List ClockReply
  | [] => []
  | call :: rest => (c.perform call).2 :: (c.perform call).1.replies rest

/-- All calls but those that fail are of a kind. -/
def Only (c : Clock) (Kind : ClockCall → Prop) : List ClockCall → Prop
  | [] => True
  | call :: rest =>
      (Kind call ∨ (c.perform call).2 = .failed) ∧ (c.perform call).1.Only Kind rest

end Clock

/-- Times of calls that never go back, from a time on. -/
def InTime : UInt64 → List ClockCall → Prop
  | _, [] => True
  | start, call :: rest => start ≤ call.now ∧ InTime call.now rest

/-! ## Media time -/

namespace Clock

/-- Media time as an integer. -/
def media (c : Clock) (now : UInt64) : ℤ :=
  c.referencePts.toInt + if c.paused then 0 else (now.toNat : ℤ) - c.referenceUs.toNat

/-- The elapsed time and the media time are in the range of 64 bits. -/
def InRange (c : Clock) (now : UInt64) : Prop :=
  c.paused = false → (now.toNat : ℤ) - c.referenceUs.toNat < 2 ^ 63 ∧ c.media now < 2 ^ 63

/-- The time is in range at every call. -/
def InRangeThrough (c : Clock) : List ClockCall → Prop
  | [] => True
  | call :: rest => c.InRange call.now ∧ (c.perform call).1.InRangeThrough rest

/-- A clock that differs from another one at most in what it observed since. -/
def Observed (c d : Clock) (start : UInt64) : Prop :=
  d = c ∨ ∃ seen, c.lastUs ≤ seen ∧ seen ≤ start ∧ d = { c with lastUs := seen }

variable {c d : Clock} {start now : UInt64} {call : ClockCall} {calls : List ClockCall}
  {pts : Int64} {low : ℤ}

theorem toInt_small {value : ℤ} (low : -2 ^ 63 ≤ value) (high : value < 2 ^ 63) :
    value.bmod (2 ^ 64) = value :=
  Int.bmod_eq_of_le (by omega) (by omega)

theorem toInt_toInt64 {value : UInt64} (small : value.toNat < 2 ^ 63) :
    value.toInt64.toInt = value.toNat := by
  change value.toBitVec.toInt = value.toNat
  rw [BitVec.toInt_eq_toNat_bmod]
  exact toInt_small (by omega) (by exact_mod_cast small)

/-- The unsigned difference of two signed times is their distance. -/
theorem toNat_distance {early late : Int64} (order : early ≤ late) :
    ((late.toUInt64 - early.toUInt64).toNat : ℤ) = late.toInt - early.toInt := by
  have low := Int64.le_toInt early
  have high := Int64.toInt_lt late
  have ordered := Int64.le_iff_toInt_le.mp order
  have small := (late - early).toBitVec.isLt
  have signed : (late - early).toBitVec.toInt = (late.toInt - early.toInt).bmod (2 ^ 64) :=
    Int64.toInt_sub late early
  change ((late - early).toBitVec.toNat : ℤ) = _
  rw [BitVec.toInt_eq_toNat_bmod] at signed
  have wraps := congrArg (· % ((2 ^ 64 : ℕ) : ℤ)) signed
  simp only [Int.bmod_emod] at wraps
  rwa [Int.emod_eq_of_lt (by omega) (by omega), Int.emod_eq_of_lt (by omega) (by omega)] at wraps

/-- The reading after some elapsed time, which saturates to a failure. -/
theorem elapsed_some {reference : Int64} {elapsed : UInt64} :
    (if elapsed > Int64.maxValue.toUInt64 || reference > Int64.maxValue - elapsed.toInt64 then none
      else some (reference + elapsed.toInt64)) = some pts ↔
      elapsed.toNat < 2 ^ 63 ∧ reference.toInt + elapsed.toNat < 2 ^ 63 ∧
        pts.toInt = reference.toInt + elapsed.toNat := by
  have low := Int64.le_toInt reference
  have high := Int64.toInt_lt reference
  have most : Int64.maxValue.toUInt64.toNat = 2 ^ 63 - 1 := rfl
  have largest : Int64.maxValue.toInt = 2 ^ 63 - 1 := rfl
  by_cases short : elapsed.toNat < 2 ^ 63
  · have signed := toInt_toInt64 short
    have room : (Int64.maxValue - elapsed.toInt64).toInt = 2 ^ 63 - 1 - elapsed.toNat := by
      rw [Int64.toInt_sub, signed, largest]
      exact toInt_small (by omega) (by omega)
    have within : ¬ elapsed > Int64.maxValue.toUInt64 := by
      rw [gt_iff_lt, UInt64.lt_iff_toNat_lt, most]
      omega
    by_cases fits : reference.toInt + elapsed.toNat < 2 ^ 63
    · have below : ¬ reference > Int64.maxValue - elapsed.toInt64 := by
        rw [gt_iff_lt, Int64.lt_iff_toInt_lt, room]
        omega
      have sum : (reference + elapsed.toInt64).toInt = reference.toInt + elapsed.toNat := by
        rw [Int64.toInt_add, signed]
        exact toInt_small (by omega) (by exact_mod_cast fits)
      rw [if_neg (by simp only [within, below, decide_false, Bool.or_false, Bool.false_eq_true,
        not_false_eq_true]), Option.some.injEq, ← Int64.toInt_inj, sum]
      exact ⟨fun same => ⟨short, fits, same.symm⟩, fun read => read.2.2.symm⟩
    · have above : reference > Int64.maxValue - elapsed.toInt64 := by
        rw [gt_iff_lt, Int64.lt_iff_toInt_lt, room]
        omega
      rw [if_pos (by simp only [above, decide_true, Bool.or_true])]
      exact iff_of_false nofun fun read => fits read.2.1
  · have beyond : elapsed > Int64.maxValue.toUInt64 := by
      rw [gt_iff_lt, UInt64.lt_iff_toNat_lt, most]
      omega
    rw [if_pos (by simp only [beyond, decide_true, Bool.true_or])]
    exact iff_of_false nofun fun read => short read.1

/-- The media time is read when nothing is out of order or range. -/
theorem value_some : c.value now = some pts ↔ c.valid = true ∧ c.lastUs ≤ now ∧
    c.referenceUs ≤ now ∧ c.InRange now ∧ pts.toInt = c.media now := by
  have high := Int64.toInt_lt c.referencePts
  unfold value
  by_cases ordered : c.valid = true ∧ c.lastUs ≤ now ∧ c.referenceUs ≤ now
  · obtain ⟨valid, last, reference⟩ := ordered
    have since : ((now - c.referenceUs).toNat : ℤ) = now.toNat - c.referenceUs.toNat := by
      rw [UInt64.toNat_sub_of_le _ _ reference]
      exact Nat.cast_sub (UInt64.le_iff_toNat_le.mp reference)
    rw [if_neg (by simp [valid, last, reference])]
    dsimp only
    rw [elapsed_some]
    simp only [valid, last, reference, true_and, InRange, media]
    cases paused : c.paused with
    | true => simpa using fun _ => high
    | false =>
        simp only [Bool.false_eq_true, if_false, forall_const, ← since]
        rw [and_assoc]
        exact and_congr_left' (by norm_cast)
  · rw [if_pos]
    · exact iff_of_false nofun fun read => ordered ⟨read.1, read.2.1, read.2.2.1⟩
    · simp only [Bool.or_eq_true, Bool.not_eq_true', decide_eq_true_eq]
      by_contra calm
      simp only [not_or, Bool.not_eq_false, UInt64.not_lt] at calm
      exact ordered ⟨calm.1.1, calm.1.2, calm.2⟩

/-! ## Single calls -/

theorem perform_time (read : c.value now = some pts) :
    c.perform (.time now) = ({ c with lastUs := now }, .time pts) := by
  simp only [perform, time, read]

theorem perform_pause {paused : Bool} (read : c.value now = some pts) :
    c.perform (.pause paused now) = (c.rebase pts paused now, .done) := by
  simp only [perform, pause, read, if_true]

theorem perform_schedule {framePts : Int64} {late : UInt64} (read : c.value now = some pts) :
    c.perform (.schedule framePts now late) = ({ c with lastUs := now },
      .action (c.next framePts pts late).1 (c.next framePts pts late).2) := by
  simp only [perform, schedule, read]

theorem perform_unread (stays : call.Stays) (unread : c.value call.now = none) :
    c.perform call = (c, .failed) := by
  cases call with
  | reset pts now => cases stays
  | sync pts now => cases stays
  | time now =>
      change c.value now = none at unread
      simp only [perform, time, unread]
  | pause paused now =>
      change c.value now = none at unread
      simp only [perform, pause, unread, Bool.false_eq_true, if_false]
  | schedule framePts now late =>
      change c.value now = none at unread
      simp only [perform, schedule, unread]

/-- A call on a timeline that can be read looks at the clock or rebases it. -/
theorem perform_read (stays : call.Stays) (read : c.value call.now = some pts) :
    (call.Reads ∧ (c.perform call).1 = { c with lastUs := call.now } ∧
        (c.perform call).2 ≠ .failed ∧
        ∀ told, (c.perform call).2.reading = some told → told = pts) ∨
      ∃ paused, call = .pause paused call.now ∧
        c.perform call = (c.rebase pts paused call.now, .done) := by
  cases call with
  | reset pts now => cases stays
  | sync pts now => cases stays
  | time now =>
      have performed : c.perform (.time now) = _ := perform_time read
      rw [performed]
      exact .inl ⟨trivial, rfl, nofun, fun told same => (Option.some.inj same).symm⟩
  | pause paused now => exact .inr ⟨paused, rfl, perform_pause read⟩
  | schedule framePts now late =>
      have performed : c.perform (.schedule framePts now late) = _ := perform_schedule read
      rw [performed]
      exact .inl ⟨trivial, rfl, nofun, nofun⟩

/-- A failed call changes nothing. -/
theorem perform_failed (failed : (c.perform call).2 = .failed) : (c.perform call).1 = c := by
  by_cases stays : call.Stays
  · cases read : c.value call.now with
    | none => rw [perform_unread stays read]
    | some pts =>
        rcases perform_read stays read with ⟨_, _, succeeds, _⟩ | ⟨paused, _, same⟩
        · exact absurd failed succeeds
        · rw [same] at failed
          cases failed
  · cases call with
    | reset pts now => cases failed
    | sync pts now =>
        by_cases refused : (c.valid && (c.paused || now < c.lastUs)) = true
        · simp only [perform, sync, if_pos refused]
        · simp only [perform, sync, if_neg refused, if_true, reduceCtorEq] at failed
    | _ => exact absurd trivial stays

/-- A call on a timeline fails, looks at the clock or rebases it. -/
theorem perform_cases (unsynced : call.Stays ∨ (c.perform call).2 = .failed) :
    c.perform call = (c, .failed) ∨ ∃ pts, c.value call.now = some pts ∧
      ((call.Reads ∧ (c.perform call).1 = { c with lastUs := call.now } ∧
          (c.perform call).2 ≠ .failed ∧
          ∀ told, (c.perform call).2.reading = some told → told = pts) ∨
        ∃ paused, call = .pause paused call.now ∧
          c.perform call = (c.rebase pts paused call.now, .done)) := by
  by_cases failed : (c.perform call).2 = .failed
  · exact .inl (Prod.ext (perform_failed failed) failed)
  · have stays := unsynced.resolve_right failed
    cases read : c.value call.now with
    | none => exact .inl (perform_unread stays read)
    | some pts => exact .inr ⟨pts, rfl, perform_read stays read⟩

/-! ## Readings do not go back -/

/-- No reading is below a media time. -/
def AtLeast (c : Clock) (low : ℤ) : Prop := ∀ now pts, c.value now = some pts → low ≤ pts.toInt

theorem value_later {c : Clock} {early : UInt64} {first : Int64} (read : c.value early = some first)
    {now : UInt64} {pts : Int64} (later : { c with lastUs := early }.value now = some pts) :
    early ≤ now ∧ c.value now = some pts ∧ first.toInt ≤ pts.toInt := by
  obtain ⟨valid, last, reference, _, before⟩ := value_some.mp read
  obtain ⟨_, seen, since, ranges, after⟩ := value_some.mp later
  refine ⟨seen, value_some.mpr ⟨valid, UInt64.le_trans last seen, since, ranges, after⟩, ?_⟩
  have order : early.toNat ≤ now.toNat := UInt64.le_iff_toNat_le.mp seen
  rw [before, after]
  simp only [media]
  split <;> omega

theorem value_rebased {c : Clock} {early : UInt64} {first : Int64} {paused : Bool} {now : UInt64}
    {pts : Int64} (later : (c.rebase first paused early).value now = some pts) :
    pts.toInt = first.toInt + if paused then 0 else (now.toNat : ℤ) - early.toNat :=
  (value_some.mp later).2.2.2.2

theorem AtLeast.rebase (c : Clock) (pts : Int64) (paused : Bool) (start : UInt64) :
    (c.rebase pts paused start).AtLeast pts.toInt := by
  intro now later reading
  obtain ⟨_, seen, _⟩ := value_some.mp reading
  have order : start.toNat ≤ now.toNat := UInt64.le_iff_toNat_le.mp seen
  rw [value_rebased reading]
  split <;> omega

/-- A reading of a call is not below what no reading is below, and none after it is below it. -/
theorem AtLeast.perform (floor : c.AtLeast low)
    (unsynced : call.Stays ∨ (c.perform call).2 = .failed) :
    (c.perform call).1.AtLeast low ∧ ∀ told, (c.perform call).2.reading = some told →
      low ≤ told.toInt ∧ (c.perform call).1.AtLeast told.toInt := by
  rcases perform_cases unsynced with same | ⟨pts, read, ⟨_, moved, _, tells⟩ | ⟨paused, _, same⟩⟩
  · rw [same]
    exact ⟨floor, nofun⟩
  · rw [moved]
    refine ⟨fun now later reading => floor now later (value_later read reading).2.1, ?_⟩
    intro told tell
    rw [tells told tell]
    exact ⟨floor _ _ read, fun now later reading => (value_later read reading).2.2⟩
  · rw [same]
    refine ⟨fun now later reading => ?_, nofun⟩
    exact (floor _ _ read).trans (AtLeast.rebase c pts paused _ now later reading)

theorem AtLeast.replies (floor : c.AtLeast low) (unsynced : c.Only ClockCall.Stays calls) :
    ∀ told ∈ (c.replies calls).filterMap ClockReply.reading, low ≤ told.toInt := by
  induction calls generalizing c with
  | nil => nofun
  | cons call rest ih =>
      intro told member
      obtain ⟨keeps, tells⟩ := floor.perform unsynced.1
      simp only [Clock.replies, List.filterMap_cons] at member
      cases reply : (c.perform call).2.reading with
      | none =>
          rw [reply] at member
          exact ih keeps unsynced.2 told member
      | some first =>
          rw [reply] at member
          rcases List.mem_cons.mp member with rfl | later
          · exact (tells told reply).1
          · exact ih keeps unsynced.2 told later

/-- Readings between synchronisations do not go back. -/
theorem readings_ordered (unsynced : c.Only ClockCall.Stays calls) :
    ((c.replies calls).filterMap ClockReply.reading).Pairwise (· ≤ ·) := by
  induction calls generalizing c with
  | nil => exact .nil
  | cons call rest ih =>
      simp only [Clock.replies, List.filterMap_cons]
      cases reply : (c.perform call).2.reading with
      | none => exact ih unsynced.2
      | some first =>
          refine List.pairwise_cons.mpr ⟨fun told later => ?_, ih unsynced.2⟩
          have lowest : c.AtLeast (-2 ^ 63) := fun _ pts _ => Int64.le_toInt pts
          have floor := ((lowest.perform unsynced.1).2 first reply).2
          exact Int64.le_iff_toInt_le.mpr (floor.replies unsynced.2 told later)

/-! ## Further looks at the clock -/

theorem Observed.value (observed : c.Observed d start) (later : start ≤ now) :
    d.value now = c.value now := by
  rcases observed with rfl | ⟨seen, last, early, rfl⟩
  · rfl
  · have first : ¬ now < seen := UInt64.not_lt.mpr (UInt64.le_trans early later)
    have second : ¬ now < c.lastUs :=
      UInt64.not_lt.mpr (UInt64.le_trans last (UInt64.le_trans early later))
    simp only [Clock.value, first, second]

theorem Observed.later (observed : c.Observed d start) (after : start ≤ now) : c.Observed d now := by
  rcases observed with same | ⟨seen, last, early, same⟩
  · exact .inl same
  · exact .inr ⟨seen, last, UInt64.le_trans early after, same⟩

/-- A further look leaves the clock as it is but for the last observation. -/
theorem Observed.look (observed : c.Observed d start) (reads : call.Reads)
    (after : start ≤ call.now) : c.Observed (d.perform call).1 call.now := by
  have stays : call.Stays := by
    cases call with
    | time | schedule => trivial
    | _ => cases reads
  rcases perform_cases (.inl stays) with same | ⟨pts, read, ⟨_, moved, _⟩ | ⟨paused, pauses, _⟩⟩
  · rw [same]
    exact observed.later after
  · rw [moved]
    refine .inr ⟨call.now, ?_, UInt64.le_refl _, ?_⟩
    · rw [observed.value after] at read
      exact (value_some.mp read).2.1
    · rcases observed with rfl | ⟨seen, _, _, rfl⟩ <;> rfl
  · rw [pauses] at reads
    cases reads

/-- A call answers the same whatever was observed before. -/
theorem Observed.perform (observed : c.Observed d start) (after : start ≤ call.now) :
    (d.perform call).2 = (c.perform call).2 ∧
      (c.perform call).1.Observed (d.perform call).1 call.now := by
  have still := observed.later after
  have same := observed.value after
  rcases observed with rfl | ⟨seen, last, early, rfl⟩
  · exact ⟨rfl, .inl rfl⟩
  · have first : ¬ call.now < seen := UInt64.not_lt.mpr (UInt64.le_trans early after)
    have second : ¬ call.now < c.lastUs :=
      UInt64.not_lt.mpr (UInt64.le_trans last (UInt64.le_trans early after))
    by_cases stays : call.Stays
    · cases read : c.value call.now with
      | none =>
          rw [perform_unread stays (same.trans read), perform_unread stays read]
          exact ⟨rfl, still⟩
      | some pts =>
          have other := same.trans read
          cases call with
          | reset pts now => cases stays
          | sync pts now => cases stays
          | time now =>
              have one : c.perform (.time now) = _ := perform_time read
              have two : Clock.perform _ (.time now) = _ := perform_time other
              rw [one, two]
              exact ⟨rfl, .inl rfl⟩
          | pause paused now =>
              have one : c.perform (.pause paused now) = _ := perform_pause read
              have two : Clock.perform _ (.pause paused now) = _ := perform_pause other
              rw [one, two]
              exact ⟨rfl, .inl rfl⟩
          | schedule framePts now late =>
              have one : c.perform (.schedule framePts now late) = _ := perform_schedule read
              have two : Clock.perform _ (.schedule framePts now late) = _ := perform_schedule other
              rw [one, two]
              exact ⟨rfl, .inl rfl⟩
    · cases call with
      | reset pts now => exact ⟨rfl, .inl rfl⟩
      | sync pts now =>
          change ¬ now < seen at first
          change ¬ now < c.lastUs at second
          by_cases paused : (c.valid && c.paused) = true
          · have held : c.perform (.sync pts now) = (c, .failed) := by
              simp [Clock.perform, sync, second, paused]
            have kept : Clock.perform { c with lastUs := seen } (.sync pts now) =
                ({ c with lastUs := seen }, .failed) := by
              simp [Clock.perform, sync, first, paused]
            rw [held, kept]
            exact ⟨rfl, still⟩
          · simp only [Clock.perform, sync, first, second, decide_false, Bool.or_false, if_neg paused]
            exact ⟨trivial, .inl rfl⟩
      | _ => exact absurd trivial stays

/-- The calls that are marked as additional do not change what the others answer. -/
theorem Observed.replies {marked : List (ClockCall × Bool)} (observed : c.Observed d start)
    (looks : ∀ entry ∈ marked, entry.2 = true → entry.1.Reads)
    (order : InTime start (marked.map Prod.fst)) :
    ((d.replies (marked.map Prod.fst)).zip marked).filterMap
        (fun told => if told.2.2 then none else some told.1) =
      c.replies ((marked.filter fun entry => !entry.2).map Prod.fst) := by
  induction marked generalizing c d start with
  | nil => rfl
  | cons entry rest ih =>
      obtain ⟨call, additional⟩ := entry
      have others : ∀ entry ∈ rest, entry.2 = true → entry.1.Reads :=
        fun entry member => looks entry (List.mem_cons_of_mem _ member)
      cases additional with
      | true =>
          have looked := observed.look (looks _ List.mem_cons_self rfl) order.1
          exact ih looked others order.2
      | false =>
          obtain ⟨same, next⟩ := observed.perform order.1
          have tail := ih next others order.2
          simp only [List.map_cons, Clock.replies, List.zip_cons_cons, List.filterMap_cons,
            Bool.false_eq_true, if_false, List.filter_cons, Bool.not_false, if_true, same, tail]

/-! ## Pauses -/

/-- The time that runs after a moment, by the calls that pause the clock and let it run on. -/
def unpausedUs (paused : Bool) (since : ℤ) : List ClockCall → UInt64 → ℤ
  | [], now => if paused then 0 else now.toNat - since
  | .pause next moment :: rest, now =>
      (if paused then 0 else moment.toNat - since) + unpausedUs next moment.toNat rest now
  | _ :: rest, now => unpausedUs paused since rest now

/-- A clock that is set and has seen nothing after a moment. -/
structure Ready (c : Clock) (start : UInt64) : Prop where
  valid : c.valid = true
  seen : c.lastUs ≤ start
  since : c.referenceUs ≤ start

theorem Ready.read (ready : c.Ready start) (later : start ≤ now) (ranges : c.InRange now) :
    ∃ pts, c.value now = some pts ∧ pts.toInt = c.media now := by
  have low := Int64.le_toInt c.referencePts
  have order := UInt64.le_iff_toNat_le.mp (UInt64.le_trans ready.since later)
  have fits : -2 ^ 63 ≤ c.media now ∧ c.media now < 2 ^ 63 := by
    have high := Int64.toInt_lt c.referencePts
    unfold InRange at ranges
    unfold media at ranges ⊢
    cases paused : c.paused with
    | true => simpa using ⟨low, high⟩
    | false =>
        simp only [paused, Bool.false_eq_true, if_false, forall_const] at ranges ⊢
        omega
  have exact : (Int64.ofInt (c.media now)).toInt = c.media now := by
    rw [Int64.toInt_ofInt]
    exact toInt_small fits.1 fits.2
  exact ⟨_, value_some.mpr ⟨ready.valid, UInt64.le_trans ready.seen later,
    UInt64.le_trans ready.since later, ranges, exact⟩, exact⟩

/-- Every call on a timeline in range succeeds, and the media time has run while the clock did. -/
theorem Ready.run (ready : c.Ready start) (stays : ∀ call ∈ calls, call.Stays)
    (order : InTime start (calls ++ [.time now])) (ranges : c.InRangeThrough (calls ++ [.time now])) :
    ∃ replies pts, c.replies (calls ++ [.time now]) = replies ++ [.time pts] ∧ .failed ∉ replies ∧
      pts.toInt = c.referencePts.toInt + unpausedUs c.paused c.referenceUs.toNat calls now := by
  induction calls generalizing c start with
  | nil =>
      obtain ⟨pts, read, exact⟩ := ready.read order.1 ranges.1
      refine ⟨[], pts, ?_, nofun, exact⟩
      simp only [List.nil_append, Clock.replies, perform_time (show c.value now = some pts from read)]
  | cons call rest ih =>
      obtain ⟨later, order⟩ := order
      obtain ⟨inRange, ranges⟩ := ranges
      obtain ⟨first, reading, known⟩ := ready.read later inRange
      have others : ∀ call ∈ rest, call.Stays := fun call member =>
        stays call (List.mem_cons_of_mem _ member)
      rcases perform_read (stays call List.mem_cons_self) reading with
        ⟨reads, moved, succeeds, _⟩ | ⟨paused, pauses, same⟩
      · rw [moved] at ranges
        have next : Ready { c with lastUs := call.now } call.now :=
          ⟨ready.valid, UInt64.le_refl _, UInt64.le_trans ready.since later⟩
        obtain ⟨replies, pts, told, calm, exact⟩ := ih next others order ranges
        refine ⟨(c.perform call).2 :: replies, pts, ?_, ?_, ?_⟩
        · rw [List.cons_append, Clock.replies, moved, told, List.cons_append]
        · exact List.not_mem_cons_of_ne_of_not_mem succeeds.symm calm
        · rw [exact]
          cases call with
          | time | schedule => rfl
          | _ => cases reads
      · rw [same] at ranges
        have next : Ready (c.rebase first paused call.now) call.now :=
          ⟨ready.valid, UInt64.le_refl _, UInt64.le_refl _⟩
        obtain ⟨replies, pts, told, calm, exact⟩ := ih next others order ranges
        refine ⟨.done :: replies, pts, ?_, List.not_mem_cons_of_ne_of_not_mem nofun calm, ?_⟩
        · rw [List.cons_append, Clock.replies, same, told, List.cons_append]
        · rw [exact, pauses, unpausedUs, ← pauses]
          change first.toInt + unpausedUs paused call.now.toNat rest now = _
          rw [known, media, add_assoc]

theorem replies_append (before after : List ClockCall) :
    c.replies (before ++ after) = c.replies before ++ (c.run before).replies after := by
  induction before generalizing c with
  | nil => rfl
  | cons call rest ih => simp only [List.cons_append, Clock.replies, Clock.run, ih]

theorem Observed.run {reads rest : List ClockCall} (observed : c.Observed d start)
    (looks : ∀ call ∈ reads, call.Reads) (order : InTime start (reads ++ rest)) :
    ∃ last, start ≤ last ∧ c.Observed (d.run reads) last ∧ InTime last rest := by
  induction reads generalizing d start with
  | nil => exact ⟨start, UInt64.le_refl _, observed, order⟩
  | cons call others ih =>
      have looked := observed.look (looks call List.mem_cons_self) order.1
      obtain ⟨last, passed, found⟩ :=
        ih looked (fun call member => looks call (List.mem_cons_of_mem _ member)) order.2
      exact ⟨last, UInt64.le_trans order.1 passed, found⟩

/-- The media time stands still while the clock is paused, and goes on from there. -/
theorem value_frozen {reads : List ClockCall} {later : UInt64} (read : c.value start = some pts)
    (looks : ∀ call ∈ reads, call.Reads)
    (order : InTime start (reads ++ [.time later, .pause false later, .time now]))
    (short : now.toNat < later.toNat + 2 ^ 63)
    (fits : pts.toInt + (now.toNat - later.toNat) < 2 ^ 63) :
    ∃ replies next, c.replies (.pause true start :: (reads ++
        [.time later, .pause false later, .time now])) =
        replies ++ [.time pts, .done, .time next] ∧
      next.toInt = pts.toInt + (now.toNat - later.toNat) := by
  have begun : (c.rebase pts true start).Observed (c.rebase pts true start) start := .inl rfl
  obtain ⟨last, passed, observed, after, _, ahead, _⟩ := begun.run looks order
  have valid : c.valid = true := (value_some.mp read).1
  have held : (c.rebase pts true start).value later = some pts := by
    have passed : start ≤ later := UInt64.le_trans passed after
    exact value_some.mpr ⟨valid, passed, passed, nofun, (add_zero _).symm⟩
  generalize shown : (c.rebase pts true start).run reads = d at observed
  have same : d.value later = some pts := (observed.value after).trans held
  have again : { d with lastUs := later }.value later = some pts := by
    obtain ⟨ready, _, since, ranges, exact⟩ := value_some.mp same
    exact value_some.mpr ⟨ready, UInt64.le_refl _, since, ranges, exact⟩
  have resumed : Ready (Clock.rebase { d with lastUs := later } pts false later) later :=
    ⟨(value_some.mp same).1, UInt64.le_refl _, UInt64.le_refl _⟩
  obtain ⟨next, reading, exact⟩ := resumed.read ahead fun _ => ⟨by
    change (now.toNat : ℤ) - later.toNat < 2 ^ 63
    omega, fits⟩
  refine ⟨.done :: (c.rebase pts true start).replies reads, next, ?_, exact⟩
  have reread : Clock.perform _ (.time now) = _ := perform_time reading
  rw [Clock.replies, perform_pause read, replies_append, shown]
  simp only [Clock.replies, perform_time same, perform_pause again, List.cons_append]
  rw [reread]

/-! ## Waiting for a frame -/

/-- A running clock on a line of media time, which has seen nothing after a moment. -/
structure Running (c : Clock) (line : ℤ) (start : UInt64) : Prop extends Ready c start where
  runs : c.paused = false
  line : c.referencePts.toInt - c.referenceUs.toNat = line

variable {line : ℤ}

theorem Running.of_value (read : c.value now = some pts) (runs : c.paused = false) :
    Running { c with lastUs := now } (pts.toInt - now.toNat) now := by
  obtain ⟨valid, _, since, _, exact⟩ := value_some.mp read
  refine ⟨⟨valid, UInt64.le_refl _, since⟩, runs, ?_⟩
  change c.referencePts.toInt - c.referenceUs.toNat = _
  rw [exact, media, runs, if_neg Bool.false_ne_true]
  omega

theorem Running.value (running : Running c line start) (later : start ≤ now)
    (ranges : c.InRange now) : ∃ pts, c.value now = some pts ∧ pts.toInt = line + now.toNat := by
  obtain ⟨pts, read, exact⟩ := running.read later ranges
  refine ⟨pts, read, ?_⟩
  rw [exact, media, running.runs, if_neg Bool.false_ne_true, ← running.line]
  omega

theorem Running.perform (running : Running c line start)
    (runs : call.Runs ∨ (c.perform call).2 = .failed) (later : start ≤ call.now) :
    Running (c.perform call).1 line call.now := by
  have still : Running c line call.now :=
    ⟨⟨running.valid, UInt64.le_trans running.seen later, UInt64.le_trans running.since later⟩,
      running.runs, running.line⟩
  by_cases failed : (c.perform call).2 = .failed
  · rw [perform_failed failed]
    exact still
  · have on := runs.resolve_right failed
    have stays : call.Stays := by
      cases call with
      | time | schedule | pause => trivial
      | _ => cases on
    rcases perform_cases (.inl stays) with same | ⟨pts, read, ⟨_, moved, _⟩ | ⟨paused, pauses, same⟩⟩
    · rw [same]
      exact still
    · rw [moved]
      exact ⟨⟨still.valid, UInt64.le_refl _, still.since⟩, still.runs, still.line⟩
    · have free : paused = false := by
        rw [pauses] at on
        cases paused with
        | true => cases on
        | false => rfl
      rw [same, free]
      refine ⟨⟨still.valid, UInt64.le_refl _, UInt64.le_refl _⟩, rfl, ?_⟩
      obtain ⟨_, _, _, _, exact⟩ := value_some.mp read
      change pts.toInt - call.now.toNat = line
      rw [exact, media, running.runs, if_neg Bool.false_ne_true, ← running.line]
      omega

theorem Running.run {rest : List ClockCall} (running : Running c line start)
    (only : c.Only ClockCall.Runs calls) (order : InTime start (calls ++ rest)) :
    ∃ last, Running (c.run calls) line last ∧ InTime last rest := by
  induction calls generalizing c start with
  | nil => exact ⟨start, running, order⟩
  | cons call others ih => exact ih (running.perform only.1 order.1) only.2 order.2

/-- What becomes of a frame follows from the distance of its time to the media time. -/
theorem next_running (runs : c.paused = false) (framePts pts : Int64) (late : UInt64) :
    (pts.toInt < framePts.toInt → ∃ delay, c.next framePts pts late = (.wait, delay) ∧
      (delay.toNat : ℤ) = framePts.toInt - pts.toInt) ∧
    (framePts.toInt ≤ pts.toInt → pts.toInt ≤ framePts.toInt + late.toNat →
      c.next framePts pts late = (.present, 0)) ∧
    (framePts.toInt + late.toNat < pts.toInt → c.next framePts pts late = (.drop, 0)) := by
  unfold next
  rw [runs, if_neg Bool.false_ne_true]
  refine ⟨fun future => ?_, fun due soon => ?_, fun overdue => ?_⟩
  · have ahead : pts < framePts := Int64.lt_iff_toInt_lt.mpr future
    rw [if_pos ahead]
    exact ⟨_, rfl, toNat_distance (Int64.le_of_lt ahead)⟩
  · have passed : framePts ≤ pts := Int64.le_iff_toInt_le.mpr due
    have distance := toNat_distance passed
    rw [if_neg (Int64.not_lt.mpr passed), if_neg]
    rw [gt_iff_lt, UInt64.lt_iff_toNat_lt]
    omega
  · have passed : framePts ≤ pts := Int64.le_iff_toInt_le.mpr (by omega)
    have distance := toNat_distance passed
    rw [if_neg (Int64.not_lt.mpr passed), if_pos]
    rw [gt_iff_lt, UInt64.lt_iff_toNat_lt]
    omega

/-- A frame that waits is waited for, presented and dropped at the times that its delay tells. -/
theorem schedule_waits {between : List ClockCall} {framePts : Int64} {late delay later tolerance : UInt64}
    (waits : (c.perform (.schedule framePts now late)).2 = .action .wait delay)
    (only : (c.perform (.schedule framePts now late)).1.Only ClockCall.Runs between)
    (order : InTime now (between ++ [.schedule framePts later tolerance]))
    (ranges : ((c.perform (.schedule framePts now late)).1.run between).InRange later) :
    ∃ action rest, (((c.perform (.schedule framePts now late)).1.run between).perform
        (.schedule framePts later tolerance)).2 = .action action rest ∧
      (later.toNat < now.toNat + delay.toNat →
        action = .wait ∧ later.toNat + rest.toNat = now.toNat + delay.toNat) ∧
      (now.toNat + delay.toNat ≤ later.toNat →
        later.toNat ≤ now.toNat + delay.toNat + tolerance.toNat → action = .present ∧ rest = 0) ∧
      (now.toNat + delay.toNat + tolerance.toNat < later.toNat → action = .drop ∧ rest = 0) := by
  cases read : c.value now with
  | none =>
      have unread : c.perform (.schedule framePts now late) = (c, .failed) :=
        perform_unread (show ClockCall.Stays (.schedule framePts now late) from trivial) read
      rw [unread] at waits
      cases waits
  | some pts =>
      rw [perform_schedule read] at waits only ranges ⊢
      obtain ⟨waiting, told⟩ := ClockReply.action.inj waits
      have runs : c.paused = false := by
        cases paused : c.paused with
        | false => rfl
        | true =>
            rw [next, paused, if_pos rfl] at waiting
            cases waiting
      obtain ⟨future, due, overdue⟩ := next_running runs framePts pts late
      have distance : (delay.toNat : ℤ) = framePts.toInt - pts.toInt := by
        by_cases ahead : pts.toInt < framePts.toInt
        · obtain ⟨wait, chosen, distance⟩ := future ahead
          rw [chosen] at told
          rw [← told, distance]
        · by_cases soon : pts.toInt ≤ framePts.toInt + late.toNat
          · rw [due (not_lt.mp ahead) soon] at waiting
            cases waiting
          · rw [overdue (not_le.mp soon)] at waiting
            cases waiting
      obtain ⟨last, running, after, _⟩ := (Running.of_value read runs).run only order
      obtain ⟨media, reread, line⟩ := running.value after ranges
      change media.toInt = pts.toInt - now.toNat + later.toNat at line
      generalize shown : ({ c with lastUs := now } : Clock).run between = d at *
      have again : d.perform (.schedule framePts later tolerance) = _ := perform_schedule reread
      rw [again]
      obtain ⟨future, due, overdue⟩ := next_running running.runs framePts media tolerance
      refine ⟨_, _, rfl, fun early => ?_, fun reached within => ?_, fun beyond => ?_⟩
      · obtain ⟨wait, chosen, remaining⟩ := future (by omega)
        rw [chosen]
        refine ⟨rfl, ?_⟩
        change later.toNat + wait.toNat = _
        omega
      · rw [due (by omega) (by omega)]
        exact ⟨rfl, rfl⟩
      · rw [overdue (by omega)]
        exact ⟨rfl, rfl⟩

end Clock

/-- What a player clock promises from any of its states. -/
structure ClockLaws (c : Clock) : Prop where
  failed : ∀ call, (c.perform call).2 = .failed → (c.perform call).1 = c
  ordered : ∀ calls, c.Only ClockCall.Stays calls →
    ((c.replies calls).filterMap ClockReply.reading).Pairwise (· ≤ ·)
  inserted : ∀ start (marked : List (ClockCall × Bool)),
    (∀ entry ∈ marked, entry.2 = true → entry.1.Reads) → InTime start (marked.map Prod.fst) →
    ((c.replies (marked.map Prod.fst)).zip marked).filterMap
        (fun told => if told.2.2 then none else some told.1) =
      c.replies ((marked.filter fun entry => !entry.2).map Prod.fst)
  unpaused : ∀ start calls now, c.Ready start → (∀ call ∈ calls, call.Stays) →
    InTime start (calls ++ [.time now]) → c.InRangeThrough (calls ++ [.time now]) →
    ∃ replies pts, c.replies (calls ++ [.time now]) = replies ++ [.time pts] ∧ .failed ∉ replies ∧
      pts.toInt = c.referencePts.toInt + Clock.unpausedUs c.paused c.referenceUs.toNat calls now
  frozen : ∀ start pts reads later now, c.value start = some pts →
    (∀ call ∈ reads, call.Reads) →
    InTime start (reads ++ [.time later, .pause false later, .time now]) →
    now.toNat < later.toNat + 2 ^ 63 → pts.toInt + (now.toNat - later.toNat) < 2 ^ 63 →
    ∃ replies next, c.replies (.pause true start :: (reads ++
        [.time later, .pause false later, .time now])) =
        replies ++ [.time pts, .done, .time next] ∧
      next.toInt = pts.toInt + (now.toNat - later.toNat)
  scheduled : ∀ framePts now late delay between later tolerance,
    (c.perform (.schedule framePts now late)).2 = .action .wait delay →
    (c.perform (.schedule framePts now late)).1.Only ClockCall.Runs between →
    InTime now (between ++ [.schedule framePts later tolerance]) →
    ((c.perform (.schedule framePts now late)).1.run between).InRange later →
    ∃ action rest, (((c.perform (.schedule framePts now late)).1.run between).perform
        (.schedule framePts later tolerance)).2 = .action action rest ∧
      (later.toNat < now.toNat + delay.toNat →
        action = .wait ∧ later.toNat + rest.toNat = now.toNat + delay.toNat) ∧
      (now.toNat + delay.toNat ≤ later.toNat →
        later.toNat ≤ now.toNat + delay.toNat + tolerance.toNat → action = .present ∧ rest = 0) ∧
      (now.toNat + delay.toNat + tolerance.toNat < later.toNat → action = .drop ∧ rest = 0)

/-- Readings do not go back and do not depend on further ones, media time runs while the
clock does, and a frame that waits is presented at the time that its delay tells. -/
theorem player_clock_laws (c : Clock) : ClockLaws c where
  failed _ := Clock.perform_failed
  ordered _ := Clock.readings_ordered
  inserted _ _ := Clock.Observed.replies (.inl rfl)
  unpaused _ _ _ := Clock.Ready.run
  frozen _ _ _ _ _ := Clock.value_frozen
  scheduled _ _ _ _ _ _ _ := Clock.schedule_waits

example : ((Clock.reset (-5) 10).perform (.schedule 3 12 2)).2 = .action .wait 6 := by decide

end LvglAic.Player
