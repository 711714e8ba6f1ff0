import LvglAic.Machine.Index

/-! # The APNG timeline (`lv_aic_apng_timeline.c`)

Fields are natural numbers; `u64` and `u32` wrap where the C code computes in
64 or 32 bits.  A function that returns `none` returns `false` and writes
nothing, as the C code works on a copy.
-/

namespace LvglAic.Apng

def uint64Max : Nat := 2 ^ 64 - 1

def u64 (value : Nat) : Nat := value % 2 ^ 64

def u32 (value : Nat) : Nat := value % 2 ^ 32

theorem u64_of_lt {value : Nat} (small : value < 2 ^ 64) : u64 value = value :=
  Nat.mod_eq_of_lt small

theorem u32_of_lt {value : Nat} (small : value < 2 ^ 32) : u32 value = value :=
  Nat.mod_eq_of_lt small

structure Timeline where
  lastUs : Nat
  mediaUs : Nat
  deadlineUs : Nat
  completedPlays : Nat
  rateNum : Nat
  rateDen : Nat
  mediaFraction : Nat
  deadlineFraction : Nat
  frames : Nat
  plays : Nat
  index : Nat
  minimumDelayUs : Nat
  initialized : Bool
  animated : Bool
  started : Bool
  awaitingFrame : Bool
  paused : Bool
  ended : Bool
deriving DecidableEq, Repr

inductive Action where
  | frame
  | wait
  | paused
  | ended
deriving DecidableEq, Repr

structure Step where
  action : Action
  frameIndex : Nat
  completedPlays : Nat
  waitUs : Nat
  resetCanvas : Bool
deriving DecidableEq, Repr

namespace Timeline

def advance (c : Timeline) (now : UInt64) : Option Timeline :=
  if !c.initialized || now.toNat < c.lastUs then none
  else
    let elapsed := if c.paused then 0 else now.toNat - c.lastUs
    let whole := elapsed / c.rateDen
    let tail := u64 (u64 (elapsed % c.rateDen * c.rateNum) + c.mediaFraction)
    if (uint64Max - c.mediaUs) / c.rateNum < whole then none
    else
      let whole := u64 (whole * c.rateNum)
      if uint64Max - c.mediaUs - whole < tail / c.rateDen then none
      else some { c with
        mediaUs := u64 (c.mediaUs + u64 (whole + tail / c.rateDen))
        mediaFraction := u32 (tail % c.rateDen)
        lastUs := now.toNat }

def due (c : Timeline) : Bool :=
  c.deadlineUs < c.mediaUs || (c.mediaUs == c.deadlineUs &&
    u64 (c.deadlineFraction * c.rateDen) ≤ u64 (c.mediaFraction * 2 ^ 32))

def init (frames plays : UInt32) (animated : Bool) (minimum : UInt32) (now : UInt64) :
    Option Timeline :=
  if frames = 0 || (!animated && frames ≠ 1) || minimum = 0 || 1000000 < minimum.toNat then none
  else some {
    lastUs := now.toNat
    mediaUs := 0
    deadlineUs := 0
    completedPlays := 0
    rateNum := 1
    rateDen := 1
    mediaFraction := 0
    deadlineFraction := 0
    frames := frames.toNat
    plays := if animated then plays.toNat else 1
    index := 0
    minimumDelayUs := minimum.toNat
    initialized := true
    animated := animated
    started := false
    awaitingFrame := true
    paused := false
    ended := false }

/-- The next frame, or the next play. -/
def turn (c : Timeline) : Option Timeline :=
  if u32 (c.index + 1) < c.frames then
    some { c with index := u32 (c.index + 1), awaitingFrame := true }
  else if c.completedPlays = uint64Max then none
  else
    let completed := c.completedPlays + 1
    if c.plays ≠ 0 ∧ c.plays ≤ completed then
      some { c with completedPlays := completed, ended := true, awaitingFrame := false }
    else some { c with completedPlays := completed, index := 0, awaitingFrame := true }

def catchUp (c : Timeline) : Option Timeline :=
  if !c.awaitingFrame && c.due then c.turn else some c

/-- The wall-clock time until the deadline, rounded up. -/
def waitTime (c : Timeline) : Option Nat :=
  let delta := c.deadlineUs - c.mediaUs
  let early := u64 (c.mediaFraction * 2 ^ 32) < u64 (c.deadlineFraction * c.rateDen)
  if early ∧ delta = uint64Max then none
  else
    let delta := if early then delta + 1 else delta
    let whole := delta / c.rateNum
    let tail := u64 (delta % c.rateNum * c.rateDen)
    if uint64Max / c.rateDen < whole then none
    else
      let whole := u64 (whole * c.rateDen)
      let tail := tail / c.rateNum + if tail % c.rateNum ≠ 0 then 1 else 0
      if uint64Max - whole < tail then none else some (whole + tail)

def step (c : Timeline) (action : Action) : Step where
  action := action
  frameIndex := c.index
  completedPlays := c.completedPlays
  waitUs := 0
  resetCanvas := false

/-- What `poll` does once the clock was read. -/
def settle (c : Timeline) : Option (Timeline × Step) :=
  if c.ended then some (c, c.step .ended)
  else if c.paused then some (c, c.step .paused)
  else
    c.catchUp.bind fun c =>
      if c.ended then some (c, c.step .ended)
      else if c.awaitingFrame then some (c, { c.step .frame with resetCanvas := c.index = 0 })
      else c.waitTime.map fun wait => (c, { c.step .wait with waitUs := wait })

def poll (c : Timeline) (now : UInt64) : Option (Timeline × Step) :=
  (c.advance now).bind settle

/-- `duration` and `fraction` of a delay, before the deadline is added. -/
def delay (c : Timeline) (num den : UInt16) : Nat × Nat :=
  let den := if den = 0 then 100 else den.toNat
  let units := u64 (num.toNat * 1000000)
  let duration := units / den
  let fraction := u64 (units % den * 2 ^ 32) / den
  if duration < c.minimumDelayUs then (c.minimumDelayUs, 0) else (duration, fraction)

/-- The first commit starts the deadlines at the media time. -/
def start (c : Timeline) : Timeline :=
  if c.started then c
  else { c with
    deadlineUs := c.mediaUs
    deadlineFraction := u32 (u64 (c.mediaFraction * 2 ^ 32) / c.rateDen) }

def commit (c : Timeline) (now : UInt64) (num den : UInt16) : Option Timeline :=
  if !c.awaitingFrame || c.ended then none
  else (c.advance now).bind fun c =>
    let c := c.start
    if !c.animated then
      some { c with ended := true, completedPlays := 1, started := true, awaitingFrame := false }
    else
      let fraction := u64 ((c.delay num den).2 + c.deadlineFraction)
      let duration := u64 ((c.delay num den).1 + fraction / 2 ^ 32)
      if uint64Max - c.deadlineUs < duration then none
      else some { c with
        deadlineUs := u64 (c.deadlineUs + duration)
        deadlineFraction := u32 fraction
        started := true
        awaitingFrame := false }

def pause (c : Timeline) (now : UInt64) (paused : Bool) : Option Timeline :=
  (c.advance now).map fun c => { c with paused := paused }

def rate (c : Timeline) (now : UInt64) (num den : UInt32) : Option Timeline :=
  if num = 0 || den = 0 || 1000000 < num.toNat || 1000000 < den.toNat ||
      u64 (num.toNat * 10) < den.toNat || u64 (den.toNat * 10) < num.toNat then none
  else
    (c.advance now).map fun c => { c with
      mediaFraction := u32 (u64 (c.mediaFraction * den.toNat) / c.rateDen)
      rateNum := num.toNat
      rateDen := den.toNat }

end Timeline

end LvglAic.Apng
