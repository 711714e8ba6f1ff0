import LvglAic.Machine.Shares
import LvglAic.Ge2d.Rotation

/-! # Near-unity scaler stripes (`lv_draw_aic_ge2d_stripes.c`)

The fields of an engine command that the planner reads are modelled; `Other` and
`Control` stand for all further fields of a buffer and of the control block.
The 64-bit products of the planner are bounded by its own guards and are written
as integers.
-/

namespace LvglAic.Ge2d

open LvglAic.Machine

inductive MppPixelFormat where
  | rgb565
  | rgb888
  | xrgb8888
  | argb8888
  | yuv400
  | yuv444p
  | yuv420p
  | nv12
  | nv21
  | yuv422p
  | nv16
  | nv61
  | yuyv
  | yvyu
  | uyvy
  | vyuy
  | unknown (code : ℕ)
deriving DecidableEq, Repr

structure MppSize where
  width : Int32
  height : Int32
deriving DecidableEq, Repr

structure MppRect where
  x : Int32
  y : Int32
  width : Int32
  height : Int32
deriving DecidableEq, Repr

structure MppBuf (Other : Type) where
  size : MppSize
  cropEn : Bool
  crop : MppRect
  format : MppPixelFormat
  other : Other
deriving DecidableEq

structure ScalePhase where
  scalePhaseEn : Bool
  scalerEn : Bool
  channelNum : Int32
  dx16 : Fin 2 → Int32
  dy16 : Fin 2 → Int32
  hPhase16 : Fin 2 → Int32
  vPhase16 : Fin 2 → Int32
  inWCh1 : Int32
  inHCh1 : Int32
deriving DecidableEq

structure GeBitblt (Other Control : Type) where
  srcBuf : MppBuf Other
  dstBuf : MppBuf Other
  flags : UInt32
  control : Control
  scalePhase : ScalePhase
deriving DecidableEq

variable {Other Control : Type}

/-- The effective crop of a buffer. -/
def MppBuf.rect (b : MppBuf Other) : MppRect :=
  if b.cropEn then b.crop else { x := 0, y := 0, width := b.size.width, height := b.size.height }

def MppRect.bounded (r : MppRect) (size : MppSize) : Bool :=
  0 ≤ r.x.toInt && 0 ≤ r.y.toInt && 4 ≤ r.width.toInt && 4 ≤ r.height.toInt &&
    r.x.toInt + r.width.toInt ≤ size.width.toInt &&
    r.y.toInt + r.height.toInt ≤ size.height.toInt

structure Layout where
  channels : ℕ
  subX : ℕ
  subY : ℕ
  minimum : ℕ
deriving DecidableEq, Repr

def layout (format : MppPixelFormat) : Option Layout :=
  match format with
  | .rgb565 | .rgb888 | .xrgb8888 | .argb8888 =>
      some { channels := 1, subX := 0, subY := 0, minimum := 4 }
  | .yuv400 => some { channels := 1, subX := 0, subY := 0, minimum := 8 }
  | .yuv444p => some { channels := 2, subX := 0, subY := 0, minimum := 8 }
  | .yuv420p | .nv12 | .nv21 => some { channels := 2, subX := 1, subY := 1, minimum := 8 }
  | .yuv422p | .nv16 | .nv61 | .yuyv | .yvyu | .uyvy | .vyuy =>
      some { channels := 2, subX := 1, subY := 0, minimum := 8 }
  | .unknown _ => none

/-- `MPP_ROTATION_GET`: the rotation code of the control flags. -/
def mppRotation (flags : UInt32) : ℕ := flags.toNat % 4

def GeBitblt.vertical (b : GeBitblt Other Control) : Bool := mppRotation b.flags % 2 = 1

/-- The outputs along the scaler's horizontal axis. -/
def GeBitblt.outputs (b : GeBitblt Other Control) : Int32 :=
  if b.vertical then b.dstBuf.rect.height else b.dstBuf.rect.width

def isOdd (value : Int32) : Bool := value.toInt % 2 = 1

/-- The source axes of a subsampled format start, step and end on whole chroma samples. -/
def GeBitblt.aligned (b : GeBitblt Other Control) (l : Layout) : Bool :=
  !(l.subX ≠ 0 && (isOdd b.srcBuf.rect.x || isOdd b.srcBuf.rect.width ||
      isOdd (b.scalePhase.dx16 0) || isOdd (b.scalePhase.hPhase16 0))) &&
    !(l.subY ≠ 0 && (isOdd b.srcBuf.rect.y || isOdd b.srcBuf.rect.height ||
      isOdd (b.scalePhase.dy16 0) || isOdd (b.scalePhase.vPhase16 0)))

/-- The chroma channel follows the luma channel. -/
def GeBitblt.chromaFollows (b : GeBitblt Other Control) (l : Layout) : Bool :=
  b.scalePhase.inWCh1.toInt = b.srcBuf.rect.width.toInt / 2 ^ l.subX &&
    b.scalePhase.inHCh1.toInt = b.srcBuf.rect.height.toInt / 2 ^ l.subY &&
    (b.scalePhase.dx16 1).toInt = (b.scalePhase.dx16 0).toInt / 2 ^ l.subX &&
    (b.scalePhase.dy16 1).toInt = (b.scalePhase.dy16 0).toInt / 2 ^ l.subY &&
    (b.scalePhase.hPhase16 1).toInt = (b.scalePhase.hPhase16 0).toInt / 2 ^ l.subX &&
    (b.scalePhase.vPhase16 1).toInt = (b.scalePhase.vPhase16 0).toInt / 2 ^ l.subY

/-- The number of strips, or zero for a command the planner does not support. -/
def countFor (b : GeBitblt Other Control) : ℕ :=
  if !b.scalePhase.scalePhaseEn || !b.scalePhase.scalerEn ||
      !scaleSplitRisk (b.scalePhase.dx16 0) b.outputs then 1
  else
    match layout b.srcBuf.format with
    | none => 0
    | some l =>
        if 4096 < b.outputs.toInt || 4 ≤ b.flags.toNat ||
            b.scalePhase.channelNum.toInt ≠ l.channels ||
            (b.scalePhase.hPhase16 0).toInt < 0 ||
            65536 * 2 ^ l.subX ≤ (b.scalePhase.hPhase16 0).toInt then 0
        else if !b.aligned l then 0
        else if l.channels = 2 && !b.chromaFollows l then 0
        else (b.outputs.toInt.toNat + 30) / 31

/-- The source crop of a strip, from the coordinate of its first sample. -/
structure StripSource where
  advance : ℤ
  phase : ℤ
  needed : ℤ
  chroma : ℤ
deriving DecidableEq, Repr

/-- Cuts the source for samples from `first` to `first + span`, relative to the old crop. -/
def cutSource (l : Layout) (width first chromaFirst span chromaSpan : ℤ) : Option StripSource :=
  let advance := first.tdiv 65536 / 2 ^ l.subX * 2 ^ l.subX
  let phase := first - advance * 65536
  let last := phase + span
  let remaining := width - advance
  if remaining < l.minimum || (remaining - 1) * 65536 < last then none
  else
    let needed := (last + 65535).tdiv 65536 + 2
    let chroma := chromaFirst - advance / 2 ^ l.subX * 65536
    let chromaNeeded := ((chroma + chromaSpan + 65535).tdiv 65536 + 2) * 2 ^ l.subX
    let needed := if l.channels = 2 ∧ needed < chromaNeeded then chromaNeeded else needed
    let needed := (needed + (2 ^ l.subX - 1)) / 2 ^ l.subX * 2 ^ l.subX
    some {
      advance := advance
      phase := phase
      needed := if remaining < needed then remaining else needed
      chroma := chroma }

def stripSource (b : GeBitblt Other Control) (l : Layout) (offset n : ℕ) : Option StripSource :=
  cutSource l b.srcBuf.rect.width.toInt
    ((b.scalePhase.hPhase16 0).toInt + offset * (b.scalePhase.dx16 0).toInt)
    ((b.scalePhase.hPhase16 1).toInt + offset * (b.scalePhase.dx16 1).toInt)
    ((n - 1 : ℕ) * (b.scalePhase.dx16 0).toInt) ((n - 1 : ℕ) * (b.scalePhase.dx16 1).toInt)

/-- The destination crop of a strip: reversed rotations fill it from the far end. -/
def stripDst (dst : MppRect) (rotation width offset n : ℕ) : MppRect :=
  if rotation % 2 = 1 then
    { dst with
      y := Int32.ofInt (dst.y.toInt + if rotation = 1 then (offset : ℤ) else width - offset - n)
      height := Int32.ofInt n }
  else
    { dst with
      x := Int32.ofInt (dst.x.toInt + if rotation = 0 then (offset : ℤ) else width - offset - n)
      width := Int32.ofInt n }

def stripCommand (b : GeBitblt Other Control) (l : Layout) (offset n : ℕ) (s : StripSource) :
    GeBitblt Other Control where
  srcBuf := { b.srcBuf with
    cropEn := true
    crop := { b.srcBuf.rect with
      x := Int32.ofInt (b.srcBuf.rect.x.toInt + s.advance)
      width := Int32.ofInt s.needed } }
  dstBuf := { b.dstBuf with
    cropEn := true
    crop := stripDst b.dstBuf.rect (mppRotation b.flags) b.outputs.toInt.toNat offset n }
  flags := b.flags
  control := b.control
  scalePhase := { b.scalePhase with
    hPhase16 := if l.channels = 2 then ![Int32.ofInt s.phase, Int32.ofInt s.chroma]
      else ![Int32.ofInt s.phase, b.scalePhase.hPhase16 1]
    inWCh1 := if l.channels = 2 then Int32.ofInt (s.needed / 2 ^ l.subX)
      else b.scalePhase.inWCh1 }

def stripe (b : GeBitblt Other Control) (index : ℕ) : Option (GeBitblt Other Control) :=
  let count := countFor b
  if count = 0 ∨ count ≤ index then none
  else if count = 1 then some b
  else if !b.srcBuf.rect.bounded b.srcBuf.size || !b.dstBuf.rect.bounded b.dstBuf.size then none
  else do
    let l ← layout b.srcBuf.format
    let width := b.outputs.toInt.toNat
    let offset := shareStart width count index
    let n := share width count index
    if b.srcBuf.rect.width.toInt < l.minimum || b.srcBuf.rect.height.toInt < l.minimum ||
        b.dstBuf.rect.width.toInt < l.minimum || b.dstBuf.rect.height.toInt < l.minimum then none
    else
      let s ← stripSource b l offset n
      some (stripCommand b l offset n s)

def stripeCount (b : GeBitblt Other Control) : Option ℕ :=
  let n := countFor b
  if n = 0 then none
  else if (List.range n).all fun i => (stripe b i).isSome then some n
  else none

/-- Submits the strips of the list; `engine` tells whether a strip's commands complete.
The result comes with the commands that were attempted. -/
def runStrips (engine : ℕ → Bool) (b : GeBitblt Other Control) :
    List ℕ → Int × List (GeBitblt Other Control)
  | [] => (1, [])
  | index :: rest =>
      match stripe b index with
      | none => (-1, [])
      | some command =>
          if engine index then
            ((runStrips engine b rest).1, command :: (runStrips engine b rest).2)
          else (-1, [command])

def stripeRun (engine : ℕ → Bool) (b : GeBitblt Other Control) :
    Int × List (GeBitblt Other Control) :=
  match stripeCount b with
  | none => (0, [])
  | some count => runStrips engine b (List.range count)

/-! ## The coordinates of a command -/

/-- Where the luma channel samples output `k` of the horizontal axis. -/
def GeBitblt.lumaAt (b : GeBitblt Other Control) (k : ℤ) : ℤ :=
  b.srcBuf.rect.x.toInt * 65536 + (b.scalePhase.hPhase16 0).toInt +
    k * (b.scalePhase.dx16 0).toInt

def GeBitblt.chromaAt (l : Layout) (b : GeBitblt Other Control) (k : ℤ) : ℤ :=
  b.srcBuf.rect.x.toInt / 2 ^ l.subX * 65536 + (b.scalePhase.hPhase16 1).toInt +
    k * (b.scalePhase.dx16 1).toInt

/-- The destination position at which the horizontal axis starts. -/
def GeBitblt.axisStart (b : GeBitblt Other Control) : ℤ :=
  if b.vertical then b.dstBuf.rect.y.toInt else b.dstBuf.rect.x.toInt

/-- The output that a destination position receives. -/
def GeBitblt.outputAt (b : GeBitblt Other Control) (position : ℤ) : ℤ :=
  if 2 ≤ mppRotation b.flags then b.axisStart + b.outputs.toInt - 1 - position
  else position - b.axisStart

/-- The destination positions of a command along the horizontal axis. -/
def GeBitblt.Covers (b : GeBitblt Other Control) (position : ℤ) : Prop :=
  b.axisStart ≤ position ∧ position < b.axisStart + b.outputs.toInt

/-- What the planner has checked of a command that it cuts into strips. -/
structure Striped (b : GeBitblt Other Control) (l : Layout) : Prop where
  format : layout b.srcBuf.format = some l
  step : 59392 < (b.scalePhase.dx16 0).toInt ∧ (b.scalePhase.dx16 0).toInt < 65536
  outputs : 32 ≤ b.outputs.toInt ∧ b.outputs.toInt ≤ 4096
  flags : b.flags.toNat < 4
  phase : 0 ≤ (b.scalePhase.hPhase16 0).toInt ∧
    (b.scalePhase.hPhase16 0).toInt < 65536 * 2 ^ l.subX
  aligned : b.aligned l = true
  follows : l.channels = 2 → b.chromaFollows l = true
  count : countFor b = (b.outputs.toInt.toNat + 30) / 31

section
variable {b c : GeBitblt Other Control} {l : Layout} {n i index : ℕ} {s : StripSource}
  {offset size : ℕ}

theorem layout_cases {format : MppPixelFormat} (known : layout format = some l) :
    (l.channels = 1 ∧ l.subX = 0 ∧ 4 ≤ l.minimum) ∨
      (l.channels = 2 ∧ (l.subX = 0 ∨ l.subX = 1) ∧ 4 ≤ l.minimum) := by
  cases format <;> simp only [layout, Option.some.injEq, reduceCtorEq] at known <;> subst known <;>
    decide

theorem countFor_many (many : 1 < countFor b) : ∃ l, Striped b l := by
  generalize counted : countFor b = m at many
  have count := counted
  unfold countFor at counted
  split at counted
  · omega
  · rename_i risky
    simp only [Bool.or_eq_true, Bool.not_eq_true', not_or, Bool.not_eq_false] at risky
    obtain ⟨_, risk⟩ := risky
    simp only [scaleSplitRisk, Bool.and_eq_true, decide_eq_true_eq] at risk
    obtain ⟨⟨below, above⟩, wide⟩ := risk
    split at counted
    · omega
    · rename_i l known
      split at counted
      · omega
      · rename_i bounds
        simp only [Bool.or_eq_true, decide_eq_true_eq, not_or, not_lt, not_le] at bounds
        obtain ⟨⟨⟨⟨narrow, flags⟩, _⟩, phaseLow⟩, phaseHigh⟩ := bounds
        split at counted
        · omega
        · rename_i aligned
          split at counted
          · omega
          · rename_i follows
            refine ⟨l, known, ⟨?_, below⟩, ⟨wide, narrow⟩, flags, ⟨phaseLow, phaseHigh⟩, ?_, ?_,
              count.trans counted.symm⟩
            · exact above
            · simpa only [Bool.not_eq_true', Bool.not_eq_false] using aligned
            · intro two
              simpa only [two, decide_true, Bool.true_and, Bool.not_eq_true', Bool.not_eq_false]
                using follows

/-- The rectangles of a command that can be cut. -/
structure Cuttable (b : GeBitblt Other Control) (l : Layout) : Prop where
  src : b.srcBuf.rect.bounded b.srcBuf.size = true
  dst : b.dstBuf.rect.bounded b.dstBuf.size = true
  minimum : l.minimum ≤ b.srcBuf.rect.width.toInt

theorem stripe_many (many : 1 < countFor b) (striped : Striped b l)
    (cut : stripe b index = some c) :
    index < countFor b ∧ Cuttable b l ∧ ∃ s,
      stripSource b l (shareStart b.outputs.toInt.toNat (countFor b) index)
        (share b.outputs.toInt.toNat (countFor b) index) = some s ∧
      c = stripCommand b l (shareStart b.outputs.toInt.toNat (countFor b) index)
        (share b.outputs.toInt.toNat (countFor b) index) s := by
  unfold stripe at cut
  dsimp only at cut
  split at cut
  · contradiction
  · rename_i within
    split at cut
    · omega
    · split at cut
      · contradiction
      · rename_i rects
        simp only [Bool.or_eq_true, Bool.not_eq_true', not_or, Bool.not_eq_false] at rects
        rw [striped.format, Option.bind_eq_bind, Option.bind_some] at cut
        split at cut
        · contradiction
        · rename_i large
          simp only [Bool.or_eq_true, decide_eq_true_eq, not_or, not_lt] at large
          obtain ⟨s, source, made⟩ := Option.bind_eq_some_iff.mp cut
          refine ⟨by omega, ⟨rects.1, rects.2, large.1.1.1⟩, s, source, ?_⟩
          exact (Option.some.inj made).symm

theorem bounded_iff {r : MppRect} {size : MppSize} : r.bounded size = true ↔
    0 ≤ r.x.toInt ∧ 0 ≤ r.y.toInt ∧ 4 ≤ r.width.toInt ∧ 4 ≤ r.height.toInt ∧
      r.x.toInt + r.width.toInt ≤ size.width.toInt ∧
      r.y.toInt + r.height.toInt ≤ size.height.toInt := by
  simp only [MppRect.bounded, Bool.and_eq_true, decide_eq_true_eq, and_assoc]

/-- What a cut keeps: the samples, whole chroma samples, and the taps or the right edge. -/
structure SourceCut (l : Layout) (width first chromaFirst span chromaSpan : ℤ)
    (s : StripSource) : Prop where
  first : s.advance * 65536 + s.phase = first
  chroma : s.advance / 2 ^ l.subX * 65536 + s.chroma = chromaFirst
  whole : s.advance % 2 ^ l.subX = 0
  nonneg : 0 ≤ s.advance
  phase : 0 ≤ s.phase ∧ s.phase < 65536 * 2 ^ l.subX
  room : s.advance + 4 ≤ width
  needed : 0 ≤ s.needed ∧ s.advance + s.needed ≤ width
  even : width % 2 ^ l.subX = 0 → s.needed % 2 ^ l.subX = 0
  chromaPhase : l.channels = 2 → 2 ^ l.subX * s.chroma = s.phase
  taps : s.advance + s.needed = width ∨
    ((s.phase + span + 65535) / 65536 + 2 ≤ s.needed ∧ (l.channels = 2 →
      ((s.chroma + chromaSpan + 65535) / 65536 + 2) * 2 ^ l.subX ≤ s.needed))

theorem cutSource_cut {width first chromaFirst span chromaSpan : ℤ}
    (known : (l.channels = 1 ∧ l.subX = 0 ∧ 4 ≤ l.minimum) ∨
      (l.channels = 2 ∧ (l.subX = 0 ∨ l.subX = 1) ∧ 4 ≤ l.minimum))
    (nonneg : 0 ≤ first) (forward : 0 ≤ span)
    (halves : l.channels = 2 → 2 ^ l.subX * chromaFirst = first ∧ 2 ^ l.subX * chromaSpan = span)
    (cut : cutSource l width first chromaFirst span chromaSpan = some s) :
    SourceCut l width first chromaFirst span chromaSpan s := by
  obtain ⟨channels, subX, subY, minimum⟩ := l
  dsimp only at known halves
  unfold cutSource at cut
  dsimp only at cut
  rw [Int.tdiv_eq_ediv_of_nonneg nonneg] at cut
  split at cut
  · contradiction
  · rename_i room
    simp only [Bool.or_eq_true, decide_eq_true_eq, not_or, not_lt] at room
    obtain ⟨remaining, last⟩ := room
    cases Option.some.inj cut
    rcases known with ⟨rfl, rfl, least⟩ | ⟨rfl, rfl | rfl, least⟩
    · simp only [pow_zero, Int.ediv_one, mul_one, OfNat.one_ne_ofNat, false_and, if_false,
        sub_self, add_zero] at remaining last ⊢
      rw [Int.tdiv_eq_ediv_of_nonneg (by omega)]
      constructor <;> dsimp only <;> (try simp only [pow_zero, Int.ediv_one, mul_one, one_mul]) <;>
        (try split) <;> omega
    · obtain ⟨sameFirst, sameSpan⟩ := halves rfl
      simp only [pow_zero, Int.ediv_one, mul_one, true_and, one_mul, sub_self, add_zero]
        at remaining last sameFirst sameSpan ⊢
      rw [Int.tdiv_eq_ediv_of_nonneg (by omega), Int.tdiv_eq_ediv_of_nonneg (by omega)]
      constructor <;> dsimp only <;> (try simp only [pow_zero, Int.ediv_one, mul_one, one_mul]) <;>
        (try split) <;> (try split) <;> omega
    · obtain ⟨sameFirst, sameSpan⟩ := halves rfl
      simp only [pow_one, true_and] at remaining last sameFirst sameSpan ⊢
      rw [Int.tdiv_eq_ediv_of_nonneg (by omega), Int.tdiv_eq_ediv_of_nonneg (by omega)]
      constructor <;> dsimp only <;> (try simp only [pow_one]) <;> (try split) <;> (try split) <;>
        omega

theorem isOdd_false {value : Int32} (even : ¬ isOdd value = true) : value.toInt % 2 = 0 := by
  simp only [isOdd, decide_eq_true_eq] at even
  omega

/-- The chroma phase and step are those of the luma channel in chroma samples. -/
theorem Striped.halves (striped : Striped b l) (two : l.channels = 2) :
    2 ^ l.subX * (b.scalePhase.hPhase16 1).toInt = (b.scalePhase.hPhase16 0).toInt ∧
      2 ^ l.subX * (b.scalePhase.dx16 1).toInt = (b.scalePhase.dx16 0).toInt := by
  have follows := striped.follows two
  have aligned := striped.aligned
  simp only [GeBitblt.chromaFollows, Bool.and_eq_true, decide_eq_true_eq] at follows
  obtain ⟨⟨⟨⟨⟨_, _⟩, stepHalf⟩, _⟩, phaseHalf⟩, _⟩ := follows
  rcases layout_cases striped.format with ⟨one, _⟩ | ⟨_, sub | sub, _⟩
  · omega
  · rw [stepHalf, phaseHalf, sub]
    omega
  · simp only [GeBitblt.aligned, sub, ne_eq, one_ne_zero, not_false_eq_true, decide_true,
      Bool.true_and, Bool.and_eq_true, Bool.not_eq_true', ← Bool.not_eq_true, Bool.or_eq_true,
      not_or] at aligned
    have step := isOdd_false aligned.1.1.2
    have phase := isOdd_false aligned.1.2
    rw [stepHalf, phaseHalf, sub]
    omega

theorem stripSource_cut (striped : Striped b l) (cut : stripSource b l offset size = some s) :
    SourceCut l b.srcBuf.rect.width.toInt
      ((b.scalePhase.hPhase16 0).toInt + offset * (b.scalePhase.dx16 0).toInt)
      ((b.scalePhase.hPhase16 1).toInt + offset * (b.scalePhase.dx16 1).toInt)
      ((size - 1 : ℕ) * (b.scalePhase.dx16 0).toInt)
      ((size - 1 : ℕ) * (b.scalePhase.dx16 1).toInt) s := by
  have step := striped.step
  have begun := striped.phase.1
  have forward : 0 ≤ (offset : ℤ) * (b.scalePhase.dx16 0).toInt :=
    mul_nonneg (Int.natCast_nonneg _) (by omega)
  refine cutSource_cut (layout_cases striped.format) (by omega)
    (mul_nonneg (Int.natCast_nonneg _) (by omega)) ?_ cut
  intro two
  obtain ⟨phaseHalf, stepHalf⟩ := striped.halves two
  rw [← phaseHalf, ← stepHalf]
  constructor <;> ring

/-! ## One strip -/

/-- A strip of a command: its outputs, its source cut, and the command built from them. -/
structure Strip (b : GeBitblt Other Control) (l : Layout) (offset size : ℕ)
    (c : GeBitblt Other Control) : Prop where
  striped : Striped b l
  cuttable : Cuttable b l
  small : 16 ≤ size ∧ size ≤ 31
  inside : offset + size ≤ b.outputs.toInt
  command : ∃ s, c = stripCommand b l offset size s ∧ stripSource b l offset size = some s

/-- How far a strip starts after the command along the destination. -/
def stripShift (rotation : ℕ) (width : ℤ) (offset size : ℕ) : ℤ :=
  if 2 ≤ rotation then width - offset - size else offset

theorem stripDst_vertical {dst : MppRect} {rotation width : ℕ} (code : rotation < 4)
    (vertical : rotation % 2 = 1) : stripDst dst rotation width offset size =
      { dst with
        y := Int32.ofInt (dst.y.toInt + stripShift rotation width offset size)
        height := Int32.ofInt size } := by
  have turns : rotation = 1 ∨ rotation = 3 := by omega
  rcases turns with rfl | rfl <;> rfl

theorem stripDst_horizontal {dst : MppRect} {rotation width : ℕ} (code : rotation < 4)
    (horizontal : ¬ rotation % 2 = 1) : stripDst dst rotation width offset size =
      { dst with
        x := Int32.ofInt (dst.x.toInt + stripShift rotation width offset size)
        width := Int32.ofInt size } := by
  have turns : rotation = 0 ∨ rotation = 2 := by omega
  rcases turns with rfl | rfl <;> rfl

theorem mppRotation_lt (flags : UInt32) : mppRotation flags < 4 := Nat.mod_lt _ (by decide)

/-- The destination rectangle along the other axis. -/
def GeBitblt.crossAxis (b : GeBitblt Other Control) : Int32 × Int32 :=
  if b.vertical then (b.dstBuf.rect.x, b.dstBuf.rect.width)
  else (b.dstBuf.rect.y, b.dstBuf.rect.height)

theorem Strip.dst (strip : Strip b l offset size c) :
    c.outputs.toInt = size ∧ c.crossAxis = b.crossAxis ∧ c.axisStart =
      b.axisStart + stripShift (mppRotation b.flags) b.outputs.toInt offset size := by
  obtain ⟨s, rfl, _⟩ := strip.command
  obtain ⟨left, top, _, _, wide, tall⟩ := bounded_iff.mp strip.cuttable.dst
  have small := strip.small
  have inside := strip.inside
  have outputs := strip.striped.outputs
  have widest := Int32.toInt_lt b.dstBuf.size.width
  have tallest := Int32.toInt_lt b.dstBuf.size.height
  have narrow : (Int32.ofInt (size : ℤ)).toInt = size := toInt_ofInt ⟨by omega, by omega⟩
  have whole : (b.outputs.toInt.toNat : ℤ) = b.outputs.toInt := Int.toNat_of_nonneg (by omega)
  have shift : 0 ≤ stripShift (mppRotation b.flags) b.outputs.toInt offset size ∧
      stripShift (mppRotation b.flags) b.outputs.toInt offset size ≤ b.outputs.toInt := by
    unfold stripShift
    split <;> omega
  have rect : (stripCommand b l offset size s).dstBuf.rect =
    stripDst b.dstBuf.rect (mppRotation b.flags) b.outputs.toInt.toNat offset size := rfl
  have turn : (stripCommand b l offset size s).vertical = b.vertical := rfl
  unfold GeBitblt.axisStart GeBitblt.crossAxis
  rw [GeBitblt.outputs, turn, rect]
  by_cases vertical : mppRotation b.flags % 2 = 1
  · have upright : b.vertical = true := decide_eq_true vertical
    have height : b.outputs = b.dstBuf.rect.height := by
      rw [GeBitblt.outputs, upright, if_pos rfl]
    rw [stripDst_vertical (mppRotation_lt _) vertical, whole, upright]
    rw [height] at shift ⊢
    exact ⟨narrow, rfl, toInt_ofInt ⟨by omega, by omega⟩⟩
  · have flat : b.vertical = false := decide_eq_false vertical
    have width : b.outputs = b.dstBuf.rect.width := by
      rw [GeBitblt.outputs, flat, if_neg Bool.false_ne_true]
    rw [stripDst_horizontal (mppRotation_lt _) vertical, whole, flat]
    rw [width] at shift ⊢
    exact ⟨narrow, rfl, toInt_ofInt ⟨by omega, by omega⟩⟩

/-- A strip covers the destination positions of its outputs. -/
theorem Strip.covers_iff (strip : Strip b l offset size c) (position : ℤ) :
    c.Covers position ↔ offset ≤ b.outputAt position ∧ b.outputAt position < offset + size := by
  obtain ⟨count, _, start⟩ := strip.dst
  unfold GeBitblt.Covers GeBitblt.outputAt
  rw [count, start, stripShift]
  split <;> omega

theorem Strip.outputAt_eq (strip : Strip b l offset size c) (position : ℤ) :
    c.outputAt position = b.outputAt position - offset := by
  obtain ⟨count, _, start⟩ := strip.dst
  have turn : mppRotation c.flags = mppRotation b.flags := by
    obtain ⟨s, rfl, _⟩ := strip.command
    rfl
  unfold GeBitblt.outputAt
  rw [count, start, turn, stripShift]
  split <;> omega

theorem Strip.source (strip : Strip b l offset size c) : ∃ s,
    c = stripCommand b l offset size s ∧
    SourceCut l b.srcBuf.rect.width.toInt
      ((b.scalePhase.hPhase16 0).toInt + offset * (b.scalePhase.dx16 0).toInt)
      ((b.scalePhase.hPhase16 1).toInt + offset * (b.scalePhase.dx16 1).toInt)
      ((size - 1 : ℕ) * (b.scalePhase.dx16 0).toInt)
      ((size - 1 : ℕ) * (b.scalePhase.dx16 1).toInt) s ∧
    c.srcBuf.rect.x.toInt = b.srcBuf.rect.x.toInt + s.advance ∧
    c.srcBuf.rect.width.toInt = s.needed ∧
    (c.scalePhase.hPhase16 0).toInt = s.phase ∧
    (l.channels = 2 → (c.scalePhase.hPhase16 1).toInt = s.chroma) := by
  obtain ⟨s, made, cut⟩ := strip.command
  have source := stripSource_cut strip.striped cut
  obtain ⟨left, _, _, _, wide, _⟩ := bounded_iff.mp strip.cuttable.src
  have widest := Int32.toInt_lt b.srcBuf.size.width
  have nonneg := source.nonneg
  have room := source.room
  have needed := source.needed
  have phase := source.phase
  refine ⟨s, made, source, ?_, ?_, ?_, ?_⟩
  · rw [made]
    exact toInt_ofInt ⟨by omega, by omega⟩
  · rw [made]
    exact toInt_ofInt ⟨by omega, by omega⟩
  · have stored : (stripCommand b l offset size s).scalePhase.hPhase16 0 =
        Int32.ofInt s.phase := by
      dsimp only [stripCommand]
      split <;> rfl
    rw [made, stored]
    rcases layout_cases strip.striped.format with ⟨_, sub, _⟩ | ⟨_, sub | sub, _⟩ <;>
      rw [sub] at phase <;> exact toInt_ofInt ⟨by omega, by omega⟩
  · intro two
    have stored : (stripCommand b l offset size s).scalePhase.hPhase16 1 =
        Int32.ofInt s.chroma := by
      dsimp only [stripCommand]
      rw [if_pos two]
      rfl
    have half := source.chromaPhase two
    rw [made, stored]
    rcases layout_cases strip.striped.format with ⟨_, sub, _⟩ | ⟨_, sub | sub, _⟩ <;>
      rw [sub] at phase half <;> exact toInt_ofInt ⟨by omega, by omega⟩

/-- The luma coordinate of every output of a strip is that of the command. -/
theorem Strip.luma_eq (strip : Strip b l offset size c) (position : ℤ) :
    c.lumaAt (c.outputAt position) = b.lumaAt (b.outputAt position) := by
  obtain ⟨s, made, source, crop, _, phase, _⟩ := strip.source
  have step : c.scalePhase.dx16 = b.scalePhase.dx16 := by
    rw [made]
    rfl
  have first := source.first
  unfold GeBitblt.lumaAt
  rw [strip.outputAt_eq, crop, phase, step]
  linear_combination first

/-- So is the chroma coordinate, when the crop of the command starts on a chroma sample. -/
theorem Strip.chroma_eq (strip : Strip b l offset size c) (two : l.channels = 2)
    (position : ℤ) :
    c.chromaAt l (c.outputAt position) = b.chromaAt l (b.outputAt position) := by
  obtain ⟨s, made, source, crop, _, _, phase⟩ := strip.source
  have step : c.scalePhase.dx16 = b.scalePhase.dx16 := by
    rw [made]
    rfl
  have apart : (b.srcBuf.rect.x.toInt + s.advance) / 2 ^ l.subX =
      b.srcBuf.rect.x.toInt / 2 ^ l.subX + s.advance / 2 ^ l.subX :=
    Int.add_ediv_of_dvd_right (Int.dvd_of_emod_eq_zero source.whole)
  have first := source.chroma
  unfold GeBitblt.chromaAt
  rw [strip.outputAt_eq, crop, phase two, step, apart]
  linear_combination first

/-- The source crop of a strip, which lies in the source crop of the command. -/
theorem Strip.crop (strip : Strip b l offset size c) :
    b.srcBuf.rect.x.toInt ≤ c.srcBuf.rect.x.toInt ∧
      c.srcBuf.rect.x.toInt + c.srcBuf.rect.width.toInt ≤
        b.srcBuf.rect.x.toInt + b.srcBuf.rect.width.toInt ∧
      c.srcBuf.rect.y = b.srcBuf.rect.y ∧ c.srcBuf.rect.height = b.srcBuf.rect.height := by
  obtain ⟨s, made, source, crop, width, _⟩ := strip.source
  have nonneg := source.nonneg
  have needed := source.needed
  refine ⟨by omega, by omega, ?_, ?_⟩ <;> rw [made] <;> rfl

theorem Strip.crop_aligned (strip : Strip b l offset size c) (halved : l.subX ≠ 0) :
    c.srcBuf.rect.x.toInt % 2 = 0 ∧ c.srcBuf.rect.width.toInt % 2 = 0 := by
  obtain ⟨s, _, source, crop, width, _⟩ := strip.source
  have aligned := strip.striped.aligned
  have whole := source.whole
  have even := source.even
  have sub : l.subX = 1 := by
    rcases layout_cases strip.striped.format with ⟨_, sub, _⟩ | ⟨_, sub | sub, _⟩ <;> omega
  simp only [GeBitblt.aligned, sub, ne_eq, one_ne_zero, not_false_eq_true, decide_true,
    Bool.true_and, Bool.and_eq_true, Bool.not_eq_true', ← Bool.not_eq_true, Bool.or_eq_true,
    not_or] at aligned
  have start := isOdd_false aligned.1.1.1.1
  have wide := isOdd_false aligned.1.1.1.2
  rw [sub, pow_one] at whole even
  have kept := even wide
  exact ⟨by omega, by omega⟩

/-- The crop of a command holds both taps of a coordinate on an axis of `width` samples. -/
def holdsTaps (width coordinate : ℤ) : Prop :=
  0 ≤ coordinate ∧ coordinate ≤ (width - 2) * 65536

/-- The source crop holds both taps of every sample of both channels. -/
def GeBitblt.HoldsTaps (b : GeBitblt Other Control) (l : Layout) : Prop :=
  ∀ k : ℤ, 0 ≤ k → k < b.outputs.toInt →
    holdsTaps b.srcBuf.rect.width.toInt
        ((b.scalePhase.hPhase16 0).toInt + k * (b.scalePhase.dx16 0).toInt) ∧
      (l.channels = 2 → holdsTaps (b.srcBuf.rect.width.toInt / 2 ^ l.subX)
        ((b.scalePhase.hPhase16 1).toInt + k * (b.scalePhase.dx16 1).toInt))

theorem holdsTaps_of_last {width phase step k : ℤ} (begun : 0 ≤ phase) (forward : 0 ≤ step)
    (nonneg : 0 ≤ k) (early : k ≤ (size - 1 : ℕ))
    (last : (phase + (size - 1 : ℕ) * step + 65535) / 65536 + 2 ≤ width) :
    holdsTaps width (phase + k * step) := by
  have moved : k * step ≤ (size - 1 : ℕ) * step := mul_le_mul_of_nonneg_right early forward
  have ahead : 0 ≤ k * step := mul_nonneg nonneg forward
  exact ⟨by omega, by omega⟩

theorem Strip.taps (strip : Strip b l offset size c) :
    c.srcBuf.rect.x.toInt + c.srcBuf.rect.width.toInt =
        b.srcBuf.rect.x.toInt + b.srcBuf.rect.width.toInt ∨ c.HoldsTaps l := by
  obtain ⟨s, made, source, crop, width, phase, chroma⟩ := strip.source
  have step : c.scalePhase.dx16 = b.scalePhase.dx16 := by
    rw [made]
    rfl
  have forward := strip.striped.step
  have begun := source.phase.1
  rcases source.taps with edge | ⟨luma, chromaTaps⟩
  · left
    omega
  · right
    intro k nonneg below
    rw [strip.dst.1] at below
    have small := strip.small
    rw [width, phase, step]
    have early : k ≤ (size - 1 : ℕ) := by omega
    refine ⟨holdsTaps_of_last begun (by omega) nonneg early luma, ?_⟩
    intro two
    obtain ⟨_, stepHalf⟩ := strip.striped.halves two
    have half := source.chromaPhase two
    have wide := chromaTaps two
    rw [chroma two]
    rcases layout_cases strip.striped.format with ⟨one, _⟩ | ⟨_, sub | sub, _⟩
    · omega
    · rw [sub, pow_zero, one_mul] at half stepHalf
      rw [sub, pow_zero, mul_one] at wide
      rw [sub, pow_zero, Int.ediv_one]
      exact holdsTaps_of_last (by omega) (by omega) nonneg early wide
    · rw [sub, pow_one] at half stepHalf wide
      rw [sub, pow_one]
      refine holdsTaps_of_last (by omega) (by omega) nonneg early ?_
      exact (Int.le_ediv_iff_mul_le two_pos).mpr wide

/-- Everything but the two crops, the horizontal phases and the chroma width. -/
def GeBitblt.withCut (b c : GeBitblt Other Control) : GeBitblt Other Control where
  srcBuf := { b.srcBuf with cropEn := c.srcBuf.cropEn, crop := c.srcBuf.crop }
  dstBuf := { b.dstBuf with cropEn := c.dstBuf.cropEn, crop := c.dstBuf.crop }
  flags := b.flags
  control := b.control
  scalePhase := { b.scalePhase with
    hPhase16 := c.scalePhase.hPhase16
    inWCh1 := c.scalePhase.inWCh1 }

theorem Strip.frame (strip : Strip b l offset size c) : c = b.withCut c := by
  obtain ⟨s, rfl, _⟩ := strip.command
  rfl

theorem Strip.chroma_width (strip : Strip b l offset size c) (two : l.channels = 2) :
    c.scalePhase.inWCh1.toInt = c.srcBuf.rect.width.toInt / 2 ^ l.subX := by
  obtain ⟨s, made, source, _, width, _⟩ := strip.source
  have needed := source.needed
  have widest := Int32.toInt_lt b.srcBuf.rect.width
  have stored : c.scalePhase.inWCh1 = Int32.ofInt (s.needed / 2 ^ l.subX) := by
    rw [made]
    exact if_pos two
  have smaller : s.needed / 2 ^ l.subX ≤ s.needed := Int.ediv_le_self _ needed.1
  have positive : 0 ≤ s.needed / 2 ^ l.subX :=
    Int.ediv_nonneg needed.1 (pow_nonneg (by decide) _)
  have nonneg := source.nonneg
  rw [stored, width]
  exact toInt_ofInt ⟨by omega, by omega⟩

/-! ## All strips -/

theorem stripeCount_some (counted : stripeCount b = some n) :
    countFor b = n ∧ ∀ i < n, (stripe b i).isSome = true := by
  unfold stripeCount at counted
  dsimp only at counted
  split at counted
  · contradiction
  · split at counted
    · rename_i every
      cases Option.some.inj counted
      refine ⟨rfl, ?_⟩
      intro i below
      exact List.all_eq_true.mp every i (List.mem_range.mpr below)
    · contradiction

theorem strip_of_stripe (striped : Striped b l) (many : 1 < countFor b)
    (cut : stripe b index = some c) :
    Strip b l (shareStart b.outputs.toInt.toNat (countFor b) index)
      (share b.outputs.toInt.toNat (countFor b) index) c := by
  obtain ⟨below, cuttable, s, source, made⟩ := stripe_many many striped cut
  obtain ⟨wide, _⟩ := striped.outputs
  have count := striped.count
  have ends := share_end_le (n := b.outputs.toInt.toNat) below
  have most : share b.outputs.toInt.toNat (countFor b) index ≤ 31 :=
    share_le_limit (by omega) (by omega)
  have least : (31 + 1) / 2 ≤ share b.outputs.toInt.toNat (countFor b) index :=
    half_limit_le_share (by omega) (by omega) (by decide)
  exact ⟨striped, cuttable, ⟨least, most⟩, by omega, s, made, source⟩

/-- The strips partition the positions of the command. -/
theorem strips_partition (striped : Striped b l) (many : 1 < countFor b)
    {strips : ℕ → GeBitblt Other Control}
    (cut : ∀ i < countFor b, stripe b i = some (strips i)) {position : ℤ}
    (covered : b.Covers position) : ∃! i, i < countFor b ∧ (strips i).Covers position := by
  have place : 0 ≤ b.outputAt position ∧ b.outputAt position < b.outputs.toInt := by
    unfold GeBitblt.Covers at covered
    unfold GeBitblt.outputAt
    split <;> omega
  obtain ⟨i, ⟨below, low, high⟩, only⟩ := share_exists_unique
    (n := b.outputs.toInt.toNat) (q := (b.outputAt position).toNat) (by omega)
    (Nat.zero_lt_of_lt many)
  have owns : ∀ j < countFor b, (strips j).Covers position ↔
      shareStart b.outputs.toInt.toNat (countFor b) j ≤ (b.outputAt position).toNat ∧
        (b.outputAt position).toNat < shareStart b.outputs.toInt.toNat (countFor b) j +
          share b.outputs.toInt.toNat (countFor b) j := by
    intro j inside
    rw [(strip_of_stripe striped many (cut j inside)).covers_iff]
    omega
  refine ⟨i, ⟨below, (owns i below).mpr ⟨low, high⟩⟩, ?_⟩
  rintro j ⟨inside, covers⟩
  exact only j ⟨inside, (owns j inside).mp covers⟩

theorem runStrips_attempts (engine : ℕ → Bool) (indices : List ℕ) :
    ∀ command ∈ (runStrips engine b indices).2, ∃ i ∈ indices, stripe b i = some command := by
  induction indices with
  | nil =>
      intro command attempted
      contradiction
  | cons index rest ih =>
      intro command attempted
      cases cut : stripe b index with
      | none =>
          simp only [runStrips, cut, List.not_mem_nil] at attempted
      | some first =>
          simp only [runStrips, cut] at attempted
          have either : command = first ∨ command ∈ (runStrips engine b rest).2 := by
            split at attempted
            · exact List.mem_cons.mp attempted
            · exact Or.inl (List.mem_singleton.mp attempted)
          rcases either with rfl | later
          · exact ⟨index, List.mem_cons_self, cut⟩
          · obtain ⟨i, among, made⟩ := ih command later
            exact ⟨i, List.mem_cons_of_mem _ among, made⟩

/-- One strip of the command samples what the command samples. -/
structure StripExact (b : GeBitblt Other Control) (l : Layout) (c : GeBitblt Other Control) :
    Prop where
  size : 16 ≤ c.outputs.toInt ∧ c.outputs.toInt ≤ 31
  inside : ∀ position, c.Covers position → b.Covers position
  cross : c.crossAxis = b.crossAxis
  luma : ∀ position, c.lumaAt (c.outputAt position) = b.lumaAt (b.outputAt position)
  chroma : l.channels = 2 →
    ∀ position, c.chromaAt l (c.outputAt position) = b.chromaAt l (b.outputAt position)
  crop : b.srcBuf.rect.x.toInt ≤ c.srcBuf.rect.x.toInt ∧
    c.srcBuf.rect.x.toInt + c.srcBuf.rect.width.toInt ≤
      b.srcBuf.rect.x.toInt + b.srcBuf.rect.width.toInt ∧
    c.srcBuf.rect.y = b.srcBuf.rect.y ∧ c.srcBuf.rect.height = b.srcBuf.rect.height
  cropAligned : l.subX ≠ 0 →
    c.srcBuf.rect.x.toInt % 2 = 0 ∧ c.srcBuf.rect.width.toInt % 2 = 0
  chromaWidth : l.channels = 2 →
    c.scalePhase.inWCh1.toInt = c.srcBuf.rect.width.toInt / 2 ^ l.subX
  taps : c.srcBuf.rect.x.toInt + c.srcBuf.rect.width.toInt =
    b.srcBuf.rect.x.toInt + b.srcBuf.rect.width.toInt ∨ c.HoldsTaps l
  frame : c = b.withCut c

theorem Strip.exact (strip : Strip b l offset size c) : StripExact b l c where
  size := by
    have small := strip.small
    rw [strip.dst.1]
    omega
  inside := by
    intro position covered
    obtain ⟨count, _, start⟩ := strip.dst
    have inside := strip.inside
    unfold GeBitblt.Covers at covered ⊢
    rw [count, start, stripShift] at covered
    split at covered <;> omega
  cross := strip.dst.2.1
  luma := strip.luma_eq
  chroma := strip.chroma_eq
  crop := strip.crop
  cropAligned := strip.crop_aligned
  chromaWidth := strip.chroma_width
  taps := strip.taps
  frame := strip.frame

end

/-- Half of an NV12 frame drawn at a scale just above one, turned by a quarter. -/
def quarterTurned : GeBitblt Unit Unit where
  srcBuf :=
    { size := ⟨128, 64⟩, cropEn := true, crop := ⟨2, 0, 102, 64⟩, format := .nv12, other := () }
  dstBuf :=
    { size := ⟨64, 128⟩, cropEn := true, crop := ⟨0, 4, 64, 102⟩, format := .rgb565, other := () }
  flags := 1
  control := ()
  scalePhase :=
    { scalePhaseEn := true
      scalerEn := true
      channelNum := 2
      dx16 := ![64250, 32125]
      dy16 := ![65536, 32768]
      hPhase16 := ![0, 0]
      vPhase16 := ![0, 0]
      inWCh1 := 51
      inHCh1 := 32 }

example : stripeCount quarterTurned = some 4 := by decide

/-- A command that is cut into strips is drawn by them as by itself: they partition its
destination along the horizontal scaler axis, every output keeps its luma and chroma
coordinate, and the engine is given only strips, and none unless every strip is valid. -/
theorem stripes_equivalent (b : GeBitblt Other Control) :
    (∀ n, stripeCount b = some n → 1 < n →
      ∃ (l : Layout) (strips : ℕ → GeBitblt Other Control),
        layout b.srcBuf.format = some l ∧
        (∀ i < n, stripe b i = some (strips i) ∧ StripExact b l (strips i)) ∧
        ∀ position, b.Covers position → ∃! i, i < n ∧ (strips i).Covers position) ∧
    ∀ engine, ∀ command ∈ (stripeRun engine b).2, ∃ n, stripeCount b = some n ∧
      (∀ i < n, (stripe b i).isSome = true) ∧ ∃ i < n, stripe b i = some command := by
  refine ⟨?_, ?_⟩
  · intro n counted many
    obtain ⟨rfl, every⟩ := stripeCount_some counted
    obtain ⟨l, striped⟩ := countFor_many many
    have cut : ∀ i < countFor b, stripe b i = some ((stripe b i).getD b) := by
      intro i below
      obtain ⟨command, made⟩ := Option.isSome_iff_exists.mp (every i below)
      rw [made, Option.getD_some]
    refine ⟨l, fun i => (stripe b i).getD b, striped.format, ?_, ?_⟩
    · intro i below
      exact ⟨cut i below, (strip_of_stripe striped many (cut i below)).exact⟩
    · intro position covered
      exact strips_partition striped many cut covered
  · intro engine command attempted
    unfold stripeRun at attempted
    cases counted : stripeCount b with
    | none =>
        rw [counted] at attempted
        contradiction
    | some n =>
        rw [counted] at attempted
        obtain ⟨i, among, made⟩ := runStrips_attempts engine (List.range n) command attempted
        exact ⟨n, rfl, (stripeCount_some counted).2, i, List.mem_range.mp among, made⟩

end LvglAic.Ge2d
