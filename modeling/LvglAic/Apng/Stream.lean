import LvglAic.Apng.Compose
import LvglAic.Apng.Extract
import LvglAic.Apng.Timeline

/-! # The APNG stream (`lv_aic_apng_stream.c`)

A stream keeps a copy of its file, the packet and the rectangle of a frame, the canvas and
the scratch in one block of memory.  The clock readings, the answers of the decoder and the
block that the allocator gives are arguments of the calls.
-/

namespace LvglAic.Apng

open LvglAic.Machine

/-- What of the configuration the stream itself reads. -/
structure ApngStreamConfig where
  limits : ApngLimits
  cpuBudget : ℕ
  packetLimit : ℕ
  minimumDelayUs : UInt32
deriving DecidableEq, Repr

/-- The copy of the file is the data of the document. -/
structure ApngStream where
  doc : ApngDocument
  canvas : ApngCanvas
  clock : Timeline
  png : ℕ
  rectangle : ℕ
  pngBytes : ℕ
  rectangleBytes : ℕ
  cursor : ℕ
  sequence : ℕ
  fault : Bool
deriving DecidableEq, Repr

structure StreamState where
  stream : ApngStream
  memory : Memory

structure StreamView where
  step : Step
  rgba : Option ℕ
  width : ℕ
  height : ℕ
  stride : ℕ
  bytes : ℕ
  sequence : ℕ
deriving DecidableEq, Repr

/-- A function that answers `false`. -/
def orRefused {Answer : Type} (o : Option Answer) : Outcome Answer :=
  match o with
  | none => .refused
  | some answer => .value answer

/-- A write outside of a buffer. -/
def orStray {Answer : Type} (o : Option Answer) : Outcome Answer :=
  match o with
  | none => .stray
  | some answer => .value answer

/-! ## Opening -/

/-- The largest packet and the largest rectangle of the frames in front of the cursor. -/
structure FrameSizes where
  pngBytes : ℕ
  rectangleBytes : ℕ
  cursor : ℕ
deriving DecidableEq, Repr

def sizeFrame (d : ApngDocument) (m : Memory) (s : FrameSizes) (_ : ℕ) : Outcome FrameSizes := do
  let (f, cursor) ← apngNext d m s.cursor
  let n := f.width * f.height * 4
  .value
    { pngBytes := if f.pngBytes > s.pngBytes then f.pngBytes else s.pngBytes
      rectangleBytes := if n > s.rectangleBytes then n else s.rectangleBytes
      cursor }

def frameSizes (d : ApngDocument) (m : Memory) : Outcome FrameSizes :=
  (List.range d.frames).foldlM (sizeFrame d m) ⟨0, 0, 0⟩

/-- The canvas and its scratch need so many bytes each. -/
def ApngDocument.canvasBytes (d : ApngDocument) : ℕ := d.width * d.height * 4

/-- The bytes of the stream itself and of its block; `record` is the size of the stream. -/
def streamBytes (record budget size : ℕ) (d : ApngDocument) (s : FrameSizes) : Outcome ℕ := do
  let total ← sum record size budget
  let total ← sum total s.pngBytes budget
  let total ← sum total s.rectangleBytes budget
  let total ← sum total d.canvasBytes budget
  sum total d.canvasBytes budget

/-- `sizeMax` is the largest value of `size_t` and of `uintptr_t`.  The allocator may give no
block, which is zero, and the decoder may be missing. -/
def apngStreamOpen (sizeMax record : ℕ) (m : Memory) (data size : ℕ) (config : ApngStreamConfig)
    (now : UInt64) (storage : ℕ) (decoder : Bool) : Outcome StreamState :=
  if data = 0 || size = 0 || size - 1 > sizeMax - data then .refused
  else do
    let doc ← apngOpen sizeMax m data size config.limits
    let sizes ← frameSizes doc m
    if sizes.pngBytes > sizeMax - 255 || (sizes.pngBytes + 255) / 256 * 256 > config.packetLimit then
      .refused
    else do
      let total ← streamBytes record config.cpuBudget size doc sizes
      let clock ← orRefused (Timeline.init (.ofNat doc.frames) (.ofNat doc.plays) doc.animated
        config.minimumDelayUs now)
      if storage = 0 || !decoder then .refused
      else do
        let m ← orStray (m.copy storage (total - record) 0 data size 0 size)
        let png := storage + size
        let rectangle := png + sizes.pngBytes
        let pixels := rectangle + sizes.rectangleBytes
        let made ← orStray (apngCanvasInit sizeMax doc.width doc.height pixels (doc.width * 4)
          doc.canvasBytes (pixels + doc.canvasBytes) doc.canvasBytes m)
        let (canvas, m) ← orRefused made
        .value ⟨
          { doc := { doc with data := storage }, canvas, clock, png, rectangle,
            pngBytes := sizes.pngBytes, rectangleBytes := sizes.rectangleBytes, cursor := 0,
            sequence := 0, fault := false }, m⟩

/-! ## Ticks -/

namespace StreamState

def failed (s : StreamState) : StreamState := { s with stream := { s.stream with fault := true } }

/-- The decoder may write anything to the rectangle, and nothing elsewhere. -/
def decoded (s : StreamState) (contents : ℕ → UInt8) : StreamState :=
  { s with memory := fun a =>
      if s.stream.rectangle ≤ a ∧ a < s.stream.rectangle + s.stream.rectangleBytes then
        contents (a - s.stream.rectangle)
      else s.memory a }

/-- The canvas is cleared when a pass starts. -/
def cleared (s : StreamState) (reset : Bool) : Outcome StreamState :=
  if reset then do
    let (canvas, m) ← orStray (s.stream.canvas.reset s.memory)
    .value ⟨{ s.stream with canvas }, m⟩
  else .value s

/-- The picture that was decoded, in rows without gaps. -/
def source (s : StreamState) (f : ApngFrame) : Picture (Rgba ℕ) :=
  pictureAt s.memory s.stream.rectangle f.width f.height (f.width * 4)

/-- The frame is composed and its delay starts, and only then the cursor moves. -/
def present (sizeMax : ℕ) (s : StreamState) (f : ApngFrame) (cursor : ℕ) (later : UInt64) :
    Outcome (StreamState × Bool) := do
  let (ok, canvas, m) ← orStray (s.stream.canvas.compose sizeMax f s.stream.rectangle (f.width * 4)
    s.stream.rectangleBytes s.memory)
  if !ok then .value (failed ⟨{ s.stream with canvas }, m⟩, false)
  else
    match s.stream.clock.commit later (.ofNat f.delayNum) (.ofNat f.delayDen) with
    | none => .value (failed ⟨{ s.stream with canvas }, m⟩, false)
    | some clock =>
        .value (⟨{ s.stream with canvas, clock, cursor, sequence := s.stream.sequence + 1 }, m⟩, true)

/-- The canvas is cleared if asked for, and the rectangle is composed on it. -/
def draw (sizeMax : ℕ) (s : StreamState) (f : ApngFrame) (cursor : ℕ) (reset : Bool)
    (later : UInt64) : Outcome (StreamState × Option (ApngFrame × Picture (Rgba ℕ))) := do
  let s ← s.cleared reset
  let (next, shown) ← s.present sizeMax f cursor later
  .value (next, if shown then some (f, s.source f) else none)

/-- One frame is taken from the file, extracted, decoded and composed. -/
def produce (sizeMax : ℕ) (s : StreamState) (step : Step) (later : UInt64) (ok : Bool)
    (contents : ℕ → UInt8) : Outcome (StreamState × Option (ApngFrame × Picture (Rgba ℕ))) :=
  if s.stream.sequence = uint64Max then .value (s.failed, none)
  else
    match apngNext s.stream.doc s.memory (if step.resetCanvas then 0 else s.stream.cursor) with
    | .stray => .stray
    | .refused => .value (s.failed, none)
    | .value (f, cursor) => do
        let (extracted, log) ← apngExtract sizeMax s.stream.doc s.memory f s.stream.png
          s.stream.pngBytes
        if !extracted then .value (failed { s with memory := s.memory.stores log }, none)
        else
          let s := decoded { s with memory := s.memory.stores log } contents
          if !ok then .value (s.failed, none)
          else s.draw sizeMax f cursor step.resetCanvas later

def view (s : StreamState) (step : Step) : StreamView where
  step := step
  rgba := if s.stream.sequence = 0 then none else some s.stream.canvas.pixels
  width := s.stream.doc.width
  height := s.stream.doc.height
  stride := s.stream.canvas.stride
  bytes := s.stream.canvas.capacity
  sequence := s.stream.sequence

end StreamState

/-- The view of a tick that answers `true`, and the frame that was composed for it. -/
structure StreamEvent where
  view : StreamView
  drawn : Option (ApngFrame × Picture (Rgba ℕ))

/-- The clock is read before the frame is taken, and again when it was composed. -/
def apngStreamTick (sizeMax : ℕ) (s : StreamState) (now later : UInt64) (ok : Bool)
    (contents : ℕ → UInt8) : Outcome (StreamState × Option StreamEvent) :=
  if s.stream.fault then .value (s, none)
  else
    match s.stream.clock.poll now with
    | none => .value (s.failed, none)
    | some (clock, step) =>
        let s := { s with stream := { s.stream with clock } }
        if step.action = .frame then do
          let (s, drawn) ← s.produce sizeMax step later ok contents
          match drawn with
          | none => .value (s, none)
          | some drawn => .value (s, some ⟨s.view step, some drawn⟩)
        else .value (s, some ⟨s.view step, none⟩)

/-! ## The other calls -/

/-- A call that changes the clock, or answers `false` and changes nothing. -/
def ApngStream.retime (s : ApngStream) (change : Timeline → Option Timeline) : Option ApngStream :=
  if s.fault then none else (change s.clock).map fun clock => { s with clock }

def apngStreamPause (s : ApngStream) (now : UInt64) (paused : Bool) : Option ApngStream :=
  s.retime fun clock => clock.pause now paused

def apngStreamRate (s : ApngStream) (now : UInt64) (num den : UInt32) : Option ApngStream :=
  s.retime fun clock => clock.rate now num den

def apngStreamRestart (s : ApngStream) (now : UInt64) : Option ApngStream :=
  if s.fault || now.toNat < s.clock.lastUs then none
  else do
    let clock ← Timeline.init (.ofNat s.doc.frames) (.ofNat s.doc.plays) s.doc.animated
      (.ofNat s.clock.minimumDelayUs) now
    let clock ← clock.rate now (.ofNat s.clock.rateNum) (.ofNat s.clock.rateDen)
    let clock ← clock.pause now s.clock.paused
    some { s with clock, cursor := 0 }

/-! ## The machine -/

inductive StreamCall where
  | tick (now later : UInt64) (ok : Bool) (contents : ℕ → UInt8)
  | pause (now : UInt64) (paused : Bool)
  | rate (now : UInt64) (num den : UInt32)
  | restart (now : UInt64)

/-- The file that a stream was opened on. -/
structure StreamFile where
  memory : Memory
  data : ℕ
  size : ℕ
  config : ApngStreamConfig

def streamMachine (sizeMax record : ℕ) (file : StreamFile) :
    LvglAic.Machine StreamState StreamCall StreamEvent where
  Initial s := ∃ now storage decoder, apngStreamOpen sizeMax record file.memory file.data file.size
    file.config now storage decoder = .value s
  step s call :=
    match call with
    | .tick now later ok contents =>
        match apngStreamTick sizeMax s now later ok contents with
        | .value (next, event) => some (next, event.toList)
        | _ => none
    | .pause now paused =>
        some ({ s with stream := (apngStreamPause s.stream now paused).getD s.stream }, [])
    | .rate now num den =>
        some ({ s with stream := (apngStreamRate s.stream now num den).getD s.stream }, [])
    | .restart now => some ({ s with stream := (apngStreamRestart s.stream now).getD s.stream }, [])

/-! ## The frames of a document

The frames stand in the file one after the other.  A pass starts at the first frame. -/

/-- Where the search for the frame starts. -/
def documentCursor (d : ApngDocument) (m : Memory) : ℕ → Outcome ℕ
  | 0 => .value 0
  | i + 1 => do
      let cursor ← documentCursor d m i
      let (_, further) ← apngNext d m cursor
      .value further

def documentFrame (d : ApngDocument) (m : Memory) (i : ℕ) : Outcome ApngFrame := do
  let cursor ← documentCursor d m i
  let (f, _) ← apngNext d m cursor
  .value f

/-- What a frame with the number continues; the first frame starts a new pass. -/
def continued (index : ℕ) (pass : List (ApngFrame × Picture (Rgba ℕ))) :
    List (ApngFrame × Picture (Rgba ℕ)) :=
  if index = 0 then [] else pass

def passAfter (pass : List (ApngFrame × Picture (Rgba ℕ))) (e : StreamEvent) :
    List (ApngFrame × Picture (Rgba ℕ)) :=
  match e.drawn with
  | none => pass
  | some drawn => continued e.view.step.frameIndex pass ++ [drawn]

/-- The frames that were composed since the last one with the number zero. -/
def currentPass (trace : List StreamEvent) : List (ApngFrame × Picture (Rgba ℕ)) :=
  trace.foldl passAfter []

/-- The frames of a pass drawn one after the other on a transparent canvas. -/
def Reference.pass (width height : ℕ) (pass : List (ApngFrame × Picture (Rgba ℕ))) : Reference :=
  pass.foldl (fun r drawn => r.draw drawn.1 drawn.2) (.blank width height)

def composed (trace : List StreamEvent) : ℕ := (trace.filter fun e => e.drawn.isSome).length

end LvglAic.Apng
