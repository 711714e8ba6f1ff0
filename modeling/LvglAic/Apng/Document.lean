import LvglAic.Apng.Png

/-! # APNG documents (`lv_aic_apng.c`)

A document borrows the bytes of its file.  Opening it walks all chunks, taking a frame
walks the chunks of the frame, and extracting a frame writes a PNG of its own.  Sizes
are natural numbers where the code checks their sums.
-/

namespace LvglAic.Apng

open LvglAic.Machine

structure ApngLimits where
  fileBytes : ℕ
  framePngBytes : ℕ
  canvasPixels : ℕ
  frames : ℕ
deriving DecidableEq, Repr

structure ApngDocument where
  data : ℕ
  size : ℕ
  prefixEnd : ℕ
  prefixBytes : ℕ
  maxFramePngBytes : ℕ
  width : ℕ
  height : ℕ
  frames : ℕ
  plays : ℕ
  animated : Bool
deriving DecidableEq, Repr

structure ApngFrame where
  width : ℕ
  height : ℕ
  x : ℕ
  y : ℕ
  delayNum : ℕ
  delayDen : ℕ
  dispose : ℕ
  blend : ℕ
  dataStart : ℕ
  dataEnd : ℕ
  pngBytes : ℕ
deriving DecidableEq, Repr

/-- Where a chunk's data starts in the document, and where the chunk stops. -/
structure Chunk where
  type : List UInt8
  data : ℕ
  length : ℕ
  stop : ℕ
deriving DecidableEq, Repr

def ApngDocument.read (d : ApngDocument) (m : Memory) (start count : ℕ) : Outcome (List UInt8) :=
  m.read d.data d.size start count

def chunk (d : ApngDocument) (m : Memory) (pos : ℕ) : Outcome Chunk :=
  if pos > d.size || d.size - pos < 12 then .refused
  else do
    let word ← d.read m pos 4
    let n := be32 word
    if n > 2 ^ 31 - 1 || n > d.size - pos - 12 then .refused
    else do
      let type ← d.read m (pos + 4) 4
      .value ⟨type, pos + 8, n, pos + 12 + n⟩

def sum (value add limit : ℕ) : Outcome ℕ :=
  if value > limit || add > limit - value then .refused else .value (value + add)

def be16 (bytes : List UInt8) : ℕ := be32 bytes

/-- Bit 5 of a letter of the type. -/
def Chunk.lower (c : Chunk) (letter : ℕ) : Bool := (c.type.getD letter 0) &&& 32 ≠ 0

def Chunk.ancillary (c : Chunk) : Bool := c.lower 0

def Chunk.inPrefix (c : Chunk) : Bool :=
  c.type ≠ Kind.acTL && c.type ≠ Kind.fcTL && c.type ≠ Kind.dcTL

def letter (byte : UInt8) : Bool := (65 ≤ byte && byte ≤ 90) || (97 ≤ byte && byte ≤ 122)

def control (d : ApngDocument) (m : Memory) (c : Chunk) : Outcome ApngFrame :=
  if c.length ≠ 26 then .refused
  else do
    let p ← d.read m c.data 26
    let word := fun i => be32 ((p.drop i).take 4)
    let half := fun i => be16 ((p.drop i).take 2)
    let f : ApngFrame :=
      { width := word 4, height := word 8, x := word 12, y := word 16, delayNum := half 20,
        delayDen := if half 22 = 0 then 100 else half 22, dispose := (p.getD 24 0).toNat,
        blend := (p.getD 25 0).toNat, dataStart := 0, dataEnd := 0, pngBytes := 0 }
    if f.dispose > 2 || f.blend > 1 then .refused else .value f

/-- The bytes of a header with a color type and a depth that PNG knows. -/
def ihdr (d : ApngDocument) (m : Memory) (c : Chunk) : Outcome (List UInt8) :=
  if c.length ≠ 13 then .refused
  else do
    let p ← d.read m c.data 13
    let depth := (p.getD 8 0).toNat
    let color := (p.getD 9 0).toNat
    if (p.getD 10 0).toNat ≠ 0 || (p.getD 11 0).toNat ≠ 0 || (p.getD 12 0).toNat > 1 then .refused
    else
      let known :=
        if color = 0 then [1, 2, 4, 8, 16].contains depth
        else if color = 2 || color = 4 || color = 6 then [8, 16].contains depth
        else if color = 3 then [1, 2, 4, 8].contains depth
        else false
      if !known then .refused else .value p

/-! ## The next frame -/

structure NextState where
  pos : ℕ
  bytes : ℕ
  frame : ApngFrame
  haveControl : Bool
  haveData : Bool
deriving DecidableEq, Repr

/-- The frame and the cursor behind it. -/
def nextBody (d : ApngDocument) (m : Memory) (s : NextState) :
    Outcome (Turn NextState (ApngFrame × ℕ)) :=
  if s.pos ≥ d.size then .refused
  else do
    let c ← chunk d m s.pos
    if (c.type = Kind.fcTL || c.type = Kind.iEND) && s.haveData then
      .value (.stop ({ s.frame with pngBytes := s.bytes },
        if c.type = Kind.iEND then d.size else s.pos))
    else do
      let s ← (if c.type = Kind.fcTL then do
          let f ← control d m c
          .value { s with frame := f, haveControl := true }
        else .value s : Outcome NextState)
      if (c.type = Kind.iDAT && (!d.animated || s.haveControl)) ||
          (c.type = Kind.fdAT && s.haveControl) then
        let remove := if c.type = Kind.fdAT then 4 else 0
        if c.length < remove then .refused
        else do
          let bytes ← sum s.bytes (c.length - remove + 12) d.maxFramePngBytes
          let start := if s.haveData then s.frame.dataStart else s.pos
          .value (.again { s with
            pos := c.stop
            bytes
            frame := { s.frame with dataStart := start, dataEnd := c.stop }
            haveData := true })
      else .value (.again { s with pos := c.stop })

def apngNext (d : ApngDocument) (m : Memory) (cursor : ℕ) : Outcome (ApngFrame × ℕ) :=
  if cursor ≥ d.size then .refused
  else do
    let bytes ← sum 45 d.prefixBytes d.maxFramePngBytes
    scan (nextBody d m) (d.size + 1)
      { pos := if cursor ≠ 0 then cursor else 8, bytes, haveControl := false, haveData := false,
        frame := ⟨d.width, d.height, 0, 0, 0, 100, 0, 0, 0, 0, 0⟩ }

/-! ## Opening -/

structure OpenState where
  doc : ApngDocument
  pos : ℕ
  idat : Bool
  idatEnd : Bool
  active : Bool
  frameData : Bool
  plte : Bool
  trns : Bool
  ended : Bool
  includedDefault : Bool
  controls : ℕ
  palette : ℕ
  sequence : ℕ
  payload : ℕ
  defaultPayload : ℕ
deriving DecidableEq, Repr

def openActl (limits : ApngLimits) (m : Memory) (c : Chunk) (s : OpenState) : Outcome OpenState :=
  if s.doc.animated || s.idat || c.length ≠ 8 then .refused
  else do
    let p ← s.doc.read m c.data 8
    let frames := be32 (p.take 4)
    if frames = 0 || frames > limits.frames then .refused
    else .value { s with doc := { s.doc with animated := true, frames, plays := be32 (p.drop 4) } }

/-- The next sequence number starts the data of the chunk. -/
def takeSequence (m : Memory) (c : Chunk) (s : OpenState) : Outcome OpenState :=
  if s.sequence > 2 ^ 32 - 1 then .refused
  else do
    let p ← s.doc.read m c.data 4
    if be32 p ≠ s.sequence then .refused else .value { s with sequence := s.sequence + 1 }

def openFctl (m : Memory) (c : Chunk) (s : OpenState) : Outcome OpenState :=
  if !s.doc.animated || s.controls ≥ s.doc.frames ||
      (s.active && (!s.frameData || s.payload = 0)) then .refused
  else do
    let f ← control s.doc m c
    let s ← takeSequence m c s
    if f.width = 0 || f.height = 0 || f.x > s.doc.width || f.y > s.doc.height ||
        f.width > s.doc.width - f.x || f.height > s.doc.height - f.y then .refused
    else if !s.idat && (f.width ≠ s.doc.width || f.height ≠ s.doc.height || f.x ≠ 0 || f.y ≠ 0) then
      .refused
    else .value { s with controls := s.controls + 1, active := true, frameData := false, payload := 0 }

def openIdat (sizeMax color : ℕ) (c : Chunk) (s : OpenState) : Outcome OpenState :=
  if s.idatEnd || (color = 3 && !s.plte) then .refused
  else do
    let s := if s.idat then s else
      { s with doc := { s.doc with prefixEnd := s.pos }, includedDefault := s.active }
    let defaultPayload ← sum s.defaultPayload c.length sizeMax
    let s := { s with idat := true, defaultPayload }
    if s.active then do
      let payload ← sum s.payload c.length sizeMax
      .value { s with frameData := true, payload }
    else .value s

def openFdat (sizeMax : ℕ) (m : Memory) (c : Chunk) (s : OpenState) : Outcome OpenState :=
  if !s.doc.animated || !s.idat || !s.active || c.length < 4 then .refused
  else do
    let s ← takeSequence m c s
    if s.controls = 1 && s.includedDefault then .refused
    else do
      let payload ← sum s.payload (c.length - 4) sizeMax
      .value { s with frameData := true, payload }

def openPlte (color depth : ℕ) (c : Chunk) (s : OpenState) : Outcome OpenState :=
  if s.plte || s.idat || s.trns || color = 0 || color = 4 || c.length = 0 || c.length > 768 ||
      c.length % 3 ≠ 0 then .refused
  else if color = 3 && c.length / 3 > 2 ^ depth then .refused
  else .value { s with palette := c.length / 3, plte := true }

def openTrns (color : ℕ) (c : Chunk) (s : OpenState) : Outcome OpenState :=
  if s.trns || s.idat || (color = 0 && c.length ≠ 2) || (color = 2 && c.length ≠ 6) ||
      (color = 3 && (!s.plte || c.length = 0 || c.length > s.palette)) ||
      (color ≠ 0 && color ≠ 2 && color ≠ 3) then .refused
  else .value { s with trns := true }

def openIend (c : Chunk) (s : OpenState) : Outcome OpenState :=
  if c.length ≠ 0 || c.stop ≠ s.doc.size || !s.idat || s.defaultPayload = 0 ||
      (s.doc.animated && (s.controls ≠ s.doc.frames || !s.active || !s.frameData ||
        s.payload = 0)) then .refused
  else .value { s with ended := true }

def openChunk (sizeMax color depth : ℕ) (limits : ApngLimits) (m : Memory) (c : Chunk)
    (s : OpenState) : Outcome OpenState :=
  if c.type = Kind.iHDR then (if s.pos ≠ 8 then .refused else .value s)
  else if c.type = Kind.acTL then openActl limits m c s
  else if c.type = Kind.fcTL then openFctl m c s
  else if c.type = Kind.iDAT then openIdat sizeMax color c s
  else if c.type = Kind.fdAT then openFdat sizeMax m c s
  else if c.type = Kind.pLTE then openPlte color depth c s
  else if c.type = Kind.tRNS then openTrns color c s
  else if c.type = Kind.iEND then openIend c s
  else if !c.ancillary then .refused
  else .value s

def openBody (sizeMax color depth : ℕ) (limits : ApngLimits) (m : Memory) (s : OpenState) :
    Outcome (Turn OpenState OpenState) :=
  if s.pos ≥ s.doc.size then .value (.stop s)
  else do
    let c ← chunk s.doc m s.pos
    let body ← s.doc.read m (s.pos + 4) (4 + c.length)
    let check ← s.doc.read m (c.data + c.length) 4
    if crc32 body ≠ be32 check then .refused
    else if !c.type.all letter || c.lower 2 then .refused
    else do
      let s := if s.idat && c.type ≠ Kind.iDAT then { s with idatEnd := true } else s
      let s ← openChunk sizeMax color depth limits m c s
      let s ← (if s.pos > 8 && !s.idat && c.inPrefix then do
          let prefixBytes ← sum s.doc.prefixBytes (c.length + 12) limits.framePngBytes
          .value { s with doc := { s.doc with prefixBytes } }
        else .value s : Outcome OpenState)
      .value (.again { s with pos := c.stop })

/-- Counts the frames; the count is a word. -/
def countBody (d : ApngDocument) (m : Memory) (s : ℕ × ℕ) : Outcome (Turn (ℕ × ℕ) (ℕ × ℕ)) :=
  match apngNext d m s.1 with
  | .stray => .stray
  | .refused => .value (.stop s)
  | .value (_, cursor) => .value (.again (cursor, (s.2 + 1) % 2 ^ 32))

/-- `sizeMax` is the largest value of `size_t`. -/
def apngOpen (sizeMax : ℕ) (m : Memory) (data size : ℕ) (limits : ApngLimits) : Outcome ApngDocument :=
  if data = 0 || limits.fileBytes = 0 || limits.framePngBytes = 0 || limits.canvasPixels = 0 ||
      limits.frames = 0 || size > limits.fileBytes || size < 45 then .refused
  else do
    let d : ApngDocument := ⟨data, size, 0, 0, limits.framePngBytes, 0, 0, 1, 1, false⟩
    let head ← d.read m 0 8
    if head ≠ signature then .refused
    else do
      let c ← chunk d m 8
      if c.type ≠ Kind.iHDR then .refused
      else do
        let p ← ihdr d m c
        let d := { d with width := be32 (p.take 4), height := be32 ((p.drop 4).take 4) }
        if d.width = 0 || d.height = 0 || d.width > 4096 || d.height > 4096 ||
            d.width * d.height > limits.canvasPixels then .refused
        else do
          let depth := (p.getD 8 0).toNat
          let color := (p.getD 9 0).toNat
          let s ← scan (openBody sizeMax color depth limits m) (size + 1)
            ⟨d, 8, false, false, false, false, false, false, false, false, 0, 0, 0, 0, 0⟩
          if !s.ended then .refused
          else do
            let (cursor, count) ← scan (countBody s.doc m) (size + 2) (0, 0)
            if cursor ≠ size || count ≠ s.doc.frames then .refused
            else .value s.doc

end LvglAic.Apng
