import LvglAic.Apng.Document

/-! # Extracting a frame (`lv_aic_apng.c`)

The chunks of a frame are measured first and written afterwards.  What is written is
kept as a log of addresses and bytes; the memory that the code reads meanwhile is the
memory with that log.
-/

namespace LvglAic.Apng

open LvglAic.Machine

def measureBody (d : ApngDocument) (m : Memory) (stop : ℕ) (s : ℕ × ℕ) :
    Outcome (Turn (ℕ × ℕ) ℕ) :=
  if s.1 ≥ stop then .value (.stop s.2)
  else do
    let c ← chunk d m s.1
    if c.stop > stop then .refused
    else if c.type = Kind.iDAT || c.type = Kind.fdAT then
      let skip := if c.type = Kind.fdAT then 4 else 0
      if c.length < skip then .refused
      else do
        let bytes ← sum s.2 (c.length - skip + 12) d.maxFramePngBytes
        .value (.again (c.stop, bytes))
    else .value (.again (c.stop, s.2))

/-- What was written, and how far behind the start of the output the next byte goes. -/
structure Writer where
  log : List (ℕ × UInt8)
  offset : ℕ

def Writer.memory (w : Writer) (m : Memory) : Memory := m.stores w.log

/-- A write behind the bytes of the output is none. -/
def Writer.emit (w : Writer) (output capacity : ℕ) (bytes : List UInt8) : Outcome Writer :=
  if w.offset + bytes.length ≤ capacity then
    .value ⟨w.log ++ Memory.placed (output + w.offset) bytes, w.offset + bytes.length⟩
  else .stray

/-- The check is taken from the kind and the data that the output holds by then. -/
def writeChunk (m : Memory) (output capacity : ℕ) (kind : List UInt8)
    (data : Memory → Outcome (List UInt8)) (length : ℕ) (w : Writer) : Outcome Writer := do
  let sized ← w.emit output capacity (put32 length)
  let named ← sized.emit output capacity kind
  let content ← data (named.memory m)
  let filled ← named.emit output capacity content
  let body ← (filled.memory m).read output capacity (w.offset + 4) (4 + length)
  filled.emit output capacity (put32 (crc32 body))

/-- Whether the walk has ended, and what was written then. -/
def prefixBody (d : ApngDocument) (m : Memory) (output capacity : ℕ) (s : ℕ × Writer) :
    Outcome (Turn (ℕ × Writer) (Bool × Writer)) :=
  if s.1 ≥ d.prefixEnd then .value (.stop (true, s.2))
  else
    match chunk d (s.2.memory m) s.1 with
    | .stray => .stray
    | .refused => .value (.stop (false, s.2))
    | .value c =>
        if c.inPrefix then do
          let bytes ← d.read (s.2.memory m) s.1 (c.stop - s.1)
          let w ← s.2.emit output capacity bytes
          .value (.again (c.stop, w))
        else .value (.again (c.stop, s.2))

def dataBody (d : ApngDocument) (m : Memory) (output capacity stop : ℕ) (s : ℕ × Writer) :
    Outcome (Turn (ℕ × Writer) (Bool × Writer)) :=
  if s.1 ≥ stop then .value (.stop (true, s.2))
  else
    match chunk d (s.2.memory m) s.1 with
    | .stray => .stray
    | .refused => .value (.stop (false, s.2))
    | .value c =>
        if c.type = Kind.iDAT || c.type = Kind.fdAT then do
          let skip := if c.type = Kind.fdAT then 4 else 0
          let w ← writeChunk m output capacity Kind.iDAT
            (fun now => d.read now (c.data + skip) (c.length - skip)) (c.length - skip) s.2
          .value (.again (c.stop, w))
        else .value (.again (c.stop, s.2))

/-- Whether the output was finished, and all writes. -/
def writePacket (d : ApngDocument) (m : Memory) (f : ApngFrame) (output capacity : ℕ) :
    Outcome (Bool × List (ℕ × UInt8)) := do
  let w ← (Writer.mk [] 0).emit output capacity signature
  let header ← d.read (w.memory m) 16 13
  let header := put32 f.width ++ put32 f.height ++ header.drop 8
  let w ← writeChunk m output capacity Kind.iHDR (fun _ => .value header) 13 w
  let (ok, w) ← scan (prefixBody d m output capacity) (d.size + 1) (33, w)
  if !ok then .value (false, w.log)
  else do
    let (ok, w) ← scan (dataBody d m output capacity f.dataEnd) (d.size + 1) (f.dataStart, w)
    if !ok then .value (false, w.log)
    else do
      let w ← writeChunk m output capacity Kind.iEND (fun _ => .value []) 0 w
      .value (true, w.log)

/-- The sizes of the frame and the places of the output. -/
def extractAllowed (sizeMax : ℕ) (d : ApngDocument) (f : ApngFrame) (output capacity : ℕ) : Bool :=
  !(output = 0 || f.width = 0 || f.height = 0 || f.width > d.width || f.height > d.height ||
    f.dataStart < d.prefixEnd || f.dataEnd > d.size || f.dataStart ≥ f.dataEnd ||
    capacity < f.pngBytes) &&
  !(d.size > sizeMax - d.data || capacity > sizeMax - output ||
    (if output < d.data then d.data - output < capacity else output - d.data < d.size))

/-- Whether the frame was extracted, and all writes.  `sizeMax` is the largest value of
`uintptr_t`. -/
def apngExtract (sizeMax : ℕ) (d : ApngDocument) (m : Memory) (f : ApngFrame)
    (output capacity : ℕ) : Outcome (Bool × List (ℕ × UInt8)) :=
  if !extractAllowed sizeMax d f output capacity then .value (false, [])
  else
    match sum 45 d.prefixBytes d.maxFramePngBytes with
    | .stray => .stray
    | .refused => .value (false, [])
    | .value bytes =>
        match scan (measureBody d m f.dataEnd) (d.size + 1) (f.dataStart, bytes) with
        | .stray => .stray
        | .refused => .value (false, [])
        | .value bytes =>
            if bytes ≠ f.pngBytes || bytes > capacity then .value (false, [])
            else writePacket d m f output capacity

end LvglAic.Apng
