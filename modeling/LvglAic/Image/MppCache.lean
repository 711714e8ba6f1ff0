import LvglAic.Image.BmpDecode
import LvglAic.Machine.Blocks
import LvglAic.Machine.Run

/-! # The cache of decoded images (`lv_aic_mpp_decoder.c`)

A session holds a decoded image for the descriptors that are open on it.  The cache keeps
sessions in a doubly linked list from the least to the most recently used; their links are
kept apart from their other fields.  A program goes wrong when it follows a pointer to a
session that was freed, gives memory back twice, or walks on for more steps than there are
sessions.  A descriptor has an address of 32 bits.
-/

namespace LvglAic.Image.MppCache

open LvglAic.Machine
open LvglAic.Ge2d (MppPixelFormat)

structure DecoderArgs where
  premultiply : Bool
  useIndexed : Bool
  strideAlign : Bool
  noCache : Bool
deriving DecidableEq, Repr

/-- `lv_image_src_get_type` with the path or the pointer. -/
inductive ImageSrc where
  | file (path : List UInt8)
  | descriptor (pointer : ℕ)
  | symbol
deriving DecidableEq, Repr

/-- The path of a file is a copy in a block of its own. -/
inductive CacheKey where
  | unset
  | file (text : List UInt8) (block : ℕ)
  | descriptor (pointer : ℕ)
deriving DecidableEq, Repr

/-- `lv_aic_mpp_cache_key_matches`. -/
def CacheKey.keyMatches : CacheKey → ImageSrc → Bool
  | .file text _, .file path => text == path
  | .descriptor p, .descriptor q => p == q
  | _, _ => false

structure HeapBuf where
  block : ℕ
  dataSize : ℕ
deriving DecidableEq, Repr

/-- `bufStride` is the stride in the header of `draw_buf`, whose size is that of the session. -/
structure Session where
  address : ℕ
  allocationBase : Option ℕ
  cmaSize : ℕ
  stride : ℕ
  heapBuf : Option HeapBuf
  width : ℕ
  height : ℕ
  colorFormat : ColorFormat
  bufStride : ℕ
  key : CacheKey
  args : DecoderArgs
  refs : UInt32
  cacheCost : UInt32
  cached : Bool
  invalidated : Bool
deriving DecidableEq, Repr

/-- The buffer that a descriptor is given: a copy or that of the decoder. -/
structure Buffer where
  copied : Bool
  stride : ℕ
  width : ℕ
  colorFormat : ColorFormat
deriving DecidableEq, Repr

def Session.buffer (s : Session) : Buffer :=
  ⟨s.heapBuf.isSome, s.bufStride, s.width, s.colorFormat⟩

/-- What a user of the decoder sees.  `idle` are the cached sessions without descriptors
when one of them is evicted. -/
inductive Event where
  | decoded (src : ImageSrc) (args : DecoderArgs) (session : ℕ) (buffer : Buffer)
  | hit (src : ImageSrc) (args : DecoderArgs) (session : ℕ)
  | evicted (session : ℕ) (idle : List ℕ)
  | dropped (src : Option ImageSrc)
  | limited (bytes : UInt32)
deriving DecidableEq, Repr

abbrev Descriptor := Fin (2 ^ 32)

/-- `answers` tells whether the next allocation succeeds, `descriptors` are the sessions that
the open descriptors point at, `log` is what the call in progress has shown. -/
structure World where
  answers : ℕ → Bool
  asked : ℕ
  heap : Heap
  sessions : List Session
  older : ℕ → Option ℕ
  newer : ℕ → Option ℕ
  oldest : Option ℕ
  newest : Option ℕ
  limitBytes : UInt32
  bytes : UInt32
  entries : UInt32
  hits : UInt32
  misses : UInt32
  evictions : UInt32
  openSessions : UInt32
  currentCmaBytes : UInt32
  peakCmaBytes : UInt32
  allocCount : UInt32
  freeCount : UInt32
  descriptors : List (Descriptor × ℕ)
  log : List Event

/-- The entries that the cache may have, the lines of the data cache, the sizes of the
structures, and `lv_draw_buf_width_to_stride`. -/
structure Config where
  maxEntries : UInt32
  cacheLine : ℕ
  sessionBytes : ℕ
  drawBufBytes : ℕ
  widthToStride : ℕ → ColorFormat → ℕ

/-! ## Memory -/

def World.holds (w : World) (a : ℕ) : Bool := w.sessions.any fun s => s.address = a

def session (a : ℕ) : Program World Session := fun w =>
  (w.sessions.find? fun s => s.address = a).map fun s => (s, w)

/-- The sessions with a change to the one at an address. -/
def changed (a : ℕ) (change : Session → Session) (sessions : List Session) : List Session :=
  sessions.map fun s => if s.address = a then change s else s

def setSession (a : ℕ) (change : Session → Session) : Program World Unit := fun w =>
  if w.holds a then some ((), { w with sessions := changed a change w.sessions }) else none

def links (a : ℕ) : Program World (Option ℕ × Option ℕ) := fun w =>
  if w.holds a then some ((w.older a, w.newer a), w) else none

def setOlder (a : ℕ) (older : Option ℕ) : Program World Unit := fun w =>
  if w.holds a then some ((), { w with older := Function.update w.older a older }) else none

def setNewer (a : ℕ) (newer : Option ℕ) : Program World Unit := fun w =>
  if w.holds a then some ((), { w with newer := Function.update w.newer a newer }) else none

def granted : Program World Bool := fun w =>
  some (w.answers w.asked, { w with asked := w.asked + 1 })

def take : Program World ℕ := fun w => some (w.heap.fresh, { w with heap := w.heap.take })

def giveBack (b : ℕ) : Program World Unit := fun w =>
  (w.heap.giveBack b).map fun heap => ((), { w with heap := heap })

def tell (e : Event) : Program World Unit := .write fun w => { w with log := w.log ++ [e] }

/-- A walk over sessions takes at most as many steps as there are sessions. -/
def walk {Answer : Type} (body : ℕ → Program World Answer) : Program World Answer := fun w =>
  body (w.sessions.length + 1) w

/-! ## The list -/

def cacheUnlink (a : ℕ) : Program World Unit := do
  let first ← links a
  (match first.1 with
    | some older => setNewer older first.2
    | none => .write fun w => { w with oldest := first.2 })
  let second ← links a
  (match second.2 with
    | some newer => setOlder newer second.1
    | none => .write fun w => { w with newest := second.1 })

def cacheMakeNewest (a : ℕ) : Program World Unit := do
  setNewer a none
  let newest ← .read fun w => w.newest
  setOlder a newest
  (match newest with
    | some n => setNewer n (some a)
    | none => .write fun w => { w with oldest := some a })
  .write fun w => { w with newest := some a }

/-! ## Sessions -/

def cmaFree (base : Option ℕ) (size : ℕ) : Program World Unit :=
  match base with
  | none => pure ()
  | some base => do
      giveBack base
      .write fun w => { w with
        currentCmaBytes := w.currentCmaBytes - .ofNat size
        freeCount := w.freeCount + 1 }

def sessionRelease (a : ℕ) : Program World Unit := do
  let s ← session a
  (match s.heapBuf with | some buf => giveBack buf.block | none => pure ())
  cmaFree s.allocationBase s.cmaSize
  giveBack a
  .write fun w => { w with sessions := w.sessions.filter fun s => s.address ≠ a }

def Session.uncached (s : Session) : Session := { s with cached := false }

def cacheRemove (a : ℕ) : Program World Unit := do
  cacheUnlink a
  let s ← session a
  .write fun w => { w with bytes := w.bytes - s.cacheCost, entries := w.entries - 1 }
  (match s.key with | .file _ block => giveBack block | _ => pure ())
  setSession a .uncached
  sessionRelease a

/-- The cached sessions without descriptors. -/
def World.idle (w : World) : List ℕ :=
  (w.sessions.filter fun s => s.cached && s.refs == 0).map fun s => s.address

def evictFrom : ℕ → Option ℕ → Program World Bool
  | 0, _ => fun _ => none
  | _ + 1, none => pure false
  | n + 1, some a => do
      let s ← session a
      if s.refs = 0 then do
        let idle ← .read fun w => w.idle
        tell (.evicted a idle)
        cacheRemove a
        .write fun w => { w with evictions := w.evictions + 1 }
        pure true
      else do
        let next ← links a
        evictFrom n next.2

def cacheEvictOne : Program World Bool := walk fun n => do
  let oldest ← .read fun w => w.oldest
  evictFrom n oldest

def cmaAllocFrom (size : ℕ) : ℕ → Program World (Option ℕ)
  | 0 => fun _ => none
  | n + 1 => do
      if ← granted then do
        let base ← take
        .write fun w =>
          let current := w.currentCmaBytes + .ofNat size
          { w with
            currentCmaBytes := current
            allocCount := w.allocCount + 1
            peakCmaBytes := if current > w.peakCmaBytes then current else w.peakCmaBytes }
        pure (some base)
      else do
        if ← cacheEvictOne then cmaAllocFrom size n else pure none

def cmaAlloc (size : ℕ) : Program World (Option ℕ) := walk (cmaAllocFrom size)

/-! ## Dropping -/

def Session.invalidate (s : Session) : Session := { s with invalidated := true }

/-- Without a source all entries are dropped. -/
def CacheKey.drops (key : CacheKey) : Option ImageSrc → Bool
  | none => true
  | some src => key.keyMatches src

def dropFrom (src : Option ImageSrc) : ℕ → Option ℕ → Program World Unit
  | 0, _ => fun _ => none
  | _ + 1, none => pure ()
  | n + 1, some a => do
      let next ← links a
      let s ← session a
      (if s.key.drops src then do
        setSession a .invalidate
        (if s.refs = 0 then cacheRemove a else pure ())
      else pure ())
      dropFrom src n next.2

def cacheDropLocked (src : Option ImageSrc) : Program World Unit := walk fun n => do
  let oldest ← .read fun w => w.oldest
  dropFrom src n oldest

def cacheDrop (src : Option ImageSrc) : Program World Unit := do
  cacheDropLocked src
  tell (.dropped src)

def shrink (bytes : UInt32) : ℕ → Program World Unit
  | 0 => fun _ => none
  | n + 1 => do
      let used ← .read fun w => w.bytes
      if used > bytes then do
        if ← cacheEvictOne then shrink bytes n else pure ()
      else pure ()

def cacheSetLimit (bytes : UInt32) : Program World Unit := do
  .write fun w => { w with limitBytes := bytes }
  (if bytes = 0 then cacheDropLocked none else pure ())
  walk (shrink bytes)
  tell (.limited bytes)

/-! ## Opening -/

def cacheArgsCompatible (config : Config) (s : Session) (args : DecoderArgs) : Bool :=
  if s.args.premultiply != args.premultiply || s.args.useIndexed != args.useIndexed then false
  else if s.args.strideAlign == args.strideAlign then true
  else if s.heapBuf.isSome then false
  else !args.strideAlign || s.bufStride == config.widthToStride s.width s.colorFormat

def Session.acquired (s : Session) : Session := { s with refs := s.refs + 1 }

/-- An entry serves an open. -/
def cacheHit (d : Descriptor) (src : ImageSrc) (args : DecoderArgs) (a : ℕ) : Program World Bool := do
  setSession a .acquired
  .write fun w => { w with openSessions := w.openSessions + 1, hits := w.hits + 1 }
  cacheUnlink a
  cacheMakeNewest a
  .write fun w => { w with descriptors := (d, a) :: w.descriptors }
  tell (.hit src args a)
  pure true

def acquireFrom (config : Config) (d : Descriptor) (src : ImageSrc) (args : DecoderArgs) :
    ℕ → Option ℕ → Program World Bool
  | 0, _ => fun _ => none
  | _ + 1, none => do
      .write fun w => { w with misses := w.misses + 1 }
      pure false
  | n + 1, some a => do
      let s ← session a
      if !s.invalidated && s.key.keyMatches src && cacheArgsCompatible config s args then
        cacheHit d src args a
      else do
        let next ← links a
        acquireFrom config d src args n next.1

def cacheAcquire (config : Config) (d : Descriptor) (src : ImageSrc) (args : DecoderArgs) :
    Program World Bool := do
  let limit ← .read fun w => w.limitBytes
  if args.noCache || limit == 0 then pure false
  else walk fun n => do
    let newest ← .read fun w => w.newest
    acquireFrom config d src args n newest

/-- Makes room for an entry, unless all entries are in use. -/
def insertRoom (config : Config) (cost : ℕ) : ℕ → Program World Bool
  | 0 => fun _ => none
  | n + 1 => do
      let full ← .read fun w =>
        decide (cost + w.bytes.toNat > w.limitBytes.toNat ∨ w.entries ≥ config.maxEntries)
      if full then do
        if ← cacheEvictOne then insertRoom config cost n else pure false
      else pure true

def ImageSrc.keyBytes : ImageSrc → ℕ
  | .file path => path.length + 1
  | _ => 0

/-- `lv_strdup` of a path, or the pointer. -/
def cacheKey : ImageSrc → Program World CacheKey
  | .file path => do
      if ← granted then do
        let block ← take
        pure (.file path block)
      else pure .unset
  | .descriptor pointer => pure (.descriptor pointer)
  | .symbol => pure .unset

def Session.entered (key : CacheKey) (args : DecoderArgs) (cost : ℕ) (s : Session) : Session :=
  { s with key := key, args := args, cacheCost := .ofNat cost, cached := true }

def Config.cost (config : Config) (src : ImageSrc) (s : Session) : ℕ :=
  config.sessionBytes + src.keyBytes +
    match s.heapBuf with
    | some buf => buf.dataSize + config.drawBufBytes
    | none => s.cmaSize

/-- The session becomes the newest entry. -/
def cacheEnter (key : CacheKey) (args : DecoderArgs) (cost a : ℕ) : Program World Unit := do
  setSession a (.entered key args cost)
  cacheMakeNewest a
  .write fun w => { w with entries := w.entries + 1, bytes := w.bytes + .ofNat cost }

def cacheInsert (config : Config) (src : ImageSrc) (args : DecoderArgs) (a : ℕ) :
    Program World Unit := do
  let s ← session a
  let limit ← .read fun w => w.limitBytes
  if args.noCache || limit == 0 || decide (config.cost src s > limit.toNat) then pure ()
  else do
    if ← walk (insertRoom config (config.cost src s)) then do
      match ← cacheKey src with
      | .unset => pure ()
      | key => cacheEnter key args (config.cost src s) a
    else pure ()

/-! ## Decoding -/

structure FrameRequest where
  width : ℤ
  height : ℤ
  format : MppPixelFormat
deriving DecidableEq, Repr

/-- What `lv_image_decoder_post_process` returns: the buffer of the session, whose stride it
may have changed, or a copy. -/
inductive Adjusted where
  | failed
  | same (stride : ℕ)
  | copied (dataSize : ℕ)
deriving DecidableEq, Repr

/-- The answers that a decode gets: of the two openings of the source, of the decoder with the
frames that it asks for, of the initialisation of the buffer and of the post-processing. -/
structure Decoding where
  opened : Bool
  reopened : Bool
  requests : List FrameRequest
  decoded : Bool
  initialised : Bool
  adjusted : Adjusted
deriving DecidableEq, Repr

structure ImageHeader where
  width : ℕ
  height : ℕ
  colorFormat : ColorFormat
deriving DecidableEq, Repr

def Session.sized (size : ℕ) (s : Session) : Session := { s with cmaSize := size }

def Session.framed (base stride : ℕ) (s : Session) : Session :=
  { s with allocationBase := some base, stride := stride }

def allocExtFrame (config : Config) (a : ℕ) (r : FrameRequest) : Program World Bool := do
  let s ← session a
  let bytes := asWord r.width * asWord r.height
  if r.width ≤ 0 ∨ r.height ≤ 0 then pure false
  else if s.allocationBase ≠ none ∨ bytes > maxPixels * 4 ∨ asWord r.height < s.height ∨
      asWord r.width < s.width * mppFormatLvglBpp s.colorFormat % 2 ^ 32 then pure false
  else if mppFormatFromLvgl s.colorFormat ≠ some r.format then pure false
  else do
    setSession a (.sized (alignUp (bytes % 2 ^ 32) config.cacheLine))
    match ← cmaAlloc (alignUp (bytes % 2 ^ 32) config.cacheLine) with
    | none => pure false
    | some base => do
        setSession a (.framed base (asWord r.width))
        pure true

def allocExtFrames (config : Config) (a : ℕ) : List FrameRequest → Program World Unit
  | [] => pure ()
  | r :: rest => do
      let _ ← allocExtFrame config a r
      allocExtFrames config a rest

def Session.buffered (stride : ℕ) (s : Session) : Session := { s with bufStride := stride }

def Session.onHeap (buf : HeapBuf) (s : Session) : Session :=
  { s with allocationBase := none, cmaSize := 0, heapBuf := some buf }

/-- `lv_malloc_zeroed` of a session. -/
def newSession (header : ImageHeader) : Program World (Option ℕ) := do
  if ← granted then do
    let a ← take
    .write fun w => { w with
      sessions :=
        ⟨a, none, 0, 0, none, header.width, header.height, header.colorFormat, 0, .unset,
          ⟨false, false, false, false⟩, 0, 0, false, false⟩ :: w.sessions }
    pure (some a)
  else pure none

/-- The post-processing has copied the image, whose contiguous memory is given back. -/
def moveToHeap (s : Session) (dataSize : ℕ) : Program World Unit := do
  let block ← take
  cmaFree s.allocationBase s.cmaSize
  setSession s.address (.onHeap ⟨block, dataSize⟩)

/-- Whether the decoded buffer is usable. -/
def decodedBuffer (a : ℕ) (o : Decoding) : Program World Bool := do
  let s ← session a
  if s.allocationBase = none ∨ s.stride = 0 ∨ o.initialised = false then pure false
  else do
    setSession a (.buffered s.stride)
    match o.adjusted with
    | .failed => pure false
    | .same stride => do
        setSession a (.buffered stride)
        pure true
    | .copied dataSize => do
        moveToHeap s dataSize
        pure true

def decodeSource (config : Config) (d : Descriptor) (header : ImageHeader) (o : Decoding) :
    Program World (Option ℕ) := do
  if o.reopened = false then pure none
  else do
    match ← newSession header with
    | none => pure none
    | some a => do
        allocExtFrames config a o.requests
        let usable ← (if o.decoded then decodedBuffer a o else pure false)
        if usable then do
          .write fun w => { w with descriptors := (d, a) :: w.descriptors }
          setSession a .acquired
          .write fun w => { w with openSessions := w.openSessions + 1 }
          pure (some a)
        else do
          sessionRelease a
          pure none

def openLocked (config : Config) (d : Descriptor) (src : ImageSrc) (args : DecoderArgs)
    (header : ImageHeader) (o : Decoding) : Program World Unit := do
  if ← cacheAcquire config d src args then pure ()
  else if o.opened = false ∨ src = .symbol ∨ mppFormatFromLvgl header.colorFormat = none then pure ()
  else do
    match ← decodeSource config d header o with
    | none => pure ()
    | some a => do
        let s ← session a
        tell (.decoded src args a s.buffer)
        cacheInsert config src args a

def openCb (config : Config) (d : Descriptor) (src : ImageSrc) (args : DecoderArgs)
    (header : ImageHeader) (o : Decoding) : Program World Unit :=
  if header.width = 0 ∨ header.height = 0 then pure ()
  else openLocked config d src args header o

def Session.letGo (s : Session) : Session := { s with refs := s.refs - 1 }

def closeCb (d : Descriptor) : Program World Unit := do
  match ← .read fun w => w.descriptors.lookup d with
  | none => pure ()
  | some a => do
      .write fun w => { w with descriptors := w.descriptors.filter fun p => p.1 ≠ d }
      setSession a .letGo
      .write fun w => { w with openSessions := w.openSessions - 1 }
      let s ← session a
      let crowded ← .read fun w => decide (w.bytes > w.limitBytes)
      if !s.cached then sessionRelease a
      else if s.refs == 0 && (s.invalidated || crowded) then cacheRemove a
      else pure ()

/-! ## The machine -/

inductive Call where
  | openCb (d : Descriptor) (src : ImageSrc) (args : DecoderArgs) (header : ImageHeader)
      (o : Decoding)
  | closeCb (d : Descriptor)
  | cacheDrop (src : Option ImageSrc)
  | cacheSetLimit (bytes : UInt32)
deriving DecidableEq, Repr

def perform (config : Config) : Call → Program World Unit
  | .openCb d src args header o => openCb config d src args header o
  | .closeCb d => closeCb d
  | .cacheDrop src => cacheDrop src
  | .cacheSetLimit bytes => cacheSetLimit bytes

def World.start (answers : ℕ → Bool) (heap : Heap) (limitBytes : UInt32) : World where
  answers := answers
  asked := 0
  heap := heap
  sessions := []
  older _ := none
  newer _ := none
  oldest := none
  newest := none
  limitBytes := limitBytes
  bytes := 0
  entries := 0
  hits := 0
  misses := 0
  evictions := 0
  openSessions := 0
  currentCmaBytes := 0
  peakCmaBytes := 0
  allocCount := 0
  freeCount := 0
  descriptors := []
  log := []

/-- The decoder under any allocator, from a heap of which it holds nothing. -/
def cacheMachine (config : Config) : LvglAic.Machine World Call Event where
  Initial w := ∃ answers heap limitBytes, heap.live = 0 ∧ w = .start answers heap limitBytes
  step w call := (perform config call { w with log := [] }).map fun r => (r.2, r.2.log)

/-- A descriptor is opened only when it is not open; none is at address zero. -/
def Contract (_ : List Event) (w : World) : Call → Prop
  | .openCb d .. => d ≠ 0 ∧ d ∉ w.descriptors.map fun p => p.1
  | _ => True

end LvglAic.Image.MppCache
