import LvglAic.Machine.Blocks

/-! # Inspecting and dropping font caches (`aic_lv_ft_cache.c`)

The caches of LVGL are given by their interface.  A cache of fonts holds nodes with
different keys, and every allocation, every lookup and every step of an iterator may fail.
An entry pointer is the key of the node that it pins.  The order of the entries, which an
acquire changes, is left out.
-/

namespace LvglAic.Font

open LvglAic.Machine

structure NodeKey where
  pathname : Option (List UInt8)
  style : ℕ
  renderMode : ℕ
deriving DecidableEq

/-- The reference counts of the entries of a cache, and its capacity. -/
structure EntryCache where
  refs : List Int32
  maxSize : ℕ
deriving DecidableEq

/-- A font node of the cache with its own reference count. -/
structure CacheNode where
  key : NodeKey
  refs : Int32
  glyphCache : Option EntryCache
  drawDataCache : Option EntryCache
  glyphL1 : Option ℕ
deriving DecidableEq

/-- `answers` tells whether the next request succeeds. -/
structure FtWorld where
  answers : ℕ → Bool
  asked : ℕ
  heap : Heap
  nodes : List CacheNode

structure FtStats where
  fonts : UInt32
  fontReferences : UInt32
  glyphEntries : UInt32
  glyphCapacity : UInt32
  glyphReferences : UInt32
  drawEntries : UInt32
  drawCapacity : UInt32
  drawReferences : UInt32
deriving DecidableEq

structure FtSelector where
  path : Option (List UInt8)
  style : ℕ
  mode : ℕ

structure Selected where
  key : NodeKey
  entry : Option NodeKey
  freshL1 : Option ℕ

def anyStyle : ℕ := 0xffff

def anyRenderMode : ℕ := 0xffff

def FtSelector.selects (sel : FtSelector) (key : NodeKey) : Bool :=
  (sel.path.isNone || sel.path == key.pathname) &&
    (sel.style == anyStyle || sel.style == key.style) &&
    (sel.mode == anyRenderMode || sel.mode == key.renderMode)

def ofGlyphs (drop : UInt32) : Bool := drop &&& 1 != 0

def ofDrawData (drop : UInt32) : Bool := drop &&& 2 != 0

/-! ## The interface of LVGL -/

def granted : Program FtWorld Bool := fun w =>
  some (w.answers w.asked, { w with asked := w.asked + 1 })

def malloc : Program FtWorld (Option ℕ) := do
  if ← granted then fun w => some (some w.heap.fresh, { w with heap := w.heap.take })
  else pure none

def free : Option ℕ → Program FtWorld Unit
  | none => pure ()
  | some b => fun w => (w.heap.giveBack b).map fun heap => ((), { w with heap := heap })

/-- The nodes with a change to the one of a key. -/
def changeNode (key : NodeKey) (change : CacheNode → CacheNode) (nodes : List CacheNode) :
    List CacheNode :=
  nodes.map fun n => if n.key = key then change n else n

def CacheNode.addRefs (n : CacheNode) (count : Int32) : CacheNode := { n with refs := n.refs + count }

def acquire (key : NodeKey) : Program FtWorld (Option NodeKey) := do
  if ← granted then
    fun w =>
      if w.nodes.any fun n => n.key = key then
        some (some key, { w with nodes := changeNode key (fun n => n.addRefs 1) w.nodes })
      else some (none, w)
  else pure none

def release (entry : NodeKey) : Program FtWorld Unit := fun w =>
  some ((), { w with nodes := changeNode entry (fun n => n.addRefs (-1)) w.nodes })

def setData (entry : NodeKey) (change : CacheNode → CacheNode) : Program FtWorld Unit := fun w =>
  some ((), { w with nodes := changeNode entry change w.nodes })

def add (value : UInt32) (n : ℕ) : Option UInt32 :=
  if n > 2 ^ 32 - 1 - value.toNat then none else some (value + .ofNat n)

/-- An iterator without its context is destroyed. -/
def iterator : Program FtWorld (Option ℕ) := do
  match ← malloc with
  | none => pure none
  | some it =>
      if ← granted then pure (some it)
      else do
        free (some it)
        pure none

structure Counts where
  entries : UInt32
  capacity : UInt32
  references : UInt32

/-- The loop over the entries of a cache, which the iterator may end early. -/
def countReferences : List Int32 → ℕ → UInt32 → Program FtWorld (Bool × ℕ × UInt32)
  | [], seen, references => pure (true, seen, references)
  | refs :: rest, seen, references => do
      if ← granted then
        if refs < 0 then pure (false, seen, references)
        else
          match add references refs.toInt.toNat with
          | none => pure (false, seen, references)
          | some references => countReferences rest (seen + 1) references
      else pure (true, seen, references)

def counts (cache : Option EntryCache) (c : Counts) : Program FtWorld (Option Counts) :=
  match cache with
  | none => pure (some c)
  | some cache =>
      match add c.entries cache.refs.length with
      | none => pure none
      | some entries =>
          match add c.capacity cache.maxSize with
          | none => pure none
          | some capacity =>
              if cache.refs.length = 0 then
                pure (some { c with entries := entries, capacity := capacity })
              else do
                let copy ← malloc
                let it ← (match copy with | none => pure none | some _ => iterator)
                match it with
                | none => do
                    free copy
                    pure none
                | some it => do
                    let (ok, seen, references) ← countReferences cache.refs 0 c.references
                    free (some it)
                    free copy
                    if ok && seen == cache.refs.length then pure (some ⟨entries, capacity, references⟩)
                    else pure none

/-- The part of a font in the statistics, unless one of the dropped caches is in use. -/
def addFont (drop : UInt32) (n : CacheNode) (stats : FtStats) : Program FtWorld (Option FtStats) := do
  if n.refs < 0 then pure none
  else
    match add stats.fonts 1 with
    | none => pure none
    | some fonts =>
        match add stats.fontReferences n.refs.toInt.toNat with
        | none => pure none
        | some fontReferences => do
            let glyphs ← counts n.glyphCache ⟨stats.glyphEntries, stats.glyphCapacity, 0⟩
            match glyphs with
            | none => pure none
            | some glyphs => do
                let draws ← counts n.drawDataCache ⟨stats.drawEntries, stats.drawCapacity, 0⟩
                match draws with
                | none => pure none
                | some draws =>
                    match add stats.glyphReferences glyphs.references.toNat with
                    | none => pure none
                    | some glyphReferences =>
                        match add stats.drawReferences draws.references.toNat with
                        | none => pure none
                        | some drawReferences =>
                            if ofGlyphs drop && glyphs.references != 0 then pure none
                            else if ofDrawData drop && draws.references != 0 then pure none
                            else pure (some ⟨fonts, fontReferences, glyphs.entries, glyphs.capacity,
                              glyphReferences, draws.entries, draws.capacity, drawReferences⟩)

structure Plan where
  ok : Bool
  seen : ℕ
  stats : FtStats
  selected : List Selected

/-- The loop over the fonts; `size` is the number of records that `selected` has room for. -/
def plan (sel : FtSelector) (drop : UInt32) (size : ℕ) :
    List CacheNode → Plan → Program FtWorld Plan
  | [], p => pure p
  | n :: rest, p => do
      if ← granted then
        if p.seen + 1 > size then pure { p with ok := false, seen := p.seen + 1 }
        else if sel.selects n.key then do
          let stats ← addFont drop n p.stats
          match stats with
          | none => pure { p with ok := false, seen := p.seen + 1 }
          | some stats =>
              if drop = 0 then plan sel drop size rest { p with seen := p.seen + 1, stats := stats }
              else if p.selected.length < size then
                plan sel drop size rest
                  { p with
                    seen := p.seen + 1
                    stats := stats
                    selected := p.selected ++ [⟨n.key, none, none⟩] }
              else fun _ => none
        else plan sel drop size rest { p with seen := p.seen + 1 }
      else pure p

/-! ## Dropping -/

def pin : List Selected → Program FtWorld (Bool × List Selected)
  | [] => pure (true, [])
  | s :: rest => do
      match ← acquire s.key with
      | none => pure (false, s :: rest)
      | some entry => do
          let (ok, rest) ← pin rest
          pure (ok, { s with entry := some entry } :: rest)

def unpin : List Selected → Program FtWorld Unit
  | [] => pure ()
  | s :: rest => do
      (match s.entry with | none => pure () | some entry => release entry)
      free s.freshL1
      unpin rest

end LvglAic.Font
