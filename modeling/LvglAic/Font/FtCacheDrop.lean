import LvglAic.Font.FtCache

/-! # Dropping font caches as a whole

The nodes are followed as the nodes without the pins of the call and the keys that the
call has pinned, the memory as the blocks of the nodes and those that the call holds.
-/

namespace LvglAic.Font

open LvglAic.Machine

/-- The blocks of the copied glyph metrics. -/
def l1Blocks (nodes : List CacheNode) : Multiset ℕ := (nodes.map fun n => blockOf n.glyphL1).sum

/-- The nodes with the pins of some keys. -/
def pinned (pins : List NodeKey) (base : List CacheNode) : List CacheNode :=
  base.map fun n => n.addRefs (.ofNat (pins.count n.key))

/-- A state with the nodes `base` but for some pins, where besides the nodes some blocks are held. -/
structure Stands (base : List CacheNode) (pins : List NodeKey) (blocks : Multiset ℕ)
    (w : FtWorld) : Prop where
  nodes : w.nodes = pinned pins base
  live : w.heap.live = blocks + l1Blocks base

variable {base : List CacheNode} {pins others : List NodeKey} {blocks : Multiset ℕ} {w : FtWorld}
  {key : NodeKey} {drop : UInt32} {sel : FtSelector} {l1 : Bool} {size seen : ℕ}

/-! ## Single calls -/

theorem pinned_perm (same : pins.Perm others) : pinned pins base = pinned others base := by
  unfold pinned
  simp only [same.count_eq]

/-- No entry of the caches to drop is in use. -/
structure Unused (drop : UInt32) (n : CacheNode) : Prop where
  glyphs : ofGlyphs drop = true → ∀ cache, n.glyphCache = some cache →
    ∀ count ∈ cache.refs, count = 0
  drawData : ofDrawData drop = true → ∀ cache, n.drawDataCache = some cache →
    ∀ count ∈ cache.refs, count = 0

/-- The records that the plan makes of the nodes that it selects. -/
def records (sel : FtSelector) (drop : UInt32) (nodes : List CacheNode) : List Selected :=
  if drop = 0 then [] else (nodes.filter fun n => sel.selects n.key).map fun n => ⟨n.key, none, none⟩

theorem records_cons (n : CacheNode) (nodes : List CacheNode) :
    records sel drop (n :: nodes) =
      (if drop = 0 ∨ sel.selects n.key = false then [] else [⟨n.key, none, none⟩]) ++
        records sel drop nodes := by
  unfold records
  by_cases none : drop = 0
  · simp [none]
  · cases selected : sel.selects n.key <;> simp [none, selected]

/-- A plan whose records are all unpinned, and which is complete unless it stopped. -/
def Planned (sel : FtSelector) (drop : UInt32) (nodes : List CacheNode) (p q : Plan) : Prop :=
  (∀ s ∈ q.selected, s.entry = none ∧ s.freshL1 = none) ∧
    (q.ok = true → q.seen = p.seen + nodes.length →
      q.selected = p.selected ++ records sel drop nodes ∧
      ∀ n ∈ nodes, sel.selects n.key = true → Unused drop n)

/-- The rest of a plan completes it after one font. -/
theorem Planned.cons {n : CacheNode} {rest : List CacheNode} {p next q : Plan}
    (planned : Planned sel drop rest next q) (counted : next.seen = p.seen + 1)
    (recorded : next.selected = p.selected ++
      if drop = 0 ∨ sel.selects n.key = false then [] else [⟨n.key, none, none⟩])
    (unused : sel.selects n.key = true → Unused drop n) : Planned sel drop (n :: rest) p q := by
  refine ⟨planned.1, fun ok all => ?_⟩
  rw [List.length_cons] at all
  obtain ⟨selected, calm⟩ := planned.2 ok (by omega)
  refine ⟨?_, List.forall_mem_cons.mpr ⟨unused, calm⟩⟩
  rw [selected, recorded, records_cons, List.append_assoc]

/-- The keys that the records have pinned. -/
def entries (selected : List Selected) : List NodeKey := selected.filterMap fun s => s.entry

theorem Stands.perm (stands : Stands base pins blocks w) (same : pins.Perm others) :
    Stands base others blocks w := ⟨stands.nodes.trans (pinned_perm same), stands.live⟩

variable {nodes : List CacheNode} {n : CacheNode} {change : CacheNode → CacheNode}

theorem changeNode_keys (change : CacheNode → CacheNode) (keys : ∀ n, (change n).key = n.key) :
    (changeNode key change nodes).map (·.key) = nodes.map (·.key) := by
  unfold changeNode
  rw [List.map_map]
  refine List.map_congr_left fun n _ => ?_
  dsimp only [Function.comp_apply]
  split
  · exact keys n
  · rfl

/-- A cache without entries. -/
def EntryCache.cleared (cache : EntryCache) : EntryCache := { cache with refs := [] }

theorem changeNode_id : changeNode key (fun n => n) nodes = nodes :=
  (List.map_congr_left fun _ _ => ite_self _).trans (List.map_id' nodes)

/-- A font whose caches of some kinds were emptied. -/
structure Emptied (glyphs drawData : Bool) (before after : CacheNode) : Prop where
  key : after.key = before.key
  refs : after.refs = before.refs
  glyphCache : after.glyphCache =
    if glyphs then before.glyphCache.map EntryCache.cleared else before.glyphCache
  drawDataCache : after.drawDataCache =
    if drawData then before.drawDataCache.map EntryCache.cleared else before.drawDataCache
  glyphL1 : glyphs = false → after.glyphL1 = before.glyphL1

/-- The caches of one node were emptied. -/
def OneEmptied (glyphs drawData : Bool) (n : CacheNode) (base after : List CacheNode) : Prop :=
  ∃ change : CacheNode → CacheNode, (∀ m, (change m).key = m.key) ∧
    after = changeNode n.key change base ∧ Emptied glyphs drawData n (change n)

theorem OneEmptied.refl : OneEmptied false false n base base :=
  ⟨fun m => m, fun _ => rfl, changeNode_id.symm, rfl, rfl, rfl, rfl, fun _ => rfl⟩

/-- The caches of the nodes of some keys were emptied. -/
def AllEmptied (glyphs drawData : Bool) (keys : List NodeKey) (base after : List CacheNode) : Prop :=
  ∃ change : CacheNode → CacheNode, after = base.map change ∧ ∀ n ∈ base,
    if n.key ∈ keys then Emptied glyphs drawData n (change n) else change n = n

theorem Emptied.trans {first second : CacheNode} (glyphs : Bool) (drawData : Bool)
    (one : Emptied glyphs false n first) (two : Emptied false drawData first second) :
    Emptied glyphs drawData n second where
  key := two.key.trans one.key
  refs := two.refs.trans one.refs
  glyphCache := two.glyphCache.trans one.glyphCache
  drawDataCache := by
    rw [two.drawDataCache, one.drawDataCache]
    rfl
  glyphL1 none := (two.glyphL1 rfl).trans (one.glyphL1 none)

/-- Other nodes are as they were. -/
theorem OneEmptied.other {glyphs drawData : Bool} {after : List CacheNode} {m : CacheNode}
    (emptied : OneEmptied glyphs drawData n base after) (member : m ∈ after)
    (different : m.key ≠ n.key) : m ∈ base := by
  obtain ⟨change, keys, rfl, _⟩ := emptied
  obtain ⟨old, inside, rfl⟩ := List.mem_map.mp member
  by_cases same : old.key = n.key
  · simp only [if_pos same, keys] at different
    exact absurd same different
  · simp only [if_neg same]
    exact inside

theorem OneEmptied.keys {glyphs drawData : Bool} {after : List CacheNode}
    (emptied : OneEmptied glyphs drawData n base after) :
    after.map (·.key) = base.map (·.key) := by
  obtain ⟨change, keys, rfl, _⟩ := emptied
  exact changeNode_keys change keys

/-- The caches of one node, and then those of the others. -/
theorem OneEmptied.all {glyphs drawData : Bool} {keys : List NodeKey} {after last : List CacheNode}
    (one : OneEmptied glyphs drawData n base after) (distinct : (base.map (·.key)).Nodup)
    (member : n ∈ base) (fresh : n.key ∉ keys) (rest : AllEmptied glyphs drawData keys after last) :
    AllEmptied glyphs drawData (n.key :: keys) base last := by
  obtain ⟨change, same, rfl, emptied⟩ := one
  obtain ⟨next, rfl, others⟩ := rest
  refine ⟨fun m => next (if m.key = n.key then change m else m), ?_, fun m inside => ?_⟩
  · unfold changeNode
    rw [List.map_map]
    rfl
  · have shown : (if m.key = n.key then change m else m) ∈ changeNode n.key change base :=
      List.mem_map_of_mem inside
    have told := others _ shown
    by_cases this : m.key = n.key
    · have one : m = n := List.inj_on_of_nodup_map distinct inside member this
      have outside : (change m).key ∉ keys := by
        rw [same, this]
        exact fresh
      rw [if_pos this, if_neg outside] at told
      rw [if_pos (List.mem_cons.mpr (.inl this))]
      dsimp only
      rw [if_pos this, told, one]
      exact emptied
    · simp only [if_neg this] at told ⊢
      simp only [List.mem_cons, this, false_or]
      exact told

/-- What becomes of a font: its caches of the dropped kinds are emptied when it is selected. -/
def FontDropped (sel : FtSelector) (drop : UInt32) (before after : CacheNode) : Prop :=
  if sel.selects before.key then
    Emptied (ofGlyphs drop) (ofDrawData drop) before after ∧ Unused drop before
  else after = before

theorem mem_records (member : n ∈ base) :
    n.key ∈ (records sel drop base).map (·.key) ↔ drop ≠ 0 ∧ sel.selects n.key = true := by
  unfold records
  by_cases none : drop = 0
  · simp [none]
  · simp only [none, if_false, List.map_map, List.mem_map, List.mem_filter, ne_eq, not_false_eq_true,
      true_and, Function.comp_apply]
    constructor
    · rintro ⟨m, ⟨_, selected⟩, same⟩
      rwa [same] at selected
    · intro selected
      exact ⟨n, ⟨member, selected⟩, rfl⟩

theorem AllEmptied.fonts {after : List CacheNode}
    (all : AllEmptied (ofGlyphs drop) (ofDrawData drop) ((records sel drop base).map (·.key)) base after)
    (unused : ∀ n ∈ base, sel.selects n.key = true → Unused drop n) :
    List.Forall₂ (FontDropped sel drop) base after := by
  obtain ⟨change, rfl, changed⟩ := all
  refine List.forall₂_map_right_iff.mpr (List.forall₂_same.mpr fun n member => ?_)
  have told := changed n member
  simp only [mem_records member] at told
  unfold FontDropped
  by_cases selected : sel.selects n.key = true
  · rw [if_pos selected]
    refine ⟨?_, unused n member selected⟩
    by_cases nothing : drop = 0
    · rw [if_neg fun dropped => dropped.1 nothing] at told
      rw [told, nothing]
      exact ⟨rfl, rfl, rfl, rfl, fun _ => rfl⟩
    · rwa [if_pos ⟨nothing, selected⟩] at told
  · rw [if_neg selected]
    rwa [if_neg fun dropped => selected dropped.2] at told

theorem AllEmptied.refs {glyphs drawData : Bool} {keys : List NodeKey} {after : List CacheNode}
    (all : AllEmptied glyphs drawData keys base after) :
    after.map (fun n => (n.key, n.refs)) = base.map fun n => (n.key, n.refs) := by
  obtain ⟨change, rfl, changed⟩ := all
  rw [List.map_map]
  refine List.map_congr_left fun n member => ?_
  have told := changed n member
  split at told
  · exact Prod.ext told.key told.refs
  · exact congrArg (fun n : CacheNode => (n.key, n.refs)) told

end LvglAic.Font
