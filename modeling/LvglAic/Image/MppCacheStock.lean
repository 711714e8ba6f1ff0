import LvglAic.Image.MppCache
import LvglAic.Machine.Linked

/-! # What the sessions of the cache hold

The stock is what the counters and the memory say about the sessions, in any order.  A call
may hold some blocks that belong to no session yet.
-/

namespace LvglAic.Image.MppCache

open LvglAic.Machine

def CacheKey.keyBlock : CacheKey → Multiset ℕ
  | .file _ block => {block}
  | _ => 0

/-- All blocks of a session but the one of its key. -/
def Session.ownBlocks (s : Session) : Multiset ℕ :=
  {s.address} + blockOf s.allocationBase + blockOf (s.heapBuf.map fun buf => buf.block)

def Session.blocks (s : Session) : Multiset ℕ := s.ownBlocks + s.key.keyBlock

def Session.cma (s : Session) : UInt32 := s.allocationBase.elim 0 fun _ => .ofNat s.cmaSize

/-- What a session counts in the bytes of the cache. -/
def Session.cost (s : Session) : ℕ := if s.cached then s.cacheCost.toNat else 0

def pointers (descriptors : List (Descriptor × ℕ)) : List ℕ := descriptors.map fun p => p.2

structure Counters where
  bytes : UInt32
  entries : UInt32
  openSessions : UInt32
  currentCmaBytes : UInt32

/-- The counters and the memory of sessions, besides which blocks in `hand` are held that count
`size` bytes of contiguous memory. -/
structure Stock (config : Config) (order : List ℕ) (descriptors : List (Descriptor × ℕ))
    (hand : Multiset ℕ) (size : UInt32) (c : Counters) (live : Multiset ℕ)
    (sessions : List Session) : Prop where
  distinct : (sessions.map fun s => s.address).Nodup
  listed : ∀ a, a ∈ order ↔ ∃ s ∈ sessions, s.address = a ∧ s.cached = true
  entries : c.entries.toNat = order.length
  few : order.length ≤ config.maxEntries.toNat
  bytes : c.bytes.toNat = (sessions.map fun s => s.cost).sum
  refs : ∀ s ∈ sessions, s.refs.toNat = (pointers descriptors).count s.address
  loose : ∀ s ∈ sessions, s.cached = false → s.refs.toNat ≤ 1
  handles : (0 :: descriptors.map fun p => p.1).Nodup
  aimed : ∀ a ∈ pointers descriptors, a ∈ sessions.map fun s => s.address
  opens : c.openSessions.toNat = descriptors.length
  live : live = hand + (sessions.map fun s => s.blocks).sum
  cma : c.currentCmaBytes = size + (sessions.map fun s => s.cma).sum

variable {config : Config} {order before after : List ℕ} {descriptors : List (Descriptor × ℕ)}
  {hand live : Multiset ℕ} {size : UInt32} {c : Counters} {sessions others : List Session}
  {s : Session} {a : ℕ} {alter : Session → Session}

theorem Stock.perm (stock : Stock config order descriptors hand size c live sessions)
    (perm : sessions.Perm others) : Stock config order descriptors hand size c live others where
  distinct := (perm.map _).nodup_iff.mp stock.distinct
  listed a := by
    rw [stock.listed a]
    simp only [perm.mem_iff]
  entries := stock.entries
  few := stock.few
  bytes := stock.bytes.trans (perm.map _).sum_eq
  refs s member := stock.refs s (perm.mem_iff.mpr member)
  loose s member := stock.loose s (perm.mem_iff.mpr member)
  handles := stock.handles
  aimed a member := (perm.map _).mem_iff.mp (stock.aimed a member)
  opens := stock.opens
  live := by rw [stock.live, (perm.map _).sum_eq]
  cma := by rw [stock.cma, (perm.map _).sum_eq]

theorem Stock.reorder (stock : Stock config order descriptors hand size c live sessions)
    (perm : order.Perm before) : Stock config before descriptors hand size c live sessions :=
  { stock with
    listed := fun a => perm.mem_iff.symm.trans (stock.listed a)
    entries := stock.entries.trans perm.length_eq
    few := perm.length_eq ▸ stock.few }

/-- Memory comes into the hand of the call. -/
theorem Stock.hold (stock : Stock config order descriptors hand size c live sessions)
    (extra : Multiset ℕ) (more : UInt32) :
    Stock config order descriptors (hand + extra) (size + more)
      { c with currentCmaBytes := c.currentCmaBytes + more } (live + extra) sessions where
  distinct := stock.distinct
  listed := stock.listed
  entries := stock.entries
  few := stock.few
  bytes := stock.bytes
  refs := stock.refs
  loose := stock.loose
  handles := stock.handles
  aimed := stock.aimed
  opens := stock.opens
  live := by rw [stock.live, add_right_comm]
  cma := by
    rw [stock.cma]
    grind

/-! ## One session among the others -/

section
variable {Item Key : Type} [DecidableEq Item] [DecidableEq Key] {items rest : List Item} {i : Item}
  {key : Item → Key}

/-- An item of its own key among the others. -/
theorem focus (distinct : (items.map key).Nodup) (member : i ∈ items) :
    ∃ others, items.Perm (i :: others) ∧ ∀ o ∈ others, key o ≠ key i := by
  have perm := List.perm_cons_erase member
  refine ⟨items.erase i, perm, fun o inside same => ?_⟩
  have apart := (List.nodup_cons.mp ((perm.map key).nodup_iff.mp distinct)).1
  exact apart (List.mem_map.mpr ⟨o, inside, same⟩)

omit [DecidableEq Item] in
theorem removed_perm (perm : items.Perm (i :: rest)) (apart : ∀ o ∈ rest, key o ≠ key i) :
    (items.filter fun o => key o ≠ key i).Perm rest := by
  have filtered := perm.filter fun o => key o ≠ key i
  rw [List.filter_cons_of_neg (by simp)] at filtered
  refine filtered.trans (.of_eq (List.filter_eq_self.mpr fun o member => ?_))
  exact decide_eq_true (apart o member)

end

theorem changed_others (apart : ∀ o ∈ others, o.address ≠ a) : changed a alter others = others := by
  refine (List.map_congr_left fun o member => ?_).trans (List.map_id' others)
  exact if_neg (apart o member)

theorem changed_perm (perm : sessions.Perm (s :: others))
    (apart : ∀ o ∈ others, o.address ≠ s.address) :
    (changed s.address alter sessions).Perm (alter s :: others) := by
  have mapped := perm.map fun o => if o.address = s.address then alter o else o
  rw [List.map_cons, if_pos rfl] at mapped
  exact mapped.trans (.of_eq (congrArg (alter s :: ·) (changed_others apart)))

/-- One place of unlisted and listed sessions decides whether the session is cached. -/
theorem Stock.cached_iff (stock : Stock config order descriptors hand size c live sessions)
    (member : s ∈ sessions) : s.cached = true ↔ s.address ∈ order := by
  rw [stock.listed]
  constructor
  · exact fun cached => ⟨s, member, rfl, cached⟩
  · rintro ⟨other, inside, same, cached⟩
    have unique := List.inj_on_of_nodup_map stock.distinct inside member same
    exact unique ▸ cached

/-- The stock with one session apart. -/
theorem Stock.apart (stock : Stock config order descriptors hand size c live (s :: others)) :
    ∀ o ∈ others, o.address ≠ s.address := by
  intro o member same
  exact (List.nodup_cons.mp stock.distinct).1 (List.mem_map.mpr ⟨o, member, same⟩)

/-- The memory and the buffer of a session change, and what the call holds with it. -/
theorem Stock.change {next : Session} {moreHand nextLive : Multiset ℕ} {nextSize nextCma : UInt32}
    (stock : Stock config order descriptors hand size c live (s :: others))
    (address : next.address = s.address) (cached : next.cached = s.cached)
    (cost : next.cost = s.cost) (refs : next.refs = s.refs)
    (held : nextLive = moreHand + next.blocks + (others.map fun s => s.blocks).sum)
    (counted : nextCma = nextSize + next.cma + (others.map fun s => s.cma).sum) :
    Stock config order descriptors moreHand nextSize { c with currentCmaBytes := nextCma } nextLive
      (next :: others) where
  distinct := by
    have distinct := stock.distinct
    rw [List.map_cons] at distinct ⊢
    rwa [address]
  listed a := by
    rw [stock.listed a]
    simp only [List.mem_cons, exists_eq_or_imp, address, cached]
  entries := stock.entries
  few := stock.few
  bytes := by
    have bytes := stock.bytes
    rw [List.map_cons, List.sum_cons] at bytes ⊢
    rwa [cost]
  refs o member := by
    rcases List.mem_cons.mp member with rfl | inside
    · rw [refs, address]
      exact stock.refs s List.mem_cons_self
    · exact stock.refs o (List.mem_cons_of_mem s inside)
  loose o member uncached := by
    rcases List.mem_cons.mp member with rfl | inside
    · rw [refs]
      exact stock.loose s List.mem_cons_self (cached ▸ uncached)
    · exact stock.loose o (List.mem_cons_of_mem s inside) uncached
  handles := stock.handles
  aimed a member := by
    have aimed := stock.aimed a member
    rw [List.map_cons] at aimed ⊢
    rwa [address]
  opens := stock.opens
  live := by rw [held, List.map_cons, List.sum_cons, add_assoc]
  cma := by rw [List.map_cons, List.sum_cons, ← add_assoc]; exact counted

theorem cost_le (stock : Stock config order descriptors hand size c live (s :: others)) :
    s.cost ≤ c.bytes.toNat := by
  have bytes := stock.bytes
  rw [List.map_cons, List.sum_cons] at bytes
  omega

/-- A session leaves to which no descriptor points. -/
theorem Stock.leave {rest : List ℕ} {next : Counters} {nextLive : Multiset ℕ}
    (stock : Stock config order descriptors hand size c live (s :: others)) (free : s.refs = 0)
    (remain : ∀ a, a ∈ rest ↔ a ∈ order ∧ a ≠ s.address)
    (entries : next.entries.toNat = rest.length) (few : rest.length ≤ order.length)
    (bytes : next.bytes.toNat + s.cost = c.bytes.toNat) (opens : next.openSessions = c.openSessions)
    (cma : next.currentCmaBytes = c.currentCmaBytes - s.cma) (held : live = nextLive + s.blocks) :
    Stock config rest descriptors hand size next nextLive others where
  distinct := (List.nodup_cons.mp stock.distinct).2
  listed a := by
    rw [remain, stock.listed a]
    simp only [List.mem_cons, exists_eq_or_imp]
    constructor
    · rintro ⟨⟨same, _⟩ | listed, other⟩
      · exact absurd same.symm other
      · exact listed
    · rintro ⟨o, member, rfl, cached⟩
      exact ⟨.inr ⟨o, member, rfl, cached⟩, stock.apart o member⟩
  entries := entries
  few := few.trans stock.few
  bytes := by
    have total := stock.bytes
    rw [List.map_cons, List.sum_cons] at total
    omega
  refs o member := stock.refs o (List.mem_cons_of_mem s member)
  loose o member := stock.loose o (List.mem_cons_of_mem s member)
  handles := stock.handles
  aimed a member := by
    have aimed := stock.aimed a member
    rw [List.map_cons] at aimed
    rcases List.mem_cons.mp aimed with rfl | inside
    · have counted := stock.refs s List.mem_cons_self
      rw [free] at counted
      exact absurd member (List.count_eq_zero.mp counted.symm)
    · exact inside
  opens := by rw [opens, stock.opens]
  live := by
    have total := stock.live
    rw [List.map_cons, List.sum_cons, held, add_comm s.blocks, ← add_assoc] at total
    exact add_right_cancel total
  cma := by
    rw [cma, stock.cma, List.map_cons, List.sum_cons]
    grind

/-- A session of which nothing points away or is counted yet. -/
theorem Stock.arrive {nextLive : Multiset ℕ}
    (stock : Stock config order descriptors hand size c live sessions)
    (fresh : ∀ o ∈ sessions, o.address ≠ s.address) (uncached : s.cached = false) (idle : s.refs = 0)
    (empty : s.cma = 0) (held : nextLive = live + s.blocks) :
    Stock config order descriptors hand size c nextLive (s :: sessions) where
  distinct := by
    rw [List.map_cons]
    refine List.nodup_cons.mpr ⟨fun member => ?_, stock.distinct⟩
    obtain ⟨o, inside, same⟩ := List.mem_map.mp member
    exact fresh o inside same
  listed a := by
    rw [stock.listed a]
    simp [uncached]
  entries := stock.entries
  few := stock.few
  bytes := by
    have unpaid : s.cost = 0 := if_neg (by simp [uncached])
    rw [List.map_cons, List.sum_cons, unpaid, zero_add, stock.bytes]
  refs o member := by
    rcases List.mem_cons.mp member with rfl | inside
    · rw [idle]
      refine (List.count_eq_zero.mpr fun aimed => ?_).symm
      obtain ⟨o, inside, same⟩ := List.mem_map.mp (stock.aimed _ aimed)
      exact fresh o inside same
    · exact stock.refs o inside
  loose o member uncached := by
    rcases List.mem_cons.mp member with rfl | inside
    · rw [idle]
      exact Nat.zero_le 1
    · exact stock.loose o inside uncached
  handles := stock.handles
  aimed a member := List.mem_cons_of_mem _ (stock.aimed a member)
  opens := stock.opens
  live := by
    rw [held, stock.live, List.map_cons, List.sum_cons, add_comm s.blocks, add_assoc]
  cma := by rw [stock.cma, List.map_cons, List.sum_cons, empty, UInt32.zero_add]

/-- A session becomes an entry of the cache; its key has a block that was in hand. -/
theorem Stock.enter {next : Session} {nextCounters : Counters}
    (stock : Stock config order descriptors (hand + next.key.keyBlock) size c live (s :: others))
    (uncached : s.cached = false) (room : c.entries < config.maxEntries)
    (fits : c.bytes.toNat + next.cacheCost.toNat < 2 ^ 32)
    (address : next.address = s.address) (cached : next.cached = true) (refs : next.refs = s.refs)
    (own : next.ownBlocks = s.blocks) (cma : next.cma = s.cma)
    (counters : nextCounters =
      { c with entries := c.entries + 1, bytes := c.bytes + next.cacheCost }) :
    Stock config (order ++ [s.address]) descriptors hand size nextCounters live (next :: others) where
  distinct := by
    have distinct := stock.distinct
    rw [List.map_cons] at distinct ⊢
    rwa [address]
  listed a := by
    have listed := stock.listed a
    simp only [List.mem_cons, exists_eq_or_imp, uncached, Bool.false_eq_true, and_false, false_or]
      at listed
    simp only [List.mem_append, List.mem_cons, List.not_mem_nil, or_false, exists_eq_or_imp, address,
      cached, and_true, listed]
    rw [or_comm, eq_comm]
  entries := by
    rw [counters, UInt32.toNat_add, stock.entries, List.length_append]
    have full := UInt32.lt_iff_toNat_lt.mp room
    have bound := config.maxEntries.toNat_lt
    have entries := stock.entries
    change (order.length + 1) % 2 ^ 32 = order.length + 1
    omega
  few := by
    have full := UInt32.lt_iff_toNat_lt.mp room
    have entries := stock.entries
    rw [List.length_append, List.length_singleton]
    omega
  bytes := by
    have unpaid : s.cost = 0 := if_neg (by simp [uncached])
    have paid : next.cost = next.cacheCost.toNat := if_pos cached
    have bytes := stock.bytes
    rw [List.map_cons, List.sum_cons, unpaid, zero_add] at bytes
    rw [counters, List.map_cons, List.sum_cons, paid, UInt32.toNat_add, Nat.mod_eq_of_lt fits]
    omega
  refs o member := by
    rcases List.mem_cons.mp member with rfl | inside
    · rw [refs, address]
      exact stock.refs s List.mem_cons_self
    · exact stock.refs o (List.mem_cons_of_mem s inside)
  loose o member unlisted := by
    rcases List.mem_cons.mp member with rfl | inside
    · rw [cached] at unlisted
      cases unlisted
    · exact stock.loose o (List.mem_cons_of_mem s inside) unlisted
  handles := stock.handles
  aimed a member := by
    have aimed := stock.aimed a member
    rw [List.map_cons] at aimed ⊢
    rwa [address]
  opens := by rw [counters]; exact stock.opens
  live := by
    rw [stock.live, List.map_cons, List.sum_cons, List.map_cons, List.sum_cons, Session.blocks.eq_1 next,
      own, add_assoc hand, add_comm next.key.keyBlock, add_assoc s.blocks, add_assoc s.blocks,
      add_comm next.key.keyBlock]
  cma := by
    have total := stock.cma
    rw [counters]
    rwa [List.map_cons, List.sum_cons, cma]

theorem handles_short (handles : (0 :: descriptors.map fun p => p.1).Nodup) :
    descriptors.length + 1 ≤ 2 ^ 32 := by
  have small := handles.length_le_card
  rwa [List.length_cons, List.length_map, Fintype.card_fin] at small

/-- A descriptor is opened on a session. -/
theorem Stock.acquire {d : Descriptor} {next : Session} {nextCounters : Counters}
    (stock : Stock config order descriptors hand size c live (s :: others))
    (closed : d ≠ 0 ∧ d ∉ descriptors.map fun p => p.1)
    (single : s.cached = false → s.refs = 0)
    (acquired : next = { s with refs := s.refs + 1 })
    (counters : nextCounters = { c with openSessions := c.openSessions + 1 }) :
    Stock config order ((d, s.address) :: descriptors) hand size nextCounters live
      (next :: others) := by
  have handles : (0 :: ((d, s.address) :: descriptors).map fun p => p.1).Nodup := by
    have told := List.nodup_cons.mp stock.handles
    refine List.nodup_cons.mpr ⟨fun member => ?_, List.nodup_cons.mpr ⟨closed.2, told.2⟩⟩
    rcases List.mem_cons.mp member with same | inside
    · exact closed.1 same.symm
    · exact told.1 inside
  have short := handles_short handles
  rw [List.length_cons] at short
  have counted := stock.refs s List.mem_cons_self
  have bound := List.count_le_length (a := s.address) (l := pointers descriptors)
  rw [pointers, List.length_map] at bound
  have more : next.refs.toNat = s.refs.toNat + 1 := by
    rw [acquired, UInt32.toNat_add]
    change (s.refs.toNat + 1) % 2 ^ 32 = s.refs.toNat + 1
    rw [pointers] at counted
    omega
  have address : next.address = s.address := by rw [acquired]
  have cached : next.cached = s.cached := by rw [acquired]
  refine ⟨?_, ?_, ?_, stock.few, ?_, ?_, ?_, handles, ?_, ?_, ?_, ?_⟩
  · have distinct := stock.distinct
    rw [List.map_cons] at distinct ⊢
    rwa [address]
  · intro a
    rw [stock.listed a]
    simp only [List.mem_cons, exists_eq_or_imp, address, cached]
  · rw [counters]
    exact stock.entries
  · have bytes := stock.bytes
    rw [counters, acquired]
    exact bytes
  · intro o member
    rcases List.mem_cons.mp member with rfl | inside
    · rw [more, address, counted, pointers, pointers, List.map_cons, List.count_cons_self]
    · rw [stock.refs o (List.mem_cons_of_mem s inside), pointers, pointers, List.map_cons,
        List.count_cons_of_ne (stock.apart o inside).symm]
  · intro o member uncached
    rcases List.mem_cons.mp member with rfl | inside
    · rw [more, single (cached ▸ uncached)]
      exact Nat.le_refl 1
    · exact stock.loose o (List.mem_cons_of_mem s inside) uncached
  · intro a member
    rw [pointers, List.map_cons] at member
    rw [List.map_cons, address]
    rcases List.mem_cons.mp member with rfl | inside
    · exact List.mem_cons_self
    · have aimed := stock.aimed a inside
      rwa [List.map_cons] at aimed
  · rw [counters, UInt32.toNat_add, stock.opens, List.length_cons]
    change (descriptors.length + 1) % 2 ^ 32 = descriptors.length + 1
    omega
  · have live := stock.live
    rw [acquired]
    exact live
  · have cma := stock.cma
    rw [counters, acquired]
    exact cma

/-- A descriptor is closed. -/
theorem Stock.letGo {d : Descriptor} {next : Session} {nextCounters : Counters}
    (stock : Stock config order descriptors hand size c live (s :: others))
    (found : (d, s.address) ∈ descriptors) (left : next = { s with refs := s.refs - 1 })
    (counters : nextCounters = { c with openSessions := c.openSessions - 1 }) :
    Stock config order (descriptors.filter fun p => p.1 ≠ d) hand size nextCounters live
      (next :: others) ∧ next.refs.toNat + 1 = s.refs.toNat := by
  have handles := (List.nodup_cons.mp stock.handles).2
  obtain ⟨rest, perm, apart⟩ := focus handles found
  have kept : (descriptors.filter fun p => p.1 ≠ d).Perm rest := removed_perm perm apart
  have told : ∀ a, (pointers descriptors).count a =
      (pointers (descriptors.filter fun p => p.1 ≠ d)).count a + if s.address = a then 1 else 0 := by
    intro a
    have counted := (perm.map fun p => p.2).count_eq a
    have remaining := (kept.map fun p => p.2).count_eq a
    rw [pointers, pointers, counted, remaining, List.map_cons, List.count_cons]
    simp only [beq_iff_eq]
  have counted := stock.refs s List.mem_cons_self
  rw [told, if_pos rfl] at counted
  have address : next.address = s.address := by rw [left]
  have cached : next.cached = s.cached := by rw [left]
  have positive : (1 : UInt32) ≤ s.refs := by
    rw [UInt32.le_iff_toNat_le, counted]
    exact Nat.le_add_left 1 _
  have fewer : next.refs.toNat + 1 = s.refs.toNat := by
    rw [left, UInt32.toNat_sub_of_le _ _ positive]
    change s.refs.toNat - 1 + 1 = s.refs.toNat
    omega
  have size : (descriptors.filter fun p => p.1 ≠ d).length + 1 = descriptors.length := by
    rw [kept.length_eq, perm.length_eq, List.length_cons]
  refine ⟨⟨?_, ?_, ?_, stock.few, ?_, ?_, ?_, ?_, ?_, ?_, ?_, ?_⟩, fewer⟩
  · have distinct := stock.distinct
    rw [List.map_cons] at distinct ⊢
    rwa [address]
  · intro a
    rw [stock.listed a]
    simp only [List.mem_cons, exists_eq_or_imp, address, cached]
  · rw [counters]
    exact stock.entries
  · have bytes := stock.bytes
    rw [counters, left]
    exact bytes
  · intro o member
    rcases List.mem_cons.mp member with rfl | inside
    · rw [address]
      omega
    · rw [stock.refs o (List.mem_cons_of_mem s inside), told, if_neg (stock.apart o inside).symm,
        add_zero]
  · intro o member uncached
    rcases List.mem_cons.mp member with rfl | inside
    · have few := stock.loose s List.mem_cons_self (cached ▸ uncached)
      omega
    · exact stock.loose o (List.mem_cons_of_mem s inside) uncached
  · have shown := stock.handles
    exact shown.sublist ((List.filter_sublist.map fun p : Descriptor × ℕ => p.1).cons_cons 0)
  · intro a member
    rw [List.map_cons, address]
    have aimed := stock.aimed a (List.filter_sublist.map _ |>.subset member)
    rwa [List.map_cons] at aimed
  · have opens := stock.opens
    have some : (1 : UInt32) ≤ c.openSessions := by
      rw [UInt32.le_iff_toNat_le, opens, ← size]
      exact Nat.le_add_left 1 _
    rw [counters, UInt32.toNat_sub_of_le _ _ some, opens, ← size]
    rfl
  · have live := stock.live
    rw [left]
    exact live
  · have cma := stock.cma
    rw [counters, left]
    exact cma

end LvglAic.Image.MppCache
