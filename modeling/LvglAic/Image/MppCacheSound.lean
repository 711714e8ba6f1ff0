import LvglAic.Image.MppCacheStock

/-! # What every call keeps of the cache

The events of a history show when a session was used.  Entries are listed by their last use,
each valid entry was decoded for its source since the source was last dropped, and no two
valid entries are alike.
-/

namespace LvglAic.Image.MppCache

open LvglAic.Machine

def Event.uses (a : ℕ) : Event → Bool
  | .decoded _ _ b _ => b == a
  | .hit _ _ b => b == a
  | _ => false

/-- The events since the last use of a session. -/
def age (a : ℕ) (history : List Event) : ℕ :=
  history.foldl (fun n e => if e.uses a then 0 else n + 1) 0

def Event.spares (src : ImageSrc) (e : Event) : Prop :=
  e ≠ .dropped none ∧ e ≠ .dropped (some src) ∧ e ≠ .limited 0

/-- A session was decoded for a source, which was not dropped since. -/
def DecodedFor (history : List Event) (src : ImageSrc) (args : DecoderArgs) (a : ℕ)
    (buffer : Buffer) : Prop :=
  ∃ earlier later, history = earlier ++ .decoded src args a buffer :: later ∧
    ∀ e ∈ later, e.spares src

/-- A buffer that was decoded for some arguments serves others. -/
def Serves (config : Config) (decoded : DecoderArgs) (buffer : Buffer) (args : DecoderArgs) : Prop :=
  decoded.premultiply = args.premultiply ∧ decoded.useIndexed = args.useIndexed ∧
    (decoded.strideAlign = args.strideAlign ∨ buffer.copied = false ∧
      (args.strideAlign = false ∨
        buffer.stride = config.widthToStride buffer.width buffer.colorFormat))

def Justified (config : Config) (earlier : List Event) : Event → Prop
  | .hit src args a => args.noCache = false ∧ ∃ decoded buffer,
      DecodedFor earlier src decoded a buffer ∧ Serves config decoded buffer args
  | .evicted a idle => a ∈ idle ∧ ∀ b ∈ idle, b ≠ a → age b earlier < age a earlier
  | _ => True

def Told (config : Config) (history : List Event) : Prop := Guarded (Justified config) history

def DecoderArgs.alike (args others : DecoderArgs) : Prop :=
  args.premultiply = others.premultiply ∧ args.useIndexed = others.useIndexed ∧
    args.strideAlign = others.strideAlign

def Session.valid (s : Session) : Prop := s.cached = true ∧ s.invalidated = false

structure Notes (history : List Event) (order : List ℕ) (sessions : List Session) : Prop where
  recent : order.Pairwise fun a b => age b history < age a history
  known : ∀ s ∈ sessions, s.valid → ∃ src, s.key.keyMatches src = true ∧
    DecodedFor history src s.args s.address s.buffer
  unique : ∀ s ∈ sessions, s.valid → ∀ t ∈ sessions, t.valid → ∀ src, s.key.keyMatches src = true →
    t.key.keyMatches src = true → s.args.alike t.args → s.address = t.address

def World.counters (w : World) : Counters :=
  ⟨w.bytes, w.entries, w.openSessions, w.currentCmaBytes⟩

/-- What holds of the cache in the middle of a call, after the events `trace` of the calls before. -/
structure Kept (config : Config) (trace : List Event) (hand : Multiset ℕ) (size : UInt32)
    (order : List ℕ) (w : World) : Prop where
  linked : Linked w.older w.newer w.oldest w.newest order
  stock : Stock config order w.descriptors hand size w.counters w.heap.live w.sessions
  notes : Notes (trace ++ w.log) order w.sessions
  told : Told config (trace ++ w.log)

variable {config : Config} {trace history events : List Event} {order before after rest : List ℕ}
  {hand blocks : Multiset ℕ} {size bytes : UInt32} {w t u : World} {s : Session} {a b n : ℕ} {e : Event}
  {src other : ImageSrc} {args : DecoderArgs} {sessions others : List Session}
  {alter : Session → Session}

/-! ## Histories -/

theorem age_snoc (a : ℕ) (history : List Event) (e : Event) :
    age a (history ++ [e]) = if e.uses a then 0 else age a history + 1 := List.foldl_concat ..

theorem DecodedFor.snoc {buffer : Buffer} (decoded : DecodedFor history src args a buffer)
    (spared : e.spares src) : DecodedFor (history ++ [e]) src args a buffer := by
  obtain ⟨earlier, later, rfl, spares⟩ := decoded
  refine ⟨earlier, later ++ [e], by rw [List.append_assoc, List.cons_append], fun f member => ?_⟩
  rcases List.mem_append.mp member with inside | last
  · exact spares f inside
  · exact List.mem_singleton.mp last ▸ spared

theorem keyMatches_unique {key : CacheKey} (first : key.keyMatches src = true)
    (second : key.keyMatches other = true) : src = other := by
  cases key <;> cases src <;> cases other <;> simp_all [CacheKey.keyMatches]

/-- What the notes say about a session. -/
def Session.face (s : Session) : ℕ × CacheKey × DecoderArgs × Buffer :=
  (s.address, s.key, s.args, s.buffer)

/-- Notes about fewer sessions in the same order. -/
theorem Notes.fewer (notes : Notes history order sessions) (kept : rest.Sublist order)
    (faces : ∀ s ∈ others, s.valid → ∃ o ∈ sessions, o.valid ∧ o.face = s.face) :
    Notes history rest others where
  recent := notes.recent.sublist kept
  known s member valid := by
    obtain ⟨o, inside, standing, same⟩ := faces s member valid
    simp only [Session.face, Prod.mk.injEq] at same
    obtain ⟨address, key, args, buffer⟩ := same
    rw [← address, ← key, ← args, ← buffer]
    exact notes.known o inside standing
  unique s member valid t within valid' src first second alike := by
    obtain ⟨o, inside, standing, same⟩ := faces s member valid
    obtain ⟨p, inside', standing', same'⟩ := faces t within valid'
    simp only [Session.face, Prod.mk.injEq] at same same'
    rw [← same.2.1] at first
    rw [← same'.2.1] at second
    rw [← same.2.2.1, ← same'.2.2.1] at alike
    have address := notes.unique o inside standing p inside' standing' src first second alike
    rw [← same.1, ← same'.1, address]

theorem Notes.subset (notes : Notes history order sessions) (kept : rest.Sublist order)
    (subset : ∀ s ∈ others, s.valid → s ∈ sessions) : Notes history rest others :=
  notes.fewer kept fun s member valid => ⟨s, subset s member valid, valid, rfl⟩

/-- An event that uses no entry and drops none. -/
theorem Notes.snoc (notes : Notes history order sessions)
    (unused : ∀ a ∈ order, e.uses a = false)
    (spared : ∀ s ∈ sessions, s.valid → ∀ src, s.key.keyMatches src = true → e.spares src) :
    Notes (history ++ [e]) order sessions where
  recent := by
    refine notes.recent.imp_of_mem fun {a b} member inside older => ?_
    simp only [age_snoc, unused a member, unused b inside, Bool.false_eq_true, if_false]
    exact Nat.add_lt_add_right older 1
  known s member valid := by
    obtain ⟨src, found, decoded⟩ := notes.known s member valid
    exact ⟨src, found, decoded.snoc (spared s member valid src found)⟩
  unique := notes.unique

/-! ## Single accesses -/

theorem holds_iff : w.holds a = true ↔ a ∈ w.sessions.map fun s => s.address := by
  simp [World.holds]

theorem holds_of_mem (member : s ∈ w.sessions) : w.holds s.address = true :=
  holds_iff.mpr (List.mem_map_of_mem member)

theorem session_run (distinct : (w.sessions.map fun s => s.address).Nodup) (member : s ∈ w.sessions) :
    session s.address w = some (s, w) := by
  have found : (w.sessions.find? fun o => o.address = s.address) = some s := by
    cases search : w.sessions.find? fun o => o.address = s.address with
    | none =>
        have absent := List.find?_eq_none.mp search s member
        simp at absent
    | some o =>
        have same := List.find?_some search
        simp only [decide_eq_true_eq] at same
        rw [List.inj_on_of_nodup_map distinct (List.mem_of_find?_eq_some search) member same]
  rw [session, found]
  rfl

theorem setSession_run (held : w.holds a = true) :
    setSession a alter w = some ((), { w with sessions := changed a alter w.sessions }) := if_pos held

theorem links_run (held : w.holds a = true) : links a w = some ((w.older a, w.newer a), w) :=
  if_pos held

theorem setOlder_run (held : w.holds a = true) (older : Option ℕ) :
    setOlder a older w = some ((), { w with older := Function.update w.older a older }) := if_pos held

theorem setNewer_run (held : w.holds a = true) (newer : Option ℕ) :
    setNewer a newer w = some ((), { w with newer := Function.update w.newer a newer }) := if_pos held

theorem giveBack_ends (live : w.heap.live = blocks + {b}) :
    Ends (giveBack b) w fun _ t => ∃ heap, t = { w with heap := heap } ∧ heap.live = blocks := by
  obtain ⟨next, given, left⟩ := Heap.giveBack_held live
  refine ⟨(), { w with heap := next }, ?_, next, rfl, left⟩
  rw [giveBack, given]
  rfl

/-! ## The list -/

def World.relink (w : World) (older newer : ℕ → Option ℕ) (oldest newest : Option ℕ) : World :=
  { w with older := older, newer := newer, oldest := oldest, newest := newest }

/-- Only the links have changed, to those of a list. -/
def Relinked (order : List ℕ) (w t : World) : Prop :=
  ∃ older newer oldest newest, t = w.relink older newer oldest newest ∧
    Linked older newer oldest newest order

theorem cacheUnlink_ends (linked : Linked w.older w.newer w.oldest w.newest (before ++ a :: after))
    (held : ∀ b ∈ before ++ a :: after, w.holds b = true) :
    Ends (cacheUnlink a) w fun _ t => Relinked (before ++ after) w t := by
  obtain ⟨olderA, newerA⟩ := linked.links before a after rfl
  have holdsA := held a (List.mem_append_right _ List.mem_cons_self)
  have unlinked : Linked (fun b => if w.newer a = some b then w.older a else w.older b)
      (fun b => if w.older a = some b then w.newer a else w.newer b) _ _ (before ++ after) :=
    linked.unlink (fun _ _ => rfl) fun _ _ => rfl
  have within : ∀ b, b ∈ before ++ after → w.holds b = true := by
    intro b member
    rcases List.mem_append.mp member with early | late
    · exact held b (List.mem_append_left _ early)
    · exact held b (List.mem_append_right _ (List.mem_cons_of_mem a late))
  refine Ends.step (links_run holdsA) ?_
  cases olderIs : w.older a with
  | none =>
      refine Ends.step rfl (Ends.step (links_run holdsA) ?_)
      simp only [olderIs, Option.isSome_none, Bool.false_eq_true, if_false] at unlinked ⊢
      cases newerIs : w.newer a with
      | none =>
          refine ⟨(), _, rfl, w.older, w.newer, none, none, rfl, ?_⟩
          rw [newerIs] at unlinked
          exact unlinked.congr (fun b _ => by simp) fun b _ => by simp
      | some n =>
          have holdsN := within n (List.mem_append_right _ (List.mem_of_mem_head? (newerA ▸ newerIs)))
          refine ⟨(), _, setOlder_run (by exact holdsN) _, _, w.newer, some n, w.newest, rfl, ?_⟩
          rw [newerIs] at unlinked
          refine unlinked.congr (fun b _ => ?_) fun b _ => by simp
          simp [Function.update_apply, eq_comm]
  | some o =>
      have early : o ∈ before := List.mem_of_getLast? (olderA ▸ olderIs)
      have holdsO := within o (List.mem_append_left _ early)
      have other : a ≠ o := (Linked.before_ne linked.distinct early).symm
      refine Ends.step (setNewer_run holdsO _) ?_
      refine Ends.step (links_run holdsA) ?_
      simp only [Function.update_of_ne other, olderIs, Option.isSome_some, if_true] at unlinked ⊢
      cases newerIs : w.newer a with
      | none =>
          refine ⟨(), _, rfl, w.older, _, w.oldest, some o, rfl, ?_⟩
          rw [newerIs] at unlinked
          refine unlinked.congr (fun b _ => by simp) fun b _ => ?_
          simp [Function.update_apply, eq_comm]
      | some n =>
          have holdsN := within n (List.mem_append_right _ (List.mem_of_mem_head? (newerA ▸ newerIs)))
          refine ⟨(), _, setOlder_run (by exact holdsN) _, _, _, w.oldest, w.newest, rfl, ?_⟩
          rw [newerIs] at unlinked
          refine unlinked.congr (fun b _ => ?_) fun b _ => ?_
          · simp [Function.update_apply, eq_comm]
          · simp [Function.update_apply, eq_comm]

theorem cacheMakeNewest_ends (linked : Linked w.older w.newer w.oldest w.newest order)
    (held : ∀ b ∈ order, w.holds b = true) (fresh : a ∉ order) (holdsA : w.holds a = true) :
    Ends (cacheMakeNewest a) w fun _ t => Relinked (order ++ [a]) w t := by
  refine Ends.step (setNewer_run holdsA none) (Ends.step rfl ?_)
  refine Ends.step (setOlder_run (by exact holdsA) _) ?_
  have apart : ∀ b ∈ order, b ≠ a := fun b member same => fresh (same ▸ member)
  have last := linked.last
  cases newestIs : w.newest with
  | none =>
      refine Ends.step rfl ⟨(), _, rfl, _, _, some a, some a, rfl, ?_⟩
      have pushed : Linked (Function.update w.older a w.newest) (Function.update w.newer a none)
          (if w.newest.isSome then w.oldest else some a) (some a) (order ++ [a]) := by
        refine linked.push fresh (Function.update_self ..) (Function.update_self ..)
          (fun b member => Function.update_of_ne (apart b member) ..) fun b member => ?_
        rw [Function.update_of_ne (apart b member), newestIs, if_neg (by simp)]
      rw [newestIs] at pushed
      exact pushed
  | some n =>
      have member : n ∈ order := List.mem_of_getLast? (last ▸ newestIs)
      refine Ends.step (setNewer_run (by exact held n member) _) ?_
      refine ⟨(), _, rfl, _, _, w.oldest, some a, rfl, ?_⟩
      have pushed : Linked (Function.update w.older a w.newest)
          (Function.update (Function.update w.newer a none) n (some a))
          (if w.newest.isSome then w.oldest else some a) (some a) (order ++ [a]) := by
        refine linked.push fresh (Function.update_self ..) ?_
          (fun b member => Function.update_of_ne (apart b member) ..) fun b inside => ?_
        · rw [Function.update_of_ne (apart n member).symm, Function.update_self]
        · rw [Function.update_apply, Function.update_of_ne (apart b inside), newestIs]
          simp only [Option.some.injEq, eq_comm]
      rw [newestIs] at pushed
      exact pushed

/-! ## Removing entries -/

theorem cmaFree_ends {base : Option ℕ} (live : w.heap.live = blocks + blockOf base) :
    Ends (cmaFree base n) w fun _ t => ∃ heap frees, t = { w with
      heap := heap
      currentCmaBytes := w.currentCmaBytes - base.elim 0 fun _ => .ofNat n
      freeCount := frees } ∧ heap.live = blocks := by
  cases base with
  | none =>
      refine Ends.pure ⟨w.heap, w.freeCount, ?_, by simpa using live⟩
      rw [Option.elim_none, UInt32.sub_zero]
  | some b =>
      refine (giveBack_ends live).bind fun _ t given => ?_
      obtain ⟨heap, rfl, left⟩ := given
      exact Ends.write ⟨heap, _, rfl, left⟩

theorem sessionRelease_ends (stays : w.sessions.Perm (s :: others))
    (distinct : (w.sessions.map fun s => s.address).Nodup)
    (live : w.heap.live = blocks + s.ownBlocks) :
    Ends (sessionRelease s.address) w fun _ t => ∃ heap frees sessions, t = { w with
      heap := heap
      sessions := sessions
      currentCmaBytes := w.currentCmaBytes - s.cma
      freeCount := frees } ∧ heap.live = blocks ∧ sessions.Perm others := by
  have member : s ∈ w.sessions := stays.mem_iff.mpr List.mem_cons_self
  have unique := (stays.map fun s => s.address).nodup_iff.mp distinct
  have apart : ∀ o ∈ others, o.address ≠ s.address := by
    intro o inside same
    exact (List.nodup_cons.mp unique).1 (List.mem_map.mpr ⟨o, inside, same⟩)
  have removed := removed_perm stays apart
  rw [Session.ownBlocks, ← add_assoc, ← add_assoc] at live
  refine Ends.step (session_run distinct member) ?_
  refine Ends.bind (?_ : Ends _ w fun _ t => ∃ heap, t = { w with heap := heap } ∧
    heap.live = blocks + {s.address} + blockOf s.allocationBase) fun _ t found => ?_
  · cases buffer : s.heapBuf with
    | none =>
        rw [buffer] at live
        exact Ends.pure ⟨w.heap, rfl, by simpa using live⟩
    | some buf =>
        rw [buffer] at live
        exact giveBack_ends live
  obtain ⟨heap, rfl, live⟩ := found
  refine (cmaFree_ends live).bind fun _ t found => ?_
  obtain ⟨heap, frees, rfl, live⟩ := found
  refine (giveBack_ends live).bind fun _ t found => ?_
  obtain ⟨heap, rfl, live⟩ := found
  exact Ends.write ⟨heap, frees, _, rfl, live, removed⟩

/-- A session was removed and nothing else. -/
structure Removed (a : ℕ) (w t : World) : Prop where
  members : ∀ o, o ∈ t.sessions ↔ o ∈ w.sessions ∧ o.address ≠ a
  length : t.sessions.length + 1 = w.sessions.length
  log : t.log = w.log
  limit : t.limitBytes = w.limitBytes
  descriptors : t.descriptors = w.descriptors
  bytes : t.bytes.toNat ≤ w.bytes.toNat

theorem removed_of_perm (perm : w.sessions.Perm (s :: others)) (kept : t.sessions.Perm others)
    (apart : ∀ o ∈ others, o.address ≠ s.address) (log : t.log = w.log)
    (limit : t.limitBytes = w.limitBytes) (descriptors : t.descriptors = w.descriptors)
    (bytes : t.bytes.toNat ≤ w.bytes.toNat) : Removed s.address w t where
  members o := by
    rw [kept.mem_iff, perm.mem_iff, List.mem_cons]
    constructor
    · exact fun inside => ⟨.inr inside, apart o inside⟩
    · rintro ⟨rfl | inside, other⟩
      · exact absurd rfl other
      · exact inside
  length := by rw [kept.length_eq, perm.length_eq, List.length_cons]
  log := log
  limit := limit
  descriptors := descriptors
  bytes := bytes

theorem Kept.holds (kept : Kept config trace hand size order w) : ∀ b ∈ order, w.holds b = true := by
  intro b member
  obtain ⟨s, inside, rfl, _⟩ := (kept.stock.listed b).mp member
  exact holds_of_mem inside

theorem cacheRemove_ends (kept : Kept config trace hand size (before ++ s.address :: after) w)
    (member : s ∈ w.sessions) (idle : s.refs = 0) :
    Ends (cacheRemove s.address) w fun _ t =>
      Kept config trace hand size (before ++ after) t ∧ Removed s.address w t := by
  have stock := kept.stock
  have distinct := stock.distinct
  have listed : s.address ∈ before ++ s.address :: after :=
    List.mem_append_right _ List.mem_cons_self
  have cached : s.cached = true := (stock.cached_iff member).mpr listed
  obtain ⟨others, perm, apart⟩ := focus distinct member
  have alone := stock.perm perm
  have whole : w.heap.live =
      hand + (others.map fun s => s.blocks).sum + s.ownBlocks + s.key.keyBlock := by
    rw [alone.live, List.map_cons, List.sum_cons, Session.blocks]
    ac_rfl
  have paid : s.cost = s.cacheCost.toNat := if_pos cached
  have small : s.cacheCost.toNat ≤ w.bytes.toNat := paid ▸ cost_le alone
  refine (cacheUnlink_ends kept.linked kept.holds).bind fun _ t found => ?_
  obtain ⟨older, newer, oldest, newest, rfl, linked⟩ := found
  refine Ends.step (session_run distinct member) (Ends.step rfl ?_)
  refine Ends.bind (?_ : Ends _ _ fun _ t => ∃ heap, t = { w.relink older newer oldest newest with
    heap := heap, bytes := w.bytes - s.cacheCost, entries := w.entries - 1 } ∧
    heap.live = hand + (others.map fun s => s.blocks).sum + s.ownBlocks) fun _ t found => ?_
  · cases key : s.key with
    | file text block =>
        rw [key] at whole
        exact giveBack_ends whole
    | unset =>
        rw [key] at whole
        exact Ends.pure ⟨w.heap, rfl, whole.trans (add_zero _)⟩
    | descriptor pointer =>
        rw [key] at whole
        exact Ends.pure ⟨w.heap, rfl, whole.trans (add_zero _)⟩
  obtain ⟨heap, rfl, live⟩ := found
  refine Ends.step (setSession_run (by exact holds_of_mem member)) ?_
  have next : (changed s.address .uncached w.sessions).Perm (s.uncached :: others) :=
    changed_perm perm apart
  have still : ((changed s.address .uncached w.sessions).map fun s => s.address).Nodup := by
    rw [(next.map _).nodup_iff]
    exact (perm.map fun s => s.address).nodup_iff.mp distinct
  refine (sessionRelease_ends (s := s.uncached) next still live).mono fun _ t found => ?_
  obtain ⟨heap, frees, sessions, rfl, live, left⟩ := found
  have bytesLeft : (w.bytes - s.cacheCost).toNat + s.cost = w.bytes.toNat := by
    rw [paid, UInt32.toNat_sub_of_le _ _ (UInt32.le_iff_toNat_le.mpr small)]
    exact Nat.sub_add_cancel small
  have length : (before ++ s.address :: after).length = (before ++ after).length + 1 := by
    simp only [List.length_append, List.length_cons, add_assoc]
  have entriesLeft : (w.entries - 1).toNat = (before ++ after).length := by
    have entries := alone.entries
    rw [length] at entries
    have some : (1 : UInt32) ≤ w.entries := by
      rw [UInt32.le_iff_toNat_le]
      change 1 ≤ w.counters.entries.toNat
      rw [entries]
      exact Nat.le_add_left 1 _
    rw [UInt32.toNat_sub_of_le _ _ some]
    change w.counters.entries.toNat - 1 = _
    rw [entries]
    rfl
  have remain : ∀ a, a ∈ before ++ after ↔ a ∈ before ++ s.address :: after ∧ a ≠ s.address := by
    intro a
    constructor
    · intro inside
      refine ⟨((List.sublist_cons_self _ _).append_left before).subset inside, ?_⟩
      rcases List.mem_append.mp inside with early | late
      · exact Linked.before_ne kept.linked.distinct early
      · exact Linked.after_ne kept.linked.distinct late
    · rintro ⟨inside, other⟩
      rcases List.mem_append.mp inside with early | late
      · exact List.mem_append_left _ early
      · exact List.mem_append_right _ ((List.mem_cons.mp late).resolve_left other)
  have less : (before ++ after).Sublist (before ++ s.address :: after) :=
    (List.sublist_cons_self s.address after).append_left before
  refine ⟨⟨linked, ?_, ?_, kept.told⟩, ?_⟩
  · have leaves : Stock config (before ++ after) w.descriptors hand size
        ⟨w.bytes - s.cacheCost, w.entries - 1, w.openSessions, w.currentCmaBytes - s.cma⟩ heap.live
        others := by
      refine alone.leave idle remain entriesLeft less.length_le bytesLeft rfl rfl ?_
      rw [whole, live, Session.blocks, add_assoc]
    exact leaves.perm left.symm
  · refine kept.notes.subset less fun o inside _ => ?_
    exact perm.mem_iff.mpr (List.mem_cons_of_mem s (left.mem_iff.mp inside))
  · refine removed_of_perm perm left apart rfl rfl rfl ?_
    exact (Nat.le_add_right _ _).trans bytesLeft.le

/-! ## Eviction -/

theorem Kept.tell (kept : Kept config trace hand size order w)
    (unused : ∀ a ∈ order, e.uses a = false)
    (spared : ∀ s ∈ w.sessions, s.valid → ∀ src, s.key.keyMatches src = true → e.spares src)
    (justified : Justified config (trace ++ w.log) e) :
    Kept config trace hand size order { w with log := w.log ++ [e] } where
  linked := kept.linked
  stock := kept.stock
  notes := by
    change Notes (trace ++ (w.log ++ [e])) order w.sessions
    rw [← List.append_assoc]
    exact kept.notes.snoc unused spared
  told := by
    change Told config (trace ++ (w.log ++ [e]))
    rw [← List.append_assoc]
    exact kept.told.snoc justified

theorem Kept.session (kept : Kept config trace hand size order w) (member : a ∈ order) :
    ∃ s ∈ w.sessions, s.address = a ∧ s.cached = true := (kept.stock.listed a).mp member

theorem Kept.short (kept : Kept config trace hand size order w) : order.length ≤ w.sessions.length := by
  have inside : order ⊆ w.sessions.map fun s => s.address := by
    intro a member
    obtain ⟨s, found, same, _⟩ := kept.session member
    exact List.mem_map.mpr ⟨s, found, same⟩
  have fits := (List.subperm_of_subset kept.linked.distinct inside).length_le
  rwa [List.length_map] at fits

/-- Some entries without descriptors have left the cache. -/
structure Evicts (w t : World) : Prop where
  sessions : ∀ s ∈ t.sessions, s ∈ w.sessions
  uncached : ∀ s ∈ w.sessions, s.cached = false → s ∈ t.sessions
  limit : t.limitBytes = w.limitBytes
  bytes : t.bytes.toNat ≤ w.bytes.toNat
  descriptors : t.descriptors = w.descriptors
  log : ∃ events, t.log = w.log ++ events ∧ ∀ e ∈ events, ∃ a idle, e = .evicted a idle

theorem Evicts.refl (w : World) : Evicts w w where
  sessions _ member := member
  uncached _ member _ := member
  limit := rfl
  bytes := le_rfl
  descriptors := rfl
  log := ⟨[], (List.append_nil _).symm, fun e member => absurd member List.not_mem_nil⟩

theorem Evicts.trans (first : Evicts w t) (second : Evicts t u) : Evicts w u where
  sessions s member := first.sessions s (second.sessions s member)
  uncached s member uncached := second.uncached s (first.uncached s member uncached) uncached
  limit := second.limit.trans first.limit
  bytes := second.bytes.trans first.bytes
  descriptors := second.descriptors.trans first.descriptors
  log := by
    obtain ⟨early, same, evicted⟩ := first.log
    obtain ⟨late, told, more⟩ := second.log
    refine ⟨early ++ late, by rw [told, same, List.append_assoc], fun e member => ?_⟩
    rcases List.mem_append.mp member with inside | inside
    · exact evicted e inside
    · exact more e inside

/-- The oldest entry without descriptors is the one that was not used for the longest time. -/
theorem Kept.oldest_idle (kept : Kept config trace hand size (before ++ s.address :: after) w)
    (member : s ∈ w.sessions) (idle : s.refs = 0)
    (busy : ∀ t ∈ w.sessions, t.address ∈ before → t.refs ≠ 0) :
    Justified config (trace ++ w.log) (.evicted s.address w.idle) := by
  have mem_idle : ∀ b, b ∈ w.idle ↔ ∃ t ∈ w.sessions, (t.cached = true ∧ t.refs = 0) ∧ t.address = b := by
    intro b
    simp only [World.idle, List.mem_map, List.mem_filter, Bool.and_eq_true, beq_iff_eq, and_assoc]
  have listed : s.address ∈ before ++ s.address :: after :=
    List.mem_append_right _ List.mem_cons_self
  refine ⟨(mem_idle _).mpr ⟨s, member, ⟨(kept.stock.cached_iff member).mpr listed, idle⟩, rfl⟩, ?_⟩
  intro b found other
  obtain ⟨t, inside, ⟨cached, free⟩, rfl⟩ := (mem_idle b).mp found
  rcases List.mem_append.mp ((kept.stock.cached_iff inside).mp cached) with early | late
  · exact absurd free (busy t inside early)
  · have later := (List.mem_cons.mp late).resolve_left other
    have recent := (List.pairwise_append.mp kept.notes.recent).2.1
    exact (List.pairwise_cons.mp recent).1 t.address later

theorem evictFrom_ends (kept : Kept config trace hand size (before ++ rest) w)
    (busy : ∀ s ∈ w.sessions, s.address ∈ before → s.refs ≠ 0) (fuel : rest.length < n) :
    Ends (evictFrom n rest.head?) w fun r t => (∃ order, Kept config trace hand size order t) ∧
      Evicts w t ∧ (r = true → t.sessions.length + 1 = w.sessions.length) ∧
      (r = false → t = w ∧ ∀ s ∈ w.sessions, s.cached = true → s.refs ≠ 0) := by
  induction rest generalizing before n with
  | nil =>
      cases n with
      | zero => exact absurd fuel (Nat.not_lt_zero _)
      | succ n =>
          rw [List.append_nil] at kept
          refine Ends.pure ⟨⟨before, kept⟩, .refl w, (fun no => by cases no), fun _ => ⟨rfl, ?_⟩⟩
          intro s member cached
          exact busy s member ((kept.stock.cached_iff member).mp cached)
  | cons a rest ih =>
      cases n with
      | zero => exact absurd fuel (Nat.not_lt_zero _)
      | succ n =>
          have listed : a ∈ before ++ a :: rest := List.mem_append_right _ List.mem_cons_self
          obtain ⟨s, member, rfl, cached⟩ := kept.session listed
          refine Ends.step (session_run kept.stock.distinct member) ?_
          by_cases idle : s.refs = 0
          · rw [if_pos idle]
            have told := kept.tell (e := .evicted s.address w.idle) (fun _ _ => rfl)
              (fun _ _ _ _ _ => ⟨by simp, by simp, by simp⟩) (kept.oldest_idle member idle busy)
            refine Ends.step rfl (Ends.step rfl ?_)
            refine (cacheRemove_ends told member idle).bind fun _ t found => ?_
            obtain ⟨left, removed⟩ := found
            refine Ends.step rfl (Ends.pure ⟨⟨_, ⟨left.linked, left.stock, left.notes, left.told⟩⟩,
              ⟨?_, ?_, removed.limit, removed.bytes, removed.descriptors, ?_⟩, ?_, ?_⟩)
            · exact fun o inside => ((removed.members o).mp inside).1
            · intro o inside uncached
              refine (removed.members o).mpr ⟨inside, fun same => ?_⟩
              have unique := List.inj_on_of_nodup_map kept.stock.distinct inside member same
              rw [unique, cached] at uncached
              cases uncached
            · refine ⟨[.evicted s.address w.idle], removed.log, fun e inside => ?_⟩
              exact ⟨_, _, List.mem_singleton.mp inside⟩
            · exact fun _ => removed.length
            · exact fun no => by cases no
          · rw [if_neg idle]
            refine Ends.step (links_run (holds_of_mem member)) ?_
            have next := (kept.linked.links before s.address rest rfl).2
            simp only [next]
            have moved : before ++ s.address :: rest = before ++ [s.address] ++ rest := by simp
            rw [moved] at kept
            refine ih kept (fun o inside early => ?_) (Nat.lt_of_succ_lt_succ fuel)
            rcases List.mem_append.mp early with earlier | last
            · exact busy o inside earlier
            · have same := List.mem_singleton.mp last
              rw [List.inj_on_of_nodup_map kept.stock.distinct inside member same]
              exact idle

theorem cacheEvictOne_ends (kept : Kept config trace hand size order w) :
    Ends cacheEvictOne w fun r t => (∃ order, Kept config trace hand size order t) ∧
      Evicts w t ∧ (r = true → t.sessions.length + 1 = w.sessions.length) ∧
      (r = false → t = w ∧ ∀ s ∈ w.sessions, s.cached = true → s.refs ≠ 0) := by
  have first : w.oldest = order.head? := kept.linked.first
  have whole : Kept config trace hand size ([] ++ order) w := kept
  have found := evictFrom_ends whole (fun _ _ early => absurd early List.not_mem_nil)
    (Nat.lt_succ_of_le kept.short)
  rw [← first] at found
  obtain ⟨answer, t, ran, post⟩ := found
  exact ⟨answer, t, ran, post⟩

/-- An allocation of contiguous memory evicts entries until it succeeds or none is idle. -/
theorem cmaAllocFrom_ends {length : ℕ} (kept : Kept config trace hand size order w)
    (fuel : w.sessions.length < n) :
    Ends (cmaAllocFrom length n) w fun base t => Evicts w t ∧
      ∃ order, Kept config trace (hand + blockOf base)
        (size + base.elim 0 fun _ => .ofNat length) order t := by
  induction n generalizing w order with
  | zero => exact absurd fuel (Nat.not_lt_zero _)
  | succ n ih =>
      have asked : Kept config trace hand size order { w with asked := w.asked + 1 } :=
        ⟨kept.linked, kept.stock, kept.notes, kept.told⟩
      refine Ends.step rfl ?_
      split
      · refine Ends.step rfl (Ends.step rfl (Ends.pure ⟨?_, order, kept.linked, ?_, kept.notes, kept.told⟩))
        · exact ⟨fun _ member => member, fun _ member _ => member, rfl, le_rfl, rfl, [],
            (List.append_nil _).symm, fun e member => absurd member List.not_mem_nil⟩
        · have held := kept.stock.hold {w.heap.fresh} (.ofNat length)
          rw [← Heap.take_live] at held
          exact held
      · refine (cacheEvictOne_ends asked).bind fun evicted t found => ?_
        obtain ⟨⟨order, left⟩, evicts, fewer, none⟩ := found
        have early : Evicts w t :=
          ⟨evicts.sessions, evicts.uncached, evicts.limit, evicts.bytes, evicts.descriptors, evicts.log⟩
        cases evicted with
        | false =>
            refine Ends.pure ⟨early, order, ?_⟩
            rw [blockOf_none, add_zero, Option.elim_none, UInt32.add_zero]
            exact left
        | true =>
            have shorter := fewer rfl
            have sized : t.sessions.length + 1 = w.sessions.length := shorter
            refine (ih left (by omega)).mono fun base u found => ?_
            obtain ⟨late, more⟩ := found
            exact ⟨early.trans late, more⟩

/-! ## Dropping -/

/-- One session is changed in a way that the notes do not see, with memory from the hand of the
call or into it. -/
theorem Kept.adjust {moreHand : Multiset ℕ} {moreSize : UInt32}
    (kept : Kept config trace hand size order w) (member : s ∈ w.sessions)
    (address : (alter s).address = s.address) (cached : (alter s).cached = s.cached)
    (cost : (alter s).cost = s.cost) (refs : (alter s).refs = s.refs)
    (blocks : hand + s.blocks = moreHand + (alter s).blocks)
    (cma : size + s.cma = moreSize + (alter s).cma)
    (face : (alter s).valid → s.valid ∧ s.face = (alter s).face) :
    Kept config trace moreHand moreSize order
      { w with sessions := changed s.address alter w.sessions } := by
  obtain ⟨others, perm, apart⟩ := focus kept.stock.distinct member
  have alone := kept.stock.perm perm
  have after : (changed s.address alter w.sessions).Perm (alter s :: others) :=
    changed_perm perm apart
  refine ⟨kept.linked, ?_, ?_, kept.told⟩
  · have live := alone.live
    have counted := alone.cma
    rw [List.map_cons, List.sum_cons, ← add_assoc] at live counted
    exact (alone.change address cached cost refs (blocks ▸ live) (cma ▸ counted)).perm after.symm
  · refine kept.notes.fewer (.refl _) fun o inside valid => ?_
    rcases List.mem_cons.mp (after.mem_iff.mp inside) with rfl | other
    · exact ⟨s, member, face valid⟩
    · exact ⟨o, perm.mem_iff.mpr (List.mem_cons_of_mem s other), valid, rfl⟩

/-- Some entries were marked, or have left the cache because they had no descriptors. -/
structure Drops (w t : World) : Prop where
  sessions : ∀ s ∈ t.sessions,
    s ∈ w.sessions ∨ ∃ o ∈ w.sessions, o.cached = true ∧ o.refs ≠ 0 ∧ s = o.invalidate
  limit : t.limitBytes = w.limitBytes
  bytes : t.bytes.toNat ≤ w.bytes.toNat
  descriptors : t.descriptors = w.descriptors
  log : t.log = w.log

theorem Drops.trans (first : Drops w t) (second : Drops t u) : Drops w u where
  sessions s member := by
    rcases second.sessions s member with inside | ⟨o, inside, cached, refs, rfl⟩
    · exact first.sessions s inside
    · rcases first.sessions o inside with early | ⟨p, early, kept, held, rfl⟩
      · exact .inr ⟨o, early, cached, refs, rfl⟩
      · exact .inr ⟨p, early, kept, held, rfl⟩
  limit := second.limit.trans first.limit
  bytes := second.bytes.trans first.bytes
  descriptors := second.descriptors.trans first.descriptors
  log := second.log.trans first.log

theorem mem_changed {o : Session} (inside : o ∈ changed a alter sessions) :
    (o ∈ sessions ∧ o.address ≠ a) ∨ ∃ s ∈ sessions, s.address = a ∧ o = alter s := by
  obtain ⟨s, member, same⟩ := List.mem_map.mp inside
  split at same
  · rename_i here
    exact .inr ⟨s, member, here, same.symm⟩
  · rename_i elsewhere
    exact .inl (same ▸ ⟨member, elsewhere⟩)

theorem dropFrom_ends {src : Option ImageSrc}
    (kept : Kept config trace hand size (before ++ rest) w)
    (marked : ∀ s ∈ w.sessions, s.address ∈ before → s.key.drops src = true → s.invalidated = true)
    (fuel : rest.length < n) :
    Ends (dropFrom src n rest.head?) w fun _ t => (∃ order, Kept config trace hand size order t) ∧
      Drops w t ∧ ∀ s ∈ t.sessions, s.cached = true → s.key.drops src = true →
        s.invalidated = true := by
  induction rest generalizing before n w with
  | nil =>
      cases n with
      | zero => exact absurd fuel (Nat.not_lt_zero _)
      | succ n =>
          rw [List.append_nil] at kept
          refine Ends.pure ⟨⟨before, kept⟩, ⟨fun s member => .inl member, rfl, le_rfl, rfl, rfl⟩, ?_⟩
          intro s member cached
          exact marked s member ((kept.stock.cached_iff member).mp cached)
  | cons a rest ih =>
      cases n with
      | zero => exact absurd fuel (Nat.not_lt_zero _)
      | succ n =>
          have short : rest.length < n := Nat.lt_of_succ_lt_succ fuel
          have listed : a ∈ before ++ a :: rest := List.mem_append_right _ List.mem_cons_self
          obtain ⟨s, member, rfl, cached⟩ := kept.session listed
          have unique : ∀ o ∈ w.sessions, o.address = s.address → o = s := fun o inside same =>
            List.inj_on_of_nodup_map kept.stock.distinct inside member same
          have moved : before ++ s.address :: rest = before ++ [s.address] ++ rest := by simp
          have next := (kept.linked.links before s.address rest rfl).2
          refine Ends.step (links_run (holds_of_mem member)) ?_
          refine Ends.step (session_run kept.stock.distinct member) ?_
          simp only [next]
          by_cases drops : s.key.drops src = true
          · rw [if_pos drops]
            have still : Kept config trace hand size (before ++ s.address :: rest)
                { w with sessions := changed s.address .invalidate w.sessions } :=
              kept.adjust member rfl rfl rfl rfl rfl rfl fun valid => by cases valid.2
            have there : s.invalidate ∈ changed s.address .invalidate w.sessions :=
              List.mem_map.mpr ⟨s, member, if_pos rfl⟩
            refine Ends.bind (?_ : Ends _ w fun _ t => ∃ front,
              Kept config trace hand size (front ++ rest) t ∧ Drops w t ∧ ∀ o ∈ t.sessions,
                o.address ∈ front → o.key.drops src = true → o.invalidated = true) ?_
            · refine Ends.step (setSession_run (holds_of_mem member)) ?_
              by_cases idle : s.refs = 0
              · rw [if_pos idle]
                refine (cacheRemove_ends (s := s.invalidate) still there idle).mono fun _ t found => ?_
                obtain ⟨left, removed⟩ := found
                have members : ∀ o ∈ t.sessions, o ∈ w.sessions := by
                  intro o inside
                  obtain ⟨stays, other⟩ := (removed.members o).mp inside
                  rcases mem_changed stays with early | ⟨p, _, same, rfl⟩
                  · exact early.1
                  · exact absurd same other
                refine ⟨before, left, ⟨fun o inside => .inl (members o inside), removed.limit,
                  removed.bytes, removed.descriptors, removed.log⟩, fun o inside early => ?_⟩
                exact marked o (members o inside) early
              · rw [if_neg idle]
                rw [moved] at still
                refine Ends.pure ⟨before ++ [s.address], still, ⟨fun o inside => ?_, rfl, le_rfl, rfl, rfl⟩,
                  fun o inside early => ?_⟩
                · rcases mem_changed inside with early | ⟨p, found, same, rfl⟩
                  · exact .inl early.1
                  · rw [unique p found same]
                    exact .inr ⟨s, member, cached, idle, rfl⟩
                · rcases mem_changed inside with ⟨found, other⟩ | ⟨p, found, same, rfl⟩
                  · rcases List.mem_append.mp early with earlier | last
                    · exact marked o found earlier
                    · exact absurd (List.mem_singleton.mp last) other
                  · exact fun _ => rfl
            · rintro _ t ⟨front, kept, dropped, marked⟩
              refine (ih kept marked short).mono fun _ u found => ?_
              exact ⟨found.1, dropped.trans found.2.1, found.2.2⟩
          · rw [if_neg drops]
            rw [moved] at kept
            refine Ends.step rfl (ih kept (fun o inside early dropping => ?_) short)
            rcases List.mem_append.mp early with earlier | last
            · exact marked o inside earlier dropping
            · rw [unique o inside (List.mem_singleton.mp last)] at dropping
              exact absurd dropping drops

theorem cacheDropLocked_ends {src : Option ImageSrc} (kept : Kept config trace hand size order w) :
    Ends (cacheDropLocked src) w fun _ t => (∃ order, Kept config trace hand size order t) ∧
      Drops w t ∧ ∀ s ∈ t.sessions, s.cached = true → s.key.drops src = true →
        s.invalidated = true := by
  have first : w.oldest = order.head? := kept.linked.first
  have whole : Kept config trace hand size ([] ++ order) w := kept
  have found : Ends (dropFrom src (w.sessions.length + 1) order.head?) w _ :=
    dropFrom_ends whole (fun _ _ early => absurd early List.not_mem_nil)
      (Nat.lt_succ_of_le kept.short)
  rw [← first] at found
  obtain ⟨answer, t, ran, post⟩ := found
  exact ⟨answer, t, ran, post⟩

theorem shrink_ends (kept : Kept config trace hand size order w) (fuel : w.sessions.length < n) :
    Ends (shrink bytes n) w fun _ t => (∃ order, Kept config trace hand size order t) ∧
      Evicts w t ∧ (bytes < t.bytes → ∀ s ∈ t.sessions, s.cached = true → s.refs ≠ 0) := by
  induction n generalizing w order with
  | zero => exact absurd fuel (Nat.not_lt_zero _)
  | succ n ih =>
      refine Ends.step rfl ?_
      split
      · refine (cacheEvictOne_ends kept).bind fun evicted t found => ?_
        obtain ⟨⟨order, left⟩, evicts, fewer, none⟩ := found
        cases evicted with
        | false =>
            obtain ⟨rfl, busy⟩ := none rfl
            exact Ends.pure ⟨⟨order, left⟩, evicts, fun _ => busy⟩
        | true =>
            have shorter := fewer rfl
            refine (ih left (by omega)).mono fun _ u found => ?_
            exact ⟨found.1, evicts.trans found.2.1, found.2.2⟩
      · rename_i small
        exact Ends.pure ⟨⟨order, kept⟩, .refl w, fun large => absurd large small⟩

/-! ## Between the calls -/

/-- No session is forgotten: one that is not in the cache has a descriptor, and so has an entry
that is no longer valid. -/
structure Tidy (w : World) : Prop where
  loose : ∀ s ∈ w.sessions, s.cached = false → s.refs ≠ 0 ∧ s.key = .unset
  calm : ∀ s ∈ w.sessions, s.cached = true → s.invalidated = true → s.refs ≠ 0

/-- Entries without descriptors stay within the limit. -/
def Within (w : World) : Prop :=
  w.limitBytes < w.bytes → ∀ s ∈ w.sessions, s.cached = true → s.refs ≠ 0

theorem Tidy.drops (tidy : Tidy w) (drops : Drops w t) : Tidy t where
  loose s member uncached := by
    rcases drops.sessions s member with inside | ⟨o, inside, cached, refs, rfl⟩
    · exact tidy.loose s inside uncached
    · exact absurd (cached.symm.trans uncached) nofun
  calm s member cached invalidated := by
    rcases drops.sessions s member with inside | ⟨o, inside, cached, refs, rfl⟩
    · exact tidy.calm s inside cached invalidated
    · exact refs

theorem Tidy.evicts (tidy : Tidy w) (evicts : Evicts w t) : Tidy t where
  loose s member := tidy.loose s (evicts.sessions s member)
  calm s member := tidy.calm s (evicts.sessions s member)

theorem Within.less (within : Within w) (limit : t.limitBytes = w.limitBytes)
    (bytes : t.bytes.toNat ≤ w.bytes.toNat)
    (sessions : ∀ s ∈ t.sessions, s.cached = true →
      s.refs ≠ 0 ∨ ∃ o ∈ w.sessions, o.cached = true ∧ o.refs = s.refs) : Within t := by
  intro large s member cached
  have larger : w.limitBytes < w.bytes := by
    rw [limit, UInt32.lt_iff_toNat_lt] at large
    exact UInt32.lt_iff_toNat_lt.mpr (large.trans_le bytes)
  rcases sessions s member cached with held | ⟨o, inside, kept, same⟩
  · exact held
  · exact same ▸ within larger o inside kept

theorem Within.evicts (within : Within w) (evicts : Evicts w t) : Within t :=
  within.less evicts.limit evicts.bytes fun s member cached =>
    .inr ⟨s, evicts.sessions s member, cached, rfl⟩

theorem Within.drops (within : Within w) (drops : Drops w t) : Within t := by
  refine within.less drops.limit drops.bytes fun s member cached => ?_
  rcases drops.sessions s member with inside | ⟨o, _, _, refs, rfl⟩
  · exact .inr ⟨s, inside, cached, rfl⟩
  · exact .inl refs

/-- What holds of the cache between the calls. -/
structure Standing (config : Config) (trace : List Event) (w : World) : Prop where
  kept : ∃ order, Kept config trace 0 0 order w
  tidy : Tidy w
  within : Within w

theorem Standing.subset (standing : Standing config trace w)
    (kept : ∃ order, Kept config trace 0 0 order t) (sessions : ∀ s ∈ t.sessions, s ∈ w.sessions)
    (limit : t.limitBytes = w.limitBytes) (bytes : t.bytes.toNat ≤ w.bytes.toNat) :
    Standing config trace t where
  kept := kept
  tidy := ⟨fun s member => standing.tidy.loose s (sessions s member),
    fun s member => standing.tidy.calm s (sessions s member)⟩
  within := standing.within.less limit bytes fun s member cached =>
    .inr ⟨s, sessions s member, cached, rfl⟩

theorem cacheDrop_ends {src : Option ImageSrc} (standing : Standing config trace w) :
    Ends (cacheDrop src) w fun _ t => Standing config trace t ∧ t.descriptors = w.descriptors ∧
      ∀ s ∈ t.sessions, s.cached = true → s.key.drops src = true → s.invalidated = true := by
  obtain ⟨⟨order, kept⟩, tidy, within⟩ := standing
  refine (cacheDropLocked_ends kept).bind fun _ t found => ?_
  obtain ⟨⟨order, left⟩, drops, marked⟩ := found
  have tidied := tidy.drops drops
  have inside : Within t := within.drops drops
  refine Ends.write ⟨⟨⟨order, left.tell (fun _ _ => rfl) ?_ trivial⟩, ⟨tidied.loose, tidied.calm⟩,
    inside⟩, drops.descriptors, marked⟩
  intro s member valid other found
  have spared : s.key.drops src = false := by
    cases dropping : s.key.drops src with
    | false => rfl
    | true =>
        have invalid := marked s member valid.1 dropping
        rw [valid.2] at invalid
        cases invalid
  refine ⟨fun same => ?_, fun same => ?_, fun same => by cases same⟩
  · cases same
    cases spared
  · cases same
    rw [CacheKey.drops, found] at spared
    cases spared

theorem cacheSetLimit_ends (standing : Standing config trace w) :
    Ends (cacheSetLimit bytes) w fun _ t => Standing config trace t := by
  obtain ⟨⟨order, kept⟩, tidy, _⟩ := standing
  have set : Kept config trace 0 0 order { w with limitBytes := bytes } :=
    ⟨kept.linked, kept.stock, kept.notes, kept.told⟩
  refine Ends.step rfl ?_
  refine Ends.bind (?_ : Ends _ { w with limitBytes := bytes } fun _ t =>
    (∃ order, Kept config trace 0 0 order t) ∧ Tidy t ∧ t.limitBytes = bytes ∧
      (bytes = 0 → ∀ s ∈ t.sessions, s.cached = true → s.invalidated = true)) fun _ t found => ?_
  · by_cases zero : bytes = 0
    · rw [if_pos zero]
      refine (cacheDropLocked_ends set).mono fun _ t found => ?_
      obtain ⟨left, drops, marked⟩ := found
      have untouched : Tidy { w with limitBytes := bytes } := ⟨tidy.loose, tidy.calm⟩
      have tidied := untouched.drops drops
      exact ⟨left, tidied, drops.limit, fun _ s member cached => marked s member cached rfl⟩
    · rw [if_neg zero]
      exact Ends.pure ⟨⟨order, set⟩, ⟨tidy.loose, tidy.calm⟩, rfl, fun same => absurd same zero⟩
  obtain ⟨⟨order, left⟩, tidied, limit, marked⟩ := found
  have shrinks : Ends (walk (shrink bytes)) t fun _ u =>
      (∃ order, Kept config trace 0 0 order u) ∧ Evicts t u ∧
        (bytes < u.bytes → ∀ s ∈ u.sessions, s.cached = true → s.refs ≠ 0) :=
    shrink_ends left (Nat.lt_succ_self _)
  refine shrinks.bind fun _ u found => ?_
  obtain ⟨⟨order, last⟩, evicts, busy⟩ := found
  have tidied := tidied.evicts evicts
  refine Ends.write ⟨⟨order, last.tell (fun _ _ => rfl) ?_ trivial⟩, ⟨tidied.loose, tidied.calm⟩, ?_⟩
  · intro s member valid other _
    refine ⟨(fun same => by cases same), (fun same => by cases same), fun same => ?_⟩
    cases same
    have invalid := marked rfl s (evicts.sessions s member) valid.1
    rw [valid.2] at invalid
    cases invalid
  · intro large
    refine busy ?_
    have limited : u.limitBytes = bytes := evicts.limit.trans limit
    exact limited ▸ large

end LvglAic.Image.MppCache
