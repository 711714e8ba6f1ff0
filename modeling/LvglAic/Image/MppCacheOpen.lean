import LvglAic.Image.MppCacheSound

/-! # Opening and closing images

A call that opens an image finds an entry or decodes the image into a session of its own,
which no descriptor has until the image is complete.
-/

namespace LvglAic.Image.MppCache

open LvglAic.Machine

variable {config : Config} {trace history : List Event} {order before after rest : List ℕ}
  {hand blocks : Multiset ℕ} {size bytes : UInt32} {w t u : World} {s : Session} {a b n : ℕ} {e : Event}
  {src other : ImageSrc} {args : DecoderArgs} {sessions others : List Session}
  {alter : Session → Session} {d : Descriptor} {descriptors : List (Descriptor × ℕ)} {c : Counters}
  {live : Multiset ℕ} {Stage Next : Session → Prop}

/-! ## Hits -/

/-- The session that an event uses becomes the newest entry. -/
theorem Notes.use (notes : Notes history order sessions) (kept : rest.Sublist order)
    (used : e.uses a = true) (unused : ∀ b ∈ rest, e.uses b = false)
    (spared : ∀ src, e.spares src) : Notes (history ++ [e]) (rest ++ [a]) sessions where
  recent := by
    refine List.pairwise_append.mpr ⟨?_, List.pairwise_singleton _ _, ?_⟩
    · refine (notes.recent.sublist kept).imp_of_mem fun {b c} member inside older => ?_
      simp only [age_snoc, unused b member, unused c inside, Bool.false_eq_true, if_false]
      exact Nat.add_lt_add_right older 1
    · intro b member c single
      rw [List.mem_singleton.mp single]
      simp only [age_snoc, used, unused b member, Bool.false_eq_true, if_true, if_false]
      exact Nat.succ_pos _
  known s member valid := by
    obtain ⟨src, found, decoded⟩ := notes.known s member valid
    exact ⟨src, found, decoded.snoc (spared src)⟩
  unique := notes.unique

theorem serves_of_compatible (compatible : cacheArgsCompatible config s args = true) :
    Serves config s.args s.buffer args := by
  unfold cacheArgsCompatible at compatible
  split at compatible
  · cases compatible
  rename_i same
  simp only [Bool.or_eq_true, bne_iff_ne, ne_eq, not_or, not_not] at same
  refine ⟨same.1, same.2, ?_⟩
  split at compatible
  · rename_i aligned
    exact .inl (beq_iff_eq.mp aligned)
  split at compatible
  · cases compatible
  rename_i heap
  simp only [Bool.or_eq_true, Bool.not_eq_true', beq_iff_eq] at compatible
  exact .inr ⟨Bool.eq_false_of_not_eq_true heap, compatible⟩

/-- The arguments of an entry serve an open with the same arguments. -/
theorem compatible_of_alike (alike : s.args.alike args) : cacheArgsCompatible config s args = true := by
  obtain ⟨premultiply, indexed, aligned⟩ := alike
  simp [cacheArgsCompatible, premultiply, indexed, aligned]

theorem Kept.hit_justified (kept : Kept config trace hand size order w) (member : s ∈ w.sessions)
    (valid : s.valid) (found : s.key.keyMatches src = true) (cached : args.noCache = false)
    (compatible : cacheArgsCompatible config s args = true) :
    Justified config (trace ++ w.log) (.hit src args s.address) := by
  obtain ⟨other, matched, decoded⟩ := kept.notes.known s member valid
  rw [keyMatches_unique matched found] at decoded
  exact ⟨cached, s.args, s.buffer, decoded, serves_of_compatible compatible⟩

theorem holds_changed (a : ℕ) (alter : Session → Session) (address : ∀ s, (alter s).address = s.address) :
    { w with sessions := changed a alter w.sessions }.holds b = w.holds b := by
  simp only [World.holds, changed, List.any_map]
  congr 1
  funext s
  simp only [Function.comp_apply]
  split <;> simp [address]

/-- No entry serves an open. -/
def Misses (config : Config) (src : ImageSrc) (args : DecoderArgs) (w : World) : Prop :=
  ∀ s ∈ w.sessions, s.valid → s.key.keyMatches src = true → cacheArgsCompatible config s args = false

/-- What a hit changes: one session has a descriptor more. -/
def Acquired (w t : World) : Prop :=
  t.limitBytes = w.limitBytes ∧ t.bytes = w.bytes ∧ ∀ o ∈ t.sessions, o ∈ w.sessions ∨
    ∃ s ∈ w.sessions, s.cached = true ∧ o = s.acquired ∧ o.refs ≠ 0

theorem acquired_refs (stock : Stock config order ((d, s.address) :: descriptors) hand size c live
    (s.acquired :: others)) :
    s.acquired.refs ≠ 0 := by
  intro zero
  have counted := stock.refs s.acquired List.mem_cons_self
  rw [zero, pointers, List.map_cons] at counted
  exact absurd (List.count_eq_zero.mp counted.symm) (not_not.mpr List.mem_cons_self)

theorem cacheHit_ends (kept : Kept config trace 0 0 (before ++ s.address :: after) w)
    (member : s ∈ w.sessions) (valid : s.valid) (found : s.key.keyMatches src = true)
    (compatible : cacheArgsCompatible config s args = true)
    (closed : d ≠ 0 ∧ d ∉ w.descriptors.map fun p => p.1) (cached : args.noCache = false) :
    Ends (cacheHit d src args s.address) w fun r t =>
      r = true ∧ (∃ order, Kept config trace 0 0 order t) ∧ Acquired w t := by
  have less : (before ++ after).Sublist (before ++ s.address :: after) :=
    (List.sublist_cons_self s.address after).append_left before
  have listed : s.address ∈ before ++ s.address :: after :=
    List.mem_append_right _ List.mem_cons_self
  have distinct := kept.linked.distinct
  have apart : ∀ b ∈ before ++ after, b ≠ s.address := by
    intro b inside
    rcases List.mem_append.mp inside with early | late
    · exact Linked.before_ne distinct early
    · exact Linked.after_ne distinct late
  have held : ∀ b ∈ before ++ s.address :: after,
      { w with sessions := changed s.address .acquired w.sessions }.holds b = true :=
    fun b inside => (holds_changed s.address .acquired fun _ => rfl).trans (kept.holds b inside)
  obtain ⟨others, perm, other⟩ := focus kept.stock.distinct member
  have alone := kept.stock.perm perm
  have acquires : Stock config (before ++ s.address :: after) ((d, s.address) :: w.descriptors) 0 0
      { w.counters with openSessions := w.counters.openSessions + 1 } w.heap.live
      (s.acquired :: others) := by
    refine alone.acquire closed (fun uncached => ?_) rfl rfl
    rw [valid.1] at uncached
    cases uncached
  have changes : (changed s.address .acquired w.sessions).Perm (s.acquired :: others) :=
    changed_perm perm other
  have moves : (before ++ s.address :: after).Perm (before ++ after ++ [s.address]) :=
    List.perm_middle.trans (List.perm_append_singleton _ _).symm
  have faces : ∀ o ∈ changed s.address .acquired w.sessions, o.valid →
      ∃ p ∈ w.sessions, p.valid ∧ p.face = o.face := by
    intro o inside standing
    rcases mem_changed inside with early | ⟨p, early, _, rfl⟩
    · exact ⟨o, early.1, standing, rfl⟩
    · exact ⟨p, early, standing, rfl⟩
  have used := kept.notes.use (e := .hit src args s.address) less (beq_self_eq_true s.address)
    (fun b inside => beq_false_of_ne (apart b inside).symm) fun _ => ⟨by simp, by simp, by simp⟩
  have told := kept.told.snoc (kept.hit_justified member valid found cached compatible)
  refine Ends.step (setSession_run (holds_of_mem member)) (Ends.step rfl ?_)
  refine (cacheUnlink_ends (w := { w with
    sessions := changed s.address .acquired w.sessions
    openSessions := w.openSessions + 1
    hits := w.hits + 1 }) kept.linked held).bind fun _ t unlinked => ?_
  obtain ⟨older, newer, oldest, newest, rfl, linked⟩ := unlinked
  refine (cacheMakeNewest_ends linked (by exact fun b inside => held b (less.subset inside))
    (fun inside => apart _ inside rfl) (by exact held s.address listed)).bind fun _ t pushed => ?_
  obtain ⟨older, newer, oldest, newest, rfl, linked⟩ := pushed
  refine Ends.step rfl (Ends.step rfl (Ends.pure ⟨rfl, ⟨_, linked, ?_, ?_, ?_⟩, rfl, rfl, ?_⟩))
  · exact (acquires.perm changes.symm).reorder moves
  · rw [List.append_assoc] at used
    exact used.fewer (.refl _) faces
  · rw [List.append_assoc] at told
    exact told
  · intro o inside
    rcases mem_changed inside with early | ⟨p, early, same, rfl⟩
    · exact .inl early.1
    · rw [List.inj_on_of_nodup_map kept.stock.distinct early member same]
      exact .inr ⟨s, member, valid.1, rfl, acquired_refs acquires⟩

theorem acquireFrom_ends (kept : Kept config trace 0 0 (rest ++ after) w)
    (closed : d ≠ 0 ∧ d ∉ w.descriptors.map fun p => p.1) (cached : args.noCache = false)
    (missed : ∀ s ∈ w.sessions, s.address ∈ after → s.valid → s.key.keyMatches src = true →
      cacheArgsCompatible config s args = false) (fuel : rest.length < n) :
    Ends (acquireFrom config d src args n rest.getLast?) w fun r t =>
      (r = false → (∃ misses, t = { w with misses := misses }) ∧ Misses config src args w) ∧
      (r = true → (∃ order, Kept config trace 0 0 order t) ∧ Acquired w t) := by
  induction rest using List.reverseRecOn generalizing after n with
  | nil =>
      cases n with
      | zero => exact absurd fuel (Nat.not_lt_zero _)
      | succ n =>
          refine Ends.step rfl (Ends.pure ⟨fun _ => ⟨⟨_, rfl⟩, ?_⟩, fun no => by cases no⟩)
          intro s member valid
          exact missed s member ((kept.stock.cached_iff member).mp valid.1) valid
  | append_singleton rest a ih =>
      cases n with
      | zero => exact absurd fuel (Nat.not_lt_zero _)
      | succ n =>
          rw [List.append_assoc, List.singleton_append] at kept
          have listed : a ∈ rest ++ a :: after := List.mem_append_right _ List.mem_cons_self
          obtain ⟨s, member, rfl, entry⟩ := kept.session listed
          have distinct := kept.stock.distinct
          rw [List.getLast?_concat]
          refine Ends.step (session_run distinct member) ?_
          by_cases serves : (!s.invalidated && s.key.keyMatches src &&
              cacheArgsCompatible config s args) = true
          · rw [if_pos serves]
            simp only [Bool.and_eq_true, Bool.not_eq_true'] at serves
            obtain ⟨⟨standing, found⟩, compatible⟩ := serves
            refine (cacheHit_ends kept member ⟨entry, standing⟩ found compatible closed cached).mono
              fun r t told => ?_
            obtain ⟨rfl, left⟩ := told
            exact ⟨(fun no => by cases no), fun _ => left⟩
          · rw [if_neg serves]
            have previous := (kept.linked.links rest s.address after rfl).1
            refine Ends.step (links_run (holds_of_mem member)) ?_
            simp only [previous]
            have short : rest.length < n := by
              rw [List.length_append] at fuel
              exact Nat.lt_of_succ_lt_succ fuel
            refine ih kept (fun o inside late valid matched => ?_) short
            rcases List.mem_cons.mp late with same | later
            · rw [List.inj_on_of_nodup_map distinct inside member same] at valid matched ⊢
              simpa [valid.2, matched] using serves
            · exact missed o inside later valid matched

theorem Standing.acquired (standing : Standing config trace w)
    (kept : ∃ order, Kept config trace 0 0 order t) (acquired : Acquired w t) :
    Standing config trace t := by
  obtain ⟨limit, bytes, sessions⟩ := acquired
  refine ⟨kept, ⟨fun s member uncached => ?_, fun s member cached invalidated => ?_⟩, ?_⟩
  · rcases sessions s member with early | ⟨o, _, cached, rfl, _⟩
    · exact standing.tidy.loose s early uncached
    · exact absurd (cached.symm.trans uncached) nofun
  · rcases sessions s member with early | ⟨_, _, _, _, refs⟩
    · exact standing.tidy.calm s early cached invalidated
    · exact refs
  · refine standing.within.less limit (bytes ▸ le_rfl) fun s member cached => ?_
    rcases sessions s member with early | ⟨_, _, _, _, refs⟩
    · exact .inr ⟨s, early, cached, rfl⟩
    · exact .inl refs

theorem cacheAcquire_ends (standing : Standing config trace w)
    (closed : d ≠ 0 ∧ d ∉ w.descriptors.map fun p => p.1) :
    Ends (cacheAcquire config d src args) w fun r t => Standing config trace t ∧
      (r = false → t.descriptors = w.descriptors ∧
        (args.noCache = false → t.limitBytes ≠ 0 → Misses config src args t)) := by
  obtain ⟨order, kept⟩ := standing.kept
  refine Ends.step rfl ?_
  split
  · rename_i never
    refine Ends.pure ⟨standing, fun _ => ⟨rfl, fun cached limited => ?_⟩⟩
    simp [cached, limited] at never
  · rename_i wanted
    simp only [Bool.or_eq_true, not_or, Bool.not_eq_true] at wanted
    have whole : Kept config trace 0 0 (order ++ []) w := (List.append_nil order).symm ▸ kept
    have found : Ends (acquireFrom config d src args (w.sessions.length + 1) order.getLast?) w _ :=
      acquireFrom_ends whole closed wanted.1 (fun _ _ late => absurd late List.not_mem_nil)
        (Nat.lt_succ_of_le kept.short)
    rw [← kept.linked.last] at found
    obtain ⟨r, t, ran, missed, hit⟩ := found
    refine ⟨r, t, ran, ?_⟩
    cases r with
    | true => exact ⟨standing.acquired (hit rfl).1 (hit rfl).2, fun no => by cases no⟩
    | false =>
        obtain ⟨⟨misses, rfl⟩, none⟩ := missed rfl
        refine ⟨⟨⟨order, kept.linked, kept.stock, kept.notes, kept.told⟩,
          ⟨standing.tidy.loose, standing.tidy.calm⟩, standing.within⟩, fun _ => ⟨rfl, fun _ _ => none⟩⟩

/-! ## Decoding -/

/-- A session that no descriptor has yet. -/
structure Pending (s : Session) : Prop where
  uncached : s.cached = false
  refs : s.refs = 0
  key : s.key = .unset

/-- A session is made, which has come to a stage. -/
structure Making (Stage : Session → Prop) (w : World) (a : ℕ) (t : World) : Prop where
  pending : ∃ s ∈ t.sessions, s.address = a ∧ Pending s ∧ Stage s
  others : ∀ s ∈ t.sessions, s.address ≠ a → s ∈ w.sessions
  limit : t.limitBytes = w.limitBytes
  bytes : t.bytes.toNat ≤ w.bytes.toNat
  descriptors : t.descriptors = w.descriptors

/-- No copy of the image has been made. -/
def Bare (s : Session) : Prop := s.heapBuf = none

theorem Making.adjust (alter : Session → Session) (making : Making Stage w a t)
    (member : s ∈ t.sessions) (here : s.address = a) (address : ∀ s, (alter s).address = s.address)
    (pending : Pending (alter s)) (stage : Next (alter s)) :
    Making Next w a { t with sessions := changed a alter t.sessions } where
  pending := ⟨alter s, List.mem_map.mpr ⟨s, member, if_pos here⟩, (address s).trans here, pending, stage⟩
  others o inside elsewhere := by
    rcases mem_changed inside with ⟨early, other⟩ | ⟨p, _, same, rfl⟩
    · exact making.others o early other
    · exact absurd ((address p).trans same) elsewhere
  limit := making.limit
  bytes := making.bytes
  descriptors := making.descriptors

theorem Making.evicts (making : Making Stage w a t) (evicts : Evicts t u) : Making Stage w a u where
  pending := by
    obtain ⟨s, member, address, pending, stage⟩ := making.pending
    exact ⟨s, evicts.uncached s member pending.uncached, address, pending, stage⟩
  others s member := making.others s (evicts.sessions s member)
  limit := evicts.limit.trans making.limit
  bytes := evicts.bytes.trans making.bytes
  descriptors := evicts.descriptors.trans making.descriptors

theorem not_valid_of_uncached (uncached : s.cached = false) : ¬s.valid := fun valid => by
  rw [valid.1] at uncached
  cases uncached

theorem allocExtFrame_ends {r : FrameRequest} (kept : Kept config trace 0 0 order t)
    (making : Making Bare w a t) :
    Ends (allocExtFrame config a r) t fun _ u =>
      (∃ order, Kept config trace 0 0 order u) ∧ Making Bare w a u := by
  obtain ⟨s, member, rfl, pending, bare⟩ := making.pending
  have uncached := pending.uncached
  have stays : (∃ order, Kept config trace 0 0 order t) ∧ Making Bare w s.address t := ⟨⟨order, kept⟩, making⟩
  refine Ends.step (session_run kept.stock.distinct member) ?_
  dsimp only
  split
  · exact Ends.pure stays
  split
  · exact Ends.pure stays
  rename_i allowed
  split
  · exact Ends.pure stays
  have empty : s.allocationBase = none := by
    by_contra other
    exact allowed (.inl other)
  generalize alignUp (asWord r.width * asWord r.height % 2 ^ 32) config.cacheLine = length
  refine Ends.step (setSession_run (holds_of_mem member)) ?_
  have sized : Kept config trace 0 0 order
      { t with sessions := changed s.address (.sized length) t.sessions } := by
    refine kept.adjust member rfl rfl rfl rfl rfl ?_ fun valid =>
      absurd valid (not_valid_of_uncached uncached)
    simp only [Session.cma, Session.sized, empty, Option.elim_none]
  have made : Making Bare w s.address _ := making.adjust (.sized length) member rfl (fun _ => rfl)
    ⟨pending.uncached, pending.refs, pending.key⟩ bare
  have there : s.sized length ∈ changed s.address (.sized length) t.sessions :=
    List.mem_map.mpr ⟨s, member, if_pos rfl⟩
  have allocates : Ends (cmaAlloc length) _ _ := cmaAllocFrom_ends sized (Nat.lt_succ_self _)
  refine allocates.bind fun base u found => ?_
  obtain ⟨evicts, order, left⟩ := found
  have made := made.evicts evicts
  cases base with
  | none =>
      rw [blockOf_none, Option.elim_none, add_zero, UInt32.add_zero] at left
      exact Ends.pure ⟨⟨order, left⟩, made⟩
  | some base =>
      have remains := evicts.uncached _ there uncached
      have framed : Kept config trace 0 0 order
          { u with sessions := changed s.address (.framed base (asWord r.width)) u.sessions } := by
        refine left.adjust (s := s.sized length) remains rfl rfl rfl rfl ?_ ?_ fun valid =>
          absurd valid (not_valid_of_uncached uncached)
        · simp only [Session.blocks, Session.ownBlocks, Session.sized, Session.framed, empty,
            blockOf_none, blockOf_some]
          ac_rfl
        · simp only [Session.cma, Session.sized, Session.framed, empty, Option.elim_none,
            Option.elim_some, UInt32.zero_add, UInt32.add_zero]
      refine Ends.step (setSession_run (holds_of_mem (s := s.sized length) remains)) (Ends.pure
        ⟨⟨order, framed⟩, ?_⟩)
      exact made.adjust (.framed base (asWord r.width)) remains rfl (fun _ => rfl)
        ⟨pending.uncached, pending.refs, pending.key⟩ bare

theorem allocExtFrames_ends {requests : List FrameRequest} (kept : Kept config trace 0 0 order t)
    (making : Making Bare w a t) :
    Ends (allocExtFrames config a requests) t fun _ u =>
      (∃ order, Kept config trace 0 0 order u) ∧ Making Bare w a u := by
  induction requests generalizing t order with
  | nil => exact Ends.pure ⟨⟨order, kept⟩, making⟩
  | cons r rest ih =>
      refine (allocExtFrame_ends kept making).bind fun _ u found => ?_
      obtain ⟨⟨order, left⟩, made⟩ := found
      exact ih left made

/-- Nothing more is known of a session. -/
def Any (_ : Session) : Prop := True

theorem Making.any (making : Making Stage w a t) : Making Any w a t := by
  obtain ⟨s, member, address, pending, _⟩ := making.pending
  exact ⟨⟨s, member, address, pending, trivial⟩, making.others, making.limit, making.bytes,
    making.descriptors⟩

theorem moveToHeap_ends {p : Session} {dataSize : ℕ} (kept : Kept config trace 0 0 order t)
    (making : Making Bare w s.address t) (member : s ∈ t.sessions) (pending : Pending s)
    (bare : s.heapBuf = none) (address : p.address = s.address)
    (base : p.allocationBase = s.allocationBase) (length : p.cmaSize = s.cmaSize) :
    Ends (moveToHeap p dataSize) t fun _ u =>
      (∃ order, Kept config trace 0 0 order u) ∧ Making Any w s.address u := by
  obtain ⟨others, perm, apart⟩ := focus kept.stock.distinct member
  have alone := kept.stock.perm perm
  have live := alone.live
  have counted : t.currentCmaBytes = 0 + ((s :: others).map fun s => s.cma).sum := alone.cma
  have room : t.heap.take.live =
      {s.address} + (others.map fun s => s.blocks).sum + {t.heap.fresh} + blockOf s.allocationBase := by
    rw [Heap.take_live, live, List.map_cons, List.sum_cons, Session.blocks, Session.ownBlocks, bare,
      pending.key]
    simp only [Option.map_none, blockOf_none, CacheKey.keyBlock, add_zero, zero_add]
    ac_rfl
  refine Ends.step rfl ?_
  rw [base, length, address]
  refine (cmaFree_ends (w := { t with heap := t.heap.take }) room).bind fun _ u found => ?_
  obtain ⟨heap, frees, rfl, live⟩ := found
  have changes : (changed s.address (.onHeap ⟨t.heap.fresh, dataSize⟩) t.sessions).Perm
      (s.onHeap ⟨t.heap.fresh, dataSize⟩ :: others) := changed_perm perm apart
  refine ⟨(), _, setSession_run (by exact holds_of_mem member), ⟨order, kept.linked, ?_, ?_, kept.told⟩,
    ?_⟩
  · have moved : Stock config order t.descriptors 0 0
        { t.counters with
          currentCmaBytes :=
            t.currentCmaBytes - s.allocationBase.elim 0 fun _ => .ofNat s.cmaSize }
        heap.live (s.onHeap ⟨t.heap.fresh, dataSize⟩ :: others) := by
      refine alone.change rfl rfl rfl rfl ?_ ?_
      · rw [live]
        simp only [Session.blocks, Session.ownBlocks, Session.onHeap, pending.key, Option.map_some,
          blockOf_none, blockOf_some, CacheKey.keyBlock, add_zero, zero_add]
        ac_rfl
      · rw [counted, List.map_cons, List.sum_cons]
        change 0 + (s.cma + (others.map fun s => s.cma).sum) - s.cma =
          0 + 0 + (others.map fun s => s.cma).sum
        grind
    exact moved.perm changes.symm
  · refine kept.notes.subset (.refl _) fun o inside valid => ?_
    rcases mem_changed inside with early | ⟨q, early, same, rfl⟩
    · exact early.1
    · rw [List.inj_on_of_nodup_map kept.stock.distinct early member same] at valid
      exact absurd valid (not_valid_of_uncached pending.uncached)
  · have made : Making Any w s.address _ := making.adjust (.onHeap ⟨t.heap.fresh, dataSize⟩) member rfl
      (fun _ => rfl) ⟨pending.uncached, pending.refs, pending.key⟩ trivial
    exact ⟨made.pending, made.others, made.limit, made.bytes, made.descriptors⟩

theorem decodedBuffer_ends {o : Decoding} (kept : Kept config trace 0 0 order t)
    (making : Making Bare w a t) :
    Ends (decodedBuffer a o) t fun _ u =>
      (∃ order, Kept config trace 0 0 order u) ∧ Making Any w a u := by
  obtain ⟨s, member, rfl, pending, bare⟩ := making.pending
  refine Ends.step (session_run kept.stock.distinct member) ?_
  split
  · exact Ends.pure ⟨⟨order, kept⟩, making.any⟩
  have buffered : Kept config trace 0 0 order
      { t with sessions := changed s.address (.buffered s.stride) t.sessions } :=
    kept.adjust member rfl rfl rfl rfl rfl rfl fun valid =>
      absurd valid (not_valid_of_uncached pending.uncached)
  have made : Making Bare w s.address { t with
      sessions := changed s.address (.buffered s.stride) t.sessions } :=
    making.adjust (.buffered s.stride) member rfl (fun _ => rfl)
      ⟨pending.uncached, pending.refs, pending.key⟩ bare
  have there : s.buffered s.stride ∈ changed s.address (.buffered s.stride) t.sessions :=
    List.mem_map.mpr ⟨s, member, if_pos rfl⟩
  have still : Pending (s.buffered s.stride) := ⟨pending.uncached, pending.refs, pending.key⟩
  refine Ends.step (setSession_run (holds_of_mem member)) ?_
  cases o.adjusted with
  | failed => exact Ends.pure ⟨⟨order, buffered⟩, made.any⟩
  | same stride =>
      refine Ends.step (setSession_run (holds_of_mem (s := s.buffered s.stride) there)) (Ends.pure
        ⟨⟨order, ?_⟩, ?_⟩)
      · refine buffered.adjust (s := s.buffered s.stride) there rfl rfl rfl rfl rfl rfl fun valid => ?_
        exact absurd valid (not_valid_of_uncached pending.uncached)
      · have next : Making Any w s.address _ := made.adjust (.buffered stride) there rfl (fun _ => rfl)
          ⟨pending.uncached, pending.refs, pending.key⟩ trivial
        exact next
  | copied dataSize =>
      refine (moveToHeap_ends (s := s.buffered s.stride) buffered made there still bare rfl rfl rfl).bind
        fun _ u found => ?_
      exact Ends.pure found

/-- A session without descriptors that is not in the cache is freed. -/
theorem discard_ends (kept : Kept config trace 0 0 order t) (member : s ∈ t.sessions)
    (uncached : s.cached = false) (key : s.key = .unset) (refs : s.refs = 0) :
    Ends (sessionRelease s.address) t fun _ u =>
      Kept config trace 0 0 order u ∧ Removed s.address t u := by
  obtain ⟨others, perm, apart⟩ := focus kept.stock.distinct member
  have alone := kept.stock.perm perm
  have unpaid : s.cost = 0 := if_neg (by simp [uncached])
  have unlisted : s.address ∉ order := by
    rw [← kept.stock.cached_iff member, uncached]
    exact Bool.false_ne_true
  have own : s.blocks = s.ownBlocks := by
    rw [Session.blocks, key]
    exact add_zero _
  have live : t.heap.live = (others.map fun s => s.blocks).sum + s.ownBlocks := by
    rw [alone.live, List.map_cons, List.sum_cons, own, zero_add, add_comm]
  refine (sessionRelease_ends perm kept.stock.distinct live).mono fun _ u found => ?_
  obtain ⟨heap, frees, sessions, rfl, live, left⟩ := found
  refine ⟨⟨kept.linked, ?_, ?_, kept.told⟩, removed_of_perm perm left apart rfl rfl rfl le_rfl⟩
  · have leaves : Stock config order t.descriptors 0 0
        { t.counters with currentCmaBytes := t.currentCmaBytes - s.cma } heap.live others := by
      refine alone.leave refs (fun a => ?_) alone.entries le_rfl ?_ rfl rfl ?_
      · exact ⟨fun inside => ⟨inside, fun same => unlisted (same ▸ inside)⟩, fun inside => inside.1⟩
      · rw [unpaid]
        rfl
      · rw [kept.stock.live, live, zero_add, (perm.map _).sum_eq, List.map_cons, List.sum_cons, add_comm]
    exact leaves.perm left.symm
  · refine kept.notes.subset (.refl _) fun o inside _ => ?_
    exact perm.mem_iff.mpr (List.mem_cons_of_mem s (left.mem_iff.mp inside))

theorem newSession_ends {header : ImageHeader} (kept : Kept config trace 0 0 order w) :
    Ends (newSession header) w fun r t => (∃ order, Kept config trace 0 0 order t) ∧
      (r = none → Evicts w t) ∧ ∀ a, r = some a → Making Bare w a t := by
  refine Ends.step rfl ?_
  split
  · refine Ends.step rfl (Ends.step rfl (Ends.pure ⟨⟨order, ?_⟩, (fun no => by cases no),
      fun a same => ?_⟩))
    · have fresh : ∀ o ∈ w.sessions, o.address ≠ w.heap.fresh := by
        intro o member same
        have owned : o.address ∈ w.heap.live := by
          rw [kept.stock.live, zero_add]
          refine Multiset.mem_of_le (List.single_le_sum ?_ _ (List.mem_map_of_mem member)) ?_
          · exact fun _ _ => Multiset.zero_le _
          · simp [Session.blocks, Session.ownBlocks]
        exact absurd (w.heap.bounded _ owned) (same ▸ Nat.lt_irrefl _)
      refine ⟨kept.linked, kept.stock.arrive fresh rfl rfl rfl ?_, ?_, kept.told⟩
      · exact w.heap.take_live
      · refine kept.notes.subset (.refl _) fun o inside valid => ?_
        rcases List.mem_cons.mp inside with rfl | early
        · exact absurd valid (not_valid_of_uncached rfl)
        · exact early
    · cases same
      refine ⟨⟨_, List.mem_cons_self, rfl, ⟨rfl, rfl, rfl⟩, rfl⟩, fun o inside other => ?_, rfl, le_rfl,
        rfl⟩
      rcases List.mem_cons.mp inside with rfl | early
      · exact absurd rfl other
      · exact early
  · refine Ends.pure ⟨⟨order, kept.linked, kept.stock, kept.notes, kept.told⟩, fun _ => ?_,
      fun _ no => by cases no⟩
    exact ⟨fun _ member => member, fun _ member _ => member, rfl, le_rfl, rfl, [],
      (List.append_nil _).symm, fun e member => absurd member List.not_mem_nil⟩

/-- A session is complete and has a descriptor. -/
structure Made (w : World) (a : ℕ) (t : World) : Prop where
  session : ∃ s ∈ t.sessions, s.address = a ∧ s.cached = false ∧ s.refs ≠ 0 ∧ s.key = .unset
  others : ∀ s ∈ t.sessions, s.address ≠ a → s ∈ w.sessions
  limit : t.limitBytes = w.limitBytes
  bytes : t.bytes.toNat ≤ w.bytes.toNat

theorem decodeSource_ends {header : ImageHeader} {o : Decoding} (standing : Standing config trace w)
    (closed : d ≠ 0 ∧ d ∉ w.descriptors.map fun p => p.1) :
    Ends (decodeSource config d header o) w fun r t => (r = none → Standing config trace t) ∧
      ∀ a, r = some a → (∃ order, Kept config trace 0 0 order t) ∧ Made w a t := by
  obtain ⟨order, kept⟩ := standing.kept
  unfold decodeSource
  split
  · exact Ends.pure ⟨fun _ => standing, fun _ no => by cases no⟩
  refine (newSession_ends kept).bind fun r t found => ?_
  obtain ⟨⟨order, kept⟩, failed, making⟩ := found
  cases r with
  | none =>
      have evicts := failed rfl
      exact Ends.pure ⟨fun _ => standing.subset ⟨order, kept⟩ evicts.sessions evicts.limit evicts.bytes,
        fun _ no => by cases no⟩
  | some a =>
      refine (allocExtFrames_ends kept (making a rfl)).bind fun _ t found => ?_
      obtain ⟨⟨order, kept⟩, making⟩ := found
      refine Ends.bind (?_ : Ends _ t fun _ u =>
        (∃ order, Kept config trace 0 0 order u) ∧ Making Any w a u) fun usable u found => ?_
      · split
        · exact decodedBuffer_ends kept making
        · exact Ends.pure ⟨⟨order, kept⟩, making.any⟩
      obtain ⟨⟨order, kept⟩, making⟩ := found
      obtain ⟨s, member, rfl, pending, _⟩ := making.pending
      split
      · obtain ⟨others, perm, apart⟩ := focus kept.stock.distinct member
        have free : d ≠ 0 ∧ d ∉ u.descriptors.map fun p => p.1 := making.descriptors ▸ closed
        have acquires : Stock config order ((d, s.address) :: u.descriptors) 0 0
            { u.counters with openSessions := u.counters.openSessions + 1 } u.heap.live
            (s.acquired :: others) :=
          (kept.stock.perm perm).acquire free (fun _ => pending.refs) rfl rfl
        have changes : (changed s.address .acquired u.sessions).Perm (s.acquired :: others) :=
          changed_perm perm apart
        refine Ends.step rfl (Ends.step (setSession_run (by exact holds_of_mem member)) (Ends.step rfl
          (Ends.pure ⟨(fun no => by cases no), fun b same => ?_⟩)))
        cases same
        refine ⟨⟨order, kept.linked, acquires.perm changes.symm, ?_, kept.told⟩, ?_, fun o inside other => ?_,
          making.limit, making.bytes⟩
        · refine kept.notes.subset (.refl _) fun o inside valid => ?_
          rcases List.mem_cons.mp (changes.mem_iff.mp inside) with rfl | early
          · exact absurd valid (not_valid_of_uncached pending.uncached)
          · exact perm.mem_iff.mpr (List.mem_cons_of_mem s early)
        · exact ⟨s.acquired, changes.mem_iff.mpr List.mem_cons_self, rfl, pending.uncached,
            acquired_refs acquires, pending.key⟩
        · rcases mem_changed inside with early | ⟨p, _, same, rfl⟩
          · exact making.others o early.1 other
          · exact absurd same other
      · refine (discard_ends kept member pending.uncached pending.key pending.refs).bind
          fun _ v found => ?_
        obtain ⟨left, removed⟩ := found
        refine Ends.pure ⟨fun _ => ?_, fun _ no => by cases no⟩
        refine standing.subset ⟨order, left⟩ (fun o inside => ?_) (removed.limit.trans making.limit)
          (removed.bytes.trans making.bytes)
        obtain ⟨early, other⟩ := (removed.members o).mp inside
        exact making.others o early other

/-! ## Inserting -/

theorem insertRoom_ends {cost : ℕ} (kept : Kept config trace hand size order w)
    (fuel : w.sessions.length < n) :
    Ends (insertRoom config cost n) w fun r t => (∃ order, Kept config trace hand size order t) ∧
      Evicts w t ∧ (r = true → cost + t.bytes.toNat ≤ t.limitBytes.toNat ∧
        t.entries < config.maxEntries) := by
  induction n generalizing w order with
  | zero => exact absurd fuel (Nat.not_lt_zero _)
  | succ n ih =>
      refine Ends.step rfl ?_
      split
      · refine (cacheEvictOne_ends kept).bind fun evicted t found => ?_
        obtain ⟨⟨order, left⟩, evicts, fewer, none⟩ := found
        cases evicted with
        | false => exact Ends.pure ⟨⟨order, left⟩, evicts, fun no => by cases no⟩
        | true =>
            have shorter := fewer rfl
            refine (ih left (by omega)).mono fun _ u found => ?_
            exact ⟨found.1, evicts.trans found.2.1, found.2.2⟩
      · rename_i roomy
        simp only [gt_iff_lt, ge_iff_le, decide_eq_true_eq, not_or, not_lt] at roomy
        exact Ends.pure ⟨⟨order, kept⟩, .refl w, fun _ => ⟨roomy.1, UInt32.not_le.mp roomy.2⟩⟩

theorem cacheKey_ends (kept : Kept config trace 0 0 order t) :
    Ends (cacheKey src) t fun key u => Kept config trace key.keyBlock 0 order u ∧ Evicts t u ∧
      u.bytes = t.bytes ∧ u.entries = t.entries ∧ (key ≠ .unset → key.keyMatches src = true) := by
  have still : ∀ (u : World), u.sessions = t.sessions → u.limitBytes = t.limitBytes →
      u.bytes = t.bytes → u.descriptors = t.descriptors → u.log = t.log → Evicts t u := by
    intro u sessions limit bytes descriptors log
    exact ⟨fun _ member => sessions ▸ member, fun _ member _ => sessions ▸ member, limit,
      bytes ▸ le_rfl, descriptors, [], by rw [log, List.append_nil],
      fun e member => absurd member List.not_mem_nil⟩
  cases src with
  | file path =>
      refine Ends.step rfl ?_
      split
      · refine Ends.step rfl (Ends.pure ⟨⟨kept.linked, ?_, kept.notes, kept.told⟩,
          still _ rfl rfl rfl rfl rfl, rfl, rfl, fun _ => beq_self_eq_true path⟩)
        have held := kept.stock.hold {t.heap.fresh} 0
        rw [← Heap.take_live, zero_add, UInt32.add_zero, UInt32.add_zero] at held
        exact held
      · exact Ends.pure ⟨⟨kept.linked, kept.stock, kept.notes, kept.told⟩, still _ rfl rfl rfl rfl rfl,
          rfl, rfl, fun other => absurd rfl other⟩
  | descriptor pointer =>
      exact Ends.pure ⟨kept, .refl t, rfl, rfl, fun _ => beq_self_eq_true pointer⟩
  | symbol => exact Ends.pure ⟨kept, .refl t, rfl, rfl, fun other => absurd rfl other⟩

theorem age_evicted {events : List Event} (a : ℕ) (history : List Event)
    (evicted : ∀ e ∈ events, ∃ b idle, e = .evicted b idle) :
    age a (history ++ events) = age a history + events.length := by
  induction events using List.reverseRecOn with
  | nil => rw [List.append_nil, List.length_nil, add_zero]
  | append_singleton rest e ih =>
      obtain ⟨b, idle, rfl⟩ := evicted e (List.mem_append_right _ List.mem_cons_self)
      rw [← List.append_assoc, age_snoc, ih fun e member => evicted e (List.mem_append_left _ member),
        List.length_append]
      rfl

/-- A session was decoded in this call, which no entry serves. -/
structure Complete (config : Config) (trace : List Event) (src : ImageSrc) (args : DecoderArgs)
    (a : ℕ) (w t : World) : Prop where
  made : Made w a t
  decoded : ∀ s ∈ t.sessions, s.address = a → DecodedFor (trace ++ t.log) src args a s.buffer
  newest : ∀ s ∈ t.sessions, s.cached = true →
    age a (trace ++ t.log) < age s.address (trace ++ t.log)
  misses : args.noCache = false → t.limitBytes ≠ 0 → Misses config src args t

theorem Complete.evicts (complete : Complete config trace src args a w t) (evicts : Evicts t u) :
    Complete config trace src args a w u := by
  obtain ⟨events, log, evicted⟩ := evicts.log
  refine ⟨⟨?_, ?_, ?_, ?_⟩, ?_, ?_, ?_⟩
  · obtain ⟨s, member, address, uncached, rest⟩ := complete.made.session
    exact ⟨s, evicts.uncached s member uncached, address, uncached, rest⟩
  · exact fun s member => complete.made.others s (evicts.sessions s member)
  · exact evicts.limit.trans complete.made.limit
  · exact evicts.bytes.trans complete.made.bytes
  · intro s member address
    obtain ⟨earlier, later, split, spares⟩ := complete.decoded s (evicts.sessions s member) address
    refine ⟨earlier, later ++ events, ?_, fun e inside => ?_⟩
    · rw [log, ← List.append_assoc, split, List.append_assoc, List.cons_append]
    · rcases List.mem_append.mp inside with early | late
      · exact spares e early
      · obtain ⟨b, idle, rfl⟩ := evicted e late
        exact ⟨by simp, by simp, by simp⟩
  · intro s member cached
    rw [log, ← List.append_assoc, age_evicted _ _ evicted, age_evicted _ _ evicted]
    exact Nat.add_lt_add_right (complete.newest s (evicts.sessions s member) cached) _
  · intro cached limited s member
    exact complete.misses cached (evicts.limit ▸ limited) s (evicts.sessions s member)

/-- A session that the cache did not take belongs to its descriptor. -/
theorem Complete.standing (complete : Complete config trace src args a w t)
    (standing : Standing config trace w) (kept : ∃ order, Kept config trace 0 0 order t) :
    Standing config trace t := by
  obtain ⟨s, member, address, uncached, refs, key⟩ := complete.made.session
  obtain ⟨order, left⟩ := kept
  have early : ∀ o ∈ t.sessions, o.cached = true → o ∈ w.sessions := by
    intro o inside cached
    refine complete.made.others o inside fun same => ?_
    rw [List.inj_on_of_nodup_map left.stock.distinct inside member (same.trans address.symm)] at cached
    rw [uncached] at cached
    cases cached
  refine ⟨⟨order, left⟩, ⟨fun o inside loose => ?_, fun o inside cached => ?_⟩, ?_⟩
  · by_cases same : o.address = a
    · rw [List.inj_on_of_nodup_map left.stock.distinct inside member (same.trans address.symm)]
      exact ⟨refs, key⟩
    · exact standing.tidy.loose o (complete.made.others o inside same) loose
  · exact standing.tidy.calm o (early o inside cached) cached
  · exact standing.within.less complete.made.limit complete.made.bytes fun o inside cached =>
      .inr ⟨o, early o inside cached, cached, rfl⟩

theorem cacheEnter_ends {key : CacheKey} {cost : ℕ} (kept : Kept config trace key.keyBlock 0 order t)
    (complete : Complete config trace src args a w t) (standing : Standing config trace w)
    (found : key.keyMatches src = true) (cached : args.noCache = false) (limited : t.limitBytes ≠ 0)
    (room : cost + t.bytes.toNat ≤ t.limitBytes.toNat) (few : t.entries < config.maxEntries) :
    Ends (cacheEnter key args cost a) t fun _ u => Standing config trace u := by
  obtain ⟨s, member, rfl, uncached, refs, unset⟩ := complete.made.session
  obtain ⟨others, perm, apart⟩ := focus kept.stock.distinct member
  have limit := t.limitBytes.toNat_lt
  have small : cost < 2 ^ 32 := by omega
  have paid : (UInt32.ofNat cost).toNat = cost := UInt32.toNat_ofNat_of_lt' small
  have unlisted : s.address ∉ order := by
    rw [← kept.stock.cached_iff member, uncached]
    exact Bool.false_ne_true
  have own : s.ownBlocks = s.blocks := by
    rw [Session.blocks, unset]
    exact (add_zero _).symm
  have whole : Stock config order t.descriptors (0 + (s.entered key args cost).key.keyBlock) 0
      t.counters t.heap.live (s :: others) := by
    rw [zero_add]
    exact kept.stock.perm perm
  have fits : t.counters.bytes.toNat + (s.entered key args cost).cacheCost.toNat < 2 ^ 32 := by
    change t.bytes.toNat + (UInt32.ofNat cost).toNat < 2 ^ 32
    omega
  have enters : Stock config (order ++ [s.address]) t.descriptors 0 0
      { t.counters with entries := t.entries + 1, bytes := t.bytes + .ofNat cost } t.heap.live
      (s.entered key args cost :: others) :=
    whole.enter uncached few fits rfl rfl rfl own rfl rfl
  have changes : (changed s.address (.entered key args cost) t.sessions).Perm
      (s.entered key args cost :: others) := changed_perm perm apart
  have held : ∀ b, t.holds b = true →
      { t with sessions := changed s.address (.entered key args cost) t.sessions }.holds b = true :=
    fun b inside => (holds_changed s.address (.entered key args cost) fun _ => rfl).trans inside
  refine Ends.step (setSession_run (holds_of_mem member)) ?_
  refine (cacheMakeNewest_ends (w := { t with
    sessions := changed s.address (.entered key args cost) t.sessions }) kept.linked
    (fun b inside => held b (kept.holds b inside)) unlisted (held _ (holds_of_mem member))).bind
      fun _ u pushed => ?_
  obtain ⟨older, newer, oldest, newest, rfl, linked⟩ := pushed
  have early : ∀ o ∈ changed s.address (.entered key args cost) t.sessions,
      o = s.entered key args cost ∨ o ∈ t.sessions ∧ o.address ≠ s.address := by
    intro o inside
    rcases mem_changed inside with stays | ⟨p, stays, same, rfl⟩
    · exact .inr stays
    · exact .inl (by rw [List.inj_on_of_nodup_map kept.stock.distinct stays member same])
  have unlike : ∀ o ∈ t.sessions, o.valid → ∀ other, o.key.keyMatches other = true →
      key.keyMatches other = true → ¬o.args.alike args := by
    intro o inside valid other first second alike
    have missed := complete.misses cached limited o inside valid
      (keyMatches_unique second found ▸ first)
    rw [compatible_of_alike alike] at missed
    cases missed
  refine Ends.write ⟨⟨_, linked, enters.perm changes.symm, ⟨?_, ?_, ?_⟩, kept.told⟩, ⟨?_, ?_⟩, ?_⟩
  · refine List.pairwise_append.mpr ⟨kept.notes.recent, List.pairwise_singleton _ _, ?_⟩
    intro b listed c single
    obtain ⟨o, inside, address, entry⟩ := kept.session listed
    rw [List.mem_singleton.mp single, ← address]
    exact complete.newest o inside entry
  · intro o inside valid
    rcases early o inside with rfl | ⟨stays, _⟩
    · exact ⟨src, found, complete.decoded s member rfl⟩
    · exact kept.notes.known o stays valid
  · intro o inside valid p within standing other first second alike
    rcases early o inside with rfl | ⟨stays, _⟩
    · rcases early p within with rfl | ⟨stays', _⟩
      · rfl
      · refine absurd ?_ (unlike p stays' standing other second first)
        exact ⟨alike.1.symm, alike.2.1.symm, alike.2.2.symm⟩
    · rcases early p within with rfl | ⟨stays', _⟩
      · exact absurd alike (unlike o stays valid other first second)
      · exact kept.notes.unique o stays valid p stays' standing other first second alike
  · intro o inside loose
    rcases early o inside with rfl | ⟨stays, other⟩
    · cases loose
    · exact standing.tidy.loose o (complete.made.others o stays other) loose
  · intro o inside entry invalidated
    rcases early o inside with rfl | ⟨stays, other⟩
    · exact refs
    · exact standing.tidy.calm o (complete.made.others o stays other) entry invalidated
  · intro large
    refine absurd (UInt32.lt_iff_toNat_lt.mp large) (Nat.not_lt.mpr ?_)
    change (t.bytes + .ofNat cost).toNat ≤ t.limitBytes.toNat
    rw [UInt32.toNat_add, paid]
    exact (Nat.mod_le _ _).trans (by omega)

theorem cacheInsert_ends (kept : Kept config trace 0 0 order t)
    (complete : Complete config trace src args a w t) (standing : Standing config trace w) :
    Ends (cacheInsert config src args a) t fun _ u => Standing config trace u := by
  have stays := complete.standing standing ⟨order, kept⟩
  obtain ⟨s, member, rfl, uncached, refs, unset⟩ := complete.made.session
  refine Ends.step (session_run kept.stock.distinct member) (Ends.step rfl ?_)
  split
  · exact Ends.pure stays
  rename_i wanted
  simp only [Bool.or_eq_true, not_or, Bool.not_eq_true, beq_eq_false_iff_ne, ne_eq] at wanted
  obtain ⟨⟨cached, limited⟩, _⟩ := wanted
  have rooms : Ends (walk (insertRoom config (config.cost src s))) t _ :=
    insertRoom_ends kept (Nat.lt_succ_self _)
  refine rooms.bind fun r u found => ?_
  obtain ⟨⟨order, kept⟩, evicts, roomy⟩ := found
  have complete := complete.evicts evicts
  cases r with
  | false => exact Ends.pure (complete.standing standing ⟨order, kept⟩)
  | true =>
      obtain ⟨room, few⟩ := roomy rfl
      refine (cacheKey_ends kept).bind fun key v found => ?_
      obtain ⟨kept, less, bytes, entries, matched⟩ := found
      have complete := complete.evicts less
      have limit : v.limitBytes = t.limitBytes := less.limit.trans evicts.limit
      have enters : key ≠ .unset → Ends (cacheEnter key args (config.cost src s) s.address) v
          fun _ u => Standing config trace u := fun set =>
        cacheEnter_ends kept complete standing (matched set) cached (limit ▸ limited)
          (by rw [bytes, less.limit]; exact room) (by rw [entries]; exact few)
      cases key with
      | unset => exact Ends.pure (complete.standing standing ⟨order, kept⟩)
      | file text block => exact enters nofun
      | descriptor pointer => exact enters nofun

theorem openLocked_ends {header : ImageHeader} {o : Decoding} (standing : Standing config trace w)
    (closed : d ≠ 0 ∧ d ∉ w.descriptors.map fun p => p.1) :
    Ends (openLocked config d src args header o) w fun _ t => Standing config trace t := by
  refine (cacheAcquire_ends standing closed).bind fun hit t found => ?_
  obtain ⟨standing, missed⟩ := found
  split
  · exact Ends.pure standing
  rename_i miss
  obtain ⟨descriptors, misses⟩ := missed (Bool.eq_false_of_not_eq_true miss)
  split
  · exact Ends.pure standing
  refine (decodeSource_ends standing (descriptors ▸ closed)).bind fun r u found => ?_
  obtain ⟨failed, made⟩ := found
  cases r with
  | none => exact Ends.pure (failed rfl)
  | some a =>
      obtain ⟨⟨order, kept⟩, made⟩ := made a rfl
      obtain ⟨s, member, rfl, uncached, refs, unset⟩ := made.session
      have unique : ∀ p ∈ u.sessions, p.address = s.address → p = s := fun p inside same =>
        List.inj_on_of_nodup_map kept.stock.distinct inside member same
      have other : ∀ p ∈ u.sessions, p.cached = true → p.address ≠ s.address := by
        intro p inside entry same
        rw [unique p inside same, uncached] at entry
        cases entry
      have unused : ∀ b ∈ order, (Event.decoded src args s.address s.buffer).uses b = false := by
        intro b listed
        obtain ⟨p, inside, rfl, entry⟩ := kept.session listed
        exact beq_false_of_ne (other p inside entry).symm
      have told := kept.tell unused (fun _ _ _ _ _ => ⟨by simp, by simp, by simp⟩) trivial
      refine Ends.step (session_run kept.stock.distinct member) (Ends.step rfl ?_)
      refine cacheInsert_ends told ⟨⟨⟨s, member, rfl, uncached, refs, unset⟩, made.others, made.limit,
        made.bytes⟩, fun p inside same => ?_, fun p inside entry => ?_, fun cached limited p inside valid => ?_⟩
        standing
      · rw [unique p inside same]
        refine ⟨trace ++ u.log, [], ?_, fun e member => absurd member List.not_mem_nil⟩
        rw [List.append_assoc]
      · have used : (Event.decoded src args s.address s.buffer).uses s.address = true :=
          beq_self_eq_true s.address
        rw [← List.append_assoc, age_snoc, age_snoc, if_pos used, unused p.address
          ((kept.stock.cached_iff inside).mp entry), if_neg Bool.false_ne_true]
        exact Nat.succ_pos _
      · have limited : t.limitBytes ≠ 0 := made.limit ▸ limited
        exact misses cached limited p (made.others p inside (other p inside valid.1)) valid

/-! ## Closing -/

theorem closeCb_ends (standing : Standing config trace w) :
    Ends (closeCb d) w fun _ t => Standing config trace t := by
  obtain ⟨order, kept⟩ := standing.kept
  refine Ends.step rfl ?_
  dsimp only
  cases found : w.descriptors.lookup d with
  | none => exact Ends.pure standing
  | some a =>
      have listed : (d, a) ∈ w.descriptors := by
        obtain ⟨front, back, split, _⟩ := List.lookup_eq_some_iff.mp found
        exact split ▸ List.mem_append_right _ List.mem_cons_self
      obtain ⟨s, member, rfl⟩ := List.mem_map.mp (kept.stock.aimed a (List.mem_map_of_mem listed))
      obtain ⟨others, perm, apart⟩ := focus kept.stock.distinct member
      have changes : (changed s.address .letGo w.sessions).Perm (s.letGo :: others) :=
        changed_perm perm apart
      have there : s.letGo ∈ changed s.address .letGo w.sessions :=
        changes.mem_iff.mpr List.mem_cons_self
      have early : ∀ o ∈ changed s.address .letGo w.sessions, o.address ≠ s.address →
          o ∈ w.sessions := by
        intro o inside other
        rcases mem_changed inside with stays | ⟨p, _, same, rfl⟩
        · exact stays.1
        · exact absurd same other
      obtain ⟨lets, fewer⟩ : Stock config order (w.descriptors.filter fun p => p.1 ≠ d) 0 0
          { w.counters with openSessions := w.openSessions - 1 } w.heap.live (s.letGo :: others) ∧
          s.letGo.refs.toNat + 1 = s.refs.toNat := (kept.stock.perm perm).letGo listed rfl rfl
      have left : Kept config trace 0 0 order { w with
          descriptors := w.descriptors.filter fun p => p.1 ≠ d
          sessions := changed s.address .letGo w.sessions
          openSessions := w.openSessions - 1 } := by
        refine ⟨kept.linked, lets.perm changes.symm, kept.notes.fewer (.refl _) fun o inside valid => ?_,
          kept.told⟩
        rcases mem_changed inside with stays | ⟨p, stays, _, rfl⟩
        · exact ⟨o, stays.1, valid, rfl⟩
        · exact ⟨p, stays, valid, rfl⟩
      refine Ends.step rfl (Ends.step (setSession_run (by exact holds_of_mem member)) (Ends.step rfl ?_))
      refine Ends.step (session_run (s := s.letGo) left.stock.distinct there) (Ends.step rfl ?_)
      split
      · rename_i loose
        have uncached : s.cached = false := by
          cases cached : s.cached with
          | false => rfl
          | true => exact absurd (loose.symm.trans (congrArg not cached)) nofun
        have few := kept.stock.loose s member uncached
        have none : s.letGo.refs = 0 := UInt32.toNat_inj.mp (by rw [UInt32.toNat_zero]; omega)
        refine (discard_ends left there uncached (standing.tidy.loose s member uncached).2 none).mono
          fun _ t found => ?_
        obtain ⟨last, removed⟩ := found
        refine standing.subset ⟨order, last⟩ (fun o inside => ?_) removed.limit removed.bytes
        obtain ⟨inside, other⟩ := (removed.members o).mp inside
        exact early o inside other
      · rename_i entry
        have cached : s.cached = true := by
          cases cached : s.cached with
          | true => rfl
          | false => exact absurd (congrArg not cached) entry
        split
        · rename_i gone
          simp only [Bool.and_eq_true, beq_iff_eq] at gone
          obtain ⟨front, back, rfl⟩ := List.append_of_mem ((kept.stock.cached_iff member).mp cached)
          refine (cacheRemove_ends (s := s.letGo) left there gone.1).mono fun _ t found => ?_
          obtain ⟨last, removed⟩ := found
          refine standing.subset ⟨_, last⟩ (fun o inside => ?_) removed.limit removed.bytes
          obtain ⟨inside, other⟩ := (removed.members o).mp inside
          exact early o inside other
        · rename_i stays
          simp only [Bool.and_eq_true, beq_iff_eq, Bool.or_eq_true, decide_eq_true_eq, not_and, not_or]
            at stays
          have entry : ∀ o ∈ changed s.address .letGo w.sessions, o ∈ w.sessions ∨ o = s.letGo := by
            intro o inside
            rcases mem_changed inside with kept' | ⟨p, found, same, rfl⟩
            · exact .inl kept'.1
            · exact .inr (by rw [List.inj_on_of_nodup_map kept.stock.distinct found member same])
          refine Ends.pure ⟨⟨order, left⟩, ⟨fun o inside loose => ?_, fun o inside cached invalid => ?_⟩, ?_⟩
          · rcases entry o inside with found | rfl
            · exact standing.tidy.loose o found loose
            · exact absurd (cached.symm.trans loose) nofun
          · rcases entry o inside with found | rfl
            · exact standing.tidy.calm o found cached invalid
            · exact fun none => (stays none).1 invalid
          · intro large o inside cached
            rcases entry o inside with found | rfl
            · exact standing.within large o found cached
            · exact fun none => (stays none).2 large

end LvglAic.Image.MppCache
