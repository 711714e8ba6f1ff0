import LvglAic.Image.MppCacheOpen

/-! # Runs of the cache of decoded images -/

namespace LvglAic.Image.MppCache

open LvglAic.Machine

variable {config : Config} {trace : List Event} {w t : World} {src : ImageSrc} {args : DecoderArgs}
  {a : ℕ} {bytes : UInt32}

/-- Between two calls the events of the last one belong to the past. -/
def Settled (config : Config) (trace : List Event) (w : World) : Prop :=
  Standing config trace { w with log := [] }

theorem settled_of_standing (standing : Standing config trace t) :
    Settled config (trace ++ t.log) t := by
  obtain ⟨⟨order, kept⟩, tidy, within⟩ := standing
  refine ⟨⟨order, kept.linked, kept.stock, ?_, ?_⟩, ⟨tidy.loose, tidy.calm⟩, within⟩
  · change Notes (trace ++ t.log ++ []) order t.sessions
    rw [List.append_nil]
    exact kept.notes
  · change Told config (trace ++ t.log ++ [])
    rw [List.append_nil]
    exact kept.told

theorem perform_ends {call : Call} (standing : Standing config trace w)
    (allowed : Contract trace w call) :
    Ends (perform config call) w fun _ t => Standing config trace t := by
  cases call with
  | openCb d src args header o =>
      change Ends (openCb config d src args header o) w _
      unfold openCb
      split
      · exact Ends.pure standing
      · exact openLocked_ends standing allowed
  | closeCb d => exact closeCb_ends standing
  | cacheDrop src => exact (cacheDrop_ends standing).mono fun _ _ found => found.1
  | cacheSetLimit bytes => exact cacheSetLimit_ends standing

theorem step_settled {call : Call} (settled : Settled config trace w)
    (allowed : Contract trace w call) :
    ∃ t events, (cacheMachine config).step w call = some (t, events) ∧
      Settled config (trace ++ events) t := by
  have ends : Ends (perform config call) { w with log := [] } fun _ t => Standing config trace t :=
    perform_ends settled allowed
  obtain ⟨_, t, ran, standing⟩ := ends
  refine ⟨t, t.log, ?_, settled_of_standing standing⟩
  change (perform config call { w with log := [] }).map _ = _
  rw [ran]
  rfl

theorem start_settled {answers : ℕ → Bool} {heap : Heap} {limitBytes : UInt32} (empty : heap.live = 0) :
    Settled config [] (.start answers heap limitBytes) := by
  refine ⟨⟨[], .nil _ _, ⟨List.nodup_nil, ?_, rfl, Nat.zero_le _, rfl, ?_, ?_, ?_, ?_, rfl, ?_, rfl⟩,
    ⟨.nil, ?_, ?_⟩, .nil⟩, ⟨?_, ?_⟩, ?_⟩
  · simp [World.start]
  · exact fun s member => absurd member List.not_mem_nil
  · exact fun s member => absurd member List.not_mem_nil
  · exact List.nodup_singleton _
  · exact fun a member => absurd member List.not_mem_nil
  · exact empty
  · exact fun s member => absurd member List.not_mem_nil
  · exact fun s member => absurd member List.not_mem_nil
  · exact fun s member => absurd member List.not_mem_nil
  · exact fun s member => absurd member List.not_mem_nil
  · exact fun _ s member => absurd member List.not_mem_nil

theorem reached_settled (reached : (cacheMachine config).Reaches Contract trace w) :
    Settled config trace w := by
  refine reached.invariant (Settled config) ?_ ?_
  · rintro w ⟨answers, heap, limitBytes, empty, rfl⟩
    exact start_settled empty
  · intro trace w call t events settled allowed moved
    obtain ⟨u, more, ran, after⟩ := step_settled settled allowed
    rw [moved] at ran
    cases ran
    exact after

instance Contract.decidable (trace : List Event) (w : World) :
    ∀ call, Decidable (Contract trace w call)
  | .openCb d .. => inferInstanceAs (Decidable (d ≠ 0 ∧ d ∉ w.descriptors.map fun p => p.1))
  | .closeCb _ => isTrue trivial
  | .cacheDrop _ => isTrue trivial
  | .cacheSetLimit _ => isTrue trivial

/-- A cache of two entries where every allocation succeeds. -/
def smallConfig : Config := ⟨2, 32, 100, 40, fun width _ => width * 4⟩

def smallStart : World := .start (fun _ => true) ⟨0, 0, by simp, by simp⟩ 1000

def handle (n : ℕ) : Descriptor := ⟨n % 2 ^ 32, Nat.mod_lt _ (by decide)⟩

/-- An opening of an image of 8 by 4 pixels. -/
def opening (d : Descriptor) (path : List UInt8) (align : Bool) : Call :=
  .openCb d (.file path) ⟨false, false, align, false⟩ ⟨8, 4, .argb8888⟩
    ⟨true, true, [⟨32, 4, .argb8888⟩], true, true, .same 32⟩

/-- Two images are opened, the first once more, and the second makes room for a third. -/
def smallCalls : List Call :=
  [opening (handle 1) [65] false, opening (handle 2) [66] false, opening (handle 3) [65] true,
    .closeCb (handle 2), .closeCb (handle 3), .closeCb (handle 1), opening (handle 4) [67] false]

/-- The first image was used more recently than the second, which is evicted. -/
def smallTrace : List Event :=
  [.decoded (.file [65]) ⟨false, false, false, false⟩ 0 ⟨false, 32, 8, .argb8888⟩,
    .decoded (.file [66]) ⟨false, false, false, false⟩ 3 ⟨false, 32, 8, .argb8888⟩,
    .hit (.file [65]) ⟨false, false, true, false⟩ 0,
    .decoded (.file [67]) ⟨false, false, false, false⟩ 6 ⟨false, 32, 8, .argb8888⟩,
    .evicted 3 [3, 0]]

/-- What a run of the small cache shows, and the descriptors that it leaves open. -/
def smallOutcome (calls : List Call) : Option (List Event × List (Descriptor × ℕ)) :=
  ((cacheMachine smallConfig).execute smallStart calls).map fun last => (last.2, last.1.descriptors)

def smallConforms (calls : List Call) : Bool :=
  (cacheMachine smallConfig).conforms (fun trace w call => decide (Contract trace w call)) []
    smallStart calls

theorem small_reached {calls : List Call} {left : List (Descriptor × ℕ)}
    (ran : smallOutcome calls = some (trace, left)) (conforming : smallConforms calls = true) :
    ∃ w, (cacheMachine smallConfig).Reaches Contract trace w ∧ w.descriptors = left := by
  obtain ⟨⟨w, shown⟩, executed, same⟩ := Option.map_eq_some_iff.mp ran
  obtain ⟨rfl, rfl⟩ := Prod.mk.inj same
  have initial : (cacheMachine smallConfig).Initial smallStart := ⟨_, _, _, rfl, rfl⟩
  have sound : ∀ trace w call, decide (Contract trace w call) = true → Contract trace w call :=
    fun _ _ _ holds => of_decide_eq_true holds
  exact ⟨w, (Machine.Reaches.start initial).conform sound conforming executed, rfl⟩

theorem small_trace_reached : ∃ w, (cacheMachine smallConfig).Reaches Contract smallTrace w := by
  have ran : smallOutcome smallCalls = some (smallTrace, [(handle 4, 6)]) := by decide +kernel
  have conforming : smallConforms smallCalls = true := by decide +kernel
  obtain ⟨w, reached, _⟩ := small_reached ran conforming
  exact ⟨w, reached⟩

/-- The list, the counters and the memory of the cache say the same. -/
structure Represented (config : Config) (w : World) (order : List ℕ) : Prop where
  linked : Linked w.older w.newer w.oldest w.newest order
  listed : ∀ a, a ∈ order ↔ ∃ s ∈ w.sessions, s.address = a ∧ s.cached = true
  entries : w.entries.toNat = order.length ∧ order.length ≤ config.maxEntries.toNat
  bytes : w.bytes.toNat = (w.sessions.map fun s => s.cost).sum
  refs : ∀ s ∈ w.sessions, s.refs.toNat = (pointers w.descriptors).count s.address
  opens : w.openSessions.toNat = w.descriptors.length
  aimed : ∀ a ∈ pointers w.descriptors, a ∈ w.sessions.map fun s => s.address
  memory : w.heap.live = (w.sessions.map fun s => s.blocks).sum
  cma : w.currentCmaBytes = (w.sessions.map fun s => s.cma).sum
  needed : ∀ s ∈ w.sessions, s.cached = false ∨ s.invalidated = true → s.refs ≠ 0
  within : w.limitBytes < w.bytes → ∀ s ∈ w.sessions, s.cached = true → s.refs ≠ 0
  unique : ∀ s ∈ w.sessions, s.valid → ∀ t ∈ w.sessions, t.valid → ∀ src, s.key.keyMatches src = true →
    t.key.keyMatches src = true → s.args.alike t.args → s.address = t.address

/-- In every run no call goes wrong, and the links, the counters and the memory of the decoder
are those of its sessions: of these only the ones stay that the cache or a descriptor needs, and no two
valid entries are alike. -/
theorem mpp_cache_represented (reached : (cacheMachine config).Reaches Contract trace w) :
    (∃ order, Represented config w order) ∧ ∀ call, Contract trace w call →
      ∃ t events, (cacheMachine config).step w call = some (t, events) := by
  have settled := reached_settled reached
  obtain ⟨⟨order, kept⟩, tidy, within⟩ := settled
  have stock := kept.stock
  refine ⟨⟨order, kept.linked, stock.listed, ⟨stock.entries, stock.few⟩, stock.bytes, stock.refs,
    stock.opens, stock.aimed, ?_, ?_, ?_, within, kept.notes.unique⟩, fun call allowed => ?_⟩
  · exact stock.live.trans (zero_add _)
  · exact stock.cma.trans (UInt32.zero_add _)
  · intro s member reason
    cases cached : s.cached with
    | false => exact (tidy.loose s member cached).1
    | true =>
        refine tidy.calm s member cached (reason.resolve_left fun loose => ?_)
        rw [cached] at loose
        cases loose
  · obtain ⟨t, events, ran, _⟩ := step_settled (reached_settled reached) allowed
    exact ⟨t, events, ran⟩

theorem mpp_cache_represented_small : ∃ w, (cacheMachine smallConfig).Reaches Contract smallTrace w ∧
    (∃ order, Represented smallConfig w order) ∧ ∀ call, Contract smallTrace w call →
      ∃ t events, (cacheMachine smallConfig).step w call = some (t, events) := by
  obtain ⟨w, reached⟩ := small_trace_reached
  exact ⟨w, reached, mpp_cache_represented reached⟩

/-- An open is only served by what was decoded for the same source, with the same treatment,
since that source was last dropped. -/
theorem mpp_cache_hits_fresh {earlier later : List Event}
    (reached : (cacheMachine config).Reaches Contract trace w)
    (hit : trace = earlier ++ .hit src args a :: later) :
    args.noCache = false ∧ ∃ decoded buffer,
      DecodedFor earlier src decoded a buffer ∧ Serves config decoded buffer args := by
  obtain ⟨⟨order, kept⟩, tidy, within⟩ := reached_settled reached
  refine kept.told earlier (.hit src args a) later ?_
  exact (List.append_nil trace).trans hit

theorem mpp_cache_hits_fresh_small : ∃ decoded buffer,
    DecodedFor (smallTrace.take 2) (.file [65]) decoded 0 buffer ∧
      Serves smallConfig decoded buffer ⟨false, false, true, false⟩ := by
  obtain ⟨w, reached⟩ := small_trace_reached
  have split : smallTrace = smallTrace.take 2 ++
      .hit (.file [65]) ⟨false, false, true, false⟩ 0 :: smallTrace.drop 3 := rfl
  exact (mpp_cache_hits_fresh reached split).2

/-- The entry that is evicted is the one of all idle entries whose last use is the longest ago. -/
theorem mpp_cache_evicts_oldest {earlier later : List Event} {idle : List ℕ}
    (reached : (cacheMachine config).Reaches Contract trace w)
    (evicted : trace = earlier ++ .evicted a idle :: later) :
    a ∈ idle ∧ ∀ b ∈ idle, b ≠ a → age b earlier < age a earlier := by
  obtain ⟨⟨order, kept⟩, tidy, within⟩ := reached_settled reached
  refine kept.told earlier (.evicted a idle) later ?_
  exact (List.append_nil trace).trans evicted

theorem mpp_cache_evicts_oldest_small : age 0 (smallTrace.take 4) < age 3 (smallTrace.take 4) := by
  obtain ⟨w, reached⟩ := small_trace_reached
  have split : smallTrace = smallTrace.take 4 ++ .evicted 3 [3, 0] :: [] := rfl
  have oldest := mpp_cache_evicts_oldest reached split
  exact oldest.2 0 (by decide) (by decide)

/-- Dropping all entries when no descriptor is open gives all memory back. -/
theorem mpp_cache_drains (reached : (cacheMachine config).Reaches Contract trace w)
    (closed : w.descriptors = []) :
    ∃ t events, (cacheMachine config).step w (.cacheDrop none) = some (t, events) ∧
      t.sessions = [] ∧ t.heap.live = 0 := by
  have settled := reached_settled reached
  have ends : Ends (cacheDrop none) { w with log := [] } fun _ t => Standing config trace t ∧
      t.descriptors = w.descriptors ∧
        ∀ s ∈ t.sessions, s.cached = true → s.key.drops none = true → s.invalidated = true :=
    cacheDrop_ends settled
  obtain ⟨_, t, ran, standing, same, marked⟩ := ends
  obtain ⟨⟨order, kept⟩, tidy, _⟩ := standing
  have unused : ∀ s ∈ t.sessions, s.refs = 0 := by
    intro s member
    have refs := kept.stock.refs s member
    rw [same, closed] at refs
    exact UInt32.toNat_inj.mp refs
  have empty : t.sessions = [] := by
    rw [List.eq_nil_iff_forall_not_mem]
    intro s member
    cases cached : s.cached with
    | false => exact (tidy.loose s member cached).1 (unused s member)
    | true => exact tidy.calm s member cached (marked s member cached rfl) (unused s member)
  refine ⟨t, t.log, ?_, empty, ?_⟩
  · change (cacheDrop none { w with log := [] }).map _ = _
    rw [ran]
    rfl
  · have live := kept.stock.live
    rw [empty] at live
    exact live

theorem mpp_cache_drains_small : ∃ w t events,
    (cacheMachine smallConfig).Reaches Contract smallTrace w ∧ w.descriptors = [] ∧
      (cacheMachine smallConfig).step w (.cacheDrop none) = some (t, events) ∧
      t.sessions = [] ∧ t.heap.live = 0 := by
  have ran : smallOutcome (smallCalls ++ [.closeCb (handle 4)]) = some (smallTrace, []) := by decide +kernel
  have conforming : smallConforms (smallCalls ++ [.closeCb (handle 4)]) = true := by decide +kernel
  obtain ⟨w, reached, closed⟩ := small_reached ran conforming
  obtain ⟨t, events, ran, left⟩ := mpp_cache_drains reached closed
  exact ⟨w, t, events, reached, closed, ran, left⟩

end LvglAic.Image.MppCache
