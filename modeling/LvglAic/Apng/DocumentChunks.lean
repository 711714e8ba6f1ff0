import LvglAic.Apng.Document

/-! # The chunks of an opened document (`lv_aic_apng.c`)

Opening a document has walked its chunks from the signature to an empty `IEND`, and every
later walk from one of their starts meets the same chunks.
-/

namespace LvglAic.Apng

open LvglAic.Machine

section
variable {d e : ApngDocument} {m n : Memory} {place pos stop start count : ℕ} {c : Chunk}

/-- Both memories hold the bytes of the document. -/
def ApngDocument.Keeps (d : ApngDocument) (m n : Memory) : Prop :=
  ∀ i, i < d.size → n (d.data + i) = m (d.data + i)

def ApngDocument.moved (d : ApngDocument) (place : ℕ) : ApngDocument := { d with data := place }

/-- The other memory holds the bytes of the document at the place. -/
def ApngDocument.CopiedTo (d : ApngDocument) (m : Memory) (place : ℕ) (n : Memory) : Prop :=
  ∀ i, i < d.size → n (place + i) = m (d.data + i)

theorem read_copied (copied : d.CopiedTo m place n) :
    (d.moved place).read n start count = d.read m start count := by
  unfold ApngDocument.read Memory.read
  change (if start + count ≤ d.size then Outcome.value (n.bytes (place + start) count)
    else .stray) = _
  split
  · refine congrArg Outcome.value (Memory.bytes_congr ?_)
    intro i small
    rw [Nat.add_assoc, Nat.add_assoc]
    exact copied _ (by omega)
  · rfl

theorem chunk_copied (copied : d.CopiedTo m place n) :
    chunk (d.moved place) n pos = chunk d m pos := by
  unfold chunk
  rw [read_copied copied, read_copied copied]
  rfl

theorem ApngDocument.Keeps.copied (same : d.Keeps m n) : d.CopiedTo m d.data n := same

theorem read_keeps (same : d.Keeps m n) : d.read n start count = d.read m start count :=
  read_copied same.copied

theorem chunk_keeps (same : d.Keeps m n) : chunk d n pos = chunk d m pos := chunk_copied same.copied

theorem chunk_document (data : e.data = d.data) (size : e.size = d.size) :
    chunk e m pos = chunk d m pos := by
  unfold chunk ApngDocument.read
  rw [data, size]

/-- A chunk lies inside of the document, at the place that it was asked for. -/
theorem chunk_value (found : chunk d m pos = .value c) :
    c.stop = pos + 12 + c.length ∧ c.stop ≤ d.size ∧ c.data = pos + 8 ∧ c.length ≤ 2 ^ 31 - 1 ∧
      c.length = be32 (m.bytes (d.data + pos) 4) ∧ c.type = m.bytes (d.data + pos + 4) 4 := by
  unfold chunk at found
  obtain ⟨room, found⟩ := Outcome.ite_refused.mp found
  simp only [Bool.or_eq_true, decide_eq_true_eq, not_or, not_lt] at room
  obtain ⟨word, first, found⟩ := Outcome.bind_eq_value.mp found
  obtain ⟨short, found⟩ := Outcome.ite_refused.mp found
  simp only [Bool.or_eq_true, decide_eq_true_eq, not_or, not_lt] at short
  obtain ⟨type, second, found⟩ := Outcome.bind_eq_value.mp found
  cases Outcome.value.inj found
  have bytes := (Memory.read_value first).2
  have kind := (Memory.read_value second).2
  rw [← Nat.add_assoc] at kind
  refine ⟨rfl, ?_, rfl, short.1, congrArg be32 bytes, kind⟩
  dsimp only
  omega

theorem chunk_inside (found : chunk d m pos = .value c) :
    c.data + c.length + 4 ≤ d.size ∧ pos < c.stop ∧ c.stop ≤ d.size := by
  have bounds := chunk_value found
  omega

theorem chunk_ne_stray : chunk d m pos ≠ .stray := by
  unfold chunk
  refine Outcome.ite_ne_stray fun room => ?_
  simp only [Bool.or_eq_true, decide_eq_true_eq, not_or, not_lt] at room
  have first : d.read m pos 4 = .value (m.bytes (d.data + pos) 4) := Memory.read_eq (by omega)
  rw [first, Outcome.value_bind]
  refine Outcome.ite_ne_stray fun _ => ?_
  have second : d.read m (pos + 4) 4 = .value (m.bytes (d.data + (pos + 4)) 4) :=
    Memory.read_eq (by omega)
  rw [second]
  exact fun same => nomatch same

/-- The chunks that a walk meets from one place to another. -/
def Walk (d : ApngDocument) (m : Memory) : ℕ → ℕ → List Chunk → Prop
  | pos, stop, [] => pos = stop
  | pos, stop, c :: rest => chunk d m pos = .value c ∧ Walk d m c.stop stop rest

theorem Walk.snoc {chunks : List Chunk} (walk : Walk d m start pos chunks)
    (found : chunk d m pos = .value c) : Walk d m start c.stop (chunks ++ [c]) := by
  induction chunks generalizing start with
  | nil =>
      change start = pos at walk
      subst walk
      exact ⟨found, rfl⟩
  | cons first rest ih => exact ⟨walk.1, ih walk.2⟩

/-- A walk is no longer than the bytes it passes. -/
theorem Walk.length_le {chunks : List Chunk} (walk : Walk d m start stop chunks) :
    start + 12 * chunks.length ≤ stop := by
  induction chunks generalizing start with
  | nil => exact le_of_eq walk
  | cons c rest ih =>
      have later := ih walk.2
      have step := (chunk_value walk.1).1
      rw [List.length_cons]
      omega

/-! ## What opening has seen -/

/-- The chunk that stands where a walk has met one. -/
structure Sound (d : ApngDocument) (m : Memory) (c : Chunk) : Prop where
  behind : 8 ≤ c.data
  stop : c.stop = c.data + 4 + c.length
  stands : ∃ p : PngChunk, p.StandsAt m (d.data + (c.data - 8)) ∧ p.data.length = c.length ∧
    p.kind = c.type

def prefixSum (chunks : List Chunk) : ℕ :=
  (chunks.map fun c => if c.inPrefix then c.length + 12 else 0).sum

theorem prefixSum_snoc {chunks : List Chunk} :
    prefixSum (chunks ++ [c]) = prefixSum chunks + if c.inPrefix then c.length + 12 else 0 := by
  unfold prefixSum
  rw [List.map_append, List.sum_append, List.map_singleton, List.sum_singleton]

/-- The parts of the state of opening that the walks of a frame depend on. -/
structure OpenState.Same (s t : OpenState) : Prop where
  pos : t.pos = s.pos
  data : t.doc.data = s.doc.data
  size : t.doc.size = s.doc.size
  limit : t.doc.maxFramePngBytes = s.doc.maxFramePngBytes
  prefixBytes : t.doc.prefixBytes = s.doc.prefixBytes

structure OpenState.Aside (s t : OpenState) : Prop extends OpenState.Same s t where
  prefixEnd : t.doc.prefixEnd = s.doc.prefixEnd
  idat : t.idat = s.idat
  ended : t.ended = s.ended

end

section
variable {m : Memory} {c : Chunk} {s t : OpenState} {limits : ApngLimits}
  {sizeMax color depth : ℕ}

theorem openActl_aside (done : openActl limits m c s = .value t) : s.Aside t := by
  unfold openActl at done
  obtain ⟨_, done⟩ := Outcome.ite_refused.mp done
  obtain ⟨p, _, done⟩ := Outcome.bind_eq_value.mp done
  obtain ⟨_, done⟩ := Outcome.ite_refused.mp done
  cases Outcome.value.inj done
  exact ⟨⟨rfl, rfl, rfl, rfl, rfl⟩, rfl, rfl, rfl⟩

theorem takeSequence_aside (done : takeSequence m c s = .value t) : s.Aside t := by
  unfold takeSequence at done
  obtain ⟨_, done⟩ := Outcome.ite_refused.mp done
  obtain ⟨p, _, done⟩ := Outcome.bind_eq_value.mp done
  obtain ⟨_, done⟩ := Outcome.ite_refused.mp done
  cases Outcome.value.inj done
  exact ⟨⟨rfl, rfl, rfl, rfl, rfl⟩, rfl, rfl, rfl⟩

theorem openFctl_aside (done : openFctl m c s = .value t) : s.Aside t := by
  unfold openFctl at done
  obtain ⟨_, done⟩ := Outcome.ite_refused.mp done
  obtain ⟨f, _, done⟩ := Outcome.bind_eq_value.mp done
  obtain ⟨u, taken, done⟩ := Outcome.bind_eq_value.mp done
  obtain ⟨_, done⟩ := Outcome.ite_refused.mp done
  obtain ⟨_, done⟩ := Outcome.ite_refused.mp done
  cases Outcome.value.inj done
  obtain ⟨⟨pos, data, size, limit, bytes⟩, prefixEnd, idat, ended⟩ := takeSequence_aside taken
  exact ⟨⟨pos, data, size, limit, bytes⟩, prefixEnd, idat, ended⟩

theorem openFdat_aside (done : openFdat sizeMax m c s = .value t) : s.Aside t := by
  unfold openFdat at done
  obtain ⟨_, done⟩ := Outcome.ite_refused.mp done
  obtain ⟨u, taken, done⟩ := Outcome.bind_eq_value.mp done
  obtain ⟨_, done⟩ := Outcome.ite_refused.mp done
  obtain ⟨payload, _, done⟩ := Outcome.bind_eq_value.mp done
  cases Outcome.value.inj done
  obtain ⟨⟨pos, data, size, limit, bytes⟩, prefixEnd, idat, ended⟩ := takeSequence_aside taken
  exact ⟨⟨pos, data, size, limit, bytes⟩, prefixEnd, idat, ended⟩

theorem openPlte_aside (done : openPlte color depth c s = .value t) : s.Aside t := by
  unfold openPlte at done
  obtain ⟨_, done⟩ := Outcome.ite_refused.mp done
  obtain ⟨_, done⟩ := Outcome.ite_refused.mp done
  cases Outcome.value.inj done
  exact ⟨⟨rfl, rfl, rfl, rfl, rfl⟩, rfl, rfl, rfl⟩

theorem openTrns_aside (done : openTrns color c s = .value t) : s.Aside t := by
  unfold openTrns at done
  obtain ⟨_, done⟩ := Outcome.ite_refused.mp done
  cases Outcome.value.inj done
  exact ⟨⟨rfl, rfl, rfl, rfl, rfl⟩, rfl, rfl, rfl⟩

theorem openIdat_value (done : openIdat sizeMax color c s = .value t) :
    s.Same t ∧ t.doc.prefixEnd = (if s.idat then s.doc.prefixEnd else s.pos) ∧ t.idat = true ∧
      t.ended = s.ended := by
  unfold openIdat at done
  obtain ⟨_, done⟩ := Outcome.ite_refused.mp done
  obtain ⟨u, started, done⟩ : ∃ u : OpenState, (s.Same u ∧
      u.doc.prefixEnd = (if s.idat then s.doc.prefixEnd else s.pos) ∧ u.ended = s.ended) ∧
      (do
        let defaultPayload ← sum u.defaultPayload c.length sizeMax
        let v : OpenState := { u with idat := true, defaultPayload }
        if v.active then do
          let payload ← sum v.payload c.length sizeMax
          .value { v with frameData := true, payload }
        else .value v) = .value t := by
    refine ⟨_, ?_, done⟩
    split <;> exact ⟨⟨rfl, rfl, rfl, rfl, rfl⟩, rfl, rfl⟩
  obtain ⟨⟨pos, data, size, limit, bytes⟩, prefixEnd, ended⟩ := started
  obtain ⟨defaultPayload, _, done⟩ := Outcome.bind_eq_value.mp done
  dsimp only at done
  split at done
  · obtain ⟨payload, _, done⟩ := Outcome.bind_eq_value.mp done
    cases Outcome.value.inj done
    exact ⟨⟨pos, data, size, limit, bytes⟩, prefixEnd, rfl, ended⟩
  · cases Outcome.value.inj done
    exact ⟨⟨pos, data, size, limit, bytes⟩, prefixEnd, rfl, ended⟩

theorem openIend_value (done : openIend c s = .value t) :
    c.length = 0 ∧ c.stop = s.doc.size ∧ s.idat = true ∧ t = { s with ended := true } := by
  unfold openIend at done
  obtain ⟨sound, done⟩ := Outcome.ite_refused.mp done
  simp only [Bool.or_eq_true, decide_eq_true_eq, not_or, ne_eq, not_not, Bool.not_eq_true',
    Bool.not_eq_false] at sound
  obtain ⟨⟨⟨⟨empty, last⟩, idat⟩, _⟩, _⟩ := sound
  exact ⟨empty, last, idat, (Outcome.value.inj done).symm⟩

/-- What a chunk does to the state, by its kind. -/
structure OpenTaken (c : Chunk) (s t : OpenState) : Prop extends OpenState.Same s t where
  first : c.type = Kind.iDAT →
    t.doc.prefixEnd = (if s.idat then s.doc.prefixEnd else s.pos) ∧ t.idat = true
  other : c.type ≠ Kind.iDAT → t.doc.prefixEnd = s.doc.prefixEnd ∧ t.idat = s.idat
  last : c.type = Kind.iEND → c.length = 0 ∧ c.stop = s.doc.size ∧ s.idat = true ∧ t.ended = true
  going : c.type ≠ Kind.iEND → t.ended = s.ended

theorem taken_of_aside (aside : s.Aside t) (idat : c.type ≠ Kind.iDAT) (iend : c.type ≠ Kind.iEND) :
    OpenTaken c s t :=
  ⟨aside.toSame, fun same => absurd same idat, fun _ => ⟨aside.prefixEnd, aside.idat⟩,
    fun same => absurd same iend, fun _ => aside.ended⟩

theorem openChunk_value (done : openChunk sizeMax color depth limits m c s = .value t) :
    OpenTaken c s t := by
  have kinds : Kind.iDAT ≠ Kind.iEND := by decide
  unfold openChunk at done
  split at done
  · rename_i kind
    obtain ⟨_, done⟩ := Outcome.ite_refused.mp done
    cases Outcome.value.inj done
    exact taken_of_aside ⟨⟨rfl, rfl, rfl, rfl, rfl⟩, rfl, rfl, rfl⟩ (by rw [kind]; decide)
      (by rw [kind]; decide)
  · split at done
    · rename_i kind
      exact taken_of_aside (openActl_aside done) (by rw [kind]; decide) (by rw [kind]; decide)
    · split at done
      · rename_i kind
        exact taken_of_aside (openFctl_aside done) (by rw [kind]; decide) (by rw [kind]; decide)
      · split at done
        · rename_i kind
          obtain ⟨same, prefixEnd, idat, ended⟩ := openIdat_value done
          exact ⟨same, fun _ => ⟨prefixEnd, idat⟩, fun differs => absurd kind differs,
            fun iend => absurd (kind.symm.trans iend) kinds, fun _ => ended⟩
        · rename_i notIdat
          split at done
          · rename_i kind
            exact taken_of_aside (openFdat_aside done) notIdat (by rw [kind]; decide)
          · split at done
            · rename_i kind
              exact taken_of_aside (openPlte_aside done) notIdat (by rw [kind]; decide)
            · split at done
              · rename_i kind
                exact taken_of_aside (openTrns_aside done) notIdat (by rw [kind]; decide)
              · split at done
                · rename_i kind
                  obtain ⟨empty, last, idat, rfl⟩ := openIend_value done
                  exact ⟨⟨rfl, rfl, rfl, rfl, rfl⟩, fun same => absurd same notIdat,
                    fun _ => ⟨rfl, rfl⟩, fun _ => ⟨empty, last, idat, rfl⟩,
                    fun differs => absurd kind differs⟩
                · rename_i notIend
                  obtain ⟨_, done⟩ := Outcome.ite_refused.mp done
                  cases Outcome.value.inj done
                  exact taken_of_aside ⟨⟨rfl, rfl, rfl, rfl, rfl⟩, rfl, rfl, rfl⟩ notIdat notIend

end

/-! ## The walk of opening -/

section
variable {d : ApngDocument} {m : Memory} {s t : OpenState} {seen : List Chunk} {c head : Chunk}
  {limits : ApngLimits} {sizeMax color depth : ℕ}

/-- Opening has met these chunks. -/
structure Opening (d : ApngDocument) (m : Memory) (s : OpenState) (seen : List Chunk) : Prop where
  data : s.doc.data = d.data
  size : s.doc.size = d.size
  limit : s.doc.maxFramePngBytes = d.maxFramePngBytes
  walk : Walk d m 8 s.pos seen
  sound : ∀ c ∈ seen, Sound d m c
  before : s.idat = false → s.doc.prefixBytes = prefixSum seen.tail
  behind : s.idat = true → ∃ first rest after, seen = first :: rest ++ after ∧
    Walk d m 8 s.doc.prefixEnd (first :: rest) ∧ s.doc.prefixBytes = prefixSum rest ∧
    ∀ c ∈ first :: rest, c.type ≠ Kind.iEND
  going : s.ended = false → ∀ c ∈ seen, c.type ≠ Kind.iEND
  ended : s.ended = true → s.idat = true ∧ ∃ init last, seen = init ++ [last] ∧
    last.type = Kind.iEND ∧ last.length = 0 ∧ last.stop = d.size ∧
    ∀ c ∈ init, c.type ≠ Kind.iEND

/-- What one turn of opening has checked and done. -/
structure OpenStep (d : ApngDocument) (m : Memory) (s t : OpenState) (c : Chunk) : Prop where
  found : chunk d m s.pos = .value c
  sound : Sound d m c
  pos : t.pos = c.stop
  data : t.doc.data = s.doc.data
  size : t.doc.size = s.doc.size
  limit : t.doc.maxFramePngBytes = s.doc.maxFramePngBytes
  idat : t.idat = (s.idat || c.type = Kind.iDAT)
  prefixEnd : t.doc.prefixEnd =
    if c.type = Kind.iDAT && !s.idat then s.pos else s.doc.prefixEnd
  prefixBytes : t.doc.prefixBytes = s.doc.prefixBytes +
    if s.pos > 8 && !t.idat && c.inPrefix then c.length + 12 else 0
  last : c.type = Kind.iEND → c.length = 0 ∧ c.stop = d.size ∧ s.idat = true ∧ t.ended = true
  going : c.type ≠ Kind.iEND → t.ended = s.ended

theorem sum_value {value add limit total : ℕ} (done : sum value add limit = .value total) :
    total = value + add ∧ total ≤ limit := by
  unfold sum at done
  obtain ⟨room, done⟩ := Outcome.ite_refused.mp done
  simp only [Bool.or_eq_true, decide_eq_true_eq, not_or, not_lt] at room
  cases Outcome.value.inj done
  omega

theorem openBody_step (data : s.doc.data = d.data) (size : s.doc.size = d.size)
    (done : openBody sizeMax color depth limits m s = .value (.again t)) :
    ∃ c, OpenStep d m s t c := by
  unfold openBody at done
  split at done
  · exact nomatch Outcome.value.inj done
  · obtain ⟨c, found, done⟩ := Outcome.bind_eq_value.mp done
    obtain ⟨body, bodyRead, done⟩ := Outcome.bind_eq_value.mp done
    obtain ⟨check, checkRead, done⟩ := Outcome.bind_eq_value.mp done
    obtain ⟨right, done⟩ := Outcome.ite_refused.mp done
    obtain ⟨_, done⟩ := Outcome.ite_refused.mp done
    obtain ⟨taken, opened, done⟩ := Outcome.bind_eq_value.mp done
    obtain ⟨counted, counting, done⟩ := Outcome.bind_eq_value.mp done
    cases Turn.again.inj (Outcome.value.inj done)
    rw [chunk_document data size] at found
    obtain ⟨stop, _, behind, _, length, type⟩ := chunk_value found
    have sound : Sound d m c := by
      have bodyBytes := (Memory.read_value bodyRead).2
      have checkBytes := (Memory.read_value checkRead).2
      rw [data, ← Nat.add_assoc] at bodyBytes checkBytes
      rw [behind, ← Nat.add_assoc] at checkBytes
      have start : c.data - 8 = s.pos := by omega
      refine ⟨by omega, by omega, ?_⟩
      rw [start, type]
      refine standsAt_of_read length.symm checkBytes.symm ?_
      rw [← bodyBytes]
      exact Classical.not_not.mp right
    obtain ⟨u, aside, opened⟩ : ∃ u, s.Aside u ∧
        openChunk sizeMax color depth limits m c u = .value taken := by
      refine ⟨_, ?_, opened⟩
      split <;> exact ⟨⟨rfl, rfl, rfl, rfl, rfl⟩, rfl, rfl, rfl⟩
    have known := openChunk_value opened
    have idat : taken.idat = (s.idat || c.type = Kind.iDAT) := by
      by_cases kind : c.type = Kind.iDAT
      · rw [(known.first kind).2, decide_eq_true kind, Bool.or_true]
      · rw [(known.other kind).2, decide_eq_false kind, Bool.or_false, aside.idat]
    have prefixEnd : taken.doc.prefixEnd =
        if c.type = Kind.iDAT && !s.idat then s.pos else s.doc.prefixEnd := by
      by_cases kind : c.type = Kind.iDAT
      · rw [(known.first kind).1, aside.idat, aside.prefixEnd, aside.pos, decide_eq_true kind]
        cases s.idat <;> rfl
      · rw [(known.other kind).1, aside.prefixEnd, decide_eq_false kind]
        rfl
    have last : c.type = Kind.iEND →
        c.length = 0 ∧ c.stop = d.size ∧ s.idat = true ∧ taken.ended = true := by
      intro kind
      obtain ⟨empty, stop, idat, ended⟩ := known.last kind
      exact ⟨empty, by rw [stop, aside.size, size], by rw [← aside.idat, idat], ended⟩
    have going : c.type ≠ Kind.iEND → taken.ended = s.ended :=
      fun kind => (known.going kind).trans aside.ended
    have pos := known.pos.trans aside.pos
    split at counting
    · rename_i inside
      obtain ⟨bytes, summed, counting⟩ := Outcome.bind_eq_value.mp counting
      cases Outcome.value.inj counting
      obtain ⟨total, _⟩ := sum_value summed
      rw [pos] at inside
      refine ⟨c, found, sound, rfl, known.data.trans aside.data, known.size.trans aside.size,
        known.limit.trans aside.limit, idat, prefixEnd, ?_, last, going⟩
      dsimp only
      rw [if_pos inside, total, known.prefixBytes, aside.prefixBytes]
    · rename_i outside
      cases Outcome.value.inj counting
      rw [pos] at outside
      refine ⟨c, found, sound, rfl, known.data.trans aside.data, known.size.trans aside.size,
        known.limit.trans aside.limit, idat, prefixEnd, ?_, last, going⟩
      dsimp only
      rw [if_neg outside, known.prefixBytes, aside.prefixBytes]
      rfl

theorem Walk.stop_last {start stop : ℕ} {init : List Chunk} {last : Chunk}
    (walk : Walk d m start stop (init ++ [last])) : stop = last.stop := by
  induction init generalizing start with
  | nil => exact walk.2.symm
  | cons c rest ih => exact ih walk.2

/-- A turn meets one more chunk.  Nothing comes behind an `IEND`, which ends the document. -/
theorem Opening.step (opening : Opening d m s seen) (start : chunk d m 8 = .value head)
    (header : head.type = Kind.iHDR) (step : OpenStep d m s t c) :
    Opening d m t (seen ++ [c]) := by
  obtain ⟨data, size, limit, walk, sound, before, behind, going, ended⟩ := opening
  have running : s.ended = false := by
    by_contra closed
    rw [Bool.not_eq_false] at closed
    obtain ⟨_, init, last, rfl, _, _, stop, _⟩ := ended closed
    have reached := walk.stop_last
    have further := chunk_value step.found
    omega
  have earlier := going running
  have passed : ∀ first rest, seen = first :: rest → 8 < s.pos := by
    rintro first rest rfl
    have distance := walk.length_le
    rw [List.length_cons] at distance
    omega
  refine ⟨step.data.trans data, step.size.trans size, step.limit.trans limit,
    step.pos ▸ walk.snoc step.found, ?_, ?_, ?_, ?_, ?_⟩
  · intro other member
    rcases List.mem_append.mp member with old | new
    · exact sound other old
    · rw [List.mem_singleton.mp new]
      exact step.sound
  · intro none
    have counted := step.prefixBytes
    have idat := step.idat
    rw [none] at counted idat
    have first := (Bool.or_eq_false_iff.mp idat.symm).1
    rw [counted, before first]
    cases seen with
    | nil =>
        have pos : s.pos = 8 := walk.symm
        rw [pos]
        rfl
    | cons first rest =>
        have far := passed first rest rfl
        change prefixSum rest + _ = prefixSum (rest ++ [c])
        rw [prefixSum_snoc, decide_eq_true far]
        rfl
  · intro found
    have counted := step.prefixBytes
    have prefixEnd := step.prefixEnd
    rw [found, Bool.not_true, Bool.and_false, Bool.false_and, if_neg Bool.false_ne_true,
      Nat.add_zero] at counted
    by_cases known : s.idat = true
    · rw [known, Bool.not_true, Bool.and_false, if_neg Bool.false_ne_true] at prefixEnd
      obtain ⟨first, rest, after, rfl, prefixWalk, total, noEnd⟩ := behind known
      exact ⟨first, rest, after ++ [c], List.append_assoc _ _ _, prefixEnd ▸ prefixWalk,
        counted.trans total, noEnd⟩
    · rw [Bool.not_eq_true] at known
      have kind : c.type = Kind.iDAT := by
        have idat := step.idat
        rw [found, known, Bool.false_or] at idat
        exact of_decide_eq_true idat.symm
      rw [known, decide_eq_true kind] at prefixEnd
      cases seen with
      | nil =>
          have pos : s.pos = 8 := walk.symm
          have same := step.found
          rw [pos, start] at same
          cases Outcome.value.inj same
          exact absurd (header.symm.trans kind) (by decide)
      | cons first rest =>
          exact ⟨first, rest, [c], rfl, prefixEnd ▸ walk, counted.trans (before known), earlier⟩
  · intro open_ other member
    rcases List.mem_append.mp member with old | new
    · exact earlier other old
    · rw [List.mem_singleton.mp new]
      intro kind
      exact Bool.false_ne_true (open_.symm.trans (step.last kind).2.2.2)
  · intro closed
    by_cases kind : c.type = Kind.iEND
    · obtain ⟨empty, stop, idat, _⟩ := step.last kind
      refine ⟨?_, seen, c, rfl, kind, empty, stop, earlier⟩
      rw [step.idat, idat, Bool.true_or]
    · rw [step.going kind, running] at closed
      exact absurd closed Bool.false_ne_true

/-- The chunks of an opened document: its header, those in front of the first `IDAT`, the
others, and an empty `IEND` at the end of its bytes. -/
structure Opened (d : ApngDocument) (m : Memory) (header : PngChunk) (before after : List Chunk)
    (last : Chunk) : Prop where
  present : d.data ≠ 0
  room : 45 ≤ d.size
  signature : m.bytes d.data 8 = signature
  header : header.StandsAt m (d.data + 8) ∧ header.data.length = 13 ∧ header.kind = Kind.iHDR
  front : Walk d m 33 d.prefixEnd before
  prefixBytes : d.prefixBytes = prefixSum before
  back : ∃ pos, Walk d m d.prefixEnd pos after ∧ chunk d m pos = .value last
  finish : last.type = Kind.iEND ∧ last.length = 0 ∧ last.stop = d.size
  sound : ∀ c ∈ before ++ after ++ [last], Sound d m c
  inner : ∀ c ∈ before ++ after, c.type ≠ Kind.iEND

theorem Walk.of_document {e : ApngDocument} (data : e.data = d.data) (size : e.size = d.size)
    {start stop : ℕ} {chunks : List Chunk} (walk : Walk d m start stop chunks) :
    Walk e m start stop chunks := by
  induction chunks generalizing start with
  | nil => exact walk
  | cons c rest ih => exact ⟨(chunk_document data size).trans walk.1, ih walk.2⟩

theorem Walk.split {start stop : ℕ} {first second : List Chunk}
    (walk : Walk d m start stop (first ++ second)) :
    ∃ pos, Walk d m start pos first ∧ Walk d m pos stop second := by
  induction first generalizing start with
  | nil => exact ⟨start, rfl, walk⟩
  | cons c rest ih =>
      obtain ⟨pos, before, after⟩ := ih walk.2
      exact ⟨pos, ⟨walk.1, before⟩, after⟩

theorem Walk.stop_unique {start stop other : ℕ} {chunks : List Chunk}
    (walk : Walk d m start stop chunks) (again : Walk d m start other chunks) : stop = other := by
  induction chunks generalizing start with
  | nil => exact walk.symm.trans again
  | cons c rest ih => exact ih walk.2 again.2

/-- The walk of opening that has ended is the walk of an opened document. -/
theorem Opening.opened (opening : Opening d m s seen) (ended : s.ended = true)
    (start : chunk d m 8 = .value head) (header : head.type = Kind.iHDR ∧ head.length = 13)
    (present : d.data ≠ 0) (room : 45 ≤ d.size) (signed : m.bytes d.data 8 = signature) :
    ∃ header before after last, Opened s.doc m header before after last := by
  obtain ⟨idat, init, last, split, kind, empty, stop, noEnd⟩ := opening.ended ended
  obtain ⟨first, rest, behind, same, front, total, inner⟩ := opening.behind idat
  have data := opening.data
  have size := opening.size
  have found := front.1
  rw [start] at found
  cases Outcome.value.inj found
  obtain ⟨headStop, _, headData, _⟩ := chunk_value start
  have fourth : head.stop = 33 := by omega
  have headSound := opening.sound head (same ▸ List.mem_cons_self)
  obtain ⟨p, stands, length, named⟩ := headSound.stands
  rw [headData] at stands
  rcases List.eq_nil_or_concat behind with rfl | ⟨after, final, rfl⟩
  · exfalso
    have member : last ∈ head :: rest := by
      rw [List.append_nil] at same
      rw [← same, split]
      exact List.mem_append_right _ List.mem_cons_self
    exact inner last member kind
  · rw [List.concat_eq_append] at same
    have both : init = head :: rest ++ after ∧ last = final := by
      have whole : init ++ [last] = (head :: rest ++ after) ++ [final] := by
        rw [← split, same, List.append_assoc]
      obtain ⟨same, one⟩ := List.append_inj' whole rfl
      exact ⟨same, List.singleton_inj.mp one⟩
    obtain ⟨rfl, rfl⟩ := both
    have walk := opening.walk
    rw [split, List.append_assoc] at walk
    obtain ⟨pos, before, later⟩ := walk.split
    have reached := before.stop_unique front
    subst reached
    obtain ⟨lastPos, back, final⟩ := later.split
    refine ⟨p, rest, after, last, ?_⟩
    refine ⟨data ▸ present, size ▸ room, data ▸ signed, ?_, ?_, total, ⟨lastPos, ?_, ?_⟩,
      ⟨kind, empty, size ▸ stop⟩, ?_, ?_⟩
    · rw [data]
      exact ⟨stands, length.trans header.2, named.trans header.1⟩
    · exact Walk.of_document data size (fourth ▸ front.2)
    · exact Walk.of_document data size back
    · exact (chunk_document data size).trans final.1
    · intro c member
      have sound := opening.sound c (by
        rw [split]
        exact List.mem_cons_of_mem _ member)
      obtain ⟨far, ends, stands⟩ := sound
      exact ⟨far, ends, data ▸ stands⟩
    · intro c member
      exact noEnd c (List.mem_cons_of_mem _ member)

/-- Opening stops as it is. -/
theorem openBody_stop (done : openBody sizeMax color depth limits m s = .value (.stop t)) :
    t = s := by
  unfold openBody at done
  split at done
  · exact (Turn.stop.inj (Outcome.value.inj done)).symm
  · obtain ⟨_, _, done⟩ := Outcome.bind_eq_value.mp done
    obtain ⟨_, _, done⟩ := Outcome.bind_eq_value.mp done
    obtain ⟨_, _, done⟩ := Outcome.bind_eq_value.mp done
    obtain ⟨_, done⟩ := Outcome.ite_refused.mp done
    obtain ⟨_, done⟩ := Outcome.ite_refused.mp done
    obtain ⟨_, _, done⟩ := Outcome.bind_eq_value.mp done
    obtain ⟨_, _, done⟩ := Outcome.bind_eq_value.mp done
    exact nomatch Outcome.value.inj done

theorem opening_scan {fuel : ℕ} (start : chunk d m 8 = .value head)
    (header : head.type = Kind.iHDR) (opening : Opening d m s seen)
    (done : scan (openBody sizeMax color depth limits m) fuel s = .value t) :
    ∃ seen, Opening d m t seen := by
  refine scan_value (fun s => ∃ seen, Opening d m s seen) (fun s => ∃ seen, Opening d m s seen)
    ?_ ?_ ⟨seen, opening⟩ done
  · rintro s next ⟨seen, opening⟩ turned
    obtain ⟨c, step⟩ := openBody_step opening.data opening.size turned
    exact ⟨seen ++ [c], opening.step start header step⟩
  · rintro s last ⟨seen, opening⟩ turned
    rw [openBody_stop turned]
    exact ⟨seen, opening⟩

/-- Whatever the limits, opening has walked all chunks of the document. -/
theorem open_opened {data size : ℕ} (accepted : apngOpen sizeMax m data size limits = .value d) :
    (d.data = data ∧ d.size = size ∧ d.maxFramePngBytes = limits.framePngBytes) ∧
      ∃ header before after last, Opened d m header before after last := by
  unfold apngOpen at accepted
  obtain ⟨sizes, accepted⟩ := Outcome.ite_refused.mp accepted
  simp only [Bool.or_eq_true, decide_eq_true_eq, not_or, not_lt] at sizes
  obtain ⟨signed, signing, accepted⟩ := Outcome.bind_eq_value.mp accepted
  obtain ⟨same, accepted⟩ := Outcome.ite_refused.mp accepted
  obtain ⟨head, start, accepted⟩ := Outcome.bind_eq_value.mp accepted
  obtain ⟨kind, accepted⟩ := Outcome.ite_refused.mp accepted
  obtain ⟨p, checked, accepted⟩ := Outcome.bind_eq_value.mp accepted
  obtain ⟨_, accepted⟩ := Outcome.ite_refused.mp accepted
  obtain ⟨s, walked, accepted⟩ := Outcome.bind_eq_value.mp accepted
  obtain ⟨ended, accepted⟩ := Outcome.ite_refused.mp accepted
  obtain ⟨counted, _, accepted⟩ := Outcome.bind_eq_value.mp accepted
  obtain ⟨_, accepted⟩ := Outcome.ite_refused.mp accepted
  cases Outcome.value.inj accepted
  obtain ⟨long, _⟩ := Outcome.ite_refused.mp checked
  simp only [Bool.not_eq_true', Bool.not_eq_false] at ended
  obtain ⟨word, bytes⟩ := Memory.read_value signing
  let e : ApngDocument := ⟨data, size, 0, 0, limits.framePngBytes, be32 (p.take 4),
    be32 ((p.drop 4).take 4), 1, 1, false⟩
  have header : head.type = Kind.iHDR ∧ head.length = 13 :=
    ⟨Classical.not_not.mp kind, Classical.not_not.mp long⟩
  have begun : chunk e m 8 = .value head := (chunk_document rfl rfl).trans start
  have fresh : Opening e m ⟨e, 8, false, false, false, false, false, false, false, false, 0, 0, 0, 0,
      0⟩ [] :=
    ⟨rfl, rfl, rfl, rfl, fun _ none => absurd none List.not_mem_nil, fun _ => rfl,
      fun no => absurd no Bool.false_ne_true, fun _ _ none => absurd none List.not_mem_nil,
      fun no => absurd no Bool.false_ne_true⟩
  obtain ⟨seen, opening⟩ := opening_scan begun header.1 fresh walked
  have signature : m.bytes data 8 = signature := bytes.symm.trans (Classical.not_not.mp same)
  obtain ⟨⟨⟨⟨⟨⟨present, _⟩, _⟩, _⟩, _⟩, _⟩, room⟩ := sizes
  exact ⟨⟨opening.data, opening.size, opening.limit⟩,
    opening.opened ended begun header present room signature⟩

end

section
variable {d : ApngDocument} {m n : Memory} {place start stop : ℕ} {c : Chunk} {chunks : List Chunk}
  {header : PngChunk} {before after : List Chunk} {last : Chunk}

theorem Walk.copied (copied : d.CopiedTo m place n) (walk : Walk d m start stop chunks) :
    Walk (d.moved place) n start stop chunks := by
  induction chunks generalizing start with
  | nil => exact walk
  | cons c rest ih => exact ⟨(chunk_copied copied).trans walk.1, ih walk.2⟩

theorem Sound.copied (copied : d.CopiedTo m place n) (inside : c.stop ≤ d.size)
    (sound : Sound d m c) : Sound (d.moved place) n c := by
  obtain ⟨far, stop, p, stands, length, kind⟩ := sound
  refine ⟨far, stop, p, stands.congr ?_, length, kind⟩
  intro i small
  change n (place + (c.data - 8) + i) = _
  rw [Nat.add_assoc, Nat.add_assoc]
  exact copied _ (by omega)

theorem Walk.stop_le (walk : Walk d m start stop chunks) : ∀ c ∈ chunks, c.stop ≤ d.size := by
  induction chunks generalizing start with
  | nil => exact fun _ none => absurd none List.not_mem_nil
  | cons first rest ih =>
      intro c member
      rcases List.mem_cons.mp member with rfl | later
      · exact (chunk_inside walk.1).2.2
      · exact ih walk.2 c later

theorem Opened.prefixEnd_le (opened : Opened d m header before after last) : d.prefixEnd ≤ d.size := by
  obtain ⟨pos, back, final⟩ := opened.back
  have passed := back.length_le
  have inside := chunk_inside final
  omega

/-- The memory of the document is all that its chunks depend on. -/
theorem Opened.copied (copied : d.CopiedTo m place n) (present : place ≠ 0)
    (opened : Opened d m header before after last) :
    Opened (d.moved place) n header before after last := by
  obtain ⟨_, room, signed, ⟨stands, length, kind⟩, walk, prefixBytes, ⟨pos, back, final⟩,
    finish, sound, inner⟩ := opened
  have finalInside := chunk_inside final
  refine ⟨present, room, ?_, ⟨stands.congr ?_, length, kind⟩, walk.copied copied, prefixBytes,
    ⟨pos, back.copied copied, (chunk_copied copied).trans final⟩, finish, ?_, inner⟩
  · rw [← signed]
    exact Memory.bytes_congr fun i small => copied i (by omega)
  · intro i small
    change n (place + 8 + i) = _
    rw [Nat.add_assoc, Nat.add_assoc]
    exact copied _ (by omega)
  · intro c member
    refine (sound c member).copied copied ?_
    rcases List.mem_append.mp member with old | new
    · rcases List.mem_append.mp old with first | second
      · exact walk.stop_le c first
      · exact back.stop_le c second
    · rw [List.mem_singleton.mp new]
      exact finalInside.2.2

theorem Opened.keeps (same : d.Keeps m n) (opened : Opened d m header before after last) :
    Opened d n header before after last := opened.copied same.copied opened.present

end

/-! ## Opening comes to an end -/

section
variable {d : ApngDocument} {m : Memory} {s t : OpenState} {c : Chunk} {limits : ApngLimits}
  {sizeMax color depth start count : ℕ}

theorem document_read_ne_stray (inside : start + count ≤ d.size) : d.read m start count ≠ .stray := by
  unfold ApngDocument.read
  rw [Memory.read_eq inside]
  exact fun same => nomatch same

theorem sum_ne_stray {value add limit : ℕ} : sum value add limit ≠ .stray :=
  Outcome.ite_ne_stray fun _ same => nomatch same

theorem control_ne_stray (inside : c.data + c.length ≤ d.size) : control d m c ≠ .stray := by
  unfold control
  refine Outcome.ite_ne_stray fun long => ?_
  refine Outcome.bind_ne_stray (document_read_ne_stray (by omega)) fun p _ => ?_
  exact Outcome.ite_ne_stray fun _ same => nomatch same

theorem ihdr_ne_stray (inside : c.data + c.length ≤ d.size) : ihdr d m c ≠ .stray := by
  unfold ihdr
  refine Outcome.ite_ne_stray fun long => ?_
  refine Outcome.bind_ne_stray (document_read_ne_stray (by omega)) fun p _ => ?_
  refine Outcome.ite_ne_stray fun _ => ?_
  exact Outcome.ite_ne_stray fun _ same => nomatch same

/-- A turn of the search for a frame goes on behind its chunk, or stops in front of it. -/
theorem nextBody_turn {s : NextState} {turn : Turn NextState (ApngFrame × ℕ)}
    (turned : nextBody d m s = .value turn) : s.pos < d.size ∧
      match turn with
      | .again next => s.pos < next.pos ∧ next.pos ≤ d.size
      | .stop (_, cursor) => s.haveData = true ∧ (cursor = s.pos ∨ cursor = d.size) := by
  unfold nextBody at turned
  obtain ⟨inside, turned⟩ := Outcome.ite_refused.mp turned
  rw [not_le] at inside
  refine ⟨inside, ?_⟩
  obtain ⟨c, found, turned⟩ := Outcome.bind_eq_value.mp turned
  obtain ⟨_, further, last⟩ := chunk_inside found
  split at turned
  · rename_i stopped
    cases Outcome.value.inj turned
    refine ⟨(Bool.and_eq_true_iff.mp stopped).2, ?_⟩
    split
    · exact .inr rfl
    · exact .inl rfl
  · obtain ⟨next, started, turned⟩ := Outcome.bind_eq_value.mp turned
    split at turned
    · obtain ⟨_, turned⟩ := Outcome.ite_refused.mp turned
      obtain ⟨bytes, _, turned⟩ := Outcome.bind_eq_value.mp turned
      cases Outcome.value.inj turned
      exact ⟨further, last⟩
    · cases Outcome.value.inj turned
      exact ⟨further, last⟩

theorem nextBody_ne_stray {s : NextState} : nextBody d m s ≠ .stray := by
  unfold nextBody
  refine Outcome.ite_ne_stray fun _ => ?_
  refine Outcome.bind_ne_stray chunk_ne_stray fun c found => ?_
  have inside := chunk_inside found
  split
  · exact fun same => nomatch same
  · refine Outcome.bind_ne_stray ?_ fun next _ => ?_
    · split
      · refine Outcome.bind_ne_stray (control_ne_stray (by omega)) fun _ _ same => nomatch same
      · exact fun same => nomatch same
    · split
      · refine Outcome.ite_ne_stray fun _ => ?_
        exact Outcome.bind_ne_stray sum_ne_stray fun _ _ same => nomatch same
      · exact fun same => nomatch same

theorem next_ne_stray {cursor : ℕ} : apngNext d m cursor ≠ .stray := by
  unfold apngNext
  refine Outcome.ite_ne_stray fun _ => ?_
  refine Outcome.bind_ne_stray sum_ne_stray fun bytes _ => ?_
  refine scan_ne_stray (fun _ => True) (fun s => d.size - s.pos) (fun _ _ => nextBody_ne_stray) ?_
    trivial (by dsimp only; omega)
  intro s next _ turned
  obtain ⟨inside, further, _⟩ := nextBody_turn turned
  exact ⟨trivial, by omega⟩

/-- Each frame moves the cursor on. -/
theorem next_moves {cursor further : ℕ} {f : ApngFrame}
    (found : apngNext d m cursor = .value (f, further)) : cursor < further ∧ further ≤ d.size := by
  unfold apngNext at found
  obtain ⟨inside, found⟩ := Outcome.ite_refused.mp found
  obtain ⟨bytes, _, found⟩ := Outcome.bind_eq_value.mp found
  refine scan_value (fun s => cursor ≤ s.pos ∧ (s.haveData = true → cursor < s.pos))
    (fun last => cursor < last.2 ∧ last.2 ≤ d.size) ?_ ?_ ?_ found
  · rintro s next ⟨behind, _⟩ turned
    obtain ⟨_, further, _⟩ := nextBody_turn turned
    exact ⟨by omega, fun _ => by omega⟩
  · rintro s ⟨f, last⟩ ⟨_, moved⟩ turned
    obtain ⟨below, data, place⟩ := nextBody_turn turned
    have far := moved data
    dsimp only
    omega
  · refine ⟨?_, fun none => absurd none Bool.false_ne_true⟩
    dsimp only
    split <;> omega

theorem takeSequence_ne_stray (inside : c.data + 4 ≤ s.doc.size) :
    takeSequence m c s ≠ .stray := by
  unfold takeSequence
  refine Outcome.ite_ne_stray fun _ => ?_
  refine Outcome.bind_ne_stray (document_read_ne_stray inside) fun p _ => ?_
  exact Outcome.ite_ne_stray fun _ same => nomatch same

theorem openChunk_ne_stray (inside : c.data + c.length + 4 ≤ s.doc.size) :
    openChunk sizeMax color depth limits m c s ≠ .stray := by
  have value : ∀ u : OpenState, Outcome.value u ≠ .stray := fun _ same => nomatch same
  unfold openChunk
  split
  · exact Outcome.ite_ne_stray fun _ => value _
  · split
    · refine Outcome.ite_ne_stray fun long => ?_
      simp only [Bool.or_eq_true, decide_eq_true_eq, not_or, ne_eq, not_not] at long
      refine Outcome.bind_ne_stray (document_read_ne_stray (by omega)) fun p _ => ?_
      exact Outcome.ite_ne_stray fun _ => value _
    · split
      · refine Outcome.ite_ne_stray fun _ => ?_
        refine Outcome.bind_ne_stray (control_ne_stray (by omega)) fun f _ => ?_
        refine Outcome.bind_ne_stray (takeSequence_ne_stray (by omega)) fun u _ => ?_
        exact Outcome.ite_ne_stray fun _ => Outcome.ite_ne_stray fun _ => value _
      · split
        · refine Outcome.ite_ne_stray fun _ => ?_
          refine Outcome.bind_ne_stray sum_ne_stray fun total _ => ?_
          generalize (if s.idat = true then s else _) = u
          dsimp only
          split
          · exact Outcome.bind_ne_stray sum_ne_stray fun _ _ => value _
          · exact value _
        · split
          · refine Outcome.ite_ne_stray fun long => ?_
            simp only [Bool.or_eq_true, decide_eq_true_eq, not_or, not_lt] at long
            refine Outcome.bind_ne_stray (takeSequence_ne_stray (by omega)) fun u _ => ?_
            refine Outcome.ite_ne_stray fun _ => ?_
            exact Outcome.bind_ne_stray sum_ne_stray fun _ _ => value _
          · split
            · exact Outcome.ite_ne_stray fun _ => Outcome.ite_ne_stray fun _ => value _
            · split
              · exact Outcome.ite_ne_stray fun _ => value _
              · split
                · exact Outcome.ite_ne_stray fun _ => value _
                · exact Outcome.ite_ne_stray fun _ => value _

theorem openBody_ne_stray : openBody sizeMax color depth limits m s ≠ .stray := by
  unfold openBody
  split
  · exact fun same => nomatch same
  · refine Outcome.bind_ne_stray chunk_ne_stray fun c found => ?_
    have bounds := chunk_value found
    refine Outcome.bind_ne_stray (document_read_ne_stray (by omega)) fun body _ => ?_
    refine Outcome.bind_ne_stray (document_read_ne_stray (by omega)) fun check _ => ?_
    refine Outcome.ite_ne_stray fun _ => Outcome.ite_ne_stray fun _ => ?_
    refine Outcome.bind_ne_stray (openChunk_ne_stray ?_) fun u _ => ?_
    · have same : ∀ flag : Bool, (if flag then { s with idatEnd := true } else s).doc = s.doc :=
        fun flag => by cases flag <;> rfl
      rw [same]
      omega
    · refine Outcome.bind_ne_stray ?_ fun v _ same => nomatch same
      split
      · exact Outcome.bind_ne_stray sum_ne_stray fun _ _ same => nomatch same
      · exact fun same => nomatch same

/-- Opening reads inside of the bytes that it was given, and comes to an end. -/
theorem open_ne_stray {data size : ℕ} : apngOpen sizeMax m data size limits ≠ .stray := by
  unfold apngOpen
  refine Outcome.ite_ne_stray fun sizes => ?_
  simp only [Bool.or_eq_true, decide_eq_true_eq, not_or, not_lt] at sizes
  have room := sizes.2
  refine Outcome.bind_ne_stray (document_read_ne_stray (by dsimp only; omega)) fun head _ => ?_
  refine Outcome.ite_ne_stray fun _ => ?_
  refine Outcome.bind_ne_stray chunk_ne_stray fun c found => ?_
  have inside := chunk_inside found
  refine Outcome.ite_ne_stray fun _ => ?_
  refine Outcome.bind_ne_stray (ihdr_ne_stray (by omega)) fun p _ => ?_
  refine Outcome.ite_ne_stray fun _ => ?_
  refine Outcome.bind_ne_stray ?_ fun s walked => ?_
  · refine scan_ne_stray (fun s => s.doc.size = size) (fun s => size - s.pos)
      (fun _ _ => openBody_ne_stray) ?_ rfl (by dsimp only; omega)
    intro s next bytes turned
    obtain ⟨c, step⟩ := openBody_step rfl rfl turned
    have bounds := chunk_inside step.found
    have pos := step.pos
    exact ⟨step.size.trans bytes, by omega⟩
  · have bytes : s.doc.size = size := by
      refine scan_value (fun s => s.doc.size = size) (fun s => s.doc.size = size) ?_ ?_ rfl walked
      · intro s next bytes turned
        obtain ⟨c, step⟩ := openBody_step rfl rfl turned
        exact step.size.trans bytes
      · intro s last bytes turned
        rw [openBody_stop turned]
        exact bytes
    refine Outcome.ite_ne_stray fun _ => ?_
    refine Outcome.bind_ne_stray ?_ fun last _ => ?_
    · refine scan_ne_stray (fun _ => True) (fun p => s.doc.size - p.1) ?_ ?_ trivial ?_
      · rintro p _
        unfold countBody
        split
        · rename_i found
          exact absurd found next_ne_stray
        · exact fun same => nomatch same
        · exact fun same => nomatch same
      · intro p next _ turned
        unfold countBody at turned
        split at turned
        · exact nomatch turned
        · exact nomatch Outcome.value.inj turned
        · rename_i f cursor found
          cases Turn.again.inj (Outcome.value.inj turned)
          have moved := next_moves found
          exact ⟨trivial, by dsimp only; omega⟩
      · dsimp only
        omega
    · exact Outcome.ite_ne_stray fun _ same => nomatch same

end

end LvglAic.Apng
