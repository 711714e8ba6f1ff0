import LvglAic.Apng.DocumentChunks
import LvglAic.Apng.Extract

/-! # Extraction is all or nothing (`lv_aic_apng.c`)

The walks that write meet the chunks that were met before: those in front of the first
`IDAT` when the document was opened, and those of the frame when they were measured.
-/

namespace LvglAic.Apng

open LvglAic.Machine

section
variable {d : ApngDocument} {m : Memory} {w : Writer} {c : Chunk} {f : ApngFrame}
  {output capacity pos stop bytes total fuel length : ℕ} {packet content kind : List UInt8}

/-- The output starts with these bytes, written one after the other. -/
structure Writer.Holds (w : Writer) (output : ℕ) (packet : List UInt8) : Prop where
  log : w.log = Memory.placed output packet
  offset : w.offset = packet.length

/-- No byte of the output is a byte of the document. -/
def Apart (d : ApngDocument) (output capacity : ℕ) : Prop :=
  output + capacity ≤ d.data ∨ d.data + d.size ≤ output

theorem Writer.Holds.keeps (holds : w.Holds output packet) (apart : Apart d output capacity)
    (room : packet.length ≤ capacity) : d.Keeps m (w.memory m) := by
  intro i inside
  unfold Writer.memory
  rw [holds.log]
  apply Memory.stores_other
  intro v member same
  have bounds := Memory.mem_placed member
  unfold Apart at apart
  omega

theorem Writer.Holds.emit (holds : w.Holds output packet) (capacity : ℕ) (content : List UInt8)
    (room : packet.length + content.length ≤ capacity) :
    ∃ v, w.emit output capacity content = .value v ∧ v.Holds output (packet ++ content) := by
  unfold Writer.emit
  rw [holds.offset, if_pos room]
  refine ⟨_, rfl, ?_, ?_⟩
  · dsimp only
    rw [holds.log, Memory.placed_append]
  · exact (List.length_append).symm

/-- The bytes of a chunk in the output. -/
def chunkBytes (kind content : List UInt8) : List UInt8 :=
  put32 content.length ++ kind ++ content ++ put32 (crc32 (kind ++ content))

theorem chunkBytes_length (named : kind.length = 4) :
    (chunkBytes kind content).length = content.length + 12 := by
  unfold chunkBytes
  simp only [List.length_append, put32_length, named]
  omega

/-- Bytes of the output are read back. -/
theorem Writer.Holds.read {before middle after : List UInt8} (m : Memory) (capacity : ℕ)
    (holds : w.Holds output (before ++ (middle ++ after)))
    (room : before.length + middle.length ≤ capacity) :
    (w.memory m).read output capacity before.length middle.length = .value middle := by
  have whole : (m.stores (Memory.placed output (before ++ (middle ++ after)))).bytes output
      (before ++ (middle ++ after)).length = before ++ (middle ++ after) :=
    Memory.stores_placed _
  rw [List.length_append, List.length_append, Memory.bytes_append, Memory.bytes_append] at whole
  have rest := (List.append_inj' whole (by simp)).2
  have first := (List.append_inj' rest (by simp)).1
  rw [Memory.read_eq room]
  unfold Writer.memory
  rw [holds.log, first]

/-- A chunk is written with the check of its kind and its data. -/
theorem Writer.Holds.chunk (m : Memory) (data : Memory → Outcome (List UInt8))
    (holds : w.Holds output packet) (named : kind.length = 4)
    (source : ∀ (v : Writer) (more : List UInt8), v.Holds output more → more.length ≤ capacity →
      data (v.memory m) = .value content)
    (room : packet.length + (content.length + 12) ≤ capacity) :
    ∃ v, writeChunk m output capacity kind data content.length w = .value v ∧
      v.Holds output (packet ++ chunkBytes kind content) := by
  obtain ⟨sized, sizedDone, sizedHolds⟩ := holds.emit capacity (put32 content.length)
    (by rw [put32_length]; omega)
  have sizedLength : (packet ++ put32 content.length).length = packet.length + 4 := by simp
  obtain ⟨titled, titledDone, titledHolds⟩ := sizedHolds.emit capacity kind (by omega)
  have titledLength : (packet ++ put32 content.length ++ kind).length = packet.length + 8 := by
    simp [named]
  obtain ⟨filled, filledDone, filledHolds⟩ := titledHolds.emit capacity content (by omega)
  have filledLength : (packet ++ put32 content.length ++ kind ++ content).length =
      packet.length + 8 + content.length := by
    rw [List.length_append, titledLength]
  obtain ⟨last, lastDone, lastHolds⟩ := filledHolds.emit capacity (put32 (crc32 (kind ++ content)))
    (by rw [put32_length]; omega)
  have body : (filled.memory m).read output capacity (w.offset + 4) (4 + content.length) =
      .value (kind ++ content) := by
    have split : filled.Holds output ((packet ++ put32 content.length) ++
        ((kind ++ content) ++ [])) := by
      rw [List.append_nil, ← List.append_assoc]
      exact filledHolds
    have read := split.read m capacity
    rw [sizedLength, List.length_append, named] at read
    rw [holds.offset]
    exact read (by omega)
  refine ⟨last, ?_, ?_⟩
  · unfold writeChunk
    rw [sizedDone, Outcome.value_bind, titledDone, Outcome.value_bind,
      source titled _ titledHolds (by omega), Outcome.value_bind, filledDone, Outcome.value_bind,
      body, Outcome.value_bind, lastDone]
  · unfold chunkBytes
    rw [← List.append_assoc, ← List.append_assoc, ← List.append_assoc]
    exact lastHolds

/-! ## The walks of an extraction -/

/-- The chunks in front of the first `IDAT` are copied as they stand. -/
theorem prefix_scan {chunks : List Chunk} (walk : Walk d m pos d.prefixEnd chunks)
    (sound : ∀ c ∈ chunks, Sound d m c) (apart : Apart d output capacity)
    (holds : w.Holds output packet) (room : packet.length + prefixSum chunks ≤ capacity)
    (enough : chunks.length < fuel) :
    ∃ (v : Writer) (copied : List PngChunk),
      scan (prefixBody d m output capacity) fuel (pos, w) = .value (true, v) ∧
      v.Holds output (packet ++ copied.flatMap PngChunk.encode) ∧
      (copied.flatMap PngChunk.encode).length = prefixSum chunks ∧
      ∀ p ∈ copied, ∃ c ∈ chunks, p.kind = c.type := by
  induction chunks generalizing pos w packet fuel with
  | nil =>
      obtain ⟨rest, rfl⟩ := Nat.exists_eq_succ_of_ne_zero (Nat.ne_of_gt enough)
      have reached : pos = d.prefixEnd := walk
      refine ⟨w, [], scan_stop ?_, ?_, rfl, fun _ none => absurd none List.not_mem_nil⟩
      · exact if_pos (le_of_eq reached.symm)
      · rw [List.flatMap_nil, List.append_nil]
        exact holds
  | cons c rest ih =>
      obtain ⟨fuel, rfl⟩ := Nat.exists_eq_succ_of_ne_zero (Nat.ne_of_gt (Nat.zero_lt_of_lt enough))
      obtain ⟨found, later⟩ := walk
      have before : pos < d.prefixEnd := by
        have short := later.length_le
        have bounds := chunk_inside found
        omega
      have keeps : d.Keeps m (w.memory m) := holds.keeps apart (by omega)
      have same : chunk d (w.memory m) pos = .value c := (chunk_keeps keeps).trans found
      have total : prefixSum (c :: rest) =
          (if c.inPrefix then c.length + 12 else 0) + prefixSum rest := by
        unfold prefixSum
        rw [List.map_cons, List.sum_cons]
      have others : ∀ c ∈ rest, Sound d m c := fun c member =>
        sound c (List.mem_cons_of_mem _ member)
      rw [List.length_cons] at enough
      by_cases copied : c.inPrefix = true
      · rw [if_pos copied] at total
        obtain ⟨stop, last, data, _⟩ := chunk_value found
        obtain ⟨p, stands, length, kind⟩ := (sound c List.mem_cons_self).stands
        have place : c.data - 8 = pos := by omega
        have size : c.stop - pos = p.data.length + 12 := by omega
        have read : d.read (w.memory m) pos (c.stop - pos) = .value p.encode := by
          rw [read_keeps keeps, size]
          unfold ApngDocument.read
          rw [Memory.read_eq (by omega)]
          rw [place] at stands
          exact congrArg Outcome.value stands
        have encoded := p.encode_length
        obtain ⟨v, written, vHolds⟩ := holds.emit capacity p.encode (by omega)
        obtain ⟨u, more, done, uHolds, moreLength, kinds⟩ := ih later others vHolds
          (by rw [List.length_append]; omega) (Nat.lt_of_succ_lt_succ enough)
        refine ⟨u, p :: more, ?_, ?_, ?_, ?_⟩
        · refine (scan_again ?_).trans done
          unfold prefixBody
          dsimp only
          rw [if_neg (by omega), same]
          dsimp only
          rw [if_pos copied, read, Outcome.value_bind, written, Outcome.value_bind]
        · rw [List.flatMap_cons, ← List.append_assoc]
          exact uHolds
        · rw [List.flatMap_cons, List.length_append, moreLength, total]
          omega
        · intro q member
          rcases List.mem_cons.mp member with rfl | further
          · exact ⟨c, List.mem_cons_self, kind⟩
          · obtain ⟨e, inside, same⟩ := kinds q further
            exact ⟨e, List.mem_cons_of_mem _ inside, same⟩
      · rw [if_neg copied, Nat.zero_add] at total
        obtain ⟨u, more, done, uHolds, moreLength, kinds⟩ := ih later others holds
          (by omega) (Nat.lt_of_succ_lt_succ enough)
        refine ⟨u, more, ?_, uHolds, moreLength.trans total.symm, ?_⟩
        · refine (scan_again ?_).trans done
          unfold prefixBody
          dsimp only
          rw [if_neg (by omega), same]
          dsimp only
          rw [if_neg copied]
        · intro q member
          obtain ⟨e, inside, same⟩ := kinds q member
          exact ⟨e, List.mem_cons_of_mem _ inside, same⟩

/-- A chunk with data of the frame, and how much of its data is a sequence number. -/
def Chunk.frameData (c : Chunk) : Bool := c.type = Kind.iDAT || c.type = Kind.fdAT

def Chunk.skip (c : Chunk) : ℕ := if c.type = Kind.fdAT then 4 else 0

def dataSum (chunks : List Chunk) : ℕ :=
  (chunks.map fun c => if c.frameData then c.length - c.skip + 12 else 0).sum

theorem dataSum_cons (c : Chunk) (rest : List Chunk) :
    dataSum (c :: rest) = (if c.frameData then c.length - c.skip + 12 else 0) + dataSum rest := by
  unfold dataSum
  rw [List.map_cons, List.sum_cons]

theorem measureBody_turn {turn : Turn (ℕ × ℕ) ℕ}
    (turned : measureBody d m stop (pos, bytes) = .value turn) :
    (stop ≤ pos ∧ turn = .stop bytes) ∨ ∃ c, pos < stop ∧ chunk d m pos = .value c ∧
      c.stop ≤ stop ∧ (c.frameData = true → c.skip ≤ c.length) ∧
      turn = .again (c.stop, bytes + if c.frameData then c.length - c.skip + 12 else 0) := by
  unfold measureBody at turned
  dsimp only at turned
  split at turned
  · rename_i ended
    exact .inl ⟨ended, (Outcome.value.inj turned).symm⟩
  · rename_i going
    obtain ⟨c, found, turned⟩ := Outcome.bind_eq_value.mp turned
    obtain ⟨last, turned⟩ := Outcome.ite_refused.mp turned
    refine .inr ⟨c, not_le.mp going, found, not_lt.mp last, ?_⟩
    split at turned
    · rename_i data
      change c.frameData = true at data
      obtain ⟨enough, turned⟩ := Outcome.ite_refused.mp turned
      obtain ⟨total, summed, turned⟩ := Outcome.bind_eq_value.mp turned
      cases Outcome.value.inj turned
      rw [(sum_value summed).1, if_pos data]
      exact ⟨fun _ => not_lt.mp enough, rfl⟩
    · rename_i other
      change ¬c.frameData = true at other
      cases Outcome.value.inj turned
      rw [if_neg other]
      exact ⟨fun data => absurd data other, rfl⟩

/-- What was measured is a walk that ends where the frame does. -/
theorem measure_walk (inside : pos ≤ stop)
    (measured : scan (measureBody d m stop) fuel (pos, bytes) = .value total) :
    ∃ chunks, Walk d m pos stop chunks ∧ total = bytes + dataSum chunks ∧ chunks.length < fuel ∧
      ∀ c ∈ chunks, c.frameData = true → c.skip ≤ c.length := by
  induction fuel generalizing pos bytes with
  | zero => exact nomatch measured
  | succ fuel ih =>
      cases turned : measureBody d m stop (pos, bytes) with
      | stray => simp [scan, turned] at measured
      | refused => simp [scan, turned] at measured
      | value turn =>
          obtain ⟨ended, rfl⟩ | ⟨c, below, found, known⟩ := measureBody_turn turned
          · rw [scan_stop turned] at measured
            cases Outcome.value.inj measured
            exact ⟨[], le_antisymm inside ended, rfl, Nat.succ_pos _,
              fun _ none => absurd none List.not_mem_nil⟩
          · obtain ⟨last, enough, rfl⟩ := known
            rw [scan_again turned] at measured
            obtain ⟨rest, walk, sum, short, skips⟩ := ih last measured
            refine ⟨c :: rest, ⟨found, walk⟩, ?_, Nat.succ_lt_succ short, ?_⟩
            · rw [dataSum_cons, sum, Nat.add_assoc]
            · intro e member data
              rcases List.mem_cons.mp member with rfl | later
              · exact enough data
              · exact skips e later data

theorem measure_ne_stray :
    scan (measureBody d m stop) (d.size + 1) (pos, bytes) ≠ .stray := by
  refine scan_ne_stray (fun _ => True) (fun s => d.size - s.1) ?_ ?_ trivial (by dsimp only; omega)
  · rintro ⟨pos, bytes⟩ _
    unfold measureBody
    dsimp only
    split
    · exact fun same => nomatch same
    · refine Outcome.bind_ne_stray chunk_ne_stray fun c _ => Outcome.ite_ne_stray fun _ => ?_
      split
      · refine Outcome.ite_ne_stray fun _ => ?_
        exact Outcome.bind_ne_stray sum_ne_stray fun _ _ same => nomatch same
      · exact fun same => nomatch same
  · rintro ⟨pos, bytes⟩ next _ turned
    obtain ⟨_, done⟩ | ⟨c, _, found, _, _, done⟩ := measureBody_turn turned
    · exact nomatch done
    · cases Turn.again.inj done
      have inside := chunk_inside found
      exact ⟨trivial, by dsimp only; omega⟩

/-- The data of the frame is written as `IDAT` chunks. -/
theorem data_scan {chunks : List Chunk} (walk : Walk d m pos stop chunks)
    (skips : ∀ c ∈ chunks, c.frameData = true → c.skip ≤ c.length)
    (apart : Apart d output capacity) (holds : w.Holds output packet)
    (room : packet.length + dataSum chunks ≤ capacity) (enough : chunks.length < fuel) :
    ∃ (v : Writer) (written : List PngChunk),
      scan (dataBody d m output capacity stop) fuel (pos, w) = .value (true, v) ∧
      v.Holds output (packet ++ written.flatMap PngChunk.encode) ∧
      (written.flatMap PngChunk.encode).length = dataSum chunks ∧
      ∀ p ∈ written, p.kind = Kind.iDAT := by
  induction chunks generalizing pos w packet fuel with
  | nil =>
      obtain ⟨rest, rfl⟩ := Nat.exists_eq_succ_of_ne_zero (Nat.ne_of_gt enough)
      have reached : pos = stop := walk
      refine ⟨w, [], scan_stop ?_, ?_, rfl, fun _ none => absurd none List.not_mem_nil⟩
      · exact if_pos (le_of_eq reached.symm)
      · rw [List.flatMap_nil, List.append_nil]
        exact holds
  | cons c rest ih =>
      obtain ⟨fuel, rfl⟩ := Nat.exists_eq_succ_of_ne_zero (Nat.ne_of_gt (Nat.zero_lt_of_lt enough))
      obtain ⟨found, later⟩ := walk
      have before : pos < stop := by
        have short := later.length_le
        have bounds := chunk_inside found
        omega
      have keeps : d.Keeps m (w.memory m) := holds.keeps apart (by omega)
      have same : chunk d (w.memory m) pos = .value c := (chunk_keeps keeps).trans found
      have total := dataSum_cons c rest
      have others : ∀ c ∈ rest, c.frameData = true → c.skip ≤ c.length := fun c member =>
        skips c (List.mem_cons_of_mem _ member)
      rw [List.length_cons] at enough
      by_cases data : c.frameData = true
      · rw [if_pos data] at total
        have skip := skips c List.mem_cons_self data
        obtain ⟨_, last, place, short, _⟩ := chunk_value found
        let content := m.bytes (d.data + (c.data + c.skip)) (c.length - c.skip)
        have size : content.length = c.length - c.skip := Memory.bytes_length
        let p : PngChunk := ⟨Kind.iDAT, content, rfl, by omega⟩
        have source : ∀ (v : Writer) (more : List UInt8), v.Holds output more →
            more.length ≤ capacity →
            d.read (v.memory m) (c.data + c.skip) (c.length - c.skip) = .value content := by
          intro v more vHolds fits
          rw [read_keeps (vHolds.keeps apart fits)]
          exact Memory.read_eq (by omega)
        have fits : packet.length + (content.length + 12) ≤ capacity := by omega
        have named : Kind.iDAT.length = 4 := rfl
        obtain ⟨v, written, vHolds⟩ := holds.chunk m
          (fun now => d.read now (c.data + c.skip) (c.length - c.skip)) named source fits
        rw [size] at written
        have bytesLength : (chunkBytes Kind.iDAT content).length = content.length + 12 :=
          chunkBytes_length named
        obtain ⟨u, more, done, uHolds, moreLength, kinds⟩ := ih later others vHolds
          (by rw [List.length_append, bytesLength]; omega) (Nat.lt_of_succ_lt_succ enough)
        refine ⟨u, p :: more, ?_, ?_, ?_, ?_⟩
        · refine (scan_again ?_).trans done
          unfold dataBody
          dsimp only
          rw [if_neg (by omega), same]
          dsimp only
          change (if c.frameData = true then (writeChunk m output capacity Kind.iDAT (fun now =>
            d.read now (c.data + c.skip) (c.length - c.skip)) (c.length - c.skip) w >>= fun w =>
              Outcome.value (Turn.again (c.stop, w))) else _) = _
          rw [if_pos data, written, Outcome.value_bind]
        · rw [List.flatMap_cons, ← List.append_assoc]
          exact uHolds
        · have encoded := p.encode_length
          have long : p.data.length = c.length - c.skip := size
          rw [List.flatMap_cons, List.length_append, moreLength, total]
          omega
        · intro q member
          rcases List.mem_cons.mp member with rfl | further
          · rfl
          · exact kinds q further
      · rw [if_neg data, Nat.zero_add] at total
        obtain ⟨u, more, done, uHolds, moreLength, kinds⟩ := ih later others holds
          (by omega) (Nat.lt_of_succ_lt_succ enough)
        refine ⟨u, more, ?_, uHolds, moreLength.trans total.symm, kinds⟩
        refine (scan_again ?_).trans done
        unfold dataBody
        dsimp only
        rw [if_neg (by omega), same]
        dsimp only
        change (if c.frameData = true then _ else _) = _
        rw [if_neg data]

/-- What a written packet is: a signature, a header, the copied chunks, the data, an `IEND`. -/
theorem packet_written {header : PngChunk} {before after chunks : List Chunk} {last : Chunk}
    (opened : Opened d m header before after last) (apart : Apart d output capacity)
    (walk : Walk d m f.dataStart f.dataEnd chunks)
    (skips : ∀ c ∈ chunks, c.frameData = true → c.skip ≤ c.length)
    (enough : chunks.length < d.size + 1)
    (room : 45 + prefixSum before + dataSum chunks ≤ capacity) :
    ∃ (w : Writer) (written : List PngChunk), writePacket d m f output capacity = .value (true, w.log) ∧
      w.Holds output (signature ++ (written ++ [endChunk]).flatMap PngChunk.encode) ∧
      (signature ++ (written ++ [endChunk]).flatMap PngChunk.encode).length =
        45 + prefixSum before + dataSum chunks ∧
      ∀ p ∈ written, p.kind ≠ Kind.iEND := by
  have empty : (Writer.mk [] 0).Holds output [] := ⟨rfl, rfl⟩
  have size := opened.room
  obtain ⟨signed, signing, signedHolds⟩ := empty.emit capacity signature (by
    change 0 + 8 ≤ capacity
    omega)
  rw [List.nil_append] at signedHolds
  have eight : signature.length = 8 := rfl
  have keeps : d.Keeps m (signed.memory m) := signedHolds.keeps apart (by omega)
  have read : d.read (signed.memory m) 16 13 = .value (m.bytes (d.data + 16) 13) := by
    rw [read_keeps keeps]
    exact Memory.read_eq (by omega)
  let content := put32 f.width ++ put32 f.height ++ (m.bytes (d.data + 16) 13).drop 8
  have long : content.length = 13 := by simp [content]
  let first : PngChunk := ⟨Kind.iHDR, content, rfl, by omega⟩
  have firstLength : first.encode.length = 25 := by
    rw [PngChunk.encode_length]
    exact congrArg (· + 12) long
  have named : Kind.iHDR.length = 4 := rfl
  have fits : signature.length + (content.length + 12) ≤ capacity := by omega
  obtain ⟨headed, heading, headedHolds⟩ := signedHolds.chunk m (fun _ => .value content) named
    (fun _ _ _ _ => rfl) fits
  rw [long] at heading
  change headed.Holds output (signature ++ first.encode) at headedHolds
  have headLength : (signature ++ first.encode).length = 33 := by
    rw [List.length_append, eight, firstLength]
  have frontLength := opened.front.length_le
  have prefixEnd := opened.prefixEnd_le
  have frontSound : ∀ c ∈ before, Sound d m c := fun c member => opened.sound c
    (List.mem_append_left _ (List.mem_append_left _ member))
  obtain ⟨passed, copied, copying, copiedHolds, copiedLength, copiedKinds⟩ :=
    prefix_scan opened.front frontSound apart headedHolds (by omega)
      (by omega : before.length < d.size + 1)
  obtain ⟨filled, data, filling, filledHolds, dataLength, dataKinds⟩ :=
    data_scan walk skips apart copiedHolds (by
      rw [List.length_append, copiedLength, headLength]
      omega) enough
  have filledLength : (signature ++ first.encode ++ copied.flatMap PngChunk.encode ++
      data.flatMap PngChunk.encode).length = 33 + prefixSum before + dataSum chunks := by
    rw [List.length_append, List.length_append, copiedLength, dataLength, headLength]
  have final : Kind.iEND.length = 4 := rfl
  have last : (signature ++ first.encode ++ copied.flatMap PngChunk.encode ++
      data.flatMap PngChunk.encode).length + (([] : List UInt8).length + 12) ≤ capacity := by
    rw [filledLength, List.length_nil]
    omega
  obtain ⟨ended, ending, endedHolds⟩ := filledHolds.chunk m (fun _ => .value []) final
    (fun _ _ _ _ => rfl) last
  rw [List.length_nil] at ending
  have whole : signature ++ first.encode ++ copied.flatMap PngChunk.encode ++
      data.flatMap PngChunk.encode ++ endChunk.encode =
        signature ++ (first :: (copied ++ data) ++ [endChunk]).flatMap PngChunk.encode := by
    simp only [List.cons_append, List.flatMap_cons, List.flatMap_append, List.flatMap_nil,
      List.append_nil, List.append_assoc]
  refine ⟨ended, first :: (copied ++ data), ?_, ?_, ?_, ?_⟩
  · unfold writePacket
    rw [signing, Outcome.value_bind, read, Outcome.value_bind]
    change (writeChunk m output capacity Kind.iHDR (fun _ => .value content) 13 signed >>= _) = _
    rw [heading, Outcome.value_bind, copying, Outcome.value_bind]
    dsimp only
    rw [if_neg (by decide), filling, Outcome.value_bind]
    dsimp only
    rw [if_neg (by decide), ending, Outcome.value_bind]
  · rw [← whole]
    exact endedHolds
  · have endLength : endChunk.encode.length = 12 := endChunk.encode_length
    rw [← whole, List.length_append, filledLength, endLength]
    omega
  · intro p member
    rcases List.mem_cons.mp member with rfl | later
    · change Kind.iHDR ≠ Kind.iEND
      decide
    · rcases List.mem_append.mp later with old | new
      · obtain ⟨c, inside, same⟩ := copiedKinds p old
        rw [same]
        exact opened.inner c (List.mem_append_left _ inside)
      · rw [dataKinds p new]
        decide

/-- An output that may be written does not meet the document. -/
theorem extractAllowed_apart {sizeMax : ℕ} (allowed : extractAllowed sizeMax d f output capacity = true) :
    output ≠ 0 ∧ d.prefixEnd ≤ f.dataStart ∧ f.dataEnd ≤ d.size ∧ f.dataStart < f.dataEnd ∧
      Apart d output capacity := by
  unfold extractAllowed at allowed
  simp only [Bool.and_eq_true, Bool.not_eq_true', Bool.or_eq_false_iff, decide_eq_false_iff_not,
    not_lt, not_le] at allowed
  obtain ⟨⟨⟨⟨⟨⟨⟨⟨⟨present, _⟩, _⟩, _⟩, _⟩, start⟩, stop⟩, nonempty⟩, _⟩, _, apart⟩ := allowed
  refine ⟨present, start, stop, nonempty, ?_⟩
  unfold Apart
  split at apart
  · have away := of_decide_eq_false apart
    omega
  · have away := of_decide_eq_false apart
    omega

/-- The outcomes of an extraction: nothing was written, or a whole packet. -/
theorem extract_cases {sizeMax : ℕ} {header : PngChunk} {before after : List Chunk} {last : Chunk}
    (opened : Opened d m header before after last) :
    apngExtract sizeMax d m f output capacity = .value (false, []) ∨
      ∃ (w : Writer) (written : List PngChunk),
        apngExtract sizeMax d m f output capacity = .value (true, w.log) ∧
        w.Holds output (signature ++ (written ++ [endChunk]).flatMap PngChunk.encode) ∧
        (signature ++ (written ++ [endChunk]).flatMap PngChunk.encode).length = f.pngBytes ∧
        (∀ p ∈ written, p.kind ≠ Kind.iEND) ∧ f.pngBytes ≤ capacity ∧ output ≠ 0 ∧
        Apart d output capacity := by
  unfold apngExtract
  cases allowed : extractAllowed sizeMax d f output capacity with
  | false => exact .inl rfl
  | true =>
      obtain ⟨present, start, stop, nonempty, apart⟩ := extractAllowed_apart allowed
      rw [if_neg (by decide)]
      cases counted : sum 45 d.prefixBytes d.maxFramePngBytes with
      | stray => exact absurd counted sum_ne_stray
      | refused => exact .inl rfl
      | value bytes =>
          dsimp only
          cases measured : scan (measureBody d m f.dataEnd) (d.size + 1) (f.dataStart, bytes) with
          | stray => exact absurd measured measure_ne_stray
          | refused => exact .inl rfl
          | value total =>
              dsimp only
              split
              · exact .inl rfl
              · rename_i agreed
                simp only [Bool.or_eq_true, decide_eq_true_eq, not_or, not_lt, ne_eq,
                  not_not] at agreed
                obtain ⟨chunks, walk, sum, enough, skips⟩ := measure_walk (le_of_lt nonempty) measured
                have front := (sum_value counted).1
                rw [opened.prefixBytes] at front
                obtain ⟨w, written, done, holds, length, kinds⟩ :=
                  packet_written opened apart walk skips enough (by omega)
                exact .inr ⟨w, written, done, holds, by omega, kinds, by omega, present, apart⟩

end

/-- The document is opened before, and its bytes are the same when a frame is extracted. -/
theorem extract_all_or_nothing (sizeMax : ℕ) (m now : Memory) (data size : ℕ) (limits : ApngLimits)
    (d : ApngDocument) (f : ApngFrame) (output capacity : ℕ)
    (accepted : apngOpen sizeMax m data size limits = .value d)
    (kept : ∀ i, i < size → now (data + i) = m (data + i)) :
    ∃ ok log, apngExtract sizeMax d now f output capacity = .value (ok, log) ∧
      (ok = false → log = []) ∧
      (ok = true → f.pngBytes ≤ capacity ∧
        log.map Prod.fst = (List.range f.pngBytes).map (output + ·)) ∧
      ∀ w ∈ log, w.1 < data ∨ data + size ≤ w.1 := by
  obtain ⟨⟨place, bytes, _⟩, header, before, after, last, opened⟩ := open_opened accepted
  have keeps : d.Keeps m now := by
    intro i inside
    rw [place]
    exact kept i (bytes ▸ inside)
  rcases extract_cases (opened.keeps keeps) with done | ⟨w, written, done, holds, length, _, room, _,
    apart⟩
  · exact ⟨false, [], done, fun _ => rfl, fun no => absurd no Bool.false_ne_true,
      fun _ none => absurd none List.not_mem_nil⟩
  · refine ⟨true, w.log, done, fun no => absurd no.symm Bool.false_ne_true, fun _ => ⟨room, ?_⟩, ?_⟩
    · rw [holds.log, Memory.placed_addresses, length]
    · intro v member
      rw [holds.log] at member
      have inside := Memory.mem_placed member
      rw [length] at inside
      unfold Apart at apart
      omega

/-- A PNG of one gray pixel. -/
def smallPng : List UInt8 :=
  [137, 80, 78, 71, 13, 10, 26, 10, 0, 0, 0, 13, 73, 72, 68, 82, 0, 0, 0, 1, 0, 0, 0, 1, 8, 0,
  0, 0, 0, 58, 126, 155, 85, 0, 0, 0, 1, 73, 68, 65, 84, 0, 40, 56, 125, 232, 0, 0, 0, 0, 73,
  69, 78, 68, 174, 66, 96, 130]

def smallMemory : Memory := fun a => smallPng.getD (a - 64) 0

def smallLimits : ApngLimits := ⟨1024, 1024, 16, 1⟩

def smallDocument : ApngDocument := ⟨64, 58, 33, 0, 1024, 1, 1, 1, 1, false⟩

theorem smallDocument_opened :
    apngOpen (2 ^ 32 - 1) smallMemory 64 58 smallLimits = .value smallDocument := by
  decide +kernel

def smallDocumentFrame : ApngFrame := ⟨1, 1, 0, 0, 0, 100, 0, 0, 33, 46, 58⟩

theorem smallDocument_extracted :
    apngExtract (2 ^ 32 - 1) smallDocument smallMemory smallDocumentFrame 4096 64 =
      .value (true, Memory.placed 4096 smallPng) := by
  decide +kernel

theorem extract_all_or_nothing_small :
    ∃ ok log, apngExtract (2 ^ 32 - 1) smallDocument smallMemory smallDocumentFrame 4096 64 =
        .value (ok, log) ∧
      (ok = false → log = []) ∧
      (ok = true → 58 ≤ 64 ∧ log.map Prod.fst = (List.range 58).map (4096 + ·)) ∧
      ∀ w ∈ log, w.1 < 64 ∨ 64 + 58 ≤ w.1 :=
  extract_all_or_nothing (2 ^ 32 - 1) smallMemory smallMemory 64 58 smallLimits smallDocument
    smallDocumentFrame 4096 64 smallDocument_opened fun _ _ => rfl

end LvglAic.Apng
