import LvglAic.Machine.FixedPoint
import LvglAic.Apng.ExtractWhole

/-! # The chunk check of the PNG decoder (`lv_aic_mpp_decoder.c`)

The decoder checks the chunks of a packet on its own, with a table for the CRC and with
offsets of 32 bits, before it hands the packet to the hardware.
-/

namespace LvglAic.Image

open LvglAic.Machine LvglAic.Apng

def mppCrc32Table : List (BitVec 32) :=
  [
    0x00000000#32, 0x77073096#32, 0xee0e612c#32, 0x990951ba#32, 0x076dc419#32, 0x706af48f#32,
    0xe963a535#32, 0x9e6495a3#32, 0x0edb8832#32, 0x79dcb8a4#32, 0xe0d5e91e#32, 0x97d2d988#32,
    0x09b64c2b#32, 0x7eb17cbd#32, 0xe7b82d07#32, 0x90bf1d91#32, 0x1db71064#32, 0x6ab020f2#32,
    0xf3b97148#32, 0x84be41de#32, 0x1adad47d#32, 0x6ddde4eb#32, 0xf4d4b551#32, 0x83d385c7#32,
    0x136c9856#32, 0x646ba8c0#32, 0xfd62f97a#32, 0x8a65c9ec#32, 0x14015c4f#32, 0x63066cd9#32,
    0xfa0f3d63#32, 0x8d080df5#32, 0x3b6e20c8#32, 0x4c69105e#32, 0xd56041e4#32, 0xa2677172#32,
    0x3c03e4d1#32, 0x4b04d447#32, 0xd20d85fd#32, 0xa50ab56b#32, 0x35b5a8fa#32, 0x42b2986c#32,
    0xdbbbc9d6#32, 0xacbcf940#32, 0x32d86ce3#32, 0x45df5c75#32, 0xdcd60dcf#32, 0xabd13d59#32,
    0x26d930ac#32, 0x51de003a#32, 0xc8d75180#32, 0xbfd06116#32, 0x21b4f4b5#32, 0x56b3c423#32,
    0xcfba9599#32, 0xb8bda50f#32, 0x2802b89e#32, 0x5f058808#32, 0xc60cd9b2#32, 0xb10be924#32,
    0x2f6f7c87#32, 0x58684c11#32, 0xc1611dab#32, 0xb6662d3d#32, 0x76dc4190#32, 0x01db7106#32,
    0x98d220bc#32, 0xefd5102a#32, 0x71b18589#32, 0x06b6b51f#32, 0x9fbfe4a5#32, 0xe8b8d433#32,
    0x7807c9a2#32, 0x0f00f934#32, 0x9609a88e#32, 0xe10e9818#32, 0x7f6a0dbb#32, 0x086d3d2d#32,
    0x91646c97#32, 0xe6635c01#32, 0x6b6b51f4#32, 0x1c6c6162#32, 0x856530d8#32, 0xf262004e#32,
    0x6c0695ed#32, 0x1b01a57b#32, 0x8208f4c1#32, 0xf50fc457#32, 0x65b0d9c6#32, 0x12b7e950#32,
    0x8bbeb8ea#32, 0xfcb9887c#32, 0x62dd1ddf#32, 0x15da2d49#32, 0x8cd37cf3#32, 0xfbd44c65#32,
    0x4db26158#32, 0x3ab551ce#32, 0xa3bc0074#32, 0xd4bb30e2#32, 0x4adfa541#32, 0x3dd895d7#32,
    0xa4d1c46d#32, 0xd3d6f4fb#32, 0x4369e96a#32, 0x346ed9fc#32, 0xad678846#32, 0xda60b8d0#32,
    0x44042d73#32, 0x33031de5#32, 0xaa0a4c5f#32, 0xdd0d7cc9#32, 0x5005713c#32, 0x270241aa#32,
    0xbe0b1010#32, 0xc90c2086#32, 0x5768b525#32, 0x206f85b3#32, 0xb966d409#32, 0xce61e49f#32,
    0x5edef90e#32, 0x29d9c998#32, 0xb0d09822#32, 0xc7d7a8b4#32, 0x59b33d17#32, 0x2eb40d81#32,
    0xb7bd5c3b#32, 0xc0ba6cad#32, 0xedb88320#32, 0x9abfb3b6#32, 0x03b6e20c#32, 0x74b1d29a#32,
    0xead54739#32, 0x9dd277af#32, 0x04db2615#32, 0x73dc1683#32, 0xe3630b12#32, 0x94643b84#32,
    0x0d6d6a3e#32, 0x7a6a5aa8#32, 0xe40ecf0b#32, 0x9309ff9d#32, 0x0a00ae27#32, 0x7d079eb1#32,
    0xf00f9344#32, 0x8708a3d2#32, 0x1e01f268#32, 0x6906c2fe#32, 0xf762575d#32, 0x806567cb#32,
    0x196c3671#32, 0x6e6b06e7#32, 0xfed41b76#32, 0x89d32be0#32, 0x10da7a5a#32, 0x67dd4acc#32,
    0xf9b9df6f#32, 0x8ebeeff9#32, 0x17b7be43#32, 0x60b08ed5#32, 0xd6d6a3e8#32, 0xa1d1937e#32,
    0x38d8c2c4#32, 0x4fdff252#32, 0xd1bb67f1#32, 0xa6bc5767#32, 0x3fb506dd#32, 0x48b2364b#32,
    0xd80d2bda#32, 0xaf0a1b4c#32, 0x36034af6#32, 0x41047a60#32, 0xdf60efc3#32, 0xa867df55#32,
    0x316e8eef#32, 0x4669be79#32, 0xcb61b38c#32, 0xbc66831a#32, 0x256fd2a0#32, 0x5268e236#32,
    0xcc0c7795#32, 0xbb0b4703#32, 0x220216b9#32, 0x5505262f#32, 0xc5ba3bbe#32, 0xb2bd0b28#32,
    0x2bb45a92#32, 0x5cb36a04#32, 0xc2d7ffa7#32, 0xb5d0cf31#32, 0x2cd99e8b#32, 0x5bdeae1d#32,
    0x9b64c2b0#32, 0xec63f226#32, 0x756aa39c#32, 0x026d930a#32, 0x9c0906a9#32, 0xeb0e363f#32,
    0x72076785#32, 0x05005713#32, 0x95bf4a82#32, 0xe2b87a14#32, 0x7bb12bae#32, 0x0cb61b38#32,
    0x92d28e9b#32, 0xe5d5be0d#32, 0x7cdcefb7#32, 0x0bdbdf21#32, 0x86d3d2d4#32, 0xf1d4e242#32,
    0x68ddb3f8#32, 0x1fda836e#32, 0x81be16cd#32, 0xf6b9265b#32, 0x6fb077e1#32, 0x18b74777#32,
    0x88085ae6#32, 0xff0f6a70#32, 0x66063bca#32, 0x11010b5c#32, 0x8f659eff#32, 0xf862ae69#32,
    0x616bffd3#32, 0x166ccf45#32, 0xa00ae278#32, 0xd70dd2ee#32, 0x4e048354#32, 0x3903b3c2#32,
    0xa7672661#32, 0xd06016f7#32, 0x4969474d#32, 0x3e6e77db#32, 0xaed16a4a#32, 0xd9d65adc#32,
    0x40df0b66#32, 0x37d83bf0#32, 0xa9bcae53#32, 0xdebb9ec5#32, 0x47b2cf7f#32, 0x30b5ffe9#32,
    0xbdbdf21c#32, 0xcabac28a#32, 0x53b39330#32, 0x24b4a3a6#32, 0xbad03605#32, 0xcdd70693#32,
    0x54de5729#32, 0x23d967bf#32, 0xb3667a2e#32, 0xc4614ab8#32, 0x5d681b02#32, 0x2a6f2b94#32,
    0xb40bbe37#32, 0xc30c8ea1#32, 0x5a05df1b#32, 0x2d02ef8d#32]

def mppCrc32 (crc : BitVec 32) (buf : List UInt8) : BitVec 32 :=
  ~~~(buf.foldl (crcTableByte fun i => mppCrc32Table.getD i 0#32) (~~~crc))

/-- One turn of the loop over the chunks, from an offset on. -/
def validBody (m : Memory) (data len off : ℕ) : Outcome (Turn ℕ Bool) :=
  if minus32 len off < 12 then .value (.stop false)
  else do
    let word ← m.read data len off 4
    let chunkLen := be32 word
    if chunkLen > minus32 (minus32 len off) 12 then .value (.stop false)
    else do
      let body ← m.read data len (off + 4) ((4 + chunkLen) % 2 ^ 32)
      let check ← m.read data len (off + 4 + 4 + chunkLen) 4
      if (mppCrc32 0#32 body).toNat ≠ be32 check then .value (.stop false)
      else do
        let type ← m.read data len (off + 4) 4
        if type = Kind.iEND then .value (.stop (chunkLen = 0))
        else .value (.again ((off + (12 + chunkLen) % 2 ^ 32) % 2 ^ 32))

def pngChunksValid (m : Memory) (data : ℕ) (len : UInt32) : Outcome Bool :=
  if data = 0 || len.toNat < 8 then .value false
  else do
    let head ← m.read data len.toNat 0 8
    if head ≠ signature then .value false
    else scan (validBody m data len.toNat) (len.toNat + 1) 8

/-! ## The two checks -/

theorem mppCrc32Table_entries : ∀ i, i < 256 →
    mppCrc32Table.getD i 0#32 = crcShifts crcPolynomial 8 (BitVec.ofNat 32 i) := by
  decide +kernel

/-- The table gives the remainder that the bits give. -/
theorem mppCrc32_eq (buf : List UInt8) : (mppCrc32 0#32 buf).toNat = crc32 buf := by
  have bytes : (crcTableByte fun i => mppCrc32Table.getD i 0#32) = crcByte crcPolynomial := by
    funext crc byte
    exact crcTableByte_eq mppCrc32Table_entries crc byte
  unfold mppCrc32 crc32
  rw [bytes, BitVec.xor_allOnes]
  rfl

section
variable {m : Memory} {data len off fuel : ℕ} {c : PngChunk}

/-- A chunk that stands at the offset is passed, or ends the walk. -/
theorem validBody_stands (stands : c.StandsAt m (data + off))
    (inside : off + (c.data.length + 12) ≤ len) (word : len < 2 ^ 32) :
    validBody m data len off = if c.kind = Kind.iEND then .value (.stop (c.data.length = 0))
      else .value (.again (off + (c.data.length + 12))) := by
  obtain ⟨length, kind, content, check⟩ := PngChunk.standsAt_iff.mp stands
  have short := c.short
  have left : minus32 len off = len - off := minus32_eq (by omega) word
  have room : minus32 (len - off) 12 = len - off - 12 := minus32_eq (by omega) (by omega)
  have size : (4 + c.data.length) % 2 ^ 32 = 4 + c.data.length := Nat.mod_eq_of_lt (by omega)
  have step : (off + (12 + c.data.length) % 2 ^ 32) % 2 ^ 32 = off + (c.data.length + 12) := by
    omega
  have body : m.bytes (data + (off + 4)) (4 + c.data.length) = c.kind ++ c.data := by
    rw [← Nat.add_assoc, Memory.bytes_append, kind]
    exact congrArg _ content
  have last : data + (off + 4 + 4 + c.data.length) = data + off + 8 + c.data.length := by omega
  unfold validBody
  rw [left, room, if_neg (by omega), Memory.read_eq (by omega), Outcome.value_bind, length]
  dsimp only
  rw [be32_put32 short, if_neg (by omega), size, Memory.read_eq (by omega), Outcome.value_bind,
    Memory.read_eq (by omega), Outcome.value_bind, body, last, check, mppCrc32_eq,
    be32_put32 crc32_lt, if_neg (fun differs => differs rfl), Memory.read_eq (by omega),
    Outcome.value_bind, ← Nat.add_assoc, kind, step]

/-- Where no chunk stands the walk ends. -/
theorem validBody_none (inside : off ≤ len) (word : len < 2 ^ 32)
    (none : ∀ c : PngChunk, c.StandsAt m (data + off) → len < off + (c.data.length + 12)) :
    validBody m data len off = .value (.stop false) := by
  have left : minus32 len off = len - off := minus32_eq inside word
  unfold validBody
  rw [left]
  split
  · rfl
  · rename_i enough
    have room : minus32 (len - off) 12 = len - off - 12 := minus32_eq (by omega) (by omega)
    rw [Memory.read_eq (by omega), Outcome.value_bind, room]
    dsimp only
    split
    · rfl
    · rename_i fits
      have size : (4 + be32 (m.bytes (data + off) 4)) % 2 ^ 32 = 4 + be32 (m.bytes (data + off) 4) :=
        Nat.mod_eq_of_lt (by omega)
      rw [size, Memory.read_eq (by omega), Outcome.value_bind, Memory.read_eq (by omega),
        Outcome.value_bind, mppCrc32_eq, if_pos]
      intro right
      have last : data + (off + 4 + 4 + be32 (m.bytes (data + off) 4)) =
          data + off + 8 + be32 (m.bytes (data + off) 4) := by omega
      rw [last, ← Nat.add_assoc] at right
      obtain ⟨c, stands, length, _⟩ := standsAt_of_read rfl rfl right
      have short := none c stands
      omega

theorem chunksLength_cons (c : PngChunk) (rest : List PngChunk) :
    chunksLength (c :: rest) = c.data.length + 12 + chunksLength rest := by
  unfold chunksLength
  rw [List.map_cons, List.sum_cons]

theorem chunksLength_append (first second : List PngChunk) :
    chunksLength (first ++ second) = chunksLength first + chunksLength second := by
  unfold chunksLength
  rw [List.map_append, List.sum_append]

theorem chunksLength_eq (chunks : List PngChunk) :
    (chunks.flatMap PngChunk.encode).length = chunksLength chunks := by
  induction chunks with
  | nil => rfl
  | cons c rest ih =>
      rw [List.flatMap_cons, List.length_append, PngChunk.encode_length, ih, chunksLength_cons]

theorem eq_endChunk (kind : c.kind = Kind.iEND) (empty : c.data.length = 0) : c = endChunk := by
  obtain ⟨_, _, _, _⟩ := c
  cases kind
  cases List.length_eq_zero_iff.mp empty
  rfl

theorem length_le_chunksLength (chunks : List PngChunk) : chunks.length ≤ chunksLength chunks := by
  induction chunks with
  | nil => exact le_rfl
  | cons c rest ih =>
      rw [chunksLength_cons, List.length_cons]
      omega

/-- The walk passes chunks that stand in front of an empty `IEND`. -/
theorem valid_scan {chunks : List PngChunk} (stands : Chunks m (data + off) (chunks ++ [endChunk]))
    (inside : off + chunksLength (chunks ++ [endChunk]) ≤ len) (word : len < 2 ^ 32)
    (inner : ∀ c ∈ chunks, c.kind ≠ Kind.iEND) (enough : chunks.length < fuel) :
    scan (validBody m data len) fuel off = .value true := by
  induction chunks generalizing off fuel with
  | nil =>
      obtain ⟨fuel, rfl⟩ := Nat.exists_eq_succ_of_ne_zero (Nat.ne_of_gt enough)
      rw [List.nil_append, chunksLength_cons] at inside
      have last := validBody_stands stands.1 (by omega) word
      rw [if_pos (by rfl)] at last
      exact scan_stop last
  | cons c rest ih =>
      obtain ⟨fuel, rfl⟩ := Nat.exists_eq_succ_of_ne_zero (Nat.ne_of_gt (Nat.zero_lt_of_lt enough))
      rw [List.cons_append, chunksLength_cons] at inside
      obtain ⟨first, later⟩ := stands
      have step := validBody_stands first (by omega) word
      rw [if_neg (inner c List.mem_cons_self)] at step
      rw [scan_again step]
      rw [Nat.add_assoc] at later
      refine ih later (by omega) (fun c member => inner c (List.mem_cons_of_mem _ member)) ?_
      rw [List.length_cons] at enough
      exact Nat.lt_of_succ_lt_succ enough

/-- The walk ends; when it accepts, it has passed chunks up to an empty `IEND`. -/
theorem valid_scan_value (inside : off ≤ len) (word : len < 2 ^ 32) (enough : len - off < fuel) :
    ∃ ok, scan (validBody m data len) fuel off = .value ok ∧
      (ok = true → ∃ chunks : List PngChunk, (∀ c ∈ chunks, c.kind ≠ Kind.iEND) ∧
        off + chunksLength (chunks ++ [endChunk]) ≤ len ∧
        Chunks m (data + off) (chunks ++ [endChunk])) := by
  induction fuel generalizing off with
  | zero => exact absurd enough (Nat.not_lt_zero _)
  | succ fuel ih =>
      by_cases found : ∃ c : PngChunk, c.StandsAt m (data + off) ∧ off + (c.data.length + 12) ≤ len
      · obtain ⟨c, stands, fits⟩ := found
        have step := validBody_stands stands fits word
        by_cases kind : c.kind = Kind.iEND
        · rw [if_pos kind] at step
          refine ⟨_, scan_stop step, ?_⟩
          intro ok
          cases eq_endChunk kind (of_decide_eq_true ok)
          refine ⟨[], fun _ none => absurd none List.not_mem_nil, ?_, stands, trivial⟩
          rw [List.nil_append, chunksLength_cons]
          exact fits
        · rw [if_neg kind] at step
          obtain ⟨ok, done, known⟩ := ih fits (by omega)
          refine ⟨ok, (scan_again step).trans done, ?_⟩
          intro accepted
          obtain ⟨chunks, inner, bounds, later⟩ := known accepted
          refine ⟨c :: chunks, ?_, ?_, stands, ?_⟩
          · intro e member
            rcases List.mem_cons.mp member with rfl | further
            · exact kind
            · exact inner e further
          · rw [List.cons_append, chunksLength_cons]
            omega
          · rw [← Nat.add_assoc] at later
            exact later
      · have none := validBody_none inside word fun c stands => by
          by_contra fits
          exact found ⟨c, stands, not_lt.mp fits⟩
        exact ⟨false, scan_stop none, fun no => absurd no Bool.false_ne_true⟩

end

/-- A signature, chunks with right checks, and an empty `IEND`, inside of the length. -/
structure PngStream (m : Memory) (data len : ℕ) (chunks : List PngChunk) : Prop where
  signature : m.bytes data 8 = signature
  inner : ∀ c ∈ chunks, c.kind ≠ Kind.iEND
  inside : 8 + chunksLength (chunks ++ [endChunk]) ≤ len
  content : m.bytes (data + 8) (chunksLength (chunks ++ [endChunk])) =
    (chunks ++ [endChunk]).flatMap PngChunk.encode

section
variable {m : Memory} {data : ℕ} {len : UInt32}

/-- The check ends and stays inside of the packet; it accepts nothing but PNG streams. -/
theorem pngChunksValid_value (m : Memory) (data : ℕ) (len : UInt32) :
    ∃ ok, pngChunksValid m data len = .value ok ∧
      (ok = true → ∃ chunks, PngStream m data len.toNat chunks) := by
  have word := len.toNat_lt
  unfold pngChunksValid
  split
  · exact ⟨false, rfl, fun no => absurd no Bool.false_ne_true⟩
  · rename_i sizes
    simp only [Bool.or_eq_true, decide_eq_true_eq, not_or, not_lt] at sizes
    rw [Memory.read_eq (by omega), Outcome.value_bind]
    split
    · exact ⟨false, rfl, fun no => absurd no Bool.false_ne_true⟩
    · rename_i signed
      have enough : len.toNat - 8 < len.toNat + 1 := by omega
      obtain ⟨ok, done, known⟩ : ∃ ok, scan (validBody m data len.toNat) (len.toNat + 1) 8 =
        .value ok ∧ _ := valid_scan_value sizes.2 word enough
      refine ⟨ok, done, ?_⟩
      intro accepted
      obtain ⟨chunks, inner, inside, stands⟩ := known accepted
      exact ⟨chunks, Classical.not_not.mp signed, inner, inside, chunks_bytes.mp stands⟩

theorem pngChunksValid_stream {chunks : List PngChunk} (present : data ≠ 0)
    (stream : PngStream m data len.toNat chunks) : pngChunksValid m data len = .value true := by
  obtain ⟨signed, inner, inside, content⟩ := stream
  have word := len.toNat_lt
  unfold pngChunksValid
  have sizes : ¬(decide (data = 0) || decide (len.toNat < 8)) = true := by
    simp only [Bool.or_eq_true, decide_eq_true_eq, not_or]
    exact ⟨present, by omega⟩
  rw [if_neg sizes, Memory.read_eq (by omega), Outcome.value_bind]
  rw [if_neg (fun differs => differs signed)]
  have long := length_le_chunksLength (chunks ++ [endChunk])
  rw [List.length_append] at long
  exact valid_scan (chunks_bytes.mpr content) inside word inner (by omega)

/-- The chunks of a walk stand one after the other. -/
theorem walk_chunks {d : ApngDocument} {start stop : ℕ} {chunks : List Chunk}
    (walk : Walk d m start stop chunks) (sound : ∀ c ∈ chunks, Sound d m c) :
    ∃ standing : List PngChunk, Chunks m (d.data + start) standing ∧
      start + chunksLength standing = stop ∧ ∀ p ∈ standing, ∃ c ∈ chunks, p.kind = c.type := by
  induction chunks generalizing start with
  | nil => exact ⟨[], trivial, walk, fun _ none => absurd none List.not_mem_nil⟩
  | cons c rest ih =>
      obtain ⟨found, later⟩ := walk
      obtain ⟨standing, further, length, kinds⟩ := ih later fun c member =>
        sound c (List.mem_cons_of_mem _ member)
      obtain ⟨_, _, p, stands, size, kind⟩ := sound c List.mem_cons_self
      obtain ⟨next, _, place, _⟩ := chunk_value found
      have behind : c.data - 8 = start := by omega
      have step : d.data + start + (p.data.length + 12) = d.data + c.stop := by omega
      rw [behind] at stands
      refine ⟨p :: standing, ⟨stands, step ▸ further⟩, ?_, ?_⟩
      · rw [chunksLength_cons]
        omega
      · intro q member
        rcases List.mem_cons.mp member with rfl | other
        · exact ⟨c, List.mem_cons_self, kind⟩
        · obtain ⟨e, inside, same⟩ := kinds q other
          exact ⟨e, List.mem_cons_of_mem _ inside, same⟩

/-- An opened document is a PNG stream that fills its bytes. -/
theorem opened_stream {d : ApngDocument} {header : PngChunk} {before after : List Chunk}
    {last : Chunk} (opened : Opened d m header before after last) :
    ∃ chunks, PngStream m d.data d.size chunks := by
  obtain ⟨_, _, signed, ⟨stands, long, kind⟩, front, _, ⟨pos, back, final⟩, ⟨ends, empty, stop⟩,
    sound, inner⟩ := opened
  obtain ⟨first, firstStands, firstLength, firstKinds⟩ := walk_chunks front fun c member =>
    sound c (List.mem_append_left _ (List.mem_append_left _ member))
  obtain ⟨second, secondStands, secondLength, secondKinds⟩ := walk_chunks back fun c member =>
    sound c (List.mem_append_left _ (List.mem_append_right _ member))
  obtain ⟨_, _, p, lastStands, lastLength, lastKind⟩ := sound last
    (List.mem_append_right _ List.mem_cons_self)
  cases eq_endChunk (lastKind.trans ends) (lastLength.trans empty)
  obtain ⟨next, _, place, _⟩ := chunk_value final
  have behind : last.data - 8 = pos := by omega
  rw [behind] at lastStands
  have total : chunksLength (header :: (first ++ second) ++ [endChunk]) = d.size - 8 := by
    have parts : chunksLength (header :: (first ++ second) ++ [endChunk]) =
        header.data.length + 12 + (chunksLength first + chunksLength second + 12) := by
      rw [List.cons_append, chunksLength_cons, chunksLength_append, chunksLength_append]
      rfl
    omega
  have whole : Chunks m (d.data + 8) (header :: (first ++ second) ++ [endChunk]) := by
    have start : d.data + 8 + (header.data.length + 12) = d.data + 33 := by omega
    have middle : d.data + 33 + chunksLength first = d.data + d.prefixEnd := by omega
    have finish : d.data + 33 + chunksLength (first ++ second) = d.data + pos := by
      rw [chunksLength_append]
      omega
    refine ⟨stands, ?_⟩
    rw [start]
    refine chunks_append.mpr ⟨chunks_append.mpr ⟨firstStands, middle ▸ secondStands⟩, ?_⟩
    rw [finish]
    exact ⟨lastStands, trivial⟩
  refine ⟨header :: (first ++ second), signed, ?_, ?_, chunks_bytes.mp whole⟩
  · intro q member
    rcases List.mem_cons.mp member with rfl | later
    · rw [kind]
      decide
    · rcases List.mem_append.mp later with old | new
      · obtain ⟨e, inside, same⟩ := firstKinds q old
        exact same ▸ inner e (List.mem_append_left _ inside)
      · obtain ⟨e, inside, same⟩ := secondKinds q new
        exact same ▸ inner e (List.mem_append_right _ inside)
  · rw [total]
    omega

/-- A packet that was extracted is a PNG stream. -/
theorem packet_stream {w : Writer} {output : ℕ} {written : List PngChunk}
    (holds : w.Holds output (signature ++ (written ++ [endChunk]).flatMap PngChunk.encode))
    (kinds : ∀ p ∈ written, p.kind ≠ Kind.iEND) :
    PngStream (w.memory m) output
      (signature ++ (written ++ [endChunk]).flatMap PngChunk.encode).length written := by
  have encoded : ((written ++ [endChunk]).flatMap PngChunk.encode).length =
      chunksLength (written ++ [endChunk]) := chunksLength_eq _
  have whole : (w.memory m).bytes output
      (signature ++ (written ++ [endChunk]).flatMap PngChunk.encode).length =
        signature ++ (written ++ [endChunk]).flatMap PngChunk.encode := by
    unfold Writer.memory
    rw [holds.log]
    exact Memory.stores_placed _
  have eight : signature.length = 8 := rfl
  rw [List.length_append, eight, encoded, Memory.bytes_append] at whole
  obtain ⟨signed, content⟩ := List.append_inj whole (by rw [Memory.bytes_length, eight])
  refine ⟨signed, kinds, ?_, content⟩
  rw [List.length_append, eight, encoded]

end

/-- The decoder's check agrees with the bits of the CRC, accepts every document that is opened
and every packet that is extracted from one, and accepts nothing but PNG streams.  The length
of a packet is a word. -/
theorem png_validators_agree (sizeMax : ℕ) :
    (∀ buf, (mppCrc32 0#32 buf).toNat = crc32 buf) ∧
    (∀ (m : Memory) (data size : ℕ) (limits : ApngLimits) (d : ApngDocument), size < 2 ^ 32 →
      apngOpen sizeMax m data size limits = .value d →
      pngChunksValid m data (UInt32.ofNat size) = .value true ∧
      ∀ (now : Memory) (f : ApngFrame) (output capacity : ℕ) (log : List (ℕ × UInt8))
        (len : UInt32), (∀ i, i < size → now (data + i) = m (data + i)) →
        apngExtract sizeMax d now f output capacity = .value (true, log) →
        len.toNat = f.pngBytes →
        pngChunksValid (now.stores log) output len = .value true) ∧
    ∀ (m : Memory) (data : ℕ) (len : UInt32), ∃ ok, pngChunksValid m data len = .value ok ∧
      (ok = true → ∃ chunks, PngStream m data len.toNat chunks) := by
  refine ⟨mppCrc32_eq, ?_, pngChunksValid_value⟩
  intro m data size limits d small accepted
  obtain ⟨⟨place, bytes, _⟩, header, before, after, last, opened⟩ := open_opened accepted
  constructor
  · obtain ⟨chunks, stream⟩ := opened_stream opened
    have word : (UInt32.ofNat size).toNat = size := Nat.mod_eq_of_lt small
    rw [place, bytes, ← word] at stream
    exact pngChunksValid_stream (place ▸ opened.present) stream
  · intro now f output capacity log len kept extracted length
    have keeps : d.Keeps m now := by
      intro i inside
      rw [place]
      exact kept i (bytes ▸ inside)
    rcases extract_cases (opened.keeps keeps) with done | ⟨w, written, done, holds, size, kinds, _,
      present, _⟩
    · rw [done] at extracted
      exact nomatch Outcome.value.inj extracted
    · rw [done] at extracted
      cases Outcome.value.inj extracted
      have stream : PngStream (w.memory now) output _ written := packet_stream holds kinds
      rw [size, ← length] at stream
      exact pngChunksValid_stream present stream

theorem png_validators_agree_small :
    pngChunksValid smallMemory 64 58 = .value true ∧
      pngChunksValid (smallMemory.stores (Memory.placed 4096 smallPng)) 4096 58 = .value true := by
  have opened := (png_validators_agree (2 ^ 32 - 1)).2.1 smallMemory 64 58 smallLimits
    smallDocument (by decide) smallDocument_opened
  exact ⟨opened.1, opened.2 smallMemory smallDocumentFrame 4096 64 _ 58 (fun _ _ => rfl)
    smallDocument_extracted rfl⟩

end LvglAic.Image
