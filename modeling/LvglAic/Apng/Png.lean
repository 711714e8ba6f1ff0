import LvglAic.Machine.Crc
import LvglAic.Machine.Scan

/-! # PNG chunks

A PNG file is a signature and a sequence of chunks.  A chunk is the length of its data,
its kind, its data and the CRC-32 of the last two.
-/

namespace LvglAic.Apng

open LvglAic.Machine

/-- Words are stored with the most significant byte first. -/
def be32 (bytes : List UInt8) : ℕ := bytes.foldl (fun value byte => value * 256 + byte.toNat) 0

def put32 (value : ℕ) : List UInt8 :=
  [UInt8.ofNat (value / 2 ^ 24), UInt8.ofNat (value / 2 ^ 16), UInt8.ofNat (value / 2 ^ 8),
    UInt8.ofNat value]

def crcPolynomial : BitVec 32 := 0xedb88320#32

def crc32 (bytes : List UInt8) : ℕ :=
  (bytes.foldl (crcByte crcPolynomial) (BitVec.allOnes 32) ^^^ BitVec.allOnes 32).toNat

def signature : List UInt8 := [137, 80, 78, 71, 13, 10, 26, 10]

namespace Kind

def acTL : List UInt8 := [97, 99, 84, 76]
def dcTL : List UInt8 := [100, 99, 84, 76]
def fcTL : List UInt8 := [102, 99, 84, 76]
def fdAT : List UInt8 := [102, 100, 65, 84]
def tRNS : List UInt8 := [116, 82, 78, 83]
def iDAT : List UInt8 := [73, 68, 65, 84]
def iEND : List UInt8 := [73, 69, 78, 68]
def iHDR : List UInt8 := [73, 72, 68, 82]
def pLTE : List UInt8 := [80, 76, 84, 69]

end Kind

structure PngChunk where
  kind : List UInt8
  data : List UInt8
  kindLength : kind.length = 4
  short : data.length < 2 ^ 32

def PngChunk.encode (c : PngChunk) : List UInt8 :=
  put32 c.data.length ++ c.kind ++ c.data ++ put32 (crc32 (c.kind ++ c.data))

def endChunk : PngChunk := ⟨Kind.iEND, [], rfl, by decide⟩

section
variable {m : Memory} {base count length value : ℕ} {bytes : List UInt8} {c : PngChunk}

@[simp]
theorem put32_length : (put32 value).length = 4 := rfl

theorem crc32_lt : crc32 bytes < 2 ^ 32 := BitVec.isLt _

theorem be32_put32 (small : value < 2 ^ 32) : be32 (put32 value) = value := by
  have digit : ∀ v : ℕ, (UInt8.ofNat v).toNat = v % 256 := fun v => UInt8.toNat_ofNat'
  unfold be32 put32
  simp only [List.foldl_cons, List.foldl_nil, digit]
  omega

theorem put32_be32 (word : bytes.length = 4) : put32 (be32 bytes) = bytes := by
  obtain ⟨a, b, c, d, rfl⟩ : ∃ a b c d, bytes = [a, b, c, d] := List.length_eq_four.mp word
  have first := a.toNat_lt
  have second := b.toNat_lt
  have third := c.toNat_lt
  have fourth := d.toNat_lt
  unfold put32 be32
  simp only [List.foldl_cons, List.foldl_nil]
  rw [ofNat_digit _ a (by omega), ofNat_digit _ b (by omega), ofNat_digit _ c (by omega),
    ofNat_digit _ d (by omega)]

theorem be32_lt (word : bytes.length = 4) : be32 bytes < 2 ^ 32 := by
  obtain ⟨a, b, c, d, rfl⟩ : ∃ a b c d, bytes = [a, b, c, d] := List.length_eq_four.mp word
  have first := a.toNat_lt
  have second := b.toNat_lt
  have third := c.toNat_lt
  have fourth := d.toNat_lt
  unfold be32
  simp only [List.foldl_cons, List.foldl_nil]
  omega

theorem PngChunk.encode_length : c.encode.length = c.data.length + 12 := by
  unfold PngChunk.encode
  simp only [List.length_append, put32_length, c.kindLength]
  omega

/-! ## Chunks in memory -/

/-- Memory holds a chunk. -/
def PngChunk.StandsAt (c : PngChunk) (m : Memory) (base : ℕ) : Prop :=
  m.bytes base (c.data.length + 12) = c.encode

/-- A chunk stands where its length, its kind, its data and its check do. -/
theorem PngChunk.standsAt_iff : c.StandsAt m base ↔
    m.bytes base 4 = put32 c.data.length ∧ m.bytes (base + 4) 4 = c.kind ∧
      m.bytes (base + 8) c.data.length = c.data ∧
      m.bytes (base + 8 + c.data.length) 4 = put32 (crc32 (c.kind ++ c.data)) := by
  have whole : m.bytes base (c.data.length + 12) = m.bytes base 4 ++ m.bytes (base + 4) 4 ++
      m.bytes (base + 8) c.data.length ++ m.bytes (base + 8 + c.data.length) 4 := by
    have size : c.data.length + 12 = 4 + 4 + c.data.length + 4 := by omega
    have last : base + (4 + 4 + c.data.length) = base + 8 + c.data.length := by omega
    rw [size, Memory.bytes_append, Memory.bytes_append, Memory.bytes_append, last]
  unfold PngChunk.StandsAt PngChunk.encode
  rw [whole]
  constructor
  · intro same
    obtain ⟨first, check⟩ := List.append_inj' same (by simp)
    obtain ⟨first, data⟩ := List.append_inj' first (by simp)
    obtain ⟨word, kind⟩ := List.append_inj' first (by simp [c.kindLength])
    exact ⟨word, kind, data, check⟩
  · rintro ⟨word, kind, data, check⟩
    rw [word, kind, data, check]

/-- What was read of a chunk with the right check is a chunk. -/
theorem standsAt_of_read {check : List UInt8} (word : be32 (m.bytes base 4) = length)
    (last : m.bytes (base + 8 + length) 4 = check)
    (right : crc32 (m.bytes (base + 4) (4 + length)) = be32 check) :
    ∃ c : PngChunk, c.StandsAt m base ∧ c.data.length = length ∧ c.kind = m.bytes (base + 4) 4 := by
  have small : length < 2 ^ 32 := word ▸ be32_lt Memory.bytes_length
  refine ⟨⟨m.bytes (base + 4) 4, m.bytes (base + 8) length, Memory.bytes_length, ?_⟩, ?_,
    Memory.bytes_length, rfl⟩
  · rw [Memory.bytes_length]
    exact small
  · rw [PngChunk.standsAt_iff]
    dsimp only
    rw [Memory.bytes_length]
    refine ⟨?_, rfl, rfl, ?_⟩
    · rw [← word]
      exact (put32_be32 Memory.bytes_length).symm
    · rw [Memory.bytes_append] at right
      rw [last]
      change check = put32 (crc32 (m.bytes (base + 4) 4 ++ m.bytes (base + 4 + 4) length))
      rw [right, put32_be32]
      rw [← last]
      exact Memory.bytes_length

theorem PngChunk.StandsAt.congr {n : Memory} {other : ℕ} (stands : c.StandsAt m base)
    (same : ∀ i, i < c.data.length + 12 → n (other + i) = m (base + i)) : c.StandsAt n other := by
  unfold PngChunk.StandsAt at stands ⊢
  rw [← stands]
  exact Memory.bytes_congr same

/-- Chunks that stand one after the other. -/
def Chunks (m : Memory) : ℕ → List PngChunk → Prop
  | _, [] => True
  | base, c :: rest => c.StandsAt m base ∧ Chunks m (base + (c.data.length + 12)) rest

def chunksLength (chunks : List PngChunk) : ℕ := (chunks.map fun c => c.data.length + 12).sum

theorem chunks_bytes {chunks : List PngChunk} : Chunks m base chunks ↔
    m.bytes base (chunksLength chunks) = chunks.flatMap PngChunk.encode := by
  induction chunks generalizing base with
  | nil => exact iff_of_true trivial rfl
  | cons c rest ih =>
      unfold Chunks chunksLength
      rw [List.map_cons, List.sum_cons, Memory.bytes_append, List.flatMap_cons, ih]
      constructor
      · rintro ⟨first, later⟩
        exact congrArg₂ _ first later
      · intro same
        exact List.append_inj same (by rw [Memory.bytes_length, PngChunk.encode_length])

theorem chunks_append {first second : List PngChunk} : Chunks m base (first ++ second) ↔
    Chunks m base first ∧ Chunks m (base + chunksLength first) second := by
  induction first generalizing base with
  | nil => exact ⟨fun later => ⟨trivial, later⟩, fun both => both.2⟩
  | cons c rest ih =>
      change c.StandsAt m base ∧ Chunks m _ (rest ++ second) ↔ (c.StandsAt m base ∧ _) ∧ _
      rw [ih, and_assoc]
      unfold chunksLength
      rw [List.map_cons, List.sum_cons, Nat.add_assoc]

end

end LvglAic.Apng
