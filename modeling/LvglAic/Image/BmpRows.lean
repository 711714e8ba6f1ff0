import LvglAic.Image.BmpDecode

/-! # Rows of BMP images

The frame of a decoded image holds the rows of the file, the first one on top.  Pixels of
fifteen bits are widened; all others are copied.
-/

namespace LvglAic.Image

open LvglAic.Machine
open LvglAic.Ge2d (MppPixelFormat)

/-! ## Pixels -/

/-- Green repeats its top bit. -/
def widened555 (pixel : ℕ) : ℕ :=
  pixel / 1024 % 32 * 2048 + (pixel / 32 % 32 * 2 + pixel / 32 % 32 / 16) * 32 + pixel % 32

theorem widenPixel_eq (pixel : ℕ) : widenPixel pixel = widened555 pixel := by
  have red : pixel &&& 0x7c00 = pixel / 1024 % 32 * 1024 := and_field pixel 5 10
  have green : (pixel >>> 5) &&& 31 = pixel / 32 % 32 := by
    rw [Nat.shiftRight_eq_div_pow]
    exact Nat.and_two_pow_sub_one_eq_mod _ 5
  have blue : pixel &&& 31 = pixel % 32 := Nat.and_two_pow_sub_one_eq_mod _ 5
  have redSmall : pixel / 1024 % 32 < 32 := Nat.mod_lt _ (by decide)
  have greenSmall : pixel / 32 % 32 < 32 := Nat.mod_lt _ (by decide)
  have blueSmall : pixel % 32 < 32 := Nat.mod_lt _ (by decide)
  unfold widenPixel widened555
  dsimp only
  rw [red, green, blue]
  generalize pixel / 1024 % 32 = r at *
  generalize pixel / 32 % 32 = g at *
  generalize pixel % 32 = b at *
  have six : (g <<< 1) ||| (g >>> 4) = g * 2 + g / 16 := by
    rw [Nat.shiftLeft_eq, Nat.shiftRight_eq_div_pow, Nat.mul_comm,
      ← Nat.two_pow_add_eq_or_of_lt (by omega)]
  have high : (r * 1024) <<< 1 ||| ((g * 2 + g / 16) <<< 5) = 2 ^ 5 * (64 * r + (g * 2 + g / 16)) := by
    have shifted : (r * 1024) <<< 1 = 2 ^ 11 * r := by
      rw [Nat.shiftLeft_eq]
      omega
    rw [shifted, Nat.shiftLeft_eq, ← Nat.two_pow_add_eq_or_of_lt (by omega)]
    omega
  rw [six, high, ← Nat.two_pow_add_eq_or_of_lt (by omega)]
  omega

/-- The pixels of a row after the loop over them. -/
def widenedBytes : List UInt8 → List UInt8
  | low :: high :: rest =>
      let pixel := widened555 (low.toNat + 256 * high.toNat)
      UInt8.ofNat pixel :: UInt8.ofNat (pixel / 256) :: widenedBytes rest
  | other => other

theorem widenedBytes_length (content : List UInt8) : (widenedBytes content).length = content.length := by
  induction content using widenedBytes.induct with
  | case1 low high rest ih => simp [widenedBytes, ih]
  | case2 other _ => simp [widenedBytes]

section
variable {base span row first count : ℕ} {m : Memory}

theorem widenBody_eq {x : ℕ} (inside : row + 2 * x + 2 ≤ span) :
    widenBody base span row m x =
      .value (m.stores (Memory.placed (base + (row + 2 * x)) (widenedBytes (m.bytes (base + (row + 2 * x)) 2)))) := by
  have pair : m.bytes (base + (row + 2 * x)) 2 =
    [m (base + (row + 2 * x) + 0), m (base + (row + 2 * x) + 1)] := rfl
  have word : ∀ a b : UInt8, a.toNat ||| b.toNat <<< 8 = a.toNat + 256 * b.toNat := by
    intro a b
    rw [Nat.shiftLeft_eq, Nat.lor_comm, Nat.mul_comm, ← Nat.two_pow_add_eq_or_of_lt a.toNat_lt]
    omega
  unfold widenBody
  rw [Memory.read_eq inside, Outcome.value_bind, pair]
  dsimp only
  rw [Memory.write_eq inside]
  rw [List.getD_cons_zero, List.getD_cons_succ, List.getD_cons_zero, word, widenPixel_eq,
    Nat.shiftRight_eq_div_pow]
  rfl

theorem widenedBytes_append {pair rest : List UInt8} (two : pair.length = 2) :
    widenedBytes (pair ++ rest) = widenedBytes pair ++ widenedBytes rest := by
  obtain ⟨low, high, rfl⟩ := List.length_eq_two.mp two
  rfl

/-- The loop rewrites the pixels where they stand. -/
theorem widen_eq (inside : row + 2 * (first + count) ≤ span) :
    (List.range' first count).foldlM (widenBody base span row) m =
      .value (m.stores (Memory.placed (base + (row + 2 * first))
        (widenedBytes (m.bytes (base + (row + 2 * first)) (2 * count))))) := by
  induction count generalizing first m with
  | zero => rfl
  | succ count ih =>
      have place : base + (row + 2 * (first + 1)) = base + (row + 2 * first) + 2 := by omega
      have pair : (m.bytes (base + (row + 2 * first)) 2).length = 2 := Memory.bytes_length
      have written : (widenedBytes (m.bytes (base + (row + 2 * first)) 2)).length = 2 :=
        (widenedBytes_length _).trans pair
      have later : (m.stores (Memory.placed (base + (row + 2 * first))
          (widenedBytes (m.bytes (base + (row + 2 * first)) 2)))).bytes
          (base + (row + 2 * first) + 2) (2 * count) =
          m.bytes (base + (row + 2 * first) + 2) (2 * count) := by
        apply Memory.stores_bytes_other
        intro w member
        have bounds := Memory.mem_placed member
        rw [written] at bounds
        exact Or.inl bounds.2
      rw [List.range'_succ, List.foldlM_cons, widenBody_eq (by omega), Outcome.value_bind,
        ih (by omega), place, later, ← Memory.stores_append]
      have split : 2 * (count + 1) = 2 + 2 * count := by omega
      rw [split, Memory.bytes_append, widenedBytes_append pair, Memory.placed_append, written]

end

/-! ## Rows -/

/-- The memory differs from an older one in a span, which holds the content. -/
structure Written (older newer : Memory) (address : ℕ) (content : List UInt8) : Prop where
  holds : newer.bytes address content.length = content
  others : ∀ a, a < address ∨ address + content.length ≤ a → newer a = older a

theorem written_placed (m : Memory) (address : ℕ) (content : List UInt8) :
    Written m (m.stores (Memory.placed address content)) address content := by
  refine ⟨Memory.stores_placed content, ?_⟩
  intro a outside
  apply Memory.stores_other
  intro w member same
  have bounds := Memory.mem_placed member
  omega

theorem Written.again {first second third : Memory} {address : ℕ} {content other : List UInt8}
    (early : Written first second address content) (late : Written second third address other)
    (same : other.length = content.length) : Written first third address other := by
  refine ⟨late.holds, ?_⟩
  intro a outside
  rw [late.others a outside, early.others a (same ▸ outside)]

namespace BmpHeader

variable (h : BmpHeader) (content : List UInt8)

/-- The row of the file that is shown in a row of the image. -/
def fileRow (y : ℕ) : List UInt8 :=
  (content.drop (h.offset + (if h.topDown then y else h.height - 1 - y) * h.stride)).take
    (h.width * (h.bpp / 8))

def outputRow (y : ℕ) : List UInt8 :=
  if h.rgb555 then widenedBytes (h.fileRow content y) else h.fileRow content y

end BmpHeader

section
variable {File : Type} {sys : MppSystem File} {content : List UInt8} {position : File → ℕ}
  {h : BmpHeader} {base span fileSize : ℕ}

/-- A turn of the loop over the rows writes one row of the frame. -/
theorem bmpRow_written {now : MppStream File × Memory} {y : ℕ} (fits : h.Fits fileSize)
    (small : fileSize ≤ maxFileBytes) (gives : now.1.Gives sys.fs content position)
    (below : y < h.height) (room : h.outputStride * h.height ≤ span) :
    bmpRow sys h base span now y ≠ .stray ∧ ∀ next, bmpRow sys h base span now y = .value next →
      next.1.Gives sys.fs content position ∧ (h.fileRow content y).length = h.bytes ∧
      Written now.2 next.2 (base + y * h.outputStride) (h.outputRow content y) := by
  obtain ⟨stream, m⟩ := now
  have rows := fits.rows small
  have inside := rows.row y below
  have place := rows.rowOffset y below
  obtain ⟨res, sought, seek⟩ : ∃ res sought, streamSeek sys.fs stream (h.sourceOffset y) = (res, sought) :=
    ⟨_, _, rfl⟩
  obtain ⟨after, _, positioned⟩ := streamSeek_gives gives seek
  obtain ⟨code, got, later, read, kept, _, short, right⟩ := streamRead_gives h.bytes after
  have written := written_placed m (base + y * h.outputStride) got
  unfold bmpRow
  rw [seek]
  dsimp only
  split
  · exact ⟨(fun same => nomatch same), fun next same => nomatch same⟩
  rename_i fine
  rw [read, Outcome.value_bind]
  dsimp only
  rw [Memory.write_eq (by omega), Outcome.value_bind, place]
  split
  · exact ⟨(fun same => nomatch same), fun next same => nomatch same⟩
  rename_i full
  rw [not_or, not_not, not_not] at full
  have source : got = h.fileRow content y := by
    rw [right full.1, positioned (not_not.mp fine), rows.sourceOffset y below,
      rows.sourceRow y below, full.2, rows.bytes]
    rfl
  have length : (h.fileRow content y).length = h.bytes := source ▸ full.2
  by_cases widened : h.rgb555
  · have deep := fits.widened widened
    have width : h.bytes = 2 * h.width := by
      rw [rows.bytes, deep]
      omega
    have stood : (m.stores (Memory.placed (base + y * h.outputStride) got)).bytes
        (base + (y * h.outputStride + 2 * 0)) (2 * h.width) = got := by
      rw [← width, ← full.2]
      exact written.holds
    rw [if_pos widened, widen_eq (by omega), Outcome.value_bind, stood]
    refine ⟨(fun same => nomatch same), fun next same => ?_⟩
    rw [← Outcome.value.inj same]
    refine ⟨kept, length, ?_⟩
    unfold BmpHeader.outputRow
    rw [if_pos widened, ← source]
    exact written.again (written_placed _ _ _) (widenedBytes_length got)
  · rw [if_neg widened, Outcome.value_bind]
    refine ⟨(fun same => nomatch same), fun next same => ?_⟩
    rw [← Outcome.value.inj same]
    refine ⟨kept, length, ?_⟩
    unfold BmpHeader.outputRow
    rw [if_neg widened, ← source]
    exact written

theorem outputRow_length {y : ℕ} (length : (h.fileRow content y).length = h.bytes) :
    (h.outputRow content y).length = h.bytes := by
  unfold BmpHeader.outputRow
  split
  · exact (widenedBytes_length _).trans length
  · exact length

/-- The frame after some of the rows. -/
structure RowsStand (sys : MppSystem File) (content : List UInt8) (position : File → ℕ) (h : BmpHeader)
    (base span : ℕ) (older : Memory) (y : ℕ) (now : MppStream File × Memory) : Prop where
  gives : now.1.Gives sys.fs content position
  rows : ∀ j, j < y → (h.fileRow content j).length = h.bytes ∧
    now.2.bytes (base + j * h.outputStride) h.bytes = h.outputRow content j
  others : ∀ a, a < base ∨ base + span ≤ a → now.2 a = older a

theorem RowsStand.next {older : Memory} {y : ℕ} {now next : MppStream File × Memory}
    (stand : RowsStand sys content position h base span older y now) (fits : h.Fits fileSize)
    (small : fileSize ≤ maxFileBytes) (below : y < h.height) (room : h.outputStride * h.height ≤ span)
    (turned : bmpRow sys h base span now y = .value next) :
    RowsStand sys content position h base span older (y + 1) next := by
  have rows := fits.rows small
  obtain ⟨gives, length, written⟩ := (bmpRow_written fits small stand.gives below room).2 next turned
  have size := outputRow_length length
  have stride : h.bytes ≤ h.outputStride := by
    have aligned := rows.outputStride
    omega
  refine ⟨gives, ?_, ?_⟩
  · intro j before
    rcases Nat.lt_succ_iff_lt_or_eq.mp before with earlier | rfl
    · obtain ⟨known, stood⟩ := stand.rows j earlier
      refine ⟨known, stood ▸ Memory.bytes_congr ?_⟩
      intro i inside
      have apart : (j + 1) * h.outputStride ≤ y * h.outputStride := Nat.mul_le_mul_right _ earlier
      rw [Nat.add_mul] at apart
      exact written.others _ (by omega)
    · exact ⟨length, size ▸ written.holds⟩
  · intro a outside
    have inside := rows.row y below
    rw [rows.rowOffset y below] at inside
    rw [written.others a (by omega), stand.others a outside]

end

/-! ## Frames and sessions -/

section
variable {File : Type} {sys : MppSystem File} {session taken : MppSession} {m later : Memory}
  {base : ℕ}

/-- The frame of an image is a block of the contiguous memory. -/
structure Framed (sys : MppSystem File) (session taken : MppSession) (width height base : ℕ) : Prop where
  based : taken.allocationBase = some base
  stride : taken.stride = width
  plain : taken.heapBuf = session.heapBuf
  cmaSize : taken.cmaSize = alignUp (width * height) sys.cacheLine
  block : sys.cmaAlloc taken.cmaSize = some base
  small : width * height ≤ maxPixels * 4

end

/-! ## The decoder -/

section
variable {File : Type} {sys : MppSystem File} {stream : MppStream File} {content : List UInt8}
  {position : File → ℕ} {k fileSize : ℕ} {h : BmpHeader} {session : MppSession}

end

end LvglAic.Image
