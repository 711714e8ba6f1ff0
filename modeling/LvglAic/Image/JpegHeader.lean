import LvglAic.Image.Stream

/-! # The header of a JPEG image (`lv_aic_mpp_decoder.c`)

The decoder walks over the segments of a JPEG stream up to its frame header, which gives
the size of the image and the number of its components.
-/

namespace LvglAic.Image

open LvglAic.Machine

def maxFileBytes : ℕ := 8 * 1024 * 1024

structure JpegHeader where
  width : ℕ
  height : ℕ
  components : ℕ
deriving DecidableEq, Repr

section
variable {File : Type} (fs : FileSystem File)

/-- The frame header, behind its marker and its size. -/
def jpegFrameHeader (stream : MppStream File) (size : ℕ) : Outcome JpegHeader :=
  if size < 8 then .refused
  else do
    let (res, sof, stream) ← streamRead fs stream 6
    if res ≠ .ok ∨ sof.length ≠ 6 then .refused
    else
      let precision := sof.getD 0 0
      if precision ≠ 8 then .refused
      else
        let height := streamU16Be (sof.drop 1)
        let width := streamU16Be (sof.drop 3)
        let components := (sof.getD 5 0).toNat
        if width ≤ 0 ∨ height ≤ 0 then .refused
        else if components ≠ 1 ∧ components ≠ 3 ∧ components ≠ 4 then .refused
        else if size ≠ 8 + 3 * components then .refused
        else do
          let (res, sof, _) ← streamRead fs stream (3 * components)
          if res ≠ .ok ∨ sof.length ≠ 3 * components then .refused
          else .value ⟨width, height, components⟩

/-- One turn of the walk over the segments. -/
def jpegBody (stream : MppStream File) : Outcome (Turn (MppStream File) JpegHeader) := do
  let (res, buf, stream) ← streamRead fs stream 4
  if res ≠ .ok ∨ buf.length ≠ 4 then .refused
  else
    let marker := streamU16Be buf
    let size := streamU16Be (buf.drop 2)
    if size < 2 then .refused
    else if marker = 0xFFC0 ∨ marker = 0xFFC1 then do
      let header ← jpegFrameHeader fs stream size
      .value (.stop header)
    else
      let next := (stream.cursor + size - 2) % 2 ^ 32
      let (res, stream) := streamSeek fs stream next
      if res ≠ .ok then .refused
      else if stream.cursor > maxFileBytes then .refused
      else .value (.again stream)

/-- The walk passes at least four bytes with every segment. -/
def parseJpegHeader (stream : MppStream File) : Outcome JpegHeader := do
  let (res, buf, stream) ← streamRead fs stream 2
  if res ≠ .ok ∨ buf.length ≠ 2 then .refused
  else if buf.getD 0 0 ≠ 0xFF ∨ buf.getD 1 0 ≠ 0xD8 then .refused
  else scan (jpegBody fs) (stream.size + 1) stream

end

/-! ## Segments -/

structure JpegSegment where
  first : UInt8
  code : UInt8
  data : List UInt8
  short : data.length + 2 < 2 ^ 16

def JpegSegment.encode (s : JpegSegment) : List UInt8 :=
  [s.first, s.code] ++ put16 (s.data.length + 2) ++ s.data

/-- The marker is not the one of a baseline or an extended frame. -/
def JpegSegment.Passed (s : JpegSegment) : Prop := ¬(s.first = 0xFF ∧ (s.code = 0xC0 ∨ s.code = 0xC1))

/-- Markers without a segment: TEM, the restarts, SOI and EOI; SOS ends the header. -/
def headerCode (code : UInt8) : Prop := ¬(code = 0x01 ∨ 0xD0 ≤ code ∧ code ≤ 0xDA)

def JpegSegment.Proper (s : JpegSegment) : Prop := s.Passed ∧ s.first = 0xFF ∧ headerCode s.code

structure JpegFrame where
  extended : Bool
  width : ℕ
  height : ℕ
  components : ℕ
  specs : List UInt8
  wide : 0 < width ∧ width < 2 ^ 16
  high : 0 < height ∧ height < 2 ^ 16
  counted : components = 1 ∨ components = 3 ∨ components = 4
  described : specs.length = 3 * components

def JpegFrame.body (f : JpegFrame) : List UInt8 :=
  [8] ++ put16 f.height ++ put16 f.width ++ [UInt8.ofNat f.components] ++ f.specs

def JpegFrame.encode (f : JpegFrame) : List UInt8 :=
  [0xFF, if f.extended then 0xC1 else 0xC0] ++ put16 (8 + 3 * f.components) ++ f.body

def JpegFrame.header (f : JpegFrame) : JpegHeader := ⟨f.width, f.height, f.components⟩

/-- Segments that are walked over, and then a frame header. -/
inductive JpegSegments (Walked : JpegSegment → Prop) (h : JpegHeader) : List UInt8 → Prop
  | frame (f : JpegFrame) (rest : List UInt8) : f.header = h → JpegSegments Walked h (f.encode ++ rest)
  | segment (s : JpegSegment) (rest : List UInt8) : Walked s → JpegSegments Walked h rest →
      JpegSegments Walked h (s.encode ++ rest)

def JpegStream (Walked : JpegSegment → Prop) (content : List UInt8) (h : JpegHeader) : Prop :=
  ∃ rest, content = [0xFF, 0xD8] ++ rest ∧ JpegSegments Walked h rest

section
variable {File : Type} {fs : FileSystem File} {stream next : MppStream File}
  {content left rest : List UInt8} {h : JpegHeader} {f : JpegFrame}

/-- The frame header is read where one stands, and only there. -/
theorem jpegFrameHeader_value {size : ℕ} (stands : stream.Stands content left) :
    jpegFrameHeader fs stream size = .value h ↔ ∃ f : JpegFrame, ∃ rest,
      size = 8 + 3 * f.components ∧ left = f.body ++ rest ∧ f.header = h := by
  obtain ⟨middle, read, stands⟩ := streamRead_stands fs 6 stands
  unfold jpegFrameHeader
  constructor
  · intro value
    obtain ⟨large, value⟩ := Outcome.ite_refused.mp value
    rw [read, Outcome.value_bind] at value
    dsimp only at value
    obtain ⟨full, value⟩ := Outcome.ite_refused.mp value
    rw [not_or, not_not, not_not, List.length_take] at full
    obtain ⟨p, a, b, c, d, n, rest, rfl⟩ : ∃ p a b c d n rest, left = p :: a :: b :: c :: d :: n :: rest := by
      match left, (show 6 ≤ left.length by omega) with
      | p :: a :: b :: c :: d :: n :: rest, _ => exact ⟨p, a, b, c, d, n, rest, rfl⟩
    have whole : (p :: a :: b :: c :: d :: n :: rest).take 6 = [p, a, b, c, d, n] := rfl
    have count : [p, a, b, c, d, n].getD 5 0 = n := rfl
    rw [whole, count] at value
    obtain ⟨precision, value⟩ := Outcome.ite_refused.mp value
    obtain ⟨sized, value⟩ := Outcome.ite_refused.mp value
    obtain ⟨counted, value⟩ := Outcome.ite_refused.mp value
    obtain ⟨described, value⟩ := Outcome.ite_refused.mp value
    obtain ⟨last, read, stands⟩ := streamRead_stands fs (3 * n.toNat) stands
    rw [read, Outcome.value_bind] at value
    dsimp only at value
    obtain ⟨enough, value⟩ := Outcome.ite_refused.mp value
    change ¬(streamU16Be (c :: d :: [n]) ≤ 0 ∨ streamU16Be (a :: b :: [c, d, n]) ≤ 0) at sized
    change ¬p ≠ 8 at precision
    change ¬(_ ∨ ((rest).take (3 * n.toNat)).length ≠ _) at enough
    rw [not_or, not_not, not_not] at enough
    rw [not_or] at sized
    refine ⟨⟨false, _, _, n.toNat, rest.take (3 * n.toNat), ⟨Nat.lt_of_not_le sized.1, streamU16Be_lt⟩,
      ⟨Nat.lt_of_not_le sized.2, streamU16Be_lt⟩, by omega, enough.2⟩, rest.drop (3 * n.toNat),
      not_not.mp described, ?_, Outcome.value.inj value⟩
    unfold JpegFrame.body
    dsimp only
    rw [put16_streamU16Be, put16_streamU16Be, UInt8.ofNat_toNat, not_not.mp precision,
      List.append_assoc, List.take_append_drop]
    rfl
  · rintro ⟨f, rest, rfl, rfl, rfl⟩
    have wide := f.wide
    have high := f.high
    have counted := f.counted
    have whole : (f.body ++ rest).take 6 =
      [8] ++ put16 f.height ++ put16 f.width ++ [UInt8.ofNat f.components] := rfl
    have first : ((f.body ++ rest).take 6).getD 0 0 = 8 := rfl
    have height : streamU16Be (((f.body ++ rest).take 6).drop 1) = f.height :=
      streamU16Be_put16 _ high.2
    have width : streamU16Be (((f.body ++ rest).take 6).drop 3) = f.width :=
      streamU16Be_put16 _ wide.2
    have count : (((f.body ++ rest).take 6).getD 5 0).toNat = f.components := by
      change (UInt8.ofNat f.components).toNat = f.components
      rw [UInt8.toNat_ofNat']
      omega
    have specs : ((f.body ++ rest).drop 6).take (3 * f.components) = f.specs := by
      change (f.specs ++ rest).take (3 * f.components) = f.specs
      rw [← f.described]
      exact List.take_left
    obtain ⟨last, more, _⟩ := streamRead_stands fs (3 * f.components) stands
    rw [if_neg (by omega), read, Outcome.value_bind]
    dsimp only
    rw [first, height, width, count, if_neg (by rw [whole]; simp), if_neg (by simp),
      if_neg (by omega), if_neg (by omega), if_neg (by omega), more, Outcome.value_bind, specs]
    dsimp only
    rw [if_neg (by simp [f.described])]
    rfl

/-- A turn of the walk looks at a marker and a size, and goes on behind what they announce. -/
theorem jpegBody_eq (fs : FileSystem File) {a b c d : UInt8}
    (stands : stream.Stands content (a :: b :: c :: d :: rest)) (small : content.length ≤ maxFileBytes) :
    ∃ middle next : MppStream File, middle.Stands content rest ∧
      (streamU16Be [c, d] - 2 ≤ rest.length →
        next.Stands content (rest.drop (streamU16Be [c, d] - 2))) ∧
      jpegBody fs stream =
        if streamU16Be [c, d] < 2 then .refused
        else if streamU16Be [a, b, c, d] = 0xFFC0 ∨ streamU16Be [a, b, c, d] = 0xFFC1 then do
          let header ← jpegFrameHeader fs middle (streamU16Be [c, d])
          .value (.stop header)
        else if rest.length < streamU16Be [c, d] - 2 then .refused
        else .value (.again next) := by
  obtain ⟨middle, read, after⟩ := streamRead_stands fs 4 stands
  change middle.Stands content rest at after
  have limit : maxFileBytes = 8388608 := rfl
  have whole := after.cursor_add
  have sized : streamU16Be [c, d] < 2 ^ 16 := streamU16Be_lt
  have taken : (a :: b :: c :: d :: rest).take 4 = [a, b, c, d] := rfl
  have second : [a, b, c, d].drop 2 = [c, d] := rfl
  unfold jpegBody
  rw [read, Outcome.value_bind, taken]
  dsimp only
  rw [second, if_neg (by simp)]
  by_cases tiny : streamU16Be [c, d] < 2
  · have still : streamU16Be [c, d] - 2 = 0 := by omega
    refine ⟨middle, middle, after, fun _ => ?_, ?_⟩
    · rw [still]
      exact after
    · rw [if_pos tiny, if_pos tiny]
  have place : (middle.cursor + streamU16Be [c, d] - 2) % 2 ^ 32 =
      middle.cursor + (streamU16Be [c, d] - 2) := by omega
  rw [place, if_neg tiny]
  by_cases room : streamU16Be [c, d] - 2 ≤ rest.length
  · obtain ⟨next, sought, later⟩ := streamSeek_memory fs after.opened after.memory
      after.size after.word (show middle.cursor + (streamU16Be [c, d] - 2) ≤ content.length by omega)
    have inside := later.inside
    rw [← List.drop_drop, after.left] at later
    refine ⟨middle, next, after, fun _ => later, ?_⟩
    rw [if_neg tiny, sought]
    dsimp only
    rw [if_neg (show ¬FsRes.ok ≠ FsRes.ok from fun failed => failed rfl),
      if_neg (show ¬next.cursor > maxFileBytes by omega), if_neg (Nat.not_lt_of_le room)]
  · have past := streamSeek_past fs after
      (show content.length < middle.cursor + (streamU16Be [c, d] - 2) by omega)
    refine ⟨middle, middle, after, fun enough => absurd enough room, ?_⟩
    rw [if_neg tiny, past, if_pos (show FsRes.invParam ≠ .ok from fun same => nomatch same),
      if_pos (Nat.lt_of_not_le room)]

theorem jpegBody_short (stands : stream.Stands content left) (short : left.length < 4) :
    jpegBody fs stream = .refused := by
  obtain ⟨middle, read, _⟩ := streamRead_stands fs 4 stands
  unfold jpegBody
  rw [read, Outcome.value_bind]
  dsimp only
  rw [if_pos]
  rw [List.length_take]
  omega

theorem marker_iff {a b : UInt8} {rest : List UInt8} :
    (streamU16Be (a :: b :: rest) = 0xFFC0 ∨ streamU16Be (a :: b :: rest) = 0xFFC1) ↔
      a = 0xFF ∧ (b = 0xC0 ∨ b = 0xC1) := by
  have first := a.toNat_lt
  have second := b.toNat_lt
  rw [streamU16Be_cons, ← UInt8.toNat_inj, ← UInt8.toNat_inj, ← UInt8.toNat_inj]
  change _ ↔ a.toNat = 255 ∧ (b.toNat = 192 ∨ b.toNat = 193)
  omega

/-- A turn of the walk stops at a frame header. -/
theorem jpegBody_stops (stands : stream.Stands content (f.encode ++ rest))
    (small : content.length ≤ maxFileBytes) : jpegBody fs stream = .value (.stop f.header) := by
  have counted := f.counted
  obtain ⟨middle, next, after, _, same⟩ := jpegBody_eq fs stands small
  have sized : streamU16Be (put16 (8 + 3 * f.components)) = 8 + 3 * f.components :=
    streamU16Be_put16 [] (by omega)
  have found : jpegFrameHeader fs middle (8 + 3 * f.components) = .value f.header :=
    (jpegFrameHeader_value after).mpr ⟨f, rest, rfl, rfl, rfl⟩
  change _ = if streamU16Be (put16 (8 + 3 * f.components)) < 2 then _ else _ at same
  rw [same, if_neg (by omega), if_pos (marker_iff.mpr ⟨rfl, ?_⟩)]
  · change (do
      let header ← jpegFrameHeader fs middle (streamU16Be (put16 (8 + 3 * f.components)))
      Outcome.value (Turn.stop header)) = _
    rw [sized, found, Outcome.value_bind]
  · cases f.extended
    · exact Or.inl rfl
    · exact Or.inr rfl

/-- A turn of the walk passes a segment. -/
theorem jpegBody_passes (fs : FileSystem File) {s : JpegSegment}
    (stands : stream.Stands content (s.encode ++ rest)) (passed : s.Passed) (small : content.length ≤ maxFileBytes) :
    ∃ next, jpegBody fs stream = .value (.again next) ∧ next.Stands content rest := by
  obtain ⟨middle, next, after, later, same⟩ := jpegBody_eq fs stands small
  have sized : streamU16Be (put16 (s.data.length + 2)) = s.data.length + 2 :=
    streamU16Be_put16 [] s.short
  change streamU16Be (put16 (s.data.length + 2)) - 2 ≤ (s.data ++ rest).length →
    next.Stands content ((s.data ++ rest).drop (streamU16Be (put16 (s.data.length + 2)) - 2)) at later
  change _ = if streamU16Be (put16 (s.data.length + 2)) < 2 then _ else if _ then _ else
    if (s.data ++ rest).length < streamU16Be (put16 (s.data.length + 2)) - 2 then _ else _ at same
  rw [sized, Nat.add_sub_cancel, List.length_append] at later same
  rw [List.drop_left] at later
  refine ⟨next, ?_, later (Nat.le_add_right _ _)⟩
  rw [same, if_neg (by omega), if_neg (marker_iff.not.mpr passed), if_neg (by omega)]

/-- What a turn of the walk does shows what stood before it. -/
theorem jpegBody_value {turn : Turn (MppStream File) JpegHeader} (stands : stream.Stands content left)
    (small : content.length ≤ maxFileBytes) (turned : jpegBody fs stream = .value turn) :
    (∃ (s : JpegSegment) (rest : List UInt8) (next : MppStream File), turn = .again next ∧
      s.Passed ∧ left = s.encode ++ rest ∧ next.Stands content rest) ∨
    ∃ (f : JpegFrame) (rest : List UInt8), turn = .stop f.header ∧ left = f.encode ++ rest := by
  by_cases short : left.length < 4
  · rw [jpegBody_short stands short] at turned
    exact nomatch turned
  obtain ⟨a, b, c, d, rest, rfl⟩ : ∃ a b c d rest, left = a :: b :: c :: d :: rest := by
    match left, Nat.le_of_not_lt short with
    | a :: b :: c :: d :: rest, _ => exact ⟨a, b, c, d, rest, rfl⟩
  obtain ⟨middle, next, after, later, same⟩ := jpegBody_eq fs stands small
  rw [same] at turned
  obtain ⟨large, turned⟩ := Outcome.ite_refused.mp turned
  have word : streamU16Be [c, d] < 2 ^ 16 := streamU16Be_lt
  split at turned
  · rename_i marked
    obtain ⟨first, kind⟩ := marker_iff.mp marked
    obtain ⟨header, found, stopped⟩ := Outcome.bind_eq_value.mp turned
    obtain ⟨f, behind, sized, rfl, rfl⟩ := (jpegFrameHeader_value after).mp found
    refine Or.inr ⟨{ f with extended := b = 0xC1 }, behind, (Outcome.value.inj stopped).symm, ?_⟩
    have size : put16 (8 + 3 * f.components) = [c, d] := by
      rw [← sized]
      exact put16_streamU16Be
    have code : (if decide (b = 0xC1) then 0xC1 else 0xC0) = b := by
      rcases kind with rfl | rfl
      · rfl
      · rfl
    unfold JpegFrame.encode
    dsimp only
    rw [size, code, first]
    rfl
  · rename_i plain
    obtain ⟨enough, turned⟩ := Outcome.ite_refused.mp turned
    have count : (rest.take (streamU16Be [c, d] - 2)).length + 2 = streamU16Be [c, d] := by
      rw [List.length_take]
      omega
    refine Or.inl ⟨⟨a, b, rest.take (streamU16Be [c, d] - 2), by omega⟩, _, next,
      (Outcome.value.inj turned).symm, marker_iff.not.mp plain, ?_, later (by omega)⟩
    unfold JpegSegment.encode
    dsimp only
    rw [count, put16_streamU16Be, List.append_assoc, List.take_append_drop]
    rfl

/-! ## The walk -/

/-- The walk passes the segments of the stream and returns its frame header. -/
theorem scan_segments {fuel : ℕ} (segments : JpegSegments JpegSegment.Passed h left)
    (stands : stream.Stands content left) (small : content.length ≤ maxFileBytes)
    (enough : left.length < fuel) : scan (jpegBody fs) fuel stream = .value h := by
  induction segments generalizing stream fuel with
  | frame f rest same =>
      obtain ⟨fuel, rfl⟩ : ∃ more, fuel = more + 1 := ⟨fuel - 1, by omega⟩
      rw [scan_stop (jpegBody_stops stands small), same]
  | segment s rest passed _ ih =>
      obtain ⟨fuel, rfl⟩ : ∃ more, fuel = more + 1 := ⟨fuel - 1, by omega⟩
      obtain ⟨next, turned, after⟩ := jpegBody_passes fs stands passed small
      rw [scan_again turned]
      rw [List.length_append] at enough
      have some : 0 < s.encode.length := Nat.succ_pos _
      exact ih after (by omega)

theorem jpegFrameHeader_ne_stray {size : ℕ} (stands : stream.Stands content left) :
    jpegFrameHeader fs stream size ≠ .stray := by
  obtain ⟨middle, read, stands⟩ := streamRead_stands fs 6 stands
  unfold jpegFrameHeader
  apply Outcome.ite_ne_stray
  intro _
  rw [read, Outcome.value_bind]
  dsimp only
  apply Outcome.ite_ne_stray
  intro _
  apply Outcome.ite_ne_stray
  intro _
  apply Outcome.ite_ne_stray
  intro _
  apply Outcome.ite_ne_stray
  intro _
  apply Outcome.ite_ne_stray
  intro _
  obtain ⟨last, more, _⟩ :=
    streamRead_stands fs (3 * ((left.take 6).getD 5 0).toNat) stands
  rw [more, Outcome.value_bind]
  dsimp only
  apply Outcome.ite_ne_stray
  intro _ same
  exact nomatch same

theorem jpegBody_ne_stray (stands : stream.Stands content left)
    (small : content.length ≤ maxFileBytes) : jpegBody fs stream ≠ .stray := by
  by_cases short : left.length < 4
  · rw [jpegBody_short stands short]
    exact fun same => nomatch same
  obtain ⟨a, b, c, d, rest, rfl⟩ : ∃ a b c d rest, left = a :: b :: c :: d :: rest := by
    match left, Nat.le_of_not_lt short with
    | a :: b :: c :: d :: rest, _ => exact ⟨a, b, c, d, rest, rfl⟩
  obtain ⟨middle, next, after, _, same⟩ := jpegBody_eq fs stands small
  rw [same]
  apply Outcome.ite_ne_stray
  intro _
  split
  · apply Outcome.bind_ne_stray (jpegFrameHeader_ne_stray after)
    exact fun header _ same => nomatch same
  · apply Outcome.ite_ne_stray
    exact fun _ same => nomatch same

/-- The code accepts what starts with SOI and segments up to a frame header. -/
theorem jpeg_header_walk (fs : FileSystem File) (stream : MppStream File) (content : List UInt8)
    (opened : stream.opened) (borrowed : stream.memory = some content)
    (whole : stream.size = content.length) (small : content.length ≤ maxFileBytes)
    (start : stream.cursor = 0) :
    parseJpegHeader fs stream ≠ .stray ∧ ∀ h, parseJpegHeader fs stream = .value h ↔
      JpegStream JpegSegment.Passed content h := by
  have limit : maxFileBytes = 8388608 := rfl
  have before : stream.Stands content content := by
    refine ⟨opened, borrowed, whole, by omega, by omega, ?_⟩
    rw [start, List.drop_zero]
  obtain ⟨next, read, stands⟩ := streamRead_stands fs 2 before
  have sized := stands.size
  unfold parseJpegHeader
  rw [read, Outcome.value_bind]
  dsimp only
  rw [sized]
  constructor
  · apply Outcome.ite_ne_stray
    intro _
    apply Outcome.ite_ne_stray
    intro _
    apply scan_ne_stray (fun s => ∃ left, s.Stands content left) (fun s => content.length - s.cursor)
    · rintro s ⟨left, stands⟩
      exact jpegBody_ne_stray stands small
    · rintro s later ⟨left, stands⟩ turned
      have whole := stands.cursor_add
      rcases jpegBody_value stands small turned with
        ⟨segment, rest, _, same, _, rfl, after⟩ | ⟨_, _, same, _⟩
      · cases same
        have inside := after.cursor_add
        have some : 0 < segment.encode.length := Nat.succ_pos _
        rw [List.length_append] at whole
        exact ⟨⟨rest, after⟩, by omega⟩
      · exact nomatch same
    · exact ⟨_, stands⟩
    · omega
  · intro h
    constructor
    · intro value
      obtain ⟨full, value⟩ := Outcome.ite_refused.mp value
      obtain ⟨soi, value⟩ := Outcome.ite_refused.mp value
      refine ⟨content.drop 2, ?_, ?_⟩
      · obtain ⟨a, b, rest, rfl⟩ : ∃ a b rest, content = a :: b :: rest := by
          rw [not_or, not_not, not_not, List.length_take] at full
          match content, (show 2 ≤ content.length by omega) with
          | a :: b :: rest, _ => exact ⟨a, b, rest, rfl⟩
        rw [not_or, not_not, not_not] at soi
        change a = 0xFF ∧ b = 0xD8 at soi
        rw [soi.1, soi.2]
        rfl
      · refine scan_value (fun s => ∃ left, s.Stands content left ∧ ∀ h,
          JpegSegments JpegSegment.Passed h left → JpegSegments JpegSegment.Passed h (content.drop 2))
          (fun h => JpegSegments JpegSegment.Passed h (content.drop 2)) ?_ ?_
          ⟨_, stands, fun _ same => same⟩ value
        · rintro s later ⟨left, stands, back⟩ turned
          rcases jpegBody_value stands small turned with
            ⟨segment, rest, _, same, passed, rfl, after⟩ | ⟨_, _, same, _⟩
          · cases same
            exact ⟨rest, after, fun h more => back h (.segment segment rest passed more)⟩
          · exact nomatch same
        · rintro s result ⟨left, stands, back⟩ turned
          rcases jpegBody_value stands small turned with
            ⟨_, _, _, same, _⟩ | ⟨f, rest, same, rfl⟩
          · exact nomatch same
          · cases same
            exact back _ (.frame f rest rfl)
    · rintro ⟨rest, rfl, segments⟩
      change next.Stands ([0xFF, 0xD8] ++ rest) rest at stands
      rw [if_neg (by simp), if_neg (by simp)]
      refine scan_segments segments stands small ?_
      rw [List.length_append]
      omega

end

/-! ## What is walked over -/

def noFiles : FileSystem Unit := ⟨fun file _ => (.fsErr, [], file), fun file _ => (.fsErr, file)⟩

def smallJpeg (first code : UInt8) : List UInt8 :=
  [0xFF, 0xD8, first, code, 0x00, 0x02,
    0xFF, 0xC0, 0x00, 0x0B, 0x08, 0x00, 0x05, 0x00, 0x07, 0x01, 0x01, 0x11, 0x00]

theorem jpeg_header_walk_small : parseJpegHeader noFiles ⟨(), some (smallJpeg 0xFF 0xFE), true, 19, 0⟩ ≠ .stray ∧
    ∀ h, parseJpegHeader noFiles ⟨(), some (smallJpeg 0xFF 0xFE), true, 19, 0⟩ = .value h ↔
      JpegStream JpegSegment.Passed (smallJpeg 0xFF 0xFE) h :=
  jpeg_header_walk noFiles _ _ rfl rfl rfl (by decide) rfl

/-- Neither the first byte of a marker nor the start of a scan ends the walk. -/
theorem jpeg_header_loose :
    (parseJpegHeader noFiles ⟨(), some (smallJpeg 0x00 0x00), true, 19, 0⟩ = .value ⟨7, 5, 1⟩ ∧
      ∀ h, ¬JpegStream JpegSegment.Proper (smallJpeg 0x00 0x00) h) ∧
    parseJpegHeader noFiles ⟨(), some (smallJpeg 0xFF 0xDA), true, 19, 0⟩ = .value ⟨7, 5, 1⟩ ∧
      ∀ h, ¬JpegStream JpegSegment.Proper (smallJpeg 0xFF 0xDA) h := by
  have walked : ∀ {first code : UInt8} {h : JpegHeader},
      JpegStream JpegSegment.Proper (smallJpeg first code) h →
        first = 0xFF ∧ (code = 0xC0 ∨ code = 0xC1 ∨ headerCode code) := by
    rintro first code h ⟨rest, same, segments⟩
    have behind : (smallJpeg first code).drop 2 = rest := congrArg (List.drop 2) same
    cases segments with
    | frame f more _ =>
        have start : first = 0xFF := Option.some.inj (congrArg (fun l => l[0]?) behind)
        have kind : code = if f.extended then 0xC1 else 0xC0 :=
          Option.some.inj (congrArg (fun l => l[1]?) behind)
        refine ⟨start, ?_⟩
        split at kind
        · exact Or.inr (Or.inl kind)
        · exact Or.inl kind
    | segment s more proper _ =>
        have start : first = s.first := Option.some.inj (congrArg (fun l => l[0]?) behind)
        have kind : code = s.code := Option.some.inj (congrArg (fun l => l[1]?) behind)
        exact ⟨start.trans proper.2.1, Or.inr (Or.inr (kind ▸ proper.2.2))⟩
  refine ⟨⟨by decide, fun h stream => ?_⟩, by decide, fun h stream => ?_⟩
  · exact absurd (walked stream).1 (by decide)
  · exact absurd (walked stream).2 (by unfold headerCode; decide)

end LvglAic.Image
