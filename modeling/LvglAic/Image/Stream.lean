import LvglAic.Machine.Scan

/-! # Streams of encoded images (`lv_aic_mpp_stream.c`)

A decoder reads a file and borrowed memory through the same stream.  The file system is
the one of LVGL.
-/

namespace LvglAic.Image

open LvglAic.Machine

inductive FsRes where
  | ok
  | fsErr
  | invParam
  | driver (code : ℕ)
deriving DecidableEq, Repr

/-- `lv_fs_read` and `lv_fs_seek`; the bytes are what the driver put into the buffer. -/
structure FileSystem (File : Type) where
  read : File → ℕ → FsRes × List UInt8 × File
  seek : File → ℕ → FsRes × File

structure MppStream (File : Type) where
  file : File
  memory : Option (List UInt8)
  opened : Bool
  size : ℕ
  cursor : ℕ

section
variable {File : Type} (fs : FileSystem File)

/-- The copy out of borrowed memory strays when it passes the end of that memory. -/
def streamRead (stream : MppStream File) (bytes : ℕ) :
    Outcome (FsRes × List UInt8 × MppStream File) :=
  if ¬stream.opened then .value (.invParam, [], stream)
  else if bytes = 0 then .value (.ok, [], stream)
  else
    match stream.memory with
    | some memory =>
        if stream.cursor > stream.size then .value (.fsErr, [], stream)
        else
          let done := min bytes (stream.size - stream.cursor)
          if stream.cursor + done ≤ memory.length then
            .value (.ok, (memory.drop stream.cursor).take done,
              { stream with cursor := (stream.cursor + done) % 2 ^ 32 })
          else .stray
    | none =>
        let (res, got, file) := fs.read stream.file bytes
        if res ≠ .ok then .value (res, [], { stream with file })
        else .value (.ok, got, { stream with file, cursor := (stream.cursor + got.length) % 2 ^ 32 })

def streamSeek (stream : MppStream File) (offset : ℕ) : FsRes × MppStream File :=
  if ¬stream.opened then (.invParam, stream)
  else
    match stream.memory with
    | some _ =>
        if offset > stream.size then (.invParam, stream)
        else (.ok, { stream with cursor := offset })
    | none =>
        let (res, file) := fs.seek stream.file offset
        if res ≠ .ok then (res, { stream with file }) else (.ok, { stream with file, cursor := offset })

/-- `lv_aic_mpp_stream_open_memory`, which takes no empty memory. -/
def streamOpenMemory (zeroed : File) (data : List UInt8) : Option (MppStream File) :=
  if data.length = 0 then none else some ⟨zeroed, some data, true, data.length, 0⟩

def streamU16Be (buf : List UInt8) : ℕ := (buf.getD 0 0).toNat <<< 8 ||| (buf.getD 1 0).toNat

end

def put16 (value : ℕ) : List UInt8 := [UInt8.ofNat (value / 2 ^ 8), UInt8.ofNat value]

@[simp]
theorem put16_length {value : ℕ} : (put16 value).length = 2 := rfl

theorem streamU16Be_cons {a b : UInt8} {rest : List UInt8} :
    streamU16Be (a :: b :: rest) = a.toNat * 2 ^ 8 + b.toNat := by
  change a.toNat <<< 8 ||| b.toNat = _
  rw [Nat.shiftLeft_eq, Nat.mul_comm, Nat.two_pow_add_eq_or_of_lt b.toNat_lt]

theorem streamU16Be_put16 {value : ℕ} (rest : List UInt8) (small : value < 2 ^ 16) :
    streamU16Be (put16 value ++ rest) = value := by
  change streamU16Be (UInt8.ofNat (value / 2 ^ 8) :: UInt8.ofNat value :: rest) = value
  rw [streamU16Be_cons, UInt8.toNat_ofNat', UInt8.toNat_ofNat']
  omega

theorem put16_streamU16Be {a b : UInt8} {rest : List UInt8} :
    put16 (streamU16Be (a :: b :: rest)) = [a, b] := by
  have first := a.toNat_lt
  have second := b.toNat_lt
  rw [streamU16Be_cons]
  unfold put16
  rw [ofNat_digit _ a (by omega), ofNat_digit _ b (by omega)]

theorem streamU16Be_lt {a b : UInt8} {rest : List UInt8} : streamU16Be (a :: b :: rest) < 2 ^ 16 := by
  have first := a.toNat_lt
  have second := b.toNat_lt
  rw [streamU16Be_cons]
  omega

/-! ## Borrowed memory -/

/-- The stream borrows the bytes, and those that are left stand before it. -/
structure MppStream.Stands {File : Type} (stream : MppStream File) (content left : List UInt8) :
    Prop where
  opened : stream.opened
  memory : stream.memory = some content
  size : stream.size = content.length
  word : content.length < 2 ^ 32
  inside : stream.cursor ≤ content.length
  left : content.drop stream.cursor = left

section
variable {File : Type} {stream : MppStream File} {content left : List UInt8}

theorem MppStream.Stands.cursor_add (stands : stream.Stands content left) :
    stream.cursor + left.length = content.length := by
  have inside := stands.inside
  rw [← stands.left, List.length_drop]
  omega

/-- A read gives the next bytes, as many as there are. -/
theorem streamRead_stands (fs : FileSystem File) (bytes : ℕ) (stands : stream.Stands content left) :
    ∃ next : MppStream File, streamRead fs stream bytes = .value (.ok, left.take bytes, next) ∧
      next.Stands content (left.drop bytes) := by
  have inside := stands.inside
  have word := stands.word
  have whole := stands.cursor_add
  unfold streamRead
  rw [if_neg (fun closed => closed stands.opened)]
  by_cases none : bytes = 0
  · subst none
    rw [if_pos rfl]
    exact ⟨stream, rfl, stands⟩
  rw [if_neg none, stands.memory]
  dsimp only
  rw [stands.size, if_neg (by omega), if_pos (by omega), stands.left,
    Nat.mod_eq_of_lt (by omega)]
  have count : content.length - stream.cursor = left.length := by omega
  rw [count, ← List.take_eq_take_min]
  refine ⟨{ stream with cursor := stream.cursor + min bytes left.length }, ?_, ?_⟩
  · rw [stands.memory, stands.size]
  · refine ⟨stands.opened, stands.memory, stands.size, word, ?_, ?_⟩
    · change stream.cursor + min bytes left.length ≤ content.length
      omega
    · change content.drop (stream.cursor + min bytes left.length) = _
      rw [← List.drop_drop, stands.left, ← List.drop_eq_drop_min]

theorem streamSeek_memory (fs : FileSystem File) {offset : ℕ} (opened : stream.opened)
    (memory : stream.memory = some content) (size : stream.size = content.length)
    (word : content.length < 2 ^ 32) (inside : offset ≤ content.length) :
    ∃ next : MppStream File, streamSeek fs stream offset = (.ok, next) ∧
      next.Stands content (content.drop offset) := by
  unfold streamSeek
  rw [if_neg (fun closed => closed opened), memory]
  dsimp only
  rw [size, if_neg (Nat.not_lt_of_le inside)]
  refine ⟨{ stream with cursor := offset }, ?_, opened, memory, size, word, inside, rfl⟩
  rw [memory, size]

theorem streamSeek_past (fs : FileSystem File) {offset : ℕ} (stands : stream.Stands content left)
    (past : content.length < offset) : (streamSeek fs stream offset).1 = .invParam := by
  unfold streamSeek
  rw [if_neg (fun closed => closed stands.opened), stands.memory]
  dsimp only
  rw [stands.size, if_pos past]

end

/-! ## Files -/

/-- A driver that reads what stands in a file, perhaps less than it was asked for. -/
structure FileSystem.Serves {File : Type} (fs : FileSystem File) (content : List UInt8)
    (position : File → ℕ) : Prop where
  seek : ∀ {file offset later}, fs.seek file offset = (.ok, later) → position later = offset
  read : ∀ {file bytes res got later}, fs.read file bytes = (res, got, later) →
    got.length ≤ bytes ∧ (res = .ok → got = (content.drop (position file)).take got.length)

def MppStream.place {File : Type} (stream : MppStream File) (position : File → ℕ) : ℕ :=
  match stream.memory with
  | some _ => stream.cursor
  | none => position stream.file

/-- The stream reads the content, from memory or from a file. -/
structure MppStream.Gives {File : Type} (stream : MppStream File) (fs : FileSystem File)
    (content : List UInt8) (position : File → ℕ) : Prop where
  opened : stream.opened
  borrowed : ∀ memory, stream.memory = some memory → memory = content ∧ stream.size = content.length
  served : stream.memory = none → fs.Serves content position

section
variable {File : Type} {fs : FileSystem File} {stream : MppStream File} {content : List UInt8}
  {position : File → ℕ}

/-- A read keeps inside the content, and gives what stands there. -/
theorem streamRead_gives (bytes : ℕ) (gives : stream.Gives fs content position) :
    ∃ (res : FsRes) (got : List UInt8) (next : MppStream File),
      streamRead fs stream bytes = .value (res, got, next) ∧ next.Gives fs content position ∧
      next.size = stream.size ∧ got.length ≤ bytes ∧
      (res = .ok → got = (content.drop (stream.place position)).take got.length) := by
  unfold streamRead
  rw [if_neg (fun closed => closed gives.opened)]
  by_cases none : bytes = 0
  · rw [if_pos none]
    exact ⟨.ok, [], stream, rfl, gives, rfl, Nat.zero_le _, fun _ => rfl⟩
  rw [if_neg none]
  cases found : stream.memory with
  | some memory =>
      obtain ⟨rfl, sized⟩ := gives.borrowed memory found
      dsimp only
      split
      · exact ⟨.fsErr, [], stream, rfl, gives, rfl, Nat.zero_le _, fun same => nomatch same⟩
      · rename_i before
        rw [if_pos (by omega)]
        refine ⟨.ok, _, _, rfl, ⟨gives.opened, ?_, ?_⟩, rfl, ?_, ?_⟩
        · exact fun other same => gives.borrowed other (found.trans same)
        · exact fun same => nomatch same
        · rw [List.length_take]
          omega
        · intro _
          have here : stream.place position = stream.cursor := by
            unfold MppStream.place
            rw [found]
          rw [here, List.length_take, List.length_drop, ← sized]
          congr 1
          omega
  | none =>
      have served := gives.served found
      cases answer : fs.read stream.file bytes with
      | mk res rest =>
          obtain ⟨got, file⟩ := rest
          obtain ⟨short, right⟩ := served.read answer
          have here : stream.place position = position stream.file := by
            unfold MppStream.place
            rw [found]
          dsimp only
          split
          · rename_i failed
            exact ⟨res, [], _, rfl, ⟨gives.opened, (fun _ same => nomatch same), fun _ => served⟩, rfl,
              Nat.zero_le _, fun same => absurd same failed⟩
          · rename_i fine
            refine ⟨.ok, got, _, rfl, ⟨gives.opened, (fun _ same => nomatch same), fun _ => served⟩, rfl,
              short, fun _ => ?_⟩
            rw [here]
            exact right (not_not.mp fine)

theorem streamSeek_gives {offset : ℕ} {res : FsRes} {next : MppStream File}
    (gives : stream.Gives fs content position) (sought : streamSeek fs stream offset = (res, next)) :
    next.Gives fs content position ∧ next.size = stream.size ∧
      (res = .ok → next.place position = offset) := by
  unfold streamSeek at sought
  rw [if_neg (fun closed => closed gives.opened)] at sought
  cases found : stream.memory with
  | some memory =>
      rw [found] at sought
      dsimp only at sought
      split at sought
      · cases sought
        exact ⟨gives, rfl, fun same => nomatch same⟩
      · cases sought
        refine ⟨⟨gives.opened, ?_, ?_⟩, rfl, fun _ => rfl⟩
        · exact fun other same => gives.borrowed other (found.trans same)
        · exact fun same => nomatch same
  | none =>
      have served := gives.served found
      rw [found] at sought
      cases answer : fs.seek stream.file offset with
      | mk code file =>
          rw [answer] at sought
          dsimp only at sought
          split at sought
          · rename_i failed
            cases sought
            exact ⟨⟨gives.opened, (fun _ same => nomatch same), fun _ => served⟩, rfl,
              fun same => absurd same failed⟩
          · rename_i fine
            cases sought
            refine ⟨⟨gives.opened, (fun _ same => nomatch same), fun _ => served⟩, rfl, fun _ => ?_⟩
            exact served.seek (not_not.mp fine ▸ answer)

end

end LvglAic.Image
