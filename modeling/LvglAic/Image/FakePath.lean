import LvglAic.Machine.Text

/-! # Paths of plain images (`lv_aic_fake_image.c`, `lv_aic_plane_window.c`)

A path such as `L:/480x272_0_00000000.fake` names a plain image.  The parser walks the
string with one pointer; a window is shown through a path that the window writes itself.
-/

namespace LvglAic.Image

open LvglAic.Machine LvglAic.Machine.CString

structure FakeImage where
  width : UInt16
  height : UInt16
  blend : Bool
  argb : UInt32
deriving DecidableEq

/-- The digits of a dimension, of which only `left` more are allowed. -/
def digitRun (path : CString) : ℕ → ℕ → ℕ → Outcome (ℕ × ℕ)
  | 0, n, p => do
      let c ← path.load p
      if isDigit c then .refused else .value (n, p)
  | left + 1, n, p => do
      let c ← path.load p
      if isDigit c then digitRun path left (n * 10 + digitValue c) (p + 1) else .value (n, p)

def dimension (path : CString) (separator : UInt8) (cursor : ℕ) : Outcome (UInt16 × ℕ) := do
  let (n, p) ← digitRun path 4 0 cursor
  let c ← path.load p
  if p = cursor ∨ n = 0 ∨ n > 4096 ∨ c ≠ separator then .refused else .value (.ofNat n, p + 1)

def isLetter (c : UInt8) : Bool :=
  ('A'.toUInt8 ≤ c && c ≤ 'Z'.toUInt8) || ('a'.toUInt8 ≤ c && c ≤ 'z'.toUInt8)

def isFlag (c : UInt8) : Bool := c == '0'.toUInt8 || c == '1'.toUInt8

def isHex (c : UInt8) : Bool :=
  isDigit c || ('a'.toUInt8 ≤ c && c ≤ 'f'.toUInt8) || ('A'.toUInt8 ≤ c && c ≤ 'F'.toUInt8)

def hexDigit (c : UInt8) : ℕ :=
  if isDigit c then digitValue c
  else if 'a'.toUInt8 ≤ c && c ≤ 'f'.toUInt8 then c.toNat - 'a'.toNat + 10
  else c.toNat - 'A'.toNat + 10

def pushDigit (argb : UInt32) (c : UInt8) : UInt32 := argb <<< 4 ||| .ofNat (hexDigit c)

def hexRun (path : CString) : ℕ → UInt32 → ℕ → Outcome (UInt32 × ℕ)
  | 0, argb, p => .value (argb, p)
  | left + 1, argb, p => do
      let (c, p) ← path.next isHex p
      hexRun path left (pushDigit argb c) p

def fakeSuffix : List UInt8 := ascii ['.', 'f', 'a', 'k', 'e']

def fakeParsed (path : CString) : Outcome FakeImage := do
  let (_, p) ← path.next isLetter 0
  let (_, p) ← path.next (· == ':'.toUInt8) p
  let (_, p) ← path.next (· == '/'.toUInt8) p
  let (width, p) ← dimension path 'x'.toUInt8 p
  let (height, p) ← dimension path '_'.toUInt8 p
  if width.toNat * height.toNat > 8 * 1024 * 1024 then .refused
  else do
    let (flag, p) ← path.next isFlag p
    let (_, p) ← path.next (· == '_'.toUInt8) p
    let (argb, p) ← hexRun path 8 0 p
    let same ← path.strcmp p fakeSuffix
    if same then .value ⟨width, height, flag == '1'.toUInt8, argb⟩ else .refused

/-- The image and whether the path was one; otherwise the image is as it was. -/
def fakeImageParse (path : CString) (image : FakeImage) : Outcome (FakeImage × Bool) :=
  (fakeParsed path).handle (.value (image, false)) fun parsed => .value (parsed, true)

/-- The format `L:/%ux%u_0_00000000.fake`. -/
def windowText (width height : UInt32) : List UInt8 :=
  ascii ['L', ':', '/'] ++ decimal width.toNat ++ ascii ['x'] ++ decimal height.toNat ++
    ascii ['_', '0', '_', '0', '0', '0', '0', '0', '0', '0', '0', '.', 'f', 'a', 'k', 'e']

/-- The path of a window, where `lv_aic_plane_window_present` goes on with its size. -/
def planeWindow (width height : Int32) : Option (List UInt8) :=
  if width < 1 ∨ height < 1 ∨ width > 4096 ∨ height > 4096 ∨
      width.toInt * height.toInt > 8 * 1024 * 1024 then none
  else some (snprintf 64 (windowText width.toUInt32 height.toUInt32))

/-! ## The grammar -/

/-- The digits of a width or of a height. -/
structure Dimension (word : List UInt8) : Prop where
  digits : ∀ c ∈ word, isDigit c = true
  some : 1 ≤ word.length
  few : word.length ≤ 4
  positive : 1 ≤ decimalValue word
  small : decimalValue word ≤ 4096

def hexValue (word : List UInt8) : ℕ := word.foldl (fun n c => n * 16 + hexDigit c) 0

structure FakePath where
  drive : UInt8
  wide : List UInt8
  high : List UInt8
  flag : UInt8
  color : List UInt8
  letter : isLetter drive = true
  width : Dimension wide
  height : Dimension high
  area : decimalValue wide * decimalValue high ≤ 8 * 1024 * 1024
  blends : isFlag flag = true
  eight : color.length = 8
  hex : ∀ c ∈ color, isHex c = true

namespace FakePath

def text (path : FakePath) : List UInt8 :=
  path.drive :: ':'.toUInt8 :: '/'.toUInt8 :: (path.wide ++ 'x'.toUInt8 :: (path.high ++
    '_'.toUInt8 :: path.flag :: '_'.toUInt8 :: (path.color ++ fakeSuffix)))

def image (path : FakePath) : FakeImage :=
  ⟨.ofNat (decimalValue path.wide), .ofNat (decimalValue path.high), path.flag == '1'.toUInt8,
    .ofNat (hexValue path.color)⟩

end FakePath

/-! ## Dimensions -/

variable {path : CString} {rest word : List UInt8} {left n m p q : ℕ} {separator : UInt8}

theorem digitRun_value (here : path.Rests p rest) (run : digitRun path left n p = .value (m, q)) :
    ∃ word tail, rest = word ++ tail ∧ (∀ c ∈ word, isDigit c = true) ∧ word.length ≤ left ∧
      m = word.foldl (fun n c => n * 10 + digitValue c) n ∧ q = p + word.length := by
  induction left generalizing n p rest with
  | zero =>
      simp only [digitRun, here.load, Outcome.value_bind] at run
      split at run
      · cases run
      · cases run
        exact ⟨[], rest, rfl, nofun, Nat.zero_le _, rfl, rfl⟩
  | succ left ih =>
      simp only [digitRun, here.load, Outcome.value_bind] at run
      split at run
      · rename_i digit
        cases rest with
        | nil => cases digit
        | cons c others =>
            obtain ⟨word, tail, split, digits, short, sum, place⟩ := ih here.load_cons.2.2 run
            refine ⟨c :: word, tail, congrArg (c :: ·) split, ?_, Nat.succ_le_succ short, sum, ?_⟩
            · exact List.forall_mem_cons.mpr ⟨digit, digits⟩
            · rw [place, List.length_cons]
              omega
      · cases run
        exact ⟨[], rest, rfl, nofun, Nat.zero_le _, rfl, rfl⟩

theorem digitRun_ne_stray (here : path.Rests p rest) : digitRun path left n p ≠ .stray := by
  induction left generalizing n p rest with
  | zero =>
      simp only [digitRun, here.load, Outcome.value_bind]
      split <;> intro same <;> cases same
  | succ left ih =>
      simp only [digitRun, here.load, Outcome.value_bind]
      split
      · rename_i digit
        cases rest with
        | nil => cases digit
        | cons c tail => exact ih here.load_cons.2.2
      · intro same
        cases same

theorem digitRun_complete (here : path.Rests p (word ++ rest)) (short : word.length ≤ left)
    (digits : ∀ c ∈ word, isDigit c = true) (stop : isDigit (rest.headD 0) = false) :
    digitRun path left n p =
      .value (word.foldl (fun n c => n * 10 + digitValue c) n, p + word.length) := by
  induction word generalizing left n p with
  | nil =>
      cases left with
      | zero | succ =>
          simp only [digitRun, here.load, List.nil_append, Outcome.value_bind, stop,
            Bool.false_eq_true, if_false]
          rfl
  | cons c word ih =>
      obtain ⟨first, others⟩ := List.forall_mem_cons.mp digits
      obtain ⟨loaded, _, next⟩ := here.load_cons
      cases left with
      | zero => cases short
      | succ left =>
          simp only [digitRun, loaded, Outcome.value_bind, first, if_true]
          rw [ih next (Nat.le_of_succ_le_succ short) others, List.length_cons]
          simp only [List.foldl_cons, Nat.add_assoc, Nat.add_comm 1]

theorem dimension_value {size : UInt16} (here : path.Rests p rest) (nonzero : separator ≠ 0)
    (read : dimension path separator p = .value (size, q)) :
    ∃ word tail, rest = word ++ separator :: tail ∧ Dimension word ∧
      size = .ofNat (decimalValue word) ∧ path.Rests q tail := by
  obtain ⟨⟨n, next⟩, run, read⟩ := Outcome.bind_eq_value.mp read
  obtain ⟨word, tail, split, digits, few, sum, place⟩ := digitRun_value here run
  have there : path.Rests next tail := by
    rw [place]
    exact Rests.advance (split ▸ here)
  dsimp only at read
  simp only [there.load, Outcome.value_bind] at read
  obtain ⟨good, same⟩ := Outcome.ite_refused.mp read
  simp only [not_or, not_lt, ne_eq, not_not] at good
  obtain ⟨moved, positive, small, ends⟩ := good
  have total : n = decimalValue word := sum
  rw [total] at same positive small
  cases same
  cases tail with
  | nil => exact absurd ends.symm nonzero
  | cons c others =>
      have last : c = separator := ends
      rw [last] at there split
      have long : 1 ≤ word.length := by
        by_contra none
        exact moved (by omega)
      exact ⟨word, others, split,
        ⟨digits, long, few, Nat.one_le_iff_ne_zero.mpr positive, small⟩, rfl,
        there.load_cons.2.2⟩

theorem dimension_ne_stray (here : path.Rests p rest) : dimension path separator p ≠ .stray := by
  refine Outcome.bind_ne_stray (digitRun_ne_stray here) fun answer run => ?_
  obtain ⟨n, next⟩ := answer
  obtain ⟨word, tail, split, _, _, _, place⟩ := digitRun_value here run
  have there : path.Rests next tail := by
    rw [place]
    exact Rests.advance (split ▸ here)
  dsimp only
  simp only [there.load, Outcome.value_bind]
  exact Outcome.ite_ne_stray fun _ same => nomatch same

theorem dimension_complete (here : path.Rests p (word ++ separator :: rest))
    (stop : isDigit separator = false) (size : Dimension word) :
    dimension path separator p = .value (.ofNat (decimalValue word), p + word.length + 1) ∧
      path.Rests (p + word.length + 1) rest := by
  have run : digitRun path 4 0 p = .value (decimalValue word, p + word.length) :=
    digitRun_complete here size.few size.digits stop
  have there := here.advance
  have long := size.some
  have positive := size.positive
  have small := size.small
  refine ⟨?_, there.load_cons.2.2⟩
  simp only [dimension, run, Outcome.value_bind, there.load_cons.1, ne_eq, not_true, or_false]
  exact if_neg (by omega)

/-! ## Colors -/

theorem hexDigit_lt {c : UInt8} (hex : isHex c = true) : hexDigit c < 16 := by
  simp only [isHex, isDigit, Bool.or_eq_true, Bool.and_eq_true, decide_eq_true_eq,
    UInt8.le_iff_toNat_le] at hex
  simp only [hexDigit, isDigit, digitValue, Bool.and_eq_true, decide_eq_true_eq,
    UInt8.le_iff_toNat_le]
  change (48 ≤ c.toNat ∧ c.toNat ≤ 57 ∨ 97 ≤ c.toNat ∧ c.toNat ≤ 102) ∨
    65 ≤ c.toNat ∧ c.toNat ≤ 70 at hex
  change (if 48 ≤ c.toNat ∧ c.toNat ≤ 57 then c.toNat - 48
    else if 97 ≤ c.toNat ∧ c.toNat ≤ 102 then c.toNat - 97 + 10 else c.toNat - 65 + 10) < 16
  split
  · omega
  · split <;> omega

/-- A digit is shifted into the low end of a color. -/
theorem pushDigit_eq (argb : UInt32) {c : UInt8} (hex : isHex c = true) :
    pushDigit argb c = argb * 16 + .ofNat (hexDigit c) := by
  have small := hexDigit_lt hex
  have digit : (UInt32.ofNat (hexDigit c)).toNat = hexDigit c :=
    Nat.mod_eq_of_lt (by omega)
  have high : argb.toNat * 16 % 2 ^ 32 = 2 ^ 4 * (argb.toNat % 2 ^ 28) := by omega
  rw [← UInt32.toNat_inj, pushDigit, UInt32.toNat_or, UInt32.toNat_shiftLeft, UInt32.toNat_add,
    UInt32.toNat_mul, digit]
  change argb.toNat <<< 4 % 2 ^ 32 ||| hexDigit c = (argb.toNat * 16 % 2 ^ 32 + hexDigit c) % 2 ^ 32
  rw [Nat.shiftLeft_eq, show argb.toNat * 2 ^ 4 = argb.toNat * 16 from rfl, high,
    ← Nat.two_pow_add_eq_or_of_lt (by omega)]
  omega

theorem hexRun_value {color argb : UInt32} (here : path.Rests p rest)
    (run : hexRun path left argb p = .value (color, q)) :
    ∃ word tail, rest = word ++ tail ∧ (∀ c ∈ word, isHex c = true) ∧ word.length = left ∧
      color = word.foldl pushDigit argb ∧
      path.Rests q tail := by
  induction left generalizing argb p rest with
  | zero =>
      cases run
      exact ⟨[], rest, rfl, nofun, rfl, rfl, here⟩
  | succ left ih =>
      obtain ⟨⟨c, next⟩, first, run⟩ := Outcome.bind_eq_value.mp run
      obtain ⟨others, split, hex, there⟩ := here.next_value rfl first
      obtain ⟨word, tail, more, digits, count, sum, last⟩ := ih there run
      refine ⟨c :: word, tail, ?_, List.forall_mem_cons.mpr ⟨hex, digits⟩, ?_, sum, last⟩
      · rw [split, more, List.cons_append]
      · rw [List.length_cons, count]

theorem hexRun_ne_stray {argb : UInt32} (here : path.Rests p rest) :
    hexRun path left argb p ≠ .stray := by
  induction left generalizing argb p rest with
  | zero => exact fun same => nomatch same
  | succ left ih =>
      refine Outcome.bind_ne_stray here.next_ne_stray fun answer first => ?_
      obtain ⟨c, next⟩ := answer
      obtain ⟨_, _, _, there⟩ := here.next_value rfl first
      exact ih there

theorem hexRun_complete {argb : UInt32} (here : path.Rests p (word ++ rest))
    (count : word.length = left) (hex : ∀ c ∈ word, isHex c = true) :
    hexRun path left argb p = .value (word.foldl pushDigit argb, p + word.length) := by
  induction word generalizing left argb p with
  | nil =>
      cases count
      rfl
  | cons c word ih =>
      obtain ⟨first, others⟩ := List.forall_mem_cons.mp hex
      cases count
      have next : path.next isHex p = .value (c, p + 1) := Rests.next_cons here first
      simp only [hexRun, List.length_cons, next, Outcome.value_bind]
      rw [ih here.load_cons.2.2 rfl others]
      simp only [List.foldl_cons, Nat.add_assoc, Nat.add_comm 1]

theorem hexValue_argb (hex : ∀ c ∈ word, isHex c = true) :
    word.foldl pushDigit 0 = UInt32.ofNat (hexValue word) := by
  have fold : ∀ n : ℕ, word.foldl pushDigit (UInt32.ofNat n) =
      UInt32.ofNat (word.foldl (fun n c => n * 16 + hexDigit c) n) := by
    induction word with
    | nil => exact fun n => rfl
    | cons c word ih =>
        obtain ⟨first, others⟩ := List.forall_mem_cons.mp hex
        intro n
        rw [List.foldl_cons, List.foldl_cons, pushDigit_eq _ first, ← ih others]
        congr 1
        rw [UInt32.ofNat_add, UInt32.ofNat_mul]
        rfl
  exact fold 0

/-! ## Whole paths -/

variable {image : FakeImage}

theorem fakeParsed_sound (parsed : fakeParsed path = .value image) :
    ∃ fake : FakePath, fake.text = path.bytes ∧ fake.image = image := by
  obtain ⟨⟨drive, p⟩, first, parsed⟩ := Outcome.bind_eq_value.mp parsed
  obtain ⟨rest, start, letter, here⟩ := path.rests_start.next_value rfl first
  obtain ⟨⟨colon, p⟩, second, parsed⟩ := Outcome.bind_eq_value.mp parsed
  obtain ⟨rest, afterDrive, isColon, here⟩ := here.next_value rfl second
  obtain ⟨⟨slash, p⟩, third, parsed⟩ := Outcome.bind_eq_value.mp parsed
  obtain ⟨rest, afterColon, isSlash, here⟩ := here.next_value rfl third
  obtain ⟨⟨width, p⟩, across, parsed⟩ := Outcome.bind_eq_value.mp parsed
  obtain ⟨wide, rest, afterSlash, wideFits, sameWidth, here⟩ :=
    dimension_value here (by decide) across
  obtain ⟨⟨height, p⟩, down, parsed⟩ := Outcome.bind_eq_value.mp parsed
  obtain ⟨high, rest, afterWide, highFits, sameHeight, here⟩ :=
    dimension_value here (by decide) down
  obtain ⟨area, parsed⟩ := Outcome.ite_refused.mp parsed
  obtain ⟨⟨flag, p⟩, blend, parsed⟩ := Outcome.bind_eq_value.mp parsed
  obtain ⟨rest, afterHigh, isFlag, here⟩ := here.next_value rfl blend
  obtain ⟨⟨bar, p⟩, fourth, parsed⟩ := Outcome.bind_eq_value.mp parsed
  obtain ⟨rest, afterFlag, isBar, here⟩ := here.next_value rfl fourth
  obtain ⟨⟨argb, p⟩, colored, parsed⟩ := Outcome.bind_eq_value.mp parsed
  obtain ⟨color, rest, afterBar, hex, eight, sameColor, here⟩ := hexRun_value here colored
  have ends : path.strcmp p fakeSuffix = .value (decide (rest = fakeSuffix)) :=
    here.strcmp (by decide)
  simp only [ends, Outcome.value_bind, decide_eq_true_eq] at parsed
  have suffix : rest = fakeSuffix := by
    by_contra other
    rw [if_neg other] at parsed
    cases parsed
  rw [if_pos suffix] at parsed
  cases parsed
  have wideSmall : (UInt16.ofNat (decimalValue wide)).toNat = decimalValue wide :=
    Nat.mod_eq_of_lt (by have small := wideFits.small; omega)
  have highSmall : (UInt16.ofNat (decimalValue high)).toNat = decimalValue high :=
    Nat.mod_eq_of_lt (by have small := highFits.small; omega)
  have within : decimalValue wide * decimalValue high ≤ 8 * 1024 * 1024 := by
    rw [sameWidth, sameHeight, wideSmall, highSmall, not_lt] at area
    exact area
  refine ⟨⟨drive, wide, high, flag, color, letter, wideFits, highFits, within, isFlag, eight,
    hex⟩, ?_, ?_⟩
  · simp only [FakePath.text]
    rw [start, afterDrive, afterColon, afterSlash, afterWide, afterHigh, afterFlag, afterBar, suffix,
      eq_of_beq isColon, eq_of_beq isSlash, eq_of_beq isBar]
  · simp only [FakePath.image]
    rw [sameWidth, sameHeight, sameColor, hexValue_argb hex]

theorem fakeParsed_ne_stray : fakeParsed path ≠ .stray := by
  have here := path.rests_start
  refine Outcome.bind_ne_stray here.next_ne_stray fun answer first => ?_
  obtain ⟨_, p⟩ := answer
  obtain ⟨_, _, _, here⟩ := here.next_value rfl first
  refine Outcome.bind_ne_stray here.next_ne_stray fun answer second => ?_
  obtain ⟨_, p⟩ := answer
  obtain ⟨_, _, _, here⟩ := here.next_value rfl second
  refine Outcome.bind_ne_stray here.next_ne_stray fun answer third => ?_
  obtain ⟨_, p⟩ := answer
  obtain ⟨_, _, _, here⟩ := here.next_value rfl third
  refine Outcome.bind_ne_stray (dimension_ne_stray here) fun answer across => ?_
  obtain ⟨_, p⟩ := answer
  obtain ⟨_, _, _, _, _, here⟩ := dimension_value here (by decide) across
  refine Outcome.bind_ne_stray (dimension_ne_stray here) fun answer down => ?_
  obtain ⟨_, p⟩ := answer
  obtain ⟨_, _, _, _, _, here⟩ := dimension_value here (by decide) down
  refine Outcome.ite_ne_stray fun _ => ?_
  refine Outcome.bind_ne_stray here.next_ne_stray fun answer blend => ?_
  obtain ⟨_, p⟩ := answer
  obtain ⟨_, _, _, here⟩ := here.next_value rfl blend
  refine Outcome.bind_ne_stray here.next_ne_stray fun answer fourth => ?_
  obtain ⟨_, p⟩ := answer
  obtain ⟨_, _, _, here⟩ := here.next_value rfl fourth
  refine Outcome.bind_ne_stray (hexRun_ne_stray here) fun answer colored => ?_
  obtain ⟨_, p⟩ := answer
  obtain ⟨_, _, _, _, _, _, here⟩ := hexRun_value here colored
  have ends : path.strcmp p fakeSuffix = .value _ := here.strcmp (by decide)
  simp only [ends, Outcome.value_bind]
  split <;> intro same <;> cases same

theorem fakeParsed_complete (fake : FakePath) (same : fake.text = path.bytes) :
    fakeParsed path = .value fake.image := by
  have here : path.Rests 0 fake.text := same ▸ path.rests_start
  unfold FakePath.text at here
  have first : path.next isLetter 0 = _ := here.next_cons fake.letter
  have here := here.load_cons.2.2
  have second : path.next (· == ':'.toUInt8) _ = _ := here.next_cons (by decide)
  have here := here.load_cons.2.2
  have third : path.next (· == '/'.toUInt8) _ = _ := here.next_cons (by decide)
  have here := here.load_cons.2.2
  obtain ⟨across, here⟩ := dimension_complete here (by decide) fake.width
  obtain ⟨down, here⟩ := dimension_complete here (by decide) fake.height
  have blend : path.next isFlag _ = _ := here.next_cons fake.blends
  have here := here.load_cons.2.2
  have fourth : path.next (· == '_'.toUInt8) _ = _ := here.next_cons (by decide)
  have here := here.load_cons.2.2
  have colored : hexRun path 8 0 _ = _ := hexRun_complete here fake.eight fake.hex
  have ends : path.strcmp _ fakeSuffix = .value _ := here.advance.strcmp (by decide)
  have wide : (UInt16.ofNat (decimalValue fake.wide)).toNat = decimalValue fake.wide :=
    Nat.mod_eq_of_lt (by have small := fake.width.small; omega)
  have high : (UInt16.ofNat (decimalValue fake.high)).toNat = decimalValue fake.high :=
    Nat.mod_eq_of_lt (by have small := fake.height.small; omega)
  simp only [fakeParsed, first, second, third, across, down, wide, high, blend, fourth, colored,
    ends, Outcome.value_bind, decide_true, if_true, if_neg (not_lt.mpr fake.area),
    hexValue_argb fake.hex]
  rfl

/-! ## Windows -/

theorem Dimension.decimal {n : ℕ} (positive : 1 ≤ n) (small : n ≤ 4096) :
    Dimension (decimal n) := by
  obtain ⟨some, few⟩ := decimal_length (k := 4) positive (by omega)
  exact ⟨decimal_digits n, some, few, by rwa [decimalValue_decimal],
    by rwa [decimalValue_decimal]⟩

/-- The path of a window of some size. -/
def FakePath.window (width height : ℕ) (wide : 1 ≤ width ∧ width ≤ 4096)
    (high : 1 ≤ height ∧ height ≤ 4096) (area : width * height ≤ 8 * 1024 * 1024) : FakePath where
  drive := 'L'.toUInt8
  wide := decimal width
  high := decimal height
  flag := '0'.toUInt8
  color := List.replicate 8 '0'.toUInt8
  letter := by decide
  width := .decimal wide.1 wide.2
  height := .decimal high.1 high.2
  area := by rwa [decimalValue_decimal, decimalValue_decimal]
  blends := by decide
  eight := rfl
  hex := fun _ member => List.eq_of_mem_replicate member ▸ rfl

theorem toUInt32_small {value : Int32} (low : 1 ≤ value) (high : value ≤ 4096) :
    (value.toUInt32.toNat : ℤ) = value.toInt ∧ 1 ≤ value.toInt ∧ value.toInt ≤ 4096 := by
  have atLeast : (1 : ℤ) ≤ value.toInt := Int32.le_iff_toInt_le.mp low
  have atMost : value.toInt ≤ 4096 := Int32.le_iff_toInt_le.mp high
  have nonnegative : (0 : Int32) ≤ value := Int32.le_iff_toInt_le.mpr (by change (0 : ℤ) ≤ _; omega)
  refine ⟨?_, atLeast, atMost⟩
  rw [Int32.toNat_toUInt32_of_le nonnegative]
  exact Int.toNat_of_nonneg (by omega)

theorem planeWindow_parses {width height : Int32} {buffer : List UInt8}
    (shown : planeWindow width height = some buffer) :
    buffer = windowText width.toUInt32 height.toUInt32 ∧ buffer.length < 64 ∧
      ∃ fake : FakePath, fake.text = buffer ∧
        (fake.image.width.toNat : ℤ) = width.toInt ∧ (fake.image.height.toNat : ℤ) = height.toInt ∧
        fake.image.blend = false ∧ fake.image.argb = 0 := by
  unfold planeWindow at shown
  split at shown
  · cases shown
  · rename_i admitted
    simp only [not_or, Int32.not_lt, not_lt] at admitted
    obtain ⟨wideLow, highLow, wideSmall, highSmall, area⟩ := admitted
    obtain ⟨wide, wideSome, wideFew⟩ := toUInt32_small wideLow wideSmall
    obtain ⟨high, highSome, highFew⟩ := toUInt32_small highLow highSmall
    cases shown
    generalize width.toUInt32 = w at wide ⊢
    generalize height.toUInt32 = h at high ⊢
    have product : w.toNat * h.toNat ≤ 8 * 1024 * 1024 := by
      rw [← wide, ← high] at area
      exact_mod_cast area
    have wideFits : 1 ≤ w.toNat ∧ w.toNat ≤ 4096 := by omega
    have highFits : 1 ≤ h.toNat ∧ h.toNat ≤ 4096 := by omega
    have across := decimal_length (k := 4) wideFits.1 (by omega)
    have down := decimal_length (k := 4) highFits.1 (by omega)
    have long : (windowText w h).length < 64 := by
      simp only [windowText, ascii, List.length_append, List.length_map, List.length_cons,
        List.length_nil]
      omega
    have whole : snprintf 64 (windowText w h) = windowText w h :=
      List.take_of_length_le (by omega)
    rw [whole]
    refine ⟨rfl, long, .window w.toNat h.toNat wideFits highFits product, ?_, ?_, ?_, rfl, rfl⟩
    · simp only [FakePath.window, FakePath.text, windowText, ascii, List.map_cons, List.map_nil,
        List.append_assoc, List.cons_append, List.nil_append, fakeSuffix, List.replicate]
    · change ((UInt16.ofNat (decimalValue (decimal w.toNat))).toNat : ℤ) = _
      rw [decimalValue_decimal, UInt16.toNat_ofNat', Nat.mod_eq_of_lt (by omega), wide]
    · change ((UInt16.ofNat (decimalValue (decimal h.toNat))).toNat : ℤ) = _
      rw [decimalValue_decimal, UInt16.toNat_ofNat', Nat.mod_eq_of_lt (by omega), high]

/-- A path of a plain image has no byte zero before its end. -/
theorem FakePath.text_ended (fake : FakePath) : 0 ∉ fake.text := by
  have drive : 0 ≠ fake.drive := fun zero => by cases zero ▸ fake.letter
  have flag : 0 ≠ fake.flag := fun zero => by cases zero ▸ fake.blends
  have wide : 0 ∉ fake.wide := fun member => by cases fake.width.digits 0 member
  have high : 0 ∉ fake.high := fun member => by cases fake.height.digits 0 member
  have color : 0 ∉ fake.color := fun member => by cases fake.hex 0 member
  have suffix : 0 ∉ fakeSuffix := by decide
  simp only [FakePath.text, List.mem_cons, List.mem_append, not_or]
  exact ⟨drive, by decide, by decide, wide, by decide, high, by decide, flag, by decide, color,
    suffix⟩

/-- The parser accepts the grammar, reads no byte after the end, and leaves the image as it
was when it fails; a window is shown through a path of its size. -/
theorem fake_path_grammar :
    (∀ (path : CString) (image : FakeImage),
      (∃ fake : FakePath, fake.text = path.bytes ∧
        fakeImageParse path image = .value (fake.image, true)) ∨
      (∀ fake : FakePath, fake.text ≠ path.bytes) ∧
        fakeImageParse path image = .value (image, false)) ∧
    ∀ width height buffer, planeWindow width height = some buffer →
      buffer = windowText width.toUInt32 height.toUInt32 ∧ buffer.length < 64 ∧
      ∃ path : CString, path.bytes = buffer ∧ ∃ shown : FakeImage,
        (∀ image, fakeImageParse path image = .value (shown, true)) ∧
        (shown.width.toNat : ℤ) = width.toInt ∧ (shown.height.toNat : ℤ) = height.toInt ∧
        shown.blend = false ∧ shown.argb = 0 := by
  refine ⟨fun path image => ?_, fun width height buffer shown => ?_⟩
  · unfold fakeImageParse
    cases parsed : fakeParsed path with
    | stray => exact absurd parsed fakeParsed_ne_stray
    | refused =>
        refine .inr ⟨fun fake same => ?_, rfl⟩
        rw [fakeParsed_complete fake same] at parsed
        cases parsed
    | value answer =>
        obtain ⟨fake, same, told⟩ := fakeParsed_sound parsed
        exact .inl ⟨fake, same, told ▸ rfl⟩
  · obtain ⟨whole, long, fake, same, sizes⟩ := planeWindow_parses shown
    have ended : 0 ∉ buffer := same ▸ fake.text_ended
    refine ⟨whole, long, ⟨buffer, ended⟩, rfl, fake.image, fun image => ?_, sizes⟩
    rw [fakeImageParse, fakeParsed_complete fake same]
    rfl

theorem fake_path_grammar_window : ∃ buffer, planeWindow 480 272 = some buffer ∧
    ∃ path : CString, path.bytes = buffer ∧ ∃ shown : FakeImage,
      (∀ image, fakeImageParse path image = .value (shown, true)) ∧
      (shown.width.toNat : ℤ) = 480 := by
  obtain ⟨buffer, shown⟩ : ∃ buffer, planeWindow 480 272 = some buffer :=
    ⟨_, if_neg (by decide)⟩
  obtain ⟨_, _, path, same, image, parses, width, _⟩ := fake_path_grammar.2 480 272 buffer shown
  exact ⟨buffer, shown, path, same, image, parses, width⟩

end LvglAic.Image
