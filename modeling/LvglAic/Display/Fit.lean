import LvglAic.Machine.FixedPoint

/-! # Virtual resolution (`lv_aic_display_fit.c`)

A virtual screen is scaled into the panel with its aspect kept; a touched panel pixel is
mapped back to the virtual screen.
-/

namespace LvglAic.Display

open LvglAic.Machine

structure DisplayFit where
  x : ℤ
  y : ℤ
  w : ℤ
  h : ℤ
deriving DecidableEq, Repr

/-- `(a * b + c / 2) / c` in 64 bits, narrowed to 32. -/
def fitExtent (a b c : ℤ) : Option ℤ := do
  let product ← checked 63 (a * b)
  let rounded ← checked 63 (product + c.tdiv 2)
  checked 31 (rounded.tdiv c)

/-- Without a value where the C arithmetic overflows; `none` within where it returns false. -/
def displayFit (vw vh pw ph : ℤ) : Option (Option DisplayFit) :=
  if vw ≤ 0 ∨ vh ≤ 0 ∨ pw ≤ 0 ∨ ph ≤ 0 then some none
  else do
    let across ← checked 63 (pw * vh)
    let down ← checked 63 (ph * vw)
    let w ← (if across ≤ down then some pw else fitExtent vw ph vh : Option ℤ)
    let h ← (if across ≤ down then fitExtent vh pw vw else some ph : Option ℤ)
    let w := if w < 1 then 1 else w
    let h := if h < 1 then 1 else h
    let w := if w > pw then pw else w
    let h := if h > ph then ph else h
    let right ← checked 31 (pw - w)
    let below ← checked 31 (ph - h)
    some (some ⟨right.tdiv 2, below.tdiv 2, w, h⟩)

def mapAxis (p origin scaled virt : ℤ) : Option ℤ :=
  if p ≤ origin then some 0
  else do
    let edge ← checked 31 (origin + scaled)
    if p ≥ edge then checked 31 (virt - 1)
    else do
      let distance ← checked 31 (p - origin)
      let doubled ← checked 31 (2 * distance)
      let center ← checked 31 (doubled + 1)
      let product ← checked 63 (center * virt)
      let whole ← checked 63 (2 * scaled)
      if product.tdiv whole ≥ virt then checked 31 (virt - 1)
      else checked 31 (product.tdiv whole)

def displayFitMap (fit : DisplayFit) (vw vh x y : ℤ) : Option (ℤ × ℤ) :=
  if fit.w ≤ 0 ∨ fit.h ≤ 0 then some (x, y)
  else do
    let mx ← mapAxis x fit.x fit.w vw
    let my ← mapAxis y fit.y fit.h vh
    some (mx, my)

/-- The virtual row or column that `lv_aic_vres_scale_cpu` copies to pixel `k` of the fit. -/
def vresScaleCpu (k virt fit : ℤ) : ℤ := (k * virt).tdiv fit

/-! ## The fit -/

/-- The sizes of a screen that the component takes. -/
def Extent (size : ℤ) : Prop := 1 ≤ size ∧ size ≤ 2 ^ 29

/-- `r` is the quotient of `n` by `d` rounded to nearest. -/
def Nearest (n d r : ℤ) : Prop := 2 * |r * d - n| ≤ d

/-- The rectangle fills the panel along one axis, and its other extent keeps the aspect. -/
structure Fitted (vw vh pw ph : ℤ) (fit : DisplayFit) : Prop where
  wide : 1 ≤ fit.w ∧ 0 ≤ fit.x ∧ fit.x + fit.w ≤ pw
  high : 1 ≤ fit.h ∧ 0 ≤ fit.y ∧ fit.y + fit.h ≤ ph
  fills : (fit.w = pw ∧ ∃ r, Nearest (vh * pw) vw r ∧ fit.h = max 1 r) ∨
    (fit.h = ph ∧ ∃ r, Nearest (vw * ph) vh r ∧ fit.w = max 1 r)
  centred : (pw - fit.w - fit.x = fit.x ∨ pw - fit.w - fit.x = fit.x + 1) ∧
    (ph - fit.h - fit.y = fit.y ∨ ph - fit.h - fit.y = fit.y + 1)

section
variable {a b c vw vh pw ph p q origin scaled virt v w : ℤ}

theorem Extent.mul_small (first : Extent a) (second : Extent b) :
    0 ≤ a * b ∧ a * b ≤ 2 ^ 58 := by
  obtain ⟨low, high⟩ := first
  obtain ⟨least, most⟩ := second
  constructor
  · positivity
  · calc a * b ≤ 2 ^ 29 * 2 ^ 29 := mul_le_mul high most (by omega) (by norm_num)
      _ = 2 ^ 58 := by norm_num

theorem nearest_div (positive : 0 < c) (n : ℤ) : Nearest n c ((n + c / 2) / c) := by
  have whole := Int.emod_add_mul_ediv (n + c / 2) c
  have least := Int.emod_nonneg (n + c / 2) positive.ne'
  have most := Int.emod_lt_of_pos (n + c / 2) positive
  rw [mul_comm] at whole
  have distance : (n + c / 2) / c * c - n = c / 2 - (n + c / 2) % c := by omega
  unfold Nearest
  rw [distance]
  have bounds : |c / 2 - (n + c / 2) % c| ≤ c / 2 := by
    rw [abs_le]
    constructor <;> omega
  omega

theorem Extent.positive (size : Extent a) : 0 < a := size.1

theorem Extent.signed (size : Extent a) : Signed 31 a := by
  obtain ⟨low, high⟩ := size
  exact ⟨by omega, by omega⟩

/-- An extent whose exact value is at most `q` is computed, and is at most `q` too. -/
theorem fitExtent_eq (first : Extent a) (second : Extent b) (divisor : Extent c) (most : Extent q)
    (below : a * b ≤ q * c) :
    fitExtent a b c = some ((a * b + c / 2) / c) ∧ 0 ≤ (a * b + c / 2) / c ∧
      (a * b + c / 2) / c ≤ q := by
  have positive := divisor.positive
  obtain ⟨nonneg, small⟩ := first.mul_small second
  have half : c.tdiv 2 = c / 2 := Int.tdiv_eq_ediv_of_nonneg positive.le
  have rounded : (a * b + c / 2).tdiv c = (a * b + c / 2) / c :=
    Int.tdiv_eq_ediv_of_nonneg (by omega)
  have least : 0 ≤ (a * b + c / 2) / c := Int.ediv_nonneg (by omega) positive.le
  have most' : (a * b + c / 2) / c ≤ q := by
    apply Int.lt_add_one_iff.mp
    apply Int.ediv_lt_of_lt_mul positive
    calc a * b + c / 2 ≤ q * c + c / 2 := by omega
      _ < q * c + c := by omega
      _ = (q + 1) * c := by ring
  have size := divisor.2
  have limit := most.2
  refine ⟨?_, least, most'⟩
  unfold fitExtent
  rw [half, checked_of_signed ⟨by omega, by omega⟩]
  change (checked 63 (a * b + c / 2)).bind _ = _
  rw [checked_of_signed ⟨by omega, by omega⟩]
  change checked 31 ((a * b + c / 2).tdiv c) = _
  rw [rounded, checked_of_signed ⟨by omega, by omega⟩]

/-- Half of what an extent leaves of the panel stands before it. -/
theorem margin_eq (low : 1 ≤ w) (high : w ≤ pw) (size : Extent pw) :
    checked 31 (pw - w) = some (pw - w) ∧ (pw - w).tdiv 2 = (pw - w) / 2 := by
  have most := size.2
  exact ⟨checked_of_signed ⟨by omega, by omega⟩, Int.tdiv_eq_ediv_of_nonneg (by omega)⟩

/-- Once the extents are known, only the least extent and the margins are left. -/
theorem displayFit_placed (virtualWidth : Extent vw) (virtualHeight : Extent vh)
    (panelWidth : Extent pw) (panelHeight : Extent ph)
    (wide : (if pw * vh ≤ ph * vw then some pw else fitExtent vw ph vh) = some w)
    (high : (if pw * vh ≤ ph * vw then fitExtent vh pw vw else some ph) = some v)
    (wideMost : w ≤ pw) (highMost : v ≤ ph) :
    displayFit vw vh pw ph =
      some (some ⟨(pw - max 1 w) / 2, (ph - max 1 v) / 2, max 1 w, max 1 v⟩) := by
  have sizes : ¬(vw ≤ 0 ∨ vh ≤ 0 ∨ pw ≤ 0 ∨ ph ≤ 0) := by
    have first := virtualWidth.positive
    have second := virtualHeight.positive
    have third := panelWidth.positive
    have fourth := panelHeight.positive
    omega
  have across := panelWidth.mul_small virtualHeight
  have down := panelHeight.mul_small virtualWidth
  have least : ∀ e : ℤ, (if e < 1 then 1 else e) = max 1 e := by
    intro e
    split <;> omega
  have most : ∀ e panel : ℤ, e ≤ panel → Extent panel →
      (if max 1 e > panel then panel else max 1 e) = max 1 e := by
    intro e panel below size
    have positive := size.positive
    exact if_neg (by omega)
  obtain ⟨right, rightHalf⟩ := margin_eq (le_max_left 1 w) (max_le panelWidth.1 wideMost) panelWidth
  obtain ⟨below, belowHalf⟩ := margin_eq (le_max_left 1 v) (max_le panelHeight.1 highMost)
    panelHeight
  unfold displayFit
  rw [if_neg sizes, checked_of_signed ⟨by omega, by omega⟩, Option.bind_eq_bind, Option.bind_some,
    checked_of_signed ⟨by omega, by omega⟩, Option.bind_some, wide, Option.bind_some, high,
    Option.bind_some]
  dsimp only
  rw [least, least, most w pw wideMost panelWidth, most v ph highMost panelHeight, right,
    Option.bind_some, below, Option.bind_some, rightHalf, belowHalf]

theorem displayFit_fitted (virtualWidth : Extent vw) (virtualHeight : Extent vh)
    (panelWidth : Extent pw) (panelHeight : Extent ph) :
    ∃ fit, displayFit vw vh pw ph = some (some fit) ∧ Fitted vw vh pw ph fit := by
  have least := panelWidth.positive
  have lowest := panelHeight.positive
  by_cases bound : pw * vh ≤ ph * vw
  · have exactly : vh * pw ≤ ph * vw := by
      rw [mul_comm vh pw]
      exact bound
    obtain ⟨high, nonneg, most⟩ := fitExtent_eq virtualHeight panelWidth virtualWidth panelHeight
      exactly
    have placed := displayFit_placed virtualWidth virtualHeight panelWidth panelHeight
      (if_pos bound) ((if_pos bound).trans high) le_rfl most
    refine ⟨_, placed, ?_⟩
    have whole : max 1 pw = pw := max_eq_right panelWidth.1
    rw [whole]
    refine ⟨?_, ?_, .inl ⟨rfl, _, nearest_div virtualWidth.positive _, rfl⟩, ?_⟩ <;> dsimp only <;>
      omega
  · have exactly : vw * ph ≤ pw * vh := by
      rw [mul_comm vw ph]
      omega
    obtain ⟨wide, nonneg, most⟩ := fitExtent_eq virtualWidth panelHeight virtualHeight panelWidth
      exactly
    have placed := displayFit_placed virtualWidth virtualHeight panelWidth panelHeight
      ((if_neg bound).trans wide) (if_neg bound) most le_rfl
    refine ⟨_, placed, ?_⟩
    have whole : max 1 ph = ph := max_eq_right panelHeight.1
    rw [whole]
    refine ⟨?_, ?_, .inr ⟨rfl, _, nearest_div virtualHeight.positive _, rfl⟩, ?_⟩ <;> dsimp only <;>
      omega

/-! ## The touch point -/

/-- The pixel center `k + 1/2` of the fit, back on the virtual screen. -/
def centerOf (k virt scaled : ℤ) : ℤ := (2 * k + 1) * virt / (2 * scaled)

theorem centerOf_mono (positive : 0 < scaled) (size : 0 ≤ virt) (ordered : p ≤ q) :
    centerOf p virt scaled ≤ centerOf q virt scaled := by
  apply Int.ediv_le_ediv (by omega)
  exact mul_le_mul_of_nonneg_right (by omega) size

theorem centerOf_between (positive : 0 < scaled) (size : 0 ≤ virt) (k : ℤ) :
    k * virt / scaled ≤ centerOf k virt scaled ∧
      centerOf k virt scaled ≤ (k + 1) * virt / scaled := by
  have twice : ∀ n : ℤ, n / scaled = 2 * n / (2 * scaled) := fun n =>
    (Int.mul_ediv_mul_of_pos n scaled (by norm_num)).symm
  unfold centerOf
  rw [twice, twice]
  constructor
  · apply Int.ediv_le_ediv (by omega)
    linarith
  · apply Int.ediv_le_ediv (by omega)
    linarith

theorem centerOf_bounds (positive : 0 < scaled) (size : 0 < virt) (low : 0 ≤ p) (high : p < scaled) :
    0 ≤ centerOf p virt scaled ∧ centerOf p virt scaled < virt := by
  constructor
  · exact Int.ediv_nonneg (mul_nonneg (by omega) size.le) (by omega)
  · apply Int.ediv_lt_of_lt_mul (by omega)
    calc (2 * p + 1) * virt < (2 * scaled) * virt := mul_lt_mul_of_pos_right (by omega) size
      _ = virt * (2 * scaled) := mul_comm _ _

/-- Before the rectangle, inside it, and from its end on. -/
theorem mapAxis_eq (size : Extent virt) (extent : Extent scaled) (begins : 0 ≤ origin)
    (ends : origin ≤ 2 ^ 29) (p : ℤ) :
    mapAxis p origin scaled virt = some (if p ≤ origin then 0
      else if origin + scaled ≤ p then virt - 1 else centerOf (p - origin) virt scaled) := by
  unfold mapAxis
  obtain ⟨least, most⟩ := size
  obtain ⟨narrow, wide⟩ := extent
  by_cases before : p ≤ origin
  · rw [if_pos before, if_pos before]
  · rw [if_neg before, if_neg before, checked_of_signed ⟨by omega, by omega⟩, Option.bind_eq_bind,
      Option.bind_some]
    by_cases after : origin + scaled ≤ p
    · rw [if_pos after, if_pos after, checked_of_signed ⟨by omega, by omega⟩]
    · rw [if_neg after, if_neg after]
      have odd : 0 ≤ 2 * (p - origin) + 1 ∧ 2 * (p - origin) + 1 ≤ 2 ^ 30 := by omega
      have product : 0 ≤ (2 * (p - origin) + 1) * virt ∧
          (2 * (p - origin) + 1) * virt ≤ 2 ^ 59 := by
        constructor
        · exact mul_nonneg odd.1 (by omega)
        · calc (2 * (p - origin) + 1) * virt ≤ 2 ^ 30 * 2 ^ 29 :=
              mul_le_mul odd.2 most (by omega) (by norm_num)
            _ = 2 ^ 59 := by norm_num
      have bounds := centerOf_bounds narrow least (p := p - origin) (by omega) (by omega)
      have quotient : ((2 * (p - origin) + 1) * virt).tdiv (2 * scaled) =
          centerOf (p - origin) virt scaled := Int.tdiv_eq_ediv_of_nonneg product.1
      rw [checked_of_signed ⟨by omega, by omega⟩, Option.bind_some,
        checked_of_signed ⟨by omega, by omega⟩, Option.bind_some,
        checked_of_signed ⟨by omega, by omega⟩, Option.bind_some,
        checked_of_signed ⟨by omega, by omega⟩, Option.bind_some,
        checked_of_signed ⟨by omega, by omega⟩, Option.bind_some, quotient,
        if_neg (by omega), checked_of_signed ⟨by omega, by omega⟩]

theorem mapAxis_inside (size : Extent virt) (extent : Extent scaled) (begins : 0 ≤ origin)
    (ends : origin ≤ 2 ^ 29) (p : ℤ) :
    ∃ v, mapAxis p origin scaled virt = some v ∧ 0 ≤ v ∧ v ≤ virt - 1 := by
  refine ⟨_, mapAxis_eq size extent begins ends p, ?_⟩
  have least := size.1
  split
  · omega
  · split
    · omega
    · have bounds := centerOf_bounds extent.positive size.positive (p := p - origin) (by omega)
        (by omega)
      omega

theorem mapAxis_mono (size : Extent virt) (extent : Extent scaled) (begins : 0 ≤ origin)
    (ends : origin ≤ 2 ^ 29) (ordered : p ≤ q) (first : mapAxis p origin scaled virt = some v)
    (second : mapAxis q origin scaled virt = some w) : v ≤ w := by
  obtain ⟨low, same, nonneg, _⟩ := mapAxis_inside size extent begins ends q
  obtain rfl := Option.some.inj (second.symm.trans same)
  obtain ⟨high, same, _, most⟩ := mapAxis_inside size extent begins ends p
  obtain rfl := Option.some.inj (first.symm.trans same)
  rw [mapAxis_eq size extent begins ends] at first second
  by_cases before : p ≤ origin
  · rw [if_pos before] at first
    obtain rfl := Option.some.inj first
    exact nonneg
  · by_cases after : origin + scaled ≤ q
    · rw [if_neg (by omega), if_pos after] at second
      obtain rfl := Option.some.inj second
      exact most
    · rw [if_neg before, if_neg (by omega)] at first
      rw [if_neg (by omega), if_neg after] at second
      obtain rfl := Option.some.inj first
      obtain rfl := Option.some.inj second
      exact centerOf_mono extent.positive size.positive.le (by omega)

/-- A pixel of the rectangle maps between what the scaler shows there and what it shows next. -/
theorem mapAxis_shown (size : Extent virt) (extent : Extent scaled) (begins : 0 ≤ origin)
    (ends : origin ≤ 2 ^ 29) (low : 0 ≤ p) (high : p < scaled)
    (mapped : mapAxis (origin + p) origin scaled virt = some v) :
    vresScaleCpu p virt scaled ≤ v ∧ v ≤ (p + 1) * virt / scaled := by
  have shown : vresScaleCpu p virt scaled = p * virt / scaled :=
    Int.tdiv_eq_ediv_of_nonneg (mul_nonneg low size.positive.le)
  rw [shown]
  rw [mapAxis_eq size extent begins ends] at mapped
  by_cases first : p = 0
  · subst first
    rw [if_pos (by omega)] at mapped
    obtain rfl := Option.some.inj mapped
    rw [zero_mul, Int.zero_ediv, zero_add, one_mul]
    exact ⟨le_rfl, Int.ediv_nonneg size.positive.le extent.positive.le⟩
  · rw [if_neg (by omega), if_neg (by omega)] at mapped
    obtain rfl := Option.some.inj mapped
    have distance : origin + p - origin = p := by omega
    rw [distance]
    exact centerOf_between extent.positive size.positive.le p

theorem displayFitMap_eq {fit : DisplayFit} {x y : ℤ} (wide : 1 ≤ fit.w) (high : 1 ≤ fit.h)
    (first : mapAxis x fit.x fit.w vw = some v) (second : mapAxis y fit.y fit.h vh = some w) :
    displayFitMap fit vw vh x y = some (v, w) := by
  unfold displayFitMap
  rw [if_neg (by omega), first, second]
  rfl

end

/-- A touched pixel maps into the virtual screen, in order, to where the scaler shows it. -/
structure TouchAgrees (fit : DisplayFit) (vw vh : ℤ) : Prop where
  inside : ∀ x y, ∃ mx my, displayFitMap fit vw vh x y = some (mx, my) ∧
    (0 ≤ mx ∧ mx ≤ vw - 1) ∧ 0 ≤ my ∧ my ≤ vh - 1
  monotone : ∀ x y x' y' m m', x ≤ x' → y ≤ y' → displayFitMap fit vw vh x y = some m →
    displayFitMap fit vw vh x' y' = some m' → m.1 ≤ m'.1 ∧ m.2 ≤ m'.2
  shown : ∀ i j m, 0 ≤ i → i < fit.w → 0 ≤ j → j < fit.h →
    displayFitMap fit vw vh (fit.x + i) (fit.y + j) = some m →
    (vresScaleCpu i vw fit.w ≤ m.1 ∧ m.1 ≤ (i + 1) * vw / fit.w) ∧
      vresScaleCpu j vh fit.h ≤ m.2 ∧ m.2 ≤ (j + 1) * vh / fit.h

theorem Fitted.touch {vw vh pw ph : ℤ} {fit : DisplayFit} (fitted : Fitted vw vh pw ph fit)
    (virtualWidth : Extent vw) (virtualHeight : Extent vh) (panelWidth : Extent pw)
    (panelHeight : Extent ph) : TouchAgrees fit vw vh := by
  obtain ⟨wide, left, right⟩ := fitted.wide
  obtain ⟨high, top, bottom⟩ := fitted.high
  have mostWide := panelWidth.2
  have mostHigh := panelHeight.2
  have width : Extent fit.w := ⟨wide, by omega⟩
  have height : Extent fit.h := ⟨high, by omega⟩
  have across := mapAxis_inside virtualWidth width left (by omega)
  have down := mapAxis_inside virtualHeight height top (by omega)
  have parts : ∀ x y m, displayFitMap fit vw vh x y = some m →
      mapAxis x fit.x fit.w vw = some m.1 ∧ mapAxis y fit.y fit.h vh = some m.2 := by
    intro x y m mapped
    obtain ⟨v, first, _⟩ := across x
    obtain ⟨w, second, _⟩ := down y
    rw [displayFitMap_eq wide high first second] at mapped
    obtain rfl := Option.some.inj mapped
    exact ⟨first, second⟩
  refine ⟨?_, ?_, ?_⟩
  · intro x y
    obtain ⟨v, first, insideWidth⟩ := across x
    obtain ⟨w, second, insideHeight⟩ := down y
    exact ⟨v, w, displayFitMap_eq wide high first second, insideWidth, insideHeight⟩
  · intro x y x' y' m m' xs ys mapped later
    obtain ⟨first, second⟩ := parts x y m mapped
    obtain ⟨third, fourth⟩ := parts x' y' m' later
    exact ⟨mapAxis_mono virtualWidth width left (by omega) xs first third,
      mapAxis_mono virtualHeight height top (by omega) ys second fourth⟩
  · intro i j m least most lowest highest mapped
    obtain ⟨first, second⟩ := parts _ _ m mapped
    exact ⟨mapAxis_shown virtualWidth width left (by omega) least most first,
      mapAxis_shown virtualHeight height top (by omega) lowest highest second⟩

theorem display_fit_agrees {vw vh pw ph : ℤ} (virtualWidth : Extent vw) (virtualHeight : Extent vh)
    (panelWidth : Extent pw) (panelHeight : Extent ph) :
    ∃ fit, displayFit vw vh pw ph = some (some fit) ∧ Fitted vw vh pw ph fit ∧
      TouchAgrees fit vw vh := by
  obtain ⟨fit, computed, fitted⟩ :=
    displayFit_fitted virtualWidth virtualHeight panelWidth panelHeight
  exact ⟨fit, computed, fitted,
    fitted.touch virtualWidth virtualHeight panelWidth panelHeight⟩

/-- The design of 1024 by 600 on a panel of 480 by 320. -/
theorem display_fit_agrees_shown : ∃ fit, displayFit 1024 600 480 320 = some (some fit) ∧
    Fitted 1024 600 480 320 fit ∧ TouchAgrees fit 1024 600 :=
  display_fit_agrees ⟨by decide, by decide⟩ ⟨by decide, by decide⟩ ⟨by decide, by decide⟩
    ⟨by decide, by decide⟩

end LvglAic.Display
