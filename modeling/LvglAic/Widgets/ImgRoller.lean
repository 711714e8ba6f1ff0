import LvglAic.Machine.Index

/-! # The loop of the image roller (`lv_img_roller.c`)

The images stand one after the other along the direction of the roller, with a gap
between them, and the content is scrolled below the roller.  In loop mode an edge image
moves to the opposite end, and the scroll position moves with the coordinates.
-/

namespace LvglAic.Widgets

inductive RollerDir where
  | hor
  | ver
deriving DecidableEq, Repr

structure RollerImage where
  width : Int32
  height : Int32
deriving DecidableEq

structure ScrollAnim where
  startValue : Int32
  endValue : Int32
  currentValue : Int32
deriving DecidableEq

/-- The roller with the styles, the scroll position and the scroll animation that LVGL keeps. -/
structure ImgRoller where
  imgDirection : RollerDir
  isAdjusting : Bool
  threshold : Int32
  loopEn : Bool
  width : Int32
  height : Int32
  padColumn : Int32
  padRow : Int32
  padLeft : Int32
  padRight : Int32
  padTop : Int32
  padBottom : Int32
  children : List RollerImage
  scrollX : Int32
  scrollY : Int32
  anim : Option ScrollAnim
deriving DecidableEq

/-- Where an image starts among the others. -/
def offsetWithGaps (gap : Int32) : List Int32 → ℕ → Int32
  | size :: rest, i + 1 => size + gap + offsetWithGaps gap rest i
  | _, _ => 0

namespace ImgRoller

variable (r : ImgRoller)

def sizeOf (child : RollerImage) : Int32 :=
  match r.imgDirection with
  | .hor => child.width
  | .ver => child.height

def gap : Int32 :=
  match r.imgDirection with
  | .hor => r.padColumn
  | .ver => r.padRow

/-- `lv_obj_scroll_by_raw` moves the content, against the scroll position. -/
def scrollByRaw (x y : Int32) : ImgRoller :=
  { r with scrollX := r.scrollX - x, scrollY := r.scrollY - y }

end ImgRoller

/-- An animation that has not started has no current value. -/
def ScrollAnim.shift (a : ScrollAnim) (delta : Int32) : ScrollAnim where
  startValue := a.startValue + delta
  endValue := a.endValue + delta
  currentValue := if a.currentValue ≠ Int32.minValue then a.currentValue + delta else a.currentValue

namespace ImgRoller

variable (r : ImgRoller)

def shiftLoopOrigin (delta : Int32) : ImgRoller :=
  scrollByRaw { r with anim := r.anim.map fun a => a.shift delta }
    (if r.imgDirection = .hor then delta else 0) (if r.imgDirection = .ver then delta else 0)

/-- A place of the content on the screen, from the corner of the roller. -/
def place (offset : Int32) : Int32 × Int32 :=
  match r.imgDirection with
  | .hor => (r.padLeft + offset - r.scrollX, r.padTop - r.scrollY)
  | .ver => (r.padLeft - r.scrollX, r.padTop + offset - r.scrollY)

/-- Where an image stands on the screen. -/
def position (i : ℕ) : Int32 × Int32 := r.place (offsetWithGaps r.gap (r.children.map r.sizeOf) i)

/-- The roller with other images, scrolled along its direction with its animation. -/
def wrapped (children : List RollerImage) (delta : Int32) : ImgRoller :=
  { r with children := children }.shiftLoopOrigin delta

variable {r} {first last : RollerImage} {init tail : List RollerImage} {delta : Int32}

end ImgRoller

end LvglAic.Widgets
