import LvglAic.Machine.Leases
import LvglAic.Image.Frame

/-! # Frame images and their leases

Three kinds of images show a producer's frame without a copy: YUV images, RGB images
and the YUV frames bound to a layer.  Each keeps its own list, and each admits readers
on terms of its own.
-/

namespace LvglAic.Image

open LvglAic.Leases

/-! ## RGB frames -/

structure RgbFrame where
  format : ColorFormat
  width : UInt32
  height : UInt32
  stride : UInt32
  data : ℕ
  capacity : ℕ
deriving DecidableEq, Repr

/-- The images of one kind and whether their decoder is registered. -/
structure Images (Data : Type) where
  pool : Pool Data
  decoder : Bool
deriving DecidableEq

namespace Images

variable {Data : Type}

def decoderInit (s : Images Data) (created : Bool) : Bool × Images Data :=
  if s.decoder then (false, s)
  else if created then (true, { s with decoder := true })
  else (false, s)

def decoderDeinit (s : Images Data) : Bool × Images Data :=
  if s.pool.objects ≠ [] then (false, s) else (true, { s with decoder := false })

/-- The image that shows `data`, once the arguments are checked. -/
def create (s : Images Data) (valid : Bool) (data : Data) (context : ℕ) (storage : Option ℕ)
    (retains : Bool) : Option ℕ × Images Data × List Event :=
  if !s.decoder || !valid then (none, s, [])
  else
    let made := s.pool.create data context storage retains
    (if retains then storage else none, { s with pool := made.1 }, made.2)

def acquire (s : Images Data) (source : ℕ) (wanted : Bool) :
    Option Data × Images Data × List Event :=
  match s.pool.object source with
  | none => (none, s, [])
  | some o =>
      if !wanted || o.retired || o.readers = 0xffffffff then (none, s, [])
      else
        let read := s.pool.enroll o
        (some o.data,
          { s with pool := { read.1 with leases := o.address :: read.1.leases } }, read.2)

def releaseLease (s : Images Data) (image : Option ℕ) : Images Data × List Event :=
  match image with
  | none => (s, [])
  | some address =>
      let left := s.pool.letGo address
      ({ s with pool := { left.1 with leases := left.1.leases.erase address } }, left.2)

/-- The descriptor's user data is the image, or nothing. -/
def closeImage (s : Images Data) (image : Option ℕ) : Images Data × List Event :=
  match image with
  | none => (s, [])
  | some address =>
      let left := s.pool.letGo address
      ({ s with pool := { left.1 with opens := left.1.opens.erase address } }, left.2)

def destroy (s : Images Data) (image : Option ℕ) : Images Data × List Event :=
  match image.bind s.pool.object with
  | none => (s, [])
  | some o =>
      let retired := s.pool.retire o
      ({ s with pool := retired.1 }, retired.2)

end Images

/-! ## YUV images -/

/-- The decoder arguments, and what the draw buffer calls of LVGL answer. -/
structure RgbOpen where
  premultiply : Bool
  strideAlign : Bool
  buffer : Bool
  premultiplied : Bool
  initialized : Bool
deriving DecidableEq, Repr

def RgbOpen.index (r : RgbOpen) (premultiply : Bool) : Fin 4 :=
  (if r.strideAlign then 1 else 0) + (if premultiply then 2 else 0)

structure YuvBinding where
  layer : ℕ
  frame : YuvFrame
deriving DecidableEq

/-- A layer of LVGL: its address and its color format. -/
structure Layer where
  address : ℕ
  colorFormat : ColorFormat
deriving DecidableEq, Repr

/-- A call, with what the allocator, the producer and LVGL answer in it. -/
inductive ImageCall (Frame Opening : Type) where
  | decoderInit (created : Bool)
  | decoderDeinit
  | create (frame : Frame) (retainCb releaseCb : Bool) (context : ℕ) (storage : Option ℕ)
      (retains : Bool)
  | acquire (source : ℕ) (wanted : Bool)
  | releaseLease (image : Option ℕ)
  | openImage (source : ℕ) (answers : Opening)
  | closeImage (image : Option ℕ)
  | destroy (image : Option ℕ)
deriving DecidableEq

/-- The allocator gives storage that no image has, a reader lets go of what it holds, and the
owner destroys an image that exists. -/
def ImageCall.allowed {Data Frame Opening : Type} (s : Images Data) :
    ImageCall Frame Opening → Bool
  | .create _ _ _ _ (some address) _ => s.pool.objects.all fun o => o.address ≠ address
  | .releaseLease (some address) => address ∈ s.pool.leases
  | .closeImage (some address) => address ∈ s.pool.opens
  | .destroy (some address) => (s.pool.object address).isSome
  | _ => true

inductive LayerCall where
  | attach (layer : Layer) (frame : YuvFrame) (retainCb releaseCb : Bool) (context : ℕ)
      (storage : Option ℕ) (retains : Bool)
  | detach (layer : ℕ)
  | acquire (layer : ℕ) (wanted : Bool)
  | releaseLease (binding : Option ℕ)
deriving DecidableEq

def LayerCall.allowed (bindings : Pool YuvBinding) : LayerCall → Bool
  | .attach _ _ _ _ _ (some address) _ => bindings.objects.all fun o => o.address ≠ address
  | .releaseLease (some address) => address ∈ bindings.leases
  | _ => true

section
variable {Data : Type} {s : Images Data} {trace : List Event}

end

section
variable {sizeMax : ℕ} {trace : List Event}

section
variable {bindings : Pool YuvBinding}

end

end

end LvglAic.Image
