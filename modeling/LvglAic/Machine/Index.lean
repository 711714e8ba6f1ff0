import Mathlib

/-! # Short arrays

The indices into arrays of two slots, three planes, four corners and eight leases.
-/

namespace LvglAic.Machine

instance twoSlots : NeZero 2 := ⟨by decide⟩

instance threeSlots : NeZero 3 := ⟨by decide⟩

instance fourSlots : NeZero 4 := ⟨by decide⟩

instance eightSlots : NeZero 8 := ⟨by decide⟩

end LvglAic.Machine
