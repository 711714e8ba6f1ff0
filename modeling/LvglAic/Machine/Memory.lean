import Mathlib

/-! # Byte memory

A loop that writes bytes outside of what it reads leaves the memory as one list of
writes would.
-/

namespace LvglAic.Machine

def Memory := ℕ → UInt8

namespace Memory

def store (m : Memory) (address : ℕ) (value : UInt8) : Memory := Function.update m address value

/-- A write to a span of memory; outside of it there is none. -/
def put (m : Memory) (base span offset : ℕ) (value : UInt8) : Option Memory :=
  if offset < span then some (m.store (base + offset) value) else none

def stores (m : Memory) (writes : List (ℕ × UInt8)) : Memory :=
  writes.foldl (fun m w => m.store w.1 w.2) m

variable {m start : Memory} {writes more : List (ℕ × UInt8)} {address : ℕ} {value : UInt8}

theorem put_eq {base span offset : ℕ} (inside : offset < span) :
    m.put base span offset value = some (m.store (base + offset) value) := if_pos inside

theorem stores_append : m.stores (writes ++ more) = (m.stores writes).stores more :=
  List.foldl_append

theorem stores_other (untouched : ∀ w ∈ writes, w.1 ≠ address) :
    m.stores writes address = m address := by
  induction writes generalizing m with
  | nil => rfl
  | cons w rest ih =>
      have later := ih (m := m.store w.1 w.2) fun v member =>
        untouched v (List.mem_cons_of_mem _ member)
      exact later.trans (Function.update_of_ne (untouched w List.mem_cons_self).symm _ _)

/-- Writes to an address that agree decide its value. -/
theorem stores_eq (written : (address, value) ∈ writes)
    (agree : ∀ w ∈ writes, w.1 = address → w.2 = value) : m.stores writes address = value := by
  induction writes generalizing m with
  | nil => exact absurd written List.not_mem_nil
  | cons w rest ih =>
      by_cases again : (address, value) ∈ rest
      · exact ih again fun v member => agree v (List.mem_cons_of_mem _ member)
      · rcases List.mem_cons.mp written with rfl | later
        · have untouched : ∀ v ∈ rest, v.1 ≠ address := by
            rintro ⟨a, b⟩ member rfl
            have same := agree (a, b) (List.mem_cons_of_mem _ member) rfl
            change b = value at same
            exact again (same ▸ member)
          exact (stores_other untouched).trans (Function.update_self _ _ _)
        · exact absurd later again

/-- A loop whose steps depend only on memory outside of `Region`, and write inside of it. -/
theorem foldlM_stores {Item : Type} {body : Memory → Item → Option Memory}
    {out : Item → List (ℕ × UInt8)} {items : List Item} (Region : ℕ → Prop)
    (steps : ∀ m : Memory, (∀ a, ¬Region a → m a = start a) → ∀ item ∈ items,
      body m item = some (m.stores (out item)))
    (inside : ∀ item ∈ items, ∀ w ∈ out item, Region w.1) :
    items.foldlM body start = some (start.stores (items.flatMap out)) := by
  have general : ∀ m : Memory, (∀ a, ¬Region a → m a = start a) →
      items.foldlM body m = some (m.stores (items.flatMap out)) := by
    induction items with
    | nil => exact fun m _ => rfl
    | cons item rest ih =>
        intro m same
        rw [List.foldlM_cons, steps m same item List.mem_cons_self, List.flatMap_cons,
          stores_append]
        refine ih (fun n agree other member => steps n agree other
          (List.mem_cons_of_mem _ member)) (fun other member => inside other
          (List.mem_cons_of_mem _ member)) _ ?_
        intro a outside
        rw [stores_other, same a outside]
        rintro w member rfl
        exact outside (inside item List.mem_cons_self w member)
  exact general start fun _ _ => rfl

end Memory

/-- The rows of an image, and the pixels of each. -/
def pixels (width height : ℕ) : List (ℕ × ℕ) :=
  (List.range height).flatMap fun y => (List.range width).map fun x => (x, y)

theorem mem_pixels {width height : ℕ} {p : ℕ × ℕ} :
    p ∈ pixels width height ↔ p.1 < width ∧ p.2 < height := by
  unfold pixels
  simp only [List.mem_flatMap, List.mem_range, List.mem_map]
  constructor
  · rintro ⟨y, low, x, left, rfl⟩
    exact ⟨left, low⟩
  · rintro ⟨left, low⟩
    exact ⟨p.2, low, p.1, left, rfl⟩

/-- A place in a row of a plane lies in the span of the plane. -/
theorem row_inside {y rows stride rowBytes x : ℕ} (row : y < rows) (column : x < rowBytes) :
    y * stride + x < (rows - 1) * stride + rowBytes := by
  have rowsBefore : y * stride ≤ (rows - 1) * stride :=
    Nat.mul_le_mul_right _ (Nat.le_sub_one_of_lt row)
  omega

/-- Rows that are no longer than the stride share no place. -/
theorem row_unique {y y' stride x x' : ℕ} (left : x < stride) (right : x' < stride)
    (same : y * stride + x = y' * stride + x') : y = y' ∧ x = x' := by
  have positive : 0 < stride := by omega
  have rows : y = y' := by
    have first : (y * stride + x) / stride = y := by
      rw [Nat.mul_comm, Nat.mul_add_div positive, Nat.div_eq_of_lt left, Nat.add_zero]
    have second : (y' * stride + x') / stride = y' := by
      rw [Nat.mul_comm, Nat.mul_add_div positive, Nat.div_eq_of_lt right, Nat.add_zero]
    rw [← first, ← second, same]
  subst rows
  omega

end LvglAic.Machine
