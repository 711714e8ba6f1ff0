import LvglAic.Machine.Memory

/-! # Scans over memory

A reader answers, refuses, or strays outside of the bytes that it was given.  A scan
moves a cursor on until it stops; it strays as well when it never does.
-/

namespace LvglAic.Machine

inductive Outcome (Answer : Type) where
  | stray
  | refused
  | value (answer : Answer)
deriving DecidableEq, Repr

namespace Outcome

variable {Answer Next : Type}

def andThen (o : Outcome Answer) (next : Answer → Outcome Next) : Outcome Next :=
  match o with
  | stray => stray
  | refused => refused
  | value answer => next answer

instance : Monad Outcome where
  pure := value
  bind := andThen

/-- What follows a reader, and what follows when it refuses. -/
def handle (o : Outcome Answer) (fail : Outcome Next) (next : Answer → Outcome Next) : Outcome Next :=
  match o with
  | stray => stray
  | refused => fail
  | value answer => next answer

@[simp]
theorem value_bind (answer : Answer) (next : Answer → Outcome Next) :
    (value answer >>= next) = next answer := rfl

theorem bind_eq_value {o : Outcome Answer} {next : Answer → Outcome Next} {last : Next} :
    (o >>= next) = value last ↔ ∃ answer, o = value answer ∧ next answer = value last := by
  cases o with
  | stray => exact iff_of_false (fun same => nomatch same) (fun found => nomatch found)
  | refused => exact iff_of_false (fun same => nomatch same) (fun found => nomatch found)
  | value answer =>
      constructor
      · intro same
        exact ⟨answer, rfl, same⟩
      · rintro ⟨other, first, second⟩
        cases first
        exact second

/-- A reader that keeps inside hands only answers on. -/
theorem bind_ne_stray {o : Outcome Answer} {next : Answer → Outcome Next} (first : o ≠ stray)
    (second : ∀ answer, o = value answer → next answer ≠ stray) : (o >>= next) ≠ stray := by
  cases o with
  | stray => exact absurd rfl first
  | refused => exact fun same => nomatch same
  | value answer => exact second answer rfl

theorem ite_refused {ok : Prop} [Decidable ok] {o : Outcome Answer} {answer : Answer} :
    (if ok then refused else o) = value answer ↔ ¬ok ∧ o = value answer := by
  split
  · rename_i holds
    exact iff_of_false (fun same => nomatch same) (fun both => both.1 holds)
  · rename_i fails
    exact ⟨fun same => ⟨fails, same⟩, fun both => both.2⟩

theorem ite_ne_stray {ok : Prop} [Decidable ok] {o : Outcome Answer}
    (other : ¬ok → o ≠ stray) : (if ok then refused else o) ≠ stray := by
  split
  · exact fun same => nomatch same
  · rename_i fails
    exact other fails

end Outcome

/-! ## Bytes -/

/-- The low digit of a number is the byte that it is stored as. -/
theorem ofNat_digit (value : ℕ) (byte : UInt8) (same : value % 256 = byte.toNat) :
    UInt8.ofNat value = byte := by
  rw [← UInt8.toNat_inj]
  exact UInt8.toNat_ofNat'.trans same

namespace Memory

variable {m n : Memory} {base address size start count : ℕ}

def bytes (m : Memory) (base count : ℕ) : List UInt8 := (List.range count).map fun i => m (base + i)

/-- Bytes of a buffer of the given size; outside of it there are none. -/
def read (m : Memory) (base size start count : ℕ) : Outcome (List UInt8) :=
  if start + count ≤ size then .value (m.bytes (base + start) count) else .stray

/-- The writes of bytes one after the other. -/
def placed (address : ℕ) : List UInt8 → List (ℕ × UInt8)
  | [] => []
  | b :: rest => (address, b) :: placed (address + 1) rest

/-- Bytes are written to a buffer of the given size; outside of it nothing is written. -/
def write (m : Memory) (base size start : ℕ) (content : List UInt8) : Outcome Memory :=
  if start + content.length ≤ size then .value (m.stores (placed (base + start) content)) else .stray

@[simp]
theorem bytes_length : (m.bytes base count).length = count := by
  unfold bytes
  rw [List.length_map, List.length_range]

theorem bytes_append (first second : ℕ) :
    m.bytes base (first + second) = m.bytes base first ++ m.bytes (base + first) second := by
  unfold bytes
  rw [List.range_add, List.map_append, List.map_map]
  refine congrArg _ (List.map_congr_left ?_)
  intro i _
  exact congrArg m (Nat.add_assoc _ _ _).symm

theorem bytes_congr {other : ℕ} (same : ∀ i, i < count → m (base + i) = n (other + i)) :
    m.bytes base count = n.bytes other count :=
  List.map_congr_left fun i member => same i (List.mem_range.mp member)

theorem read_eq (inside : start + count ≤ size) :
    m.read base size start count = .value (m.bytes (base + start) count) := if_pos inside

theorem read_value {answer : List UInt8} (found : m.read base size start count = .value answer) :
    start + count ≤ size ∧ answer = m.bytes (base + start) count := by
  unfold read at found
  split at found
  · rename_i inside
    exact ⟨inside, (Outcome.value.inj found).symm⟩
  · exact nomatch found

theorem write_eq {content : List UInt8} (inside : start + content.length ≤ size) :
    m.write base size start content = .value (m.stores (placed (base + start) content)) :=
  if_pos inside

theorem placed_append (first second : List UInt8) :
    placed address (first ++ second) = placed address first ++ placed (address + first.length) second := by
  induction first generalizing address with
  | nil => rfl
  | cons b rest ih =>
      rw [List.cons_append, placed, placed, ih, List.cons_append, List.length_cons]
      congr 3
      ring

theorem placed_addresses (content : List UInt8) :
    (placed address content).map Prod.fst = (List.range content.length).map (address + ·) := by
  induction content generalizing address with
  | nil => rfl
  | cons b rest ih =>
      rw [placed, List.map_cons, ih, List.length_cons, List.range_succ_eq_map, List.map_cons,
        List.map_map]
      refine congrArg _ (List.map_congr_left ?_)
      intro i _
      change address + 1 + i = address + (i + 1)
      ring

theorem mem_placed {content : List UInt8} {w : ℕ × UInt8} (member : w ∈ placed address content) :
    address ≤ w.1 ∧ w.1 < address + content.length := by
  have listed : w.1 ∈ (placed address content).map Prod.fst := List.mem_map_of_mem member
  rw [placed_addresses] at listed
  obtain ⟨i, inside, same⟩ := List.mem_map.mp listed
  have below := List.mem_range.mp inside
  omega

/-- Bytes that were placed are read back. -/
theorem stores_placed (content : List UInt8) :
    (m.stores (placed address content)).bytes address content.length = content := by
  induction content generalizing m address with
  | nil => rfl
  | cons b rest ih =>
      have later : ((m.store address b).stores (placed (address + 1) rest)).bytes (address + 1)
          rest.length = rest := ih
      have first : (m.stores (placed address (b :: rest))) address = b := by
        change (m.store address b).stores (placed (address + 1) rest) address = b
        rw [stores_other]
        · exact Function.update_self _ _ _
        · intro w member
          have bounds := mem_placed member
          omega
      rw [List.length_cons, Nat.add_comm, bytes_append]
      change [m.stores (placed address (b :: rest)) (address + 0)] ++ _ = _
      rw [Nat.add_zero, first]
      exact congrArg (b :: ·) later

theorem stores_bytes_other {writes : List (ℕ × UInt8)}
    (apart : ∀ w ∈ writes, w.1 < base ∨ base + count ≤ w.1) :
    (m.stores writes).bytes base count = m.bytes base count := by
  refine bytes_congr ?_
  intro i inside
  apply stores_other
  intro w member same
  have away := apart w member
  omega

end Memory

/-! ## Scans -/

inductive Turn (State Result : Type) where
  | again (state : State)
  | stop (result : Result)
deriving DecidableEq, Repr

section
variable {State Result : Type} {body : State → Outcome (Turn State Result)}

def scan (body : State → Outcome (Turn State Result)) : ℕ → State → Outcome Result
  | 0, _ => .stray
  | fuel + 1, s =>
      match body s with
      | .stray => .stray
      | .refused => .refused
      | .value (.again next) => scan body fuel next
      | .value (.stop result) => .value result

theorem scan_again {fuel : ℕ} {s next : State} (turned : body s = .value (.again next)) :
    scan body (fuel + 1) s = scan body fuel next := by
  rw [scan, turned]

theorem scan_stop {fuel : ℕ} {s : State} {result : Result} (stopped : body s = .value (.stop result)) :
    scan body (fuel + 1) s = .value result := by
  rw [scan, stopped]

/-- An invariant of the body holds when the scan stops. -/
theorem scan_value (Holds : State → Prop) (After : Result → Prop)
    (again : ∀ s next, Holds s → body s = .value (.again next) → Holds next)
    (stop : ∀ s result, Holds s → body s = .value (.stop result) → After result)
    {fuel : ℕ} {s : State} {result : Result} (holds : Holds s)
    (done : scan body fuel s = .value result) : After result := by
  induction fuel generalizing s with
  | zero => exact nomatch done
  | succ fuel ih =>
      unfold scan at done
      split at done
      · exact nomatch done
      · exact nomatch done
      · rename_i next found
        exact ih (again s next holds found) done
      · rename_i last found
        exact Outcome.value.inj done ▸ stop s last holds found

/-- A body that keeps inside and comes closer to its end does not stray. -/
theorem scan_ne_stray (Holds : State → Prop) (measure : State → ℕ)
    (inside : ∀ s, Holds s → body s ≠ .stray)
    (again : ∀ s next, Holds s → body s = .value (.again next) →
      Holds next ∧ measure next < measure s)
    {fuel : ℕ} {s : State} (holds : Holds s) (enough : measure s < fuel) :
    scan body fuel s ≠ .stray := by
  induction fuel generalizing s with
  | zero => exact absurd enough (Nat.not_lt_zero _)
  | succ fuel ih =>
      unfold scan
      split
      · rename_i found
        exact absurd found (inside s holds)
      · exact fun same => nomatch same
      · rename_i next found
        obtain ⟨kept, closer⟩ := again s next holds found
        exact ih kept (by omega)
      · exact fun same => nomatch same

end

/-! ## Loops with a count -/

section
variable {State : Type} {body : State → ℕ → Outcome State} {s last : State} {first count : ℕ}

end

end LvglAic.Machine
