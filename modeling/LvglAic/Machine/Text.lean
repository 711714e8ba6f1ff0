import LvglAic.Machine.Scan

/-! # Terminated strings

A string ends with the first byte zero, which is not part of it.  Reading that byte is
allowed and reading on is not.
-/

namespace LvglAic.Machine

structure CString where
  bytes : List UInt8
  ended : 0 ∉ bytes

def ascii (text : List Char) : List UInt8 := text.map Char.toUInt8

/-! ## Numbers -/

def isDigit (c : UInt8) : Bool := '0'.toUInt8 ≤ c && c ≤ '9'.toUInt8

def digitValue (c : UInt8) : ℕ := c.toNat - '0'.toNat

def decimalValue (digits : List UInt8) : ℕ := digits.foldl (fun n c => n * 10 + digitValue c) 0

/-- The text that `%u` writes. -/
def decimal (n : ℕ) : List UInt8 :=
  if n = 0 then ['0'.toUInt8] else (Nat.digits 10 n).reverse.map fun d => UInt8.ofNat ('0'.toNat + d)

/-- What `snprintf` leaves in a buffer. -/
def snprintf (size : ℕ) (text : List UInt8) : List UInt8 := text.take (size - 1)

theorem digit_ofNat {d : ℕ} (small : d < 10) :
    isDigit (UInt8.ofNat ('0'.toNat + d)) = true ∧ digitValue (UInt8.ofNat ('0'.toNat + d)) = d := by
  interval_cases d <;> exact ⟨rfl, rfl⟩

theorem isDigit_nonzero {c : UInt8} (digit : isDigit c = true) : c ≠ 0 := by
  rintro rfl
  cases digit

theorem decimal_digits (n : ℕ) : ∀ c ∈ decimal n, isDigit c = true := by
  intro c member
  unfold decimal at member
  split at member
  · rw [List.mem_singleton.mp member]
    rfl
  · obtain ⟨d, found, rfl⟩ := List.mem_map.mp member
    exact (digit_ofNat (Nat.digits_lt_base (by decide) (List.mem_reverse.mp found))).1

theorem decimalValue_decimal (n : ℕ) : decimalValue (decimal n) = n := by
  unfold decimal
  split
  · rename_i zero
    rw [zero]
    rfl
  · unfold decimalValue
    rw [List.foldl_map, List.foldl_reverse]
    have folded : ∀ l : List ℕ, (∀ d ∈ l, d < 10) →
        l.foldr (fun d n => n * 10 + digitValue (UInt8.ofNat ('0'.toNat + d))) 0 =
          Nat.ofDigits 10 l := by
      intro l
      induction l with
      | nil => exact fun _ => rfl
      | cons d rest ih =>
          intro small
          rw [List.foldr_cons, ih fun d member => small d (List.mem_cons_of_mem _ member),
            (digit_ofNat (small d List.mem_cons_self)).2, Nat.ofDigits_cons]
          omega
    rw [folded _ fun d member => Nat.digits_lt_base (by decide) member, Nat.ofDigits_digits]

theorem decimal_length {n k : ℕ} (positive : 0 < n) (small : n < 10 ^ k) :
    1 ≤ (decimal n).length ∧ (decimal n).length ≤ k := by
  have nonzero : n ≠ 0 := positive.ne'
  unfold decimal
  rw [if_neg nonzero, List.length_map, List.length_reverse]
  exact ⟨List.length_pos_iff.mpr (Nat.digits_ne_nil_iff_ne_zero.mpr nonzero),
    (Nat.digits_length_le_iff (by decide) n).mpr small⟩

/-! ## Reading -/

namespace CString

variable {s : CString} {p q : ℕ} {c : UInt8} {rest : List UInt8} {test : UInt8 → Bool}

def load (s : CString) (p : ℕ) : Outcome UInt8 :=
  match s.bytes[p]? with
  | some c => .value c
  | none => if p = s.bytes.length then .value 0 else .stray

/-- One character of a kind, and the place after it. -/
def next (s : CString) (test : UInt8 → Bool) (p : ℕ) : Outcome (UInt8 × ℕ) := do
  let c ← s.load p
  if test c then .value (c, p + 1) else .refused

/-- `strcmp` with a literal, for equality. -/
def strcmp (s : CString) (p : ℕ) : List UInt8 → Outcome Bool
  | [] => do
      let c ← s.load p
      .value (c == 0)
  | b :: rest => do
      let c ← s.load p
      if c = b then s.strcmp (p + 1) rest else .value false

/-- A pointer into a string, and what is left of the string there. -/
structure Rests (s : CString) (p : ℕ) (rest : List UInt8) : Prop where
  inside : p ≤ s.bytes.length
  rest : s.bytes.drop p = rest

theorem rests_start (s : CString) : s.Rests 0 s.bytes := ⟨Nat.zero_le _, rfl⟩

theorem Rests.advance {word : List UInt8} (here : s.Rests p (word ++ rest)) :
    s.Rests (p + word.length) rest := by
  have size := congrArg List.length here.rest
  rw [List.length_drop, List.length_append] at size
  refine ⟨by have inside := here.inside; omega, ?_⟩
  rw [← List.drop_drop, here.rest, List.drop_left]

theorem Rests.load_cons (here : s.Rests p (c :: rest)) :
    s.load p = .value c ∧ c ≠ 0 ∧ s.Rests (p + 1) rest := by
  have found : s.bytes[p]? = some c := by
    rw [← List.head?_drop, here.rest]
    rfl
  have tail : s.Rests (p + [c].length) rest := Rests.advance here
  refine ⟨?_, ?_, tail⟩
  · simp only [load, found]
  · rintro rfl
    exact s.ended (List.mem_of_getElem? found)

theorem Rests.load_nil (here : s.Rests p []) : s.load p = .value 0 := by
  have last : p = s.bytes.length := le_antisymm here.inside (List.drop_eq_nil_iff.mp here.rest)
  simp only [load, last, List.getElem?_length, if_true]

theorem Rests.load (here : s.Rests p rest) : s.load p = .value (rest.headD 0) := by
  cases rest with
  | nil => exact here.load_nil
  | cons c tail => exact here.load_cons.1

theorem Rests.next_cons (here : s.Rests p (c :: rest)) (passes : test c = true) :
    s.next test p = .value (c, p + 1) := by
  simp only [CString.next, here.load_cons.1, Outcome.value_bind, passes, if_true]

theorem Rests.next_value (here : s.Rests p rest) (closed : test 0 = false)
    (passed : s.next test p = .value (c, q)) :
    ∃ tail, rest = c :: tail ∧ test c = true ∧ s.Rests q tail := by
  simp only [CString.next, here.load, Outcome.value_bind] at passed
  split at passed
  · rename_i passes
    cases passed
    cases rest with
    | nil => rw [List.headD_nil, closed] at passes; cases passes
    | cons c tail => exact ⟨tail, rfl, passes, here.load_cons.2.2⟩
  · cases passed

theorem Rests.next_ne_stray (here : s.Rests p rest) : s.next test p ≠ .stray := by
  simp only [CString.next, here.load, Outcome.value_bind]
  split <;> intro same <;> cases same

/-- A comparison never reads on after a difference or after the end. -/
theorem Rests.strcmp {literal : List UInt8} (here : s.Rests p rest) (ended : 0 ∉ literal) :
    s.strcmp p literal = .value (decide (rest = literal)) := by
  induction literal generalizing p rest with
  | nil =>
      simp only [CString.strcmp, here.load, Outcome.value_bind]
      cases rest with
      | nil => rfl
      | cons c tail =>
          have nonzero := here.load_cons.2.1
          simp [nonzero]
  | cons b others ih =>
      have nonzero : b ≠ 0 := fun zero => ended (zero ▸ List.mem_cons_self)
      have tailEnded : 0 ∉ others := fun member => ended (List.mem_cons_of_mem _ member)
      simp only [CString.strcmp, here.load, Outcome.value_bind]
      cases rest with
      | nil => simp [nonzero.symm]
      | cons c tail =>
          by_cases same : c = b
          · simp [same, ih here.load_cons.2.2 tailEnded]
          · simp [same]

end CString

end LvglAic.Machine
