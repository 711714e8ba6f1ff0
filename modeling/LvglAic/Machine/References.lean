import Mathlib

/-! # Counted references

Holders refer to objects, and every object counts the holders that refer to it.
An object is dropped when its last holder lets go.
-/

namespace LvglAic

section Count

variable {Holder Value : Type*} [DecidableEq Holder] {all : List Holder} {holder : Holder}

/-- One value changes in a count of the values that satisfy a predicate. -/
theorem countP_update (nodup : all.Nodup) (member : holder ∈ all) (values : Holder → Value)
    (next : Value) (holds : Value → Bool) :
    (all.countP fun h => holds (Function.update values holder next h)) +
        (if holds (values holder) then 1 else 0) =
      (all.countP fun h => holds (values h)) + if holds next then 1 else 0 := by
  induction all with
  | nil => cases member
  | cons first rest ih =>
      obtain ⟨fresh, nodup⟩ := List.nodup_cons.mp nodup
      simp only [List.countP_cons]
      by_cases same : first = holder
      · subst same
        have others : (rest.countP fun h => holds (Function.update values first next h)) =
            rest.countP fun h => holds (values h) := by
          refine List.countP_congr fun h inside => ?_
          have other : h ≠ first := fun same => fresh (same ▸ inside)
          rw [Function.update_of_ne other]
        rw [others, Function.update_self]
        omega
      · rw [Function.update_of_ne same]
        have inside : holder ∈ rest := by
          rcases List.mem_cons.mp member with also | inside
          · exact absurd also.symm same
          · exact inside
        have later := ih nodup inside
        omega

end Count

namespace References

variable {Holder : Type*} [DecidableEq Holder] {all more : List Holder} {holder heir : Holder}
variable {refs : Holder → Option Nat} {owners : Nat → Nat} {made o : Nat} {gone : List Nat}
variable {next : Option Nat}

/-- How many holders refer to the object. -/
def holders (refs : Holder → Option Nat) (all : List Holder) (o : Nat) : Nat :=
  all.countP fun holder => refs holder = some o

def retain (owners : Nat → Nat) : Option Nat → Nat → Nat
  | none => owners
  | some o => Function.update owners o (owners o + 1)

def release (owners : Nat → Nat) : Option Nat → Nat → Nat
  | none => owners
  | some o => Function.update owners o (owners o - 1)

/-- What a release drops. -/
def dropped (owners : Nat → Nat) : Option Nat → List Nat
  | none => []
  | some o => if owners o - 1 = 0 then [o] else []

omit [DecidableEq Holder] in
theorem holders_pos : 0 < holders refs all o ↔ ∃ holder ∈ all, refs holder = some o := by
  simp [holders]

theorem holders_update (nodup : all.Nodup) (member : holder ∈ all) :
    holders (Function.update refs holder next) all o +
        (if refs holder = some o then 1 else 0) =
      holders refs all o + if next = some o then 1 else 0 := by
  have count := countP_update nodup member refs next fun ref => decide (ref = some o)
  simp only [decide_eq_true_eq] at count
  exact count

/-- The counts are those of the references, only objects that were made are
referred to, and those without a reference were dropped once. -/
structure Owned (all : List Holder) (refs : Holder → Option Nat) (owners : Nat → Nat) (made : Nat)
    (gone : List Nat) : Prop where
  nodup : all.Nodup
  counted : ∀ o, owners o = holders refs all o
  known : ∀ holder o, refs holder = some o → holder ∈ all ∧ o < made
  gone : ∀ o, gone.count o = if o < made ∧ holders refs all o = 0 then 1 else 0

namespace Owned

omit [DecidableEq Holder] in
theorem empty (nodup : all.Nodup) : Owned all (fun _ => none) (fun _ => 0) 0 [] := by
  refine ⟨nodup, fun o => ?_, nofun, fun o => ?_⟩
  · simp [holders]
  · simp

omit [DecidableEq Holder] in
theorem held (owned : Owned all refs owners made gone) (ref : refs holder = some o) :
    0 < holders refs all o :=
  holders_pos.mpr ⟨holder, (owned.known holder o ref).1, ref⟩

omit [DecidableEq Holder] in
/-- What a holder refers to was not dropped. -/
theorem kept (owned : Owned all refs owners made gone) (ref : refs holder = some o) :
    o ∉ gone := by
  intro member
  have positive := List.count_pos_iff.mpr member
  have held := owned.held ref
  rw [owned.gone, if_neg (by omega)] at positive
  exact Nat.lt_irrefl 0 positive

/-- A holder changes to an object that is referred to, or to none. -/
theorem retarget (owned : Owned all refs owners made gone) (member : holder ∈ all)
    (alive : ∀ o, next = some o → 0 < holders refs all o) :
    Owned all (Function.update refs holder next) (release (retain owners next) (refs holder)) made
      (gone ++ dropped (retain owners next) (refs holder)) := by
  obtain ⟨nodup, counted, known, dropping⟩ := owned
  have moved : ∀ o, holders (Function.update refs holder next) all o +
      (if refs holder = some o then 1 else 0) =
        holders refs all o + if next = some o then 1 else 0 := fun o => holders_update nodup member
  have retained : ∀ o, retain owners next o = owners o + if next = some o then 1 else 0 := by
    intro o
    cases next with
    | none => rfl
    | some n =>
        by_cases same : o = n
        · subst same
          simp [retain]
        · simp [retain, Function.update_of_ne same, Ne.symm same]
  have before : ∀ o, refs holder = some o → 0 < holders refs all o := fun o ref =>
    holders_pos.mpr ⟨holder, member, ref⟩
  have released : ∀ o, release (retain owners next) (refs holder) o +
      (if refs holder = some o then 1 else 0) = retain owners next o := by
    intro o
    cases ref : refs holder with
    | none => rfl
    | some n =>
        by_cases same : o = n
        · subst same
          have positive := before o ref
          have count := counted o
          have one := retained o
          simp only [release, Function.update_self, if_true]
          omega
        · simp [release, Function.update_of_ne same, Ne.symm same]
  have exact_ : ∀ o, release (retain owners next) (refs holder) o =
      holders (Function.update refs holder next) all o := by
    intro o
    have one := moved o
    have two := retained o
    have three := released o
    have four := counted o
    omega
  refine ⟨nodup, exact_, fun other o ref => ?_, fun o => ?_⟩
  · by_cases same : other = holder
    · subst same
      rw [Function.update_self] at ref
      obtain ⟨source, inside, from_⟩ := holders_pos.mp (alive o ref)
      exact ⟨member, (known source o from_).2⟩
    · rw [Function.update_of_ne same] at ref
      exact known other o ref
  · have drops : (dropped (retain owners next) (refs holder)).count o =
        if refs holder = some o ∧ holders (Function.update refs holder next) all o = 0
        then 1 else 0 := by
      have now := exact_ o
      cases ref : refs holder with
      | none => simp [dropped]
      | some n =>
          rw [ref] at now
          by_cases same : o = n
          · subst same
            simp only [release, Function.update_self] at now
            simp only [dropped, now, true_and]
            split <;> simp
          · have other : ¬ (some n = some o) := fun equal => same (Option.some.inj equal).symm
            simp only [dropped, other, false_and, if_false]
            split <;> simp [Ne.symm same]
    rw [List.count_append, dropping, drops]
    have one := moved o
    by_cases ref : refs holder = some o
    · have positive := before o ref
      have made := (known holder o ref).2
      simp only [ref, true_and, made]
      rw [if_neg (by omega), Nat.zero_add]
    · simp only [ref, false_and, if_false, Nat.add_zero] at one ⊢
      by_cases want : next = some o
      · have positive := alive o want
        rw [if_neg (by omega), if_neg (by omega)]
      · rw [if_neg want] at one
        rw [one, Nat.add_zero]

/-- A holder lets go. -/
theorem drop (owned : Owned all refs owners made gone) (member : holder ∈ all) :
    Owned all (Function.update refs holder none) (release owners (refs holder)) made
      (gone ++ dropped owners (refs holder)) := by
  exact owned.retarget member nofun

/-- A holder gets a new object, and an heir what it referred to. -/
theorem make (owned : Owned all refs owners made gone) (member : holder ∈ all)
    (inherits : heir ∈ all) (other : heir ≠ holder) (free : refs heir = none) :
    Owned all (Function.update (Function.update refs holder (some made)) heir (refs holder))
      (Function.update owners made 1) (made + 1) gone := by
  obtain ⟨nodup, counted, known, dropping⟩ := owned
  have fresh : holders refs all made = 0 := by
    refine Nat.eq_zero_of_not_pos fun positive => ?_
    obtain ⟨source, _, ref⟩ := holders_pos.mp positive
    exact Nat.lt_irrefl _ (known source made ref).2
  have moved : ∀ o, holders (Function.update (Function.update refs holder (some made)) heir
      (refs holder)) all o = if o = made then 1 else holders refs all o := by
    intro o
    have first : holders (Function.update refs holder (some made)) all o +
        (if refs holder = some o then 1 else 0) =
          holders refs all o + if some made = some o then 1 else 0 := holders_update nodup member
    have second : holders (Function.update (Function.update refs holder (some made)) heir
        (refs holder)) all o +
        (if Function.update refs holder (some made) heir = some o then 1 else 0) =
          holders (Function.update refs holder (some made)) all o +
            if refs holder = some o then 1 else 0 := holders_update nodup inherits
    rw [Function.update_of_ne other, free, if_neg (by simp), Nat.add_zero] at second
    by_cases same : o = made
    · subst same
      rw [if_pos rfl] at first ⊢
      omega
    · rw [if_neg fun equal => same (Option.some.inj equal).symm] at first
      rw [if_neg same]
      omega
  refine ⟨nodup, fun o => ?_, fun source o ref => ?_, fun o => ?_⟩
  · rw [moved]
    by_cases same : o = made
    · rw [same, Function.update_self, if_pos rfl]
    · rw [Function.update_of_ne same, if_neg same]
      exact counted o
  · by_cases same : source = heir
    · subst same
      rw [Function.update_self] at ref
      exact ⟨inherits, Nat.lt_succ_of_lt (known holder o ref).2⟩
    · rw [Function.update_of_ne same] at ref
      by_cases also : source = holder
      · subst also
        rw [Function.update_self] at ref
        cases ref
        exact ⟨member, Nat.lt_succ_self _⟩
      · rw [Function.update_of_ne also] at ref
        obtain ⟨inside, below⟩ := known source o ref
        exact ⟨inside, Nat.lt_succ_of_lt below⟩
  · rw [moved, dropping]
    by_cases same : o = made
    · subst same
      simp
    · rw [if_neg same]
      have bound : o < made + 1 ↔ o < made := by omega
      simp only [bound]

omit [DecidableEq Holder] in
/-- Holders that refer to nothing may be added. -/
theorem grow (owned : Owned all refs owners made gone) (nodup : more.Nodup)
    (perm : more.Perm (holder :: all)) (free : refs holder = none) :
    Owned more refs owners made gone := by
  have same : ∀ o, holders refs more o = holders refs all o := by
    intro o
    rw [holders, perm.countP_eq, List.countP_cons, free]
    simp [holders]
  refine ⟨nodup, fun o => ?_, fun source o ref => ?_, fun o => ?_⟩
  · rw [same]
    exact owned.counted o
  · obtain ⟨inside, below⟩ := owned.known source o ref
    exact ⟨perm.mem_iff.mpr (List.mem_cons_of_mem _ inside), below⟩
  · rw [same]
    exact owned.gone o

end Owned

end References

end LvglAic
