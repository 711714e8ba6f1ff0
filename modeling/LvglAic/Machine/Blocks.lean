import Mathlib

/-! # Programs over memory blocks

A program over a state either answers with a new state or goes wrong.  Giving a block back
that is not held goes wrong, so a program that ends has given nothing back twice.
-/

namespace LvglAic.Machine

abbrev Program (State Answer : Type) := StateT State Option Answer

variable {State Answer Next : Type} {s t : State}

/-- The program does not go wrong, and its answer and its last state are as told. -/
def Ends (p : Program State Answer) (s : State) (Post : Answer → State → Prop) : Prop :=
  ∃ answer t, p s = some (answer, t) ∧ Post answer t

namespace Program

def read (value : State → Answer) : Program State Answer := fun s => some (value s, s)

def write (change : State → State) : Program State Unit := fun s => some ((), change s)

end Program

namespace Ends

variable {p : Program State Answer} {next : Answer → Program State Next}
  {Mid Post : Answer → State → Prop} {Last : Next → State → Prop}

theorem pure {answer : Answer} (post : Post answer s) :
    Ends (Pure.pure answer : Program State Answer) s Post := ⟨answer, s, rfl, post⟩

theorem bind (first : Ends p s Mid) (second : ∀ answer t, Mid answer t → Ends (next answer) t Last) :
    Ends (p >>= next) s Last := by
  obtain ⟨answer, t, ran, mid⟩ := first
  obtain ⟨last, u, finished, post⟩ := second answer t mid
  refine ⟨last, u, ?_, post⟩
  change (p s).bind (fun r => next r.1 r.2) = _
  rw [ran]
  exact finished

/-- A program whose first step is known. -/
theorem step {answer : Answer} (ran : p s = some (answer, t)) (rest : Ends (next answer) t Last) :
    Ends (p >>= next) s Last := by
  obtain ⟨last, u, finished, post⟩ := rest
  refine ⟨last, u, ?_, post⟩
  change (p s).bind (fun r => next r.1 r.2) = _
  rw [ran]
  exact finished

theorem read {value : State → Answer} (post : Post (value s) s) :
    Ends (Program.read value) s Post := ⟨value s, s, rfl, post⟩

theorem write {change : State → State} {After : Unit → State → Prop} (post : After () (change s)) :
    Ends (Program.write change) s After := ⟨(), change s, rfl, post⟩

theorem mono (ends : Ends p s Mid) (weaker : ∀ answer t, Mid answer t → Post answer t) :
    Ends p s Post := by
  obtain ⟨answer, t, ran, mid⟩ := ends
  exact ⟨answer, t, ran, weaker answer t mid⟩

end Ends

/-! ## Blocks -/

/-- The blocks that are held, and a number that none of them has. -/
structure Heap where
  live : Multiset ℕ
  fresh : ℕ
  bounded : ∀ b ∈ live, b < fresh
  distinct : live.Nodup

namespace Heap

variable {h : Heap} {b : ℕ} {others : Multiset ℕ}

/-- A block of a new number, which is the number that was fresh. -/
def take (h : Heap) : Heap where
  live := h.fresh ::ₘ h.live
  fresh := h.fresh + 1
  bounded b member := by
    rcases Multiset.mem_cons.mp member with rfl | held
    · exact Nat.lt_succ_self _
    · exact Nat.lt_succ_of_lt (h.bounded b held)
  distinct := Multiset.nodup_cons.mpr ⟨fun held => Nat.lt_irrefl _ (h.bounded _ held), h.distinct⟩

def giveBack (h : Heap) (b : ℕ) : Option Heap :=
  if b ∈ h.live then
    some
      { live := h.live.erase b
        fresh := h.fresh
        bounded := fun other member => h.bounded other (Multiset.mem_of_mem_erase member)
        distinct := h.distinct.erase b }
  else none

theorem take_live (h : Heap) : h.take.live = h.live + {h.fresh} :=
  (Multiset.add_comm _ _).symm ▸ (Multiset.singleton_add _ _).symm

theorem giveBack_held (held : h.live = others + {b}) :
    ∃ next, h.giveBack b = some next ∧ next.live = others := by
  have member : b ∈ h.live := by
    rw [held]
    exact Multiset.mem_add.mpr (.inr (Multiset.mem_singleton_self b))
  refine ⟨_, if_pos member, ?_⟩
  change h.live.erase b = others
  rw [held, Multiset.add_comm, Multiset.singleton_add, Multiset.erase_cons_head]

end Heap

/-- The block of a pointer, which may be null. -/
def blockOf (pointer : Option ℕ) : Multiset ℕ := pointer.elim 0 fun b => {b}

@[simp]
theorem blockOf_none : blockOf none = 0 := rfl

@[simp]
theorem blockOf_some (b : ℕ) : blockOf (some b) = {b} := rfl

end LvglAic.Machine
