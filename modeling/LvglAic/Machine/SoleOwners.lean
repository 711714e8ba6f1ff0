import LvglAic.Machine.Index

/-! # Things with one owner

Owners hold live things, and no thing has two owners.  A thing that is made has one
owner, a thing may pass from an owner to another, and an owner may drop what it holds.
-/

namespace LvglAic

structure SoleOwners {Owner Thing : Type*} (live : List Thing) (own : Owner → List Thing) :
    Prop where
  living : ∀ owner, ∀ thing ∈ own owner, thing ∈ live
  once : ∀ owner, (own owner).Nodup
  apart : ∀ owner other, owner ≠ other → List.Disjoint (own owner) (own other)

namespace SoleOwners

variable {Owner Thing : Type*} {live left : List Thing} {own next : Owner → List Thing}
  {thing : Thing} {owner other : Owner}

/-- Any owner but one holds less than before, and that one only what nobody else holds. -/
theorem of_owner (sole : SoleOwners live own)
    (rest : ∀ o, o ≠ owner → next o = own o) (once : (next owner).Nodup)
    (apart : ∀ o, o ≠ owner → List.Disjoint (next owner) (own o))
    (living : ∀ t ∈ next owner, t ∈ left)
    (kept : ∀ o, o ≠ owner → ∀ t ∈ own o, t ∈ left) : SoleOwners left next where
  living := by
    intro o t member
    by_cases same : o = owner
    · subst same
      exact living t member
    · rw [rest o same] at member
      exact kept o same t member
  once := by
    intro o
    by_cases same : o = owner
    · subst same
      exact once
    · rw [rest o same]
      exact sole.once o
  apart := by
    intro o p differ
    by_cases first : o = owner
    · subst first
      rw [rest p differ.symm]
      exact apart p differ.symm
    · rw [rest o first]
      by_cases second : p = owner
      · subst second
        exact (apart o first).symm
      · rw [rest p second]
        exact sole.apart o p differ

/-- A thing that was not live has its first owner. -/
theorem make (sole : SoleOwners live own) (fresh : thing ∉ live)
    (rest : ∀ o, o ≠ owner → next o = own o) (gets : next owner = thing :: own owner) :
    SoleOwners (thing :: live) next := by
  have unheld : ∀ o, thing ∉ own o := fun o member => fresh (sole.living o thing member)
  refine sole.of_owner rest ?_ ?_ ?_ ?_
  · rw [gets]
    exact List.nodup_cons.mpr ⟨unheld owner, sole.once owner⟩
  · intro o differ
    rw [gets]
    exact List.disjoint_cons_left.mpr ⟨unheld o, sole.apart owner o differ.symm⟩
  · intro t member
    rw [gets] at member
    rcases List.mem_cons.mp member with rfl | before
    · exact List.mem_cons_self
    · exact List.mem_cons_of_mem _ (sole.living owner t before)
  · exact fun o _ t member => List.mem_cons_of_mem _ (sole.living o t member)

/-- An owner drops what it holds, and nobody else does. -/
theorem drop (sole : SoleOwners live own) (rest : ∀ o, o ≠ owner → next o = own o)
    (less : (next owner).Sublist (own owner))
    (kept : ∀ t ∈ live, t ∈ next owner ∨ t ∉ own owner → t ∈ left) : SoleOwners left next := by
  refine sole.of_owner rest ((sole.once owner).sublist less) ?_ ?_ ?_
  · intro o differ t mine theirs
    exact sole.apart owner o differ.symm (less.subset mine) theirs
  · intro t member
    exact kept t (sole.living owner t (less.subset member)) (.inl member)
  · intro o differ t member
    exact kept t (sole.living o t member)
      (.inr fun mine => sole.apart owner o differ.symm mine member)

/-- What two owners hold is shared out anew between them. -/
theorem pass (sole : SoleOwners live own) (differ : owner ≠ other)
    (rest : ∀ o, o ≠ owner → o ≠ other → next o = own o)
    (same : (next owner ++ next other).Perm (own owner ++ own other)) :
    SoleOwners live next := by
  have both : (own owner ++ own other).Nodup :=
    List.nodup_append.mpr ⟨sole.once owner, sole.once other, fun a mine b theirs equal =>
      sole.apart owner other differ mine (equal ▸ theirs)⟩
  obtain ⟨onceOwner, onceOther, disjoint⟩ := List.nodup_append.mp (same.nodup_iff.mpr both)
  have among : ∀ o, o = owner ∨ o = other → ∀ t ∈ next o, t ∈ own owner ∨ t ∈ own other := by
    intro o one t member
    apply List.mem_append.mp
    apply same.subset
    rcases one with rfl | rfl
    · exact List.mem_append_left _ member
    · exact List.mem_append_right _ member
  have outside : ∀ o p, o = owner ∨ o = other → p ≠ owner → p ≠ other →
      List.Disjoint (next o) (own p) := by
    intro o p one first second t member theirs
    rcases among o one t member with mine | mine
    · exact sole.apart owner p first.symm mine theirs
    · exact sole.apart other p second.symm mine theirs
  have split : ∀ o, (o = owner ∨ o = other) ∨ (o ≠ owner ∧ o ≠ other) := by
    intro o
    tauto
  refine ⟨?_, ?_, ?_⟩
  · intro o t member
    rcases split o with one | ⟨first, second⟩
    · rcases among o one t member with mine | mine
      · exact sole.living owner t mine
      · exact sole.living other t mine
    · rw [rest o first second] at member
      exact sole.living o t member
  · intro o
    rcases split o with (rfl | rfl) | ⟨first, second⟩
    · exact onceOwner
    · exact onceOther
    · rw [rest o first second]
      exact sole.once o
  · intro o p apart
    rcases split o with one | ⟨first, second⟩
    · rcases split p with two | ⟨first, second⟩
      · have crossed : List.Disjoint (next owner) (next other) :=
          fun t mine theirs => disjoint t mine t theirs rfl
        rcases one with rfl | rfl <;> rcases two with rfl | rfl
        · exact absurd rfl apart
        · exact crossed
        · exact crossed.symm
        · exact absurd rfl apart
      · rw [rest p first second]
        exact outside o p one first second
    · rw [rest o first second]
      rcases split p with two | ⟨third, fourth⟩
      · exact (outside p o two first second).symm
      · rw [rest p third fourth]
        exact sole.apart o p apart

end SoleOwners

end LvglAic
