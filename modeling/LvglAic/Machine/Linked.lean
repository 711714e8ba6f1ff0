import Mathlib

/-! # Doubly linked lists

The links of the members are functions, of which only the values at the members count.
`order` is the list from its oldest to its newest member.
-/

namespace LvglAic.Machine

variable {α : Type*}

/-- Every member is linked to its neighbours, and the ends of the list are known. -/
structure Linked (older newer : α → Option α) (oldest newest : Option α) (order : List α) :
    Prop where
  distinct : order.Nodup
  first : oldest = order.head?
  last : newest = order.getLast?
  links : ∀ before a after, order = before ++ a :: after →
    older a = before.getLast? ∧ newer a = after.head?

namespace Linked

variable {older newer nextOlder nextNewer : α → Option α} {oldest newest : Option α}
  {order before after : List α} {a b : α}

theorem nil (older newer : α → Option α) : Linked older newer none none [] :=
  ⟨List.nodup_nil, rfl, rfl, fun before a after split => by simp at split⟩

theorem congr (linked : Linked older newer oldest newest order)
    (sameOlder : ∀ b ∈ order, nextOlder b = older b)
    (sameNewer : ∀ b ∈ order, nextNewer b = newer b) :
    Linked nextOlder nextNewer oldest newest order := by
  refine ⟨linked.distinct, linked.first, linked.last, fun before a after split => ?_⟩
  have member : a ∈ order := split ▸ List.mem_append_right _ List.mem_cons_self
  rw [sameOlder a member, sameNewer a member]
  exact linked.links before a after split

/-- A place in a list without one of its members is a place before or after that member. -/
theorem split_append {front back : List α} (split : before ++ after = front ++ b :: back) :
    (∃ middle, before = front ++ b :: middle ∧ back = middle ++ after) ∨
      ∃ middle, front = before ++ middle ∧ after = middle ++ b :: back := by
  rcases List.append_eq_append_iff.mp split with ⟨middle, rfl, placed⟩ | ⟨extra, rfl, placed⟩
  · exact .inr ⟨middle, rfl, placed⟩
  · cases extra with
    | nil => exact .inr ⟨[], by simp, by simpa using placed.symm⟩
    | cons c middle =>
        obtain ⟨rfl, rest⟩ := List.cons.inj placed
        exact .inl ⟨middle, rfl, rest⟩

theorem before_ne (distinct : (before ++ a :: after).Nodup) (member : b ∈ before) : b ≠ a := by
  intro same
  exact (List.nodup_append.mp distinct).2.2 b member a List.mem_cons_self same

theorem after_ne (distinct : (before ++ a :: after).Nodup) (member : b ∈ after) : b ≠ a := by
  intro same
  exact (List.nodup_cons.mp (List.nodup_append.mp distinct).2.1).1 (same ▸ member)

theorem getLast?_cons_concat (a c : α) (rest : List α) :
    (a :: (rest ++ [c])).getLast? = some c := by
  rw [← List.cons_append]
  exact List.getLast?_concat

variable [DecidableEq α]

/-- The neighbours of a member that leaves are linked to each other. -/
theorem unlink (linked : Linked older newer oldest newest (before ++ a :: after))
    (olders : ∀ b ∈ before ++ after, nextOlder b = if newer a = some b then older a else older b)
    (newers : ∀ b ∈ before ++ after, nextNewer b = if older a = some b then newer a else newer b) :
    Linked nextOlder nextNewer (if (older a).isSome then oldest else newer a)
      (if (newer a).isSome then newest else older a) (before ++ after) := by
  obtain ⟨olderA, newerA⟩ := linked.links before a after rfl
  have distinct := linked.distinct
  have apart := List.nodup_append.mp distinct
  rw [newerA] at olders ⊢
  rw [olderA] at newers ⊢
  simp only [newerA, olderA] at olders newers
  refine ⟨distinct.sublist ((List.sublist_cons_self a after).append_left before), ?_, ?_, ?_⟩
  · rw [linked.first]
    cases before <;> simp
  · rw [linked.last]
    cases after using List.reverseRecOn with
    | nil => simp
    | append_singleton rest c => simp [getLast?_cons_concat]
  · intro front b back split
    have member : b ∈ before ++ after := split ▸ List.mem_append_right _ List.mem_cons_self
    rw [olders b member, newers b member]
    rcases split_append split with ⟨middle, rfl, rfl⟩ | ⟨middle, rfl, rfl⟩
    · have placed := linked.links front b (middle ++ a :: after) (by simp)
      have later : after.head? ≠ some b := by
        intro same
        have early : b ∈ front ++ b :: middle := List.mem_append_right _ List.mem_cons_self
        have late := List.mem_cons_of_mem a (List.mem_of_mem_head? same)
        exact apart.2.2 b early b late rfl
      rw [if_neg later]
      refine ⟨placed.1, ?_⟩
      cases middle using List.reverseRecOn with
      | nil => rw [if_pos (by simp), List.nil_append]
      | append_singleton middle c =>
          have other : c ≠ b := by
            rintro rfl
            have twice := (List.nodup_append.mp (List.nodup_append.mp distinct).1).2.1
            exact (List.nodup_cons.mp twice).1 (List.mem_append_right _ List.mem_cons_self)
          rw [if_neg (by simpa [getLast?_cons_concat] using other), placed.2]
          cases middle <;> simp
    · have placed := linked.links (before ++ a :: middle) b back (by simp)
      have earlier : before.getLast? ≠ some b := by
        intro same
        have late : b ∈ a :: (middle ++ b :: back) :=
          List.mem_cons_of_mem a (List.mem_append_right _ List.mem_cons_self)
        exact apart.2.2 b (List.mem_of_getLast? same) b late rfl
      rw [if_neg earlier]
      refine ⟨?_, placed.2⟩
      cases middle with
      | nil => rw [if_pos (by simp), List.append_nil]
      | cons c middle =>
          have other : c ≠ b := by
            rintro rfl
            have twice := (List.nodup_cons.mp apart.2.1).2
            exact (List.nodup_cons.mp twice).1 (List.mem_append_right _ List.mem_cons_self)
          rw [if_neg (by simpa using other), placed.1]
          cases middle using List.reverseRecOn <;> simp

/-- A new member is linked to the one that was newest. -/
theorem push (linked : Linked older newer oldest newest order) (fresh : a ∉ order)
    (olderA : nextOlder a = newest) (newerA : nextNewer a = none)
    (olders : ∀ b ∈ order, nextOlder b = older b)
    (newers : ∀ b ∈ order, nextNewer b = if newest = some b then some a else newer b) :
    Linked nextOlder nextNewer (if newest.isSome then oldest else some a) (some a)
      (order ++ [a]) := by
  have last := linked.last
  refine ⟨?_, ?_, by simp, ?_⟩
  · refine List.nodup_append.mpr ⟨linked.distinct, List.nodup_singleton a, fun b member c single => ?_⟩
    rw [List.mem_singleton.mp single]
    rintro rfl
    exact fresh member
  · rw [linked.first, last]
    cases order <;> simp
  · intro front b back split
    rcases split_append split with ⟨middle, rfl, rfl⟩ | ⟨middle, rfl, placed⟩
    · have member : b ∈ front ++ b :: middle := List.mem_append_right _ List.mem_cons_self
      rw [olders b member, newers b member]
      have links := linked.links front b middle rfl
      refine ⟨links.1, ?_⟩
      rw [last]
      cases middle using List.reverseRecOn with
      | nil => simp
      | append_singleton middle c =>
          have other : c ≠ b := by
            rintro rfl
            have twice := (List.nodup_append.mp linked.distinct).2.1
            exact (List.nodup_cons.mp twice).1 (List.mem_append_right _ List.mem_cons_self)
          rw [if_neg (by simpa [getLast?_cons_concat] using other), links.2]
          cases middle <;> simp
    · cases middle with
      | nil =>
          obtain ⟨rfl, rfl⟩ := List.cons.inj placed
          rw [olderA, newerA, last, List.append_nil]
          exact ⟨rfl, rfl⟩
      | cons c middle => simp at placed

end Linked

end LvglAic.Machine
