import LvglAic.Machine.Index

/-! # Machines driven by explicit actions

A component is a partial step function.  Every choice its environment makes
(an interleaving, the answer of a callee, a failure) is part of the action, so
a run is determined by its actions and can be evaluated.  A step emits the
events an observer of the component sees, and a run emits their concatenation.
-/

namespace LvglAic

structure Machine (State Action Event : Type*) where
  Initial : State → Prop
  step : State → Action → Option (State × List Event)

namespace Machine

variable {State Action Event : Type*} {machine : Machine State Action Event}
variable {Allowed Weaker : List Event → State → Action → Prop}
variable {trace : List Event} {state : State}

/-- What the environment may do in a run that carries no condition. -/
def Always (_ : List Event) (_ : State) (_ : Action) : Prop := True

/-- `Reaches machine Allowed trace state`: some run whose every action is
allowed after the events before it emits `trace` and ends in `state`. -/
inductive Reaches (machine : Machine State Action Event)
    (Allowed : List Event → State → Action → Prop) : List Event → State → Prop where
  | start {state : State} (initial : machine.Initial state) : Reaches machine Allowed [] state
  | step {trace events : List Event} {before after : State} {action : Action}
      (reached : Reaches machine Allowed trace before) (allowed : Allowed trace before action)
      (moved : machine.step before action = some (after, events)) :
      Reaches machine Allowed (trace ++ events) after

namespace Reaches

/-- The invariant rule: an initial property that every allowed step preserves
holds of every reached trace and state. -/
theorem invariant (Invariant : List Event → State → Prop)
    (reached : machine.Reaches Allowed trace state)
    (initial : ∀ state, machine.Initial state → Invariant [] state)
    (preserved : ∀ trace before action after events, Invariant trace before →
      Allowed trace before action → machine.step before action = some (after, events) →
      Invariant (trace ++ events) after) :
    Invariant trace state := by
  induction reached with
  | start begun => exact initial _ begun
  | step _ allowed moved ih => exact preserved _ _ _ _ _ ih allowed moved

theorem weaken (reached : machine.Reaches Allowed trace state)
    (weaker : ∀ trace state action, Allowed trace state action → Weaker trace state action) :
    machine.Reaches Weaker trace state := by
  induction reached with
  | start begun => exact .start begun
  | step _ allowed moved ih => exact .step ih (weaker _ _ _ allowed) moved

theorem always (reached : machine.Reaches Allowed trace state) :
    machine.Reaches Always trace state :=
  reached.weaken fun _ _ _ _ => trivial

/-- A run can be continued by any further run of allowed actions. -/
theorem extend {events : List Event} {after : State} {action : Action}
    (reached : machine.Reaches Always trace state)
    (moved : machine.step state action = some (after, events)) :
    machine.Reaches Always (trace ++ events) after :=
  .step reached trivial moved

end Reaches

/-- Evaluate a list of actions. -/
def execute (machine : Machine State Action Event) :
    State → List Action → Option (State × List Event)
  | state, [] => some (state, [])
  | state, action :: rest =>
      match machine.step state action with
      | none => none
      | some (next, events) =>
          match machine.execute next rest with
          | none => none
          | some (last, more) => some (last, events ++ more)

/-- Every step that the actions take from the state satisfies the predicate. -/
def everyStep (machine : Machine State Action Event) (Holds : State → Action → State → Prop) :
    State → List Action → Prop
  | _, [] => True
  | state, action :: rest => ∀ result, result ∈ machine.step state action →
      Holds state action result.1 ∧ machine.everyStep Holds result.1 rest

instance everyStep.decidable {Holds : State → Action → State → Prop}
    [∀ state action next, Decidable (Holds state action next)] :
    ∀ state actions, Decidable (machine.everyStep Holds state actions)
  | _, [] => isTrue trivial
  | state, action :: rest =>
      have : ∀ next, Decidable (machine.everyStep Holds next rest) :=
        fun next => everyStep.decidable next rest
      inferInstanceAs (Decidable (∀ result, result ∈ machine.step state action →
        Holds state action result.1 ∧ machine.everyStep Holds result.1 rest))

/-- Predicates that agree on the steps of invariant states agree on runs. -/
theorem everyStep_congr {Holds Other : State → Action → State → Prop} {actions : List Action}
    (Invariant : State → Prop) (begun : Invariant state)
    (preserved : ∀ state action next events, Invariant state →
      machine.step state action = some (next, events) → Invariant next)
    (agree : ∀ state action next events, Invariant state →
      machine.step state action = some (next, events) →
      (Holds state action next ↔ Other state action next)) :
    machine.everyStep Holds state actions ↔ machine.everyStep Other state actions := by
  induction actions generalizing state with
  | nil => exact Iff.rfl
  | cons action rest ih =>
      refine forall_congr' fun result => forall_congr' fun moved => ?_
      exact and_congr (agree state action result.1 result.2 begun moved)
        (ih (preserved state action result.1 result.2 begun moved))

/-- Every action of the list is allowed when its turn comes. -/
def conforms (machine : Machine State Action Event)
    (allowed : List Event → State → Action → Bool) : List Event → State → List Action → Bool
  | _, _, [] => true
  | trace, state, action :: rest =>
      allowed trace state action &&
        match machine.step state action with
        | none => true
        | some (next, events) => machine.conforms allowed (trace ++ events) next rest

theorem Reaches.conform {allowed : List Event → State → Action → Bool} {actions : List Action}
    {last : State} {events : List Event} (reached : machine.Reaches Allowed trace state)
    (sound : ∀ trace state action, allowed trace state action = true → Allowed trace state action)
    (conforming : machine.conforms allowed trace state actions = true)
    (executed : machine.execute state actions = some (last, events)) :
    machine.Reaches Allowed (trace ++ events) last := by
  induction actions generalizing trace state events with
  | nil =>
      simp only [Machine.execute, Option.some.injEq, Prod.mk.injEq] at executed
      obtain ⟨rfl, rfl⟩ := executed
      simpa using reached
  | cons action rest ih =>
      cases first : machine.step state action with
      | none => simp [Machine.execute, first] at executed
      | some result =>
          obtain ⟨next, emitted⟩ := result
          simp only [Machine.conforms, first, Bool.and_eq_true] at conforming
          cases remaining : machine.execute next rest with
          | none => simp [Machine.execute, first, remaining] at executed
          | some result =>
              obtain ⟨final, more⟩ := result
              simp only [Machine.execute, first, remaining, Option.some.injEq,
                Prod.mk.injEq] at executed
              obtain ⟨rfl, rfl⟩ := executed
              have stepped := Reaches.step reached (sound _ _ _ conforming.1) first
              simpa only [List.append_assoc] using ih stepped conforming.2 remaining

theorem conforms_always {actions : List Action} :
    machine.conforms (fun _ _ _ => true) trace state actions = true := by
  induction actions generalizing trace state with
  | nil => rfl
  | cons action rest ih =>
      simp only [conforms, Bool.true_and]
      split
      · rfl
      · exact ih

theorem Reaches.execute {actions : List Action} {last : State} {events : List Event}
    (reached : machine.Reaches Always trace state)
    (executed : machine.execute state actions = some (last, events)) :
    machine.Reaches Always (trace ++ events) last :=
  reached.conform (fun _ _ _ _ => trivial) conforms_always executed

end Machine

/-! ## Observers

An observer folds a trace into what it has established so far.  A per-event
guard that holds at every step of a component holds at every position of its
traces. -/

/-- Every event of the trace satisfies the guard for the events before it. -/
def Guarded {Event : Type*} (Guard : List Event → Event → Prop) (trace : List Event) : Prop :=
  ∀ before event after, trace = before ++ event :: after → Guard before event

namespace Guarded

variable {Event : Type*} {Guard Other : List Event → Event → Prop} {trace : List Event}

theorem nil : Guarded Guard [] := by
  intro before event after same
  simp at same

theorem snoc {event : Event} (guarded : Guarded Guard trace) (last : Guard trace event) :
    Guarded Guard (trace ++ [event]) := by
  intro before found after same
  rcases List.eq_nil_or_concat after with rfl | ⟨rest, final, rfl⟩
  · obtain ⟨rfl, tail⟩ := List.append_inj' same rfl
    obtain rfl := List.singleton_inj.mp tail
    exact last
  · have shorter : trace = before ++ found :: rest := by
      have regrouped : trace ++ [event] = (before ++ found :: rest) ++ [final] := by
        simpa only [List.append_assoc, List.cons_append, List.concat_eq_append] using same
      exact (List.append_inj' regrouped rfl).1
    exact guarded before found rest shorter

/-- `Continues Guard trace events`: each of the events may follow the trace and
the events in front of it. -/
def Continues (Guard : List Event → Event → Prop) : List Event → List Event → Prop
  | _, [] => True
  | trace, event :: rest => Guard trace event ∧ Continues Guard (trace ++ [event]) rest

instance Continues.decidable [∀ before event, Decidable (Guard before event)] :
    ∀ trace events, Decidable (Continues Guard trace events)
  | _, [] => isTrue trivial
  | trace, event :: rest =>
      have : Decidable (Continues Guard (trace ++ [event]) rest) := Continues.decidable _ rest
      inferInstanceAs (Decidable (_ ∧ _))

theorem append {events : List Event} (guarded : Guarded Guard trace)
    (continues : Continues Guard trace events) : Guarded Guard (trace ++ events) := by
  induction events generalizing trace with
  | nil => simpa using guarded
  | cons event rest ih =>
      simpa only [List.append_assoc, List.singleton_append] using
        ih (guarded.snoc continues.1) continues.2

/-- Events that every trace permits may follow any trace. -/
theorem Continues.plain {events : List Event}
    (plain : ∀ event ∈ events, ∀ before, Guard before event) : Continues Guard trace events := by
  induction events generalizing trace with
  | nil => trivial
  | cons event rest ih =>
      exact ⟨plain event List.mem_cons_self trace,
        ih fun other member => plain other (List.mem_cons_of_mem _ member)⟩

theorem Continues.left {events more : List Event}
    (continues : Continues Guard trace (events ++ more)) : Continues Guard trace events := by
  induction events generalizing trace with
  | nil => trivial
  | cons event rest ih => exact ⟨continues.1, ih continues.2⟩

theorem weaken (guarded : Guarded Guard trace)
    (weaker : ∀ before event, Guard before event → Other before event) :
    Guarded Other trace :=
  fun before event after same => weaker _ _ (guarded before event after same)

end Guarded

end LvglAic
