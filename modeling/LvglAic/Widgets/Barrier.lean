import LvglAic.Widgets.Player

/-! # The publication barrier of a group

`Roll` is what the groups are about: who is a member, who has presented and who
is rendered.  `Barrier` is what an observer of the events knows of one group.
-/

namespace LvglAic.Widgets

structure Roll where
  group : Nat → Option Nat
  presented : Nat → Bool
  rendered : Nat → Bool
  members : Nat → List Nat

namespace Roll

/-- No member of the group has presented. -/
def reset (r : Roll) (g : Nat) : Roll :=
  { r with presented := fun p => if p ∈ r.members g then false else r.presented p }

/-- The player leaves its group, whose round restarts. -/
def leave (r : Roll) (p : Nat) : Roll :=
  match r.group p with
  | none => { r with presented := Function.update r.presented p false }
  | some g =>
      let left := { r with members := Function.update r.members g ((r.members g).erase p) }
      { left.reset g with
        group := Function.update r.group p none
        presented := Function.update (left.reset g).presented p false }

/-- The player joins a group, whose round restarts. -/
def join (r : Roll) (p g : Nat) : Roll :=
  let joined := { r with
    group := Function.update r.group p (some g)
    members := Function.update r.members g (p :: r.members g) }
  joined.reset g

/-- The player has presented. -/
def attend (r : Roll) (p : Nat) : Roll :=
  { r with presented := Function.update r.presented p true }

def render (r : Roll) (p : Nat) (enabled : Bool) : Roll :=
  { r with rendered := Function.update r.rendered p enabled }

def empty : Roll where
  group := fun _ => none
  presented := fun _ => false
  rendered := fun _ => true
  members := fun _ => []

/-- Members of a group are exactly the players that are in it, each once. -/
structure Enrolled (r : Roll) : Prop where
  member : ∀ g p, p ∈ r.members g ↔ r.group p = some g
  nodup : ∀ g, (r.members g).Nodup

end Roll

/-- What the events tell of one group: its members, who has presented in the round,
the rounds that restarted by themselves and the frames that each player published
since the last reset of another cause, the frames of the round, who is rendered
and who was not at some time since that reset. -/
structure Barrier where
  members : List Nat
  presented : Nat → Bool
  rounds : Nat
  published : Nat → Nat
  turns : Nat → Nat
  rendered : Nat → Bool
  lapsed : Nat → Bool

namespace Barrier

def start : Barrier where
  members := []
  presented := fun _ => false
  rounds := 0
  published := fun _ => 0
  turns := fun _ => 0
  rendered := fun _ => true
  lapsed := fun _ => false

def step (g : Nat) (o : Barrier) : PlayerEvent → Barrier
  | .joined p h => if h = g then { o with members := p :: o.members } else o
  | .left p h => if h = g then { o with members := o.members.erase p } else o
  | .reset h =>
      if h = g then
        { o with
          presented := fun _ => false
          rounds := 0
          published := fun _ => 0
          turns := fun _ => 0
          lapsed := fun p => !o.rendered p }
      else o
  | .round h =>
      if h = g then
        { o with
          presented := fun _ => false
          rounds := o.rounds + 1
          turns := fun _ => 0 }
      else o
  | .rendered p enabled =>
      { o with
        rendered := Function.update o.rendered p enabled
        lapsed := Function.update o.lapsed p (o.lapsed p || !enabled) }
  | .published p =>
      { o with
        published := Function.update o.published p (o.published p + 1)
        turns := Function.update o.turns p (o.turns p + 1) }
  | .presented p => { o with presented := Function.update o.presented p true }
  | .prepared _ _ | .allocated _ | .consumed _ | .destroyed _ | .changed _ => o

end Barrier

def barrier (g : Nat) (trace : List PlayerEvent) : Barrier :=
  trace.foldl (Barrier.step g) .start

theorem barrier_snoc : barrier g (trace ++ [event]) = (barrier g trace).step g event := by
  rw [barrier, List.foldl_append]
  rfl

/-- The events that an observer of a group takes notice of. -/
def PlayerEvent.grouping : PlayerEvent → Bool
  | .prepared _ _ | .allocated _ | .consumed _ | .destroyed _ | .changed _ => false
  | _ => true

theorem barrier_aside (aside : ∀ event ∈ events, PlayerEvent.grouping event = false) :
    barrier g (trace ++ events) = barrier g trace := by
  induction events generalizing trace with
  | nil => rw [List.append_nil]
  | cons event rest ih =>
      have first := aside event (by simp)
      rw [← List.singleton_append, ← List.append_assoc,
        ih fun event member => aside event (List.mem_cons_of_mem _ member), barrier_snoc]
      cases event <;> first | rfl | cases first

/-- The observer of a group knows its members, and members that are rendered all
along have published one frame a round. -/
structure Tracks (o : Barrier) (r : Roll) (g : Nat) : Prop where
  members : o.members = r.members g
  presented : ∀ p ∈ r.members g, o.presented p = r.presented p
  rendered : ∀ p, o.rendered p = r.rendered p
  steady : ∀ p, o.lapsed p = false → o.rendered p = true
  published : ∀ p ∈ r.members g, o.lapsed p = false →
    o.published p = o.rounds + (r.presented p).toNat
  turns : ∀ p ∈ r.members g, o.turns p ≤ (r.presented p).toNat

/-- Every round so far restarted with all members present. -/
def Complete (g : Nat) (trace : List PlayerEvent) : Prop :=
  ∀ before after, trace = before ++ .round g :: after →
    ∀ p ∈ (barrier g before).members, (barrier g before).presented p = true

structure Lockstep (trace : List PlayerEvent) (r : Roll) : Prop where
  enrolled : r.Enrolled
  tracks : ∀ g, Tracks (barrier g trace) r g
  complete : ∀ g, Complete g trace

theorem Complete.snoc {event : PlayerEvent} (complete : Complete g trace)
    (present : event = .round g →
      ∀ p ∈ (barrier g trace).members, (barrier g trace).presented p = true) :
    Complete g (trace ++ [event]) := by
  intro before after same
  rcases List.eq_nil_or_concat after with rfl | ⟨rest, last, rfl⟩
  · obtain ⟨rfl, last⟩ := List.append_inj' same rfl
    exact present (by simpa using last)
  · rw [List.concat_eq_append, ← List.cons_append, ← List.append_assoc] at same
    obtain ⟨early, _⟩ := List.append_inj' same rfl
    exact complete before rest early

namespace Lockstep

variable {trace : List PlayerEvent} {r : Roll} {p q g h : Nat}

theorem empty : Lockstep [] .empty := by
  refine ⟨⟨fun g p => by simp [Roll.empty], fun g => by simp [Roll.empty]⟩, fun g => ?_, ?_⟩
  · refine ⟨rfl, ?_, fun p => rfl, fun p _ => rfl, ?_, ?_⟩ <;> intro p member <;> cases member
  · intro g before after same
    simp at same

/-- An event that no observer of a group notices. -/
theorem aside (lockstep : Lockstep trace r)
    (aside : ∀ event ∈ events, PlayerEvent.grouping event = false) :
    Lockstep (trace ++ events) r := by
  obtain ⟨enrolled, tracks, complete⟩ := lockstep
  refine ⟨enrolled, fun g => ?_, fun g => ?_⟩
  · rw [barrier_aside aside]
    exact tracks g
  · induction events generalizing trace with
    | nil => simpa using complete g
    | cons event rest ih =>
        have first := aside event (by simp)
        have later := fun event member => aside event (List.mem_cons_of_mem _ member)
        rw [← List.singleton_append, ← List.append_assoc]
        refine ih later (fun g => ?_) fun g => (complete g).snoc fun same => ?_
        · rw [barrier_aside fun event member => by
            rw [List.mem_singleton.mp member]
            exact first]
          exact tracks g
        · rw [same] at first
          cases first

theorem apart (lockstep : Lockstep trace r) (member : p ∈ r.members g) (other : h ≠ g) :
    p ∉ r.members h := by
  intro also
  have one := (lockstep.enrolled.member g p).mp member
  rw [(lockstep.enrolled.member h p).mp also] at one
  exact other (Option.some.inj one)

/-- The presence that a reset of one group leaves. -/
theorem reset_tracks (lockstep : Lockstep trace r) (other : g ≠ h) :
    Tracks (barrier h trace) (r.reset g) h := by
  obtain ⟨members, presented, rendered, steady, published, turns⟩ := lockstep.tracks h
  have kept : ∀ p ∈ r.members h, (r.reset g).presented p = r.presented p := fun p member =>
    if_neg (lockstep.apart member other)
  refine ⟨members, fun p member => ?_, rendered, steady, fun p member => ?_, fun p member => ?_⟩
  · rw [kept p member]
    exact presented p member
  · rw [kept p member]
    exact published p member
  · rw [kept p member]
    exact turns p member

/-- The round of a group restarts for another cause. -/
theorem reset (lockstep : Lockstep trace r) : Lockstep (trace ++ [.reset g]) (r.reset g) := by
  refine ⟨⟨lockstep.enrolled.member, lockstep.enrolled.nodup⟩, fun h => ?_,
    fun h => (lockstep.complete h).snoc nofun⟩
  rw [barrier_snoc]
  by_cases same : g = h
  · subst same
    obtain ⟨members, presented, rendered, steady, published, turns⟩ := lockstep.tracks g
    have cleared : ∀ p ∈ r.members g, (r.reset g).presented p = false := fun p member =>
      if_pos member
    simp only [Barrier.step, if_true]
    refine ⟨members, fun p member => (cleared p member).symm, rendered, fun p lapsed => ?_,
      fun p member _ => ?_, fun p _ => Nat.zero_le _⟩
    · simpa using lapsed
    · rw [cleared p member]
      rfl
  · simp only [Barrier.step, if_neg same]
    exact lockstep.reset_tracks same

/-- The round restarts by itself once every member has presented. -/
theorem round (lockstep : Lockstep trace r) (all : ∀ p ∈ r.members g, r.presented p = true) :
    Lockstep (trace ++ [.round g]) (r.reset g) := by
  refine ⟨⟨lockstep.enrolled.member, lockstep.enrolled.nodup⟩, fun h => ?_,
    fun h => (lockstep.complete h).snoc fun same => ?_⟩
  · rw [barrier_snoc]
    by_cases same : g = h
    · subst same
      obtain ⟨members, presented, rendered, steady, published, turns⟩ := lockstep.tracks g
      have cleared : ∀ p ∈ r.members g, (r.reset g).presented p = false := fun p member =>
        if_pos member
      simp only [Barrier.step, if_true]
      refine ⟨members, fun p member => (cleared p member).symm, rendered, steady,
        fun p member steadily => ?_, fun p _ => Nat.zero_le _⟩
      have before := published p member steadily
      rw [all p member] at before
      rw [cleared p member]
      exact before
    · simp only [Barrier.step, if_neg same]
      exact lockstep.reset_tracks same
  · cases same
    intro p member
    have tracks := lockstep.tracks g
    rw [tracks.members] at member
    rw [tracks.presented p member]
    exact all p member

theorem render (lockstep : Lockstep trace r) {enabled : Bool} :
    Lockstep (trace ++ [.rendered p enabled]) (r.render p enabled) := by
  refine ⟨⟨lockstep.enrolled.member, lockstep.enrolled.nodup⟩, fun g => ?_, fun g => (lockstep.complete g).snoc nofun⟩
  rw [barrier_snoc]
  obtain ⟨members, presented, rendered, steady, published, turns⟩ := lockstep.tracks g
  have before : ∀ q, Function.update (barrier g trace).lapsed p
      ((barrier g trace).lapsed p || !enabled) q = false → (barrier g trace).lapsed q = false := by
    intro q lapsed
    by_cases same : q = p
    · subst same
      rw [Function.update_self, Bool.or_eq_false_iff] at lapsed
      exact lapsed.1
    · rwa [Function.update_of_ne same] at lapsed
  refine ⟨members, presented, fun q => ?_, fun q lapsed => ?_, fun q member lapsed => ?_, turns⟩
  · by_cases same : q = p
    · subst same
      simp only [Barrier.step, Roll.render, Function.update_self]
    · simp only [Barrier.step, Roll.render, Function.update_of_ne same]
      exact rendered q
  · by_cases same : q = p
    · subst same
      simp only [Barrier.step, Function.update_self, Bool.or_eq_false_iff, Bool.not_eq_false'] at lapsed ⊢
      exact lapsed.2
    · simp only [Barrier.step, Function.update_of_ne same] at lapsed ⊢
      exact steady q lapsed
  · exact published q member (before q lapsed)

/-- A member that is not rendered presents without a frame. -/
theorem attend (lockstep : Lockstep trace r) (hidden : r.rendered p = false) :
    Lockstep (trace ++ [.presented p]) (r.attend p) := by
  refine ⟨⟨lockstep.enrolled.member, lockstep.enrolled.nodup⟩, fun g => ?_, fun g => (lockstep.complete g).snoc nofun⟩
  rw [barrier_snoc]
  obtain ⟨members, presented, rendered, steady, published, turns⟩ := lockstep.tracks g
  refine ⟨members, fun q member => ?_, rendered, steady, fun q member lapsed => ?_,
    fun q member => ?_⟩
  · by_cases same : q = p
    · subst same
      simp only [Barrier.step, Roll.attend, Function.update_self]
    · simp only [Barrier.step, Roll.attend, Function.update_of_ne same]
      exact presented q member
  · have other : q ≠ p := by
      intro same
      have shown := steady q lapsed
      rw [rendered q, same, hidden] at shown
      cases shown
    simp only [Roll.attend, Function.update_of_ne other]
    exact published q member lapsed
  · by_cases same : q = p
    · subst same
      have before := turns q member
      have one := Bool.toNat_le (r.presented q)
      simp only [Barrier.step, Roll.attend, Function.update_self, Bool.toNat_true]
      omega
    · simp only [Roll.attend, Function.update_of_ne same]
      exact turns q member

/-- A player that has not presented publishes its frame of the round. -/
theorem publish (lockstep : Lockstep trace r)
    (waits : ∀ g, r.group p = some g → r.presented p = false) :
    Lockstep (trace ++ [.published p] ++ [.presented p]) (r.attend p) := by
  refine ⟨⟨lockstep.enrolled.member, lockstep.enrolled.nodup⟩, fun g => ?_,
    fun g => ((lockstep.complete g).snoc (by nofun)).snoc (by nofun)⟩
  rw [barrier_snoc, barrier_snoc]
  obtain ⟨members, presented, rendered, steady, published, turns⟩ := lockstep.tracks g
  refine ⟨members, fun q member => ?_, rendered, steady, fun q member lapsed => ?_,
    fun q member => ?_⟩
  · by_cases same : q = p
    · subst same
      simp only [Barrier.step, Roll.attend, Function.update_self]
    · simp only [Barrier.step, Roll.attend, Function.update_of_ne same]
      exact presented q member
  · by_cases same : q = p
    · subst same
      have before := published q member lapsed
      rw [waits g ((lockstep.enrolled.member g q).mp member)] at before
      simp only [Barrier.step, Roll.attend, Function.update_self, Bool.toNat_true]
      exact congrArg (· + 1) before
    · simp only [Barrier.step, Roll.attend, Function.update_of_ne same]
      exact published q member lapsed
  · by_cases same : q = p
    · subst same
      have before := turns q member
      rw [waits g ((lockstep.enrolled.member g q).mp member)] at before
      simp only [Barrier.step, Roll.attend, Function.update_self, Bool.toNat_true]
      exact Nat.succ_le_succ before
    · simp only [Barrier.step, Roll.attend, Function.update_of_ne same]
      exact turns q member

/-- Members of a group of which nothing changes. -/
theorem tracks_other (lockstep : Lockstep trace r) {after : Roll}
    (members : after.members h = r.members h)
    (presented : ∀ p ∈ r.members h, after.presented p = r.presented p)
    (rendered : after.rendered = r.rendered) : Tracks (barrier h trace) after h := by
  obtain ⟨known, seen, shown, steady, published, turns⟩ := lockstep.tracks h
  refine ⟨known.trans members.symm, fun p member => ?_, fun p => by rw [rendered, shown], steady,
    fun p member => ?_, fun p member => ?_⟩
  all_goals
    rw [members] at member
    rw [presented p member]
  · exact seen p member
  · exact published p member
  · exact turns p member

/-- A group whose members all start anew. -/
theorem tracks_anew (lockstep : Lockstep trace r) {event : PlayerEvent} (members : List Nat)
    {after : Roll}
    (told : (barrier g trace).step g event = { barrier g trace with members := members })
    (enrolled : after.members g = members)
    (cleared : ∀ p ∈ members, after.presented p = false) (rendered : after.rendered = r.rendered) :
    Tracks (barrier g (trace ++ [event] ++ [.reset g])) after g := by
  obtain ⟨_, _, shown, _, _, _⟩ := lockstep.tracks g
  rw [barrier_snoc, barrier_snoc, told]
  simp only [Barrier.step, if_true]
  refine ⟨enrolled.symm, fun p member => ?_, fun p => by rw [rendered, ← shown], fun p lapsed => ?_,
    fun p member _ => ?_, fun p _ => Nat.zero_le _⟩
  · rw [cleared p (enrolled ▸ member)]
  · simpa using lapsed
  · rw [cleared p (enrolled ▸ member)]
    rfl

theorem leave (lockstep : Lockstep trace r) :
    Lockstep (trace ++ match r.group p with
      | none => []
      | some g => [.left p g, .reset g]) (r.leave p) := by
  obtain ⟨member, nodup⟩ := lockstep.enrolled
  unfold Roll.leave
  cases inside : r.group p with
  | none =>
      rw [List.append_nil]
      refine ⟨⟨member, nodup⟩, fun h => ?_, lockstep.complete⟩
      refine lockstep.tracks_other rfl (fun q inside' => ?_) rfl
      have other : q ≠ p := by
        intro same
        rw [member, same, inside] at inside'
        cases inside'
      exact Function.update_of_ne other ..
  | some g =>
      have split : trace ++ [.left p g, .reset g] = trace ++ [.left p g] ++ [.reset g] := by simp
      dsimp only
      rw [split]
      have erased : ∀ q, q ∈ (r.members g).erase p ↔ q ≠ p ∧ q ∈ r.members g :=
        fun q => (nodup g).mem_erase_iff
      refine ⟨⟨fun h q => ?_, fun h => ?_⟩, fun h => ?_,
        fun h => ((lockstep.complete h).snoc (by nofun)).snoc (by nofun)⟩
      · by_cases same : h = g <;> by_cases self : q = p
        · simp [Roll.reset, same, self, erased]
        · simp [Roll.reset, same, self, erased, member]
        · simp [Roll.reset, same, self, member, inside, Ne.symm same]
        · simp [Roll.reset, same, self, member]
      · by_cases same : h = g
        · subst same
          simp only [Roll.reset, Function.update_self]
          exact (nodup h).erase p
        · simp only [Roll.reset, Function.update_of_ne same]
          exact nodup h
      · by_cases same : h = g
        · subst same
          refine lockstep.tracks_anew ((r.members h).erase p) ?_ ?_ ?_ rfl
          · simp only [Barrier.step, if_true, (lockstep.tracks h).members]
          · simp only [Roll.reset, Function.update_self]
          · intro q remaining
            have other : q ≠ p := ((erased q).mp remaining).1
            simp only [Roll.reset, Function.update_of_ne other, Function.update_self, if_pos remaining]
        · rw [barrier_snoc, barrier_snoc]
          simp only [Barrier.step, if_neg (Ne.symm same)]
          refine lockstep.tracks_other ?_ (fun q inside' => ?_) rfl
          · simp only [Roll.reset, Function.update_of_ne same]
          · have other : q ≠ p := by
              rintro rfl
              rw [member, inside] at inside'
              exact same (Option.some.inj inside').symm
            have outside : q ∉ (r.members g).erase p := fun also =>
              lockstep.apart inside' (Ne.symm same) ((erased q).mp also).2
            simp only [Roll.reset, Function.update_of_ne other, Function.update_self,
              if_neg outside]

theorem join (lockstep : Lockstep trace r) (alone : r.group p = none) :
    Lockstep (trace ++ [.joined p g] ++ [.reset g]) (r.join p g) := by
  obtain ⟨member, nodup⟩ := lockstep.enrolled
  have outside : ∀ h, p ∉ r.members h := by
    intro h inside
    rw [member, alone] at inside
    cases inside
  refine ⟨⟨fun h q => ?_, fun h => ?_⟩, fun h => ?_,
    fun h => ((lockstep.complete h).snoc (by nofun)).snoc (by nofun)⟩
  · by_cases same : h = g <;> by_cases self : q = p
    · simp [Roll.join, Roll.reset, same, self]
    · simp [Roll.join, Roll.reset, same, self, member]
    · simp [Roll.join, Roll.reset, same, self, outside, Ne.symm same]
    · simp [Roll.join, Roll.reset, same, self, member]
  · by_cases same : h = g
    · subst same
      simp only [Roll.join, Roll.reset, Function.update_self]
      exact List.nodup_cons.mpr ⟨outside h, nodup h⟩
    · simp only [Roll.join, Roll.reset, Function.update_of_ne same]
      exact nodup h
  · by_cases same : h = g
    · subst same
      refine lockstep.tracks_anew (p :: r.members h) ?_ ?_ ?_ rfl
      · simp only [Barrier.step, if_true, (lockstep.tracks h).members]
      · simp only [Roll.join, Roll.reset, Function.update_self]
      · intro q inside
        simp only [Roll.join, Roll.reset, Function.update_self, if_pos inside]
    · rw [barrier_snoc, barrier_snoc]
      simp only [Barrier.step, if_neg (Ne.symm same)]
      refine lockstep.tracks_other ?_ (fun q inside => ?_) rfl
      · simp only [Roll.join, Roll.reset, Function.update_of_ne same]
      · have absent : q ∉ p :: r.members g := by
          rw [List.mem_cons]
          rintro (rfl | also)
          · exact outside h inside
          · exact lockstep.apart inside (Ne.symm same) also
        simp only [Roll.join, Roll.reset, Function.update_self, if_neg absent]

end Lockstep

end LvglAic.Widgets
