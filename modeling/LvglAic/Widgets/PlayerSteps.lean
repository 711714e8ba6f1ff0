import LvglAic.Widgets.Player

/-! # What the parts of a step leave alone -/

namespace LvglAic.Widgets

/-- A player but for its frame and for what refers to frames. -/
def Player.unframed (b : Player) : Player :=
  { b with
    frame := none
    source := none
    plane := false
    slaves := [] }

/-- An event about frames only. -/
def PlayerEvent.framing : PlayerEvent → Bool
  | .allocated _ | .destroyed _ => true
  | _ => false

namespace Players

variable {s t u : Players} {p q i f : Nat} {b : Player}

@[simp] theorem edit_player : (s.edit p change).player =
    Function.update s.player p (change (s.player p)) := rfl

theorem edit_player_self : (s.edit p change).player p = change (s.player p) :=
  Function.update_self ..

theorem edit_player_ne (other : q ≠ p) : (s.edit p change).player q = s.player q :=
  Function.update_of_ne other ..

/-- What a view sees of a player stays when it does not see the change. -/
theorem edit_view {View : Type*} (view : Player → View)
    (unseen : view (change (s.player p)) = view (s.player p)) (q : Nat) :
    view ((s.edit p change).player q) = view (s.player q) := by
  by_cases same : q = p
  · subst same
    rw [edit_player_self]
    exact unseen
  · rw [edit_player_ne same]

theorem groupReset_player {g : Option Nat} (event : Nat → PlayerEvent) :
    (s.groupReset g event).player q = s.player q ∨
      (s.groupReset g event).player q = { s.player q with groupPresented := false } := by
  cases g with
  | none => exact .inl rfl
  | some g =>
      unfold groupReset
      dsimp only
      split
      · exact .inr rfl
      · exact .inl rfl

/-- A view of players that does not see whether they have presented. -/
theorem groupReset_view {g : Option Nat} {event : Nat → PlayerEvent} {View : Type*}
    (view : Player → View) (unseen : ∀ b : Player, view { b with groupPresented := false } = view b) :
    view ((s.groupReset g event).player q) = view (s.player q) := by
  rcases groupReset_player (s := s) (q := q) (g := g) event with same | same
  · rw [same]
  · rw [same, unseen]

/-- The frames of players and slaves may differ, and nothing else that a group or
a backend depends on. -/
structure FramesOnly (s t : Players) : Prop where
  player : ∀ q, (t.player q).unframed = (s.player q).unframed
  group : t.group = s.group
  planeBuild : t.planeBuild = s.planeBuild
  players : t.players = s.players
  groups : t.groups = s.groups
  publishing : t.publishing = s.publishing
  log : ∃ told, t.log = s.log ++ told ∧ ∀ event ∈ told, event.framing = true

namespace FramesOnly

theorem refl : FramesOnly s s :=
  ⟨fun _ => rfl, rfl, rfl, rfl, rfl, rfl, [], by simp, by simp⟩

section

variable (only : FramesOnly s t)

include only

theorem backend : (t.player q).backend = (s.player q).backend := by
  have unframed := congrArg Player.backend (only.player q)
  exact unframed

theorem grouped : (t.player q).group = (s.player q).group := by
  have unframed := congrArg Player.group (only.player q)
  exact unframed

theorem groupPresented : (t.player q).groupPresented = (s.player q).groupPresented := by
  have unframed := congrArg Player.groupPresented (only.player q)
  exact unframed

theorem renderEnabled : (t.player q).renderEnabled = (s.player q).renderEnabled := by
  have unframed := congrArg Player.renderEnabled (only.player q)
  exact unframed

theorem obj : (t.player q).obj = (s.player q).obj := by
  have unframed := congrArg Player.obj (only.player q)
  exact unframed

end

theorem trans (first : FramesOnly s t) (second : FramesOnly t u) : FramesOnly s u := by
  obtain ⟨told, log, framing⟩ := first.log
  obtain ⟨more, next, also⟩ := second.log
  refine ⟨fun q => (second.player q).trans (first.player q), second.group.trans first.group,
    second.planeBuild.trans first.planeBuild, second.players.trans first.players,
    second.groups.trans first.groups, second.publishing.trans first.publishing, told ++ more, by rw [next, log, List.append_assoc], fun event member => ?_⟩
  rcases List.mem_append.mp member with early | late
  · exact framing event early
  · exact also event late

theorem edit (unseen : (change (s.player p)).unframed = (s.player p).unframed) :
    FramesOnly s (s.edit p change) :=
  ⟨edit_view Player.unframed unseen, rfl, rfl, rfl, rfl, rfl, [], by simp [Players.edit], by simp⟩

theorem editSlave : FramesOnly s (s.editSlave i change) :=
  ⟨fun _ => rfl, rfl, rfl, rfl, rfl, rfl, [], by simp [Players.editSlave], by simp⟩

theorem owners {owners : Nat → Nat} : FramesOnly s { s with owners := owners } :=
  ⟨fun _ => rfl, rfl, rfl, rfl, rfl, rfl, [], by simp, by simp⟩

theorem orphan : FramesOnly s s.orphan :=
  ⟨fun _ => rfl, rfl, rfl, rfl, rfl, rfl, [], by simp [Players.orphan], by simp⟩

theorem free : FramesOnly s s.free :=
  ⟨fun _ => rfl, rfl, rfl, rfl, rfl, rfl, [], by simp [Players.free], by simp⟩

theorem tell (framing : event.framing = true) : FramesOnly s (s.tell event) :=
  ⟨fun _ => rfl, rfl, rfl, rfl, rfl, rfl, [event], rfl, by simpa using framing⟩

theorem foldl {step : Players → Nat → Players} {items : List Nat}
    (one : ∀ s i, FramesOnly s (step s i)) : FramesOnly s (items.foldl step s) := by
  induction items generalizing s with
  | nil => exact .refl
  | cons first rest ih => exact (one s first).trans ih

theorem releaseFrame {f : Option Nat} : FramesOnly s (s.releaseFrame f) := by
  cases f with
  | none => exact .refl
  | some f =>
      unfold Players.releaseFrame
      dsimp only
      split
      · exact owners.trans (.tell rfl)
      · exact .owners

theorem updateSlaveFrame {next : Option Nat} : FramesOnly s (s.updateSlaveFrame i next) := by
  have shown : ∀ t : Players, FramesOnly t
      (if (s.slave i).obj then t.editSlave i fun r => { r with source := next } else t) := by
    intro t
    split
    · exact .editSlave
    · exact .refl
  unfold Players.updateSlaveFrame
  split
  · exact .refl
  cases next with
  | none => exact ((shown _).trans .releaseFrame).trans .editSlave
  | some f => exact ((owners.trans (shown _)).trans .releaseFrame).trans .editSlave

theorem publishSlaves {frame : Option Nat} : FramesOnly s (s.publishSlaves p frame) := by
  refine foldl fun s i => ?_
  split
  · exact .updateSlaveFrame
  · exact .refl

theorem retireFrame : FramesOnly s (s.retireFrame p) := by
  have hidden : FramesOnly s
      (if (s.player p).obj then s.edit p fun b => { b with source := none } else s) := by
    split
    · exact .edit rfl
    · exact .refl
  unfold Players.retireFrame
  split
  · exact .refl
  · exact (hidden.trans .releaseFrame).trans (.edit rfl)

theorem retire {closed : Bool} : FramesOnly s (s.retire p closed).2 := by
  have shut : FramesOnly s (if s.planeBuild then s.edit p fun b => { b with plane := false }
      else s) := by
    split
    · exact .edit rfl
    · exact .refl
  unfold Players.retire
  split
  · exact .refl
  · exact (shut.trans .publishSlaves).trans .retireFrame

theorem unlinkSlave : FramesOnly s (s.unlinkSlave i) := by
  unfold Players.unlinkSlave
  dsimp only
  refine trans ?_ .editSlave
  split
  · exact .refl
  · exact .edit rfl

theorem slaveTick {idle : Bool} : FramesOnly s (s.slaveTick i idle) := by
  unfold Players.slaveTick
  split
  · exact .refl
  dsimp only
  split
  · exact (updateSlaveFrame.trans .editSlave).trans .free
  split
  · exact updateSlaveFrame.trans .editSlave
  · exact .updateSlaveFrame

theorem deleteSlave : FramesOnly s (s.deleteSlave i) :=
  (unlinkSlave.trans .editSlave).trans .orphan

theorem setMaster {master : Option Nat} : FramesOnly s (s.setMaster i master) := by
  unfold Players.setMaster
  dsimp only
  refine trans ?_ .editSlave
  cases master with
  | none => exact .unlinkSlave
  | some p => exact (unlinkSlave.trans .editSlave).trans (.edit rfl)

/-- The slaves of a player that is deleted. -/
theorem unlinkSlaves {slaves : List Nat} : FramesOnly s (slaves.foldl
    (fun s i => (s.unlinkSlave i).editSlave i fun r => { r with timer := true }) s) :=
  foldl fun _ _ => unlinkSlave.trans .editSlave

end FramesOnly

/-- A property of the trace so far and the state that every part of a step keeps
holds in every run. -/
theorem reaches_invariant {Allowed : List PlayerEvent → Players → PlayerAction → Prop}
    {trace : List PlayerEvent} (Good : List PlayerEvent → Players → Prop)
    (reached : playerMachine.Reaches Allowed trace s)
    (begun : ∀ planeBuild apngBuild, Good [] (initial planeBuild apngBuild))
    (performed : ∀ {past s action t}, Good past s → s.log = [] → Allowed past s action →
      s.perform action = some t → Good past t)
    (emptied : ∀ {past s}, Good past s → Good (past ++ s.log) { s with log := [] }) :
    Good trace s ∧ s.log = [] := by
  refine reached.invariant (fun trace s => Good trace s ∧ s.log = []) ?_ ?_
  · rintro _ ⟨planeBuild, apngBuild, rfl⟩
    exact ⟨begun planeBuild apngBuild, rfl⟩
  · rintro trace before action after events ⟨good, empty⟩ allowed moved
    change before.step action = some (after, events) at moved
    simp only [step, Option.map_eq_some_iff, Prod.mk.injEq] at moved
    obtain ⟨next, acted, rfl, rfl⟩ := moved
    exact ⟨emptied (performed good empty allowed acted), rfl⟩

end Players

end LvglAic.Widgets
