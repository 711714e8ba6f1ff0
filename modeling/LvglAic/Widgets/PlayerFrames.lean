import LvglAic.Machine.References
import LvglAic.Widgets.PlayerSteps

/-! # The owners of the frames

A frame is kept by the bindings of players and slaves, and during a tick that
publishes by the tick itself, for the frame before.
-/

namespace LvglAic.Widgets

inductive Holder where
  | player (p : Nat)
  | slave (i : Nat)
  | old
deriving DecidableEq, Repr

/-- What the ownership of frames reads of a player. -/
def Player.holding (b : Player) : Bool × Bool × Option Nat × Option ImageSource :=
  (b.live, b.obj, b.frame, b.source)

/-- What it reads of a slave. -/
def Slave.holding (r : Slave) : Bool × Bool × Option Nat × Option Nat :=
  (r.live, r.obj, r.frame, r.source)

def PlayerEvent.destroyed? : PlayerEvent → Option Nat
  | .destroyed f => some f
  | _ => none

/-- The frames that were destroyed. -/
def destroyedFrames (trace : List PlayerEvent) : List Nat :=
  trace.filterMap PlayerEvent.destroyed?

theorem count_destroyedFrames {trace : List PlayerEvent} {f : Nat} :
    (destroyedFrames trace).count f = trace.count (.destroyed f) := by
  induction trace with
  | nil => rfl
  | cons event rest ih =>
      rw [List.count_cons, ← ih, destroyedFrames, List.filterMap_cons]
      cases event with
      | destroyed g =>
          simp only [PlayerEvent.destroyed?, destroyedFrames, List.count_cons, beq_iff_eq,
            PlayerEvent.destroyed.injEq]
      | _ => simp [PlayerEvent.destroyed?, destroyedFrames]

theorem destroyedFrames_append {first second : List PlayerEvent} :
    destroyedFrames (first ++ second) = destroyedFrames first ++ destroyedFrames second :=
  List.filterMap_append

theorem destroyedFrames_told {frames : List Nat} :
    destroyedFrames (frames.map .destroyed) = frames := by
  induction frames with
  | nil => rfl
  | cons f rest ih => simpa [destroyedFrames, PlayerEvent.destroyed?] using ih

namespace Players

variable (s : Players)

def holders : List Holder :=
  (List.range s.players).map .player ++ ((List.range s.slaves).map .slave ++ [.old])

def refs : Holder → Option Nat
  | .player p => (s.player p).frame
  | .slave i => (s.slave i).frame
  | .old => s.publishing.bind Publishing.old

/-- The bindings that were left and not freed. -/
def leftCount : Nat :=
  ((List.range s.players).countP fun p => (s.player p).live && !(s.player p).obj) +
    (List.range s.slaves).countP fun i => (s.slave i).live && !(s.slave i).obj

variable {s}

theorem holders_player {p : Nat} : .player p ∈ s.holders ↔ p < s.players := by
  simp [holders]

theorem holders_slave {i : Nat} : .slave i ∈ s.holders ↔ i < s.slaves := by
  simp [holders]

theorem holders_old : .old ∈ s.holders := by
  simp [holders]

theorem holders_nodup : s.holders.Nodup := by
  have players : ((List.range s.players).map Holder.player).Nodup :=
    List.nodup_range.map fun _ _ => Holder.player.inj
  have slaves : ((List.range s.slaves).map Holder.slave).Nodup :=
    List.nodup_range.map fun _ _ => Holder.slave.inj
  refine players.append (slaves.append (List.nodup_singleton _) ?_) ?_
  · simp
  · simp [List.disjoint_left]

end Players

/-- The frames are owned by what refers to them, what an object shows is the frame
of its binding, and a binding that is freed has none. -/
structure Framed (past : List PlayerEvent) (s : Players) : Prop where
  owned : References.Owned s.holders s.refs s.owners s.frames (destroyedFrames (past ++ s.log))
  shown : ∀ p f, (s.player p).obj = true → (s.player p).source = some (.image f) →
    (s.player p).frame = some f
  slaveShown : ∀ i, (s.slave i).obj = true → (s.slave i).source = (s.slave i).frame
  taking : ∀ t, s.publishing = some t → (s.player t.player).frame = some t.frame
  fresh : ∀ p, s.players ≤ p → (s.player p).live = false
  slaveFresh : ∀ i, s.slaves ≤ i → (s.slave i).live = false
  freed : ∀ p, (s.player p).live = false → (s.player p).obj = false ∧ (s.player p).frame = none
  slaveFreed : ∀ i, (s.slave i).live = false → (s.slave i).obj = false ∧ (s.slave i).frame = none
  timed : ∀ p, (s.player p).live = true → (s.player p).obj = false → (s.player p).timer = true
  slaveTimed : ∀ i, (s.slave i).live = true → (s.slave i).obj = false → (s.slave i).timer = true
  left : s.orphans = s.leftCount

/-- A part of a step that the ownership of frames does not see. -/
structure FrameBlind (s t : Players) : Prop where
  player : ∀ q, (t.player q).holding = (s.player q).holding
  slave : ∀ i, (t.slave i).holding = (s.slave i).holding
  timer : ∀ q, (s.player q).obj = false → (s.player q).timer = true → (t.player q).timer = true
  slaveTimer : ∀ i, (s.slave i).obj = false → (s.slave i).timer = true →
    (t.slave i).timer = true
  owners : t.owners = s.owners
  players : t.players = s.players
  slaves : t.slaves = s.slaves
  frames : t.frames = s.frames
  orphans : t.orphans = s.orphans
  publishing : t.publishing = s.publishing
  planeBuild : t.planeBuild = s.planeBuild
  log : ∃ told, t.log = s.log ++ told ∧ destroyedFrames told = []

namespace FrameBlind

variable {s t u : Players} {p q i f : Nat} {past : List PlayerEvent}

section

variable (blind : FrameBlind s t)

include blind

theorem live : (t.player q).live = (s.player q).live := congrArg Prod.fst (blind.player q)

theorem obj : (t.player q).obj = (s.player q).obj :=
  congrArg (fun view => view.2.1) (blind.player q)

theorem frame : (t.player q).frame = (s.player q).frame :=
  congrArg (fun view => view.2.2.1) (blind.player q)

theorem source : (t.player q).source = (s.player q).source :=
  congrArg (fun view => view.2.2.2) (blind.player q)

theorem slaveLive : (t.slave i).live = (s.slave i).live := congrArg Prod.fst (blind.slave i)

theorem slaveObj : (t.slave i).obj = (s.slave i).obj :=
  congrArg (fun view => view.2.1) (blind.slave i)

theorem slaveFrame : (t.slave i).frame = (s.slave i).frame :=
  congrArg (fun view => view.2.2.1) (blind.slave i)

theorem slaveSource : (t.slave i).source = (s.slave i).source :=
  congrArg (fun view => view.2.2.2) (blind.slave i)

theorem refs : t.refs = s.refs := by
  funext holder
  cases holder with
  | player p => exact blind.frame
  | slave i => exact blind.slaveFrame
  | old => exact congrArg (·.bind Publishing.old) blind.publishing

theorem holders : t.holders = s.holders := by
  rw [Players.holders, blind.players, blind.slaves, Players.holders]

theorem leftCount : t.leftCount = s.leftCount := by
  simp only [Players.leftCount, blind.players, blind.slaves, blind.live, blind.obj,
    blind.slaveLive, blind.slaveObj]

theorem gone : destroyedFrames (past ++ t.log) = destroyedFrames (past ++ s.log) := by
  obtain ⟨told, log, quiet⟩ := blind.log
  rw [log, ← List.append_assoc, destroyedFrames_append, quiet, List.append_nil]

theorem framed (framed : Framed past s) : Framed past t := by
  refine ⟨?_, fun p f obj source => ?_, fun i obj => ?_, fun t taken => ?_, fun p above => ?_,
    fun i above => ?_, fun p dead => ?_, fun i dead => ?_, fun p live gone => ?_,
    fun i live gone => ?_, ?_⟩
  · rw [blind.holders, blind.refs, blind.owners, blind.frames, blind.gone]
    exact framed.owned
  · rw [blind.frame]
    exact framed.shown p f (blind.obj ▸ obj) (blind.source ▸ source)
  · rw [blind.slaveSource, blind.slaveFrame]
    exact framed.slaveShown i (blind.slaveObj ▸ obj)
  · rw [blind.frame]
    exact framed.taking t (blind.publishing ▸ taken)
  · rw [blind.live]
    exact framed.fresh p (blind.players ▸ above)
  · rw [blind.slaveLive]
    exact framed.slaveFresh i (blind.slaves ▸ above)
  · rw [blind.obj, blind.frame]
    exact framed.freed p (blind.live ▸ dead)
  · rw [blind.slaveObj, blind.slaveFrame]
    exact framed.slaveFreed i (blind.slaveLive ▸ dead)
  · have before : (s.player p).obj = false := blind.obj ▸ gone
    exact blind.timer p before (framed.timed p (blind.live ▸ live) before)
  · have before : (s.slave i).obj = false := blind.slaveObj ▸ gone
    exact blind.slaveTimer i before (framed.slaveTimed i (blind.slaveLive ▸ live) before)
  · rw [blind.orphans, blind.leftCount]
    exact framed.left

end

theorem refl : FrameBlind s s :=
  ⟨fun _ => rfl, fun _ => rfl, fun _ _ timer => timer, fun _ _ timer => timer, rfl, rfl, rfl, rfl,
    rfl, rfl, rfl, [], (List.append_nil _).symm, rfl⟩

theorem trans (first : FrameBlind s t) (second : FrameBlind t u) : FrameBlind s u := by
  obtain ⟨told, log, quiet⟩ := first.log
  obtain ⟨more, next, also⟩ := second.log
  refine ⟨fun q => (second.player q).trans (first.player q),
    fun i => (second.slave i).trans (first.slave i), fun q gone timer => ?_,
    fun i gone timer => ?_,
    second.owners.trans first.owners, second.players.trans first.players,
    second.slaves.trans first.slaves, second.frames.trans first.frames,
    second.orphans.trans first.orphans, second.publishing.trans first.publishing,
    second.planeBuild.trans first.planeBuild, told ++ more, ?_, ?_⟩
  · exact second.timer q (first.obj.trans gone) (first.timer q gone timer)
  · exact second.slaveTimer i (first.slaveObj.trans gone) (first.slaveTimer i gone timer)
  · rw [next, log, List.append_assoc]
  · rw [destroyedFrames_append, quiet, also, List.append_nil]

theorem edit (unseen : (change (s.player p)).holding = (s.player p).holding)
    (runs : (s.player p).obj = false → (s.player p).timer = true →
      (change (s.player p)).timer = true) : FrameBlind s (s.edit p change) := by
  refine ⟨Players.edit_view Player.holding unseen, fun _ => rfl, fun q gone timer => ?_,
    fun _ _ timer => timer, rfl, rfl, rfl, rfl, rfl, rfl, rfl, [], (List.append_nil _).symm, rfl⟩
  by_cases same : q = p
  · subst same
    rw [Players.edit_player_self]
    exact runs gone timer
  · rw [Players.edit_player_ne same]
    exact timer

theorem editSlave (unseen : (change (s.slave i)).holding = (s.slave i).holding)
    (runs : (s.slave i).obj = false → (s.slave i).timer = true →
      (change (s.slave i)).timer = true) :
    FrameBlind s (s.editSlave i change) := by
  have moved : ∀ j, (s.editSlave i change).slave j =
      if j = i then change (s.slave i) else s.slave j := by
    intro j
    by_cases same : j = i
    · rw [if_pos same, same]
      exact Function.update_self ..
    · rw [if_neg same]
      exact Function.update_of_ne same ..
  refine ⟨fun _ => rfl, fun j => ?_, fun _ _ timer => timer, fun j gone timer => ?_, rfl, rfl, rfl, rfl,
    rfl, rfl, rfl, [], (List.append_nil _).symm, rfl⟩
  · rw [moved]
    split
    · rename_i same
      rw [unseen, same]
    · rfl
  · rw [moved]
    split
    · rename_i same
      exact runs (same ▸ gone) (same ▸ timer)
    · exact timer

theorem tell {event : PlayerEvent} (quiet : event.destroyed? = none) :
    FrameBlind s (s.tell event) := by
  refine ⟨fun _ => rfl, fun _ => rfl, fun _ _ timer => timer, fun _ _ timer => timer, rfl, rfl, rfl,
    rfl, rfl, rfl, rfl, [event], rfl, ?_⟩
  simp [destroyedFrames, quiet]

theorem foldl {step : Players → Nat → Players} {items : List Nat}
    (one : ∀ s i, FrameBlind s (step s i)) : FrameBlind s (items.foldl step s) := by
  induction items generalizing s with
  | nil => exact .refl
  | cons first rest ih => exact (one s first).trans ih

/-! ## The parts of a step -/

theorem backendPreserve {enabled : Bool} : FrameBlind s (s.backendPreserve p enabled).2 := by
  unfold Players.backendPreserve
  split
  · exact .refl
  split
  · dsimp only
    exact .edit (by rfl) fun _ => id
  · exact .refl

theorem backendClose : FrameBlind s (s.backendClose p) := .edit (by rfl) fun _ => id

theorem groupReset {g : Option Nat} {event : Nat → PlayerEvent}
    (quiet : ∀ g, (event g).destroyed? = none) : FrameBlind s (s.groupReset g event) := by
  cases g with
  | none => exact .refl
  | some g =>
      refine ⟨fun q => Players.groupReset_view Player.holding fun _ => rfl, fun _ => rfl,
        fun q _ timer => ?_, fun _ _ timer => timer, rfl, rfl, rfl, rfl, rfl, rfl, rfl, [event g],
        rfl, ?_⟩
      · rw [Players.groupReset_view Player.timer fun _ => rfl]
        exact timer
      · simp [destroyedFrames, quiet]

theorem editMembers {g : Nat} {change : List Nat → List Nat} :
    FrameBlind s (s.editMembers g change) :=
  ⟨fun _ => rfl, fun _ => rfl, fun _ _ timer => timer, fun _ _ timer => timer, rfl, rfl, rfl, rfl,
    rfl, rfl, rfl, [], (List.append_nil _).symm, rfl⟩

theorem groupUnlink : FrameBlind s (s.groupUnlink p) := by
  unfold Players.groupUnlink
  dsimp only
  refine trans ?_ (.edit rfl fun _ => id)
  split
  · exact .refl
  · exact (editMembers.trans (.tell rfl)).trans (.groupReset fun _ => rfl)

theorem groupWait : FrameBlind s (s.groupWait p).2 := by
  unfold Players.groupWait
  split
  · exact .refl
  split
  · exact (FrameBlind.edit (by rfl) fun _ => id).trans (.tell rfl)
  · dsimp only
    split
    · exact .groupReset fun _ => rfl
    · exact .refl

theorem deleteGroup {g : Nat} : FrameBlind s (s.deleteGroup g) := by
  have left : FrameBlind s ((s.group g).members.foldl
      (fun s p => ((s.groupUnlink p).backendPreserve p false).2) s) :=
    foldl fun _ _ => groupUnlink.trans .backendPreserve
  exact left.trans ⟨fun _ => rfl, fun _ => rfl, fun _ _ timer => timer, fun _ _ timer => timer, rfl,
    rfl, rfl, rfl, rfl, rfl, rfl, [], (List.append_nil _).symm, rfl⟩

theorem groupJoin {g : Nat} : FrameBlind s (s.groupJoin p g) :=
  (((FrameBlind.edit (by rfl) fun _ => id).trans .editMembers).trans (.tell rfl)).trans
    (.groupReset fun _ => rfl)

theorem setGroup {g : Option Nat} : FrameBlind s (s.setGroup p g) := by
  unfold Players.setGroup
  split
  · exact .refl
  refine trans ?_ .backendPreserve
  cases g with
  | none => exact .groupUnlink
  | some g => exact groupUnlink.trans .groupJoin

theorem unlinkSlave : FrameBlind s (s.unlinkSlave i) := by
  unfold Players.unlinkSlave
  dsimp only
  refine trans ?_ (.editSlave rfl fun _ => id)
  split
  · exact .refl
  · exact .edit rfl fun _ => id

theorem setMaster {master : Option Nat} : FrameBlind s (s.setMaster i master) := by
  unfold Players.setMaster
  dsimp only
  refine trans ?_ (.editSlave rfl fun _ _ => rfl)
  cases master with
  | none => exact .unlinkSlave
  | some p => exact (unlinkSlave.trans (.editSlave rfl fun _ => id)).trans (.edit rfl fun _ => id)

theorem setUp {a : PrepareAnswer} : FrameBlind s (s.setUp p a).2 := by
  have opened : FrameBlind s (s.openBackend p a) :=
    (FrameBlind.edit rfl fun _ => id).trans (.tell rfl)
  unfold Players.setUp
  dsimp only
  split
  · dsimp only
    exact ((opened.trans .backendPreserve).trans .backendClose).trans (.edit (by rfl) fun _ => id)
  · exact opened.trans .backendPreserve

theorem preparePlane : FrameBlind s (s.preparePlane p) := by
  unfold Players.preparePlane
  split
  · exact .edit (by rfl) fun _ => id
  · exact .refl

theorem prepareRender : FrameBlind s (s.prepareRender p) :=
  (FrameBlind.edit rfl fun _ => id).trans (.tell rfl)

theorem prepare {a : PrepareAnswer} : FrameBlind s (s.prepare p a).2 := by
  unfold Players.prepare
  dsimp only
  split
  · dsimp only
    exact .edit (by rfl) fun _ => id
  split
  · dsimp only
    exact prepareRender.trans (.edit (by rfl) fun _ => id)
  split
  · dsimp only
    exact (prepareRender.trans .preparePlane).trans (.edit (by rfl) fun _ => id)
  · exact (prepareRender.trans .preparePlane).trans .setUp

/-- A player is asked for something and its timer runs. -/
theorem asked {change : Player → Player} {g : Option Nat}
    (unseen : (change (s.player p)).holding = (s.player p).holding)
    (kept : (change (s.player p)).timer = (s.player p).timer) :
    FrameBlind s (((s.edit p change).groupReset g .reset).edit p
      fun b => { b with timer := true }) := by
  refine ((FrameBlind.edit unseen fun _ timer => ?_).trans (.groupReset fun _ => rfl)).trans
    (.edit rfl fun _ _ => rfl)
  rw [kept]
  exact timer

theorem setSrc {uri : List UInt8} {a : PrepareAnswer} : FrameBlind s (s.setSrc p uri a).2 := by
  unfold Players.setSrc
  dsimp only
  split
  · exact .refl
  split
  · dsimp only
    exact ((asked rfl rfl).trans (.edit (by rfl) fun _ => id)).trans .backendClose
  · exact (asked rfl rfl).trans .prepare

theorem start {a : PrepareAnswer} {started : Bool} : FrameBlind s (s.start p a started).2 := by
  unfold Players.start
  dsimp only
  split
  · exact .refl
  split
  · dsimp only
    exact ((asked rfl rfl).trans (.edit (by rfl) fun _ => id)).trans .backendClose
  split
  · exact (asked rfl rfl).trans .prepare
  · exact asked rfl rfl

theorem requestClose {stopped : Bool} : FrameBlind s (s.requestClose p stopped) :=
  (((FrameBlind.groupReset fun _ => rfl).trans (.edit rfl fun _ => id)).trans .backendClose).trans
    (.edit rfl fun _ _ => rfl)

theorem seek {position queued : Nat} {sought : Bool} :
    FrameBlind s (s.seek p position sought queued).2 := by
  unfold Players.seek
  dsimp only
  split
  · exact .refl
  · dsimp only
    exact (FrameBlind.groupReset fun _ => rfl).trans (.edit (by rfl) fun _ _ => rfl)

theorem setVideoPlane {enabled : Bool} {display : Option Bool} :
    FrameBlind s (s.setVideoPlane p enabled display).2 := by
  unfold Players.setVideoPlane
  dsimp only
  split
  · exact .refl
  split
  · exact .refl
  cases display with
  | none => exact .refl
  | some argb =>
      dsimp only
      split
      · exact .refl
      · dsimp only
        exact .edit (by rfl) fun _ => id

theorem configure {apng valid : Bool} : FrameBlind s (s.configure p apng valid).2 := by
  unfold Players.configure
  dsimp only
  split
  · exact .refl
  split
  · dsimp only
    exact .edit (by rfl) fun _ => id
  · dsimp only
    exact .edit (by rfl) fun _ => id

theorem setVolume {volume : Int} {taken : Bool} : FrameBlind s (s.setVolume p volume taken).2 := by
  unfold Players.setVolume
  dsimp only
  split
  · exact .refl
  split
  · exact .refl
  split
  · exact .refl
  · dsimp only
    exact .edit (by rfl) fun _ => id

theorem backendDestroy {destroyed : Bool} : FrameBlind s (s.backendDestroy p destroyed).2 := by
  unfold Players.backendDestroy
  split
  · dsimp only
    exact .edit (by rfl) fun _ => id
  · exact .refl

theorem tickReport : FrameBlind s (s.tickReport p) := by
  unfold Players.tickReport
  dsimp only
  split
  · exact (FrameBlind.edit rfl fun _ => id).trans (.tell rfl)
  · exact .refl

theorem present : FrameBlind s (s.present p) :=
  ((FrameBlind.edit rfl fun _ => id).trans (.tell rfl)).trans (.tell rfl)

end FrameBlind

end LvglAic.Widgets
