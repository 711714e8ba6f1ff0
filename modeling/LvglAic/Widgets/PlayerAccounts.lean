import LvglAic.Widgets.PlayerOwners

/-! # The accounts of the frames over whole runs -/

namespace LvglAic.Widgets

open References

namespace Framed

variable {past : List PlayerEvent} {s t : Players} {p i f : Nat}

theorem initial {planeBuild apngBuild : Bool} : Framed [] (Players.initial planeBuild apngBuild) := by
  have refs : (Players.initial planeBuild apngBuild).refs = fun _ => none := by
    funext holder
    cases holder <;> rfl
  refine ⟨?_, nofun, nofun, nofun, fun _ _ => rfl, fun _ _ => rfl, fun _ _ => ⟨rfl, rfl⟩,
    fun _ _ => ⟨rfl, rfl⟩, nofun, nofun, rfl⟩
  rw [refs]
  exact Owned.empty Players.holders_nodup

/-! ## Calls -/

theorem createPlayer (framed : Framed past s) : Framed past (s.call .createPlayer) := by
  have empty := framed.freed s.players (framed.fresh s.players (Nat.le_refl _))
  have player : (s.call .createPlayer).player =
      Function.update s.player s.players Player.created := rfl
  have moved : ∀ q, (s.call .createPlayer).player q =
      if q = s.players then Player.created else s.player q := by
    intro q
    rw [player, Function.update_apply]
  have refs : (s.call .createPlayer).refs = s.refs := refs_player_kept player rfl rfl empty.2.symm
  have perm : (s.call .createPlayer).holders.Perm (.player s.players :: s.holders) := by
    change ((List.range (s.players + 1)).map Holder.player ++ _).Perm _
    rw [List.range_succ, List.map_append, List.append_assoc]
    exact List.perm_middle
  refine ⟨?_, fun q f obj source => ?_, framed.slaveShown, fun u taken => ?_, fun q above => ?_,
    framed.slaveFresh, fun q dead => ?_, framed.slaveFreed, fun q live gone => ?_,
    framed.slaveTimed, ?_⟩
  · rw [refs]
    exact framed.owned.grow Players.holders_nodup perm empty.2
  · rw [moved] at obj source ⊢
    split at source
    · cases source
    · rename_i other
      rw [if_neg other] at obj ⊢
      exact framed.shown q f obj source
  · have frame := framed.taking u taken
    have other : u.player ≠ s.players := by
      intro same
      rw [same, empty.2] at frame
      cases frame
    rw [moved, if_neg other]
    exact frame
  · have above : s.players + 1 ≤ q := above
    rw [moved, if_neg (by omega)]
    exact framed.fresh q (by omega)
  · rw [moved] at dead ⊢
    split at dead
    · cases dead
    · rename_i other
      rw [if_neg other]
      exact framed.freed q dead
  · rw [moved] at live gone ⊢
    split at gone
    · cases gone
    · rename_i other
      rw [if_neg other] at live ⊢
      exact framed.timed q live gone
  · have others : ((List.range s.players).countP fun q =>
        ((s.call .createPlayer).player q).live && !((s.call .createPlayer).player q).obj) =
          (List.range s.players).countP fun q => (s.player q).live && !(s.player q).obj := by
      refine List.countP_congr fun q inside => ?_
      have other : q ≠ s.players := by
        have below := List.mem_range.mp inside
        omega
      rw [moved, if_neg other]
    have before := framed.left
    simp only [Players.leftCount] at before ⊢
    change s.orphans = ((List.range (s.players + 1)).countP _) + _
    rw [List.range_succ, List.countP_append, others, List.countP_singleton, moved, if_pos rfl]
    exact before

theorem createSlave (framed : Framed past s) : Framed past (s.call .createSlave) := by
  have empty := framed.slaveFreed s.slaves (framed.slaveFresh s.slaves (Nat.le_refl _))
  have slave : (s.call .createSlave).slave =
      Function.update s.slave s.slaves Slave.created := rfl
  have moved : ∀ j, (s.call .createSlave).slave j =
      if j = s.slaves then Slave.created else s.slave j := by
    intro j
    rw [slave, Function.update_apply]
  have refs : (s.call .createSlave).refs = s.refs := refs_slave_kept slave rfl rfl empty.2.symm
  have perm : (s.call .createSlave).holders.Perm (.slave s.slaves :: s.holders) := by
    change (_ ++ ((List.range (s.slaves + 1)).map Holder.slave ++ _)).Perm _
    rw [List.range_succ, List.map_append, List.append_assoc, ← List.append_assoc]
    refine List.perm_middle.trans ?_
    rw [List.append_assoc]
    exact List.Perm.refl _
  refine ⟨?_, framed.shown, fun j obj => ?_, framed.taking, framed.fresh, fun j above => ?_,
    framed.freed, fun j dead => ?_, framed.timed, fun j live gone => ?_, ?_⟩
  · rw [refs]
    exact framed.owned.grow Players.holders_nodup perm empty.2
  · rw [moved] at obj ⊢
    split at obj
    · rename_i own
      rw [if_pos own]
      rfl
    · rename_i other
      rw [if_neg other]
      exact framed.slaveShown j obj
  · have above : s.slaves + 1 ≤ j := above
    rw [moved, if_neg (by omega)]
    exact framed.slaveFresh j (by omega)
  · rw [moved] at dead ⊢
    split at dead
    · cases dead
    · rename_i other
      rw [if_neg other]
      exact framed.slaveFreed j dead
  · rw [moved] at live gone ⊢
    split at gone
    · cases gone
    · rename_i other
      rw [if_neg other] at live ⊢
      exact framed.slaveTimed j live gone
  · have others : ((List.range s.slaves).countP fun j =>
        ((s.call .createSlave).slave j).live && !((s.call .createSlave).slave j).obj) =
          (List.range s.slaves).countP fun j => (s.slave j).live && !(s.slave j).obj := by
      refine List.countP_congr fun j inside => ?_
      have other : j ≠ s.slaves := by
        have below := List.mem_range.mp inside
        omega
      rw [moved, if_neg other]
    have before := framed.left
    simp only [Players.leftCount] at before ⊢
    change s.orphans = _ + (List.range (s.slaves + 1)).countP _
    rw [List.range_succ, List.countP_append, others, List.countP_singleton, moved, if_pos rfl]
    exact before

theorem call (framed : Framed past s) {c : PlayerCall} (valid : s.valid c = true) :
    Framed past (s.call c) := by
  cases c with
  | createPlayer => exact framed.createPlayer
  | createSlave => exact framed.createSlave
  | createGroup =>
      refine FrameBlind.framed ?_ framed
      exact ⟨fun _ => rfl, fun _ => rfl, fun _ _ timer => timer, fun _ _ timer => timer, rfl, rfl,
        rfl, rfl, rfl, rfl, rfl, [], (List.append_nil _).symm, rfl⟩
  | deletePlayer p => exact framed.deletePlayer valid
  | deleteSlave i => exact framed.deleteSlave valid
  | deleteGroup g => exact FrameBlind.deleteGroup.framed framed
  | setGroup p g => exact FrameBlind.setGroup.framed framed
  | groupRemove g p =>
      simp only [Players.call]
      split
      · exact FrameBlind.setGroup.framed framed
      · exact framed
  | setMaster i master => exact FrameBlind.setMaster.framed framed
  | setDrawLayer p layer | setAutoRestart p enabled =>
      simp only [Players.call]
      exact FrameBlind.framed (.edit rfl fun _ => id) framed
  | setVideoPlane p enabled display => exact FrameBlind.setVideoPlane.framed framed
  | configure p apng valid => exact FrameBlind.configure.framed framed
  | setSrc p uri a => exact FrameBlind.setSrc.framed framed
  | start p a started => exact FrameBlind.start.framed framed
  | stop p | close p => exact FrameBlind.requestClose.framed framed
  | seek p position sought queued => exact FrameBlind.seek.framed framed
  | setVolume p volume taken => exact FrameBlind.setVolume.framed framed

theorem perform (framed : Framed past s) {action : PlayerAction}
    (windowed : Windowed past s action) (acted : s.perform action = some t) : Framed past t := by
  cases action with
  | call c =>
      simp only [Players.perform, Option.ite_none_right_eq_some, Option.some.injEq] at acted
      obtain ⟨valid, rfl⟩ := acted
      exact framed.call valid
  | tick p a e =>
      simp only [Players.perform, Option.ite_none_right_eq_some, Option.some.injEq,
        Bool.and_eq_true, Option.isNone_iff_eq_none] at acted
      obtain ⟨⟨⟨quiet, live⟩, _⟩, rfl⟩ := acted
      exact framed.tick quiet live windowed
  | settle e =>
      simp only [Players.perform, Option.map_eq_some_iff] at acted
      obtain ⟨u, taken, rfl⟩ := acted
      exact framed.settle taken
  | slaveTick i idle =>
      simp only [Players.perform, Option.ite_none_right_eq_some, Option.some.injEq,
        Bool.and_eq_true] at acted
      obtain ⟨⟨⟨_, live⟩, _⟩, rfl⟩ := acted
      exact framed.slaveTick live
  | finish p =>
      simp only [Players.perform, Option.ite_none_right_eq_some, Option.some.injEq] at acted
      obtain ⟨_, rfl⟩ := acted
      exact FrameBlind.framed (.edit rfl fun _ => id) framed

end Framed

/-! ## The ticks of bindings whose objects are deleted -/

namespace Players

variable {s t : Players} {p i : Nat}

/-- Every object is deleted. -/
def Deleted (s : Players) : Prop :=
  (∀ p, (s.player p).obj = false) ∧ ∀ i, (s.slave i).obj = false

/-- The tick can let go of everything: the draw queues are idle, the plane closes and
the backend has finished and is destroyed. -/
def releases (s : Players) (p : Nat) (a : TickAnswer) : Bool :=
  a.idle && (!(s.planeBuild && (s.player p).plane) || a.closed) &&
    (s.player p).backend.all fun k => k.finished && a.destroyed

theorem tick_frees {a : TickAnswer} {e : EndAnswer} (gone : (s.player p).obj = false)
    (releases : s.releases p a = true) : ((s.tick p a e).player p).live = false := by
  simp only [Players.releases, Bool.and_eq_true] at releases
  obtain ⟨⟨idle, closes⟩, ends⟩ := releases
  have retired : (s.retire p a.closed).1 = true := by
    unfold retire
    rw [if_neg]
    cases plane : s.planeBuild && (s.player p).plane <;> simp_all
  have only : FramesOnly s (s.retire p a.closed).2 := .retire
  have begun : (s.tickBegin p a).1 = false ∧ ((s.tickBegin p a).2.player p).live = false := by
    have deleted : (!(s.player p).obj || (s.player p).closing) = true := by
      rw [gone]
      rfl
    unfold tickBegin
    rw [if_pos deleted]
    unfold tickClosing
    have backend := only.backend (q := p)
    have obj := (only.obj (q := p)).trans gone
    generalize s.retire p a.closed = r at *
    dsimp only
    rw [if_neg (by simp [retired])]
    have all : ((r.2.edit p fun b => { b with
        status := if b.backend.isSome then a.status else b.status }).player p).backend.all
        (fun k => k.finished && a.destroyed) = true := by
      rw [edit_player_self]
      dsimp only
      rw [backend]
      exact ends
    unfold backendDestroy
    rw [if_pos all]
    dsimp only
    rw [if_neg (by simp)]
    have object : ((((r.2.edit p fun b => { b with
        status := if b.backend.isSome then a.status else b.status }).edit p fun b =>
          { b with backend := none }).edit p fun b => { b with closing := false }).player p).obj =
            false := by
      rw [edit_player_self, edit_player_self, edit_player_self]
      exact obj
    generalize (((r.2.edit p fun b => { b with
        status := if b.backend.isSome then a.status else b.status }).edit p fun b =>
          { b with backend := none }).edit p fun b => { b with closing := false }) = last at *
    unfold tickClosed
    rw [if_pos (by rw [object]; rfl)]
    refine ⟨rfl, ?_⟩
    change ((last.edit p fun b => { b with live := false, timer := false }).player p).live = false
    rw [edit_player_self]
  unfold tick
  rw [if_neg (by simp [idle])]
  dsimp only
  rw [if_neg (by simp [begun.1])]
  exact begun.2

theorem slaveTick_frees (gone : (s.slave i).obj = false) :
    ((s.slaveTick i true).slave i).live = false := by
  unfold slaveTick
  rw [if_neg (by simp)]
  dsimp only
  rw [if_pos (by simp [gone])]
  generalize s.updateSlaveFrame i _ = t
  have freed : ((t.editSlave i fun r => { r with live := false, timer := false }).slave i).live =
      false := by
    simp only [editSlave, Function.update_self]
  exact freed

variable (s)

/-- The bindings that have the frame. -/
def bindings (f : Nat) : Nat :=
  ((List.range s.players).countP fun p => (s.player p).frame = some f) +
    (List.range s.slaves).countP fun i => (s.slave i).frame = some f

/-- The frame that a tick keeps while it publishes the next. -/
def kept : Option Nat := s.publishing.bind Publishing.old

variable {s}

theorem holders_bindings {f : Nat} : References.holders s.refs s.holders f =
    s.bindings f + if s.kept = some f then 1 else 0 := by
  simp only [References.holders, holders, bindings, List.countP_append, List.countP_map,
    List.countP_singleton, decide_eq_true_eq, Nat.add_assoc]
  rfl

end Players

/-- The accounts of the frames after a run. -/
structure Accounted (trace : List PlayerEvent) (s : Players) : Prop where
  owners : ∀ f, s.owners f = s.bindings f + if s.kept = some f then 1 else 0
  destroyed : ∀ f, trace.count (.destroyed f) =
    if f < s.frames ∧ s.bindings f = 0 ∧ s.kept ≠ some f then 1 else 0
  frame : ∀ p f, (s.player p).frame = some f → .destroyed f ∉ trace
  source : ∀ p f, (s.player p).obj = true → (s.player p).source = some (.image f) →
    .destroyed f ∉ trace
  slaveFrame : ∀ i f, (s.slave i).frame = some f → .destroyed f ∉ trace
  slaveSource : ∀ i f, (s.slave i).obj = true → (s.slave i).source = some f →
    .destroyed f ∉ trace
  frees : s.Deleted → s.publishing = none → ∀ p a e, (s.player p).live = true →
    s.releases p a = true → ∃ t, s.perform (.tick p a e) = some t ∧ (t.player p).live = false
  slaveFrees : s.Deleted → s.publishing = none → ∀ i, (s.slave i).live = true →
    ∃ t, s.perform (.slaveTick i true) = some t ∧ (t.slave i).live = false
  clean : (∀ p, (s.player p).live = false) → (∀ i, (s.slave i).live = false) →
    s.publishing = none → s.orphans = 0 ∧ ∀ f < s.frames, trace.count (.destroyed f) = 1

theorem Framed.accounted {trace : List PlayerEvent} {s : Players} (framed : Framed trace s)
    (log : s.log = []) : Accounted trace s := by
  have owned := framed.owned
  rw [log, List.append_nil] at owned
  have alive : ∀ holder f, s.refs holder = some f → .destroyed f ∉ trace := by
    intro holder f ref told
    refine owned.kept ref (List.count_pos_iff.mp ?_)
    rw [count_destroyedFrames]
    exact List.count_pos_iff.mpr told
  have destroyed : ∀ f, trace.count (.destroyed f) =
      if f < s.frames ∧ s.bindings f = 0 ∧ s.kept ≠ some f then 1 else 0 := by
    intro f
    rw [← count_destroyedFrames, owned.gone, Players.holders_bindings]
    by_cases keeps : s.kept = some f
    · simp [keeps]
    · simp [keeps]
  refine ⟨fun f => ?_, destroyed, fun p f had => alive (.player p) f had,
    fun p f obj source => alive (.player p) f (framed.shown p f obj source),
    fun i f had => alive (.slave i) f had, fun i f obj source => ?_, fun deleted quiet => ?_,
    fun deleted quiet i live => ?_, fun players slaves quiet => ?_⟩
  · rw [owned.counted, Players.holders_bindings]
  · exact alive (.slave i) f ((framed.slaveShown i obj).symm.trans source)
  · intro p a e live releases
    have timer := framed.timed p live (deleted.1 p)
    refine ⟨s.tick p a e, ?_, Players.tick_frees (deleted.1 p) releases⟩
    simp only [Players.perform, quiet, Option.isNone_none, live, timer, Bool.and_self, if_true]
  · have timer := framed.slaveTimed i live (deleted.2 i)
    refine ⟨s.slaveTick i true, ?_, Players.slaveTick_frees (deleted.2 i)⟩
    simp only [Players.perform, quiet, Option.isNone_none, live, timer, Bool.and_self, if_true]
  · refine ⟨?_, fun f made => ?_⟩
    · rw [framed.left, Players.leftCount]
      simp [players, slaves]
    · have none : s.bindings f = 0 := by
        have player := fun p => (framed.freed p (players p)).2
        have slave := fun i => (framed.slaveFreed i (slaves i)).2
        simp [Players.bindings, player, slave]
      have free : s.kept ≠ some f := by
        simp [Players.kept, quiet]
      rw [destroyed, if_pos ⟨made, none, free⟩]

/-- In every run whose ticks take no frame over an image that stays shown, every
frame is counted by its bindings, is destroyed once when the last of them lets go, and is
not shown after that; the ticks of deleted widgets leave nothing behind. -/
theorem player_frames_accounted {trace : List PlayerEvent} {s : Players}
    (reached : playerMachine.Reaches Windowed trace s) : Accounted trace s := by
  have framed : Framed trace s ∧ s.log = [] := by
    refine Players.reaches_invariant Framed reached (fun _ _ => .initial) ?_ ?_
    · exact fun framed _ windowed acted => framed.perform windowed acted
    · intro past s framed
      refine ⟨?_, framed.shown, framed.slaveShown, framed.taking, framed.fresh, framed.slaveFresh,
        framed.freed, framed.slaveFreed, framed.timed, framed.slaveTimed, framed.left⟩
      change Owned s.holders s.refs s.owners s.frames (destroyedFrames (past ++ s.log ++ []))
      rw [List.append_nil]
      exact framed.owned
  exact framed.1.accounted framed.2

instance Windowed.decidable {trace : List PlayerEvent} {s : Players} :
    DecidablePred (Windowed trace s)
  | .tick p a _ => decidable_of_iff (s.takes p a = true → (s.player p).planeEnabled = true →
      ∀ f ∈ (s.player p).frame, (s.player p).source ≠ some (.image f)) Iff.rfl
  | .call _ | .settle _ | .slaveTick _ _ | .finish _ => isTrue trivial

/-- A player with a source and a slave. -/
def mirrored (layer : DrawLayer) : List PlayerAction :=
  [.call .createPlayer, .call .createSlave, .call (.setMaster 0 (some 0)),
    .call (.configure 0 false true), .call (.setDrawLayer 0 layer),
    .call (.setSrc 0 [97] {
      argb := true
      created := true
      finished := false
      configured := true
      started := true })]

/-- A tick that publishes a frame, with the answer of the plane's window. -/
def publishes (window : WindowAnswer) : List PlayerAction :=
  let e : EndAnswer := {
    window := window
    closedPlane := true
    sought := false
    closedRestart := true }
  [.tick 0 {
      idle := true
      status := { PlaybackStatus.none with state := .playing }
      closed := true
      closedFault := true
      destroyed := true
      prepare := {
        argb := true
        created := true
        finished := false
        configured := true
        started := true }
      allocated := true
      polled := true } e, .settle e]

/-- The widgets are deleted and their ticks run. -/
def cleaned : List PlayerAction :=
  [.call (.deletePlayer 0), .call (.deleteSlave 0), .finish 0] ++
    (publishes .shown).take 1 ++ [.slaveTick 0 true]

theorem player_frames_accounted_mirrored :
    ∃ (trace : List PlayerEvent) (s : Players), playerMachine.Reaches Windowed trace s ∧
      s.frames = 2 ∧ (s.player 0).live = false ∧ (s.slave 0).live = false ∧
      Accounted trace s := by
  let start := Players.initial true false
  let actions := mirrored .video ++ publishes .shown ++ publishes .hidden ++ cleaned
  obtain ⟨⟨s, trace⟩, executed⟩ : ∃ last, playerMachine.execute start actions = some last :=
    Option.isSome_iff_exists.mp (by decide +kernel)
  have shown : (playerMachine.execute start actions).map (fun last =>
      (last.1.frames, (last.1.player 0).live, (last.1.slave 0).live)) =
        some (2, false, false) := by decide +kernel
  rw [executed] at shown
  simp only [Option.map_some, Option.some.injEq, Prod.mk.injEq] at shown
  have initial : playerMachine.Initial start := ⟨_, _, rfl⟩
  have sound : ∀ trace s action, decide (Windowed trace s action) = true →
      Windowed trace s action := fun _ _ _ windowed => of_decide_eq_true windowed
  have reached : playerMachine.Reaches Windowed trace s :=
    (Machine.Reaches.start initial).conform sound (by decide +kernel) executed
  exact ⟨trace, s, reached, shown.1, shown.2.1, shown.2.2, player_frames_accounted reached⟩

/-- An object that is hidden keeps the image of a frame that is destroyed. -/
theorem hidden_player_shows_destroyed :
    ¬ ∀ (trace : List PlayerEvent) (s : Players),
      playerMachine.Reaches Machine.Always trace s → Accounted trace s := by
  intro claim
  let start := Players.initial true false
  let actions := mirrored .video ++ publishes .hidden ++ publishes .hidden
  obtain ⟨⟨s, trace⟩, executed⟩ : ∃ last, playerMachine.execute start actions = some last :=
    Option.isSome_iff_exists.mp (by decide +kernel)
  have shown : (playerMachine.execute start actions).map (fun last =>
      ((last.1.player 0).obj, (last.1.player 0).source, decide (.destroyed 0 ∈ last.2))) =
        some (true, some (.image 0), true) := by decide +kernel
  rw [executed] at shown
  simp only [Option.map_some, Option.some.injEq, Prod.mk.injEq, decide_eq_true_eq] at shown
  obtain ⟨obj, source, destroyed⟩ := shown
  have initial : playerMachine.Initial start := ⟨_, _, rfl⟩
  have reached : playerMachine.Reaches Machine.Always trace s :=
    (Machine.Reaches.start initial).execute executed
  exact (claim trace s reached).source 0 0 obj source destroyed


end LvglAic.Widgets
