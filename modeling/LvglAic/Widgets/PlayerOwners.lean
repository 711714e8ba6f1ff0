import LvglAic.Widgets.PlayerFrames

/-! # Every frame is counted, shown and destroyed as it should -/

namespace LvglAic.Widgets

open References

namespace Players

variable {s : Players} {p i f : Nat} {next : Option Nat}

theorem releaseFrame_eq {frame : Option Nat} : s.releaseFrame frame = { s with
    owners := release s.owners frame
    log := s.log ++ (dropped s.owners frame).map .destroyed } := by
  cases frame with
  | none => simp [releaseFrame, release, dropped]
  | some f =>
      unfold releaseFrame
      dsimp only
      split
      · rename_i last
        simp only [tell, release, dropped, if_pos last, List.map_cons, List.map_nil]
      · rename_i more
        simp only [release, dropped, if_neg more, List.map_nil, List.append_nil]


theorem updateSlaveFrame_same (same : (s.slave i).frame = next) :
    s.updateSlaveFrame i next = s := if_pos same

theorem updateSlaveFrame_eq (other : (s.slave i).frame ≠ next) : s.updateSlaveFrame i next =
    { s with
      slave := Function.update s.slave i { s.slave i with
        frame := next
        source := if (s.slave i).obj then next else (s.slave i).source }
      owners := release (retain s.owners next) (s.slave i).frame
      log := s.log ++ (dropped (retain s.owners next) (s.slave i).frame).map .destroyed } := by
  have shown : ∀ taken : Players, taken = { s with owners := retain s.owners next } →
      (((if (s.slave i).obj then taken.editSlave i fun r => { r with source := next }
        else taken).releaseFrame (s.slave i).frame).editSlave i fun r => { r with frame := next }) =
        { s with
          slave := Function.update s.slave i { s.slave i with
            frame := next
            source := if (s.slave i).obj then next else (s.slave i).source }
          owners := release (retain s.owners next) (s.slave i).frame
          log := s.log ++
            (dropped (retain s.owners next) (s.slave i).frame).map .destroyed } := by
    rintro taken rfl
    rw [releaseFrame_eq]
    by_cases obj : (s.slave i).obj
    · simp only [obj, if_true, editSlave, Function.update_self, Function.update_idem]
    · simp only [obj, if_false, editSlave, Bool.false_eq_true]
  unfold updateSlaveFrame
  rw [if_neg other]
  cases next with
  | none => exact shown _ rfl
  | some f => exact shown _ rfl

theorem retireFrame_eq (frame : (s.player p).frame = some f) : s.retireFrame p = { s with
    player := Function.update s.player p { s.player p with
      frame := none
      source := if (s.player p).obj then none else (s.player p).source }
    owners := release s.owners (some f)
    log := s.log ++ (dropped s.owners (some f)).map .destroyed } := by
  unfold retireFrame
  rw [frame]
  dsimp only
  rw [releaseFrame_eq]
  by_cases obj : (s.player p).obj
  · simp only [obj, if_true, edit, Function.update_self, Function.update_idem]
  · simp only [obj, if_false, edit, Bool.false_eq_true]

/-! ## What a change of frames leaves alone -/

theorem updateSlaveFrame_player : (s.updateSlaveFrame i next).player = s.player := by
  by_cases same : (s.slave i).frame = next
  · rw [updateSlaveFrame_same same]
  · rw [updateSlaveFrame_eq same]

theorem updateSlaveFrame_slave (j : Nat) :
    ((s.updateSlaveFrame i next).slave j).live = (s.slave j).live ∧
      ((s.updateSlaveFrame i next).slave j).obj = (s.slave j).obj := by
  by_cases same : (s.slave i).frame = next
  · rw [updateSlaveFrame_same same]
    exact ⟨rfl, rfl⟩
  · rw [updateSlaveFrame_eq same]
    dsimp only
    by_cases own : j = i
    · subst own
      rw [Function.update_self]
      exact ⟨rfl, rfl⟩
    · rw [Function.update_of_ne own]
      exact ⟨rfl, rfl⟩

theorem updateSlaveFrame_frame : ((s.updateSlaveFrame i next).slave i).frame = next := by
  by_cases same : (s.slave i).frame = next
  · rw [updateSlaveFrame_same same]
    exact same
  · rw [updateSlaveFrame_eq same]
    dsimp only
    rw [Function.update_self]

end Players

namespace Framed

variable {past : List PlayerEvent} {s t : Players} {p q i j f : Nat} {next : Option Nat}

theorem gone_told {log : List PlayerEvent} {frames : List Nat} :
    destroyedFrames (past ++ (log ++ frames.map .destroyed)) =
      destroyedFrames (past ++ log) ++ frames := by
  rw [← List.append_assoc, destroyedFrames_append, destroyedFrames_told]

theorem inside (framed : Framed past s) (live : (s.player p).live = true) : p < s.players := by
  by_contra above
  rw [framed.fresh p (Nat.le_of_not_lt above)] at live
  cases live

theorem slaveInside (framed : Framed past s) (live : (s.slave i).live = true) : i < s.slaves := by
  by_contra above
  rw [framed.slaveFresh i (Nat.le_of_not_lt above)] at live
  cases live

theorem live (framed : Framed past s) (obj : (s.player p).obj = true) :
    (s.player p).live = true := by
  by_contra dead
  rw [(framed.freed p (Bool.eq_false_iff.mpr dead)).1] at obj
  cases obj

theorem slaveLive (framed : Framed past s) (obj : (s.slave i).obj = true) :
    (s.slave i).live = true := by
  by_contra dead
  rw [(framed.slaveFreed i (Bool.eq_false_iff.mpr dead)).1] at obj
  cases obj

/-- What a player has is still referred to. -/
theorem alive (framed : Framed past s) (had : (s.player p).frame = some f) :
    0 < References.holders s.refs s.holders f := by
  have ref : s.refs (.player p) = some f := had
  exact framed.owned.held ref

/-! ## One binding changes -/

/-- The binding of one player changes. -/
theorem editPlayer (framed : Framed past s) {b : Player} {refs : Holder → Option Nat}
    (member : p < s.players)
    (player : t.player = Function.update s.player p b) (slave : t.slave = s.slave)
    (players : t.players = s.players) (slaves : t.slaves = s.slaves)
    (moves : t.refs = refs)
    (owned : Owned s.holders refs t.owners t.frames (destroyedFrames (past ++ t.log)))
    (shown : b.obj = true → ∀ f, b.source = some (.image f) → b.frame = some f)
    (taking : ∀ u, t.publishing = some u → (t.player u.player).frame = some u.frame)
    (freed : b.live = false → b.obj = false ∧ b.frame = none)
    (timed : b.live = true → b.obj = false → b.timer = true)
    (left : t.orphans + (if (s.player p).live && !(s.player p).obj then 1 else 0) =
      s.orphans + if b.live && !b.obj then 1 else 0) : Framed past t := by
  have moved : ∀ q, t.player q = if q = p then b else s.player q := by
    intro q
    rw [player, Function.update_apply]
  have holders : t.holders = s.holders := by
    rw [Players.holders, players, slaves, Players.holders]
  refine ⟨by rw [holders, moves]; exact owned, fun q f obj => ?_, fun i => ?_, taking, fun q above => ?_, fun i above => ?_,
    fun q dead => ?_, fun i => ?_, fun q alive gone => ?_, fun i => ?_, ?_⟩
  · rw [moved] at obj ⊢
    split at obj
    · rename_i own
      rw [if_pos own]
      exact shown obj f
    · rename_i other
      rw [if_neg other]
      exact framed.shown q f obj
  · rw [slave]
    exact framed.slaveShown i
  · rw [players] at above
    rw [moved, if_neg (by omega)]
    exact framed.fresh q above
  · rw [slave]
    exact framed.slaveFresh i (slaves ▸ above)
  · rw [moved] at dead ⊢
    split at dead
    · rename_i own
      rw [if_pos own]
      exact freed dead
    · rename_i other
      rw [if_neg other]
      exact framed.freed q dead
  · rw [slave]
    exact framed.slaveFreed i
  · rw [moved] at alive gone ⊢
    split at alive
    · rename_i own
      rw [if_pos own] at gone ⊢
      exact timed alive gone
    · rename_i other
      rw [if_neg other] at gone ⊢
      exact framed.timed q alive gone
  · rw [slave]
    exact framed.slaveTimed i
  · have count := countP_update List.nodup_range (List.mem_range.mpr member) s.player b
      fun b => b.live && !b.obj
    have before := framed.left
    simp only [Players.leftCount] at before
    simp only [Players.leftCount, player, players, slave, slaves]
    omega

/-- The binding of one slave changes. -/
theorem editSlave (framed : Framed past s) {r : Slave} {refs : Holder → Option Nat}
    (member : i < s.slaves)
    (slave : t.slave = Function.update s.slave i r) (player : t.player = s.player)
    (players : t.players = s.players) (slaves : t.slaves = s.slaves)
    (publishing : t.publishing = s.publishing)
    (moves : t.refs = refs)
    (owned : Owned s.holders refs t.owners t.frames (destroyedFrames (past ++ t.log)))
    (shown : r.obj = true → r.source = r.frame)
    (freed : r.live = false → r.obj = false ∧ r.frame = none)
    (timed : r.live = true → r.obj = false → r.timer = true)
    (left : t.orphans + (if (s.slave i).live && !(s.slave i).obj then 1 else 0) =
      s.orphans + if r.live && !r.obj then 1 else 0) : Framed past t := by
  have moved : ∀ j, t.slave j = if j = i then r else s.slave j := by
    intro j
    rw [slave, Function.update_apply]
  have holders : t.holders = s.holders := by
    rw [Players.holders, players, slaves, Players.holders]
  refine ⟨by rw [holders, moves]; exact owned, fun p => ?_, fun j obj => ?_, fun u taken => ?_, fun p above => ?_,
    fun j above => ?_, fun p => ?_, fun j dead => ?_, fun p => ?_, fun j alive gone => ?_, ?_⟩
  · rw [player]
    exact framed.shown p
  · rw [moved] at obj ⊢
    split at obj
    · rename_i own
      rw [if_pos own]
      exact shown obj
    · rename_i other
      rw [if_neg other]
      exact framed.slaveShown j obj
  · rw [player]
    exact framed.taking u (publishing ▸ taken)
  · rw [player]
    exact framed.fresh p (players ▸ above)
  · rw [slaves] at above
    rw [moved, if_neg (by omega)]
    exact framed.slaveFresh j above
  · rw [player]
    exact framed.freed p
  · rw [moved] at dead ⊢
    split at dead
    · rename_i own
      rw [if_pos own]
      exact freed dead
    · rename_i other
      rw [if_neg other]
      exact framed.slaveFreed j dead
  · rw [player]
    exact framed.timed p
  · rw [moved] at alive gone ⊢
    split at alive
    · rename_i own
      rw [if_pos own] at gone ⊢
      exact timed alive gone
    · rename_i other
      rw [if_neg other] at gone ⊢
      exact framed.slaveTimed j alive gone
  · have count := countP_update List.nodup_range (List.mem_range.mpr member) s.slave r
      fun r => r.live && !r.obj
    have before := framed.left
    simp only [Players.leftCount] at before
    simp only [Players.leftCount, player, players, slave, slaves]
    omega

/-- References that change with the frame of one player. -/
theorem refs_player {b : Player} (player : t.player = Function.update s.player p b)
    (slave : t.slave = s.slave) (publishing : t.publishing = s.publishing) :
    t.refs = Function.update s.refs (.player p) b.frame := by
  funext holder
  cases holder with
  | player q =>
      by_cases own : q = p
      · subst own
        simp only [Players.refs, player, Function.update_self]
      · have other : Holder.player q ≠ .player p := fun equal => own (Holder.player.inj equal)
        simp only [Players.refs, player, Function.update_of_ne other, Function.update_of_ne own]
  | slave i => simp only [Players.refs, slave, ne_eq, reduceCtorEq, not_false_eq_true,
      Function.update_of_ne]
  | old => simp only [Players.refs, publishing, ne_eq, reduceCtorEq, not_false_eq_true,
      Function.update_of_ne]

/-- References that change with the frame of one slave. -/
theorem refs_slave {r : Slave} (slave : t.slave = Function.update s.slave i r)
    (player : t.player = s.player) (publishing : t.publishing = s.publishing) :
    t.refs = Function.update s.refs (.slave i) r.frame := by
  funext holder
  cases holder with
  | slave j =>
      by_cases own : j = i
      · subst own
        simp only [Players.refs, slave, Function.update_self]
      · have other : Holder.slave j ≠ .slave i := fun equal => own (Holder.slave.inj equal)
        simp only [Players.refs, slave, Function.update_of_ne other, Function.update_of_ne own]
  | player p => simp only [Players.refs, player, ne_eq, reduceCtorEq, not_false_eq_true,
      Function.update_of_ne]
  | old => simp only [Players.refs, publishing, ne_eq, reduceCtorEq, not_false_eq_true,
      Function.update_of_ne]

theorem refs_player_kept {b : Player} (player : t.player = Function.update s.player p b)
    (slave : t.slave = s.slave) (publishing : t.publishing = s.publishing)
    (same : b.frame = (s.player p).frame) : t.refs = s.refs := by
  rw [refs_player player slave publishing, same]
  exact Function.update_eq_self (Holder.player p) s.refs

theorem refs_slave_kept {r : Slave} (slave : t.slave = Function.update s.slave i r)
    (player : t.player = s.player) (publishing : t.publishing = s.publishing)
    (same : r.frame = (s.slave i).frame) : t.refs = s.refs := by
  rw [refs_slave slave player publishing, same]
  exact Function.update_eq_self (Holder.slave i) s.refs

/-! ## The frames of slaves -/

theorem updateSlaveFrame (framed : Framed past s) (live : (s.slave i).live = true)
    (had : ∀ f, next = some f → ∃ p, (s.player p).frame = some f) :
    Framed past (s.updateSlaveFrame i next) := by
  by_cases same : (s.slave i).frame = next
  · rw [Players.updateSlaveFrame_same same]
    exact framed
  have member := framed.slaveInside live
  rw [Players.updateSlaveFrame_eq same]
  refine framed.editSlave member rfl rfl rfl rfl rfl (refs_slave rfl rfl rfl) ?_ ?_ ?_ ?_ rfl
  · rw [gone_told]
    refine framed.owned.retarget (Players.holders_slave.mpr member) fun f want => ?_
    obtain ⟨p, frame⟩ := had f want
    exact framed.alive frame
  · intro obj
    exact if_pos obj
  · intro dead
    rw [live] at dead
    cases dead
  · exact framed.slaveTimed i

theorem publishSlaves (framed : Framed past s) {frame : Option Nat}
    (had : ∀ f, frame = some f → ∃ q, (s.player q).frame = some f) :
    Framed past (s.publishSlaves p frame) ∧ (s.publishSlaves p frame).player = s.player := by
  unfold Players.publishSlaves
  generalize (s.player p).slaves = slaves
  induction slaves generalizing s with
  | nil => exact ⟨framed, rfl⟩
  | cons i rest ih =>
      rw [List.foldl_cons]
      split
      · rename_i linked
        have obj : (s.slave i).obj = true := by
          simp only [Bool.and_eq_true] at linked
          exact linked.1
        have updated := framed.updateSlaveFrame (framed.slaveLive obj) had
        have player : (s.updateSlaveFrame i frame).player = s.player :=
          Players.updateSlaveFrame_player
        obtain ⟨all, last⟩ := ih updated (by rw [player]; exact had)
        exact ⟨all, last.trans player⟩
      · exact ih framed had

/-! ## The frames of players -/

theorem retireFrame (framed : Framed past s) (quiet : s.publishing = none) :
    Framed past (s.retireFrame p) := by
  cases had : (s.player p).frame with
  | none =>
      unfold Players.retireFrame
      rw [had]
      exact framed
  | some f =>
      have live : (s.player p).live = true := by
        by_contra dead
        rw [(framed.freed p (Bool.eq_false_iff.mpr dead)).2] at had
        cases had
      have member := framed.inside live
      rw [Players.retireFrame_eq had]
      refine framed.editPlayer member rfl rfl rfl rfl (refs_player rfl rfl rfl) ?_ ?_ ?_ ?_ ?_ rfl
      · rw [gone_told]
        have released := framed.owned.drop (Players.holders_player.mpr member)
        have ref : s.refs (.player p) = some f := had
        rw [ref] at released
        exact released
      · intro obj f source
        rw [if_pos obj] at source
        cases source
      · intro u taken
        rw [quiet] at taken
        cases taken
      · intro dead
        rw [live] at dead
        cases dead
      · exact framed.timed p

theorem retire (framed : Framed past s) {closed : Bool} (quiet : s.publishing = none) :
    Framed past (s.retire p closed).2 := by
  have shut : FrameBlind s (if s.planeBuild then s.edit p fun b => { b with plane := false }
      else s) := by
    split
    · exact .edit rfl fun _ => id
    · exact .refl
  unfold Players.retire
  split
  · exact framed
  refine ((shut.framed framed).publishSlaves (by nofun)).1.retireFrame ?_
  rw [Players.FramesOnly.publishSlaves.publishing, shut.publishing]
  exact quiet

/-- A retirement that succeeds leaves the player without a frame. -/
theorem retire_frame {closed : Bool} (retired : (s.retire p closed).1 = true) :
    ((s.retire p closed).2.player p).frame = none := by
  unfold Players.retire at retired ⊢
  split
  · rename_i refused
    rw [if_pos refused] at retired
    cases retired
  dsimp only
  generalize Players.publishSlaves _ p none = t
  cases had : (t.player p).frame with
  | none =>
      unfold Players.retireFrame
      rw [had]
      exact had
  | some f =>
      rw [Players.retireFrame_eq had]
      dsimp only
      rw [Function.update_self]

/-! ## Bindings that are left and freed -/

theorem freePlayer (framed : Framed past s) (live : (s.player p).live = true)
    (gone : (s.player p).obj = false) (empty : (s.player p).frame = none) :
    Framed past (s.edit p fun b => { b with live := false, timer := false }).free := by
  have member := framed.inside live
  have refs : (s.edit p fun b => { b with live := false, timer := false }).free.refs = s.refs :=
    refs_player_kept rfl rfl rfl rfl
  refine framed.editPlayer member rfl rfl rfl rfl refs framed.owned ?_ ?_ ?_ nofun ?_
  · intro obj
    rw [gone] at obj
    cases obj
  · intro u taken
    have frame := framed.taking u taken
    have other : u.player ≠ p := by
      intro same
      rw [same, empty] at frame
      cases frame
    change ((Function.update s.player p _) u.player).frame = some u.frame
    rw [Function.update_of_ne other]
    exact frame
  · exact fun _ => ⟨gone, empty⟩
  · have positive : 0 < s.orphans := by
      rw [framed.left, Players.leftCount]
      refine Nat.add_pos_left (List.countP_pos_iff.mpr ⟨p, List.mem_range.mpr member, ?_⟩) _
      rw [live, gone]
      rfl
    rw [live, gone]
    change s.orphans - 1 + 1 = s.orphans + 0
    omega

theorem freeSlave (framed : Framed past s) (live : (s.slave i).live = true)
    (gone : (s.slave i).obj = false) (empty : (s.slave i).frame = none) :
    Framed past (s.editSlave i fun r => { r with live := false, timer := false }).free := by
  have member := framed.slaveInside live
  have refs : (s.editSlave i fun r => { r with live := false, timer := false }).free.refs =
      s.refs :=
    refs_slave_kept rfl rfl rfl rfl
  refine framed.editSlave member rfl rfl rfl rfl rfl refs framed.owned ?_ ?_ nofun ?_
  · intro obj
    rw [gone] at obj
    cases obj
  · exact fun _ => ⟨gone, empty⟩
  · have positive : 0 < s.orphans := by
      rw [framed.left, Players.leftCount]
      refine Nat.add_pos_right _ (List.countP_pos_iff.mpr ⟨i, List.mem_range.mpr member, ?_⟩)
      rw [live, gone]
      rfl
    rw [live, gone]
    change s.orphans - 1 + 1 = s.orphans + 0
    omega

theorem orphanPlayer (framed : Framed past s) (obj : (s.player p).obj = true) :
    Framed past (s.edit p fun b => { b with
      obj := false
      reopen := false
      timer := true }).orphan := by
  have live := framed.live obj
  have refs : (s.edit p fun b => { b with
      obj := false
      reopen := false
      timer := true }).orphan.refs = s.refs :=
    refs_player_kept rfl rfl rfl rfl
  refine framed.editPlayer (framed.inside live) rfl rfl rfl rfl refs framed.owned nofun ?_ ?_
    (fun _ _ => rfl) ?_
  · intro u taken
    have frame := framed.taking u taken
    change ((s.edit p fun b => { b with
      obj := false
      reopen := false
      timer := true }).player u.player).frame = some u.frame
    exact (Players.edit_view Player.frame rfl u.player).trans frame
  · intro dead
    rw [live] at dead
    cases dead
  · rw [live, obj]
    rfl

theorem orphanSlave (framed : Framed past s) (obj : (s.slave i).obj = true) :
    Framed past (s.editSlave i fun r => { r with obj := false, timer := true }).orphan := by
  have live := framed.slaveLive obj
  have refs : (s.editSlave i fun r => { r with obj := false, timer := true }).orphan.refs =
      s.refs :=
    refs_slave_kept rfl rfl rfl rfl
  refine framed.editSlave (framed.slaveInside live) rfl rfl rfl rfl rfl refs framed.owned nofun ?_
    (fun _ _ => rfl) ?_
  · intro dead
    rw [live] at dead
    cases dead
  · rw [live, obj]
    rfl

theorem deleteSlave (framed : Framed past s) (obj : (s.slave i).obj = true) :
    Framed past (s.deleteSlave i) := by
  have unlinked : FrameBlind s (s.unlinkSlave i) := .unlinkSlave
  exact (unlinked.framed framed).orphanSlave (unlinked.slaveObj.trans obj)

theorem deletePlayer (framed : Framed past s) (obj : (s.player p).obj = true) :
    Framed past (s.deletePlayer p) := by
  have unlinked : FrameBlind s ((s.player p).slaves.foldl
      (fun s i => (s.unlinkSlave i).editSlave i fun r => { r with timer := true }) s) :=
    .foldl fun _ _ => FrameBlind.unlinkSlave.trans (.editSlave rfl fun _ _ => rfl)
  have alone := unlinked.trans (.groupUnlink (p := p))
  have orphaned := (alone.framed framed).orphanPlayer (alone.obj.trans obj)
  exact FrameBlind.backendClose.framed orphaned

theorem slaveTick (framed : Framed past s) {idle : Bool} (live : (s.slave i).live = true) :
    Framed past (s.slaveTick i idle) := by
  unfold Players.slaveTick
  split
  · exact framed
  dsimp only
  generalize wanted : (if (s.slave i).obj then (s.slave i).master.bind fun p => (s.player p).frame
    else none) = next
  have had : ∀ f, next = some f → ∃ p, (s.player p).frame = some f := by
    rintro f rfl
    split at wanted
    · obtain ⟨p, _, frame⟩ := Option.bind_eq_some_iff.mp wanted
      exact ⟨p, frame⟩
    · cases wanted
  have updated := framed.updateSlaveFrame live had
  obtain ⟨stays, object⟩ : ((s.updateSlaveFrame i next).slave i).live = (s.slave i).live ∧
      ((s.updateSlaveFrame i next).slave i).obj = (s.slave i).obj :=
    Players.updateSlaveFrame_slave i
  split
  · rename_i gone
    have gone : (s.slave i).obj = false := by simpa using gone
    rw [gone] at wanted
    subst wanted
    exact updated.freeSlave (stays.trans live) (object.trans gone) Players.updateSlaveFrame_frame
  rename_i obj
  have obj : (s.slave i).obj = true := by simpa using obj
  split
  · refine FrameBlind.framed (.editSlave rfl fun gone => ?_) updated
    rw [object, obj] at gone
    cases gone
  · exact updated

/-! ## Ticks -/

theorem tickClosed (framed : Framed past s) {a : TickAnswer} (live : (s.player p).live = true)
    (empty : (s.player p).frame = none) : Framed past (s.tickClosed p a).2 := by
  unfold Players.tickClosed
  split
  · rename_i gone
    exact framed.freePlayer live (by simpa using gone) empty
  rename_i obj
  split
  · dsimp only
    exact (FrameBlind.trans (.edit (by rfl) fun _ => id) .prepare).framed framed
  · dsimp only
    refine FrameBlind.framed (.edit (by rfl) fun gone => ?_) framed
    rw [gone] at obj
    exact absurd rfl obj

theorem tickClosing (framed : Framed past s) {a : TickAnswer} (quiet : s.publishing = none)
    (live : (s.player p).live = true) : Framed past (s.tickClosing p a).2 := by
  have retired : Framed past (s.retire p a.closed).2 := framed.retire quiet
  unfold Players.tickClosing
  dsimp only
  split
  · exact retired
  rename_i done
  have empty : ((s.retire p a.closed).2.player p).frame = none :=
    retire_frame (by simpa using done)
  have stays : ((s.retire p a.closed).2.player p).live = true := by
    have only : Players.FramesOnly s (s.retire p a.closed).2 := .retire
    exact (congrArg Player.live (only.player p)).trans live
  generalize (s.retire p a.closed).2 = t at retired empty stays ⊢
  have asked : FrameBlind t ((t.edit p fun b =>
      { b with status := if b.backend.isSome then a.status else b.status }).backendDestroy p
        a.destroyed).2 := FrameBlind.trans (.edit rfl fun _ => id) .backendDestroy
  split
  · exact asked.framed retired
  · have opened : FrameBlind t (((t.edit p fun b =>
        { b with status := if b.backend.isSome then a.status else b.status }).backendDestroy p
          a.destroyed).2.edit p fun b => { b with closing := false }) :=
      asked.trans (.edit rfl fun _ => id)
    exact (opened.framed retired).tickClosed (opened.live.trans stays) (opened.frame.trans empty)

/-- A frame is taken by a player whose object does not keep the image of the frame
before. -/
theorem takeFrame (framed : Framed past s) (quiet : s.publishing = none)
    (live : (s.player p).live = true)
    (windowed : (s.player p).planeEnabled = true → ∀ f, (s.player p).frame = some f →
      (s.player p).source ≠ some (.image f)) : Framed past (s.takeFrame p) := by
  have member := framed.inside live
  have taken : ((s.takeFrame p).player p).frame = some s.frames := by
    rw [Players.takeFrame, Players.edit_player_self]
  have refs : (s.takeFrame p).refs = Function.update
      (Function.update s.refs (.player p) (some s.frames)) .old (s.refs (.player p)) := by
    funext holder
    cases holder with
    | player q =>
        rw [Function.update_of_ne (by nofun)]
        by_cases own : q = p
        · subst own
          rw [Function.update_self]
          exact taken
        · have other : ((s.takeFrame p).player q).frame = (s.player q).frame := by
            rw [Players.takeFrame, Players.edit_player_ne own]
            rfl
          rw [Function.update_of_ne fun equal => own (Holder.player.inj equal)]
          exact other
    | slave i =>
        rw [Function.update_of_ne (by nofun), Function.update_of_ne (by nofun)]
        rfl
    | old =>
        rw [Function.update_self]
        rfl
  refine framed.editPlayer member rfl rfl rfl rfl refs ?_ ?_ ?_ ?_ ?_ rfl
  · have same : destroyedFrames (past ++ (s.takeFrame p).log) =
        destroyedFrames (past ++ s.log) := by
      change destroyedFrames (past ++ (s.log ++ [.allocated s.frames])) = _
      rw [← List.append_assoc, destroyedFrames_append]
      exact List.append_nil _
    rw [same]
    refine framed.owned.make (Players.holders_player.mpr member) Players.holders_old nofun ?_
    change s.publishing.bind Publishing.old = none
    rw [quiet]
    rfl
  · intro obj f source
    dsimp only at obj source ⊢
    split at source
    · rename_i kept
      simp only [Bool.and_eq_true] at kept
      exact absurd source (windowed kept.1 f (framed.shown p f obj source))
    · cases source
      rfl
  · intro u publishing
    cases publishing
    exact taken
  · intro dead
    exact absurd (live.symm.trans dead) (by simp)
  · exact framed.timed p

/-- The source of an object changes to the window. -/
theorem showWindow (framed : Framed past s) {change : Player → Player}
    (quiet : s.publishing = none) (alive : (s.player p).live = true)
    (kept : ((change (s.player p)).live, (change (s.player p)).obj, (change (s.player p)).frame,
      (change (s.player p)).timer) =
        ((s.player p).live, (s.player p).obj, (s.player p).frame, (s.player p).timer))
    (source : (change (s.player p)).source = (s.player p).source ∨
      (change (s.player p)).source = some .window) : Framed past (s.edit p change) := by
  simp only [Prod.mk.injEq] at kept
  obtain ⟨live, obj, frame, timer⟩ := kept
  have refs : (s.edit p change).refs = s.refs := refs_player_kept rfl rfl rfl frame
  refine framed.editPlayer (framed.inside alive) rfl rfl rfl rfl refs framed.owned ?_ ?_ ?_ ?_ ?_
  · intro object f image
    rcases source with same | window
    · rw [frame]
      exact framed.shown p f (obj ▸ object) (same ▸ image)
    · rw [window] at image
      cases image
  · intro u taken
    have taken : s.publishing = some u := taken
    rw [quiet] at taken
    cases taken
  · rw [live, obj, frame]
    exact framed.freed p
  · rw [live, obj, timer]
    exact framed.timed p
  · rw [live, obj]
    rfl

theorem tickPlane (framed : Framed past s) {e : EndAnswer} (quiet : s.publishing = none) :
    Framed past (s.tickPlane p e) ∧ (s.tickPlane p e).publishing = none := by
  unfold Players.tickPlane
  dsimp only
  split
  · rename_i shows
    simp only [Bool.and_eq_true] at shows
    have live := framed.live shows.1.1.1.1.2
    split
    · exact ⟨framed.showWindow quiet live rfl (.inr rfl), quiet⟩
    · exact ⟨framed, quiet⟩
    · rename_i window plane answer
      have refused : Framed past (s.edit p fun b => { b with
          source := if window then some .window else b.source
          plane := b.plane || plane
          planeFailed := true
          state := .fault }) := by
        refine framed.showWindow quiet live rfl ?_
        cases window with
        | false => exact .inl rfl
        | true => exact .inr rfl
      have closed := (FrameBlind.backendClose (p := p)).framed refused
      exact ⟨closed.retire quiet, Players.FramesOnly.retire.publishing.trans quiet⟩
  · exact ⟨framed, quiet⟩

theorem tickRestart (framed : Framed past s) {e : EndAnswer} (quiet : s.publishing = none) :
    Framed past (s.tickRestart p e) := by
  have waited : FrameBlind s (s.groupWait p).2 := .groupWait
  unfold Players.tickRestart
  dsimp only
  split
  · split
    · refine retire ?_ ?_
      · exact (waited.trans (.trans (.edit (by rfl) fun _ => id)
          (.groupReset fun _ => rfl))).framed framed
      · exact (waited.trans (.trans (.edit (by rfl) fun _ => id)
          (.groupReset fun _ => rfl))).publishing.trans quiet
    · exact waited.framed framed
  · exact framed

theorem tickEnd (framed : Framed past s) {e : EndAnswer} (quiet : s.publishing = none) :
    Framed past (s.tickEnd p e) := by
  obtain ⟨planed, still⟩ := framed.tickPlane (p := p) (e := e) quiet
  exact FrameBlind.tickReport.framed (planed.tickRestart still)

theorem publish (framed : Framed past s) {t : Publishing} (taken : s.publishing = some t) :
    Framed past (s.publish t) := by
  have had : ∀ f, some t.frame = some f → ∃ q, (s.player q).frame = some f := by
    intro f same
    exact ⟨t.player, (framed.taking t taken).trans same⟩
  have presented := (FrameBlind.present (p := t.player)).framed
    (framed.publishSlaves (p := t.player) had).1
  have still : (((s.publishSlaves t.player (some t.frame)).present t.player)).publishing =
      some t := by
    rw [FrameBlind.present.publishing, Players.FramesOnly.publishSlaves.publishing]
    exact taken
  unfold Players.publish
  generalize (s.publishSlaves t.player (some t.frame)).present t.player = u at presented still
  have ref : u.refs .old = t.old := by
    change u.publishing.bind Publishing.old = t.old
    rw [still]
    rfl
  have released := presented.owned.drop Players.holders_old
  have refs : Players.refs { u with publishing := none } =
      Function.update u.refs .old none := by
    funext holder
    cases holder with
    | old => rw [Function.update_self]; rfl
    | player p => rw [Function.update_of_ne (by nofun)]; rfl
    | slave i => rw [Function.update_of_ne (by nofun)]; rfl
  rw [ref, ← refs, ← gone_told] at released
  rw [Players.releaseFrame_eq]
  exact ⟨released, presented.shown, presented.slaveShown, nofun, presented.fresh,
    presented.slaveFresh, presented.freed, presented.slaveFreed, presented.timed,
    presented.slaveTimed, presented.left⟩

theorem settle (framed : Framed past s) {t : Publishing} {e : EndAnswer}
    (taken : s.publishing = some t) : Framed past (s.settle t e) :=
  (framed.publish taken).tickEnd rfl

end Framed

/-! ## Ticks that take a frame -/

namespace Players

variable {s t : Players} {p q : Nat}

/-- What a tick reads of a player before it takes a frame. -/
def reading (b : Player) : Bool × Bool × Bool × Option Nat :=
  (b.planeEnabled, b.renderEnabled, b.groupPresented, b.group)

theorem groupWait_view {View : Type*} (view : Player → View)
    (unseen : ∀ (b : Player) (presented : Bool),
      view { b with groupPresented := presented } = view b) :
    view ((s.groupWait p).2.player q) = view (s.player q) := by
  unfold groupWait
  split
  · rfl
  split
  · change view ((s.edit p fun b => { b with groupPresented := true }).player q) = _
    exact edit_view view (unseen (s.player p) true) q
  · dsimp only
    split
    · exact groupReset_view view fun b => unseen b false
    · rfl

theorem groupReset_presented {g : Nat} {event : Nat → PlayerEvent} :
    ((s.groupReset (some g) event).player q).groupPresented =
      if q ∈ (s.group g).members then false else (s.player q).groupPresented := by
  simp only [groupReset]
  split <;> rfl

/-- The answer of the barrier depends on the group and on who has presented. -/
theorem groupWait_congr (group : t.group = s.group)
    (same : ∀ q, reading (t.player q) = reading (s.player q)) :
    (t.groupWait p).1 = (s.groupWait p).1 := by
  simp only [reading, Prod.mk.injEq] at same
  have presented : ∀ q, (t.player q).groupPresented = (s.player q).groupPresented := fun q =>
    (same q).2.2.1
  unfold groupWait
  rw [(same p).2.2.2]
  cases (s.player p).group with
  | none => rfl
  | some g =>
      dsimp only
      rw [(same p).2.1, group]
      simp only [presented]
      split
      · rfl
      · split
        · simp only [groupReset_presented, group, presented]
        · simp only [presented]

variable (s)

/-- The tick takes a frame. -/
def takes (p : Nat) (a : TickAnswer) : Bool :=
  let b := s.player p
  let state := a.status.state.shown b.state
  a.idle && b.obj && !b.closing && b.backend.isSome && !a.status.seekPending &&
    !(s.planeBuild && b.planeFailed) && (state = .playing || state = .terminal) &&
    !(s.groupWait p).1 && a.allocated && a.polled && b.renderEnabled

/-- The answer of a retirement for a seek. -/
def sought (p : Nat) (a : TickAnswer) : Bool × Players :=
  (s.edit p fun b => { b with status := a.status }).tickSeek p a

/-- The tick knows the state that the status gives. -/
def known (p : Nat) (a : TickAnswer) : Players :=
  (s.sought p a).2.edit p fun b => { b with
    state := if s.planeBuild && b.planeFailed then .fault else a.status.state.shown b.state }

variable {s}

theorem tickBackend_eq {a : TickAnswer} : s.tickBackend p a =
    if !(s.sought p a).1 then (false, (s.sought p a).2)
    else
      match ((s.known p a).player p).state with
      | .fault => (true, ((s.known p a).retire p a.closedFault).2)
      | .playing | .terminal => (s.known p a).tickPublish p a
      | _ => (true, s.known p a) := rfl

theorem tickClosing_publishing {a : TickAnswer} :
    (s.tickClosing p a).2.publishing = s.publishing := by
  have retired : (s.retire p a.closed).2.publishing = s.publishing :=
    FramesOnly.retire.publishing
  unfold tickClosing
  dsimp only
  split
  · exact retired
  generalize (s.retire p a.closed).2 = t at retired ⊢
  have asked : FrameBlind t ((t.edit p fun b =>
      { b with status := if b.backend.isSome then a.status else b.status }).backendDestroy p
        a.destroyed).2 := FrameBlind.trans (.edit rfl fun _ => id) .backendDestroy
  split
  · exact asked.publishing.trans retired
  unfold tickClosed
  split
  · exact asked.publishing.trans retired
  split
  · exact FrameBlind.prepare.publishing.trans (asked.publishing.trans retired)
  · exact asked.publishing.trans retired

theorem sought_idle {a : TickAnswer} (calm : a.status.seekPending = false) :
    s.sought p a = (true, s.edit p fun b => { b with status := a.status }) := by
  simp only [sought, tickSeek, calm, Bool.false_eq_true, if_false]

theorem sought_frame {a : TickAnswer} (seeks : a.status.seekPending = true)
    (done : (s.sought p a).1 = true) : ((s.sought p a).2.player p).frame = none := by
  simp only [sought, tickSeek, seeks, if_true] at done ⊢
  exact Framed.retire_frame done

/-- A frame that is taken over another is one that the condition is about. -/
theorem known_takes {a : TickAnswer} (idle : a.idle = true) (obj : (s.player p).obj = true)
    (opened : (s.player p).closing = false) (backend : (s.player p).backend.isSome = true)
    (calm : a.status.seekPending = false)
    (shows : ((s.known p a).player p).state = .playing ∨
      ((s.known p a).player p).state = .terminal)
    (turn : ((s.known p a).groupWait p).1 = false) (allocated : a.allocated = true)
    (polled : a.polled = true) (renders : ((s.known p a).player p).renderEnabled = true) :
    s.takes p a = true := by
  have player : (s.known p a).player p = { s.player p with
      status := a.status
      state := if s.planeBuild && (s.player p).planeFailed then .fault
        else a.status.state.shown (s.player p).state } := by
    rw [known, sought_idle calm, edit_player_self, edit_player_self]
  have waits : ((s.known p a).groupWait p).1 = (s.groupWait p).1 := by
    rw [known, sought_idle calm]
    refine groupWait_congr rfl fun q => ?_
    dsimp only
    exact (edit_view reading rfl q).trans (edit_view reading rfl q)
  rw [player] at shows renders
  rw [waits] at turn
  dsimp only at shows renders
  have working : (s.planeBuild && (s.player p).planeFailed) = false := by
    by_contra failed
    rw [if_pos (by simpa using failed)] at shows
    rcases shows with shows | shows <;> cases shows
  rw [if_neg (by simp [working])] at shows
  simp only [takes, idle, obj, opened, backend, calm, working, turn, allocated, polled, renders,
    Bool.not_false, Bool.and_true, Bool.true_and, Bool.or_eq_true, decide_eq_true_eq]
  exact shows

end Players

/-- No tick takes a frame for a player with a plane whose object still shows the
image of the frame before. -/
def Windowed (_ : List PlayerEvent) (s : Players) : PlayerAction → Prop
  | .tick p a _ => s.takes p a = true → (s.player p).planeEnabled = true →
      ∀ f, (s.player p).frame = some f → (s.player p).source ≠ some (.image f)
  | _ => True

namespace Framed

variable {past : List PlayerEvent} {s t : Players} {p q i f : Nat}

theorem tickPublish (framed : Framed past s) {a : TickAnswer} (quiet : s.publishing = none)
    (live : (s.player p).live = true)
    (windowed : (s.groupWait p).1 = false → a.allocated = true → a.polled = true →
      (s.player p).renderEnabled = true → (s.player p).planeEnabled = true →
        ∀ f, (s.player p).frame = some f → (s.player p).source ≠ some (.image f)) :
    Framed past (s.tickPublish p a).2 ∧
      ((s.tickPublish p a).1 = true → (s.tickPublish p a).2.publishing = none) := by
  have waited : FrameBlind s (s.groupWait p).2 := .groupWait
  have rendering : ((s.groupWait p).2.player p).renderEnabled = (s.player p).renderEnabled :=
    Players.groupWait_view Player.renderEnabled fun _ _ => rfl
  have plane : ((s.groupWait p).2.player p).planeEnabled = (s.player p).planeEnabled :=
    Players.groupWait_view Player.planeEnabled fun _ _ => rfl
  unfold Players.tickPublish
  dsimp only
  split
  · exact ⟨waited.framed framed, fun _ => waited.publishing.trans quiet⟩
  rename_i turn
  simp only [Bool.or_eq_true, Bool.not_eq_true', not_or, Bool.not_eq_true,
    Bool.not_eq_false] at turn
  split
  · have consumed : FrameBlind s ((((s.groupWait p).2.edit p fun b =>
        { b with groupPresented := true }).tell (.consumed p)).tell (.presented p)) :=
      waited.trans ((FrameBlind.edit rfl fun _ => id).trans (.trans (.tell rfl) (.tell rfl)))
    exact ⟨consumed.framed framed, fun _ => consumed.publishing.trans quiet⟩
  · rename_i renders
    rw [rendering] at renders
    refine ⟨(waited.framed framed).takeFrame (waited.publishing.trans quiet)
      (waited.live.trans live) ?_, nofun⟩
    rw [plane, waited.frame, waited.source]
    exact windowed turn.1.1 turn.1.2 turn.2 (by simpa using renders)

theorem tickBackend (framed : Framed past s) {a : TickAnswer} (quiet : s.publishing = none)
    (idle : a.idle = true) (obj : (s.player p).obj = true)
    (opened : (s.player p).closing = false) (backend : (s.player p).backend.isSome = true)
    (windowed : s.takes p a = true → (s.player p).planeEnabled = true →
      ∀ f, (s.player p).frame = some f → (s.player p).source ≠ some (.image f)) :
    Framed past (s.tickBackend p a).2 ∧
      ((s.tickBackend p a).1 = true → (s.tickBackend p a).2.publishing = none) := by
  have asked : FrameBlind s (s.edit p fun b => { b with status := a.status }) :=
    .edit rfl fun _ => id
  have sought : Framed past (s.sought p a).2 := by
    unfold Players.sought Players.tickSeek
    split
    · exact (asked.framed framed).retire quiet
    · exact asked.framed framed
  have only : Players.FramesOnly (s.edit p fun b => { b with status := a.status })
      (s.sought p a).2 := by
    unfold Players.sought Players.tickSeek
    split
    · exact .retire
    · exact .refl
  have known : FrameBlind (s.sought p a).2 (s.known p a) := .edit rfl fun _ => id
  have begun := known.framed sought
  have still : (s.known p a).publishing = none :=
    known.publishing.trans (only.publishing.trans quiet)
  have live : ((s.known p a).player p).live = true :=
    known.live.trans ((congrArg Player.live (only.player p)).trans
      (asked.live.trans (framed.live obj)))
  have safe : (s.sought p a).1 = true → (((s.known p a).player p).state = .playing ∨
      ((s.known p a).player p).state = .terminal) →
      ((s.known p a).groupWait p).1 = false → a.allocated = true → a.polled = true →
      ((s.known p a).player p).renderEnabled = true →
      ((s.known p a).player p).planeEnabled = true → ∀ f,
        ((s.known p a).player p).frame = some f →
          ((s.known p a).player p).source ≠ some (.image f) := by
    intro done shows turn allocated polled renders plane f had
    by_cases seeks : a.status.seekPending = true
    · rw [known.frame, Players.sought_frame seeks done] at had
      cases had
    · have calm : a.status.seekPending = false := Bool.eq_false_iff.mpr seeks
      have takes := Players.known_takes idle obj opened backend calm shows turn allocated polled
        renders
      rw [Players.known, Players.sought_idle calm, Players.edit_player_self,
        Players.edit_player_self] at had plane ⊢
      exact windowed takes plane f had
  rw [Players.tickBackend_eq]
  split
  · rename_i refused
    exact ⟨sought, nofun⟩
  rename_i done
  have done : (s.sought p a).1 = true := by simpa using done
  split
  · exact ⟨begun.retire still, fun _ => Players.FramesOnly.retire.publishing.trans still⟩
  · rename_i shows
    exact begun.tickPublish still live (safe done (.inl shows))
  · rename_i shows
    exact begun.tickPublish still live (safe done (.inr shows))
  · exact ⟨begun, fun _ => still⟩

theorem tickBegin (framed : Framed past s) {a : TickAnswer} {e : EndAnswer}
    (quiet : s.publishing = none) (idle : a.idle = true) (live : (s.player p).live = true)
    (windowed : Windowed past s (.tick p a e)) :
    Framed past (s.tickBegin p a).2 ∧
      ((s.tickBegin p a).1 = true → (s.tickBegin p a).2.publishing = none) := by
  unfold Players.tickBegin
  split
  · refine ⟨framed.tickClosing quiet live, fun _ => ?_⟩
    exact Players.tickClosing_publishing.trans quiet
  rename_i opened
  simp only [Bool.or_eq_true, Bool.not_eq_true', not_or, Bool.not_eq_true,
    Bool.not_eq_false] at opened
  split
  · rename_i backend
    exact framed.tickBackend quiet idle opened.1 opened.2 backend windowed
  · exact ⟨framed, fun _ => quiet⟩

theorem tick (framed : Framed past s) {a : TickAnswer} {e : EndAnswer}
    (quiet : s.publishing = none) (live : (s.player p).live = true)
    (windowed : Windowed past s (.tick p a e)) : Framed past (s.tick p a e) := by
  unfold Players.tick
  split
  · exact framed
  rename_i idle
  obtain ⟨begun, still⟩ := framed.tickBegin quiet (by simpa using idle) live windowed
  dsimp only
  split
  · rename_i goes
    exact begun.tickEnd (still goes)
  · exact begun

end Framed

end LvglAic.Widgets
