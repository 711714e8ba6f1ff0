import LvglAic.Widgets.PlayerSteps
import LvglAic.Widgets.Barrier

/-! # Groups publish in lockstep -/

namespace LvglAic.Widgets

namespace Players

variable {s t u : Players} {p q g : Nat} {past : List PlayerEvent}

/-- What the groups are about. -/
def roll (s : Players) : Roll where
  group p := (s.player p).group
  presented p := (s.player p).groupPresented
  rendered p := (s.player p).renderEnabled
  members g := (s.group g).members

/-- What a group sees of a player. -/
def enrolment (b : Player) : Option Nat × Bool × Bool × Bool :=
  (b.group, b.groupPresented, b.renderEnabled, b.obj)

/-- No group notices. -/
structure Unnoticed (s t : Players) : Prop where
  player : ∀ q, enrolment (t.player q) = enrolment (s.player q)
  group : t.group = s.group
  players : t.players = s.players
  groups : t.groups = s.groups
  publishing : t.publishing = s.publishing
  log : ∃ told, t.log = s.log ++ told ∧ ∀ event ∈ told, event.grouping = false

namespace Unnoticed

theorem refl : Unnoticed s s := ⟨fun _ => rfl, rfl, rfl, rfl, rfl, [], by simp, by simp⟩

theorem trans (first : Unnoticed s t) (second : Unnoticed t u) : Unnoticed s u := by
  obtain ⟨told, log, aside⟩ := first.log
  obtain ⟨more, next, also⟩ := second.log
  refine ⟨fun q => (second.player q).trans (first.player q), second.group.trans first.group,
    second.players.trans first.players, second.groups.trans first.groups,
    second.publishing.trans first.publishing, told ++ more, by rw [next, log, List.append_assoc],
    fun event member => ?_⟩
  rcases List.mem_append.mp member with early | late
  · exact aside event early
  · exact also event late

theorem edit (unseen : enrolment (change (s.player p)) = enrolment (s.player p)) :
    Unnoticed s (s.edit p change) :=
  ⟨edit_view enrolment unseen, rfl, rfl, rfl, rfl, [], by simp [Players.edit], by simp⟩

theorem tell {event : PlayerEvent} (aside : event.grouping = false) :
    Unnoticed s (s.tell event) :=
  ⟨fun _ => rfl, rfl, rfl, rfl, rfl, [event], rfl, by simpa using aside⟩

theorem framesOnly (only : FramesOnly s t) : Unnoticed s t := by
  obtain ⟨told, log, framing⟩ := only.log
  refine ⟨fun q => ?_, only.group, only.players, only.groups, only.publishing, told, log,
    fun event member => ?_⟩
  · simp only [enrolment, only.grouped, only.groupPresented, only.renderEnabled, only.obj]
  · have frame := framing event member
    cases event <;> first | rfl | cases frame

theorem backendPreserve {enabled : Bool} : Unnoticed s (s.backendPreserve p enabled).2 := by
  unfold Players.backendPreserve
  split
  · exact .refl
  split
  · dsimp only
    exact .edit (by rfl)
  · exact .refl

theorem backendClose : Unnoticed s (s.backendClose p) := .edit rfl

theorem roll (unnoticed : Unnoticed s t) : t.roll = s.roll := by
  have player := unnoticed.player
  simp only [enrolment, Prod.mk.injEq] at player
  simp only [Players.roll, Roll.mk.injEq]
  refine ⟨funext fun q => (player q).1, funext fun q => (player q).2.1,
    funext fun q => (player q).2.2.1, ?_⟩
  rw [unnoticed.group]

end Unnoticed

theorem update_view {View : Type} (view : Player → View) (b : Player) :
    (fun q => view (Function.update s.player p b q)) =
      Function.update (fun q => view (s.player q)) p (view b) := by
  funext q
  by_cases same : q = p
  · subst same
    rw [Function.update_self, Function.update_self]
  · rw [Function.update_of_ne same, Function.update_of_ne same]

theorem roll_edit : (s.edit p change).roll = { s.roll with
    group := Function.update s.roll.group p (change (s.player p)).group
    presented := Function.update s.roll.presented p (change (s.player p)).groupPresented
    rendered := Function.update s.roll.rendered p (change (s.player p)).renderEnabled } := by
  simp only [roll, edit_player]
  rw [update_view Player.group, update_view Player.groupPresented, update_view Player.renderEnabled]
  rfl

theorem roll_editMembers : (s.editMembers g change).roll = { s.roll with
    members := Function.update s.roll.members g (change (s.roll.members g)) } := by
  simp only [roll, editMembers, Roll.mk.injEq, true_and]
  funext h
  by_cases same : h = g
  · subst same
    rw [Function.update_self, Function.update_self]
  · rw [Function.update_of_ne same, Function.update_of_ne same]

theorem roll_groupReset {event : Nat → PlayerEvent} :
    (s.groupReset (some g) event).roll = s.roll.reset g := by
  simp only [roll, groupReset, Roll.reset, Roll.mk.injEq, and_true]
  refine ⟨funext fun q => ?_, funext fun q => ?_, funext fun q => ?_⟩
  · exact apply_ite Player.group .. |>.trans (ite_self _)
  · exact apply_ite Player.groupPresented ..
  · exact apply_ite Player.renderEnabled .. |>.trans (ite_self _)

/-- What a player shows when it leaves. -/
def leaving (s : Players) (p : Nat) : List PlayerEvent :=
  match (s.player p).group with
  | none => []
  | some g => [.left p g, .reset g]

theorem groupUnlink_log : (s.groupUnlink p).log = s.log ++ s.leaving p := by
  unfold groupUnlink leaving
  cases (s.player p).group with
  | none => exact (List.append_nil _).symm
  | some g =>
      change (s.log ++ [PlayerEvent.left p g]) ++ [PlayerEvent.reset g] = _
      rw [List.append_assoc]
      rfl

theorem roll_groupUnlink : (s.groupUnlink p).roll = s.roll.leave p := by
  unfold groupUnlink Roll.leave
  have inside : s.roll.group p = (s.player p).group := rfl
  dsimp only
  rw [roll_edit, inside]
  cases group : (s.player p).group with
  | none =>
      have alone : Function.update s.roll.group p none = s.roll.group :=
        Function.update_eq_self_iff.mpr (inside.trans group).symm
      have shown : Function.update s.roll.rendered p (s.player p).renderEnabled =
          s.roll.rendered := Function.update_eq_self p s.roll.rendered
      simp only [alone, shown]
  | some g =>
      have left : (((s.editMembers g (·.erase p)).tell (.left p g)).groupReset (some g)
          .reset).roll = Roll.reset { s.roll with
            members := Function.update s.roll.members g ((s.roll.members g).erase p) } g := by
        rw [roll_groupReset]
        refine congrArg (Roll.reset · g) ?_
        change (s.editMembers g (·.erase p)).roll = _
        exact roll_editMembers
      dsimp only
      generalize ((s.editMembers g (·.erase p)).tell (.left p g)).groupReset (some g) .reset = t
        at left ⊢
      have shown : Function.update t.roll.rendered p (t.player p).renderEnabled =
          t.roll.rendered := Function.update_eq_self p t.roll.rendered
      rw [shown, left]
      rfl

theorem roll_groupJoin : (s.groupJoin p g).roll = s.roll.join p g := by
  unfold groupJoin Roll.join
  rw [roll_groupReset]
  refine congrArg (Roll.reset · g) ?_
  change ((s.edit p fun b => { b with group := some g }).editMembers g (p :: ·)).roll = _
  rw [roll_editMembers, roll_edit]
  have seen : Function.update s.roll.presented p (s.player p).groupPresented =
      s.roll.presented := Function.update_eq_self p s.roll.presented
  have shown : Function.update s.roll.rendered p (s.player p).renderEnabled =
      s.roll.rendered := Function.update_eq_self p s.roll.rendered
  simp only [seen, shown]

theorem groupJoin_log : (s.groupJoin p g).log = s.log ++ [.joined p g] ++ [.reset g] := rfl

theorem roll_present :
    (s.edit p fun b => { b with groupPresented := true }).roll = s.roll.attend p := by
  rw [roll_edit]
  have alone : Function.update s.roll.group p (s.player p).group = s.roll.group :=
    Function.update_eq_self p s.roll.group
  have shown : Function.update s.roll.rendered p (s.player p).renderEnabled =
      s.roll.rendered := Function.update_eq_self p s.roll.rendered
  simp only [alone, shown]
  rfl

theorem roll_prepareRender :
    (s.prepareRender p).roll = s.roll.render p ((s.player p).drawLayer ≠ .none) := by
  change (s.edit p fun b => { b with renderEnabled := _ }).roll = _
  rw [roll_edit]
  have alone : Function.update s.roll.group p (s.player p).group = s.roll.group :=
    Function.update_eq_self p s.roll.group
  have seen : Function.update s.roll.presented p (s.player p).groupPresented =
      s.roll.presented := Function.update_eq_self p s.roll.presented
  simp only [alone, seen]
  rfl

/-- Numbers of objects to come. -/
structure Numbered (s : Players) : Prop where
  player : ∀ q, s.players ≤ q →
    (s.player q).group = none ∧ (s.player q).renderEnabled = true ∧ (s.player q).obj = false
  group : ∀ g, s.groups ≤ g → (s.group g).obj = false
  empty : ∀ g, (s.group g).obj = false → (s.group g).members = []

/-- The groups keep step, and a player that publishes has not presented yet. -/
structure Grouped (past : List PlayerEvent) (s : Players) : Prop where
  lockstep : Lockstep (past ++ s.log) s.roll
  numbered : Numbered s
  waits : ∀ t g, s.publishing = some t → (s.player t.player).group = some g →
    (s.player t.player).groupPresented = false

namespace Grouped

theorem unnoticed (grouped : Grouped past s) (unnoticed : Unnoticed s t) : Grouped past t := by
  have player := unnoticed.player
  simp only [enrolment, Prod.mk.injEq] at player
  obtain ⟨told, log, aside⟩ := unnoticed.log
  refine ⟨?_, ⟨fun q later => ?_, fun g later => ?_, fun g gone => ?_⟩, fun f g publishing inside => ?_⟩
  · rw [log, unnoticed.roll, ← List.append_assoc]
    exact grouped.lockstep.aside aside
  · rw [unnoticed.players] at later
    rw [(player q).1, (player q).2.2.1, (player q).2.2.2]
    exact grouped.numbered.player q later
  · rw [unnoticed.groups] at later
    rw [unnoticed.group]
    exact grouped.numbered.group g later
  · rw [unnoticed.group] at gone ⊢
    exact grouped.numbered.empty g gone
  · rw [unnoticed.publishing] at publishing
    rw [(player f.player).1] at inside
    rw [(player f.player).2.1]
    exact grouped.waits f g publishing inside

/-- A player that has an object has a number. -/
theorem number (grouped : Grouped past s) (obj : (s.player p).obj = true) : p < s.players := by
  refine Nat.lt_of_not_le fun later => ?_
  rw [(grouped.numbered.player p later).2.2] at obj
  cases obj

theorem reset {g : Option Nat} (grouped : Grouped past s) :
    Grouped past (s.groupReset g .reset) := by
  cases g with
  | none => exact grouped
  | some g =>
      refine ⟨?_, ⟨fun q later => ?_, grouped.numbered.group, grouped.numbered.empty⟩,
        fun t h publishing inside => ?_⟩
      · rw [roll_groupReset]
        change Lockstep (past ++ (s.log ++ [.reset g])) _
        rw [← List.append_assoc]
        exact grouped.lockstep.reset
      · rcases groupReset_player (s := s) (q := q) (g := some g) .reset with same | same
        all_goals
          rw [same]
          exact grouped.numbered.player q later
      · rcases groupReset_player (s := s) (q := t.player) (g := some g) .reset with
          same | same
        · rw [same] at inside ⊢
          exact grouped.waits t h publishing inside
        · rw [same]

end Grouped

/-- A view that membership does not change. -/
theorem groupUnlink_view {View : Type} (view : Player → View)
    (unseen : ∀ (b : Player) group presented,
      view { b with group := group, groupPresented := presented } = view b) :
    view ((s.groupUnlink p).player q) = view (s.player q) := by
  have reset : ∀ {t : Players} {h : Option Nat}, view ((t.groupReset h .reset).player q) =
      view (t.player q) := fun {t h} => groupReset_view view fun b => unseen b b.group false
  unfold groupUnlink
  dsimp only
  rw [edit_view view (unseen ..)]
  split
  · rfl
  · rw [reset]
    rfl

theorem groupJoin_view {View : Type} (view : Player → View)
    (unseen : ∀ (b : Player) group presented,
      view { b with group := group, groupPresented := presented } = view b) :
    view ((s.groupJoin p g).player q) = view (s.player q) := by
  unfold groupJoin
  rw [groupReset_view view fun b => unseen b b.group false]
  change view (Function.update s.player p { s.player p with group := some g } q) = _
  by_cases same : q = p
  · subst same
    rw [Function.update_self]
    exact unseen (s.player q) (some g) (s.player q).groupPresented
  · rw [Function.update_of_ne same]

theorem groupUnlink_group (h : Nat) : ((s.groupUnlink p).group h).obj = (s.group h).obj ∧
    ((s.group h).members = [] → ((s.groupUnlink p).group h).members = []) := by
  cases inside : (s.player p).group with
  | none =>
      have kept : (s.groupUnlink p).group = s.group := by
        simp only [groupUnlink, inside]
        rfl
      rw [kept]
      exact ⟨rfl, id⟩
  | some g =>
      have left : (s.groupUnlink p).group = Function.update s.group g
          { s.group g with members := (s.group g).members.erase p } := by
        simp only [groupUnlink, inside]
        rfl
      rw [left]
      by_cases same : h = g
      · subst same
        rw [Function.update_self]
        exact ⟨rfl, fun empty => by simp [empty]⟩
      · rw [Function.update_of_ne same]
        exact ⟨rfl, id⟩

theorem groupUnlink_grouped (other : q ≠ p) :
    ((s.groupUnlink p).player q).group = (s.player q).group := by
  unfold groupUnlink
  dsimp only
  rw [edit_player_ne other]
  split
  · rfl
  · exact groupReset_view Player.group fun _ => rfl

theorem groupJoin_grouped (other : q ≠ p) :
    ((s.groupJoin p g).player q).group = (s.player q).group := by
  unfold groupJoin
  rw [groupReset_view Player.group fun _ => rfl]
  change (Function.update s.player p _ q).group = _
  rw [Function.update_of_ne other]

theorem groupJoin_waits : ((s.groupJoin p g).player p).groupPresented = false := by
  have joined : (s.groupJoin p g).roll.presented p = (s.roll.join p g).presented p := by
    rw [roll_groupJoin]
  refine joined.trans ?_
  simp [Roll.join, Roll.reset]

theorem groupUnlink_alone : ((s.groupUnlink p).player p).group = none := by
  unfold groupUnlink
  dsimp only
  rw [edit_player_self]

theorem groupUnlink_players : (s.groupUnlink p).players = s.players := by
  unfold groupUnlink
  dsimp only
  split <;> rfl

theorem groupUnlink_publishing : (s.groupUnlink p).publishing = s.publishing := by
  unfold groupUnlink
  dsimp only
  split <;> rfl

namespace Grouped

theorem unlink (grouped : Grouped past s) : Grouped past (s.groupUnlink p) := by
  obtain ⟨lockstep, ⟨player, group, empty⟩, waits⟩ := grouped
  refine ⟨?_, ⟨fun q later => ?_, fun g later => ?_, fun g gone => ?_⟩, fun t g publishing inside => ?_⟩
  · rw [roll_groupUnlink, groupUnlink_log, ← List.append_assoc]
    exact lockstep.leave
  · rw [groupUnlink_players] at later
    obtain ⟨alone, rendered, gone⟩ := player q later
    refine ⟨?_, ?_, ?_⟩
    · by_cases same : q = p
      · rw [same, groupUnlink_alone]
      · rw [groupUnlink_grouped same, alone]
    · rw [groupUnlink_view Player.renderEnabled fun _ _ _ => rfl, rendered]
    · rw [groupUnlink_view Player.obj fun _ _ _ => rfl, gone]
  · have groups : (s.groupUnlink p).groups = s.groups := by
      unfold groupUnlink
      dsimp only
      split <;> rfl
    rw [(groupUnlink_group g).1]
    exact group g (groups ▸ later)
  · rw [(groupUnlink_group g).1] at gone
    exact (groupUnlink_group g).2 (empty g gone)
  · rw [groupUnlink_publishing] at publishing
    by_cases same : t.player = p
    · rw [same, groupUnlink_alone] at inside
      cases inside
    · rw [groupUnlink_grouped same] at inside
      have before := waits t g publishing inside
      unfold groupUnlink
      dsimp only
      rw [edit_player_ne same]
      split
      · exact before
      · rcases groupReset_player (q := t.player) .reset with kept | kept
        · rw [kept]
          exact before
        · rw [kept]

theorem join (grouped : Grouped past s) (alone : (s.player p).group = none)
    (numbered : p < s.players) (obj : (s.group g).obj = true) : Grouped past (s.groupJoin p g) := by
  obtain ⟨lockstep, ⟨player, group, empty⟩, waits⟩ := grouped
  have member : (s.groupJoin p g).group = Function.update s.group g
      { s.group g with members := p :: (s.group g).members } := rfl
  have joined : ∀ h, ((s.groupJoin p g).group h).obj = (s.group h).obj := by
    intro h
    rw [member]
    by_cases same : h = g
    · subst same
      rw [Function.update_self]
    · rw [Function.update_of_ne same]
  refine ⟨?_, ⟨fun q later => ?_, fun h later => ?_, fun h gone => ?_⟩,
    fun t h publishing inside => ?_⟩
  · rw [roll_groupJoin, groupJoin_log, ← List.append_assoc, ← List.append_assoc]
    exact lockstep.join alone
  · have different : q ≠ p := by
      rintro rfl
      exact Nat.not_le_of_lt numbered later
    obtain ⟨single, rendered, gone⟩ := player q later
    refine ⟨?_, ?_, ?_⟩
    · rw [groupJoin_grouped different, single]
    · rw [groupJoin_view Player.renderEnabled fun _ _ _ => rfl, rendered]
    · rw [groupJoin_view Player.obj fun _ _ _ => rfl, gone]
  · rw [joined]
    exact group h later
  · have other : h ≠ g := by
      rintro rfl
      rw [joined, obj] at gone
      cases gone
    rw [joined] at gone
    rw [member, Function.update_of_ne other]
    exact empty h gone
  · by_cases same : t.player = p
    · rw [same]
      exact groupJoin_waits
    · rw [groupJoin_grouped same] at inside
      have before := waits t h publishing inside
      have kept : (((s.edit p fun b => { b with group := some g }).editMembers g
          (p :: ·)).tell (.joined p g)).player t.player = s.player t.player :=
        Function.update_of_ne same ..
      unfold groupJoin
      rcases groupReset_player (q := t.player) (g := some g) .reset with still | still
      · rw [still, kept]
        exact before
      · rw [still]

theorem setGroup {g : Option Nat} (grouped : Grouped past s) (obj : (s.player p).obj = true)
    (valid : g.all fun g => (s.group g).obj) : Grouped past (s.setGroup p g) := by
  have numbered := grouped.number obj
  unfold Players.setGroup
  split
  · exact grouped
  refine Grouped.unnoticed ?_ .backendPreserve
  cases g with
  | none => exact grouped.unlink
  | some g =>
      refine grouped.unlink.join groupUnlink_alone ?_ ?_
      · rw [groupUnlink_players]
        exact numbered
      · rw [(groupUnlink_group g).1]
        exact valid

/-- The members leave one after another. -/
theorem leaveAll (grouped : Grouped past s) (members : List Nat) :
    Grouped past (members.foldl (fun s m => ((s.groupUnlink m).backendPreserve m false).2) s) ∧
      ∀ q, ((members.foldl (fun s m => ((s.groupUnlink m).backendPreserve m false).2) s).player
        q).group = if q ∈ members then none else (s.player q).group := by
  induction members generalizing s with
  | nil => exact ⟨grouped, fun q => rfl⟩
  | cons first rest ih =>
      obtain ⟨kept, alone⟩ := ih (grouped.unlink.unnoticed (.backendPreserve (p := first)))
      refine ⟨kept, fun q => ?_⟩
      have unnoticed : Unnoticed (s.groupUnlink first)
          ((s.groupUnlink first).backendPreserve first false).2 := .backendPreserve
      have same : (((s.groupUnlink first).backendPreserve first false).2.player q).group =
          ((s.groupUnlink first).player q).group := by
        have seen := unnoticed.player q
        simp only [enrolment, Prod.mk.injEq] at seen
        exact seen.1
      rw [List.foldl_cons, alone q, same]
      by_cases self : q = first
      · subst self
        rw [groupUnlink_alone]
        simp
      · rw [groupUnlink_grouped self]
        simp [self]

theorem deleteGroup (grouped : Grouped past s) : Grouped past (s.deleteGroup g) := by
  obtain ⟨kept, alone⟩ := grouped.leaveAll (s.group g).members
  unfold Players.deleteGroup
  dsimp only
  generalize (s.group g).members.foldl
    (fun s m => ((s.groupUnlink m).backendPreserve m false).2) s = t at kept alone
  have empty : (t.group g).members = [] := by
    refine List.eq_nil_iff_forall_not_mem.mpr fun q inside => ?_
    have now : (t.player q).group = some g := (kept.lockstep.enrolled.member g q).mp inside
    rw [alone q] at now
    split at now
    · cases now
    · rename_i outside
      exact outside ((grouped.lockstep.enrolled.member g q).mpr now)
  refine ⟨?_, ⟨kept.numbered.player, fun h later => ?_, fun h gone => ?_⟩, kept.waits⟩
  · have same : Players.roll { t with
        group := Function.update t.group g { obj := false, members := [] } } = t.roll := by
      simp only [roll, Roll.mk.injEq, true_and]
      funext h
      by_cases same : h = g
      · subst same
        rw [Function.update_self, empty]
      · rw [Function.update_of_ne same]
    rw [same]
    exact kept.lockstep
  · by_cases same : h = g
    · subst same
      dsimp only
      rw [Function.update_self]
    · dsimp only
      rw [Function.update_of_ne same]
      exact kept.numbered.group h later
  · by_cases same : h = g
    · subst same
      dsimp only
      rw [Function.update_self]
    · dsimp only at gone ⊢
      rw [Function.update_of_ne same] at gone ⊢
      exact kept.numbered.empty h gone

theorem prepareRender (grouped : Grouped past s) (obj : (s.player p).obj = true) :
    Grouped past (s.prepareRender p) := by
  have numbered := grouped.number obj
  obtain ⟨lockstep, ⟨player, group, empty⟩, waits⟩ := grouped
  have view : ∀ q, (((s.prepareRender p).player q).group, ((s.prepareRender p).player q).obj,
      ((s.prepareRender p).player q).groupPresented) =
        ((s.player q).group, (s.player q).obj, (s.player q).groupPresented) := by
    intro q
    change (fun b : Player => (b.group, b.obj, b.groupPresented)) ((s.edit p fun b =>
      { b with renderEnabled := decide ((s.player p).drawLayer ≠ .none) }).player q) = _
    exact edit_view (fun b : Player => (b.group, b.obj, b.groupPresented)) rfl q
  simp only [Prod.mk.injEq] at view
  refine ⟨?_, ⟨fun q later => ?_, group, empty⟩, fun t g publishing inside => ?_⟩
  · rw [roll_prepareRender]
    change Lockstep (past ++ (s.log ++ [.rendered p _])) _
    rw [← List.append_assoc]
    exact lockstep.render
  · have other : q ≠ p := by
      rintro rfl
      exact Nat.not_le_of_lt numbered later
    have same : (s.prepareRender p).player q = s.player q := Function.update_of_ne other ..
    rw [same]
    exact player q later
  · rw [(view t.player).1] at inside
    rw [(view t.player).2.2]
    exact waits t g publishing inside

theorem setUp {a : PrepareAnswer} (grouped : Grouped past s) : Grouped past (s.setUp p a).2 := by
  have opened : Unnoticed s (s.openBackend p a) := (Unnoticed.edit rfl).trans (.tell rfl)
  unfold Players.setUp
  dsimp only
  split
  · dsimp only
    exact grouped.unnoticed (((opened.trans .backendPreserve).trans .backendClose).trans
      (.edit (by rfl)))
  · exact grouped.unnoticed (opened.trans .backendPreserve)

theorem prepare {a : PrepareAnswer} (grouped : Grouped past s) (obj : (s.player p).obj = true) :
    Grouped past (s.prepare p a).2 := by
  have rendered := grouped.prepareRender obj
  have chosen : Grouped past ((s.prepareRender p).preparePlane p) := by
    unfold Players.preparePlane
    split
    · exact rendered.unnoticed (.edit rfl)
    · exact rendered
  unfold Players.prepare
  dsimp only
  split
  · dsimp only
    exact grouped.unnoticed (.edit (by rfl))
  split
  · dsimp only
    exact rendered.unnoticed (.edit (by rfl))
  split
  · dsimp only
    exact chosen.unnoticed (.edit (by rfl))
  · exact chosen.setUp

/-- A source or a start is asked for. -/
theorem asked {change : Player → Player} {g : Option Nat} (grouped : Grouped past s)
    (unseen : enrolment (change (s.player p)) = enrolment (s.player p)) :
    Grouped past (((s.edit p change).groupReset g .reset).edit p
      fun b => { b with timer := true }) :=
  (grouped.unnoticed (.edit unseen)).reset.unnoticed (.edit rfl)

theorem asked_obj {change : Player → Player} {g : Option Nat}
    (unseen : (change (s.player p)).obj = (s.player p).obj) :
    ((((s.edit p change).groupReset g .reset).edit p
      fun b => { b with timer := true }).player q).obj = (s.player q).obj := by
  rw [edit_view Player.obj rfl q, groupReset_view Player.obj fun _ => rfl]
  exact edit_view Player.obj unseen q

theorem setSrc {uri : List UInt8} {a : PrepareAnswer} (grouped : Grouped past s)
    (obj : (s.player p).obj = true) : Grouped past (s.setSrc p uri a).2 := by
  unfold Players.setSrc
  split
  · exact grouped
  dsimp only
  split
  · exact (grouped.asked rfl).unnoticed ((Unnoticed.edit (by rfl)).trans .backendClose)
  · refine (grouped.asked rfl).prepare ?_
    rw [asked_obj (by rfl)]
    exact obj

theorem start {a : PrepareAnswer} {started : Bool} (grouped : Grouped past s)
    (obj : (s.player p).obj = true) : Grouped past (s.start p a started).2 := by
  unfold Players.start
  split
  · exact grouped
  dsimp only
  split
  · exact (grouped.asked rfl).unnoticed ((Unnoticed.edit (by rfl)).trans .backendClose)
  split
  · refine (grouped.asked rfl).prepare ?_
    rw [asked_obj (by rfl)]
    exact obj
  · exact grouped.asked rfl

theorem requestClose {stopped : Bool} (grouped : Grouped past s) :
    Grouped past (s.requestClose p stopped) :=
  ((grouped.reset.unnoticed (.edit rfl)).unnoticed .backendClose).unnoticed (.edit rfl)

theorem seek {position queued : Nat} {sought : Bool} (grouped : Grouped past s) :
    Grouped past (s.seek p position sought queued).2 := by
  unfold Players.seek
  dsimp only
  split
  · exact grouped
  · dsimp only
    exact grouped.reset.unnoticed (.edit (by rfl))

theorem deletePlayer (grouped : Grouped past s) : Grouped past (s.deletePlayer p) := by
  have unlinked : Grouped past ((s.player p).slaves.foldl
      (fun s i => (s.unlinkSlave i).editSlave i fun r => { r with timer := true }) s) :=
    grouped.unnoticed (.framesOnly .unlinkSlaves)
  unfold Players.deletePlayer
  dsimp only
  refine Grouped.unnoticed ?_ (Unnoticed.backendClose.trans (.framesOnly .orphan))
  obtain ⟨lockstep, ⟨player, group, empty⟩, waits⟩ := unlinked.unlink (p := p)
  generalize Players.groupUnlink _ p = t at lockstep player group empty waits
  have view : ∀ {View : Type} (view : Player → View), (∀ (b : Player) obj reopen timer,
      view { b with obj := obj, reopen := reopen, timer := timer } = view b) → ∀ q,
      view ((t.edit p fun b => { b with obj := false, reopen := false, timer := true }).player q) =
        view (t.player q) := fun view unseen => edit_view view (unseen ..)
  have rolled : (t.edit p fun b => { b with obj := false, reopen := false, timer := true }).roll =
      t.roll := by
    simp only [roll, Roll.mk.injEq]
    exact ⟨funext (view Player.group fun _ _ _ _ => rfl),
      funext (view Player.groupPresented fun _ _ _ _ => rfl),
      funext (view Player.renderEnabled fun _ _ _ _ => rfl), rfl⟩
  refine ⟨?_, ⟨fun q later => ?_, group, empty⟩, fun f g publishing inside => ?_⟩
  · rw [rolled]
    exact lockstep
  · rw [view Player.group fun _ _ _ _ => rfl, view Player.renderEnabled fun _ _ _ _ => rfl]
    obtain ⟨alone, rendered, gone⟩ := player q later
    refine ⟨alone, rendered, ?_⟩
    by_cases same : q = p
    · subst same
      rw [edit_player_self]
    · rw [edit_player_ne same]
      exact gone
  · rw [view Player.group fun _ _ _ _ => rfl] at inside
    rw [view Player.groupPresented fun _ _ _ _ => rfl]
    exact waits f g publishing inside

/-- A new player is on no roll yet. -/
theorem createPlayer (grouped : Grouped past s) : Grouped past (s.call .createPlayer) := by
  obtain ⟨lockstep, ⟨player, group, empty⟩, waits⟩ := grouped
  obtain ⟨alone, rendered, _⟩ := player s.players (Nat.le_refl _)
  have rolled : (s.call .createPlayer).roll = s.roll.leave s.players := by
    have inside : s.roll.group s.players = none := alone
    change Roll.mk (fun q => (Function.update s.player s.players Player.created q).group)
      (fun q => (Function.update s.player s.players Player.created q).groupPresented)
      (fun q => (Function.update s.player s.players Player.created q).renderEnabled) _ = _
    rw [update_view Player.group, update_view Player.groupPresented,
      update_view Player.renderEnabled, Roll.leave, inside]
    have ungrouped : Function.update (fun q => (s.player q).group) s.players Player.created.group =
        s.roll.group := Function.update_eq_self_iff.mpr alone.symm
    have shown : Function.update (fun q => (s.player q).renderEnabled) s.players
        Player.created.renderEnabled = s.roll.rendered :=
      Function.update_eq_self_iff.mpr rendered.symm
    rw [ungrouped, shown]
    rfl
  have other : ∀ {q}, q ≠ s.players → (s.call .createPlayer).player q = s.player q :=
    fun different => Function.update_of_ne different ..
  refine ⟨?_, ⟨fun q later => ?_, group, empty⟩, fun t g publishing inside => ?_⟩
  · have left := lockstep.leave (p := s.players)
    have inside : s.roll.group s.players = none := alone
    rw [inside, List.append_nil] at left
    rw [rolled]
    exact left
  · have before : s.players + 1 ≤ q := later
    rw [other (by omega)]
    exact player q (by omega)
  · by_cases same : t.player = s.players
    · have created : (s.call .createPlayer).player s.players = .created := Function.update_self ..
      rw [same, created] at inside
      cases inside
    · rw [other same] at inside ⊢
      exact waits t g publishing inside

theorem createGroup (grouped : Grouped past s) : Grouped past (s.call .createGroup) := by
  obtain ⟨lockstep, ⟨player, group, empty⟩, waits⟩ := grouped
  have members := empty s.groups (group s.groups (Nat.le_refl _))
  have created : (s.call .createGroup).group s.groups = { obj := true, members := [] } :=
    Function.update_self ..
  have other : ∀ {g}, g ≠ s.groups → (s.call .createGroup).group g = s.group g :=
    fun different => Function.update_of_ne different ..
  have rolled : (s.call .createGroup).roll = s.roll := by
    simp only [roll, Roll.mk.injEq]
    refine ⟨rfl, rfl, rfl, funext fun g => ?_⟩
    by_cases same : g = s.groups
    · rw [same, created, members]
    · rw [other same]
  refine ⟨?_, ⟨player, fun g later => ?_, fun g gone => ?_⟩, waits⟩
  · rw [rolled]
    exact lockstep
  · have before : s.groups + 1 ≤ g := later
    rw [other (by omega)]
    exact group g (by omega)
  · by_cases same : g = s.groups
    · rw [same, created]
    · rw [other same] at gone ⊢
      exact empty g gone

theorem call {c : PlayerCall} (grouped : Grouped past s) (valid : s.valid c = true) :
    Grouped past (s.call c) := by
  cases c with
  | createPlayer => exact grouped.createPlayer
  | createSlave => exact grouped.unnoticed ⟨fun _ => rfl, rfl, rfl, rfl, rfl, [], by simp [Players.call], by simp⟩
  | createGroup => exact grouped.createGroup
  | deletePlayer p => exact grouped.deletePlayer
  | deleteSlave i => exact grouped.unnoticed (.framesOnly .deleteSlave)
  | deleteGroup g => exact grouped.deleteGroup
  | setGroup p g =>
      simp only [Players.valid, Bool.and_eq_true] at valid
      exact grouped.setGroup valid.1 valid.2
  | groupRemove g p =>
      simp only [Players.valid, Bool.and_eq_true] at valid
      simp only [Players.call]
      split
      · exact grouped.setGroup valid.2 rfl
      · exact grouped
  | setMaster i master => exact grouped.unnoticed (.framesOnly .setMaster)
  | setDrawLayer p layer | setAutoRestart p enabled =>
      simp only [Players.call]
      exact grouped.unnoticed (.edit (by rfl))
  | setVideoPlane p enabled display =>
      simp only [Players.call, Players.setVideoPlane]
      split
      · exact grouped
      split
      · exact grouped
      cases display with
      | none => exact grouped
      | some argb =>
          dsimp only
          split
          · exact grouped
          · dsimp only
            exact grouped.unnoticed (.edit (by rfl))
  | configure p apng valid =>
      simp only [Players.call, Players.configure]
      split
      · exact grouped
      split <;> dsimp only <;> exact grouped.unnoticed (.edit (by rfl))
  | setSrc p uri a => exact grouped.setSrc valid
  | start p a started => exact grouped.start valid
  | stop p | close p => exact grouped.requestClose
  | seek p position sought queued => exact grouped.seek
  | setVolume p volume taken =>
      simp only [Players.call, Players.setVolume]
      split
      · exact grouped
      split
      · exact grouped
      split
      · exact grouped
      · dsimp only
        exact grouped.unnoticed (.edit (by rfl))

/-! ## The tick -/

/-- What presenting leaves alone. -/
theorem presenting_view (q : Nat) :
    ((s.edit p fun b => { b with groupPresented := true }).player q).group = (s.player q).group ∧
    ((s.edit p fun b => { b with groupPresented := true }).player q).renderEnabled =
      (s.player q).renderEnabled ∧
    ((s.edit p fun b => { b with groupPresented := true }).player q).obj = (s.player q).obj :=
  ⟨edit_view Player.group rfl q, edit_view Player.renderEnabled rfl q, edit_view Player.obj rfl q⟩

theorem attend (grouped : Grouped past s) (quiet : s.publishing = none)
    (hidden : (s.player p).renderEnabled = false) :
    Grouped past ((s.edit p fun b => { b with groupPresented := true }).tell (.presented p)) := by
  obtain ⟨lockstep, ⟨player, group, empty⟩, waits⟩ := grouped
  have view := presenting_view (s := s) (p := p)
  refine ⟨?_, ⟨fun q later => ?_, group, empty⟩, fun t g publishing => ?_⟩
  · change Lockstep (past ++ (s.log ++ [.presented p]))
      (s.edit p fun b => { b with groupPresented := true }).roll
    rw [roll_present, ← List.append_assoc]
    exact lockstep.attend hidden
  · change ((s.edit p fun b => { b with groupPresented := true }).player q).group = none ∧
      ((s.edit p fun b => { b with groupPresented := true }).player q).renderEnabled = true ∧
      ((s.edit p fun b => { b with groupPresented := true }).player q).obj = false
    rw [(view q).1, (view q).2.1, (view q).2.2]
    exact player q later
  · change s.publishing = some t at publishing
    rw [quiet] at publishing
    cases publishing

/-- A player whose turn it is. -/
def Turn (s : Players) (p : Nat) : Prop :=
  (s.player p).renderEnabled = true → ∀ g, (s.player p).group = some g →
    (s.player p).groupPresented = false

theorem wait (grouped : Grouped past s) (quiet : s.publishing = none) :
    Grouped past (s.groupWait p).2 ∧ (s.groupWait p).2.publishing = none ∧
      ((s.groupWait p).1 = false → Turn (s.groupWait p).2 p) := by
  unfold Players.groupWait
  split
  · rename_i alone
    refine ⟨grouped, quiet, fun _ _ g inside => ?_⟩
    rw [alone] at inside
    cases inside
  rename_i g inside
  split
  · rename_i hidden
    simp only [Bool.not_eq_true'] at hidden
    refine ⟨grouped.attend quiet hidden, quiet, fun _ shown => ?_⟩
    have same : (((s.edit p fun b => { b with groupPresented := true }).tell
        (.presented p)).player p).renderEnabled = (s.player p).renderEnabled := by
      change ((s.edit p fun b => { b with groupPresented := true }).player p).renderEnabled = _
      exact edit_view Player.renderEnabled rfl p
    rw [same, hidden] at shown
    cases shown
  dsimp only
  split
  · rename_i complete
    simp only [List.all_eq_true] at complete
    refine ⟨⟨?_, ⟨fun q later => ?_, grouped.numbered.group, grouped.numbered.empty⟩,
      fun t h publishing => ?_⟩, quiet, fun waited _ _ _ => waited⟩
    · rw [roll_groupReset]
      change Lockstep (past ++ (s.log ++ [.round g])) _
      rw [← List.append_assoc]
      exact grouped.lockstep.round complete
    · rcases groupReset_player (s := s) (q := q) (g := some g) .round with same | same
      all_goals
        rw [same]
        exact grouped.numbered.player q later
    · change s.publishing = some t at publishing
      rw [quiet] at publishing
      cases publishing
  · exact ⟨grouped, quiet, fun waited _ _ _ => waited⟩

theorem retire {closed : Bool} (grouped : Grouped past s) : Grouped past (s.retire p closed).2 :=
  grouped.unnoticed (.framesOnly .retire)

theorem backendDestroy {destroyed : Bool} (grouped : Grouped past s) :
    Grouped past (s.backendDestroy p destroyed).2 := by
  unfold Players.backendDestroy
  split
  · dsimp only
    exact grouped.unnoticed (.edit (by rfl))
  · exact grouped

theorem takeFrame (grouped : Grouped past s) (quiet : s.publishing = none)
    (turn : ∀ g, (s.player p).group = some g → (s.player p).groupPresented = false) :
    Grouped past (s.takeFrame p) := by
  have muted : Unnoticed s { s.takeFrame p with publishing := none } := by
    refine ⟨fun q => ?_, rfl, rfl, rfl, quiet.symm, [.allocated s.frames], rfl,
      by simp [PlayerEvent.grouping]⟩
    change enrolment (((s.allocateFrame p).edit p fun b => { b with
      frame := some s.frames
      source := if b.planeEnabled && b.frame.isSome then b.source
        else some (.image s.frames) }).player q) = enrolment ((s.allocateFrame p).player q)
    exact edit_view enrolment rfl q
  have kept := grouped.unnoticed muted
  refine ⟨kept.lockstep, ⟨kept.numbered.player, kept.numbered.group, kept.numbered.empty⟩,
    fun t g publishing inside => ?_⟩
  have same : p = t.player := congrArg Publishing.player (Option.some.inj publishing)
  have seen := muted.player p
  simp only [enrolment, Prod.mk.injEq] at seen
  rw [← same] at inside ⊢
  exact seen.2.1.trans (turn g (seen.1.symm.trans inside))

/-- What the first half of a tick leaves: it goes on only when nothing is published. -/
def Leaves (past : List PlayerEvent) (result : Bool × Players) : Prop :=
  Grouped past result.2 ∧ (result.1 = true → result.2.publishing = none)

theorem prepare_publishing {a : PrepareAnswer} :
    (s.prepare p a).2.publishing = s.publishing := by
  have plane : ∀ t : Players, (t.preparePlane p).publishing = t.publishing := by
    intro t
    unfold Players.preparePlane
    split <;> rfl
  have preserve : ∀ (t : Players) (enabled : Bool),
      (t.backendPreserve p enabled).2.publishing = t.publishing := by
    intro t enabled
    unfold Players.backendPreserve
    split
    · rfl
    split <;> rfl
  unfold Players.prepare
  dsimp only
  split
  · rfl
  split
  · rfl
  split
  · exact plane _
  unfold Players.setUp
  dsimp only
  split <;> exact (preserve _ _).trans (plane _)

theorem tickClosed {a : TickAnswer} (grouped : Grouped past s) (quiet : s.publishing = none) :
    Leaves past (s.tickClosed p a) := by
  unfold Players.tickClosed
  split
  · exact ⟨grouped.unnoticed ((Unnoticed.edit (by rfl)).trans (.framesOnly .free)), nofun⟩
  rename_i obj
  split
  · refine ⟨Grouped.prepare (grouped.unnoticed (.edit (by rfl))) ?_, fun _ => ?_⟩
    · rw [edit_player_self]
      simpa using obj
    · rw [prepare_publishing]
      exact quiet
  · refine ⟨?_, fun _ => quiet⟩
    dsimp only
    exact grouped.unnoticed (.edit (by rfl))

theorem retire_publishing {closed : Bool} : (s.retire p closed).2.publishing = s.publishing :=
  FramesOnly.retire.publishing

theorem tickClosing {a : TickAnswer} (grouped : Grouped past s) (quiet : s.publishing = none) :
    Leaves past (s.tickClosing p a) := by
  unfold Players.tickClosing
  dsimp only
  split
  · exact ⟨grouped.retire, nofun⟩
  have asked : Grouped past ((s.retire p a.closed).2.edit p fun b =>
      { b with status := if b.backend.isSome then a.status else b.status }) :=
    grouped.retire.unnoticed (.edit rfl)
  have still : ((s.retire p a.closed).2.edit p fun b =>
      { b with status := if b.backend.isSome then a.status else b.status }).publishing = none :=
    retire_publishing.trans quiet
  split
  · exact ⟨asked.backendDestroy, nofun⟩
  · refine tickClosed (asked.backendDestroy.unnoticed (.edit (by rfl))) ?_
    refine Eq.trans ?_ still
    unfold Players.backendDestroy
    split <;> rfl

theorem tickPublish {a : TickAnswer} (grouped : Grouped past s) (quiet : s.publishing = none) :
    Leaves past (s.tickPublish p a) := by
  obtain ⟨waited, still, turn⟩ := grouped.wait (p := p) quiet
  unfold Players.tickPublish
  dsimp only
  split
  · exact ⟨waited, fun _ => still⟩
  rename_i taken
  simp only [Bool.or_eq_true, not_or, Bool.not_eq_true] at taken
  split
  · rename_i hidden
    simp only [Bool.not_eq_true'] at hidden
    refine ⟨?_, fun _ => still⟩
    have consumed : Grouped past ((s.groupWait p).2.tell (.consumed p)) :=
      waited.unnoticed (.tell rfl)
    exact consumed.attend still hidden
  · rename_i shown
    exact ⟨waited.takeFrame still (turn taken.1.1 (by simpa using shown)), nofun⟩

theorem tickSeek {a : TickAnswer} (grouped : Grouped past s) (quiet : s.publishing = none) :
    Leaves past (s.tickSeek p a) := by
  unfold Players.tickSeek
  split
  · exact ⟨grouped.retire, fun _ => retire_publishing.trans quiet⟩
  · exact ⟨grouped, fun _ => quiet⟩

theorem tickBackend {a : TickAnswer} (grouped : Grouped past s) (quiet : s.publishing = none) :
    Leaves past (s.tickBackend p a) := by
  have asked : Grouped past (s.edit p fun b => { b with status := a.status }) :=
    grouped.unnoticed (.edit rfl)
  have sought := asked.tickSeek (p := p) (a := a) quiet
  unfold Players.tickBackend
  dsimp only
  generalize (s.edit p fun b => { b with status := a.status }).tickSeek p a = t at sought
  split
  · exact ⟨sought.1, nofun⟩
  rename_i goes
  have known : Grouped past (t.2.edit p fun b => { b with
      state := if s.planeBuild && b.planeFailed then .fault else a.status.state.shown b.state }) :=
    sought.1.unnoticed (.edit rfl)
  have still : (t.2.edit p fun b => { b with
      state := if s.planeBuild && b.planeFailed then .fault
        else a.status.state.shown b.state }).publishing = none := sought.2 (by simpa using goes)
  split
  · exact ⟨known.retire, fun _ => retire_publishing.trans still⟩
  · exact known.tickPublish still
  · exact known.tickPublish still
  · exact ⟨known, fun _ => still⟩

theorem tickBegin {a : TickAnswer} (grouped : Grouped past s) (quiet : s.publishing = none) :
    Leaves past (s.tickBegin p a) := by
  unfold Players.tickBegin
  split
  · exact grouped.tickClosing quiet
  split
  · exact grouped.tickBackend quiet
  · exact ⟨grouped, fun _ => quiet⟩

theorem tickPlane {e : EndAnswer} (grouped : Grouped past s) (quiet : s.publishing = none) :
    Grouped past (s.tickPlane p e) ∧ (s.tickPlane p e).publishing = none := by
  unfold Players.tickPlane
  dsimp only
  split
  · split
    · exact ⟨grouped.unnoticed (.edit rfl), quiet⟩
    · exact ⟨grouped, quiet⟩
    · refine ⟨((grouped.unnoticed (.edit rfl)).unnoticed .backendClose).retire, ?_⟩
      rw [retire_publishing]
      exact quiet
  · exact ⟨grouped, quiet⟩

theorem tickRestart {e : EndAnswer} (grouped : Grouped past s) (quiet : s.publishing = none) :
    Grouped past (s.tickRestart p e) := by
  have waited := (grouped.wait (p := p) quiet).1
  unfold Players.tickRestart
  dsimp only
  split
  · split
    · exact (waited.unnoticed (.edit (by rfl))).reset.retire
    · exact waited
  · exact grouped

theorem tickReport (grouped : Grouped past s) : Grouped past (s.tickReport p) := by
  unfold Players.tickReport
  dsimp only
  split
  · exact grouped.unnoticed ((Unnoticed.edit rfl).trans (.tell rfl))
  · exact grouped

theorem tickEnd {e : EndAnswer} (grouped : Grouped past s) (quiet : s.publishing = none) :
    Grouped past (s.tickEnd p e) :=
  ((grouped.tickPlane quiet).1.tickRestart (grouped.tickPlane quiet).2).tickReport

theorem tick {a : TickAnswer} {e : EndAnswer} (grouped : Grouped past s)
    (quiet : s.publishing = none) : Grouped past (s.tick p a e) := by
  obtain ⟨begun, still⟩ := grouped.tickBegin (p := p) (a := a) quiet
  unfold Players.tick
  dsimp only
  split
  · exact grouped
  split
  · rename_i goes
    exact begun.tickEnd (still goes)
  · exact begun

/-- The player that publishes takes its turn. -/
theorem present (grouped : Grouped past s) {t : Publishing} (publishing : s.publishing = some t) :
    Grouped past (s.present t.player).published := by
  obtain ⟨lockstep, ⟨player, group, empty⟩, waits⟩ := grouped
  have view := presenting_view (s := s) (p := t.player)
  refine ⟨?_, ⟨fun q later => ?_, group, empty⟩, nofun⟩
  · change Lockstep (past ++ (s.log ++ [.published t.player] ++ [.presented t.player]))
      (s.edit t.player fun b => { b with groupPresented := true }).roll
    rw [roll_present, ← List.append_assoc, ← List.append_assoc]
    exact lockstep.publish fun g inside => waits t g publishing inside
  · change ((s.edit t.player fun b => { b with groupPresented := true }).player q).group = none ∧
      ((s.edit t.player fun b => { b with groupPresented := true }).player q).renderEnabled =
        true ∧
      ((s.edit t.player fun b => { b with groupPresented := true }).player q).obj = false
    rw [(view q).1, (view q).2.1, (view q).2.2]
    exact player q later

theorem publish (grouped : Grouped past s) {t : Publishing} (publishing : s.publishing = some t) :
    Grouped past (s.publish t) := by
  have slaves : FramesOnly s (s.publishSlaves t.player (some t.frame)) := .publishSlaves
  have presented := (grouped.unnoticed (.framesOnly slaves)).present (t := t)
    (slaves.publishing.trans publishing)
  unfold Players.publish
  generalize (s.publishSlaves t.player (some t.frame)).present t.player = u at presented
  have released : Unnoticed u (u.releaseFrame t.old) := .framesOnly .releaseFrame
  exact presented.unnoticed ⟨released.player, released.group, released.players, released.groups,
    rfl, released.log⟩

theorem settle (grouped : Grouped past s) {t : Publishing} {e : EndAnswer}
    (publishing : s.publishing = some t) : Grouped past (s.settle t e) :=
  (grouped.publish publishing).tickEnd rfl

theorem perform {action : PlayerAction} (grouped : Grouped past s)
    (acted : s.perform action = some t) : Grouped past t := by
  cases action with
  | call c =>
      simp only [Players.perform, Option.ite_none_right_eq_some, Option.some.injEq] at acted
      obtain ⟨valid, rfl⟩ := acted
      exact grouped.call valid
  | tick p a e =>
      simp only [Players.perform, Option.ite_none_right_eq_some, Option.some.injEq,
        Bool.and_eq_true, Option.isNone_iff_eq_none] at acted
      obtain ⟨⟨⟨quiet, _⟩, _⟩, rfl⟩ := acted
      exact grouped.tick quiet
  | settle e =>
      simp only [Players.perform, Option.map_eq_some_iff] at acted
      obtain ⟨frame, publishing, rfl⟩ := acted
      exact grouped.settle publishing
  | slaveTick i idle =>
      simp only [Players.perform, Option.ite_none_right_eq_some, Option.some.injEq] at acted
      obtain ⟨_, rfl⟩ := acted
      exact grouped.unnoticed (.framesOnly .slaveTick)
  | finish p =>
      simp only [Players.perform, Option.ite_none_right_eq_some, Option.some.injEq] at acted
      obtain ⟨_, rfl⟩ := acted
      exact grouped.unnoticed (.edit (by rfl))

end Grouped

theorem players_grouped {Allowed : List PlayerEvent → Players → PlayerAction → Prop}
    {trace : List PlayerEvent} (reached : playerMachine.Reaches Allowed trace s) :
    Grouped trace s ∧ s.log = [] := by
  refine reaches_invariant Grouped reached ?_ ?_ ?_
  · intro planeBuild apngBuild
    exact ⟨.empty, ⟨fun _ _ => ⟨rfl, rfl, rfl⟩, fun _ _ => rfl, fun _ _ => rfl⟩, nofun⟩
  · exact fun grouped _ _ acted => grouped.perform acted
  · intro past s grouped
    refine ⟨?_, ⟨grouped.numbered.player, grouped.numbered.group, grouped.numbered.empty⟩,
      grouped.waits⟩
    rw [List.append_nil]
    exact grouped.lockstep

/-! ## Turns -/

/-- A rendered player whose turn is not taken. -/
def Hungry (s : Players) (p : Nat) : Prop :=
  (s.player p).renderEnabled = true ∧ (s.player p).groupPresented = false

namespace Hungry

theorem unnoticed (hungry : Hungry s p) (unnoticed : Unnoticed s t) : Hungry t p := by
  have seen := unnoticed.player p
  simp only [enrolment, Prod.mk.injEq] at seen
  exact ⟨seen.2.2.1.trans hungry.1, seen.2.1.trans hungry.2⟩

theorem reset {g : Option Nat} {event : Nat → PlayerEvent} (hungry : Hungry s p) :
    Hungry (s.groupReset g event) p := by
  rcases groupReset_player (s := s) (q := p) (g := g) event with same | same
  · rw [Hungry, same]
    exact hungry
  · rw [Hungry, same]
    exact ⟨hungry.1, rfl⟩

theorem wait (hungry : Hungry s p) : Hungry (s.groupWait p).2 p := by
  unfold groupWait
  split
  · exact hungry
  split
  · rename_i hidden
    rw [hungry.1] at hidden
    cases hidden
  dsimp only
  split
  · exact hungry.reset
  · exact hungry

theorem tickEnd {e : EndAnswer} (hungry : Hungry s p) : Hungry (s.tickEnd p e) p := by
  have planed : Hungry (s.tickPlane p e) p := by
    unfold tickPlane
    dsimp only
    split
    · split
      · exact hungry.unnoticed (.edit rfl)
      · exact hungry
      · exact hungry.unnoticed (((Unnoticed.edit rfl).trans .backendClose).trans
          (.framesOnly .retire))
    · exact hungry
  unfold Players.tickEnd
  generalize s.tickPlane p e = t at planed
  have restarted : Hungry (t.tickRestart p e) p := by
    unfold tickRestart
    dsimp only
    split
    · split
      · exact Hungry.unnoticed (Hungry.reset (planed.wait.unnoticed (.edit (by rfl))))
          (.framesOnly .retire)
      · exact planed.wait
    · exact planed
  unfold tickReport
  dsimp only
  split
  · exact restarted.unnoticed ((Unnoticed.edit rfl).trans (.tell rfl))
  · exact restarted

theorem tickBackend {a : TickAnswer} (hungry : Hungry s p)
    (failed : (a.allocated && a.polled) = false) : Hungry (s.tickBackend p a).2 p := by
  have sought : Hungry ((s.edit p fun b => { b with status := a.status }).tickSeek p a).2 p := by
    unfold tickSeek
    split
    · exact hungry.unnoticed ((Unnoticed.edit rfl).trans (.framesOnly .retire))
    · dsimp only
      exact hungry.unnoticed (.edit (by rfl))
  have published : ∀ {t : Players}, Hungry t p → Hungry (t.tickPublish p a).2 p := by
    intro t turn
    unfold tickPublish
    dsimp only
    split
    · exact turn.wait
    · rename_i taken
      simp only [Bool.or_eq_true, not_or, Bool.not_eq_true, Bool.not_eq_false'] at taken
      rw [taken.1.2, taken.2] at failed
      cases failed
  unfold Players.tickBackend
  dsimp only
  generalize (s.edit p fun b => { b with status := a.status }).tickSeek p a = t at sought
  split
  · exact sought
  have known : Hungry (t.2.edit p fun b => { b with
      state := if s.planeBuild && b.planeFailed then .fault
        else a.status.state.shown b.state }) p := sought.unnoticed (.edit rfl)
  split
  · exact known.unnoticed (.framesOnly .retire)
  · exact published known
  · exact published known
  · exact known

/-- A tick that gets no frame leaves the turn to the next one. -/
theorem tick {a : TickAnswer} {e : EndAnswer} (hungry : Hungry s p)
    (obj : (s.player p).obj = true) (opened : (s.player p).closing = false)
    (failed : (a.allocated && a.polled) = false) : Hungry (s.tick p a e) p := by
  have begun : Hungry (s.tickBegin p a).2 p := by
    unfold tickBegin
    rw [obj, opened]
    simp only [Bool.not_true, Bool.or_self, Bool.false_eq_true, if_false]
    split
    · exact hungry.tickBackend failed
    · exact hungry
  unfold Players.tick
  dsimp only
  split
  · exact hungry
  split
  · exact begun.tickEnd
  · exact begun

end Hungry

end Players

/-- When every rendered member has presented, the next rendered member starts a new
round exactly when every member of the NONE layer has presented too. -/
theorem hidden_members_presented_iff {trace : List PlayerEvent} {s : Players} {g p : Nat}
    (reached : playerMachine.Reaches Machine.Always trace s) (member : p ∈ (s.group g).members)
    (rendered : (s.player p).renderEnabled = true)
    (shown : ∀ q ∈ (s.group g).members, (s.player q).renderEnabled = true →
      (s.player q).groupPresented = true) :
    ((s.groupWait p).1 = false ∧ (s.groupWait p).2.log = s.log ++ [.round g]) ↔
      ∀ q ∈ (s.group g).members, (s.player q).renderEnabled = false →
        (barrier g trace).presented q = true := by
  obtain ⟨grouped, empty⟩ := Players.players_grouped reached
  have lockstep := grouped.lockstep
  rw [empty, List.append_nil] at lockstep
  have inside : (s.player p).group = some g := (lockstep.enrolled.member g p).mp member
  have flags : ∀ q ∈ (s.group g).members, (barrier g trace).presented q =
      (s.player q).groupPresented := (lockstep.tracks g).presented
  have all : ((s.group g).members.all fun m => (s.player m).groupPresented) = true ↔
      ∀ q ∈ (s.group g).members, (s.player q).renderEnabled = false →
        (barrier g trace).presented q = true := by
    rw [List.all_eq_true]
    refine ⟨fun every q inside _ => ?_, fun hidden q inside => ?_⟩
    · rw [flags q inside]
      exact every q inside
    · cases layer : (s.player q).renderEnabled with
      | true => exact shown q inside layer
      | false =>
          rw [← flags q inside]
          exact hidden q inside layer
  rw [← all]
  unfold Players.groupWait
  simp only [inside, rendered, Bool.not_true, Bool.false_eq_true, if_false]
  split
  · rename_i complete
    refine ⟨fun _ => complete, fun _ => ⟨?_, rfl⟩⟩
    simp only [Players.groupReset, if_pos member]
  · rename_i incomplete
    refine ⟨fun round => ?_, fun complete => absurd complete incomplete⟩
    have longer := congrArg List.length round.2
    simp at longer

/-- A player of the layer with a source that was set, in the group. -/
def memberCalls (p : Nat) (layer : DrawLayer) : List PlayerAction :=
  [.call .createPlayer, .call (.configure p false true), .call (.setDrawLayer p layer),
    .call (.setSrc p [97] {
      argb := true
      created := true
      finished := false
      configured := true
      started := true }), .call (.setGroup p (some 0))]

/-- A tick that finds the playback playing with an image. -/
def playingTick (p : Nat) : List PlayerAction :=
  let e : EndAnswer := {
    window := .shown
    closedPlane := true
    sought := false
    closedRestart := true }
  [.tick p {
      idle := true
      status := { PlaybackStatus.none with state := .playing }
      closed := true
      closedFault := true
      destroyed := false
      prepare := {
        argb := true
        created := true
        finished := false
        configured := true
        started := true }
      allocated := true
      polled := true } e, .settle e]

/-- The other member is of the NONE layer and its tick has not run yet. -/
def hiddenActions : List PlayerAction :=
  .call .createGroup :: memberCalls 0 .default ++ memberCalls 1 .none ++ playingTick 0

/-- Its tick runs, which presents it. -/
def presentedActions : List PlayerAction := hiddenActions ++ (playingTick 1).take 1

theorem hidden_members_presented_round :
    ∃ (trace : List PlayerEvent) (s : Players), playerMachine.Reaches Machine.Always trace s ∧
      (s.group 0).members = [1, 0] ∧ (s.player 1).renderEnabled = false ∧
      (s.groupWait 0).1 = false ∧ (s.groupWait 0).2.log = s.log ++ [.round 0] := by
  let start := Players.initial false false
  obtain ⟨⟨s, trace⟩, executed⟩ : ∃ last, playerMachine.execute start presentedActions =
      some last := Option.isSome_iff_exists.mp (by decide)
  have shown : (playerMachine.execute start presentedActions).map (fun last =>
      ((last.1.group 0).members, (last.1.player 0).renderEnabled, (last.1.player 1).renderEnabled,
        (last.1.player 0).groupPresented, (barrier 0 last.2).presented 0,
        (barrier 0 last.2).presented 1)) = some ([1, 0], true, false, true, true, true) := by
    decide
  rw [executed] at shown
  simp only [Option.map_some, Option.some.injEq, Prod.mk.injEq] at shown
  obtain ⟨members, rendered, layer, presented, first, second⟩ := shown
  have initial : playerMachine.Initial start := ⟨_, _, rfl⟩
  have reached : playerMachine.Reaches Machine.Always trace s :=
    (Machine.Reaches.start initial).execute executed
  have one : 0 ∈ (s.group 0).members := by simp [members]
  have round := (hidden_members_presented_iff reached one rendered (by simp [members, layer, presented])).mpr
    (by simp [members, first, second])
  exact ⟨trace, s, reached, members, layer, round.1, round.2⟩

/-- A member of the NONE layer that is still opening blocks the next round. -/
theorem hidden_member_blocks :
    ¬ ∀ (trace : List PlayerEvent) (s : Players) (g p : Nat),
      playerMachine.Reaches Machine.Always trace s → p ∈ (s.group g).members →
      (s.player p).renderEnabled = true →
      (∀ q ∈ (s.group g).members, (s.player q).renderEnabled = true →
        (s.player q).groupPresented = true) →
      (s.groupWait p).1 = false ∧ (s.groupWait p).2.log = s.log ++ [.round g] := by
  intro claim
  let start := Players.initial false false
  obtain ⟨⟨s, trace⟩, executed⟩ : ∃ last, playerMachine.execute start hiddenActions =
      some last := Option.isSome_iff_exists.mp (by decide)
  have shown : (playerMachine.execute start hiddenActions).map (fun last =>
      ((last.1.group 0).members, (last.1.player 0).renderEnabled, (last.1.player 1).renderEnabled,
        (last.1.player 0).groupPresented, (last.1.groupWait 0).1)) =
          some ([1, 0], true, false, true, true) := by decide
  rw [executed] at shown
  simp only [Option.map_some, Option.some.injEq, Prod.mk.injEq] at shown
  obtain ⟨members, rendered, layer, presented, waits⟩ := shown
  have initial : playerMachine.Initial start := ⟨_, _, rfl⟩
  have reached : playerMachine.Reaches Machine.Always trace s :=
    (Machine.Reaches.start initial).execute executed
  have round := claim trace s 0 0 reached (by simp [members]) rendered
    (by simp [members, layer, presented])
  rw [waits] at round
  cases round.1

end LvglAic.Widgets
