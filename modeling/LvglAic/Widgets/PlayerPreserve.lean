import LvglAic.Widgets.PlayerSteps

/-! # The preserve policy

`prepare` computes the policy of a backend in full.  Joining and leaving a group
write the flag from the membership alone, so the policy survives a change of
membership when the layer of the backend asks for the same.
-/

namespace LvglAic.Widgets

/-- The draw layer with which the player's last backend was prepared. -/
def preparedLayer (trace : List PlayerEvent) (p : Nat) : Option DrawLayer :=
  trace.foldl (fun layer event => match event with
    | .prepared q next => if q = p then some next else layer
    | _ => layer) none

/-- The backend of the player was prepared for the single UI buffer. -/
def singleBuffer (trace : List PlayerEvent) (p : Nat) : Bool :=
  preparedLayer trace p = some .uiSingleBuf

/-- The setting that the player's backend should have. -/
def wanted (trace : List PlayerEvent) (p : Nat) (b : Player) : Bool :=
  (b.group.isSome && b.renderEnabled) || singleBuffer trace p

theorem preparedLayer_append : preparedLayer (trace ++ events) p = events.foldl
    (fun layer event => match event with
      | .prepared q next => if q = p then some next else layer
      | _ => layer) (preparedLayer trace p) :=
  List.foldl_append

theorem preparedLayer_snoc {event : PlayerEvent} (other : ∀ layer, event ≠ .prepared p layer) :
    preparedLayer (trace ++ [event]) p = preparedLayer trace p := by
  rw [preparedLayer_append]
  cases event with
  | prepared q layer =>
      have different : q ≠ p := fun same => other layer (same ▸ rfl)
      simp [different]
  | _ => rfl

theorem preparedLayer_framing (framing : ∀ event ∈ events, PlayerEvent.framing event = true) :
    preparedLayer (trace ++ events) p = preparedLayer trace p := by
  induction events generalizing trace with
  | nil => rw [List.append_nil]
  | cons event rest ih =>
      have first := framing event (by simp)
      rw [← List.singleton_append, ← List.append_assoc,
        ih fun event member => framing event (List.mem_cons_of_mem _ member)]
      refine preparedLayer_snoc fun layer same => ?_
      rw [same] at first
      cases first

/-- A backend that takes a setting has the one that is wanted. -/
def PolicyAt (past : List PlayerEvent) (s : Players) (p : Nat) : Prop :=
  ∀ k, (s.player p).backend = some k → k.accepts = true →
    k.preserve = wanted (past ++ s.log) p (s.player p)

/-- What decides on the setting is as before for a backend that takes it. -/
def Inherits (past : List PlayerEvent) (s t : Players) (p : Nat) : Prop :=
  ∀ k, (t.player p).backend = some k → k.accepts = true →
    (s.player p).backend = some k ∧
      (t.player p).group.isSome = (s.player p).group.isSome ∧
      (t.player p).renderEnabled = (s.player p).renderEnabled ∧
      preparedLayer (past ++ t.log) p = preparedLayer (past ++ s.log) p

/-- A backend that is closed takes no setting. -/
theorem backendClose_off {s : Players} {p : Nat} (k : Backend)
    (closed : ((s.backendClose p).player p).backend = some k) : k.accepts = false := by
  simp only [Players.backendClose, Players.edit_player_self, Option.map_eq_some_iff] at closed
  obtain ⟨before, _, rfl⟩ := closed
  rfl

namespace Inherits

variable {past : List PlayerEvent} {s t u : Players} {p q : Nat}

theorem refl : Inherits past s s p := fun _ backend _ => ⟨backend, rfl, rfl, rfl⟩

theorem trans (first : Inherits past s t p) (second : Inherits past t u p) :
    Inherits past s u p := by
  intro k backend accepts
  obtain ⟨middle, grouped, rendered, layer⟩ := second k backend accepts
  obtain ⟨early, before, shown, prepared⟩ := first k middle accepts
  exact ⟨early, grouped.trans before, rendered.trans shown, layer.trans prepared⟩

theorem policy (inherits : Inherits past s t p) (policy : PolicyAt past s p) :
    PolicyAt past t p := by
  intro k backend accepts
  obtain ⟨early, grouped, rendered, layer⟩ := inherits k backend accepts
  rw [policy k early accepts]
  simp only [wanted, singleBuffer, grouped, rendered, layer]

/-- A step that leaves the player and tells nothing. -/
theorem same (player : (t.player p).backend = (s.player p).backend ∧
      (t.player p).group = (s.player p).group ∧
      (t.player p).renderEnabled = (s.player p).renderEnabled) (log : t.log = s.log) :
    Inherits past s t p := by
  intro k backend _
  exact ⟨player.1 ▸ backend, by rw [player.2.1], player.2.2, by rw [log]⟩

theorem framesOnly (only : Players.FramesOnly s t) : Inherits past s t p := by
  obtain ⟨told, log, framing⟩ := only.log
  intro k backend _
  refine ⟨only.backend ▸ backend, by rw [only.grouped], only.renderEnabled, ?_⟩
  · rw [log, ← List.append_assoc]
    exact preparedLayer_framing framing

theorem edit (unseen : ((change (s.player p)).backend, (change (s.player p)).group,
      (change (s.player p)).renderEnabled) =
      ((s.player p).backend, (s.player p).group, (s.player p).renderEnabled)) :
    Inherits past s (s.edit p change) q := by
  have view := Players.edit_view
    (fun b : Player => (b.backend, b.group, b.renderEnabled)) unseen q
  simp only [Prod.mk.injEq] at view
  exact .same view rfl

theorem edit_other (other : q ≠ p) : Inherits past s (s.edit p change) q :=
  .same (by rw [Players.edit_player_ne other]; exact ⟨rfl, rfl, rfl⟩) rfl

theorem tell {event : PlayerEvent} (other : ∀ layer, event ≠ .prepared p layer) :
    Inherits past s (s.tell event) p := by
  intro k backend _
  refine ⟨backend, rfl, rfl, ?_⟩
  change preparedLayer (past ++ (s.log ++ [event])) p = _
  rw [← List.append_assoc]
  exact preparedLayer_snoc other

theorem editMembers : Inherits past s (s.editMembers g change) p := .same ⟨rfl, rfl, rfl⟩ rfl

theorem groupReset {g : Option Nat} {event : Nat → PlayerEvent}
    (other : ∀ g layer, event g ≠ .prepared p layer) :
    Inherits past s (s.groupReset g event) p := by
  cases g with
  | none => exact .refl
  | some g =>
      have cleared : Inherits past s { s with
          player := fun p => if p ∈ (s.group g).members then
            { s.player p with groupPresented := false } else s.player p } p := by
        refine .same ?_ rfl
        dsimp only
        split <;> exact ⟨rfl, rfl, rfl⟩
      exact cleared.trans (.tell (other g))

/-- A player without a backend that takes a setting. -/
theorem off (off : ∀ k, (t.player p).backend = some k → k.accepts = false) :
    Inherits past s t p := by
  intro k backend accepts
  rw [off k backend] at accepts
  cases accepts

theorem backendClose : Inherits past s (s.backendClose p) q := by
  by_cases same : q = p
  · subst same
    exact .off backendClose_off
  · exact .edit_other same

theorem groupWait : Inherits past s (s.groupWait p).2 q := by
  unfold Players.groupWait
  split
  · exact .refl
  split
  · exact (Inherits.edit rfl).trans (.tell (by nofun))
  · dsimp only
    split
    · exact .groupReset (by nofun)
    · exact .refl

theorem retire {closed : Bool} : Inherits past s (s.retire p closed).2 q :=
  .framesOnly .retire

theorem groupUnlink (other : q ≠ p) : Inherits past s (s.groupUnlink p) q := by
  unfold Players.groupUnlink
  dsimp only
  refine trans ?_ (.edit_other other)
  split
  · exact .refl
  · exact (editMembers.trans (.tell (by nofun))).trans (.groupReset (by nofun))

theorem groupJoin {g : Nat} (other : q ≠ p) : Inherits past s (s.groupJoin p g) q :=
  ((edit_other other).trans .editMembers).trans ((tell (by nofun)).trans (.groupReset (by nofun)))

theorem backendPreserve {enabled : Bool} (other : q ≠ p) :
    Inherits past s (s.backendPreserve p enabled).2 q := by
  unfold Players.backendPreserve
  split
  · exact .refl
  split
  · dsimp only
    exact .edit_other other
  · exact .refl

theorem foldl {step : Players → Nat → Players} {items : List Nat}
    (one : ∀ s, ∀ i ∈ items, Inherits past s (step s i) q) :
    Inherits past s (items.foldl step s) q := by
  induction items generalizing s with
  | nil => exact .refl
  | cons first rest ih =>
      exact (one s first (by simp)).trans (ih fun s i member => one s i (by simp [member]))

theorem deleteGroup {g : Nat} (outside : p ∉ (s.group g).members) :
    Inherits past s (s.deleteGroup g) p := by
  refine trans (foldl fun s i member => ?_) (.same ⟨rfl, rfl, rfl⟩ rfl)
  have other : p ≠ i := fun same => outside (same ▸ member)
  exact (groupUnlink other).trans (.backendPreserve other)

theorem setGroup {g : Option Nat} (other : q ≠ p) : Inherits past s (s.setGroup p g) q := by
  unfold Players.setGroup
  split
  · exact .refl
  refine trans ?_ (.backendPreserve other)
  cases g with
  | none => exact .groupUnlink other
  | some g => exact (groupUnlink other).trans (.groupJoin other)

end Inherits

namespace PolicyAt

variable {past : List PlayerEvent} {s t : Players} {p q : Nat}

theorem idle (idle : (s.player p).backend = none) : PolicyAt past s p := by
  intro k backend _
  rw [idle] at backend
  cases backend

/-- The setting that is written is the one that is wanted. -/
theorem backendPreserve {enabled : Bool}
    (agrees : ∀ k, (s.player p).backend = some k → k.accepts = true →
      enabled = wanted (past ++ s.log) p (s.player p)) :
    PolicyAt past (s.backendPreserve p enabled).2 p := by
  unfold Players.backendPreserve
  split
  · rename_i none
    exact .idle none
  rename_i k backend
  split
  · rename_i accepts
    intro after written _
    dsimp only at written ⊢
    rw [Players.edit_player_self] at written ⊢
    cases written
    exact agrees k backend accepts
  · rename_i refuses
    intro after same accepts
    rw [backend, Option.some.injEq] at same
    exact absurd accepts (same ▸ refuses)

end PolicyAt

/-! ## Changes of membership -/

/-- What a change of membership writes is what the layer of the backend asks for. -/
def Agrees (trace : List PlayerEvent) (s : Players) (p : Nat) (joins : Bool) : Prop :=
  ∀ k, (s.player p).backend = some k → k.accepts = true →
    if joins then (s.player p).renderEnabled = true ∨ singleBuffer trace p = true
    else singleBuffer trace p = false

/-- Every change of the membership of a backend that takes settings agrees. -/
def Agreeing (trace : List PlayerEvent) (s : Players) : PlayerAction → Prop
  | .call (.setGroup p g) => (s.player p).group ≠ g → Agrees trace s p g.isSome
  | .call (.groupRemove g p) => (s.player p).group = some g → Agrees trace s p false
  | .call (.deleteGroup g) => ∀ p ∈ (s.group g).members, Agrees trace s p false
  | _ => True

section

variable {past : List PlayerEvent} {s t : Players} {p q g : Nat}

theorem groupUnlink_self : ((s.groupUnlink p).player p).backend = (s.player p).backend ∧
    ((s.groupUnlink p).player p).renderEnabled = (s.player p).renderEnabled ∧
    ((s.groupUnlink p).player p).group = none := by
  unfold Players.groupUnlink
  dsimp only
  rw [Players.edit_player_self]
  split
  · exact ⟨rfl, rfl, rfl⟩
  · refine ⟨?_, ?_, rfl⟩
    · exact Players.groupReset_view Player.backend fun _ => rfl
    · exact Players.groupReset_view Player.renderEnabled fun _ => rfl

theorem preparedLayer_groupReset {g : Option Nat} {event : Nat → PlayerEvent}
    (other : ∀ g layer, event g ≠ .prepared p layer) :
    preparedLayer (past ++ (s.groupReset g event).log) p = preparedLayer (past ++ s.log) p := by
  cases g with
  | none => rfl
  | some g =>
      change preparedLayer (past ++ (s.log ++ [event g])) p = _
      rw [← List.append_assoc]
      exact preparedLayer_snoc (other g)

theorem preparedLayer_groupUnlink :
    preparedLayer (past ++ (s.groupUnlink p).log) q = preparedLayer (past ++ s.log) q := by
  unfold Players.groupUnlink
  split
  · rfl
  · change preparedLayer (past ++ (Players.groupReset _ _ _).log) q = _
    rw [preparedLayer_groupReset (by nofun)]
    change preparedLayer (past ++ (s.log ++ [_])) q = _
    rw [← List.append_assoc]
    exact preparedLayer_snoc (by nofun)

theorem groupJoin_self : ((s.groupJoin p g).player p).backend = (s.player p).backend ∧
    ((s.groupJoin p g).player p).renderEnabled = (s.player p).renderEnabled ∧
    ((s.groupJoin p g).player p).group = some g := by
  have joined : ∀ {View : Type} (view : Player → View),
      (∀ b : Player, view { b with groupPresented := false } = view b) →
      view ((s.groupJoin p g).player p) = view { s.player p with group := some g } := by
    intro View view unseen
    unfold Players.groupJoin
    rw [Players.groupReset_view view unseen]
    change view (Function.update s.player p _ p) = _
    rw [Function.update_self]
  exact ⟨joined Player.backend fun _ => rfl, joined Player.renderEnabled fun _ => rfl,
    joined Player.group fun _ => rfl⟩

theorem preparedLayer_groupJoin :
    preparedLayer (past ++ (s.groupJoin p g).log) q = preparedLayer (past ++ s.log) q := by
  unfold Players.groupJoin
  rw [preparedLayer_groupReset (by nofun)]
  change preparedLayer (past ++ (s.log ++ [_])) q = _
  rw [← List.append_assoc]
  exact preparedLayer_snoc (by nofun)

theorem PolicyAt.setGroup {g : Option Nat} (policy : PolicyAt past s p)
    (agrees : (s.player p).group ≠ g → Agrees (past ++ s.log) s p g.isSome) :
    PolicyAt past (s.setGroup p g) p := by
  unfold Players.setGroup
  split
  · exact policy
  rename_i different
  have agrees := agrees different
  obtain ⟨backend, rendered, alone⟩ := groupUnlink_self (s := s) (p := p)
  have layer : preparedLayer (past ++ (s.groupUnlink p).log) p =
      preparedLayer (past ++ s.log) p := preparedLayer_groupUnlink
  cases g with
  | none =>
      refine .backendPreserve fun k found accepts => ?_
      have single := agrees k (backend ▸ found) accepts
      simp only [Option.isSome_none, Bool.false_eq_true, if_false, singleBuffer] at single
      simp only [wanted, alone, singleBuffer, layer, single, Option.isSome_none, Bool.false_and,
        Bool.false_or]
  | some g =>
      obtain ⟨joinedBackend, joinedRendered, joined⟩ :=
        groupJoin_self (s := s.groupUnlink p) (p := p) (g := g)
      have joinedLayer : preparedLayer (past ++ ((s.groupUnlink p).groupJoin p g).log) p =
          preparedLayer (past ++ (s.groupUnlink p).log) p := preparedLayer_groupJoin
      refine .backendPreserve fun k found accepts => ?_
      have single := agrees k (backend ▸ joinedBackend ▸ found) accepts
      simp only [Option.isSome_some, if_true, singleBuffer] at single
      simp only [wanted, joined, joinedRendered, rendered, singleBuffer, joinedLayer, layer,
        Option.isSome_some, Bool.true_and]
      rcases single with shown | single
      · rw [shown, Bool.true_or]
      · rw [single, Bool.or_true]

/-- A member that takes settings was not prepared for the single UI buffer. -/
def Loose (past : List PlayerEvent) (s : Players) (p : Nat) : Prop :=
  ∀ k, (s.player p).backend = some k → k.accepts = true → singleBuffer (past ++ s.log) p = false

theorem backendPreserve_accepts {enabled : Bool} {k : Backend}
    (found : ((s.backendPreserve p enabled).2.player q).backend = some k)
    (accepts : k.accepts = true) :
    ∃ before, (s.player q).backend = some before ∧ before.accepts = true := by
  unfold Players.backendPreserve at found
  split at found
  · exact ⟨k, found, accepts⟩
  rename_i before backend
  split at found
  · rename_i early
    by_cases same : q = p
    · subst same
      exact ⟨before, backend, early⟩
    · dsimp only at found
      rw [Players.edit_player_ne same] at found
      exact ⟨k, found, accepts⟩
  · exact ⟨k, found, accepts⟩

theorem backendPreserve_log {enabled : Bool} : (s.backendPreserve p enabled).2.log = s.log := by
  unfold Players.backendPreserve
  split
  · rfl
  split <;> rfl

theorem Loose.leave (loose : Loose past s q) :
    Loose past ((s.groupUnlink p).backendPreserve p false).2 q := by
  intro k found accepts
  obtain ⟨before, backend, early⟩ := backendPreserve_accepts found accepts
  have same : ((s.groupUnlink p).player q).backend = (s.player q).backend := by
    by_cases same : q = p
    · rw [same]
      exact groupUnlink_self.1
    · unfold Players.groupUnlink
      dsimp only
      rw [Players.edit_player_ne same]
      split
      · rfl
      · exact Players.groupReset_view Player.backend fun _ => rfl
  have single := loose before (same ▸ backend) early
  rw [singleBuffer, backendPreserve_log, preparedLayer_groupUnlink]
  exact single

theorem PolicyAt.leave (loose : Loose past s p) :
    PolicyAt past ((s.groupUnlink p).backendPreserve p false).2 p := by
  obtain ⟨backend, rendered, alone⟩ := groupUnlink_self (s := s) (p := p)
  refine .backendPreserve fun k found accepts => ?_
  have single := loose k (backend ▸ found) accepts
  simp only [singleBuffer] at single
  simp only [wanted, alone, singleBuffer, preparedLayer_groupUnlink, single, Option.isSome_none,
    Bool.false_and, Bool.false_or]

/-- The members leave one after another. -/
theorem PolicyAt.leaveAll {members : List Nat} (loose : Loose past s p) (member : p ∈ members) :
    PolicyAt past (members.foldl
      (fun s m => ((s.groupUnlink m).backendPreserve m false).2) s) p := by
  induction members generalizing s with
  | nil => cases member
  | cons first rest ih =>
      by_cases later : p ∈ rest
      · exact ih loose.leave later
      · obtain rfl : p = first := by simpa [later] using member
        rw [List.foldl_cons]
        refine (Inherits.foldl fun s m inside => ?_).policy (.leave loose)
        have other : p ≠ m := fun same => later (same ▸ inside)
        exact (Inherits.groupUnlink other).trans (.backendPreserve other)

theorem PolicyAt.deleteGroup (loose : Loose past s p) (member : p ∈ (s.group g).members) :
    PolicyAt past (s.deleteGroup g) p :=
  Inherits.policy (.same ⟨rfl, rfl, rfl⟩ rfl) (PolicyAt.leaveAll loose member)

end

/-! ## The other steps -/

section

variable {past : List PlayerEvent} {s t : Players} {p q g : Nat} {a : PrepareAnswer}

theorem openBackend_layer : preparedLayer (past ++ (s.openBackend p a).log) p =
    some ((s.openBackend p a).player p).drawLayer := by
  have same : ((s.openBackend p a).player p).drawLayer = (s.player p).drawLayer := by
    change (Function.update s.player p _ p).drawLayer = _
    rw [Function.update_self]
  rw [same]
  change preparedLayer (past ++ (s.log ++ [_])) p = _
  rw [← List.append_assoc, preparedLayer_append]
  exact if_pos rfl

theorem PolicyAt.setUp : PolicyAt past (s.setUp p a).2 p := by
  unfold Players.setUp
  dsimp only
  have prepared : PolicyAt past ((s.openBackend p a).backendPreserve p
      ((((s.openBackend p a).player p).group.isSome &&
        ((s.openBackend p a).player p).renderEnabled) ||
          ((s.openBackend p a).player p).drawLayer = .uiSingleBuf)).2 p := by
    refine .backendPreserve fun k _ _ => ?_
    simp only [wanted, singleBuffer, openBackend_layer, Option.some.injEq]
  split
  · dsimp only
    exact (Inherits.backendClose.trans (.edit (by rfl))).policy prepared
  · exact prepared

theorem Inherits.setUp (other : q ≠ p) : Inherits past s (s.setUp p a).2 q := by
  have opened : Inherits past s (s.openBackend p a) q :=
    (Inherits.edit_other other).trans (.tell fun layer same => other (by cases same; rfl))
  unfold Players.setUp
  dsimp only
  split
  · dsimp only
    exact ((opened.trans (.backendPreserve other)).trans .backendClose).trans (.edit (by rfl))
  · exact opened.trans (.backendPreserve other)

theorem Inherits.preparePlane : Inherits past s (s.preparePlane p) q := by
  unfold Players.preparePlane
  split
  · exact .edit rfl
  · exact .refl

theorem Inherits.prepare (other : q ≠ p) : Inherits past s (s.prepare p a).2 q := by
  have rendered : Inherits past s (s.prepareRender p) q :=
    (Inherits.edit_other other).trans (.tell (by nofun))
  unfold Players.prepare
  dsimp only
  split
  · dsimp only
    exact .edit_other other
  split
  · dsimp only
    exact rendered.trans (.edit_other other)
  split
  · dsimp only
    exact (rendered.trans .preparePlane).trans (.edit_other other)
  · exact (rendered.trans .preparePlane).trans (.setUp other)

theorem preparePlane_backend :
    ((s.preparePlane p).player q).backend = (s.player q).backend := by
  unfold Players.preparePlane
  split
  · exact Players.edit_view Player.backend rfl q
  · rfl

theorem prepareRender_backend :
    ((s.prepareRender p).player q).backend = (s.player q).backend := by
  change ((s.edit p fun b => { b with
    renderEnabled := decide ((s.player p).drawLayer ≠ .none) }).player q).backend = _
  exact Players.edit_view Player.backend rfl q

/-- A player without a backend is prepared by the policy. -/
theorem PolicyAt.prepare (policy : PolicyAt past s q) (idle : (s.player p).backend = none) :
    PolicyAt past (s.prepare p a).2 q := by
  by_cases same : q = p
  · subst same
    have rendered := (prepareRender_backend (p := q) (q := q)).trans idle
    unfold Players.prepare
    dsimp only
    split
    · dsimp only
      exact .idle ((Players.edit_view Player.backend rfl q).trans idle)
    split
    · dsimp only
      exact .idle ((Players.edit_view Player.backend rfl q).trans rendered)
    split
    · dsimp only
      exact .idle ((Players.edit_view Player.backend rfl q).trans
        (preparePlane_backend.trans rendered))
    · exact .setUp
  · exact (Inherits.prepare same).policy policy

/-- A source or a start is asked for, which restarts the round. -/
theorem Inherits.asked {change : Player → Player} {g : Option Nat}
    (unseen : ((change (s.player p)).backend, (change (s.player p)).group,
      (change (s.player p)).renderEnabled) =
      ((s.player p).backend, (s.player p).group, (s.player p).renderEnabled)) :
    Inherits past s (((s.edit p change).groupReset g .reset).edit p
      fun b => { b with timer := true }) q :=
  ((Inherits.edit unseen).trans (.groupReset (by nofun))).trans (.edit rfl)

theorem asked_backend {change : Player → Player} {g : Option Nat}
    (unseen : (change (s.player p)).backend = (s.player p).backend) :
    ((((s.edit p change).groupReset g .reset).edit p
      fun b => { b with timer := true }).player q).backend = (s.player q).backend := by
  rw [Players.edit_view Player.backend rfl q, Players.groupReset_view Player.backend fun _ => rfl]
  exact Players.edit_view Player.backend unseen q

theorem PolicyAt.setSrc {uri : List UInt8} (policy : PolicyAt past s q) :
    PolicyAt past (s.setSrc p uri a).2 q := by
  unfold Players.setSrc
  split
  · exact policy
  dsimp only
  split
  · exact ((Inherits.asked rfl).trans ((Inherits.edit (by rfl)).trans .backendClose)).policy policy
  · rename_i idle
    refine ((Inherits.asked rfl).policy policy).prepare ?_
    rw [asked_backend (by rfl)]
    simp only [Bool.or_eq_true, not_or, Option.isSome_iff_ne_none, ne_eq, not_not] at idle
    exact idle.1

theorem PolicyAt.start {started : Bool} (policy : PolicyAt past s q) :
    PolicyAt past (s.start p a started).2 q := by
  unfold Players.start
  split
  · exact policy
  dsimp only
  split
  · exact ((Inherits.asked rfl).trans ((Inherits.edit (by rfl)).trans .backendClose)).policy policy
  split
  · rename_i idle
    refine ((Inherits.asked rfl).policy policy).prepare ?_
    rw [asked_backend (by rfl)]
    exact Option.isNone_iff_eq_none.mp idle
  · exact (Inherits.asked rfl).policy policy

theorem Inherits.requestClose {stopped : Bool} : Inherits past s (s.requestClose p stopped) q :=
  (((Inherits.groupReset (by nofun)).trans (.edit rfl)).trans .backendClose).trans (.edit rfl)

theorem Inherits.seek {position queued : Nat} {sought : Bool} :
    Inherits past s (s.seek p position sought queued).2 q := by
  unfold Players.seek
  dsimp only
  split
  · exact .refl
  · dsimp only
    exact (Inherits.groupReset (by nofun)).trans (.edit (by rfl))

theorem Inherits.deletePlayer : Inherits past s (s.deletePlayer p) q := by
  unfold Players.deletePlayer
  dsimp only
  by_cases same : q = p
  · subst same
    exact .off backendClose_off
  · have unlinked : Inherits past s ((s.player p).slaves.foldl
        (fun s i => (s.unlinkSlave i).editSlave i fun r => { r with timer := true }) s) q :=
      .framesOnly .unlinkSlaves
    exact ((unlinked.trans (.groupUnlink same)).trans (.edit_other same)).trans
      (Inherits.backendClose.trans (.same ⟨rfl, rfl, rfl⟩ rfl))

theorem Inherits.backendDestroy {destroyed : Bool} :
    Inherits past s (s.backendDestroy p destroyed).2 q := by
  unfold Players.backendDestroy
  split
  · by_cases same : q = p
    · subst same
      refine .off fun k backend => ?_
      dsimp only at backend
      rw [Players.edit_player_self] at backend
      cases backend
    · dsimp only
      exact .edit_other same
  · exact .refl

theorem backendDestroy_backend {destroyed : Bool}
    (done : (s.backendDestroy p destroyed).1 = true) :
    ((s.backendDestroy p destroyed).2.player p).backend = none := by
  unfold Players.backendDestroy at done ⊢
  split
  · dsimp only
    rw [Players.edit_player_self]
  · rename_i kept
    rw [if_neg kept] at done
    cases done

theorem PolicyAt.tickClosed {a : TickAnswer} (policy : PolicyAt past s q)
    (idle : (s.player p).backend = none) : PolicyAt past (s.tickClosed p a).2 q := by
  unfold Players.tickClosed
  split
  · dsimp only
    exact ((Inherits.edit (by rfl)).trans (.framesOnly .free)).policy policy
  split
  · dsimp only
    refine ((Inherits.edit (by rfl)).policy policy).prepare ?_
    rw [Players.edit_player_self]
    exact idle
  · dsimp only
    exact (Inherits.edit (by rfl)).policy policy

theorem PolicyAt.tickClosing {a : TickAnswer} (policy : PolicyAt past s q) :
    PolicyAt past (s.tickClosing p a).2 q := by
  unfold Players.tickClosing
  dsimp only
  split
  · exact Inherits.retire.policy policy
  split
  · exact ((Inherits.retire.trans (.edit (by rfl))).trans .backendDestroy).policy policy
  · rename_i done
    refine PolicyAt.tickClosed ?_ ?_
    · exact (((Inherits.retire.trans (.edit (by rfl))).trans .backendDestroy).trans
        (.edit (by rfl))).policy policy
    · rw [Players.edit_player_self]
      exact backendDestroy_backend (by simpa using done)

theorem Inherits.takeFrame : Inherits past s (s.takeFrame p) q := by
  have taken : Inherits past s (s.allocateFrame p) q :=
    Inherits.trans (.same ⟨rfl, rfl, rfl⟩ rfl) (.tell (by nofun))
  exact taken.trans (.edit (by rfl))

theorem Inherits.tickPublish {a : TickAnswer} : Inherits past s (s.tickPublish p a).2 q := by
  unfold Players.tickPublish
  dsimp only
  split
  · exact .groupWait
  split
  · dsimp only
    exact ((Inherits.groupWait.trans (.edit (by rfl))).trans (.tell (by nofun))).trans
      (.tell (by nofun))
  · exact Inherits.groupWait.trans .takeFrame

theorem Inherits.tickSeek {a : TickAnswer} : Inherits past s (s.tickSeek p a).2 q := by
  unfold Players.tickSeek
  split
  · exact .retire
  · exact .refl

theorem Inherits.tickBackend {a : TickAnswer} : Inherits past s (s.tickBackend p a).2 q := by
  unfold Players.tickBackend
  dsimp only
  have sought : Inherits past s
      ((s.edit p fun b => { b with status := a.status }).tickSeek p a).2 q :=
    (Inherits.edit rfl).trans .tickSeek
  generalize (s.edit p fun b => { b with status := a.status }).tickSeek p a = t at sought
  split
  · exact sought
  have known : Inherits past s (t.2.edit p fun b => { b with
      state := if s.planeBuild && b.planeFailed then .fault else a.status.state.shown b.state }) q :=
    sought.trans (.edit rfl)
  split
  · exact known.trans .retire
  · exact known.trans .tickPublish
  · exact known.trans .tickPublish
  · exact known

theorem Inherits.tickPlane {e : EndAnswer} : Inherits past s (s.tickPlane p e) q := by
  unfold Players.tickPlane
  dsimp only
  split
  · split
    · exact .edit rfl
    · exact .refl
    · exact ((Inherits.edit rfl).trans .backendClose).trans .retire
  · exact .refl

theorem Inherits.tickRestart {e : EndAnswer} : Inherits past s (s.tickRestart p e) q := by
  unfold Players.tickRestart
  dsimp only
  split
  · split
    · exact ((Inherits.groupWait.trans (.edit (by rfl))).trans (.groupReset (by nofun))).trans
        .retire
    · exact .groupWait
  · exact .refl

theorem Inherits.tickReport : Inherits past s (s.tickReport p) q := by
  unfold Players.tickReport
  dsimp only
  split
  · exact (Inherits.edit rfl).trans (.tell (by nofun))
  · exact .refl

theorem Inherits.tickEnd {e : EndAnswer} : Inherits past s (s.tickEnd p e) q :=
  (Inherits.tickPlane.trans .tickRestart).trans .tickReport

theorem PolicyAt.tickBegin {a : TickAnswer} (policy : PolicyAt past s q) :
    PolicyAt past (s.tickBegin p a).2 q := by
  unfold Players.tickBegin
  split
  · exact policy.tickClosing
  split
  · exact Inherits.tickBackend.policy policy
  · exact policy

theorem PolicyAt.tick {a : TickAnswer} {e : EndAnswer} (policy : PolicyAt past s q) :
    PolicyAt past (s.tick p a e) q := by
  unfold Players.tick
  dsimp only
  split
  · exact policy
  split
  · exact Inherits.tickEnd.policy policy.tickBegin
  · exact policy.tickBegin

theorem Inherits.present : Inherits past s (s.present p) q :=
  ((Inherits.edit rfl).trans (.tell (by nofun))).trans (.tell (by nofun))

theorem Inherits.publish {t : Publishing} : Inherits past s (s.publish t) q := by
  have published : Inherits past s
      (((s.publishSlaves t.player (some t.frame)).present t.player).releaseFrame t.old) q :=
    ((Inherits.framesOnly .publishSlaves).trans .present).trans (.framesOnly .releaseFrame)
  exact published.trans (.same ⟨rfl, rfl, rfl⟩ rfl)

theorem Inherits.settle {t : Publishing} {e : EndAnswer} : Inherits past s (s.settle t e) q :=
  Inherits.publish.trans .tickEnd

/-- Creating an object touches a number that no player has. -/
theorem PolicyAt.create (policy : PolicyAt past s q) :
    PolicyAt past (s.call .createPlayer) q := by
  by_cases same : q = s.players
  · subst same
    refine .idle ?_
    change (Function.update s.player s.players Player.created s.players).backend = none
    rw [Function.update_self]
    rfl
  · have kept : (s.call .createPlayer).player q = s.player q := Function.update_of_ne same ..
    refine Inherits.policy (s := s) (.same ?_ rfl) policy
    rw [kept]
    exact ⟨rfl, rfl, rfl⟩

theorem PolicyAt.setVideoPlane {enabled : Bool} {display : Option Bool}
    (policy : PolicyAt past s q) : PolicyAt past (s.setVideoPlane p enabled display).2 q := by
  unfold Players.setVideoPlane
  dsimp only
  split
  · exact policy
  split
  · exact policy
  cases display with
  | none => exact policy
  | some argb =>
      dsimp only
      split
      · exact policy
      · dsimp only
        exact (Inherits.edit (by rfl)).policy policy

theorem PolicyAt.configure {apng valid : Bool} (policy : PolicyAt past s q) :
    PolicyAt past (s.configure p apng valid).2 q := by
  unfold Players.configure
  dsimp only
  split
  · exact policy
  split
  · dsimp only
    exact (Inherits.edit (by rfl)).policy policy
  · dsimp only
    exact (Inherits.edit (by rfl)).policy policy

theorem PolicyAt.setVolume {volume : Int} {taken : Bool} (policy : PolicyAt past s q) :
    PolicyAt past (s.setVolume p volume taken).2 q := by
  unfold Players.setVolume
  dsimp only
  split
  · exact policy
  split
  · exact policy
  split
  · exact policy
  · dsimp only
    exact (Inherits.edit (by rfl)).policy policy

theorem PolicyAt.call {c : PlayerCall} (policy : PolicyAt past s q)
    (agreeing : Agreeing (past ++ s.log) s (.call c)) : PolicyAt past (s.call c) q := by
  have joins : ∀ (p : Nat) (g : Option Nat),
      ((s.player p).group ≠ g → Agrees (past ++ s.log) s p g.isSome) →
      PolicyAt past (s.setGroup p g) q := by
    intro p g agrees
    by_cases same : q = p
    · subst same
      exact policy.setGroup agrees
    · exact (Inherits.setGroup same).policy policy
  cases c with
  | createPlayer => exact policy.create
  | createSlave | createGroup => exact Inherits.policy (.same ⟨rfl, rfl, rfl⟩ rfl) policy
  | deletePlayer p => exact Inherits.deletePlayer.policy policy
  | deleteSlave i => exact Inherits.policy (.framesOnly .deleteSlave) policy
  | deleteGroup g =>
      by_cases member : q ∈ (s.group g).members
      · exact .deleteGroup (agreeing q member) member
      · exact (Inherits.deleteGroup member).policy policy
  | setGroup p g => exact joins p g agreeing
  | groupRemove g p =>
      simp only [Players.call]
      split
      · rename_i inside
        exact joins p none fun _ => agreeing inside
      · exact policy
  | setMaster i master => exact Inherits.policy (.framesOnly .setMaster) policy
  | setDrawLayer p layer | setAutoRestart p enabled =>
      simp only [Players.call]
      exact (Inherits.edit (by rfl)).policy policy
  | setVideoPlane p enabled display => exact policy.setVideoPlane
  | configure p apng valid => exact policy.configure
  | setSrc p uri a => exact policy.setSrc
  | start p a started => exact policy.start
  | stop p | close p => exact Inherits.requestClose.policy policy
  | seek p position sought queued => exact Inherits.seek.policy policy
  | setVolume p volume taken => exact policy.setVolume

theorem PolicyAt.finish (policy : PolicyAt past s q) :
    PolicyAt past (s.edit p fun b => { b with
      backend := b.backend.map fun k => { k with finished := true } }) q := by
  refine Inherits.policy ?_ policy
  by_cases same : q = p
  · subst same
    refine .off fun k backend => ?_
    simp only [Players.edit_player_self, Option.map_eq_some_iff] at backend
    obtain ⟨before, _, rfl⟩ := backend
    simp [Backend.accepts]
  · exact .edit_other same

theorem PolicyAt.perform {action : PlayerAction} (policy : PolicyAt past s q)
    (agreeing : Agreeing (past ++ s.log) s action) (acted : s.perform action = some t) :
    PolicyAt past t q := by
  cases action with
  | call c =>
      simp only [Players.perform, Option.ite_none_right_eq_some, Option.some.injEq] at acted
      obtain ⟨_, rfl⟩ := acted
      exact policy.call agreeing
  | tick p a e =>
      simp only [Players.perform, Option.ite_none_right_eq_some, Option.some.injEq] at acted
      obtain ⟨_, rfl⟩ := acted
      exact policy.tick
  | settle e =>
      simp only [Players.perform, Option.map_eq_some_iff] at acted
      obtain ⟨frame, _, rfl⟩ := acted
      exact Inherits.settle.policy policy
  | slaveTick i idle =>
      simp only [Players.perform, Option.ite_none_right_eq_some, Option.some.injEq] at acted
      obtain ⟨_, rfl⟩ := acted
      exact Inherits.policy (.framesOnly .slaveTick) policy
  | finish p =>
      simp only [Players.perform, Option.ite_none_right_eq_some, Option.some.injEq] at acted
      obtain ⟨_, rfl⟩ := acted
      exact policy.finish

end

/-- In every run whose changes of membership agree with the layers, a backend that
takes the setting has the one that its group and its layer ask for. -/
theorem player_preserve_policy {trace : List PlayerEvent} {s : Players}
    (reached : playerMachine.Reaches Agreeing trace s) (p : Nat) (k : Backend)
    (backend : (s.player p).backend = some k) (accepts : k.accepts = true) :
    k.preserve = (((s.player p).group.isSome && (s.player p).renderEnabled) ||
      decide (preparedLayer trace p = some .uiSingleBuf)) := by
  have policy : (∀ q, PolicyAt trace s q) ∧ s.log = [] := by
    refine Players.reaches_invariant (fun past s => ∀ q, PolicyAt past s q) reached ?_ ?_ ?_
    · exact fun _ _ q => .idle rfl
    · intro past s action t policy empty agreeing acted q
      refine (policy q).perform ?_ acted
      rw [empty, List.append_nil]
      exact agreeing
    · intro past s policy q k backend accepts
      have kept := policy q k backend accepts
      rw [List.append_nil]
      exact kept
  have kept := policy.1 p k backend accepts
  rw [policy.2, List.append_nil] at kept
  exact kept

instance Agrees.decidable {trace : List PlayerEvent} {s : Players} {p : Nat} {joins : Bool} :
    Decidable (Agrees trace s p joins) :=
  decidable_of_iff (∀ k ∈ (s.player p).backend, k.accepts = true →
    if joins then (s.player p).renderEnabled = true ∨ singleBuffer trace p = true
    else singleBuffer trace p = false) Iff.rfl

instance Agreeing.decidable {trace : List PlayerEvent} {s : Players} :
    DecidablePred (Agreeing trace s)
  | .call (.setGroup p g) =>
      inferInstanceAs (Decidable ((s.player p).group ≠ g → Agrees trace s p g.isSome))
  | .call (.groupRemove g p) =>
      inferInstanceAs (Decidable ((s.player p).group = some g → Agrees trace s p false))
  | .call (.deleteGroup g) =>
      inferInstanceAs (Decidable (∀ p ∈ (s.group g).members, Agrees trace s p false))
  | .call .createPlayer | .call .createSlave | .call .createGroup | .call (.deletePlayer _)
  | .call (.deleteSlave _) | .call (.setMaster _ _) | .call (.setDrawLayer _ _)
  | .call (.setVideoPlane _ _ _) | .call (.configure _ _ _) | .call (.setSrc _ _ _)
  | .call (.start _ _ _) | .call (.stop _) | .call (.close _) | .call (.seek _ _ _ _)
  | .call (.setAutoRestart _ _) | .call (.setVolume _ _ _) | .tick _ _ _ | .settle _
  | .slaveTick _ _ | .finish _ => isTrue trivial

/-- Every call of `prepare` succeeds. -/
def PrepareAnswer.done : PrepareAnswer where
  argb := true
  created := true
  finished := false
  configured := true
  started := true

/-- A player with a source is prepared with the layer. -/
def preparedCalls (layer : DrawLayer) : List PlayerAction :=
  [.call .createPlayer, .call (.configure 0 false true), .call (.setDrawLayer 0 layer),
    .call (.setSrc 0 [97] .done)]

/-- It joins a group and leaves it. -/
def groupedCalls : List PlayerAction :=
  [.call .createGroup, .call (.setGroup 0 (some 0)), .call (.setGroup 0 none),
    .call (.setGroup 0 (some 0))]

theorem player_preserve_policy_grouped :
    ∃ (trace : List PlayerEvent) (s : Players) (k : Backend),
      playerMachine.Reaches Agreeing trace s ∧ (s.player 0).backend = some k ∧
      k.preserve = true ∧ (s.player 0).group = some 0 ∧
      true = (((s.player 0).group.isSome && (s.player 0).renderEnabled) ||
        decide (preparedLayer trace 0 = some .uiSingleBuf)) := by
  let start := Players.initial false false
  let calls := preparedCalls .uiDoubleBuf ++ groupedCalls
  obtain ⟨⟨s, trace⟩, executed⟩ : ∃ last, playerMachine.execute start calls = some last :=
    Option.isSome_iff_exists.mp (by decide)
  have shown : (playerMachine.execute start calls).map (fun last =>
      ((last.1.player 0).backend, (last.1.player 0).group)) = some
        (some { apng := false, closing := false, finished := false, preserve := true },
          some 0) := by decide
  rw [executed] at shown
  simp only [Option.map_some, Option.some.injEq, Prod.mk.injEq] at shown
  have initial : playerMachine.Initial start := ⟨_, _, rfl⟩
  have sound : ∀ trace s action, decide (Agreeing trace s action) = true →
      Agreeing trace s action := fun _ _ _ agreed => of_decide_eq_true agreed
  have reached : playerMachine.Reaches Agreeing trace s :=
    (Machine.Reaches.start initial).conform sound (by decide) executed
  exact ⟨trace, s, _, reached, shown.1, rfl, shown.2,
    player_preserve_policy reached 0 _ shown.1 rfl⟩

/-- A member whose layer is NONE is told to preserve. -/
theorem player_preserve_ignores_layer :
    ¬ ∀ (trace : List PlayerEvent) (s : Players), playerMachine.Reaches Machine.Always trace s →
      ∀ p k, (s.player p).backend = some k → k.accepts = true →
        k.preserve = (((s.player p).group.isSome && (s.player p).renderEnabled) ||
          decide (preparedLayer trace p = some .uiSingleBuf)) := by
  intro claim
  let start := Players.initial false false
  let calls := preparedCalls .none ++ groupedCalls
  obtain ⟨⟨s, trace⟩, executed⟩ : ∃ last, playerMachine.execute start calls = some last :=
    Option.isSome_iff_exists.mp (by decide)
  have shown : (playerMachine.execute start calls).map (fun last =>
      ((last.1.player 0).backend, (last.1.player 0).renderEnabled, preparedLayer last.2 0)) =
        some (some { apng := false, closing := false, finished := false, preserve := true },
          false, some .none) := by decide
  rw [executed] at shown
  simp only [Option.map_some, Option.some.injEq, Prod.mk.injEq] at shown
  obtain ⟨backend, rendered, layer⟩ := shown
  have initial : playerMachine.Initial start := ⟨_, _, rfl⟩
  have reached : playerMachine.Reaches Machine.Always trace s :=
    (Machine.Reaches.start initial).execute executed
  have kept := claim trace s reached 0 _ backend rfl
  rw [rendered, layer] at kept
  simp at kept

end LvglAic.Widgets
