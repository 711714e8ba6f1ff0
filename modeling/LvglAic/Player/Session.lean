import LvglAic.Machine.Index

/-! # The player session (`lv_aic_player_session.c`)

The session belongs to one worker.  The SDK is the environment: `Sdk` holds its
answer to every call a function may make, `true` for success.
-/

namespace LvglAic.Player

/-- `LV_AIC_PLAYER_LEASES`. -/
abbrev leases : Nat := 8

abbrev LeaseIndex := Fin leases

/-- The lowest index that satisfies the test, as the loops of the source find it. -/
def firstIndex (test : LeaseIndex → Bool) : Option LeaseIndex := (List.finRange leases).find? test

theorem firstIndex_some {test : LeaseIndex → Bool} {index : LeaseIndex}
    (found : firstIndex test = some index) : test index = true := List.find?_some found

theorem firstIndex_none {test : LeaseIndex → Bool} :
    firstIndex test = none ↔ ∀ index, test index = false := by
  simp [firstIndex, List.find?_eq_none]

/-- The fields of `struct av_media_info` that the session and its worker read. -/
structure MediaInfo where
  hasVideo : Bool
  hasAudio : Bool
  width : Int
  height : Int
  seekable : Bool
  duration : Int
deriving DecidableEq, Repr

def MediaInfo.zero : MediaInfo :=
  { hasVideo := false, hasAudio := false, width := 0, height := 0, seekable := false, duration := 0 }

/-- The fields of `struct mpp_frame` that are read; `flags` is split into its
two tested bits. -/
structure MppFrame where
  id : Nat
  pts : Int
  flagError : Bool
  flagEos : Bool
deriving DecidableEq, Repr

def MppFrame.zero : MppFrame := { id := 0, pts := 0, flagError := false, flagEos := false }

structure Session where
  player : Bool
  info : MediaInfo
  frames : LeaseIndex → MppFrame
  uri : List UInt8
  held : LeaseIndex → Bool
  nextTicket : Nat
  tickets : LeaseIndex → Nat
  prepared : Bool
  started : Bool
  paused : Bool
  faulted : Bool
  quarantined : Bool

/-- The answers of the SDK. -/
structure Sdk where
  create : Bool
  setUri : Bool
  prepareSync : Bool
  mediaInfo : Option MediaInfo
  allocator : Bool
  frameNum : Bool
  start : Bool
  pause : Bool
  play : Bool
  getFrame : Option MppFrame
  putFrame : Bool
  seek : Bool
  volume : Bool
  stop : Bool
  destroy : Bool
deriving DecidableEq, Repr

namespace Session

/-- Zero-initialized storage. -/
def zero : Session where
  player := false
  info := .zero
  frames _ := .zero
  uri := []
  held _ := false
  nextTicket := 0
  tickets _ := 0
  prepared := false
  started := false
  paused := false
  faulted := false
  quarantined := false

/-- `memset` that keeps `next_ticket`. -/
def cleared (s : Session) : Session := { zero with nextTicket := s.nextTicket }

def usable (s : Session) : Bool := s.player && !s.faulted && !s.quarantined

/-- `s->held`, read as a truth value. -/
def holding (s : Session) : Bool := (firstIndex s.held).isSome

def infoInvalid (info : MediaInfo) : Bool :=
  (!info.hasVideo && !info.hasAudio) ||
    (info.hasVideo && (info.width < 1 || info.height < 1 || 4096 < info.width ||
      4096 < info.height || 8 * 1024 * 1024 < info.width * info.height))

def prepare (s : Session) (sdk : Sdk) : Bool × Session :=
  if sdk.setUri && sdk.prepareSync then
    match sdk.mediaInfo with
    | none => (false, { s with faulted := true })
    | some info =>
        if infoInvalid info then (false, { s with faulted := true })
        else (true, { s with info, prepared := true })
  else (false, { s with faulted := true })

def stop (s : Session) (sdk : Sdk) : Bool × Session :=
  if s.holding || s.quarantined then (false, s)
  else if !s.player then (true, s)
  else if !sdk.stop then (false, { s with faulted := true })
  else (true, { s with prepared := false, started := false, paused := false })

def close (s : Session) (sdk : Sdk) : Bool × Session :=
  let stopped := s.stop sdk
  if !stopped.1 then (false, stopped.2)
  else if stopped.2.player && !sdk.destroy then (false, { stopped.2 with faulted := true })
  else (true, stopped.2.cleared)

/-- `lv_aic_player_session_open` -/
def «open» (s : Session) (uri : List UInt8) (sdk : Sdk) : Bool × Session :=
  if s.player || s.holding || s.quarantined || uri.isEmpty || 128 ≤ uri.length then (false, s)
  else
    let s := { s.cleared with uri, player := sdk.create }
    if !s.player then (false, s)
    else
      let prepared := s.prepare sdk
      if !prepared.1 then (false, (prepared.2.close sdk).2) else (true, prepared.2)

/-- `lv_aic_player_session_allocator`, with an allocator. -/
def allocator (s : Session) (extraFrames : Nat) (sdk : Sdk) : Bool × Session :=
  if !s.usable || s.started || s.holding || extraFrames = 0 || leases < extraFrames then (false, s)
  else if !sdk.allocator || !sdk.frameNum then (false, { s with faulted := true })
  else (true, s)

/-- The last step of `start`. -/
def begin (s : Session) (sdk : Sdk) : Bool × Session :=
  if sdk.start then (true, { s with started := true })
  else (false, { s with started := true, faulted := true })

def start (s : Session) (sdk : Sdk) : Bool × Session :=
  if !s.usable then (false, s)
  else if s.started then (!s.paused, s)
  else if s.prepared then s.begin sdk
  else
    let prepared := s.prepare sdk
    if !prepared.1 then prepared else prepared.2.begin sdk

def pause (s : Session) (paused : Bool) (sdk : Sdk) : Bool × Session :=
  if !s.usable || !s.started then (false, s)
  else if s.paused = paused then (true, s)
  else if !(if paused then sdk.pause else sdk.play) then (false, { s with faulted := true })
  else (true, { s with paused })

def uint64Max : Nat := 2 ^ 64 - 1

/-- `lv_aic_player_session_acquire`: the new lease and its index. -/
def acquire (s : Session) (sdk : Sdk) : Option (Nat × LeaseIndex) × Session :=
  if !s.usable || !s.started || s.paused || !s.info.hasVideo then (none, s)
  else
    match firstIndex fun index => !s.held index with
    | none => (none, s)
    | some slot =>
        if s.nextTicket = uint64Max then (none, s)
        else
          match sdk.getFrame with
          | none => (none, s)
          | some next =>
              if (firstIndex fun index => s.held index && (s.frames index).id == next.id).isSome then
                (none, { s with quarantined := true, faulted := true })
              else
                (some (s.nextTicket + 1, slot),
                  { s with
                    frames := Function.update s.frames slot next
                    held := Function.update s.held slot true
                    nextTicket := s.nextTicket + 1
                    tickets := Function.update s.tickets slot (s.nextTicket + 1) })

def release (s : Session) (lease : Nat) (sdk : Sdk) : Bool × Session :=
  if !s.player || s.quarantined || lease = 0 then (false, s)
  else
    match firstIndex fun index => s.held index && s.tickets index == lease with
    | none => (false, s)
    | some slot =>
        if !sdk.putFrame then (false, { s with faulted := true })
        else (true, { s with held := Function.update s.held slot false })

/-- `lv_aic_player_session_seek`; `INT64_MAX` bounds the target. -/
def seek (s : Session) (target : Nat) (sdk : Sdk) : Bool × Session :=
  if !s.usable || !s.prepared || s.holding || !s.info.seekable || 2 ^ 63 - 1 < target ||
      (0 < s.info.duration && s.info.duration < target) then (false, s)
  else if !sdk.seek then (false, { s with faulted := true })
  else if s.started && s.paused && !sdk.pause then (false, { s with faulted := true })
  else (true, s)

/-- `lv_aic_player_session_volume` -/
def volume (s : Session) (volume : Int) (sdk : Sdk) : Bool :=
  s.usable && 0 ≤ volume && volume ≤ 100 && sdk.volume

/-- The lease is recorded as held. -/
def Holds (s : Session) (lease : Nat) : Prop := ∃ index, s.held index = true ∧ s.tickets index = lease

/-- The frame of a held lease, as `submit` looks it up: the last match wins. -/
def lookup (s : Session) (lease : Nat) : Option MppFrame :=
  ((List.finRange leases).reverse.find? fun index => s.held index && s.tickets index == lease).map
    s.frames

theorem lookup_some {s : Session} {lease : Nat} {frame : MppFrame}
    (found : s.lookup lease = some frame) : s.Holds lease := by
  obtain ⟨index, match_, _⟩ := Option.map_eq_some_iff.mp found
  have holds := List.find?_some match_
  simp only [Bool.and_eq_true, beq_iff_eq] at holds
  exact ⟨index, holds.1, holds.2⟩

theorem holding_false {s : Session} : s.holding = false ↔ ∀ index, s.held index = false := by
  simp only [holding, Option.isSome_eq_false_iff, Option.isNone_iff_eq_none]
  exact firstIndex_none

/-! ## Which leases a session holds -/

variable {s next : Session} {sdk : Sdk} {lease : Nat}

/-- The lease records are consistent. -/
structure Sound (s : Session) : Prop where
  issued : ∀ index, s.held index = true → 0 < s.tickets index ∧ s.tickets index ≤ s.nextTicket
  distinct : ∀ i j, s.held i = true → s.held j = true → s.tickets i = s.tickets j → i = j

/-- A call that moves no lease. -/
structure SameLeases (s next : Session) : Prop where
  holds : ∀ lease, next.Holds lease ↔ s.Holds lease
  nextTicket : next.nextTicket = s.nextTicket
  sound : s.Sound → next.Sound

theorem SameLeases.refl (s : Session) : SameLeases s s := ⟨fun _ => Iff.rfl, rfl, id⟩

theorem SameLeases.trans {middle : Session} (first : SameLeases s middle)
    (second : SameLeases middle next) : SameLeases s next where
  holds := fun lease => (second.holds lease).trans (first.holds lease)
  nextTicket := second.nextTicket.trans first.nextTicket
  sound := second.sound ∘ first.sound

theorem SameLeases.of_fields (held : next.held = s.held) (tickets : next.tickets = s.tickets)
    (nextTicket : next.nextTicket = s.nextTicket) : SameLeases s next where
  holds := fun lease => by simp only [Holds, held, tickets]
  nextTicket := nextTicket
  sound := fun sound => ⟨by rw [held, tickets, nextTicket]; exact sound.issued,
    by rw [held, tickets]; exact sound.distinct⟩

theorem cleared_sameLeases (empty : s.holding = false) : SameLeases s s.cleared where
  holds := fun lease => by
    have vacant := holding_false.mp empty
    simp [Holds, cleared, zero, vacant]
  nextTicket := rfl
  sound := fun _ => ⟨by simp [cleared, zero], by simp [cleared, zero]⟩

theorem prepare_sameLeases : SameLeases s (s.prepare sdk).2 := by
  unfold prepare
  split
  · split
    · exact .of_fields rfl rfl rfl
    · split <;> exact .of_fields rfl rfl rfl
  · exact .of_fields rfl rfl rfl

theorem stop_sameLeases : SameLeases s (s.stop sdk).2 := by
  unfold stop
  split
  · exact .refl s
  · split
    · exact .refl s
    · split <;> exact .of_fields rfl rfl rfl

/-- A successful stop found no lease held. -/
theorem stop_holding (stopped : (s.stop sdk).1 = true) : (s.stop sdk).2.holding = false := by
  unfold stop at *
  split
  · rename_i busy
    simp [busy] at stopped
  · rename_i idle
    have empty : s.holding = false := by
      cases held : s.holding <;> simp_all
    split
    · exact empty
    · split
      · exact empty
      · exact empty

theorem close_sameLeases : SameLeases s (s.close sdk).2 := by
  have stopped : SameLeases s (s.stop sdk).2 := stop_sameLeases
  unfold close
  dsimp only
  split
  · exact stopped
  · rename_i succeeded
    split
    · exact stopped.trans (.of_fields rfl rfl rfl)
    · exact stopped.trans (cleared_sameLeases (stop_holding (by simpa using succeeded)))

/-- A closed session holds nothing and has no player. -/
theorem close_closed (closed : (s.close sdk).1 = true) :
    (s.close sdk).2 = s.cleared ∧ s.holding = false := by
  unfold close at *
  dsimp only at *
  split at closed
  · cases closed
  · rename_i succeeded
    have empty : (s.stop sdk).2.holding = false := stop_holding (by simpa using succeeded)
    have same : SameLeases s (s.stop sdk).2 := stop_sameLeases
    split at closed
    · cases closed
    · rename_i destroyed
      rw [if_neg succeeded, if_neg destroyed]
      refine ⟨by simp only [cleared, same.nextTicket], ?_⟩
      have vacant := holding_false.mp empty
      rw [holding_false]
      intro index
      rw [Bool.eq_false_iff]
      intro held
      obtain ⟨found, kept, _⟩ := (same.holds (s.tickets index)).mpr ⟨index, held, rfl⟩
      rw [vacant found] at kept
      cases kept

theorem open_sameLeases {uri : List UInt8} : SameLeases s (s.open uri sdk).2 := by
  unfold «open»
  split
  · exact .refl s
  · rename_i idle
    have empty : s.holding = false := by
      cases held : s.holding <;> simp_all
    have fresh : SameLeases s { s.cleared with uri, player := sdk.create } :=
      (cleared_sameLeases empty).trans (.of_fields rfl rfl rfl)
    dsimp only
    split
    · exact fresh
    · split
      · exact fresh.trans (prepare_sameLeases.trans close_sameLeases)
      · exact fresh.trans prepare_sameLeases

theorem allocator_sameLeases {extraFrames : Nat} :
    SameLeases s (s.allocator extraFrames sdk).2 := by
  unfold allocator
  split
  · exact .refl s
  · split <;> exact .of_fields rfl rfl rfl

theorem begin_sameLeases : SameLeases s (s.begin sdk).2 := by
  unfold begin
  split <;> exact .of_fields rfl rfl rfl

theorem start_sameLeases : SameLeases s (s.start sdk).2 := by
  unfold start
  split
  · exact .refl s
  · split
    · exact .refl s
    · split
      · exact begin_sameLeases
      · dsimp only
        split
        · exact prepare_sameLeases
        · exact prepare_sameLeases.trans begin_sameLeases

theorem pause_sameLeases {paused : Bool} : SameLeases s (s.pause paused sdk).2 := by
  unfold pause
  generalize (if paused = true then sdk.pause else sdk.play) = moved
  split
  · exact .refl s
  · split
    · exact .refl s
    · split <;> exact .of_fields rfl rfl rfl

theorem seek_sameLeases {target : Nat} : SameLeases s (s.seek target sdk).2 := by
  unfold seek
  split
  · exact .refl s
  · split
    · exact .of_fields rfl rfl rfl
    · split <;> exact .of_fields rfl rfl rfl

/-- Without a new lease, `acquire` moves nothing. -/
theorem acquire_none (failed : (s.acquire sdk).1 = none) : SameLeases s (s.acquire sdk).2 := by
  unfold acquire at *
  split at failed
  · rename_i refused
    rw [if_pos refused]
    exact .refl s
  · rename_i usable
    rw [if_neg usable]
    split
    · exact .refl s
    · split
      · exact .refl s
      · split
        · exact .refl s
        · split
          · exact .of_fields rfl rfl rfl
          · simp_all

/-- A new lease takes the next number and a free record. -/
theorem acquire_some {index : LeaseIndex} (acquired : (s.acquire sdk).1 = some (lease, index)) :
    lease = s.nextTicket + 1 ∧ s.held index = false ∧ ∃ frame, (s.acquire sdk).2 = { s with
      frames := Function.update s.frames index frame
      held := Function.update s.held index true
      nextTicket := s.nextTicket + 1
      tickets := Function.update s.tickets index (s.nextTicket + 1) } := by
  unfold acquire at *
  split at acquired
  · cases acquired
  · rename_i usable
    rw [if_neg usable]
    split at acquired
    · cases acquired
    · rename_i slot free
      split at acquired
      · cases acquired
      · rename_i bounded
        split at acquired
        · cases acquired
        · rename_i next given
          split at acquired
          · cases acquired
          · rename_i unique
            obtain ⟨rfl, rfl⟩ := Prod.mk.inj (Option.some.inj acquired)
            refine ⟨rfl, by simpa using firstIndex_some free, next, ?_⟩
            rw [if_neg bounded, if_neg unique]

theorem acquire_holds {index : LeaseIndex} (sound : s.Sound)
    (acquired : (s.acquire sdk).1 = some (lease, index)) :
    lease = s.nextTicket + 1 ∧ (s.acquire sdk).2.nextTicket = s.nextTicket + 1 ∧
      (∀ other, (s.acquire sdk).2.Holds other ↔ s.Holds other ∨ other = s.nextTicket + 1) ∧
      (s.acquire sdk).2.Sound := by
  obtain ⟨same, free, frame, result⟩ := acquire_some acquired
  rw [result]
  refine ⟨same, rfl, fun other => ?_, ?_, ?_⟩
  · constructor
    · rintro ⟨i, held, ticket⟩
      by_cases new : i = index
      · subst new
        simp only [Function.update_self] at ticket
        exact .inr ticket.symm
      · exact .inl ⟨i, by simpa [new] using held, by simpa [new] using ticket⟩
    · rintro (⟨i, held, ticket⟩ | rfl)
      · have old : i ≠ index := by
          rintro rfl
          rw [free] at held
          cases held
        exact ⟨i, by simpa [old] using held, by simpa [old] using ticket⟩
      · exact ⟨index, by simp, by simp⟩
  · intro i held
    by_cases new : i = index
    · subst new
      simp
    · have bound := sound.issued i (by simpa [new] using held)
      simp only [ne_eq, new, not_false_eq_true, Function.update_of_ne]
      omega
  · intro i j left right tickets
    have bound := sound.issued
    have distinct := sound.distinct i j
    simp only [Function.update_apply] at left right tickets
    grind

/-- `release` either moves nothing or gives up exactly this lease. -/
theorem release_false (failed : (s.release lease sdk).1 = false) :
    SameLeases s (s.release lease sdk).2 := by
  unfold release at *
  split at failed
  · rename_i refused
    rw [if_pos refused]
    exact .refl s
  · rename_i usable
    rw [if_neg usable]
    split
    · exact .refl s
    · split
      · exact .of_fields rfl rfl rfl
      · simp_all

theorem release_true (sound : s.Sound) (released : (s.release lease sdk).1 = true) :
    s.Holds lease ∧ (s.release lease sdk).2.nextTicket = s.nextTicket ∧
      (∀ other, (s.release lease sdk).2.Holds other ↔ s.Holds other ∧ other ≠ lease) ∧
      (s.release lease sdk).2.Sound := by
  unfold release at *
  split at released
  · cases released
  · rename_i usable
    rw [if_neg usable]
    split at released
    · cases released
    · rename_i slot found
      split at released
      · cases released
      · rename_i put
        rw [if_neg put]
        have matched := firstIndex_some found
        simp only [Bool.and_eq_true, beq_iff_eq] at matched
        obtain ⟨held, ticket⟩ := matched
        have kept : ∀ i, Function.update s.held slot false i = true ↔ i ≠ slot ∧ s.held i = true := by
          intro i
          by_cases same : i = slot <;> simp [same]
        refine ⟨⟨slot, held, ticket⟩, rfl, fun other => ?_, ?_, ?_⟩
        · constructor
          · rintro ⟨i, still, same⟩
            obtain ⟨apart, before⟩ := (kept i).mp still
            refine ⟨⟨i, before, same⟩, ?_⟩
            rintro rfl
            exact apart (sound.distinct i slot before held (same.trans ticket.symm))
          · rintro ⟨⟨i, before, same⟩, apart⟩
            refine ⟨i, (kept i).mpr ⟨?_, before⟩, same⟩
            rintro rfl
            exact apart (same.symm.trans ticket)
        · exact fun i still => sound.issued i ((kept i).mp still).2
        · exact fun i j left right => sound.distinct i j ((kept i).mp left).2 ((kept j).mp right).2

end Session

end LvglAic.Player
