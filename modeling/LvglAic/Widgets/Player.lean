import LvglAic.Machine.Run

/-! # The player widgets (`widgets/lv_aic_player.c`)

Players, slave players and groups are numbered in the order of their creation.
The owner thread makes every call and runs every timer; `log` collects what one
step of it tells.
-/

namespace LvglAic.Widgets

/-- `lv_aic_player_draw_layer_t` -/
inductive DrawLayer where
  | default
  | uiSingleBuf
  | uiDoubleBuf
  | video
  | none
deriving DecidableEq, Repr

/-- `lv_aic_player_state_t` -/
inductive PlayerState where
  | closed
  | opening
  | ready
  | playing
  | paused
  | terminal
  | stopping
  | stopped
  | fault
  | seeking
deriving DecidableEq, Repr

/-- `lv_aic_playback_state_t` -/
inductive PlaybackState where
  | opening
  | ready
  | playing
  | paused
  | terminal
  | seeking
  | closing
  | closed
  | fault
deriving DecidableEq, Repr

/-- What `tick` reads of `lv_aic_playback_status_t`. -/
structure PlaybackStatus where
  state : PlaybackState
  volume : Int
  seekPending : Bool
  seeksCompleted : Nat
  framesQueued : Nat
  seekable : Bool
  hasVideo : Bool
  hasAudio : Bool
  videoEos : Bool
  positionValid : Bool
deriving DecidableEq, Repr

/-- `lv_aic_player_playback_status(NULL)` -/
def PlaybackStatus.none : PlaybackStatus where
  state := .closed
  volume := -1
  seekPending := false
  seeksCompleted := 0
  framesQueued := 0
  seekable := false
  hasVideo := false
  hasAudio := false
  videoEos := false
  positionValid := false

/-- A playback of either kind: `apng` or media. -/
structure Backend where
  apng : Bool
  closing : Bool
  finished : Bool
  preserve : Bool
deriving DecidableEq, Repr

/-- A setting is accepted. -/
def Backend.accepts (k : Backend) : Bool := !k.closing && !k.finished

/-- What an image object shows: the image of a frame, or a plane's window. -/
inductive ImageSource where
  | image (frame : Nat)
  | window
deriving DecidableEq, Repr

/-- `player_binding_t`; `live` until it is freed, `timer` while the timer runs,
`plane` for `window.plane`. -/
structure Player where
  live : Bool
  obj : Bool
  timer : Bool
  backend : Option Backend
  configured : Bool
  apngConfigured : Bool
  frame : Option Nat
  source : Option ImageSource
  plane : Bool
  planeEnabled : Bool
  planeFailed : Bool
  slaves : List Nat
  group : Option Nat
  groupPresented : Bool
  status : PlaybackStatus
  drawLayer : DrawLayer
  state : PlayerState
  reported : PlayerState
  uri : List UInt8
  volume : Int
  reportedVolume : Int
  reportedSeek : Nat
  autoRestarts : Nat
  repeatFrames : Nat
  autoRestart : Bool
  closing : Bool
  stopped : Bool
  reopen : Bool
  startRequested : Bool
  renderEnabled : Bool

/-- The binding that `lv_aic_player_create` leaves. -/
def Player.created : Player where
  live := true
  obj := true
  timer := false
  backend := .none
  configured := false
  apngConfigured := false
  frame := .none
  source := .none
  plane := false
  planeEnabled := false
  planeFailed := false
  slaves := []
  group := .none
  groupPresented := false
  status := .none
  drawLayer := .default
  state := .closed
  reported := .closed
  uri := []
  volume := -1
  reportedVolume := -1
  reportedSeek := 0
  autoRestarts := 0
  repeatFrames := 0
  autoRestart := false
  closing := false
  stopped := false
  reopen := false
  startRequested := false
  renderEnabled := true

/-- A number that no player has. -/
def Player.absent : Player := { Player.created with live := false, obj := false }

/-- `slave_binding_t`; `source` is the frame whose image the object shows. -/
structure Slave where
  live : Bool
  obj : Bool
  timer : Bool
  master : Option Nat
  frame : Option Nat
  source : Option Nat
deriving DecidableEq, Repr

def Slave.created : Slave where
  live := true
  obj := true
  timer := false
  master := .none
  frame := .none
  source := .none

def Slave.absent : Slave := { Slave.created with live := false, obj := false }

/-- `player_group_t` -/
structure Group where
  obj : Bool
  members : List Nat
deriving DecidableEq, Repr

inductive PlayerEvent where
  | joined (player group : Nat)
  | left (player group : Nat)
  | reset (group : Nat)
  | round (group : Nat)
  | rendered (player : Nat) (enabled : Bool)
  | prepared (player : Nat) (layer : DrawLayer)
  | allocated (frame : Nat)
  | consumed (player : Nat)
  | published (player : Nat)
  | presented (player : Nat)
  | destroyed (frame : Nat)
  | changed (player : Nat)
deriving DecidableEq, Repr

/-- A tick whose event handlers run: its frame is the player's already, and
`old` is the frame before. -/
structure Publishing where
  player : Nat
  frame : Nat
  old : Option Nat
deriving DecidableEq, Repr

/-- `planeBuild` for `AIC_LVGL_USE_VIDEO_PLANE`, `apngBuild` for
`AIC_LVGL_USE_APNG`. -/
structure Players where
  planeBuild : Bool
  apngBuild : Bool
  player : Nat → Player
  slave : Nat → Slave
  group : Nat → Group
  owners : Nat → Nat
  players : Nat
  slaves : Nat
  groups : Nat
  frames : Nat
  orphans : Nat
  publishing : Option Publishing
  log : List PlayerEvent

namespace Players

variable (s : Players)

def edit (p : Nat) (change : Player → Player) : Players :=
  { s with player := Function.update s.player p (change (s.player p)) }

def editSlave (i : Nat) (change : Slave → Slave) : Players :=
  { s with slave := Function.update s.slave i (change (s.slave i)) }

def editMembers (g : Nat) (change : List Nat → List Nat) : Players :=
  let members := change (s.group g).members
  { s with group := Function.update s.group g { s.group g with members := members } }

def tell (event : PlayerEvent) : Players := { s with log := s.log ++ [event] }

/-- An object is deleted and its binding is left. -/
def orphan : Players := { s with orphans := s.orphans + 1 }

/-- A binding that was left is freed. -/
def free : Players := { s with orphans := s.orphans - 1 }

/-! ## Backends -/

def backendPreserve (p : Nat) (enabled : Bool) : Bool × Players :=
  match (s.player p).backend with
  | none => (false, s)
  | some k =>
      if k.accepts then
        (true, s.edit p fun b => { b with backend := some { k with preserve := enabled } })
      else (false, s)

def backendClose (p : Nat) : Players :=
  s.edit p fun b => { b with backend := b.backend.map fun k => { k with closing := true } }

/-! ## Groups -/

/-- `group_reset`; what it is called for is told by `event`. -/
def groupReset (g : Option Nat) (event : Nat → PlayerEvent) : Players :=
  match g with
  | none => s
  | some g =>
      { s with
        player := fun p =>
          if p ∈ (s.group g).members then { s.player p with groupPresented := false }
          else s.player p
        log := s.log ++ [event g] }

/-- `group_unlink` -/
def groupUnlink (p : Nat) : Players :=
  let left := match (s.player p).group with
    | none => s
    | some g => ((s.editMembers g (·.erase p)).tell (.left p g)).groupReset (some g) .reset
  left.edit p fun b => { b with group := none, groupPresented := false }

/-- `group_wait` -/
def groupWait (p : Nat) : Bool × Players :=
  match (s.player p).group with
  | none => (false, s)
  | some g =>
      if !(s.player p).renderEnabled then
        (false, (s.edit p fun b => { b with groupPresented := true }).tell (.presented p))
      else
        let complete := (s.group g).members.all fun m => (s.player m).groupPresented
        let round := if complete then s.groupReset (some g) .round else s
        ((round.player p).groupPresented, round)

/-- `group_destructor` -/
def deleteGroup (g : Nat) : Players :=
  let left := (s.group g).members.foldl
    (fun s p => ((s.groupUnlink p).backendPreserve p false).2) s
  { left with group := Function.update left.group g { obj := false, members := [] } }

/-- The player becomes a member in `lv_aic_player_set_group`. -/
def groupJoin (p g : Nat) : Players :=
  (((s.edit p fun b => { b with group := some g }).editMembers g (p :: ·)).tell
    (.joined p g)).groupReset (some g) .reset

/-- `lv_aic_player_set_group` -/
def setGroup (p : Nat) (g : Option Nat) : Players :=
  if (s.player p).group = g then s
  else
    let unlinked := s.groupUnlink p
    let joined := match g with
      | none => unlinked
      | some g => unlinked.groupJoin p g
    (joined.backendPreserve p g.isSome).2

/-! ## Frames -/

/-- `release_frame` -/
def releaseFrame (f : Option Nat) : Players :=
  match f with
  | none => s
  | some f =>
      let owners := s.owners f - 1
      let released := { s with owners := Function.update s.owners f owners }
      if owners = 0 then released.tell (.destroyed f) else released

/-- `update_slave_frame` -/
def updateSlaveFrame (i : Nat) (next : Option Nat) : Players :=
  if (s.slave i).frame = next then s
  else
    let taken := match next with
      | none => s
      | some f => { s with owners := Function.update s.owners f (s.owners f + 1) }
    let shown :=
      if (s.slave i).obj then taken.editSlave i fun r => { r with source := next } else taken
    (shown.releaseFrame (s.slave i).frame).editSlave i fun r => { r with frame := next }

/-- `publish_slaves` -/
def publishSlaves (p : Nat) (frame : Option Nat) : Players :=
  (s.player p).slaves.foldl
    (fun s i =>
      if (s.slave i).obj && (s.slave i).master = some p then s.updateSlaveFrame i frame else s) s

/-- The player's own frame in `retire`. -/
def retireFrame (p : Nat) : Players :=
  match (s.player p).frame with
  | none => s
  | some f =>
      let hidden := if (s.player p).obj then s.edit p fun b => { b with source := none } else s
      (hidden.releaseFrame (some f)).edit p fun b => { b with frame := none }

/-- `retire`; `closed` is the answer of the video plane. -/
def retire (p : Nat) (closed : Bool) : Bool × Players :=
  if s.planeBuild && (s.player p).plane && !closed then (false, s)
  else
    let shut := if s.planeBuild then s.edit p fun b => { b with plane := false } else s
    (true, (shut.publishSlaves p none).retireFrame p)

/-! ## Slaves -/

/-- `unlink_slave` -/
def unlinkSlave (i : Nat) : Players :=
  let left := match (s.slave i).master with
    | none => s
    | some p => s.edit p fun b => { b with slaves := b.slaves.erase i }
  left.editSlave i fun r => { r with master := none }

/-- `slave_tick` -/
def slaveTick (i : Nat) (idle : Bool) : Players :=
  if !idle then s
  else
    let next :=
      if (s.slave i).obj then (s.slave i).master.bind fun p => (s.player p).frame else none
    let updated := s.updateSlaveFrame i next
    if !(s.slave i).obj then
      (updated.editSlave i fun r => { r with live := false, timer := false }).free
    else if (s.slave i).master = none then updated.editSlave i fun r => { r with timer := false }
    else updated

/-- `slave_destructor` -/
def deleteSlave (i : Nat) : Players :=
  ((s.unlinkSlave i).editSlave i fun r => { r with obj := false, timer := true }).orphan

/-- `lv_aic_slave_player_set_master` -/
def setMaster (i : Nat) (master : Option Nat) : Players :=
  let left := s.unlinkSlave i
  let linked := match master with
    | none => left
    | some p => (left.editSlave i fun r => { r with master := some p }).edit p
        fun b => { b with slaves := i :: b.slaves }
  linked.editSlave i fun r => { r with timer := true }

end Players

/-! ## Sources -/

/-- `png_source` -/
def pngSource (uri : List UInt8) : Bool :=
  [46, 112, 110, 103].isSuffixOf uri || [46, 97, 112, 110, 103].isSuffixOf uri

/-- What `prepare` learns: the colour format of the display, whether the backend
was created, whether its worker has finished already, and whether it takes the
rate or the volume, and the start. -/
structure PrepareAnswer where
  argb : Bool
  created : Bool
  finished : Bool
  configured : Bool
  started : Bool
deriving DecidableEq, Repr

namespace Players

variable (s : Players)

/-- `source_configured` -/
def sourceConfigured (p : Nat) (uri : List UInt8) : Bool :=
  if !pngSource uri then (s.player p).configured
  else s.apngBuild && (s.player p).apngConfigured

/-- The backend that `prepare` creates. -/
def openBackend (p : Nat) (a : PrepareAnswer) : Players :=
  let png := s.apngBuild && pngSource (s.player p).uri
  (s.edit p fun b => { b with
    backend := some { apng := png, closing := false, finished := a.finished, preserve := false }
    status := .none
    state := .opening
    stopped := false
    repeatFrames := 0 }).tell (.prepared p (s.player p).drawLayer)

/-- The set-up of a new backend in `prepare`. -/
def setUp (p : Nat) (a : PrepareAnswer) : Bool × Players :=
  let opened := s.openBackend p a
  let b := opened.player p
  let png := b.backend.any (·.apng)
  let preserve := (b.group.isSome && b.renderEnabled) || b.drawLayer = .uiSingleBuf
  let preserved := opened.backendPreserve p preserve
  let setup := preserved.1 && (!(png || 0 ≤ b.volume) || a.configured)
  if !setup || (b.startRequested && !a.started) then
    (false, (preserved.2.backendClose p).edit p fun b => { b with state := .fault })
  else (true, preserved.2)

/-- The layer decides whether `prepare` renders. -/
def prepareRender (p : Nat) : Players :=
  let enabled := (s.player p).drawLayer ≠ .none
  (s.edit p fun b => { b with renderEnabled := enabled }).tell (.rendered p enabled)

/-- The layer decides on the plane in `prepare`. -/
def preparePlane (p : Nat) : Players :=
  if s.planeBuild then
    s.edit p fun b => { b with
      planeFailed := false
      planeEnabled := b.drawLayer = .video }
  else s

/-- `prepare` -/
def prepare (p : Nat) (a : PrepareAnswer) : Bool × Players :=
  let video := (s.player p).drawLayer = .video
  if !s.planeBuild && video then (false, s.edit p fun b => { b with state := .fault })
  else
    let rendered := s.prepareRender p
    if s.planeBuild && video && !a.argb then
      (false, rendered.edit p fun b => { b with
        planeFailed := false
        state := .fault })
    else
      let chosen := rendered.preparePlane p
      if !a.created then
        (false, chosen.edit p fun b => { b with
          status := .none
          state := .fault })
      else chosen.setUp p a

/-- `lv_aic_player_set_src`; an empty `uri` also stands for NULL. -/
def setSrc (p : Nat) (uri : List UInt8) (a : PrepareAnswer) : Bool × Players :=
  if uri = [] || 128 ≤ uri.length || !s.sourceConfigured p uri then (false, s)
  else
    let named := ((s.edit p fun b => { b with uri := uri, startRequested := false }).groupReset
      (s.player p).group .reset).edit p fun b => { b with timer := true }
    if (s.player p).backend.isSome || (s.player p).closing then
      (true, (named.edit p fun b => { b with
        closing := true
        reopen := true
        state := .stopping }).backendClose p)
    else named.prepare p a

/-- `lv_aic_player_start`; `started` is the answer of a backend that exists. -/
def start (p : Nat) (a : PrepareAnswer) (started : Bool) : Bool × Players :=
  if (s.player p).uri = [] || !s.sourceConfigured p (s.player p).uri ||
      (s.player p).state = .fault then (false, s)
  else
    let asked := ((s.edit p fun b => { b with startRequested := true }).groupReset
      (s.player p).group .reset).edit p fun b => { b with timer := true }
    if (s.player p).closing || (s.player p).state = .terminal then
      (true, (asked.edit p fun b => { b with
        closing := true
        reopen := true
        state := .stopping }).backendClose p)
    else if (s.player p).backend.isNone then asked.prepare p a
    else (started, asked)

/-- `request_close` -/
def requestClose (p : Nat) (stopped : Bool) : Players :=
  ((((s.groupReset (s.player p).group .reset).edit p fun b => { b with
    reopen := false
    startRequested := false
    stopped := stopped
    closing := true
    state := .stopping }).backendClose p).edit p fun b => { b with timer := true })

/-- `lv_aic_player_seek`; `sought` is the backend's answer and `queued` the frames
that it queued. -/
def seek (p position : Nat) (sought : Bool) (queued : Nat) : Bool × Players :=
  let b := s.player p
  let accepted := b.backend.any fun k => sought && (!k.apng || position = 0)
  if (b.group.isSome && position ≠ 0) || b.closing || !accepted then (false, s)
  else
    (true, (s.groupReset b.group .reset).edit p fun b => { b with
      repeatFrames := queued
      state := .seeking
      timer := true })

/-- `lv_aic_player_set_video_plane`; `display` holds for ARGB8888. -/
def setVideoPlane (p : Nat) (enabled : Bool) (display : Option Bool) : Bool × Players :=
  let b := s.player p
  if !s.planeBuild then (!enabled, s)
  else if b.backend.isSome || b.closing || b.frame.isSome || b.plane then (false, s)
  else
    match display with
    | none => (false, s)
    | some argb =>
        if enabled && !argb then (false, s)
        else
          (true, s.edit p fun b => { b with
            planeEnabled := enabled
            drawLayer := if enabled then .video else .uiDoubleBuf })

/-- `lv_aic_player_configure`, and `lv_aic_player_configure_apng` for `apng`;
`valid` for the checks of the options. -/
def configure (p : Nat) (apng valid : Bool) : Bool × Players :=
  let b := s.player p
  if b.backend.isSome || b.closing || !valid || (apng && !s.apngBuild) then (false, s)
  else if apng then (true, s.edit p fun b => { b with apngConfigured := true })
  else (true, s.edit p fun b => { b with configured := true })

/-- `lv_aic_player_set_volume`; `taken` is the answer of a media backend. -/
def setVolume (p : Nat) (volume : Int) (taken : Bool) : Bool × Players :=
  let b := s.player p
  if b.backend.any (·.apng) || (s.apngBuild && b.uri ≠ [] && pngSource b.uri) then (false, s)
  else if volume < 0 || 100 < volume then (false, s)
  else if b.backend.isSome && !b.closing && !taken then (false, s)
  else (true, s.edit p fun b => { b with volume := volume })

/-- `destructor` -/
def deletePlayer (p : Nat) : Players :=
  let unlinked := (s.player p).slaves.foldl
    (fun s i => (s.unlinkSlave i).editSlave i fun r => { r with timer := true }) s
  (((unlinked.groupUnlink p).edit p fun b => { b with
    obj := false
    reopen := false
    timer := true }).backendClose p).orphan

end Players

/-! ## The tick -/

/-- What the first half of a tick learns: whether every draw queue is idle, the
backend's status, the plane's answers to the two closes, whether the backend was
destroyed, the answers to `prepare`, whether a frame was allocated and whether
the backend had an image for it. -/
structure TickAnswer where
  idle : Bool
  status : PlaybackStatus
  closed : Bool
  closedFault : Bool
  destroyed : Bool
  prepare : PrepareAnswer
  allocated : Bool
  polled : Bool
deriving DecidableEq, Repr

/-- `lv_aic_plane_window_present`: the frame is shown through the window, the
object is hidden and keeps its source, or the call failed, after the window was
installed or a plane opened as told. -/
inductive WindowAnswer where
  | shown
  | hidden
  | failed (window plane : Bool)
deriving DecidableEq, Repr

/-- What the rest of a tick learns. -/
structure EndAnswer where
  window : WindowAnswer
  closedPlane : Bool
  sought : Bool
  closedRestart : Bool
deriving DecidableEq, Repr

/-- The state that a status gives. -/
def PlaybackState.shown : PlaybackState → PlayerState → PlayerState
  | .opening, _ => .opening
  | .ready, _ => .ready
  | .playing, _ => .playing
  | .paused, _ => .paused
  | .terminal, _ => .terminal
  | .seeking, _ => .seeking
  | .fault, _ => .fault
  | .closing, state | .closed, state => state

/-- `can_repeat` -/
def Player.canRepeat (b : Player) : Bool :=
  let fresh := b.status.videoEos && b.status.framesQueued ≠ b.repeatFrames
  if b.backend.any (·.apng) then fresh
  else
    b.status.seekable && ((b.status.hasVideo && fresh) ||
      (!b.status.hasVideo && b.status.hasAudio && b.status.positionValid))

def uint64Max : Nat := 2 ^ 64 - 1

namespace Players

variable (s : Players)

/-- `backend_destroy` -/
def backendDestroy (p : Nat) (destroyed : Bool) : Bool × Players :=
  if (s.player p).backend.all fun k => k.finished && destroyed then
    (true, s.edit p fun b => { b with backend := none })
  else (false, s)

/-- The end of the branch of `tick` for a player that closes. -/
def tickClosed (p : Nat) (a : TickAnswer) : Bool × Players :=
  if !(s.player p).obj then
    (false, (s.edit p fun b => { b with live := false, timer := false }).free)
  else if (s.player p).reopen then
    (true, ((s.edit p fun b => { b with reopen := false }).prepare p a.prepare).2)
  else
    (true, s.edit p fun b => { b with
      state := if b.stopped then .stopped else .closed
      timer := false })

/-- The branch of `tick` for a player that closes or whose object is deleted;
the first result tells whether the tick goes on. -/
def tickClosing (p : Nat) (a : TickAnswer) : Bool × Players :=
  let retired := s.retire p a.closed
  if !retired.1 then (false, retired.2)
  else
    let asked := retired.2.edit p fun b =>
      { b with status := if b.backend.isSome then a.status else b.status }
    let destroyed := asked.backendDestroy p a.destroyed
    if !destroyed.1 then (false, destroyed.2)
    else (destroyed.2.edit p fun b => { b with closing := false }).tickClosed p a

/-- A frame with one owner. -/
def allocateFrame (p : Nat) : Players :=
  ({ s with
    frames := s.frames + 1
    owners := Function.update s.owners s.frames 1
    publishing := some { player := p, frame := s.frames, old := (s.player p).frame } } :
      Players).tell (.allocated s.frames)

/-- A frame for the image that was polled; the event handlers run next. -/
def takeFrame (p : Nat) : Players :=
  (s.allocateFrame p).edit p fun b => { b with
    frame := some s.frames
    source := if b.planeEnabled && b.frame.isSome then b.source else some (.image s.frames) }

/-- The branch of `tick` that takes a frame. -/
def tickPublish (p : Nat) (a : TickAnswer) : Bool × Players :=
  let waited := s.groupWait p
  if waited.1 || !a.allocated || !a.polled then (true, waited.2)
  else if !(waited.2.player p).renderEnabled then
    (true, ((waited.2.edit p fun b => { b with groupPresented := true }).tell (.consumed p)).tell
      (.presented p))
  else (false, waited.2.takeFrame p)

/-- The old frame of a player that seeks is retired. -/
def tickSeek (p : Nat) (a : TickAnswer) : Bool × Players :=
  if a.status.seekPending then s.retire p a.closed else (true, s)

/-- The branch of `tick` for a backend. -/
def tickBackend (p : Nat) (a : TickAnswer) : Bool × Players :=
  let sought := (s.edit p fun b => { b with status := a.status }).tickSeek p a
  if !sought.1 then (false, sought.2)
  else
    let known := sought.2.edit p fun b => { b with
      state := if s.planeBuild && b.planeFailed then .fault else a.status.state.shown b.state }
    match (known.player p).state with
    | .fault => (true, (known.retire p a.closedFault).2)
    | .playing | .terminal => known.tickPublish p a
    | _ => (true, known)

/-- `present_plane`, and what follows when it fails. -/
def tickPlane (p : Nat) (e : EndAnswer) : Players :=
  let b := s.player p
  if s.planeBuild && b.obj && !b.closing && !b.planeFailed && b.planeEnabled && b.frame.isSome then
    match e.window with
    | .shown => s.edit p fun b => { b with source := some .window, plane := true }
    | .hidden => s
    | .failed window plane =>
        let refused := s.edit p fun b => { b with
          source := if window then some .window else b.source
          plane := b.plane || plane
          planeFailed := true
          state := .fault }
        ((refused.backendClose p).retire p e.closedPlane).2
  else s

/-- The automatic restart of `tick`. -/
def tickRestart (p : Nat) (e : EndAnswer) : Players :=
  let b := s.player p
  if b.obj && !b.closing && b.state = .terminal && b.reported = .terminal && b.autoRestart &&
      b.autoRestarts < uint64Max && b.canRepeat then
    let waited := s.groupWait p
    if !waited.1 && b.backend.isSome && e.sought then
      let again := waited.2.edit p fun b => { b with
        repeatFrames := b.status.framesQueued
        autoRestarts := b.autoRestarts + 1
        state := .seeking }
      ((again.groupReset (again.player p).group .reset).retire p e.closedRestart).2
    else waited.2
  else s

/-- The report of `tick`. -/
def tickReport (p : Nat) : Players :=
  let b := s.player p
  if b.obj && (b.state ≠ b.reported || b.status.volume ≠ b.reportedVolume ||
      b.status.seeksCompleted ≠ b.reportedSeek) then
    (s.edit p fun b => { b with
      reported := b.state
      reportedVolume := b.status.volume
      reportedSeek := b.status.seeksCompleted }).tell (.changed p)
  else s

/-- The rest of a tick. -/
def tickEnd (p : Nat) (e : EndAnswer) : Players :=
  ((s.tickPlane p e).tickRestart p e).tickReport p

/-- The first half of a tick. -/
def tickBegin (p : Nat) (a : TickAnswer) : Bool × Players :=
  if !(s.player p).obj || (s.player p).closing then s.tickClosing p a
  else if (s.player p).backend.isSome then s.tickBackend p a
  else (true, s)

/-- `tick` up to the size of the frame that it publishes, or whole. -/
def tick (p : Nat) (a : TickAnswer) (e : EndAnswer) : Players :=
  if !a.idle then s
  else
    let begun := s.tickBegin p a
    if begun.1 then begun.2.tickEnd p e else begun.2

/-- The player of a frame has taken its turn. -/
def present (p : Nat) : Players :=
  ((s.edit p fun b => { b with groupPresented := true }).tell (.published p)).tell (.presented p)

/-- The event handlers have run. -/
def published : Players := { s with publishing := none }

/-- The frame is published, after the event handlers. -/
def publish (t : Publishing) : Players :=
  (((s.publishSlaves t.player (some t.frame)).present t.player).releaseFrame t.old).published

/-- The rest of a tick that published a frame. -/
def settle (t : Publishing) (e : EndAnswer) : Players := (s.publish t).tickEnd t.player e

end Players

/-! ## Calls and timers -/

inductive PlayerCall where
  | createPlayer
  | createSlave
  | createGroup
  | deletePlayer (p : Nat)
  | deleteSlave (i : Nat)
  | deleteGroup (g : Nat)
  | setGroup (p : Nat) (g : Option Nat)
  | groupRemove (g p : Nat)
  | setMaster (i : Nat) (master : Option Nat)
  | setDrawLayer (p : Nat) (layer : DrawLayer)
  | setVideoPlane (p : Nat) (enabled : Bool) (display : Option Bool)
  | configure (p : Nat) (apng valid : Bool)
  | setSrc (p : Nat) (uri : List UInt8) (a : PrepareAnswer)
  | start (p : Nat) (a : PrepareAnswer) (started : Bool)
  | stop (p : Nat)
  | close (p : Nat)
  | seek (p position : Nat) (sought : Bool) (queued : Nat)
  | setAutoRestart (p : Nat) (enabled : Bool)
  | setVolume (p : Nat) (volume : Int) (taken : Bool)

namespace Players

variable (s : Players)

/-- The objects that `LV_CHECK_OBJ` asks of a call. -/
def valid : PlayerCall → Bool
  | .createPlayer | .createSlave | .createGroup => true
  | .deleteSlave i => (s.slave i).obj
  | .deleteGroup g => (s.group g).obj
  | .setGroup p g => (s.player p).obj && g.all fun g => (s.group g).obj
  | .groupRemove g p => (s.group g).obj && (s.player p).obj
  | .setMaster i master => (s.slave i).obj && master.all fun p => (s.player p).obj
  | .deletePlayer p | .setDrawLayer p _ | .setVideoPlane p _ _ | .configure p _ _
  | .setSrc p _ _ | .start p _ _ | .stop p | .close p | .seek p _ _ _ | .setAutoRestart p _
  | .setVolume p _ _ => (s.player p).obj

/-- A call on valid objects. -/
def call : PlayerCall → Players
  | .createPlayer =>
      { s with player := Function.update s.player s.players .created, players := s.players + 1 }
  | .createSlave =>
      { s with slave := Function.update s.slave s.slaves .created, slaves := s.slaves + 1 }
  | .createGroup =>
      { s with
        group := Function.update s.group s.groups { obj := true, members := [] }
        groups := s.groups + 1 }
  | .deletePlayer p => s.deletePlayer p
  | .deleteSlave i => s.deleteSlave i
  | .deleteGroup g => s.deleteGroup g
  | .setGroup p g => s.setGroup p g
  | .groupRemove g p => if (s.player p).group = some g then s.setGroup p none else s
  | .setMaster i master => s.setMaster i master
  | .setDrawLayer p layer => s.edit p fun b => { b with drawLayer := layer }
  | .setVideoPlane p enabled display => (s.setVideoPlane p enabled display).2
  | .configure p apng valid => (s.configure p apng valid).2
  | .setSrc p uri a => (s.setSrc p uri a).2
  | .start p a started => (s.start p a started).2
  | .stop p => s.requestClose p true
  | .close p => s.requestClose p false
  | .seek p position sought queued => (s.seek p position sought queued).2
  | .setAutoRestart p enabled => s.edit p fun b => { b with autoRestart := enabled }
  | .setVolume p volume taken => (s.setVolume p volume taken).2

end Players

/-- The owner thread makes a call, also from an event handler of a tick, or runs a
timer, or goes on with its tick; the worker of a backend finishes. -/
inductive PlayerAction where
  | call (c : PlayerCall)
  | tick (p : Nat) (a : TickAnswer) (e : EndAnswer)
  | settle (e : EndAnswer)
  | slaveTick (i : Nat) (idle : Bool)
  | finish (p : Nat)

namespace Players

/-- What an action does where it can happen. -/
def perform (s : Players) : PlayerAction → Option Players
  | .call c => if s.valid c then some (s.call c) else none
  | .tick p a e =>
      if s.publishing.isNone && (s.player p).live && (s.player p).timer then some (s.tick p a e)
      else none
  | .settle e => s.publishing.map fun t => s.settle t e
  | .slaveTick i idle =>
      if s.publishing.isNone && (s.slave i).live && (s.slave i).timer then
        some (s.slaveTick i idle)
      else none
  | .finish p =>
      if (s.player p).backend.isSome then
        some (s.edit p fun b => { b with
          backend := b.backend.map fun k => { k with finished := true } })
      else none

def initial (planeBuild apngBuild : Bool) : Players where
  planeBuild := planeBuild
  apngBuild := apngBuild
  player := fun _ => .absent
  slave := fun _ => .absent
  group := fun _ => { obj := false, members := [] }
  owners := fun _ => 0
  players := 0
  slaves := 0
  groups := 0
  frames := 0
  orphans := 0
  publishing := none
  log := []

/-- A step leaves the log empty and tells it. -/
def step (s : Players) (action : PlayerAction) : Option (Players × List PlayerEvent) :=
  (s.perform action).map fun next => ({ next with log := [] }, next.log)

end Players

def playerMachine : Machine Players PlayerAction PlayerEvent where
  Initial s := ∃ planeBuild apngBuild, s = Players.initial planeBuild apngBuild
  step := Players.step

end LvglAic.Widgets
