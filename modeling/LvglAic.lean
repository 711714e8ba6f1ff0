import LvglAic.Machine.Index
import LvglAic.Machine.Run
import LvglAic.Machine.References
import LvglAic.Machine.Progress
import LvglAic.Machine.Leases
import LvglAic.Machine.SoleOwners
import LvglAic.Machine.FixedPoint
import LvglAic.Machine.Shares
import LvglAic.Machine.Memory
import LvglAic.Machine.Picture
import LvglAic.Machine.Crc
import LvglAic.Machine.Scan
import LvglAic.Machine.Linked
import LvglAic.Machine.Paint
import LvglAic.Spi.Transfer
import LvglAic.Spi.TransferOwnership
import LvglAic.Spi.Session
import LvglAic.Spi.SessionRegistry
import LvglAic.Spi.Pipeline
import LvglAic.Spi.PipelineLedger
import LvglAic.Spi.PipelineHistory
import LvglAic.Spi.PipelineWorker
import LvglAic.Spi.PipelineDelivery
import LvglAic.Spi.PipelineProgress
import LvglAic.Spi.PipelineFair
import LvglAic.Player.Session
import LvglAic.Player.Frames
import LvglAic.Player.Custody
import LvglAic.Player.FramesCustody
import LvglAic.Player.Conservation
import LvglAic.Player.PreserveQueue
import LvglAic.Player.PollOrder
import LvglAic.Player.Playback
import LvglAic.Player.PlaybackCustody
import LvglAic.Player.PlaybackClosing
import LvglAic.Player.PlaybackSeeking
import LvglAic.Player.SessionCalls
import LvglAic.Apng.Timeline
import LvglAic.Apng.TimelineClock
import LvglAic.Apng.TimelineRun
import LvglAic.Apng.TimelineOrder
import LvglAic.Apng.TimelineDeadline
import LvglAic.Apng.TimelineWait
import LvglAic.Apng.Mailbox
import LvglAic.Apng.MailboxSafety
import LvglAic.Spi.Worker
import LvglAic.Spi.WorkerDelivery
import LvglAic.Spi.WorkerFair
import LvglAic.Spi.Display
import LvglAic.Spi.DisplayFlush
import LvglAic.Spi.DisplayCalls
import LvglAic.Player.Allocator
import LvglAic.Player.AllocatorBlocks
import LvglAic.Player.AllocatorSafety
import LvglAic.Video.Plane
import LvglAic.Video.PlaneScanout
import LvglAic.Widgets.Player
import LvglAic.Widgets.PlayerSteps
import LvglAic.Widgets.PlayerPreserve
import LvglAic.Widgets.PlayerFrames
import LvglAic.Widgets.PlayerOwners
import LvglAic.Widgets.PlayerAccounts
import LvglAic.Widgets.Barrier
import LvglAic.Widgets.PlayerGroup
import LvglAic.Camera.Capture
import LvglAic.Camera.CaptureCustody
import LvglAic.Camera.CaptureConservation
import LvglAic.Camera.InputRequest
import LvglAic.Ge2d.ScaleAxis
import LvglAic.Ge2d.Rotation
import LvglAic.Ge2d.RotationScale
import LvglAic.Ge2d.TransformPlan
import LvglAic.Ge2d.Stripes
import LvglAic.Ge2d.YuvMask
import LvglAic.Image.Frame
import LvglAic.Image.FrameLease
import LvglAic.Display.Fit
import LvglAic.Image.YuvSample
import LvglAic.Image.YuvConvert
import LvglAic.Image.YuvMpp
import LvglAic.Spi.Frame
import LvglAic.Apng.Document
import LvglAic.Apng.Png
import LvglAic.Apng.Extract
import LvglAic.Apng.DocumentChunks
import LvglAic.Apng.ExtractWhole
import LvglAic.Apng.Compose
import LvglAic.Apng.ComposeRefines
import LvglAic.Apng.Stream
import LvglAic.Apng.StreamLockstep
import LvglAic.Image.PngChunks
import LvglAic.Image.Stream
import LvglAic.Image.JpegHeader
import LvglAic.Image.BmpDecode
import LvglAic.Image.BmpRows
import LvglAic.Player.Clock
import LvglAic.Image.FakePath
import LvglAic.Widgets.ImgRoller
import LvglAic.Font.FtCache
import LvglAic.Font.FtCacheDrop
import LvglAic.Image.MppCache
import LvglAic.Image.MppCacheStock
import LvglAic.Image.MppCacheSound
import LvglAic.Image.MppCacheOpen
import LvglAic.Image.MppCacheRuns
