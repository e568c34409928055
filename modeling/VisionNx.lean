import VisionNx.Library.GreedyMatching
import VisionNx.Python
import VisionNx.Library.BinaryFloats
import VisionNx.Cpp
import VisionNx.Tracker.History
import VisionNx.Tracker.NonInterference
import VisionNx.Tracker.Matching
import VisionNx.InferUtils
import VisionNx.Json
import VisionNx.Library.MessageStream
import VisionNx.Wire
import VisionNx.Worker.Crop
import VisionNx.Worker.ReadLoop
import VisionNx.Worker.Serve
import VisionNx.Worker.ServeContract
import VisionNx.Client.SharedSocket
import VisionNx.Client.IpcClient
import VisionNx.Client.Calls
import VisionNx.Worker.ReplyStream
import VisionNx.Client.Pairing
import VisionNx.Agent.DeviceAgent
import VisionNx.Agent.ConfigFreshness
import VisionNx.Agent.TrackIdentity
import VisionNx.Agent.SettingsSnapshots
import VisionNx.Agent.Lifecycle
import VisionNx.Agent.LiveTracks
import VisionNx.Worker.Inference
import VisionNx.Worker.LastConfig
import VisionNx.Worker.RoiPrivacy
import VisionNx.Worker.MaskFilter
import VisionNx.Worker.Adapters
import VisionNx.Worker.ModelBookkeeping
import VisionNx.Agent.TrackUuidLru
import VisionNx.Agent.SettingsParsing
import VisionNx.Agent.ConfigMessage
import VisionNx.Agent.ClassSelection
import VisionNx.Agent.ConfigAgreement
import VisionNx.Worker.ConfigHistories
import VisionNx.Tracker.Specification
import VisionNx.Library.Rearrangements
import VisionNx.Tracker.OrderIndependence
import VisionNx.Tracker.Overlap
import VisionNx.Tracker.StaticScene
import VisionNx.Tracker.AgeLimit
import VisionNx.Tracker.ClassSafety
import VisionNx.Agent.ExactLru
import VisionNx.Decoding
import VisionNx.Engine.EnvProbe
import VisionNx.FrameExchange
import VisionNx.Worker.LetterboxLimits
import VisionNx.Engine.Defaults
import VisionNx.Library.TimedHistories
import VisionNx.Client.Cooldown
import VisionNx.Agent.Packets
import VisionNx.Worker.ReportedBoxes
import VisionNx.Worker.Fleet
import VisionNx.Agent.ShownObjects
import VisionNx.ExchangeTermination
import VisionNx.Agent.ObjectIdentity
import VisionNx.Client.Recovery
import VisionNx.Tracker.ClassFlicker
import VisionNx.Worker.RepeatedConfigs
import VisionNx.Agent.OneConnection
import VisionNx.Agent.NarrowerSettings
import VisionNx.Agent.ObjectTypes
import VisionNx.Agent.SelectedClasses
import VisionNx.Worker.Framing
