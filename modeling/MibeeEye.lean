import MibeeEye.ByteOrder
import MibeeEye.ByteReader
import MibeeEye.RtmpChunk
import MibeeEye.ListCut
import MibeeEye.RtmpChunkWriter
import MibeeEye.RtmpChunkAgreement
import MibeeEye.RtmpInterleave
import MibeeEye.RtmpAmf0
import MibeeEye.RtmpAmf0RoundTrip
import MibeeEye.RtmpReplies
import MibeeEye.RtmpPushClient
import MibeeEye.RtmpPeer
import MibeeEye.H264Nal
import MibeeEye.RtmpOutput
import MibeeEye.StepMachine
import MibeeEye.StreamPermits
import MibeeEye.Md5
import MibeeEye.Text
import MibeeEye.RtspAuth
import MibeeEye.RtspFraming
import MibeeEye.RtspStreams
import MibeeEye.RtspSession
import MibeeEye.RtspConnection
import MibeeEye.RtspChallenge
import MibeeEye.RtspRouting
import MibeeEye.RtspUsable
import MibeeEye.RtspClock
import MibeeEye.CaptureSource
import MibeeEye.Fmp4
import MibeeEye.HubOutputs
import MibeeEye.HubOutputCap
import MibeeEye.PolledReader
import MibeeEye.RtspRequest
import MibeeEye.RtspDelivery
import MibeeEye.FlvVideoTag
import MibeeEye.RtmpCompression
import MibeeEye.RtmpChunkSize
import MibeeEye.RtpPacket
import MibeeEye.RtspPacketisation
import MibeeEye.StreamMounts
import MibeeEye.StreamPipelines
import MibeeEye.OutputLifecycle
import MibeeEye.Migrations
import MibeeEye.ParameterSetCache
import MibeeEye.Zones
import MibeeEye.AwayEngine
import MibeeEye.AwaySchedule
import MibeeEye.PlaybackMute
import MibeeEye.LoginLockout
import MibeeEye.AwayVisitors
import MibeeEye.AwayListening
import MibeeEye.ModelDownload
import MibeeEye.Meetings
import MibeeEye.KeyedWrites
import MibeeEye.JsonValue
import MibeeEye.ConfigDocument
import MibeeEye.ConfigProtocols
import MibeeEye.ConfigPut
import MibeeEye.CheckedReads
import MibeeEye.RtmpAmf0Grammar
import MibeeEye.RtmpAmf0Indexed
import MibeeEye.RtmpAmf0WriteBack
import MibeeEye.RtmpAmf0TypedObjects
import MibeeEye.FlvExtract
import MibeeEye.AnnexB
import MibeeEye.AnnexBSplitters
import MibeeEye.Keyframes
import MibeeEye.ExpGolomb
import MibeeEye.BitIter
import MibeeEye.OnvifLifecycle
import MibeeEye.RtpSerialization
import MibeeEye.RtpFragments
import MibeeEye.RtpAggregation
import MibeeEye.WholeBlocks
import MibeeEye.Md5Blocks
import MibeeEye.Numerals
import MibeeEye.RtspTransport
import MibeeEye.CodeReaders
import MibeeEye.SpsParser
import MibeeEye.SpsSyntax
import MibeeEye.CheckedArithmetic
import MibeeEye.PictureSize
import MibeeEye.AudioPacketizer
import MibeeEye.SentenceStream
import MibeeEye.ThinkBlocks
import MibeeEye.Tracking
import MibeeEye.TrackerMatching
import MibeeEye.TrackerLifecycle
import MibeeEye.CyclicParity
import MibeeEye.ZoneGeometry
import MibeeEye.ZoneEngine
import MibeeEye.ZoneStays
import MibeeEye.Tripwire
import MibeeEye.CivilDate
import MibeeEye.Eviction
import MibeeEye.FileOutput
import MibeeEye.SegmentNames
import MibeeEye.SegmentRotation
import MibeeEye.SegmentPruning
import MibeeEye.DecimalOrder
import MibeeEye.Calendar
import MibeeEye.SegmentStamps
import MibeeEye.Scatter
import MibeeEye.Raster
import MibeeEye.Convert
import MibeeEye.FrameScaling
import MibeeEye.FrameTurns
import MibeeEye.SnapshotColours
import MibeeEye.KeyedTable
import MibeeEye.Auth
import MibeeEye.SessionCleanup
import MibeeEye.PasswordReset
import MibeeEye.RateLimit
import MibeeEye.SlidingWindow
import MibeeEye.KeyFlood
import MibeeEye.Segments
import MibeeEye.DecisionSequence
import MibeeEye.MarkerLayout
import MibeeEye.Transducer
import MibeeEye.SoundEventState
import MibeeEye.SoundEvents
import MibeeEye.FixedWidth
import MibeeEye.Streaks
import MibeeEye.FeatureGate
import MibeeEye.FeatureAdmission
import MibeeEye.StreamLifecycle
import MibeeEye.StreamStops
import MibeeEye.StreamBudget
import MibeeEye.AwayArrivals
import MibeeEye.Elastic
import MibeeEye.ElasticDebounce
import MibeeEye.ElasticPressure
import MibeeEye.DescGate
import MibeeEye.KeyTree
import MibeeEye.TreeFill
import MibeeEye.ConfigMerge
import MibeeEye.ConfigMigration
import MibeeEye.Binary64
import MibeeEye.PositionWords
import MibeeEye.GreedySelection
import MibeeEye.Nms
import MibeeEye.HexCodec
import MibeeEye.RowMajor
import MibeeEye.SpeakerBlob
import MibeeEye.Resampler
import MibeeEye.AddressSpace
import MibeeEye.BufferPool
import MibeeEye.Hotplug
import MibeeEye.ModelResume
import MibeeEye.RiffChunks
import MibeeEye.MeetingWav
import MibeeEye.VoiceCapture
import MibeeEye.JsonPath
import MibeeEye.SecretPlaceholders
import MibeeEye.VertexSearch
import MibeeEye.WordBoxes
import MibeeEye.WordPaths
import MibeeEye.WordReading
import MibeeEye.WebAccess
import MibeeEye.WebAlarm
import MibeeEye.TriggerEngine
import MibeeEye.WholeGroups
import MibeeEye.VideoAccessUnits
import MibeeEye.ToolLoop
import MibeeEye.ToolServers
import MibeeEye.VaryingSteps
import MibeeEye.VoiceCompanding
import MibeeEye.VoicePlayback
import MibeeEye.VoiceRounds
import MibeeEye.VoiceSpeaker
import MibeeEye.WebSettings
import MibeeEye.WebTraces
