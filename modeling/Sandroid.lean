import Sandroid.Core.ScopeVisibility
import Sandroid.Core.NBest
import Sandroid.Core.RepeatedIntents
import Sandroid.Core.OwnSpecials
import Sandroid.Core.CategoryPaths
import Sandroid.Core.SessionContinuity
import Sandroid.Core.SessionPointer
import Sandroid.Core.SessionInterleaving
import Sandroid.Core.FailedRecognition
import Sandroid.Mrcp.BridgeFraming
import Sandroid.Mrcp.ResultAttribution
import Sandroid.Mrcp.StartCodec
import Sandroid.Api.BargeIn
import Sandroid.Api.Endpointing
import Sandroid.Vad.SileroAgreement
import Sandroid.Vad.Coverage
import Sandroid.Vad.Hysteresis
import Sandroid.Vad.SilentPieces
import Sandroid.Mrcp.RequestCodec
import Sandroid.Mrcp.EventStream
import Sandroid.Mrcp.BridgeConnection
import Sandroid.Mrcp.BridgeStarts
import Sandroid.Mrcp.BridgeTurn
import Sandroid.Api.StreamConnection
import Sandroid.Api.FrameOrder
import Sandroid.Api.TurnAnswers
import Sandroid.Api.ControlFrames
import Sandroid.Api.ControlAtomicity
import Sandroid.Api.ForeignFrames
import Sandroid.Lib.Reorder
import Sandroid.Mrcp.JitterBuffer
import Sandroid.Mrcp.Reordering
import Sandroid.Mrcp.RtpPath
import Sandroid.Mrcp.CborGrammar
import Sandroid.Mrcp.BridgeErrors
import Sandroid.Mrcp.BridgeRate
import Sandroid.Core.Audio
import Sandroid.Api.RecognizeFile
import Sandroid.Lib.Rounding
import Sandroid.Lib.Wave
import Sandroid.Models.Paraformer
import Sandroid.Core.FollowUp
import Sandroid.Core.EnumScenes
import Sandroid.Storage.SceneResolution
import Sandroid.Mrcp.CborExtent
import Sandroid.Mrcp.DatagramSkipping
import Sandroid.Mrcp.MalformedRequests
import Sandroid.Api.WavIntake
import Sandroid.Models.PseudoStreaming
import Sandroid.Core.MatcherRanking
import Sandroid.Core.Resampling
import Sandroid.Vad.BoundedMemory
import Sandroid.Lib.Entities
import Sandroid.Mrcp.NlsmlText
import Sandroid.Models.StubAsr
import Sandroid.Mrcp.BridgeReplies
import Sandroid.Mrcp.PluginChannel
import Sandroid.Mrcp.PluginView
import Sandroid.Mrcp.PluginMessages
import Sandroid.Mrcp.PluginRecognitions
import Sandroid.Mrcp.PluginConversation
import Sandroid.Mrcp.ChannelAgreement
import Sandroid.Mrcp.BridgeAgreement
import Sandroid.Mrcp.PluginResults
import Sandroid.Mrcp.LossyRtp
import Sandroid.Mrcp.RecognizeTurn
import Sandroid.Mrcp.TurnScript
import Sandroid.Mrcp.RecognizeExchange
import Sandroid.Mrcp.RecognizeResults
import Sandroid.Api.StreamMetrics
import Sandroid.Models.OnnxEmbedder
import Sandroid.Models.DefaultBackends
import Sandroid.Models.ParaformerFeatures
import Sandroid.Api.TurnPipeline
import Sandroid.Vad.SileroStream
import Sandroid.Models.TurnTranscript
