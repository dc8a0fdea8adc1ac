import PureGrpc.PolledMachines
import PureGrpc.ComparedMachines
import PureGrpc.LengthFraming
import PureGrpc.CheckedBytes
import PureGrpc.KeyedMultimap
import PureGrpc.TransitionRuns
import PureGrpc.ProtobufFields
import PureGrpc.Base64Groups
import PureGrpc.PercentCoding
import PureGrpc.FlooredUnits
import PureGrpc.CyclicWindows
import PureGrpc.FallibleLoops
import PureGrpc.GrpcMetadata
import PureGrpc.GrpcStatus
import PureGrpc.ErrorChains
import PureGrpc.SurvivingMetadata
import PureGrpc.GrpcCompression
import PureGrpc.HttpBodies
import PureGrpc.GrpcCodec
import PureGrpc.DecodeBuffers
import PureGrpc.MessageEncoding
import PureGrpc.EncodeOrder
import PureGrpc.EncoderBuffer
import PureGrpc.ServerBodyShape
import PureGrpc.StreamingDecode
import PureGrpc.StreamingScan
import PureGrpc.CheckedReceiving
import PureGrpc.FramingRoundTrip
import PureGrpc.TruncationDetection
import PureGrpc.DecoderCalls
import PureGrpc.ReceiveLimit
import PureGrpc.BufferBounds
import PureGrpc.ChunkIndependence
import PureGrpc.FrameIsolation
import PureGrpc.ErrorTermination
import PureGrpc.AwaitedMessages
import PureGrpc.RoundRobin
import PureGrpc.GrpcHandler
import PureGrpc.GrpcTimeout
import PureGrpc.InterceptedMetadata
import PureGrpc.GrpcClient
import PureGrpc.OriginPaths
import PureGrpc.StatusPropagation
import PureGrpc.ConveyedFrames
import PureGrpc.CompressionNegotiation
import PureGrpc.UnaryCardinality
import PureGrpc.MergedMetadata
import PureGrpc.RemoteCalls
import PureGrpc.GuardedCalls
import PureGrpc.H3Sender
import PureGrpc.H3Streams
import PureGrpc.H3Calls
import PureGrpc.HttpFailures
import PureGrpc.RichDetails
import PureGrpc.ServiceRouting
import PureGrpc.WebBodies
import PureGrpc.LengthPrefixes
import PureGrpc.WebPassThrough
import PureGrpc.WebTextDecoding
import PureGrpc.WebTextRejection
import PureGrpc.WebResponses
import PureGrpc.WebCalls
import PureGrpc.HealthService
import PureGrpc.HealthWatch
import PureGrpc.HealthInterleaving
import PureGrpc.AcceptLoop
import PureGrpc.LoopSurvival
import PureGrpc.GracefulShutdown
import PureGrpc.H3AcceptLoop
import PureGrpc.ProtoServices
import PureGrpc.ReflectionIndex
import PureGrpc.BoundedChannels
import PureGrpc.ReflectionStream
import PureGrpc.CompiledProtos
import PureGrpc.ServerItems
import PureGrpc.GeneratedCalls
import PureGrpc.Worklists
import PureGrpc.MessageClosure
import PureGrpc.FlatStubs
import PureGrpc.BuildOutputs
import PureGrpc.SuppliedServices
import PureGrpc.WatchedValues
import PureGrpc.HealthStreams
