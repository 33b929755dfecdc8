import RpcLib.Client.CallTable
import RpcLib.Client.Causality
import RpcLib.Client.ConnectionFlags
import RpcLib.Client.Correlation
import RpcLib.Client.Destruction
import RpcLib.Client.Impl
import RpcLib.Client.LostConnection
import RpcLib.Client.QueuedRequests
import RpcLib.Client.ReadLoop
import RpcLib.Client.Reconnect
import RpcLib.Client.RequestFlow
import RpcLib.Client.Resting
import RpcLib.Client.Robustness
import RpcLib.Client.Sending
import RpcLib.Client.Step
import RpcLib.Example.SubscribeClient
import RpcLib.Example.SubscribeServer
import RpcLib.Foundation.Component
import RpcLib.Foundation.Fairness
import RpcLib.Foundation.FifoLedger
import RpcLib.Foundation.Framing
import RpcLib.Foundation.Link
import RpcLib.Foundation.RetryLoop
import RpcLib.Foundation.Stages
import RpcLib.Foundation.TransitionSystem
import RpcLib.Foundation.WriteOnce
import RpcLib.MsgPack.Object
import RpcLib.MsgPack.Reference
import RpcLib.MsgPack.ShortForms
import RpcLib.Protocol.Request
import RpcLib.Protocol.Response
import RpcLib.Protocol.ResponseHistory
import RpcLib.Protocol.Storage
import RpcLib.Server.Acceptance
import RpcLib.Server.Answering
import RpcLib.Server.ArgumentCheck
import RpcLib.Server.Backlog
import RpcLib.Server.DispatchSpec
import RpcLib.Server.Dispatcher
import RpcLib.Server.ExitRequests
import RpcLib.Server.GracefulClose
import RpcLib.Server.Impl
import RpcLib.Server.Moves
import RpcLib.Server.Ownership
import RpcLib.Server.PathAgreement
import RpcLib.Server.Registrar
import RpcLib.Server.Registry
import RpcLib.Server.Replay
import RpcLib.Server.ReplyIsolation
import RpcLib.Server.ReplyMemory
import RpcLib.Server.ReplyZones
import RpcLib.Server.Sequential
import RpcLib.Server.SessionReader
import RpcLib.Server.SessionTask
import RpcLib.Server.SessionWriter
import RpcLib.Server.SingleThread
import RpcLib.Server.Step
import RpcLib.Server.StopRequests
import RpcLib.Server.ThisThread
import RpcLib.System.CallCompletion
import RpcLib.System.CallEnds
import RpcLib.System.CallResults
import RpcLib.System.CallSemantics
import RpcLib.System.CallThreads
import RpcLib.System.Calling
import RpcLib.System.Completion
import RpcLib.System.Composition
import RpcLib.System.Delivery
import RpcLib.System.EndToEnd
import RpcLib.System.Network
import RpcLib.System.ReadLoops
import RpcLib.System.SessionOrder
import RpcLib.System.Termination
import RpcLib.Transport.AsyncWriter
import RpcLib.Transport.QueueConservation
import RpcLib.Transport.ReadBuffer
import RpcLib.Transport.SocketWriter
import RpcLib.Transport.WriterMoves
import RpcLib.Transport.WriterProgress
