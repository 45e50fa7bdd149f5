import ThreadComponent.Transitions
import ThreadComponent.BaseWorker
import ThreadComponent.BaseWorkerSteps
import ThreadComponent.BaseWorkerSafety
import ThreadComponent.BaseWorkerStop
import ThreadComponent.BaseWorkerJoin
import ThreadComponent.StreamSocket
import ThreadComponent.SyncClient
import ThreadComponent.SyncReceive
import ThreadComponent.HttpResponse
import ThreadComponent.HttpResponseSafety
import ThreadComponent.ThreadQueue
import ThreadComponent.ThreadQueueSafety
import ThreadComponent.DerivedWorker
import ThreadComponent.DerivedHooks
import ThreadComponent.StopHooks
import ThreadComponent.HttpStart
import ThreadComponent.HttpServerV1
import ThreadComponent.HttpServerV2
import ThreadComponent.HttpOnError
import ThreadComponent.HttpStartSafety
import ThreadComponent.HttpStartResolver
import ThreadComponent.HttpStartResolved
import ThreadComponent.Ownership
import ThreadComponent.TcpSocket
import ThreadComponent.SocketWorker
import ThreadComponent.SocketWorkerSafety
import ThreadComponent.TcpClient
import ThreadComponent.TcpClientHooks
import ThreadComponent.TcpClientSocket
import ThreadComponent.TcpClientQueue
import ThreadComponent.TcpClientOrder
import ThreadComponent.TcpServer
import ThreadComponent.TcpServerHooks
import ThreadComponent.TcpServerSocket
import ThreadComponent.TcpWorkerSockets
import ThreadComponent.TcpServerClients
import ThreadComponent.TcpServerClientsSafety
import ThreadComponent.CondVar
import ThreadComponent.SimpleContainer
import ThreadComponent.SimpleContainerWakeups
import ThreadComponent.Destructor
import ThreadComponent.TcpServerDestructor
import ThreadComponent.TcpDestructors
import ThreadComponent.GrpcWorker
import ThreadComponent.GrpcHooks
import ThreadComponent.GrpcCalls
import ThreadComponent.GrpcListener
import ThreadComponent.GrpcSubmissions
import ThreadComponent.GrpcQueues
import ThreadComponent.History
import ThreadComponent.SyncConnect
import ThreadComponent.SyncErrors
import ThreadComponent.SyncDescriptors
import ThreadComponent.HttpStopServer
import ThreadComponent.HttpRequests
import ThreadComponent.TcpClientWakeups
import ThreadComponent.TcpClientSystemCalls
import ThreadComponent.TcpServerSessions
import ThreadComponent.TcpServerHandlers
import ThreadComponent.TcpServerLists
import ThreadComponent.TcpServerDescriptors
import ThreadComponent.TcpServerSystemCalls
import ThreadComponent.GrpcRestarts
import ThreadComponent.GrpcSelfStop
import ThreadComponent.StreamChunks
import ThreadComponent.SyncChunking
import ThreadComponent.SimpleContainerSelect
import ThreadComponent.SimpleContainerReads
import ThreadComponent.StreamSender
import ThreadComponent.SendLoops
import ThreadComponent.HeaderText
import ThreadComponent.HttpHeaders
import ThreadComponent.HttpWriteResponse
import ThreadComponent.HttpClient
import ThreadComponent.HttpClientHeaders
import ThreadComponent.HttpClientRequest
import ThreadComponent.HttpClientFields
import ThreadComponent.Heartbeat
import ThreadComponent.TcpClientHelpers
import ThreadComponent.HttpHelpers
import ThreadComponent.HelperThreads
import ThreadComponent.KeyedTable
import ThreadComponent.HttpRoutes
import ThreadComponent.HttpRoutesSafety
import ThreadComponent.Termination
import ThreadComponent.BaseWorkerProgress
import ThreadComponent.Interleaving
import ThreadComponent.TcpClientConnections
import ThreadComponent.TcpServerPayloads
import ThreadComponent.TcpNetwork
import ThreadComponent.HeaderLines
import ThreadComponent.HttpExchange
import ThreadComponent.GrpcReplies
import ThreadComponent.SyncFrames
import ThreadComponent.SyncTimeouts
import ThreadComponent.SyncExchange
import ThreadComponent.SimpleContainerItems
import ThreadComponent.ThreadQueueTransfers
import ThreadComponent.BaseWorkerResults
import ThreadComponent.DerivedShutdown
import ThreadComponent.TcpServerWaits
import ThreadComponent.TcpServerShutdown
import ThreadComponent.TcpServerProgress
import ThreadComponent.TcpServerReaping
import ThreadComponent.TcpClientShutdown
import ThreadComponent.TcpClientProgress
import ThreadComponent.GrpcShutdown
import ThreadComponent.GrpcProgress
