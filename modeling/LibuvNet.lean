import LibuvNet.Foundation.ByteOrder
import LibuvNet.Foundation.FrameCodec
import LibuvNet.Foundation.Run
import LibuvNet.Foundation.TwoRuns
import LibuvNet.Foundation.Routing
import LibuvNet.Foundation.TimedLog
import LibuvNet.Foundation.BorrowedWrite
import LibuvNet.Foundation.Numeral
import LibuvNet.Foundation.DottedQuad
import LibuvNet.Foundation.HandleLedger
import LibuvNet.Foundation.Segmentation
import LibuvNet.Foundation.ObjectLayout
import LibuvNet.Foundation.MemoryRead
import LibuvNet.Foundation.Loop
import LibuvNet.Foundation.Mailbox
import LibuvNet.Foundation.Descent
import LibuvNet.Foundation.Erasure
import LibuvNet.Wire.Framing
import LibuvNet.Wire.Rejection
import LibuvNet.Wire.Padding
import LibuvNet.Wire.HostOrder
import LibuvNet.Wire.Canonical
import LibuvNet.Wire.Reads
import LibuvNet.Endpoint.Receive
import LibuvNet.Endpoint.Reassembly
import LibuvNet.Endpoint.Accounting
import LibuvNet.Endpoint.Equivalence
import LibuvNet.Endpoint.Progress
import LibuvNet.Endpoint.Waiting
import LibuvNet.Endpoint.Transfer
import LibuvNet.Endpoint.Closing
import LibuvNet.Endpoint.Oversize
import LibuvNet.Endpoint.Teardown
import LibuvNet.Endpoint.Addressing
import LibuvNet.Endpoint.Outgoing
import LibuvNet.Endpoint.Posting
import LibuvNet.Endpoint.Watchdog
import LibuvNet.Interceptor.Json
import LibuvNet.Interceptor.TypedMessage
import LibuvNet.Interceptor.SendData
import LibuvNet.Client.Lifecycle
import LibuvNet.Client.Isolation
import LibuvNet.Client.Heartbeat
import LibuvNet.Client.Timer
import LibuvNet.Client.Connecting
import LibuvNet.Client.Reports
import LibuvNet.Client.Calls
import LibuvNet.Client.Fresh
import LibuvNet.Client.Reconnect
import LibuvNet.Client.FailedAttempt
import LibuvNet.Client.Handling
import LibuvNet.Client.TestClient
import LibuvNet.Client.Lifetime
import LibuvNet.Session.Lifecycle
import LibuvNet.Session.Life
import LibuvNet.Session.Heartbeat
import LibuvNet.Session.Quiet
import LibuvNet.Session.Reentry
import LibuvNet.Session.Nesting
import LibuvNet.Session.Feeding
import LibuvNet.Session.ExactlyOnce
import LibuvNet.ThreadPool.Pool
import LibuvNet.ThreadPool.Conservation
import LibuvNet.ThreadPool.WakeUp
import LibuvNet.ThreadPool.Shutdown
import LibuvNet.ThreadPool.Termination
import LibuvNet.ThreadPool.Service
import LibuvNet.Server.Lifecycle
import LibuvNet.Server.Serving
import LibuvNet.Server.Dispatching
import LibuvNet.Server.Registry
import LibuvNet.Server.Accepting
import LibuvNet.Server.Ownership
import LibuvNet.Server.SendTo
import LibuvNet.Server.Service
import LibuvNet.Server.Listening
import LibuvNet.Server.Broadcast
import LibuvNet.Server.Reach
import LibuvNet.Server.Handling
import LibuvNet.Server.Keeping
import LibuvNet.Server.TestServer
import LibuvNet.Server.Load
import LibuvNet.Server.Announcing
import LibuvNet.Server.Silence
import LibuvNet.Server.Clearing
import LibuvNet.Server.Seeing
import LibuvNet.Server.Separation
import LibuvNet.Network.Delivery
import LibuvNet.Network.Star
import LibuvNet.Network.Handling
import LibuvNet.Network.Answering
import LibuvNet.Network.Programs
import LibuvNet.Network.Agreement
import LibuvNet.Network.Settling
