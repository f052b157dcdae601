import Arale.Lib.Schedules
import Arale.Lib.Memory
import Arale.Lib.Lines
import Arale.Lib.Format
import Arale.Lib.TextOrder
import Arale.Lib.CheckedInt
import Arale.Lib.Calendar
import Arale.Lib.LowerBound
import Arale.Lib.FileReader
import Arale.Lib.ByteOrder
import Arale.Lib.Framing
import Arale.Lib.TimingWheel
import Arale.Lib.RoundRobin
import Arale.Lib.CopyOnWrite
import Arale.Base.Date
import Arale.Base.JulianDays
import Arale.Base.UtcTime
import Arale.Base.TimeZone
import Arale.Base.ZoneFile
import Arale.Base.ZoneEncoding
import Arale.Base.LogStream
import Arale.Base.LogNumbers
import Arale.Base.Logging
import Arale.Base.LogRecord
import Arale.Base.LogTime
import Arale.Base.Timestamp
import Arale.Net.Channel
import Arale.Net.EPollPoller
import Arale.Net.EPollAsserts
import Arale.Net.PollPoller
import Arale.Net.PollWatches
import Arale.Net.EventLoop
import Arale.Net.LoopEdges
import Arale.Net.EventLoopThread
import Arale.Net.Buffer
import Arale.Net.BufferRefinement
import Arale.Net.BufferInts
import Arale.Net.Unwrite
import Arale.Net.TcpConnection
import Arale.Net.HandleRead
import Arale.Net.ReadInterest
import Arale.Net.OutputStream
import Arale.Net.Backpressure
import Arale.Net.GracefulShutdown
import Arale.Net.ServedConnection
import Arale.Net.ServedSteps
import Arale.Net.CloseOnce
import Arale.Net.PostedSend
import Arale.Net.SendThenShutdown
import Arale.Net.SilenceAfterDown
import Arale.Net.ClosedChannel
import Arale.Net.Teardown
import Arale.Net.TcpServer
import Arale.Net.EventLoopThreadPool
import Arale.Net.Acceptor
import Arale.Net.Connector
import Arale.Net.ConnectorRuns
import Arale.Net.SelfConnect
import Arale.Net.TcpClient
import Arale.Net.ClientTeardown
import Arale.Net.TimerQueue
import Arale.Net.TimerSteps
import Arale.Net.TimerArming
import Arale.Net.TimerHistory
import Arale.Net.TimerCancel
import Arale.Net.CancelTwice
import Arale.Net.TimerThreads
import Arale.Http.HttpMessage
import Arale.Http.ResponseFormat
import Arale.Http.HttpContext
import Arale.Http.HeaderEnd
import Arale.Http.Ranges
import Arale.Http.RequestLine
import Arale.Http.HttpServer
import Arale.Http.Segmentation
import Arale.Http.Incremental
import Arale.Http.HeaderRoundTrip
import Arale.Http.Termination
import Arale.Http.Answers
import Arale.Examples.Codec
import Arale.Examples.ChatServer
import Arale.Examples.EfficientChat
import Arale.Examples.ThreadedChat
import Arale.Examples.IdleConnection
import Arale.Examples.Socks4a
import Arale.Examples.SortedList
import Arale.Examples.Tunnel
import Arale.Examples.Download
import Arale.Examples.MultiplexServer
import Arale.Examples.DemuxServer
import Arale.Examples.Balancer
