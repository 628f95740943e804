import GlobalServer.Lib.Bytes
import GlobalServer.Lib.Runs
import GlobalServer.Lib.OrdMap
import GlobalServer.Base.Buffer
import GlobalServer.Base.TimePool
import GlobalServer.Base.TimePoolHeap
import GlobalServer.Base.TimePoolSound
import GlobalServer.Base.TimePoolPending
import GlobalServer.Base.TimePoolFires
import GlobalServer.Netio.Packet
import GlobalServer.Netio.TcpStream
import GlobalServer.Netio.TcpStreamSound
import GlobalServer.Netio.TcpStreamExact
import GlobalServer.Coroutine.Schedule
import GlobalServer.Transaction.Frame
import GlobalServer.Transaction.Transaction
import GlobalServer.Transaction.Application
import GlobalServer.Transaction.Effect
import GlobalServer.Transaction.Sound
import GlobalServer.Transaction.Ids
import GlobalServer.Transaction.Owners
import GlobalServer.Transaction.Fields
import GlobalServer.Transaction.Frames
import GlobalServer.Transaction.Reply
import GlobalServer.Transaction.Requests
import GlobalServer.Transaction.Responses
import GlobalServer.Transaction.Answers
import GlobalServer.Transaction.Timers
import GlobalServer.Netio.TcpBaseSocket
import GlobalServer.Router.Delivery
import GlobalServer.Router.Transfer
import GlobalServer.Router.Regist
import GlobalServer.Lib.Chunks
import GlobalServer.Netio.SyncConnector
import GlobalServer.Netio.SyncConnectorSound
import GlobalServer.Netio.SyncConnectorExact
import GlobalServer.Netio.FormatAgree
import GlobalServer.Lib.Assign
import GlobalServer.Lib.KeyTable
import GlobalServer.Netio.Listener
import GlobalServer.Netio.SocketContainer
import GlobalServer.Netio.Lifecycle
import GlobalServer.Netio.LifecycleSound
import GlobalServer.Router.Peers
import GlobalServer.Router.PeersReload
import GlobalServer.Router.OnReload
import GlobalServer.Router.PeerConns
import GlobalServer.Router.PeerFds
import GlobalServer.Router.Supervision
import GlobalServer.Transfer.InstMgr
import GlobalServer.Transfer.Reload
import GlobalServer.Transfer.Handshake
import GlobalServer.Lib.Decimal
import GlobalServer.Netio.HttpMsg
import GlobalServer.Netio.HttpMsgSound
import GlobalServer.Netio.HttpMessage
import GlobalServer.Netio.HttpBaseSocket
import GlobalServer.Async.AsyncMgr
import GlobalServer.Async.AsyncMgrSound
import GlobalServer.Lib.Weave
import GlobalServer.Dbtool.Conf
import GlobalServer.Dbtool.Mysql
import GlobalServer.Dbtool.Executor
import GlobalServer.Dbtool.ConfSound
import GlobalServer.Dbtool.CreateSound
import GlobalServer.Dbtool.Migrate
import GlobalServer.Dbtool.Stages
import GlobalServer.Dbtool.Keys
import GlobalServer.Dbtool.Frame
import GlobalServer.Dbtool.Columns
import GlobalServer.Dbtool.Definitions
import GlobalServer.Dbtool.Twice
import GlobalServer.Netio.SendLengths
import GlobalServer.Netio.ReceiveBound
import GlobalServer.Base.TimePoolIndex
import GlobalServer.Transaction.Concurrency
import GlobalServer.Lib.Separated
import GlobalServer.Thirdparty.MysqlPool
import GlobalServer.Thirdparty.RedisPool
import GlobalServer.Thirdparty.RedisCommand
import GlobalServer.Lib.Results
import GlobalServer.Lib.Dict
import GlobalServer.Deploy.GcmData
import GlobalServer.Deploy.InstanceIds
import GlobalServer.Lib.Regex
import GlobalServer.Deploy.Util
import GlobalServer.Excel.Translator
import GlobalServer.Excel.Agreement
import GlobalServer.Lib.OrderedIndex
import GlobalServer.Agent.ServerAgent
import GlobalServer.Transfer.UserLogin
import GlobalServer.Transfer.RouterInst
import GlobalServer.Netio.ExpireCheck
import GlobalServer.Transaction.MysqlQuery
import GlobalServer.Netio.SendDataByFd
import GlobalServer.Netio.Channel
import GlobalServer.Base.NewOncePool
import GlobalServer.Transaction.SelfMsg
import GlobalServer.Netio.HttpLength
import GlobalServer.Netio.HttpSvrSendMsg
import GlobalServer.Netio.HttpRoundTrip
import GlobalServer.Lib.Ledger
import GlobalServer.Transaction.DbResults
import GlobalServer.Transaction.DbCalls
import GlobalServer.Transaction.DbAccounted
import GlobalServer.Netio.WireOrder
import GlobalServer.Base.StringUtil
import GlobalServer.Async.DbUrl
import GlobalServer.Base.Util
import GlobalServer.Agent.ExecuteScript
import GlobalServer.Lib.EraseFirst
import GlobalServer.Agent.CheckAlive
import GlobalServer.Thirdparty.RedisReply
import GlobalServer.Lib.IdPool
import GlobalServer.Coroutine.Table
import GlobalServer.Coroutine.Task
import GlobalServer.Coroutine.TaskSound
import GlobalServer.Lib.Ring
import GlobalServer.Base.Logger
import GlobalServer.Base.LoggerSound
import GlobalServer.Base.LoggerRuns
import GlobalServer.Socket.EpollAccess
import GlobalServer.Socket.EpollSound
import GlobalServer.Lib.Heap
import GlobalServer.Base.Uint32ToStr
import GlobalServer.Base.Slist
import GlobalServer.Base.SlistSound
import GlobalServer.Base.CircularQueue
import GlobalServer.Base.CircularQueueSound
import GlobalServer.Base.BufferFifo
import GlobalServer.Base.ObjectPool
import GlobalServer.Base.PoolNumbers
import GlobalServer.Excel.ArrayCells
import GlobalServer.Lib.Blocks
import GlobalServer.Base.Md5
import GlobalServer.Base.Md5Sound
import GlobalServer.Lib.Resp
import GlobalServer.Thirdparty.RedisReader
import GlobalServer.Thirdparty.RedisReaderSound
import GlobalServer.Thirdparty.RedisReaderSafe
import GlobalServer.Thirdparty.RedisClient
import GlobalServer.Thirdparty.RedisClientSound
import GlobalServer.Socket.IoService
import GlobalServer.Socket.IoServiceSound
import GlobalServer.Lib.RoundRobin
import GlobalServer.Socket.IoServiceRuns
import GlobalServer.Base.LogFile
import GlobalServer.Base.LogFileSound
import GlobalServer.Base.LoggerFiles
import GlobalServer.Zone.Zone
import GlobalServer.Zone.Servers
import GlobalServer.Zone.Routing
import GlobalServer.Zone.Destinations
import GlobalServer.Zone.Order
import GlobalServer.Zone.Replies
import GlobalServer.Zone.Wire
