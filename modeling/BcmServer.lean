import BcmServer.Lts.Run
import BcmServer.Lts.Pool
import BcmServer.Lts.Program
import BcmServer.Lts.Emit
import BcmServer.Lts.Worker
import BcmServer.Lts.FailFast
import BcmServer.Lts.Loop
import BcmServer.Util.Bytes
import BcmServer.Util.ConsistentHash
import BcmServer.Util.CircleChanges
import BcmServer.Util.Text
import BcmServer.Util.Json
import BcmServer.Util.JsonText
import BcmServer.Util.Keyed
import BcmServer.Util.Ordered
import BcmServer.Util.Cells
import BcmServer.Util.Window
import BcmServer.Util.Expiring
import BcmServer.Util.Thrown
import BcmServer.Util.Table
import BcmServer.Util.SetMap
import BcmServer.Util.Newest
import BcmServer.Util.Ascending
import BcmServer.Util.Fitting
import BcmServer.Crypto.Base64
import BcmServer.Crypto.UrlEncoder
import BcmServer.Http.Api
import BcmServer.Http.External
import BcmServer.Http.Route
import BcmServer.Http.Router
import BcmServer.Http.QueryString
import BcmServer.Http.RouteChoice
import BcmServer.Http.PathParams
import BcmServer.Http.Session
import BcmServer.Auth.AuthorizationHeader
import BcmServer.Auth.Challenge
import BcmServer.Auth.Authenticator
import BcmServer.Store.Account
import BcmServer.Store.ModifyAccount
import BcmServer.Store.AccountsDao
import BcmServer.Store.FifoCache
import BcmServer.Limiters.ApiMatcher
import BcmServer.Limiters.Qps
import BcmServer.Limiters.Distributed
import BcmServer.Limiters.DryRun
import BcmServer.Limiters.Configuration
import BcmServer.Limiters.Routing
import BcmServer.Limiters.Executor
import BcmServer.Limiters.Accounting
import BcmServer.Redis.AsyncConn
import BcmServer.Redis.Publish
import BcmServer.Redis.Partition
import BcmServer.Redis.HashReply
import BcmServer.Redis.Failover
import BcmServer.Dispatcher.Address
import BcmServer.Dispatcher.Manager
import BcmServer.Dispatcher.Reconnect
import BcmServer.Dispatcher.Cluster
import BcmServer.Dispatcher.Channel
import BcmServer.Dispatcher.MessagesManager
import BcmServer.Dispatcher.Delivery
import BcmServer.Dispatcher.Stored
import BcmServer.Dispatcher.Drain
import BcmServer.Dispatcher.DrainBatch
import BcmServer.Dispatcher.DrainLegacy
import BcmServer.Group.Reviews
import BcmServer.Group.Seat
import BcmServer.Group.OnlineMembers
import BcmServer.Group.OnlineIndex
import BcmServer.Group.ImServerMgr
import BcmServer.Group.NoiseSearch
import BcmServer.Group.Channels
import BcmServer.Group.KeyCandidates
import BcmServer.Group.KeyMode
import BcmServer.Group.Notifications
import BcmServer.Group.NoiseReceivers
import BcmServer.Group.Store
import BcmServer.Group.Requests
import BcmServer.Group.Service
import BcmServer.Group.Controller
import BcmServer.Group.ControllerV2
import BcmServer.Group.Outcome
import BcmServer.Group.MemberCount
import BcmServer.Group.Ownership
import BcmServer.Group.Admission
import BcmServer.Group.Joining
import BcmServer.Group.OwnerConfirm
import BcmServer.Group.Kicked
import BcmServer.Group.Settings
import BcmServer.Group.ReadFailure
import BcmServer.Group.KeyEntries
import BcmServer.Group.KeysCache
import BcmServer.Websocket.Session
import BcmServer.Websocket.Request
import BcmServer.Websocket.Answered
import BcmServer.Websocket.Authorization
import BcmServer.Websocket.WriteQueue
import BcmServer.Controllers.DeviceController
import BcmServer.Offline.MemberCache
import BcmServer.Offline.MemberReplay
import BcmServer.Offline.MemberSync
import BcmServer.Offline.MasterLease
import BcmServer.Offline.GroupMsgList
import BcmServer.Offline.GroupMsgTasks
import BcmServer.Offline.GroupMsgRound
import BcmServer.Offline.GroupMsgWritten
import BcmServer.Offline.GroupUserMsg
import BcmServer.Offline.PushNotification
import BcmServer.Offline.GroupStoreFormat
import BcmServer.Offline.PushMessage
import BcmServer.Offline.PushedUsers
import BcmServer.Offline.PushFlag
import BcmServer.Offline.PushOrder
import BcmServer.Offline.LastMid
import BcmServer.Util.Bits
import BcmServer.Bloom.BloomFilters
import BcmServer.Bloom.Membership
import BcmServer.Util.Base64
import BcmServer.Controllers.ContactController
import BcmServer.Controllers.SignedContent
import BcmServer.Controllers.MessageController
import BcmServer.Push.ApnsQos
import BcmServer.Push.Service
import BcmServer.Dispatcher.FriendEvents
import BcmServer.Metrics.MixMetrics
import BcmServer.Metrics.FileOutput
import BcmServer.Metrics.ThrottleControl
import BcmServer.Group.KeyDistribution
import BcmServer.Group.KeysText
import BcmServer.Group.CreateEvents
import BcmServer.Group.HalfDone
import BcmServer.Group.Extensions
import BcmServer.Lts.Fueled
import BcmServer.Redis.RedisConn
import BcmServer.Redis.Connecting
import BcmServer.Redis.Survival
import BcmServer.Redis.RedisClientSync
import BcmServer.Store.ContactTokenManager
import BcmServer.Crypto.AnyBase
import BcmServer.Redis.Format
import BcmServer.Redis.HashServer
import BcmServer.Redis.HashReads
import BcmServer.Auth.AccountHelper
import BcmServer.Controllers.AccountLife
import BcmServer.Controllers.PreKeyBundles
import BcmServer.Fiber.Timer
import BcmServer.Fiber.Yield
import BcmServer.Group.MsgController
import BcmServer.Group.MsgDelivery
import BcmServer.Controllers.OpaqueData
import BcmServer.Controllers.SystemController
import BcmServer.Http.Url
import BcmServer.Offline.Dispatch
