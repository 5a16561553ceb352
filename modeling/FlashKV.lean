import FlashKV.Lib.StateAction
import FlashKV.Lib.Assoc
import FlashKV.Lib.Checked
import FlashKV.Lib.Decimal
import FlashKV.Lib.Framing
import FlashKV.Lib.Json
import FlashKV.Lib.LeadingInt
import FlashKV.Lib.Recency
import FlashKV.Lib.Spends
import FlashKV.Lib.SwapPop
import FlashKV.Lib.TimedRun
import FlashKV.Lib.Wildcard
import FlashKV.Database.ActiveExpire
import FlashKV.Database.Basic
import FlashKV.Database.Cycle
import FlashKV.Database.Evicted
import FlashKV.Database.Eviction
import FlashKV.Database.Frame
import FlashKV.Database.Glob
import FlashKV.Database.GlobLanguage
import FlashKV.Database.Growth
import FlashKV.Database.Index
import FlashKV.Database.Memory
import FlashKV.Database.Mutation
import FlashKV.Database.Operations
import FlashKV.Database.Reachable
import FlashKV.Database.Removal
import FlashKV.Database.Slice
import FlashKV.Database.Ttl
import FlashKV.Database.View
import FlashKV.Recency.LastUse
import FlashKV.Recency.Place
import FlashKV.Resp.CommandLine
import FlashKV.Resp.Extension
import FlashKV.Resp.Format
import FlashKV.Resp.Grammar
import FlashKV.Resp.InRange
import FlashKV.Resp.InlineLimit
import FlashKV.Resp.Parser
import FlashKV.Resp.Quote
import FlashKV.Resp.Rendering
import FlashKV.Resp.Reply
import FlashKV.Resp.RoundTrip
import FlashKV.Command.Access
import FlashKV.Command.Aggregates
import FlashKV.Command.Counter
import FlashKV.Command.Execution
import FlashKV.Command.Expiry
import FlashKV.Command.Failure
import FlashKV.Command.Frame
import FlashKV.Command.Growth
import FlashKV.Command.Handlers
import FlashKV.Command.Limit
import FlashKV.Command.Oom
import FlashKV.Command.Processor
import FlashKV.Command.Reachable
import FlashKV.Command.ReplyShape
import FlashKV.Command.Run
import FlashKV.Command.SetOptions
import FlashKV.Command.Simulation
import FlashKV.Command.Storage
import FlashKV.Command.Unlimited
import FlashKV.Reference.Engine
import FlashKV.Reference.Refinement
import FlashKV.Reference.Run
import FlashKV.Reference.TypedMap
import FlashKV.Persistence.Aof
import FlashKV.Persistence.Atomic
import FlashKV.Persistence.Complete
import FlashKV.Persistence.Load
import FlashKV.Persistence.Logging
import FlashKV.Persistence.Records
import FlashKV.Persistence.Reload
import FlashKV.Persistence.Replay
import FlashKV.Persistence.Restart
import FlashKV.Persistence.Rewritten
import FlashKV.Persistence.Sync
import FlashKV.Server.Chunks
import FlashKV.Server.Client
import FlashKV.Server.Durability
import FlashKV.Server.EventLoop
import FlashKV.Server.LastWrite
import FlashKV.Server.Output
import FlashKV.Server.Progress
import FlashKV.Server.Sequential
import FlashKV.Server.History
import FlashKV.Server.Counters
import FlashKV.Server.Requests
import FlashKV.Server.Crash
import FlashKV.Server.PowerLoss
import FlashKV.Server.Config
import FlashKV.Server.Boot
import FlashKV.Server.Cache
import FlashKV.Server.Sessions
import FlashKV.Server.PollLoop
import FlashKV.Server.PollRefinement
import FlashKV.Benchmark.ReplyLength
import FlashKV.Benchmark.Client
import FlashKV.Benchmark.LockStep
import FlashKV.Shell.Demo
import FlashKV.Shell.StateJson
import FlashKV.Shell.Local
