import RtspPush.Lib.StartCode
import RtspPush.Lib.Machine
import RtspPush.Lib.Refinement
import RtspPush.Lib.Potential
import RtspPush.Lib.Ledger
import RtspPush.Lib.DropOldest
import RtspPush.Lib.FirstWins
import RtspPush.Lib.RequestLog
import RtspPush.Lib.Traced
import RtspPush.Lib.Monitor
import RtspPush.AnnexB.Split
import RtspPush.AnnexB.Encode
import RtspPush.AnnexB.Decompose
import RtspPush.AnnexB.SizeT
import RtspPush.Queue.Basic
import RtspPush.Queue.Push
import RtspPush.Queue.Pure
import RtspPush.Queue.Padding
import RtspPush.Queue.History
import RtspPush.Queue.Grouping
import RtspPush.Queue.RoundTrip
import RtspPush.Queue.Timestamps
import RtspPush.Queue.ParameterSets
import RtspPush.Queue.SizeT
import RtspPush.Queue.Threads
import RtspPush.Delivery.Basic
import RtspPush.Delivery.Step
import RtspPush.Delivery.Registry
import RtspPush.Delivery.Wakeup
import RtspPush.Delivery.Lossless
import RtspPush.Delivery.Request
import RtspPush.Delivery.Leaks
import RtspPush.Delivery.Accounting
import RtspPush.Delivery.Quiescence
import RtspPush.Service.Basic
import RtspPush.Service.Step
import RtspPush.Service.Session
import RtspPush.Service.Handle
import RtspPush.Service.StopSignal
import RtspPush.Service.StopProgress
import RtspPush.Service.Callers
import RtspPush.Service.RunningFlag
import RtspPush.Service.StartDecision
import RtspPush.Service.ConcurrentStop
import RtspPush.Service.Shutdown
import RtspPush.Service.Resources
import RtspPush.Service.Configuration
import RtspPush.CApi.Basic
import RtspPush.CApi.Step
import RtspPush.CApi.Chronicle
import RtspPush.CApi.Isolation
import RtspPush.CApi.StartResult
import RtspPush.CApi.PublishedURL
import RtspPush.CApi.Configuration
import RtspPush.CApi.Results
import RtspPush.CApi.Calls
