import SlidingTally.Rehearsal.Session
import SlidingTally.Window.Untyped
import SlidingTally.Proofs.Metrics.Totals
import SlidingTally.Proofs.Service.Accounting
import SlidingTally.Proofs.Service.Composite
import SlidingTally.Proofs.Service.Dormancy
import SlidingTally.Proofs.Service.FailOpen
import SlidingTally.Proofs.Service.Metering
import SlidingTally.Proofs.Store.ExpiringMap
import SlidingTally.Proofs.Store.Faulty
import SlidingTally.Proofs.Window.AllOrNothing
import SlidingTally.Proofs.Window.BucketExpiry
import SlidingTally.Proofs.Window.ExactCount
import SlidingTally.Proofs.Service.Answers
import SlidingTally.Proofs.Service.WritePath
import SlidingTally.Proofs.Number.Sums
import SlidingTally.Proofs.Service.ReadBack
import SlidingTally.Proofs.Number.Digits
import SlidingTally.Proofs.Window.CountingStore
import SlidingTally.Proofs.Store.RedisServer
import SlidingTally.Proofs.Window.RedisCount
import SlidingTally.Proofs.Store.DocumentDatabase
import SlidingTally.Proofs.Window.MongoCount
import SlidingTally.Proofs.Store.LingeringDocuments
import SlidingTally.Proofs.Store.Lifecycle
import SlidingTally.Proofs.Service.ReadOnly
import SlidingTally.Proofs.Service.LatestWrite
import SlidingTally.Proofs.Config.Boot
import SlidingTally.Proofs.Number.Exact
import SlidingTally.Proofs.Store.ClientCalls
import SlidingTally.Proofs.Store.ClientFaults
import SlidingTally.Proofs.Store.TimeToLive
import SlidingTally.Proofs.Metrics.Lines
import SlidingTally.Proofs.Config.Endpoint
import SlidingTally.Proofs.Window.Coverage
import SlidingTally.Proofs.Service.Served
import SlidingTally.Proofs.Service.WriteProtocol
import SlidingTally.Proofs.Service.ReadResult
import SlidingTally.Proofs.Window.DegradedRead
import SlidingTally.Proofs.Window.FanOut
import SlidingTally.Proofs.Window.Progress
import SlidingTally.Proofs.Store.ManyReads
import SlidingTally.Proofs.Store.FailedStarts
import SlidingTally.Proofs.Store.IntegerIncrements
import SlidingTally.Proofs.Text.Encoding
import SlidingTally.Proofs.Number.Spelling
import SlidingTally.Proofs.Config.ServerLists
import SlidingTally.Proofs.Service.FiniteReads
import SlidingTally.Proofs.Config.ConfiguredNodes
import SlidingTally.Proofs.Config.TimeoutVariable
import SlidingTally.Proofs.Store.Sweeping
import SlidingTally.Proofs.Service.DueLines
import SlidingTally.Proofs.Service.FailureLog
import SlidingTally.Proofs.Window.Listing
