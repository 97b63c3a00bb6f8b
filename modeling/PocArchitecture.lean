import PocArchitecture.Lib.Machine
import PocArchitecture.Lib.KeyValue
import PocArchitecture.Lib.Expiring
import PocArchitecture.Lib.FirstMatch
import PocArchitecture.Lib.Occurrence
import PocArchitecture.Lib.Collection
import PocArchitecture.Lib.ExtendedRat
import PocArchitecture.Lib.Base64
import PocArchitecture.Lib.KeyedSum
import PocArchitecture.Lib.RedisSets
import PocArchitecture.Lib.Timeline
import PocArchitecture.Lib.Json
import PocArchitecture.Lib.Rereading
import PocArchitecture.Domain.Publisher
import PocArchitecture.Domain.BaseAggregate
import PocArchitecture.Infrastructure.StateRepo
import PocArchitecture.Infrastructure.EventSourcingRepo
import PocArchitecture.Participants.BigNumber
import PocArchitecture.PublicMessages.Types
import PocArchitecture.Domain.EventSourcing
import PocArchitecture.Participants.Entity
import PocArchitecture.Participants.Repos
import PocArchitecture.Participants.Messages
import PocArchitecture.Participants.Aggregate
import PocArchitecture.Participants.Verdict
import PocArchitecture.Participants.WorldInvariant
import PocArchitecture.Participants.Announcement
import PocArchitecture.Participants.LaterLoads
import PocArchitecture.Participants.Rejection
import PocArchitecture.Participants.Recovery
import PocArchitecture.Participants.TwoInstances
import PocArchitecture.Transfers.Entity
import PocArchitecture.Transfers.Messages
import PocArchitecture.Transfers.Repos
import PocArchitecture.Transfers.Aggregate
import PocArchitecture.Transfers.Verdict
import PocArchitecture.Transfers.History
import PocArchitecture.Transfers.LifeCycle
import PocArchitecture.Transfers.Settlement
import PocArchitecture.Transfers.InvalidFulfil
import PocArchitecture.Participants.Positions
import PocArchitecture.Participants.Limits
import PocArchitecture.Participants.FailureFree
import PocArchitecture.Participants.ReadSide
import PocArchitecture.Participants.Outcome
import PocArchitecture.Participants.Accounting
import PocArchitecture.Switch.System
import PocArchitecture.Switch.Custody
import PocArchitecture.Switch.NetDebitCap
import PocArchitecture.Switch.Delivery
import PocArchitecture.Switch.Orderly
import PocArchitecture.Switch.Conservation
import PocArchitecture.Switch.Redelivery
import PocArchitecture.Transfers.Failures
import PocArchitecture.Participants.LastSnapshot
import PocArchitecture.Participants.CacheTransparency
import PocArchitecture.Switch.OneVerdict
import PocArchitecture.Infrastructure.Restart
import PocArchitecture.Infrastructure.Expiry
import PocArchitecture.Switch.Restart
import PocArchitecture.Transfers.ReadSide
import PocArchitecture.Transfers.Rereading
import PocArchitecture.Participants.Rereading
import PocArchitecture.Infrastructure.DuplicateRepo
import PocArchitecture.Transfers.DuplicateStore
import PocArchitecture.Transfers.RepoChoice
import PocArchitecture.Transfers.Expiry
import PocArchitecture.Infrastructure.Consumer
import PocArchitecture.Infrastructure.ConsumeLoop
import PocArchitecture.Infrastructure.GenericConsumer
import PocArchitecture.Infrastructure.StreamConsumer
import PocArchitecture.Infrastructure.KafkaJsConsumer
import PocArchitecture.CentralServicesStream.Consumer
import PocArchitecture.CentralServicesStream.ConsumeRecursive
import PocArchitecture.CentralServicesStream.Producers
import PocArchitecture.MlApiAdapter.Notification
import PocArchitecture.Infrastructure.Callbacks
import PocArchitecture.Domain.CommandPromise
import PocArchitecture.Domain.CmdHandler
import PocArchitecture.Transfers.CmdHandler
import PocArchitecture.Participants.CmdHandler
import PocArchitecture.Switch.KeepsConsuming
import PocArchitecture.Infrastructure.Producer
import PocArchitecture.Infrastructure.ProducerPromise
import PocArchitecture.Infrastructure.KafkaProducers
import PocArchitecture.Participants.SnapshotOperator
import PocArchitecture.Participants.SnapshotSchedule
import PocArchitecture.Participants.AllIds
import PocArchitecture.Switch.EventHandlers
import PocArchitecture.Switch.CommandPartition
import PocArchitecture.Infrastructure.Fetcher
import PocArchitecture.Domain.PolledLoad
import PocArchitecture.Participants.IncompleteFetch
import PocArchitecture.LibUtilities.TraceTools
import PocArchitecture.Devtools.Settled
import PocArchitecture.Participants.Room
import PocArchitecture.Switch.Requests
import PocArchitecture.Devtools.Reconciled
import PocArchitecture.Devtools.Paid
import PocArchitecture.MlApiAdapter.Complete
