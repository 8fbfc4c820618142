import Newtmq.Library.Loop
import Newtmq.Library.Transition
import Newtmq.Library.FifoMap
import Newtmq.Library.Responder
import Newtmq.Library.Unwinding
import Newtmq.Library.KeyedList
import Newtmq.Library.BlockLog
import Newtmq.Library.Mutex
import Newtmq.Library.LinkedRing
import Newtmq.Library.PathWalk
import Newtmq.Library.RingFamily
import Newtmq.Library.DirectoryTree
import Newtmq.Library.LockedLog
import Newtmq.Core.Common
import Newtmq.Core.Frame
import Newtmq.Core.Stomp
import Newtmq.Core.Receiving
import Newtmq.Core.FrameObjects
import Newtmq.Core.Queue
import Newtmq.Core.QueueThreads
import Newtmq.Core.Headers
import Newtmq.Core.Transaction
import Newtmq.Core.TransactionLocks
import Newtmq.Core.SendingWorker
import Newtmq.Core.Persistent
import Newtmq.Core.ParseFrame
import Newtmq.Core.Delivery
import Newtmq.Core.CleanStop
import Newtmq.Core.FrameDisposal
import Newtmq.Core.Unpersist
import Newtmq.Core.Startup
import Newtmq.Core.Restarts
import Newtmq.Core.QueuePaths
import Newtmq.Core.SendMessage
import Newtmq.Core.Server
import Newtmq.Core.Handlers
import Newtmq.Core.FrameHandover
import Newtmq.Core.WireThreads
import Newtmq.Core.UnicastDelivery
import Newtmq.Core.Connections
import Newtmq.Core.Publishing
import Newtmq.Core.TopicWorkers
import Newtmq.Core.Newtctl
import Newtmq.Core.RejoinBuffer
import Newtmq.Core.Subscriptions
import Newtmq.Core.HeaderValues
import Newtmq.Core.SubscriptionHeaders
import Newtmq.Core.MulticastRound
import Newtmq.Core.SubscriberRegistry
import Newtmq.Core.Broker
import Newtmq.Core.ListHead
import Newtmq.Core.Signal
import Newtmq.Core.QueueBox
import Newtmq.Core.NewtctlWorker
import Newtmq.Core.MakeDirectories
import Newtmq.Core.Logger
import Newtmq.Proofs.LineSplit
import Newtmq.Proofs.RecvPass
import Newtmq.Proofs.RecvTermination
import Newtmq.Spec.Encoding
import Newtmq.Proofs.Entries
import Newtmq.Proofs.RecvDecode
import Newtmq.Spec.StreamReader
import Newtmq.Spec.BlockLayout
import Newtmq.Proofs.LineMemory
import Newtmq.Proofs.CutLines
import Newtmq.Proofs.CutBodies
import Newtmq.Proofs.RecvCuts
import Newtmq.Proofs.UnpersistLoops
import Newtmq.Proofs.ParseSteps
import Newtmq.Proofs.FrameLosses
import Newtmq.Proofs.FrameBoundaries
import Newtmq.Proofs.FrameRecovery
import Newtmq.Proofs.Recovery
import Newtmq.Proofs.ParseRuns
import Newtmq.Proofs.ParseEnds
import Newtmq.Spec.ParseCuts
import Newtmq.Proofs.ParseCuts
import Newtmq.Proofs.QueueStore
import Newtmq.Proofs.QueueMap
import Newtmq.Proofs.QueueRace
import Newtmq.Spec.SentIndex
import Newtmq.Spec.UnicastDelivery
import Newtmq.Spec.FrameSize
import Newtmq.Proofs.FrameSize
import Newtmq.Spec.ContentLength
import Newtmq.Proofs.ContentLength
import Newtmq.Proofs.HandedLines
import Newtmq.Spec.PublishedObjects
import Newtmq.Proofs.FrameObjects
import Newtmq.Spec.PublishedBody
import Newtmq.Proofs.PublishedBody
import Newtmq.Proofs.DeliverySteps
import Newtmq.Proofs.SentIndexFile
import Newtmq.Proofs.FileOrder
import Newtmq.Proofs.SentIndexOrder
import Newtmq.Spec.PersistedFrames
import Newtmq.Proofs.PersistedFrames
import Newtmq.Proofs.FrameDisposal
import Newtmq.Proofs.UnicastDelivery
import Newtmq.Spec.TransactionMap
import Newtmq.Spec.TransactionIsolation
import Newtmq.Spec.TransactionCalls
import Newtmq.Proofs.TransactionCommit
import Newtmq.Proofs.TransactionLocks
import Newtmq.Proofs.TransactionReplay
import Newtmq.Proofs.TransactionStore
import Newtmq.Proofs.ServerSteps
import Newtmq.Proofs.TransactionalSend
import Newtmq.Proofs.TransactionIsolation
import Newtmq.Proofs.FrameHandover
import Newtmq.Spec.MessageGrammar
import Newtmq.Proofs.MessageDecoding
import Newtmq.Proofs.WireThreads
import Newtmq.Spec.Recipients
import Newtmq.Proofs.Registration
import Newtmq.Proofs.Recipients
import Newtmq.Spec.TopicWorkers
import Newtmq.Proofs.TopicWorkers
import Newtmq.Spec.Subscriptions
import Newtmq.Proofs.Subscriptions
import Newtmq.Spec.SubscriptionHeaders
import Newtmq.Spec.SubscriberRegistry
import Newtmq.Proofs.SubscriptionHeaders
import Newtmq.Spec.MulticastRound
import Newtmq.Proofs.MulticastRound
import Newtmq.Proofs.SubscriberRegistry
import Newtmq.Spec.RejectedLines
import Newtmq.Proofs.RejectedLines
import Newtmq.Spec.SendAnswers
import Newtmq.Proofs.SendAnswers
import Newtmq.Spec.ConnectionOrder
import Newtmq.Proofs.ConnectionOrder
import Newtmq.Spec.ClientStream
import Newtmq.Proofs.FrameSeparation
import Newtmq.Spec.LineEnds
import Newtmq.Proofs.LineEnds
import Newtmq.Spec.Restart
import Newtmq.Proofs.Startup
import Newtmq.Proofs.Restart
import Newtmq.Spec.LongHeaders
import Newtmq.Proofs.ChunkLines
import Newtmq.Proofs.ShiftedBodies
import Newtmq.Proofs.LongHeaders
import Newtmq.Spec.OtherQueue
import Newtmq.Proofs.OtherQueue
import Newtmq.Spec.Newtctl
import Newtmq.Proofs.Newtctl
import Newtmq.Spec.ReplyTo
import Newtmq.Proofs.ReplyTo
import Newtmq.Spec.RejoinBuffer
import Newtmq.Proofs.RejoinBuffer
import Newtmq.Spec.RecoveryLoop
import Newtmq.Proofs.RecoveryLoop
import Newtmq.Spec.PendingCounters
import Newtmq.Proofs.PendingCounters
import Newtmq.Spec.HeaderValues
import Newtmq.Proofs.HeaderValues
import Newtmq.Spec.QueuePaths
import Newtmq.Proofs.QueuePaths
import Newtmq.Spec.SplitReads
import Newtmq.Proofs.SplitReads
import Newtmq.Spec.Broker
import Newtmq.Proofs.FiledFrames
import Newtmq.Proofs.ConnectionReads
import Newtmq.Proofs.Broker
import Newtmq.Spec.FrameOwnership
import Newtmq.Proofs.FrameOwnership
import Newtmq.Spec.Answers
import Newtmq.Proofs.Answers
import Newtmq.Spec.ListHead
import Newtmq.Proofs.ListHead
import Newtmq.Spec.QueueBox
import Newtmq.Proofs.QueueBox
import Newtmq.Spec.Signal
import Newtmq.Proofs.Signal
import Newtmq.Spec.NewtctlWorker
import Newtmq.Proofs.NewtctlWorker
import Newtmq.Spec.MakeDirectories
import Newtmq.Proofs.MakeDirectories
import Newtmq.Spec.Logger
import Newtmq.Proofs.Logger
import Newtmq.Spec.Lives
import Newtmq.Proofs.Lives
