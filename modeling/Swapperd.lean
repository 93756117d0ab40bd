import Swapperd.CallProgram
import Swapperd.TransitionRuns
import Swapperd.RetryTask
import Swapperd.GoLibrary
import Swapperd.Foundation
import Swapperd.ImmediateSwapper
import Swapperd.ImmediatePasses
import Swapperd.ImmediateRuns
import Swapperd.DelayedSwapper
import Swapperd.DelayedRuns
import Swapperd.SwapBuilder
import Swapperd.SwapHandler
import Swapperd.BitcoinScript
import Swapperd.MirrorSwaps
import Swapperd.SwapContracts
import Swapperd.ContractWorld
import Swapperd.ContractRuns
import Swapperd.ContractDeadlines
import Swapperd.Atomicity
import Swapperd.TransactionCosts
import Swapperd.SwapAdmission
import Swapperd.SwapFunding
import Swapperd.OrderedStore
import Swapperd.SwapReceipts
import Swapperd.Storage
import Swapperd.StorageListing
import Swapperd.Daemon
import Swapperd.DaemonTokens
import Swapperd.DaemonRuns
import Swapperd.DaemonSwaps
import Swapperd.DaemonSecrets
import Swapperd.DaemonOwners
import Swapperd.DelayedAdmission
import Swapperd.WriteAhead
import Swapperd.BootloadFlag
import Swapperd.Statuses
import Swapperd.DaemonPaths
import Swapperd.ReceiptUpdates
import Swapperd.ReceiptQueries
import Swapperd.ReceiptCrashes
import Swapperd.BitcoinSpends
import Swapperd.DelayedFills
import Swapperd.BitcoinAmounts
import Swapperd.BitcoinRefunds
import Swapperd.SwapPosts
import Swapperd.SwapWrites
import Swapperd.RefusedSwaps
import Swapperd.RecordViews
import Swapperd.JsonText
import Swapperd.SignedDelayInfo
import Swapperd.DelayedPolls
import Swapperd.SecretExtraction
import Swapperd.SwapTicks
import Swapperd.RecordedCosts
import Swapperd.HttpServer
import Swapperd.TransferHistory
import Swapperd.BrokerFees
import Swapperd.BoundedChannel
import Swapperd.DaemonIntake
import Swapperd.JsonObjects
import Swapperd.JsonRecords
import Swapperd.RecordCodecs
import Swapperd.StoredDaemon
import Swapperd.HonestCompletion
import Swapperd.HonestViews
