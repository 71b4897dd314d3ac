import OpenSsp.Lib.Prog
import OpenSsp.Lib.Machine
import OpenSsp.Lib.Table
import OpenSsp.Lib.Uuid
import OpenSsp.Lib.Sha256
import OpenSsp.Lightning
import OpenSsp.Transfer
import OpenSsp.Db
import OpenSsp.Api
import OpenSsp.Spark
import OpenSsp.Ldk
import OpenSsp.Graphql
import OpenSsp.World
import OpenSsp.Lib.History
import OpenSsp.Contract
import OpenSsp.SparkContract
import OpenSsp.LdkContract
import OpenSsp.GraphqlContract
import OpenSsp.DbSteps
import OpenSsp.Growth
import OpenSsp.Knowledge
import OpenSsp.ReceiveInvariant
import OpenSsp.ReceivePayout
import OpenSsp.ReceiveFailure
import OpenSsp.ReceiveCompletion
import OpenSsp.OfferPayout
import OpenSsp.Auth
import OpenSsp.SessionOwner
import OpenSsp.LeafPlan
import OpenSsp.SplitDb
import OpenSsp.LeafSplit
import OpenSsp.SplitContract
import OpenSsp.SplitCheckpoint
import OpenSsp.Bitcoin
import OpenSsp.SendFunding
import OpenSsp.RouteCap
import OpenSsp.ChallengeUse
import OpenSsp.Lib.Sweep
import OpenSsp.Recovery
import OpenSsp.Reconcile
import OpenSsp.TransferIds
import OpenSsp.SendIdempotency
import OpenSsp.Coop.Db
import OpenSsp.Coop.Exit
import OpenSsp.Coop.Balance
import OpenSsp.Coop.Contract
import OpenSsp.Coop.Calls
import OpenSsp.Coop.Run
import OpenSsp.Coop.Reservation
import OpenSsp.Coop.Payout
import OpenSsp.Coop.Conservation
import OpenSsp.Coop.ExitFunding
import OpenSsp.Coop.Expiry
import OpenSsp.Coop.FeeBump
import OpenSsp.JustInTime
import OpenSsp.Denominations
import OpenSsp.SplitKeys
import OpenSsp.Lib.Calls
import OpenSsp.Lib.Eval
import OpenSsp.ReceiveLiquidity
import OpenSsp.InternalSend
import OpenSsp.SendOutcome
import OpenSsp.OfferSubmission
import OpenSsp.TransferSpelling
import OpenSsp.Lib.Rfc3339
import OpenSsp.SessionText
import OpenSsp.FailureReason
import OpenSsp.SendAmount
import OpenSsp.Deposit.Db
import OpenSsp.Deposit.Claim
import OpenSsp.Deposit.Calls
import OpenSsp.Deposit.Finality
import OpenSsp.Deposit.Record
import OpenSsp.Deposit.Ledger
import OpenSsp.Deposit.Scan
import OpenSsp.Deposit.Exposure
import OpenSsp.Deposit.Fixed
import OpenSsp.Deposit.Signing
import OpenSsp.Deposit.Node
import OpenSsp.Deposit.Backing
import OpenSsp.Deposit.Credits
import OpenSsp.Lib.Base64
import OpenSsp.Lib.JsonText
import OpenSsp.Lib.Keyset
import OpenSsp.RequestHistory
import OpenSsp.Lib.Trigger
import OpenSsp.Updates.Db
import OpenSsp.Updates.Write
import OpenSsp.Updates.Response
import OpenSsp.Updates.Touch
import OpenSsp.Updates.Invariant
import OpenSsp.Updates.UpdatedAt
import OpenSsp.Lib.Projection
import OpenSsp.Quotes.Manifest
import OpenSsp.Quotes.Machine
import OpenSsp.Quotes.Use
import OpenSsp.Webhooks.Db
import OpenSsp.Webhooks.Machine
import OpenSsp.Webhooks.Delivery
import OpenSsp.PrepaidSwap
import OpenSsp.OrderContract
import OpenSsp.ReceiveFinality
import OpenSsp.SendFinality
import OpenSsp.Resubmission
import OpenSsp.Lib.GraphqlSyntax
import OpenSsp.Aliases
import OpenSsp.AliasedResponse
import OpenSsp.Lib.Cidr
import OpenSsp.Lib.Refine
import OpenSsp.Webhooks.Destination
import OpenSsp.Webhooks.Client
import OpenSsp.Lib.LockOrder
import OpenSsp.Deadlock
import OpenSsp.Deposit.Deadlock
import OpenSsp.Coop.Deadlock
import OpenSsp.Lib.Sum
import OpenSsp.Lib.DurableQueue
import OpenSsp.EmbeddedEvents
import OpenSsp.Lib.Framing
import OpenSsp.Deposit.Authorization
