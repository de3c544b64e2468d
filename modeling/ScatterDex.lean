import ScatterDex.Circuit.Claim
import ScatterDex.Protocol.MerkleAgreement
import ScatterDex.Protocol.SingleSpend
import ScatterDex.Protocol.UserProtection
import ScatterDex.Protocol.ClaimsSolvency
import ScatterDex.Protocol.FreshNotes
import ScatterDex.Protocol.ClaimPayment
import ScatterDex.Contract.BatchAuthorizeVerifier
import ScatterDex.Protocol.BatchVerification
import ScatterDex.Protocol.BondAccounting
import ScatterDex.Protocol.MatchAcceptance
import ScatterDex.Protocol.Attestation
import ScatterDex.Protocol.OpenOrders
import ScatterDex.Protocol.FeeAccounting
import ScatterDex.Protocol.ProverCompleteness
import ScatterDex.Protocol.FeeTimelock
import ScatterDex.Protocol.RelayerRemoval
import ScatterDex.Protocol.RootHistory
import ScatterDex.Protocol.ClaimsRegistration
import ScatterDex.Protocol.WithdrawRange
import ScatterDex.Protocol.PoolTree
import ScatterDex.Protocol.DepositSpendable
import ScatterDex.Sdk.CommitmentTree
import ScatterDex.Protocol.LeafTrust
import ScatterDex.Protocol.ClaimPackages
import ScatterDex.Protocol.ClaimRepair
import ScatterDex.Relayer.AuthorizeRoutes
import ScatterDex.Protocol.PairIndex
import ScatterDex.Protocol.TerminalStatuses
import ScatterDex.Protocol.StrandedOrders
import ScatterDex.Protocol.SettledOrders
import ScatterDex.Protocol.PendingSlots
import ScatterDex.Protocol.SignalAgreement
import ScatterDex.Protocol.EventIndexing
import ScatterDex.Protocol.BookCounters
import ScatterDex.Protocol.VerifierProgress
import ScatterDex.Protocol.ProofService
import ScatterDex.Pay.RealSettle
import ScatterDex.Protocol.ChangeNote
import ScatterDex.Protocol.TreeProofs
import ScatterDex.Protocol.PayoutRecovery
import ScatterDex.Protocol.NotePicking
import ScatterDex.Protocol.BatchFees
import ScatterDex.Protocol.NoteDurability
import ScatterDex.Protocol.LastWriteWins
import ScatterDex.Protocol.VaultMirror
import ScatterDex.Protocol.ClaimMarks
import ScatterDex.Protocol.RunsScan
import ScatterDex.Protocol.TreasuryAttribution
import ScatterDex.Contract.IdentityGate
import ScatterDex.Protocol.GateRegistries
import ScatterDex.Protocol.RemoteOrders
import ScatterDex.Protocol.ClaimsBackup
import ScatterDex.Protocol.CrossAppLocks
import ScatterDex.Protocol.ClaimLinks
import ScatterDex.Protocol.InboxIdentity
import ScatterDex.Protocol.RecipientCsv
import ScatterDex.Protocol.OrderIdentity
import ScatterDex.Protocol.SettlementBackfill
import ScatterDex.Protocol.SettlementDelivery
import ScatterDex.Library.Interrupted
import ScatterDex.Pay.RealDeposit
import ScatterDex.Pro.Flows
import ScatterDex.Protocol.DurableSecrets
