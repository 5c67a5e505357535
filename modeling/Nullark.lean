import Nullark.Agreement
import Nullark.Pool.Binding
import Nullark.Pool.Capacity
import Nullark.Pool.Fees
import Nullark.Pool.NoteLogs
import Nullark.HashAgreement
import Nullark.Web.DepositProver
import Nullark.Sdk.HonestWithdraw
import Nullark.Sdk.DepositRecovery
import Nullark.Web.WalletNotes
import Nullark.Sdk.RootChain
import Nullark.Relay.FeePolicy
import Nullark.Relay.Queue
import Nullark.Indexer.Simulation
import Nullark.Indexer.RecoveryApi
import Nullark.Js.OutputNoteBinding
import Nullark.Web.Withdraw
import Nullark.Relay.HonestCalldata
import Nullark.Relay.Totality
import Nullark.Sdk.CalldataBinding
import Nullark.Sdk.PublicInputBinding
import Nullark.Indexer.Reingest
import Nullark.Indexer.MissingRanges
import Nullark.Indexer.PoolLogs
import Nullark.Indexer.HighPaths
import Nullark.Web.SpentStatus
import Nullark.Sdk.ClientNotes
import Nullark.Circuit.V11
import Nullark.PoolV11.Conservation
import Nullark.Sdk.PrepareWithdrawal
import Nullark.Sdk.RootLogs
import Nullark.Web.NoteSelection
import Nullark.Web.NoteRecords
import Nullark.Web.WithdrawCalldata
import Nullark.Relay.RateLimit
import Nullark.KitAgreement
import Nullark.Web.VaultStorage
import Nullark.Js.Doubles
import Nullark.Lib.FixedPoint
import Nullark.Lib.While
import Nullark.LogFetching
import Nullark.Web.EthAmounts
import Nullark.ProofBytes
import Nullark.Core.CanonicalJson
import Nullark.Core.RealProofModel
import Nullark.Core.Notes
import Nullark.Web.EphemeralSecrets
import Nullark.RecoveryAgreement
import Nullark.Verifier.Deployed
import Nullark.Verifier.V11
import Nullark.Cli.Session
import Nullark.Sdk.Redaction
import Nullark.Cli.Printing
