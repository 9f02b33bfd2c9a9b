import MeteredLedger.Bytes
import MeteredLedger.Bytes.Lemmas
import MeteredLedger.Word
import MeteredLedger.Word.Lemmas
import MeteredLedger.Digest.Words
import MeteredLedger.Digest.Keccak256
import MeteredLedger.Digest.Sha256
import MeteredLedger.Digest.Sha512
import MeteredLedger.Digest.Ripemd160
import MeteredLedger.Digest.Blake3
import MeteredLedger.Ed25519.Curve
import MeteredLedger.Ed25519.Signature
import MeteredLedger.Fault
import MeteredLedger.GasPool
import MeteredLedger.Rejection
import MeteredLedger.Derivation
import MeteredLedger.Journal
import MeteredLedger.Receipt
import MeteredLedger.MerkleTree
import MeteredLedger.Transaction.Wire
import MeteredLedger.Transaction.Basic
import MeteredLedger.Block.Basic
import MeteredLedger.Config.Json
import MeteredLedger.Config.Basic
import MeteredLedger.World.Basic
import MeteredLedger.Context
import MeteredLedger.Frame.Basic
import MeteredLedger.Frame.Precompile
import MeteredLedger.Frame.Trace
import MeteredLedger.Machine.Op
import MeteredLedger.Machine.Basic
import MeteredLedger.Machine.Script
import MeteredLedger.Machine.Dispatch
import MeteredLedger.Transaction.Apply
import MeteredLedger.Block.Execute
import MeteredLedger.Proofs.LedgerOps
import MeteredLedger.Proofs.Rewind
import MeteredLedger.Proofs.CopyStack
import MeteredLedger.Proofs.FrameConduct
import MeteredLedger.Proofs.FrameRelation
import MeteredLedger.Proofs.LogCounter
import MeteredLedger.Proofs.FrameAtomicity
import MeteredLedger.Proofs.FrameGas
import MeteredLedger.Proofs.MessageConduct
import MeteredLedger.Proofs.TotalBalance
import MeteredLedger.Proofs.Conservation
import MeteredLedger.Proofs.ReadOnly
import MeteredLedger.Proofs.WriteProtection
import MeteredLedger.Proofs.FrameCost
import MeteredLedger.Proofs.TransactionConduct
import MeteredLedger.Proofs.SignedTransaction
import MeteredLedger.Proofs.BlockRun
import MeteredLedger.Proofs.RejectedTransaction
import MeteredLedger.Proofs.BlockGas
import MeteredLedger.Proofs.MessageStart
import MeteredLedger.Proofs.MessageOpening
import MeteredLedger.Proofs.Permanence
import MeteredLedger.Proofs.DeployedCode
import MeteredLedger.Proofs.ReplayProtection
import MeteredLedger.Proofs.FailedTransaction
import MeteredLedger.Proofs.SealedBlock
import MeteredLedger.Proofs.WireForm
import MeteredLedger.Proofs.AbortedBlock
import MeteredLedger.Proofs.MerkleBinding
import MeteredLedger.Proofs.MerkleRecursion
import MeteredLedger.Proofs.StateCommitment
import MeteredLedger.Proofs.EmittedLogs
import MeteredLedger.Proofs.BlockLogs
import MeteredLedger.Proofs.Acceptance
import MeteredLedger.Proofs.CodelessStorage
import MeteredLedger.Proofs.Evaluation
import MeteredLedger.Proofs.InterpreterFaults
import MeteredLedger.Proofs.SigningPayload
import MeteredLedger.Proofs.WireDefects
import MeteredLedger.Proofs.GasSettlement
import MeteredLedger.Proofs.SuccessfulCreation
import MeteredLedger.Proofs.CreationAddress
import MeteredLedger.Proofs.BloomUnion
import MeteredLedger.Proofs.Untraced
import MeteredLedger.Proofs.OutermostTrace
import MeteredLedger.Proofs.JournalHistory
import MeteredLedger.Proofs.Representation
import MeteredLedger.Proofs.Movement
import MeteredLedger.Proofs.PlainTransfer
