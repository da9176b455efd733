import SupplyAudit.ActualSupplyLedger
import SupplyAudit.CutConsistency
import SupplyAudit.FaultTransparency
import SupplyAudit.LedgerTotals
import SupplyAudit.ReceiptAccounting
import SupplyAudit.SnapshotFidelity
import SupplyAudit.StateTrie
import SupplyAudit.HexText
import SupplyAudit.StakingClaims
import SupplyAudit.ActualSupply
import SupplyAudit.WrapperTotals
import SupplyAudit.ActualSupplyTotals
import SupplyAudit.StakingTotals
import SupplyAudit.SnapshotRows
import SupplyAudit.LedgerInputs
import SupplyAudit.IndependentSums
import SupplyAudit.LedgerAcceptance
import SupplyAudit.ReceiptReports
import SupplyAudit.PipelineAcceptance
import SupplyAudit.LabelledTrees
import SupplyAudit.TraceInspection
import SupplyAudit.TraceRule
import SupplyAudit.HarmonyAddress
import SupplyAudit.AuditFiles
import SupplyAudit.SourceAudit
import SupplyAudit.SourceAuditRuns
import SupplyAudit.DistinctListings
import SupplyAudit.SourceAuditSummary
import SupplyAudit.NonIssuanceAudit
import SupplyAudit.RevertLeakRetention
import SupplyAudit.LeakCredit
import SupplyAudit.NonIssuanceTotals
import SupplyAudit.KeyedSums
import SupplyAudit.NonIssuanceRows
import SupplyAudit.RevertLeakAgreement
import SupplyAudit.ClaimBounds
import SupplyAudit.MigrationPolicy
import SupplyAudit.MigrationStages
import SupplyAudit.LaterCutoffs
import SupplyAudit.IntervalAudit
import SupplyAudit.CarriedReceipts
import SupplyAudit.WorkerPool
import SupplyAudit.WoneEvents
import SupplyAudit.WoneScan
import SupplyAudit.RecoveryIssuance
import SupplyAudit.AdjacentWindows
import SupplyAudit.WindowCoverage
import SupplyAudit.WoneSupply
import SupplyAudit.DigitGroups
import SupplyAudit.XorRecurrence
import SupplyAudit.AddressChecksum
import SupplyAudit.AddressCoding
import SupplyAudit.BlacklistedAddresses
import SupplyAudit.AddressRoundTrip
import SupplyAudit.AddressSpellings
import SupplyAudit.OutgoingScan
import SupplyAudit.OutgoingAgreement
import SupplyAudit.KeyedDifference
import SupplyAudit.HistoricalStateDiff
import SupplyAudit.StateDiffExactness
import SupplyAudit.DelegatorClaims
import SupplyAudit.ClaimsDiff
import SupplyAudit.ClaimsDiffTotals
import SupplyAudit.ExploitFlow
import SupplyAudit.ValueMovements
import SupplyAudit.CappedShares
import SupplyAudit.RetainedCaps
import SupplyAudit.WordLoops
import SupplyAudit.BlockBodies
import SupplyAudit.StakingTargets
import SupplyAudit.StakingCalls
import SupplyAudit.IncomingReplay
import SupplyAudit.BlockLoops
import SupplyAudit.ReplayRanges
import SupplyAudit.TablePublication
import SupplyAudit.OutgoingTotals
import SupplyAudit.SourceAuditTotals
import SupplyAudit.ContractGroups
import SupplyAudit.UndelegationMint
import SupplyAudit.MintViews
import SupplyAudit.HistoricalClosure
import SupplyAudit.Reconciliation
import SupplyAudit.ComponentTotals
import SupplyAudit.FileStore
import SupplyAudit.LedgerPublication
import SupplyAudit.SourceAuditFile
import SupplyAudit.ChunkedScan
import SupplyAudit.IntervalRows
import SupplyAudit.Bisection
import SupplyAudit.CreatedAccounts
import SupplyAudit.TransitionBlocks
import SupplyAudit.WindowedFlow
import SupplyAudit.ReceiptDestinations
import SupplyAudit.Shard1Balance
import SupplyAudit.StakingCalldata
import SupplyAudit.TargetSummaries
import SupplyAudit.ByteOrder
import SupplyAudit.KeyFamilies
import SupplyAudit.RpcQuantities
import SupplyAudit.DatabasePreflight
import SupplyAudit.AddressListAudit
import SupplyAudit.AddressListExactness
import SupplyAudit.BatchReplies
import SupplyAudit.StateDiffRpc
import SupplyAudit.StateDiffAcceptance
import SupplyAudit.ExportedStateDiff
import SupplyAudit.WoneHolders
import SupplyAudit.DeploymentSearch
import SupplyAudit.DecimalText
import SupplyAudit.WoneExport
import SupplyAudit.TextLines
import SupplyAudit.FileManifests
import SupplyAudit.SourceManifest
import SupplyAudit.ManifestAgreement
import SupplyAudit.PagedListing
import SupplyAudit.HistoricalStaking
import SupplyAudit.ExploitRecords
import SupplyAudit.ExploitPhases
import SupplyAudit.ExploitReceipts
import SupplyAudit.ExploitTraces
import SupplyAudit.ExploitScopes
import SupplyAudit.StakingExports
