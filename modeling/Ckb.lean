import Ckb.Lib.Checked
import Ckb.Lib.KeyValue
import Ckb.Lib.Except
import Ckb.Lib.Entries
import Ckb.Core.Types
import Ckb.Core.Block
import Ckb.Core.Cell
import Ckb.Core.BlockResolution
import Ckb.Core.TransactionMeta
import Ckb.Shared.CellSet
import Ckb.Shared.ChainState
import Ckb.Script.Verify
import Ckb.Script.Dao
import Ckb.Pow.Cuckoo
import Ckb.Miner.CuckooSimple
import Ckb.Miner.CuckooForest
import Ckb.Verification.TransactionVerifier
import Ckb.Verification.Accepted
import Ckb.Chain.Service
import Ckb.Chain.ForkChoice
import Ckb.Chain.Convergence
import Ckb.Chain.ProposalWindow
import Ckb.Lib.Memory
import Ckb.Script.Syscalls
import Ckb.Lib.LinkedMap
import Ckb.Shared.TxPool
import Ckb.Shared.ChainStatePool
import Ckb.Shared.PoolRuns
import Ckb.Core.Builder
import Ckb.Miner.BlockAssembler
import Ckb.Sync.Relayer
import Ckb.Protocol.Wire
import Ckb.Miner.Template
import Ckb.Spec.Epoch
import Ckb.Dao.Calculation
import Ckb.Sync.InflightBlocks
import Ckb.Shared.OrphanRelease
import Ckb.Lib.BucketRelease
import Ckb.Sync.OrphanBlockPool
import Ckb.Sync.SkipList
import Ckb.Chain.FindFork
import Ckb.Sync.Locator
import Ckb.Chain.MainIndex
import Ckb.Chain.CurrentEpoch
import Ckb.Crypto.Bech32
import Ckb.Lib.Codec
import Ckb.Store.FlatBlockBody
import Ckb.Sync.PeerSync
import Ckb.Sync.PeerSyncRuns
import Ckb.Sync.BlockFetcher
import Ckb.Sync.BlockDownload
import Ckb.Sync.Synchronizer
