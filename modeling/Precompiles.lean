import Precompiles.Foundations.Bytes
import Precompiles.Dex.Transmuter.Model
import Precompiles.Dex.Transmuter.Reconcile
import Precompiles.Dex.Transmuter.Invariant
import Precompiles.Dex.Transmuter.Steps
import Precompiles.Dex.Transmuter.Claims
import Precompiles.Dex.Transmuter.Deposit
import Precompiles.Dex.Transmuter.Storage
import Precompiles.Dex.Transmuter.Ledger
import Precompiles.Dex.Transmuter.Conservation
import Precompiles.Gpu.NVTrust.Quote
import Precompiles.Gpu.NVTrust.RoundTrip
import Precompiles.Gpu.NVTrust.Verify
import Precompiles.Gpu.NVTrust.SignedMessage
import Precompiles.Modules.Registerer
import Precompiles.PQCrypto.Contract
import Precompiles.PQCrypto.Frames
import Precompiles.PQCrypto.Run
import Precompiles.Secp256r1.Contract
import Precompiles.PQCrypto.Requests
import Precompiles.Blake3.Lib
import Precompiles.Blake3.MerkleProof
import Precompiles.Dex.Transmuter.Views
import Precompiles.Dex.Transmuter.Locking
import Precompiles.ZK.RollupSettlement
