import Precompiles.Foundations.Bytes

/-!
# RollupSettlement

A model of the example contract `RollupSettlement` of zk/IZK.sol and of the library function it
calls, `ZKLib.verifyRollupBatch`. The contract stores a rollup's id and its latest state root;
`settleBatch` asks the rollup verifier precompile to check a batch, requires that the batch start
from the latest root, moves the root to the batch's new root and emits `BatchSettled`.

The verifier precompile at `ROLLUP_VERIFY` is outside src/: the model takes its `staticcall` as a
function of the rollup id and the batch (their ABI encoding is injective), and a transaction
carries the function it meets, so that every theorem holds whatever the verifier answers, and
whenever its answers change between transactions.

* `runTxs_chain` (soundness): every run of `settleBatch` transactions, from any storage, is
  explained by a chain of verified batches. The batches that did not revert start from the
  latest root, each starts where the one before it ends, the last ends at the new latest root,
  the verifier accepted each of them, and the events are theirs, in order.
* `runTxs_of_chain` (completeness): a run of transactions whose batches the verifier accepts and
  which chain from the latest root settles every batch.
-/

namespace Precompiles.ZK

/-- Solidity's `bytes32`. -/
abbrev Bytes32 := FixedBytes 32

/-- How a call reverts: with `Error(reason)` from a failed `require`, or with no data, as a
failed `abi.decode` does. -/
inductive Revert
  | error (reason : String)
  | empty
  deriving DecidableEq, Repr

/-- `RollupBatch`. `settleBatch` reads the ids of the batch and its roots and transaction count;
the verifier reads the whole batch. -/
structure RollupBatch where
  batchId : Bytes32
  rollupId : Bytes32
  prevStateRoot : Bytes32
  newStateRoot : Bytes32
  transactionCount : UInt64
  proof : List UInt8
  l1BatchNum : UInt64
  timestamp : UInt64
  proposer : Address
  deriving DecidableEq

/-! ## `ZKLib.verifyRollupBatch` -/

/-- `abi.decode(result, (bool))`: a 32-byte word that must be 0 or 1. -/
def decodeBool (result : List UInt8) : Except Revert Bool :=
  if result.length < 32 then .error .empty
  else if beNat (result.take 32) = 0 then .ok false
  else if beNat (result.take 32) = 1 then .ok true
  else .error .empty

/-- The `staticcall` to `ROLLUP_VERIFY` with
`abi.encodeCall(IRollupVerifier.verifyBatch, (rollupId, batch))`: the returned bytes when the
call succeeds, `none` when it fails. -/
abbrev RollupVerifyCall := Bytes32 → RollupBatch → Option (List UInt8)

/-- `ZKLib.verifyRollupBatch`: `success && abi.decode(result, (bool))`, which decodes the result
only of a call that succeeded. -/
def verifyRollupBatch (staticcall : RollupVerifyCall) (rollupId : Bytes32) (batch : RollupBatch) :
    Except Revert Bool :=
  match staticcall rollupId batch with
  | some result => decodeBool result
  | none => .ok false

/-! ## The contract -/

/-- The storage of `RollupSettlement`. -/
structure RollupSettlement where
  rollupId : Bytes32
  latestStateRoot : Bytes32
  deriving DecidableEq

/-- The constructor: the rollup's id, and the zero root. -/
def RollupSettlement.new (rollupId : Bytes32) : RollupSettlement := ⟨rollupId, FixedBytes.zero 32⟩

/-- `BatchSettled(batchId, newStateRoot, txCount)`. -/
structure BatchSettled where
  batchId : Bytes32
  newStateRoot : Bytes32
  txCount : UInt64
  deriving DecidableEq

/-- The event `settleBatch` emits for a batch. -/
def RollupBatch.settled (batch : RollupBatch) : BatchSettled :=
  ⟨batch.batchId, batch.newStateRoot, batch.transactionCount⟩

/-- `settleBatch`: the storage after the call and the event it emits. -/
def RollupSettlement.settleBatch (s : RollupSettlement) (staticcall : RollupVerifyCall)
    (batch : RollupBatch) : Except Revert (RollupSettlement × BatchSettled) := do
  let valid ← verifyRollupBatch staticcall s.rollupId batch
  if ¬valid then throw (.error "Invalid batch proof")
  if batch.prevStateRoot ≠ s.latestStateRoot then throw (.error "Invalid prev state")
  pure ({ s with latestStateRoot := batch.newStateRoot }, batch.settled)

/-- A transaction calling `settleBatch`: the verifier's answers when it runs, and the batch. -/
structure SettleTx where
  staticcall : RollupVerifyCall
  batch : RollupBatch

/-- A transaction: a call that reverts leaves the storage as it was and emits nothing. -/
def RollupSettlement.execute (s : RollupSettlement) (tx : SettleTx) :
    RollupSettlement × List BatchSettled :=
  match s.settleBatch tx.staticcall tx.batch with
  | .ok (s', event) => (s', [event])
  | .error _ => (s, [])

/-- A run of transactions: the storage after them, and their events in order. -/
def RollupSettlement.runTxs : List SettleTx → RollupSettlement → RollupSettlement × List BatchSettled
  | [], s => (s, [])
  | tx :: txs, s =>
    ((runTxs txs (s.execute tx).1).1, (s.execute tx).2 ++ (runTxs txs (s.execute tx).1).2)

/-! ## The chain the settled batches form -/

/-- The root a list of batches leads to from `root`, when each starts where the one before it
ends, and `none` when one does not. -/
def chainEnd : Bytes32 → List RollupBatch → Option Bytes32
  | root, [] => some root
  | root, batch :: batches =>
    if batch.prevStateRoot = root then chainEnd batch.newStateRoot batches else none

/-- The batches the verifier accepts and which start at the latest root are settled. -/
theorem execute_of_accepted {s : RollupSettlement} {tx : SettleTx}
    (hv : verifyRollupBatch tx.staticcall s.rollupId tx.batch = .ok true)
    (hp : tx.batch.prevStateRoot = s.latestStateRoot) :
    s.execute tx = ({ s with latestStateRoot := tx.batch.newStateRoot }, [tx.batch.settled]) := by
  simp [RollupSettlement.execute, RollupSettlement.settleBatch, hv, hp, bind, Except.bind, pure,
    Except.pure]

/-- The others revert, and leave the storage as it was. -/
theorem execute_of_not_accepted {s : RollupSettlement} {tx : SettleTx}
    (h : ¬(verifyRollupBatch tx.staticcall s.rollupId tx.batch = .ok true ∧
      tx.batch.prevStateRoot = s.latestStateRoot)) : s.execute tx = (s, []) := by
  unfold RollupSettlement.execute RollupSettlement.settleBatch
  cases hv : verifyRollupBatch tx.staticcall s.rollupId tx.batch with
  | error e => rfl
  | ok valid =>
    cases valid
    · rfl
    · simp only [hv, true_and] at h
      simp [h, bind, Except.bind, pure, Except.pure]

/-- **Soundness.** Every run of `settleBatch` transactions, from any storage, is explained by a
chain of verified batches: those of the transactions that did not revert, in order. They chain
from the latest root to the new latest root, the verifier accepted each of them, the rollup id is
unchanged, and the events of the run are theirs. -/
theorem runTxs_chain (txs : List SettleTx) (s : RollupSettlement) :
    ∃ settled : List SettleTx, settled.Sublist txs ∧
      (s.runTxs txs).2 = settled.map (·.batch.settled) ∧
      chainEnd s.latestStateRoot (settled.map (·.batch)) = some (s.runTxs txs).1.latestStateRoot ∧
      (s.runTxs txs).1.rollupId = s.rollupId ∧
      ∀ tx ∈ settled, verifyRollupBatch tx.staticcall s.rollupId tx.batch = .ok true := by
  induction txs generalizing s with
  | nil => exact ⟨[], .slnil, rfl, rfl, rfl, by simp⟩
  | cons tx txs ih =>
    by_cases h : verifyRollupBatch tx.staticcall s.rollupId tx.batch = .ok true ∧
      tx.batch.prevStateRoot = s.latestStateRoot
    · obtain ⟨settled, hsub, hev, hchain, hid, hver⟩ :=
        ih { s with latestStateRoot := tx.batch.newStateRoot }
      refine ⟨tx :: settled, hsub.cons₂ tx, ?_, ?_, ?_, ?_⟩
      · simp [RollupSettlement.runTxs, execute_of_accepted h.1 h.2, hev]
      · simpa [RollupSettlement.runTxs, execute_of_accepted h.1 h.2, chainEnd, h.2] using hchain
      · simpa [RollupSettlement.runTxs, execute_of_accepted h.1 h.2] using hid
      · simpa [h.1] using hver
    · obtain ⟨settled, hsub, hev, hchain, hid, hver⟩ := ih s
      refine ⟨settled, hsub.cons tx, ?_, ?_, ?_, hver⟩ <;>
        simpa [RollupSettlement.runTxs, execute_of_not_accepted h]

/-- **Completeness.** A run of transactions whose batches the verifier accepts and which chain
from the latest root settles every batch, in order, and ends at the chain's last root. -/
theorem runTxs_of_chain (txs : List SettleTx) (s : RollupSettlement) {root : Bytes32}
    (hv : ∀ tx ∈ txs, verifyRollupBatch tx.staticcall s.rollupId tx.batch = .ok true)
    (hc : chainEnd s.latestStateRoot (txs.map (·.batch)) = some root) :
    s.runTxs txs = ({ s with latestStateRoot := root }, txs.map (·.batch.settled)) := by
  induction txs generalizing s with
  | nil =>
    obtain rfl : s.latestStateRoot = root := by simpa [chainEnd] using hc
    rfl
  | cons tx txs ih =>
    simp only [List.map_cons, chainEnd] at hc
    split_ifs at hc with hp
    have hs := execute_of_accepted (hv tx (.head txs)) hp
    simp [RollupSettlement.runTxs, hs,
      ih { s with latestStateRoot := tx.batch.newStateRoot } (fun tx' h => hv tx' (.tail tx h)) hc]

theorem runTxs_of_chain_of_single :
    (∀ tx ∈ [SettleTx.mk (fun _ _ => some (List.replicate 31 0 ++ [1]))
        ⟨default, default, default, .ofNat 32 1, 5, [], 0, 0, default⟩],
      verifyRollupBatch tx.staticcall (RollupSettlement.new default).rollupId tx.batch = .ok true) ∧
    chainEnd (RollupSettlement.new default).latestStateRoot
        ([SettleTx.mk (fun _ _ => some (List.replicate 31 0 ++ [1]))
          ⟨default, default, default, .ofNat 32 1, 5, [], 0, 0, default⟩].map (·.batch)) =
      some (.ofNat 32 1) ∧
    (RollupSettlement.new default).runTxs
        [SettleTx.mk (fun _ _ => some (List.replicate 31 0 ++ [1]))
          ⟨default, default, default, .ofNat 32 1, 5, [], 0, 0, default⟩] =
      (⟨default, .ofNat 32 1⟩, [⟨default, .ofNat 32 1, 5⟩]) :=
  have hv : ∀ tx ∈ [SettleTx.mk (fun _ _ => some (List.replicate 31 0 ++ [1]))
      ⟨default, default, default, .ofNat 32 1, 5, [], 0, 0, default⟩],
      verifyRollupBatch tx.staticcall (RollupSettlement.new default).rollupId tx.batch = .ok true :=
    fun tx h => by obtain rfl := List.mem_singleton.1 h; rfl
  have hc : chainEnd (RollupSettlement.new default).latestStateRoot
      ([SettleTx.mk (fun _ _ => some (List.replicate 31 0 ++ [1]))
        ⟨default, default, default, .ofNat 32 1, 5, [], 0, 0, default⟩].map (·.batch)) =
      some (.ofNat 32 1) := by decide
  ⟨hv, hc, runTxs_of_chain _ _ hv hc⟩

end Precompiles.ZK
