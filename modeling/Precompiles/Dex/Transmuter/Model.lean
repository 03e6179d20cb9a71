import Precompiles.Foundations.Bytes

/-!
# The Transmuter

A model of `dex/transmuter.go`. A `Transmuter` holds the two in-memory maps of the Go struct:
the state of each synthetic token and the cache of stakes. Every call also reads and writes the
host `StateDB`, of which the model keeps what a Transmuter call reads back: the storage words
saved under the stake prefix. The balances it writes are written by the token transfers, which a
call returns in order; `Ledger` applies them to the host's balances.

A call returns Go's result or error together with the Transmuter and the StateDB after it and its
transfers (`Outcome`): a failed call can still have changed the cache (`getStake` caches a stake
it decodes from storage), and `claim` returns zero after reconciling the cached stake in place.

Amounts are `*big.Int` in Go and `ℤ` here; `big.Int.Div` is Euclidean division, which is
`Int.ediv`. The calls a run is made of are `Call`, and `Reachable` is the set of states a run
from `newTransmuter` reaches over a StateDB without stake words.
-/

namespace Precompiles.Dex

/-- Modelled from the spec: `Q96` is declared in the dex package outside src/; the spec's
exchange rate is a Q96 fixed-point index, so its unit is `2 ^ 96` (written out, so that
concrete runs evaluate). -/
def Q96 : ℤ := 79228162514264337593543950336

theorem Q96_eq : Q96 = 2 ^ 96 := by norm_num [Q96]

theorem Q96_pos : 0 < Q96 := by norm_num [Q96]

/-- The errors a Transmuter call returns. -/
inductive TransmuterError
  | errSyntheticNotRegistered
  | errInvalidPositionSize
  | errTransmuterEmpty
  deriving DecidableEq, Repr

/-- `TransmuterStake`. Its `Owner` and `SyntheticToken` fields are written when the stake is
created and never read. -/
structure TransmuterStake where
  stakedAmount : ℤ
  unclaimedAmount : ℤ
  lastUpdateIndex : ℤ
  deriving DecidableEq, Repr

/-- `TransmuterState`, one per synthetic token. Its `SyntheticToken` field is the key it is
saved under, and `UnderlyingAsset` is only passed to the token transfers. -/
structure TransmuterState where
  exchangeBuffer : ℤ
  totalStaked : ℤ
  exchangeRate : ℤ
  deriving DecidableEq, Repr

/-- The key of a stake. `stakeKey` hashes the synthetic token's and the owner's bytes with
BLAKE3; the model keeps the pair it hashes, taking the hash to be collision-free. -/
abbrev StakeKey := Address × Address

/-- `stakeKey`. -/
def stakeKey (synthetic owner : Address) : StakeKey := (synthetic, owner)

/-- The in-memory part of a `Transmuter`: `states` and the `stakes` cache. -/
structure Transmuter where
  states : Address → Option TransmuterState
  stakes : StakeKey → Option TransmuterStake

/-- `NewTransmuter`. -/
def newTransmuter : Transmuter := ⟨fun _ => none, fun _ => none⟩

/-- The part of the host `StateDB` that a Transmuter call reads: the storage word under the
precompile's address at `makeStorageKey(transmuterStakePrefix, key)`, by stake key. -/
structure StateDB where
  stakeWords : StakeKey → Hash

/-- A StateDB that holds no stake word. -/
def StateDB.NoStakeWords (db : StateDB) : Prop := ∀ k, db.stakeWords k = FixedBytes.zero 32

/-- An account a transfer moves balance between: the precompile's own, `transmuterAddr`, whose
value `TransmuterAddress` is declared outside src/, or another one. -/
inductive Account
  | transmuter
  | user (addr : Address)
  deriving DecidableEq

/-- A call of `transferSynthetic` or `transferUnderlying`. The two helpers have one body, which
reads neither the token nor the currency it is given, so a transfer is two accounts and an
amount. -/
structure Transfer where
  src : Account
  dst : Account
  amount : ℤ
  deriving DecidableEq

/-- What a call returns, with the Transmuter and the StateDB after it and the transfers it made
on the StateDB's balances, in order. -/
structure Outcome (α : Type) where
  result : Except TransmuterError α
  transmuter : Transmuter
  db : StateDB
  transfers : List Transfer

namespace Transmuter

/-- Store a stake in the cache. -/
def setStake (t : Transmuter) (key : StakeKey) (stake : TransmuterStake) : Transmuter :=
  { t with stakes := Function.update t.stakes key (some stake) }

/-- `saveState`: store a token's state. The storage word it also writes is never read back. -/
def saveState (t : Transmuter) (syntheticToken : Address) (state : TransmuterState) :
    Transmuter :=
  { t with states := Function.update t.states syntheticToken (some state) }

@[simp] theorem setStake_states (t : Transmuter) (k : StakeKey) (s : TransmuterStake) :
    (t.setStake k s).states = t.states := rfl

@[simp] theorem setStake_stakes (t : Transmuter) (k : StakeKey) (s : TransmuterStake) :
    (t.setStake k s).stakes = Function.update t.stakes k (some s) := rfl

@[simp] theorem saveState_states (t : Transmuter) (x : Address) (st : TransmuterState) :
    (t.saveState x st).states = Function.update t.states x (some st) := rfl

@[simp] theorem saveState_stakes (t : Transmuter) (x : Address) (st : TransmuterState) :
    (t.saveState x st).stakes = t.stakes := rfl

end Transmuter

/-! ## Storage words -/

/-- The storage word `saveStake` writes: the `Bytes()` of the staked and of the unclaimed
amount, each copied into the front of one 16-byte half. -/
def stakeWord (stake : TransmuterStake) : Hash :=
  ⟨goCopy (List.replicate 16 0) (intBytes stake.stakedAmount) ++
    goCopy (List.replicate 16 0) (intBytes stake.unclaimedAmount), by simp⟩

/-- The stake `getStake` decodes from a nonzero storage word, by `SetBytes` on each half. -/
def wordStake (data : Hash) : TransmuterStake where
  stakedAmount := beNat (data.toList.take 16)
  unclaimedAmount := beNat (data.toList.drop 16)
  lastUpdateIndex := Q96

namespace Transmuter

/-- `getStake`: the cached stake, else the one decoded from a nonzero storage word, which is
then cached. -/
def getStake (t : Transmuter) (db : StateDB) (key : StakeKey) :
    Option TransmuterStake × Transmuter :=
  match t.stakes key with
  | some stake => (some stake, t)
  | none =>
    if db.stakeWords key = FixedBytes.zero 32 then (none, t)
    else (some (wordStake (db.stakeWords key)), t.setStake key (wordStake (db.stakeWords key)))

/-- `saveStake`: cache the stake and write its storage word. -/
def saveStake (t : Transmuter) (db : StateDB) (key : StakeKey) (stake : TransmuterStake) :
    Transmuter × StateDB :=
  (t.setStake key stake, ⟨Function.update db.stakeWords key (stakeWord stake)⟩)

/-! ## Reconciliation -/

/-- `updateStakeUnclaimed`: credit what the staked amount accrued since the last update, and
convert as much of the staked amount. -/
def updateStakeUnclaimed (stake : TransmuterStake) (state : TransmuterState) : TransmuterStake :=
  if stake.stakedAmount = 0 then stake
  else
    let rateDiff := state.exchangeRate - stake.lastUpdateIndex
    if rateDiff ≤ 0 then stake
    else
      let newUnclaimed := stake.stakedAmount * rateDiff / Q96
      { unclaimedAmount := stake.unclaimedAmount + newUnclaimed
        stakedAmount :=
          if newUnclaimed ≥ stake.stakedAmount then 0 else stake.stakedAmount - newUnclaimed
        lastUpdateIndex := state.exchangeRate }

/-! ## Calls -/

/-- `InitializeTransmuter`. Its `underlyingAsset` argument is only passed to the transfers. -/
def initializeTransmuter (t : Transmuter) (db : StateDB) (syntheticToken : Address) :
    Outcome Unit :=
  match t.states syntheticToken with
  | some _ => ⟨.error .errSyntheticNotRegistered, t, db, []⟩
  | none => ⟨.ok (), t.saveState syntheticToken ⟨0, 0, Q96⟩, db, []⟩

/-- `Stake`: reconcile, move `amount` from the owner to the Transmuter, and add it to the stake. -/
def stake (t : Transmuter) (db : StateDB) (owner syntheticToken : Address) (amount : ℤ) :
    Outcome Unit :=
  match t.states syntheticToken with
  | none => ⟨.error .errSyntheticNotRegistered, t, db, []⟩
  | some state =>
    if amount ≤ 0 then ⟨.error .errInvalidPositionSize, t, db, []⟩
    else
      let key := stakeKey syntheticToken owner
      let (found, t) := t.getStake db key
      let stake := updateStakeUnclaimed (found.getD ⟨0, 0, state.exchangeRate⟩) state
      let stake := { stake with
        stakedAmount := stake.stakedAmount + amount
        lastUpdateIndex := state.exchangeRate }
      let state := { state with totalStaked := state.totalStaked + amount }
      let (t, db) := t.saveStake db key stake
      ⟨.ok (), t.saveState syntheticToken state, db, [⟨.user owner, .transmuter, amount⟩]⟩

/-- `Unstake`: reconcile, then move back up to the staked amount. -/
def unstake (t : Transmuter) (db : StateDB) (owner syntheticToken : Address) (amount : ℤ) :
    Outcome Unit :=
  match t.states syntheticToken with
  | none => ⟨.error .errSyntheticNotRegistered, t, db, []⟩
  | some state =>
    let key := stakeKey syntheticToken owner
    match t.getStake db key with
    | (none, t) => ⟨.error .errInvalidPositionSize, t, db, []⟩
    | (some stake, t) =>
      if stake.stakedAmount = 0 then ⟨.error .errInvalidPositionSize, t, db, []⟩
      else
        let stake := updateStakeUnclaimed stake state
        let amount := if amount > stake.stakedAmount then stake.stakedAmount else amount
        let stake := { stake with stakedAmount := stake.stakedAmount - amount }
        let state := { state with totalStaked := state.totalStaked - amount }
        let (t, db) := t.saveStake db key stake
        ⟨.ok (), t.saveState syntheticToken state, db, [⟨.transmuter, .user owner, amount⟩]⟩

/-- `Claim`: reconcile, then pay the unclaimed amount up to the buffer. The reconciliation
updates the cached stake in place, so it stays when the claim returns zero early. -/
def claim (t : Transmuter) (db : StateDB) (owner syntheticToken : Address) : Outcome ℤ :=
  match t.states syntheticToken with
  | none => ⟨.error .errSyntheticNotRegistered, t, db, []⟩
  | some state =>
    let key := stakeKey syntheticToken owner
    match t.getStake db key with
    | (none, t) => ⟨.error .errTransmuterEmpty, t, db, []⟩
    | (some stake, t) =>
      let stake := updateStakeUnclaimed stake state
      let t := t.setStake key stake
      if stake.unclaimedAmount = 0 then ⟨.ok 0, t, db, []⟩
      else
        let claimAmount :=
          if stake.unclaimedAmount > state.exchangeBuffer then state.exchangeBuffer
          else stake.unclaimedAmount
        let stake := { stake with unclaimedAmount := stake.unclaimedAmount - claimAmount }
        let state := { state with exchangeBuffer := state.exchangeBuffer - claimAmount }
        let (t, db) := t.saveStake db key stake
        ⟨.ok claimAmount, t.saveState syntheticToken state, db,
          [⟨.transmuter, .user owner, claimAmount⟩]⟩

/-- `Deposit`: add to the buffer and, with stakers, raise the exchange rate pro rata. -/
def deposit (t : Transmuter) (db : StateDB) (syntheticToken : Address) (underlyingAmount : ℤ) :
    Outcome Unit :=
  match t.states syntheticToken with
  | none => ⟨.error .errSyntheticNotRegistered, t, db, []⟩
  | some state =>
    if underlyingAmount ≤ 0 then ⟨.ok (), t, db, []⟩
    else
      let state := { state with exchangeBuffer := state.exchangeBuffer + underlyingAmount }
      let state :=
        if state.totalStaked > 0 then
          { state with
            exchangeRate := state.exchangeRate + underlyingAmount * Q96 / state.totalStaked }
        else state
      ⟨.ok (), t.saveState syntheticToken state, db, []⟩

/-- The `unclaimed` amount `GetClaimable` computes before its cap: the unclaimed amount plus
what the staked amount accrued since the last update. -/
def pendingClaim (stake : TransmuterStake) (state : TransmuterState) : ℤ :=
  let rateDiff := state.exchangeRate - stake.lastUpdateIndex
  if stake.stakedAmount > 0 then
    if rateDiff > 0 then stake.unclaimedAmount + stake.stakedAmount * rateDiff / Q96
    else stake.unclaimedAmount
  else stake.unclaimedAmount

/-- `GetClaimable`: the pending claim, capped at the buffer. -/
def getClaimable (t : Transmuter) (db : StateDB) (owner syntheticToken : Address) :
    ℤ × Transmuter :=
  match t.states syntheticToken with
  | none => (0, t)
  | some state =>
    match t.getStake db (stakeKey syntheticToken owner) with
    | (none, t) => (0, t)
    | (some stake, t) =>
      let unclaimed := pendingClaim stake state
      (if unclaimed > state.exchangeBuffer then state.exchangeBuffer else unclaimed, t)

end Transmuter

/-! ## Runs -/

/-- The Transmuter's mutating calls, with their arguments. -/
inductive Call
  | initializeTransmuter (syntheticToken : Address)
  | stake (owner syntheticToken : Address) (amount : ℤ)
  | unstake (owner syntheticToken : Address) (amount : ℤ)
  | claim (owner syntheticToken : Address)
  | deposit (syntheticToken : Address) (underlyingAmount : ℤ)

/-- The Transmuter and the StateDB after a call, whatever it returned. -/
def Call.apply : Call → Transmuter × StateDB → Transmuter × StateDB
  | .initializeTransmuter x, (t, db) =>
    let o := t.initializeTransmuter db x
    (o.transmuter, o.db)
  | .stake owner x a, (t, db) =>
    let o := t.stake db owner x a
    (o.transmuter, o.db)
  | .unstake owner x a, (t, db) =>
    let o := t.unstake db owner x a
    (o.transmuter, o.db)
  | .claim owner x, (t, db) =>
    let o := t.claim db owner x
    (o.transmuter, o.db)
  | .deposit x a, (t, db) =>
    let o := t.deposit db x a
    (o.transmuter, o.db)

/-- A run of calls. -/
def run (calls : List Call) (w : Transmuter × StateDB) : Transmuter × StateDB :=
  calls.foldl (fun w c => c.apply w) w

/-- The states a run from `NewTransmuter` reaches over a StateDB without stake words. -/
def Reachable (w : Transmuter × StateDB) : Prop :=
  ∃ db calls, StateDB.NoStakeWords db ∧ run calls (newTransmuter, db) = w

end Precompiles.Dex
