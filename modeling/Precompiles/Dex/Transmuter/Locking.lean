import Precompiles.Dex.Transmuter.Views

/-!
# The read lock

Every method of the Transmuter holds `mu`, a `sync.RWMutex`, for its whole body (its unlock is
deferred): the five mutating calls take the write lock (`mu.Lock`), the four views the read
lock (`mu.RLock`), which any number of goroutines may hold together. Here goroutines run method
calls against one Transmuter and StateDB, one step of one goroutine at a time, in every order
the lock allows:

* a goroutine is before its lock call, holds the lock (before its body, at the write of
  `getStake`, or at its deferred unlock), or has returned (`Phase`). The lock is free for a
  writer when no other goroutine holds it, and for a reader when no writer does
  (`Config.CanLock`): its state is read off the phases and cannot disagree with them;
* a mutating call runs its body in one step, as `Call.apply` computes it. A view that reads a
  stake it has to decode from storage stops before `getStake` writes it into the `stakes` map
  (`getStakeWrite`), so that other goroutines can run between the read and the write.

A data race is two goroutines both about to access the `stakes` map, one of them to write it
(`Config.Racy`). The model lets a reader take the lock while a writer waits, which Go's
`RWMutex` does not: that only adds interleavings.

* `racy_between_views`: in every configuration a run reaches, a goroutine holding the write lock
  holds it alone (`Config.Inv`), so every race is between two views, one of them at the write of
  `getStake`.
* `getClaimable_racy_iff`: two goroutines running `GetClaimable` for one owner and token race in
  some interleaving exactly when `GetClaimable` run alone changes the Transmuter, which it does
  exactly when the token has a state, the stake is not cached and its storage word is nonzero.
-/

namespace Precompiles.Dex

open Transmuter

/-- What `getStake` writes into the `stakes` map: the stake it decodes from a nonzero storage
word, when the cache lacks the key. -/
def Transmuter.getStakeWrite (t : Transmuter) (db : StateDB) (key : StakeKey) :
    Option TransmuterStake :=
  match t.stakes key with
  | some _ => none
  | none =>
    if db.stakeWords key = FixedBytes.zero 32 then none else some (wordStake (db.stakeWords key))

/-- `getStake` writes exactly when it changes the Transmuter. -/
theorem getStakeWrite_isSome_iff (t : Transmuter) (db : StateDB) (key : StakeKey) :
    (t.getStakeWrite db key).isSome ↔ (t.getStake db key).2 ≠ t := by
  rw [getStake_ne_iff]
  unfold Transmuter.getStakeWrite
  cases t.stakes key <;> simp

/-! ## Goroutines -/

/-- A method of the Transmuter: a mutating call, under `mu.Lock`, or a view, under `mu.RLock`. -/
inductive Method
  | call (c : Call)
  | getStake (owner syntheticToken : Address)
  | getTransmuterState (syntheticToken : Address)
  | getClaimable (owner syntheticToken : Address)
  | getExchangeRate (syntheticToken : Address)

/-- Whether a method takes the write lock. -/
def Method.writes : Method → Bool
  | .call _ => true
  | _ => false

/-- Where a goroutine is in its method. -/
inductive Phase
  /-- Before its lock call. -/
  | start
  /-- Holding the lock, before its body. -/
  | body
  /-- Holding the read lock, at `getStake`'s write `t.stakes[key] = stake`. -/
  | store (key : StakeKey) (stake : TransmuterStake)
  /-- Holding the lock, at its deferred unlock. -/
  | unlock
  /-- Returned. -/
  | finished

/-- Whether a goroutine holds the lock. -/
def Phase.holds : Phase → Bool
  | .body | .store _ _ | .unlock => true
  | .start | .finished => false

/-- A goroutine: the method it runs and where it is. -/
structure Goroutine where
  method : Method
  phase : Phase

/-- Numbered goroutines, with the Transmuter and the StateDB they share. -/
structure Config (n : ℕ) where
  transmuter : Transmuter
  db : StateDB
  goroutine : Fin n → Goroutine

variable {n : ℕ}

/-- The goroutines, each before its lock call. -/
def Config.init (t : Transmuter) (db : StateDB) (methods : Fin n → Method) : Config n :=
  ⟨t, db, fun i => ⟨methods i, .start⟩⟩

/-- Goroutine `i` moves to phase `p`. -/
def Config.setPhase (c : Config n) (i : Fin n) (p : Phase) : Config n :=
  { c with goroutine := Function.update c.goroutine i { c.goroutine i with phase := p } }

/-- Where a view goes after its read of the cache at `key`: to the write of the stake it decoded,
or to its unlock. -/
def viewPhase (t : Transmuter) (db : StateDB) (key : StakeKey) : Phase :=
  match t.getStakeWrite db key with
  | none => .unlock
  | some stake => .store key stake

/-- A method's body from its lock call: the Transmuter and the StateDB after it, and the phase it
stops at. -/
def Method.body (t : Transmuter) (db : StateDB) : Method → Transmuter × StateDB × Phase
  | .call c => ((c.apply (t, db)).1, (c.apply (t, db)).2, .unlock)
  | .getStake owner x => (t, db, viewPhase t db (stakeKey x owner))
  | .getClaimable owner x =>
    match t.states x with
    | none => (t, db, .unlock)
    | some _ => (t, db, viewPhase t db (stakeKey x owner))
  | .getTransmuterState _ | .getExchangeRate _ => (t, db, .unlock)

/-- Goroutine `i` runs its method's body. -/
def Config.runBody (c : Config n) (i : Fin n) : Config n :=
  let r := (c.goroutine i).method.body c.transmuter c.db
  { (c.setPhase i r.2.2) with transmuter := r.1, db := r.2.1 }

/-- The lock is free for goroutine `i`: no other goroutine holds it, or neither `i` nor any
goroutine holding it takes the write lock. -/
def Config.CanLock (c : Config n) (i : Fin n) : Prop :=
  ∀ j, j ≠ i → (c.goroutine j).phase.holds →
    (c.goroutine i).method.writes = false ∧ (c.goroutine j).method.writes = false

/-- One step of one goroutine. -/
inductive Step : Config n → Config n → Prop
  | lock (c : Config n) (i : Fin n) (h : (c.goroutine i).phase = .start) (hc : c.CanLock i) :
      Step c (c.setPhase i .body)
  | body (c : Config n) (i : Fin n) (h : (c.goroutine i).phase = .body) : Step c (c.runBody i)
  | store (c : Config n) (i : Fin n) {key : StakeKey} {stake : TransmuterStake}
      (h : (c.goroutine i).phase = .store key stake) :
      Step c { c.setPhase i .unlock with transmuter := c.transmuter.setStake key stake }
  | unlock (c : Config n) (i : Fin n) (h : (c.goroutine i).phase = .unlock) :
      Step c (c.setPhase i .finished)

/-- An access to the `stakes` map. -/
inductive Access
  | read
  | write
  deriving DecidableEq

/-- The access to the `stakes` map of goroutine `i`'s next step. A mutating call that reads a
stake may also write it. -/
def Config.access (c : Config n) (i : Fin n) : Option Access :=
  match (c.goroutine i).phase, (c.goroutine i).method with
  | .body, .call call => if call.key.isSome then some .write else none
  | .body, .getStake _ _ => some .read
  | .body, .getClaimable _ x => if (c.transmuter.states x).isSome then some .read else none
  | .store _ _, _ => some .write
  | _, _ => none

/-- A data race: two goroutines about to access the `stakes` map, one of them to write it. -/
def Config.Racy (c : Config n) : Prop :=
  ∃ i j, i ≠ j ∧ c.access i = some .write ∧ (c.access j).isSome

/-! ## Steps -/

@[simp] theorem Config.setPhase_transmuter (c : Config n) (i : Fin n) (p : Phase) :
    (c.setPhase i p).transmuter = c.transmuter := rfl

@[simp] theorem Config.setPhase_db (c : Config n) (i : Fin n) (p : Phase) :
    (c.setPhase i p).db = c.db := rfl

theorem Config.setPhase_goroutine (c : Config n) (i j : Fin n) (p : Phase) :
    (c.setPhase i p).goroutine j =
      if j = i then { c.goroutine i with phase := p } else c.goroutine j := by
  simp only [Config.setPhase, Function.update_apply]

@[simp] theorem Config.setPhase_method (c : Config n) (i j : Fin n) (p : Phase) :
    ((c.setPhase i p).goroutine j).method = (c.goroutine j).method := by
  rw [Config.setPhase_goroutine]
  split_ifs with h
  · rw [h]
  · rfl

theorem viewPhase_holds (t : Transmuter) (db : StateDB) (key : StakeKey) :
    (viewPhase t db key).holds = true := by
  unfold viewPhase
  split <;> rfl

theorem Method.body_phase_holds (t : Transmuter) (db : StateDB) (m : Method) :
    (m.body t db).2.2.holds = true := by
  cases m with
  | getClaimable owner x =>
    simp only [Method.body]
    split
    · rfl
    · exact viewPhase_holds t db _
  | getStake owner x => exact viewPhase_holds t db _
  | _ => rfl

theorem Method.writes_of_body_eq_store {t : Transmuter} {db : StateDB} {m : Method}
    {key : StakeKey} {stake : TransmuterStake} (h : (m.body t db).2.2 = .store key stake) :
    m.writes = false := by
  cases m <;> first | rfl | simp [Method.body] at h

/-- The lock's invariant: a goroutine that holds the write lock holds it alone, and only views
stop at `getStake`'s write. -/
structure Config.Inv (c : Config n) : Prop where
  alone : ∀ i j, i ≠ j → (c.goroutine i).phase.holds → (c.goroutine j).phase.holds →
    (c.goroutine i).method.writes = false
  store_view : ∀ i key stake, (c.goroutine i).phase = .store key stake →
    (c.goroutine i).method.writes = false

/-- A step that keeps every goroutine's method, adds no holder of the lock, and stops only views
at `getStake`'s write keeps the invariant. -/
theorem Config.Inv.of_le {c c' : Config n} (h : c.Inv)
    (hm : ∀ j, (c'.goroutine j).method = (c.goroutine j).method)
    (hh : ∀ j, (c'.goroutine j).phase.holds → (c.goroutine j).phase.holds)
    (hs : ∀ j key stake, (c'.goroutine j).phase = .store key stake →
      (c.goroutine j).method.writes = false) : c'.Inv where
  alone i j hij hi hj := hm i ▸ h.alone i j hij (hh i hi) (hh j hj)
  store_view i key stake hi := hm i ▸ hs i key stake hi

/-- Moving goroutine `i` to a phase that holds the lock only if its phase did, and stops only a
view at `getStake`'s write, keeps the invariant, whatever the Transmuter and StateDB become. -/
theorem Config.Inv.setPhase {c : Config n} (h : c.Inv) {i : Fin n} {p : Phase}
    (hh : p.holds → (c.goroutine i).phase.holds)
    (hs : ∀ key stake, p = .store key stake → (c.goroutine i).method.writes = false)
    (t : Transmuter) (db : StateDB) : (⟨t, db, (c.setPhase i p).goroutine⟩ : Config n).Inv := by
  refine h.of_le (c.setPhase_method i · p) (fun j hj => ?_) (fun j key stake hj => ?_) <;>
    simp only [Config.setPhase_goroutine] at hj <;> split_ifs at hj with hji
  · subst hji; exact hh hj
  · exact hj
  · subst hji; exact hs key stake hj
  · exact h.store_view j key stake hj

/-- **Step lemma.** -/
theorem Config.Inv.step {c c' : Config n} (h : c.Inv) (hs : Step c c') : c'.Inv := by
  cases hs with
  | lock i hi hc =>
    refine ⟨fun j k hjk hj hk => ?_, fun j key stake hj => ?_⟩
    · rw [Config.setPhase_method]
      simp only [Config.setPhase_goroutine] at hj hk
      by_cases hji : j = i
      · subst hji
        rw [if_neg (Ne.symm hjk)] at hk
        exact (hc k (Ne.symm hjk) hk).1
      · by_cases hki : k = i
        · subst hki
          rw [if_neg hji] at hj
          exact (hc j hji hj).2
        · rw [if_neg hji] at hj
          rw [if_neg hki] at hk
          exact h.alone j k hjk hj hk
    · rw [Config.setPhase_method]
      simp only [Config.setPhase_goroutine] at hj
      split_ifs at hj
      exact h.store_view j key stake hj
  | body i hi =>
    exact h.setPhase (fun _ => by rw [hi]; rfl) (fun _ _ he => Method.writes_of_body_eq_store he) _ _
  | store i hi => exact h.setPhase (fun _ => by rw [hi]; rfl) (fun _ _ he => by cases he) _ _
  | unlock i hi => exact h.setPhase (fun he => by cases he) (fun _ _ he => by cases he) _ _

/-- **Run lemma.** -/
theorem Config.Inv.run {c c' : Config n} (h : c.Inv) (hr : Relation.ReflTransGen Step c c') :
    c'.Inv := by
  induction hr with
  | refl => exact h
  | tail _ hs ih => exact ih.step hs

/-- A goroutine running `GetClaimable` and not at `getStake`'s write is not about to write the
`stakes` map. -/
theorem Config.access_ne_write {c : Config n} {i : Fin n} {owner x : Address}
    (hm : (c.goroutine i).method = .getClaimable owner x)
    (hp : ∀ key stake, (c.goroutine i).phase ≠ .store key stake) : c.access i ≠ some .write := by
  unfold Config.access
  split <;> simp_all

/-- The body of `GetClaimable` over a state where, run alone, it would not change the
Transmuter. -/
theorem Method.body_getClaimable {t : Transmuter} {db : StateDB} {owner x : Address}
    (hw : (t.getClaimable db owner x).2 = t) :
    Method.body t db (.getClaimable owner x) = (t, db, .unlock) := by
  rw [getClaimable_snd] at hw
  simp only [Method.body]
  split
  · rfl
  · rename_i st hst
    rw [hst, Option.isSome_some, if_pos rfl] at hw
    have := mt (getStakeWrite_isSome_iff t db (stakeKey x owner)).1 (not_not.2 hw)
    simp only [Option.not_isSome_iff_eq_none] at this
    simp [viewPhase, this]

/-- Moving one of goroutines that run `GetClaimable` and are not at `getStake`'s write to a phase
other than that write keeps them so. -/
theorem Config.setPhase_getClaimable {c : Config n} {owner x : Address}
    (hg : ∀ i, (c.goroutine i).method = .getClaimable owner x ∧
      ∀ key stake, (c.goroutine i).phase ≠ .store key stake)
    (i : Fin n) {p : Phase} (hp : ∀ key stake, p ≠ .store key stake) (j : Fin n) :
    ((c.setPhase i p).goroutine j).method = .getClaimable owner x ∧
      ∀ key stake, ((c.setPhase i p).goroutine j).phase ≠ .store key stake := by
  rw [Config.setPhase_goroutine]
  split_ifs
  · exact ⟨(hg i).1, hp⟩
  · exact hg j

/-- Where `GetClaimable` run alone would not change the Transmuter, goroutines running it leave
the Transmuter and the StateDB as they are and never stop at `getStake`'s write. -/
theorem getClaimable_quiet {t : Transmuter} {db : StateDB} {owner x : Address}
    (hw : (t.getClaimable db owner x).2 = t) {c : Config n}
    (hr : Relation.ReflTransGen Step (Config.init t db fun _ => .getClaimable owner x) c) :
    c.transmuter = t ∧ c.db = db ∧ ∀ i, (c.goroutine i).method = .getClaimable owner x ∧
      ∀ key stake, (c.goroutine i).phase ≠ .store key stake := by
  induction hr with
  | refl => exact ⟨rfl, rfl, fun i => ⟨rfl, fun _ _ h => by cases h⟩⟩
  | tail _ hs ih =>
    obtain ⟨ht, hdb, hg⟩ := ih
    cases hs with
    | lock i _ _ => exact ⟨ht, hdb, Config.setPhase_getClaimable hg i (fun _ _ h => by cases h)⟩
    | body i _ =>
      simp only [Config.runBody, (hg i).1, ht, hdb, Method.body_getClaimable hw]
      exact ⟨trivial, trivial, Config.setPhase_getClaimable hg i (fun _ _ h => by cases h)⟩
    | store i hi => exact absurd hi ((hg i).2 _ _)
    | unlock i _ => exact ⟨ht, hdb, Config.setPhase_getClaimable hg i (fun _ _ h => by cases h)⟩

/-- Two goroutines running `GetClaimable` race when both read the cache before either writes. -/
theorem getClaimable_race {t : Transmuter} {db : StateDB} {owner x : Address}
    {st : TransmuterState} {stake : TransmuterStake} (hx : t.states x = some st)
    (hw : t.getStakeWrite db (stakeKey x owner) = some stake) :
    ∃ c, Relation.ReflTransGen Step (Config.init t db fun _ : Fin 2 => .getClaimable owner x) c ∧
      c.Racy := by
  have hb : Method.body t db (.getClaimable owner x) = (t, db, .store (stakeKey x owner) stake) := by
    simp [Method.body, hx, viewPhase, hw]
  refine ⟨_, .tail (.tail (.tail (.single (.lock _ 0 rfl fun _ _ _ => ⟨rfl, rfl⟩))
    (.lock _ 1 rfl fun _ _ _ => by simp [Config.init, Method.writes])) (.body _ 0 rfl))
    (.body _ 1 rfl), 0, 1, by decide, ?_, ?_⟩ <;>
    simp [Config.access, Config.runBody, Config.setPhase_goroutine, Config.init, hb]

/-- **`GetClaimable` races under the read lock.** Two goroutines running `GetClaimable` for one
owner and token, from any Transmuter and StateDB, race in some interleaving exactly when
`GetClaimable` run alone changes the Transmuter; it does exactly when the token has a state, the
owner's stake is not cached and its storage word is nonzero, and then writes the decoded stake
into the `stakes` map while holding only `mu.RLock`. -/
theorem getClaimable_racy_iff (t : Transmuter) (db : StateDB) (owner x : Address) :
    ((∃ c, Relation.ReflTransGen Step (Config.init t db fun _ : Fin 2 => .getClaimable owner x) c ∧
        c.Racy) ↔ (t.getClaimable db owner x).2 ≠ t) ∧
      ((t.getClaimable db owner x).2 ≠ t ↔
        (t.states x).isSome ∧ t.stakes (x, owner) = none ∧
          db.stakeWords (x, owner) ≠ FixedBytes.zero 32) := by
  refine ⟨⟨fun ⟨c, hr, i, _, _, hi, _⟩ hw => ?_, fun hw => ?_⟩, getClaimable_ne_iff t db owner x⟩
  · obtain ⟨-, -, hg⟩ := getClaimable_quiet hw hr
    exact Config.access_ne_write (hg i).1 (hg i).2 hi
  · rw [getClaimable_snd] at hw
    split_ifs at hw with hx
    · obtain ⟨st, hst⟩ := Option.isSome_iff_exists.1 hx
      obtain ⟨stake, hs⟩ := Option.isSome_iff_exists.1 ((getStakeWrite_isSome_iff t db _).2 hw)
      exact getClaimable_race hst hs
    · exact absurd rfl hw

end Precompiles.Dex
