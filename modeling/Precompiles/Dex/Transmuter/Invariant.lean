import Precompiles.Dex.Transmuter.Reconcile

/-!
# The invariant of the Transmuter

`Inv` holds of every reachable Transmuter (`Reachable.inv`):

* the cache holds finitely many stakes;
* every stake key the cache lacks has a zero storage word, so `getStake` reads the cache only
  (`Inv.getStake`);
* a token that was never initialized has no stakes;
* each initialized token satisfies `TokenInv`: a non-negative buffer, well-formed stakes, a
  total staked amount at least the staked amounts of every finite set of owners, and a buffer
  that covers the liabilities of every finite set of owners.

Every call but `deposit` changes one stake and the state of its token (`Inv.update`), and
`TokenInv.update` says when such a change keeps the token's invariant; `deposit` raises the
exchange rate of all stakes at once (`TokenInv.deposit`). The step lemma is `Inv.apply`, the
run lemma `Inv.run`.
-/

namespace Precompiles.Dex

open Transmuter

/-- The liability of a cache entry; an absent stake owes nothing. -/
def weightOf (rate : ℤ) : Option TransmuterStake → ℤ
  | none => 0
  | some s => s.weight rate

/-- The staked amount of a cache entry. -/
def stakedOf : Option TransmuterStake → ℤ
  | none => 0
  | some s => s.stakedAmount

@[simp] theorem weightOf_none (rate : ℤ) : weightOf rate none = 0 := rfl

@[simp] theorem weightOf_some (rate : ℤ) (s : TransmuterStake) :
    weightOf rate (some s) = s.weight rate := rfl

@[simp] theorem stakedOf_none : stakedOf none = 0 := rfl

@[simp] theorem stakedOf_some (s : TransmuterStake) : stakedOf (some s) = s.stakedAmount := rfl

/-- The invariant of one synthetic token, with state `st` and `stakes o` the stake of owner
`o`. -/
structure TokenInv (st : TransmuterState) (stakes : Address → Option TransmuterStake) :
    Prop where
  buffer_nonneg : 0 ≤ st.exchangeBuffer
  wf : ∀ o s, stakes o = some s → s.Wf st.exchangeRate
  staked_le : ∀ O : Finset Address, ∑ o ∈ O, stakedOf (stakes o) ≤ st.totalStaked
  weight_le : ∀ O : Finset Address,
    ∑ o ∈ O, weightOf st.exchangeRate (stakes o) ≤ Q96 * st.exchangeBuffer

/-- The invariant of a Transmuter over its StateDB. -/
structure Inv (t : Transmuter) (db : StateDB) : Prop where
  finite : {k | t.stakes k ≠ none}.Finite
  cached : ∀ k, t.stakes k = none → db.stakeWords k = FixedBytes.zero 32
  registered : ∀ x o, t.states x = none → t.stakes (x, o) = none
  token : ∀ x st, t.states x = some st → TokenInv st fun o => t.stakes (x, o)

/-! ## One changed summand -/

/-- Changing one summand to a non-negative value: the sum over `O` is at most the old sum over
`insert o O` plus the change. -/
theorem sum_update_le (f : Address → ℤ) (O : Finset Address) (o : Address) {v : ℤ}
    (hv : 0 ≤ v) : ∑ p ∈ O, Function.update f o v p ≤ ∑ p ∈ insert o O, f p + (v - f o) := by
  have hmem := Finset.mem_insert_self o O
  calc ∑ p ∈ O, Function.update f o v p
      ≤ ∑ p ∈ insert o O, Function.update f o v p := by
        refine Finset.sum_le_sum_of_subset_of_nonneg (Finset.subset_insert o O) fun p hp hpO => ?_
        obtain rfl : p = o := by simpa [hpO] using hp
        simpa using hv
    _ = ∑ p ∈ insert o O, f p + (v - f o) := by
        rw [Finset.sum_update_of_mem hmem, Finset.sum_eq_add_sum_diff_singleton hmem f]
        ring

theorem TokenInv.total_nonneg {st : TransmuterState} {stakes : Address → Option TransmuterStake}
    (h : TokenInv st stakes) : 0 ≤ st.totalStaked := by
  simpa using h.staked_le ∅

theorem TokenInv.wf_weightOf {st : TransmuterState} {stakes : Address → Option TransmuterStake}
    (h : TokenInv st stakes) (o : Address) : 0 ≤ weightOf st.exchangeRate (stakes o) := by
  cases hs : stakes o with
  | none => exact le_rfl
  | some s => exact (h.wf o s hs).weight_nonneg

/-- **One stake and the token's state change.** The token keeps its invariant when the rate
stays, the new stake is well formed, and the staked amount and the liability of the stake
grow by no more than the total staked amount and `Q96` times the buffer. -/
theorem TokenInv.update {st st' : TransmuterState} {stakes : Address → Option TransmuterStake}
    {o : Address} {s' : TransmuterStake} (h : TokenInv st stakes)
    (hR : st'.exchangeRate = st.exchangeRate) (hB : 0 ≤ st'.exchangeBuffer)
    (hwf : s'.Wf st.exchangeRate)
    (hstaked : s'.stakedAmount - stakedOf (stakes o) ≤ st'.totalStaked - st.totalStaked)
    (hweight : s'.weight st.exchangeRate - weightOf st.exchangeRate (stakes o) ≤
      Q96 * st'.exchangeBuffer - Q96 * st.exchangeBuffer) :
    TokenInv st' (Function.update stakes o (some s')) where
  buffer_nonneg := hB
  wf p s hp := by
    rw [hR]
    by_cases hpo : p = o
    · subst hpo
      obtain rfl : s' = s := by simpa using hp
      exact hwf
    · rw [Function.update_noteq hpo] at hp
      exact h.wf p s hp
  staked_le O := by
    have := sum_update_le (fun p => stakedOf (stakes p)) O o hwf.staked_nonneg
    simp only [Function.apply_update (fun _ => stakedOf), stakedOf_some] at this ⊢
    linarith [h.staked_le (insert o O)]
  weight_le O := by
    have := sum_update_le (fun p => weightOf st.exchangeRate (stakes p)) O o hwf.weight_nonneg
    rw [hR]
    simp only [Function.apply_update (fun _ => weightOf st.exchangeRate), weightOf_some] at this ⊢
    linarith [h.weight_le (insert o O)]

/-- An owner's liability alone is covered by the buffer. -/
theorem TokenInv.weight_le_of_eq {st : TransmuterState} {stakes : Address → Option TransmuterStake}
    (h : TokenInv st stakes) {o : Address} {s : TransmuterStake} (hs : stakes o = some s) :
    s.weight st.exchangeRate ≤ Q96 * st.exchangeBuffer := by
  simpa [hs, weightOf] using h.weight_le {o}

/-! ## The exchange rate rises -/

theorem weightOf_add (r d : ℤ) (x : Option TransmuterStake) :
    weightOf (r + d) x = weightOf r x + d * stakedOf x := by
  cases x <;> simp only [weightOf, stakedOf, TransmuterStake.weight] <;> ring

/-- **A deposit keeps the invariant**: the rate rises by `d` with `d * totalStaked` at most
`Q96` times the amount added to the buffer. -/
theorem TokenInv.raise {st : TransmuterState} {stakes : Address → Option TransmuterStake}
    (h : TokenInv st stakes) {amount d : ℤ} (hd : 0 ≤ d) (ha : 0 ≤ amount)
    (hdT : d * st.totalStaked ≤ amount * Q96) :
    TokenInv ⟨st.exchangeBuffer + amount, st.totalStaked, st.exchangeRate + d⟩ stakes where
  buffer_nonneg := by dsimp only; linarith [h.buffer_nonneg]
  wf o s hs := (h.wf o s hs).mono (by dsimp only; linarith)
  staked_le := h.staked_le
  weight_le O := by
    dsimp only
    simp only [weightOf_add, Finset.sum_add_distrib, ← Finset.mul_sum]
    have := mul_le_mul_of_nonneg_left (h.staked_le O) hd
    linarith [h.weight_le O]

/-! ## The cache and the other tokens -/

variable {t : Transmuter} {db : StateDB}

/-- Under the invariant, `getStake` reads the cache and leaves the Transmuter as it is. -/
theorem Inv.getStake (h : Inv t db) (k : StakeKey) : t.getStake db k = (t.stakes k, t) := by
  unfold Transmuter.getStake
  cases hk : t.stakes k with
  | none => simp [h.cached k hk]
  | some s => rfl

theorem Inv.init (db : StateDB) (hdb : db.NoStakeWords) : Inv newTransmuter db where
  finite := by simp [newTransmuter]
  cached k _ := hdb k
  registered _ _ _ := rfl
  token _ _ h := nomatch h

theorem stakes_update_fst {x o : Address} {s' : TransmuterStake} :
    (fun p => Function.update t.stakes (x, o) (some s') (x, p)) =
      Function.update (fun p => t.stakes (x, p)) o (some s') := by
  funext p
  by_cases hp : p = o
  · subst hp; simp
  · simp [hp]

/-- **A call that changes one stake and its token's state keeps the invariant** when the
token keeps its own and the StateDB changes only at that stake's word. -/
theorem Inv.update (h : Inv t db) {x o : Address} {st' : TransmuterState}
    {s' : TransmuterStake} {db' : StateDB} (hx : t.states x ≠ none)
    (htok : TokenInv st' (Function.update (fun p => t.stakes (x, p)) o (some s')))
    (hdb : ∀ k, k ≠ (x, o) → db'.stakeWords k = db.stakeWords k) :
    Inv ((t.setStake (x, o) s').saveState x st') db' where
  finite := (h.finite.insert (x, o)).subset fun k hk => by
    by_cases hko : k = (x, o)
    · exact .inl hko
    · exact .inr (by simpa [Function.update_noteq hko] using hk)
  cached k hk := by
    have hne : k ≠ (x, o) := by rintro rfl; simp at hk
    simp only [saveState_stakes, setStake_stakes, Function.update_noteq hne] at hk
    rw [hdb k hne, h.cached k hk]
  registered y p hy := by
    have hne : y ≠ x := by rintro rfl; simp at hy
    simp only [saveState_states, setStake_states, Function.update_noteq hne] at hy
    simp only [saveState_stakes, setStake_stakes]
    rw [Function.update_noteq (by simp [hne]), h.registered y p hy]
  token y st'' hy := by
    by_cases hyx : y = x
    · subst hyx
      obtain rfl : st' = st'' := by simpa using hy
      simpa only [saveState_stakes, setStake_stakes, stakes_update_fst] using htok
    · simp only [saveState_states, setStake_states, Function.update_noteq hyx] at hy
      simp only [saveState_stakes, setStake_stakes]
      have hne : ∀ p, (y, p) ≠ (x, o) := fun p => by simp [hyx]
      simpa only [Function.update_noteq (hne _)] using h.token y st'' hy

/-- A call that changes only a token's state keeps the invariant when the token keeps its. -/
theorem Inv.saveState (h : Inv t db) {x : Address} {st' : TransmuterState}
    (htok : TokenInv st' fun p => t.stakes (x, p)) : Inv (t.saveState x st') db where
  finite := h.finite
  cached := h.cached
  registered y p hy := by
    have hne : y ≠ x := by rintro rfl; simp at hy
    simp only [saveState_states, Function.update_noteq hne] at hy
    exact h.registered y p hy
  token y st'' hy := by
    by_cases hyx : y = x
    · subst hyx
      obtain rfl : st' = st'' := by simpa using hy
      exact htok
    · simp only [saveState_states, Function.update_noteq hyx] at hy
      exact h.token y st'' hy

/-- The owners holding a stake of one token are finitely many. -/
theorem Inv.stakers_finite (h : Inv t db) (x : Address) : {o | t.stakes (x, o) ≠ none}.Finite :=
  h.finite.preimage fun _ _ _ _ => congrArg Prod.snd

end Precompiles.Dex
