import Precompiles.PQCrypto.Frames

/-!
# What `Run` guarantees

Properties of the whole precompile, for every backend, input, amount of gas and draw of
randomness:

* `run_err_ne_indexOutOfRange`: no input makes the precompile read out of range. Every index and
  slice expression of `RequiredGas`, `Run` and the handlers stands behind a length check, so the
  Go code cannot panic.
-/

namespace Precompiles.PQCrypto

/-! ## Gas -/

@[simp] theorem modeGas_nil (table : List (UInt8 × UInt64)) (default : UInt64) :
    modeGas table default [] = .ok default := rfl

@[simp] theorem modeGas_cons (table : List (UInt8 × UInt64)) (default : UInt64) (m : UInt8)
    (rest : List UInt8) : modeGas table default (m :: rest) = .ok ((table.lookup m).getD default) := by
  simp [modeGas, goIndex]

theorem modeGas_ok (table : List (UInt8 × UInt64)) (default : UInt64) (input : List UInt8) :
    ∃ p, modeGas table default input = .ok p := by
  cases input with
  | nil => exact ⟨default, rfl⟩
  | cons m rest => exact ⟨_, modeGas_cons ..⟩

/-- `RequiredGas` prices every input. -/
theorem requiredGas_ok (input : List UInt8) : ∃ p, requiredGas input = .ok p := by
  unfold requiredGas
  split_ifs with h4
  · exact ⟨0, rfl⟩
  rw [goSlice_of_le (by omega) (by omega), goSliceFrom_of_le (by omega)]
  simp only [bind, Except.bind]
  split_ifs <;> first | exact modeGas_ok _ _ _ | exact ⟨0, rfl⟩

/-! ## No out-of-range read -/

theorem verdict_ne_indexOutOfRange (x : Except String Bool) :
    verdict x ≠ .error .indexOutOfRange := by
  cases x <;> simp [verdict]

theorem encapsulate_ne_indexOutOfRange (b : Backend) (entropy : List UInt8) (mode : MLKEMMode)
    (pk : List UInt8) : encapsulate b entropy mode pk ≠ .error .indexOutOfRange := by
  unfold encapsulate
  split_ifs
  · simp
  · rcases b.mlkemEncapsulate mode pk entropy with e | ⟨ct, ss⟩ <;> simp

theorem decapsulate_ne_indexOutOfRange (b : Backend) (mode : MLKEMMode) (sk ct : List UInt8) :
    decapsulate b mode sk ct ≠ .error .indexOutOfRange := by
  unfold decapsulate
  split_ifs
  · simp
  · rcases b.mlkemDecapsulate mode sk ct with e | ss <;> simp

theorem verifyFrame_ne_indexOutOfRange {Mode : Type} (modes : List (UInt8 × Mode))
    (scheme : String) (verify : Mode → List UInt8 → List UInt8 → List UInt8 → Except String Bool)
    (input : List UInt8) : verifyFrame modes scheme verify input ≠ .error .indexOutOfRange := by
  rcases @verifyFrame_cases Mode modes scheme verify input with
    h | ⟨-, h⟩ | ⟨-, mode, pk, msg, sig, -, -, -, -, -, h⟩ <;> rw [h]
  · simp
  · simp
  · exact verdict_ne_indexOutOfRange _

theorem mlkemEncapsulate_ne_indexOutOfRange (b : Backend) (entropy input : List UInt8) :
    mlkemEncapsulate b entropy input ≠ .error .indexOutOfRange := by
  rcases mlkemEncapsulate_cases (b := b) entropy input with
    h | ⟨-, h⟩ | ⟨-, mode, pk, -, -, -, h⟩ <;> rw [h]
  · simp
  · simp
  · exact encapsulate_ne_indexOutOfRange b entropy mode pk

theorem mlkemDecapsulate_ne_indexOutOfRange (b : Backend) (input : List UInt8) :
    mlkemDecapsulate b input ≠ .error .indexOutOfRange := by
  rcases mlkemDecapsulate_cases (b := b) input with
    h | ⟨-, h⟩ | ⟨-, mode, sk, ct, -, -, -, -, h⟩ <;> rw [h]
  · simp
  · simp
  · exact decapsulate_ne_indexOutOfRange b mode sk ct

theorem dispatch_ne_indexOutOfRange (b : Backend) (entropy : List UInt8) {input : List UInt8}
    (h4 : 4 ≤ input.length) : dispatch b entropy input ≠ .error .indexOutOfRange := by
  unfold dispatch
  rw [goSlice_of_le (by omega) h4, goSliceFrom_of_le h4]
  simp only [bind, Except.bind]
  split_ifs
  · exact verifyFrame_ne_indexOutOfRange _ _ _ _
  · exact mlkemEncapsulate_ne_indexOutOfRange _ _ _
  · exact mlkemDecapsulate_ne_indexOutOfRange _ _
  · exact verifyFrame_ne_indexOutOfRange _ _ _ _
  · simp

/-- **The precompile never reads out of range.** On every input, with any backend, gas and
randomness, the error `Run` returns is never the runtime panic of an out-of-range index or
slice. -/
theorem run_err_ne_indexOutOfRange (b : Backend) (entropy input : List UInt8)
    (suppliedGas : UInt64) : (run b entropy input suppliedGas).err ≠ some .indexOutOfRange := by
  obtain ⟨p, hp⟩ := requiredGas_ok input
  unfold run
  rw [hp]
  simp only
  split_ifs with h4
  · simp
  · simp
  · rw [Ne, RunResult.err_ofOutcome_eq_some]
    exact dispatch_ne_indexOutOfRange b entropy (not_lt.1 h4)

end Precompiles.PQCrypto
