import Precompiles.Foundations.Bytes

/-!
# The registry of stateful precompile modules

A model of `modules/registerer.go`. The package keeps the registered modules in the global
`registeredModules`; here it is the list `registered` that `registerModule` takes and returns,
with the error the Go function returns, if any.

`RegisterModule` rejects a module at the blackhole address, at an address outside the reserved
ranges, or with the config key or the address of a module already registered, and otherwise
appends the module and sorts the list with `sort.Sort(moduleArray(...))`. The order of
`moduleArray` is declared outside src/; the model takes the sort as a parameter (`ModuleSort`)
and keeps what `sort.Sort` guarantees for every order, that its result is a permutation of its
input.

* `reservedAddress_iff`: `ReservedAddress` holds exactly for `0x01`, `0x02` and `0x03` followed by
  eighteen zero bytes and any last byte; `bytes.Compare` on addresses is the order of their
  big-endian values (`bytesCompare_of_length_eq`).
* `registerModule_cases`: a call is rejected and the registry unchanged, or it passes every check
  and the registry becomes a permutation of the old one with the module appended.
* `RegistryInv.run`: from a registry with distinct config keys, distinct addresses and
  only reserved, non-blackhole addresses, every sequence of calls keeps those properties.
* `registerAll_perm`: after a sequence of calls the registry holds exactly the modules whose
  call succeeded, each once.
* `registry_lookup`: on every registry built by `RegisterModule` calls from the empty one, the
  two lookups find exactly the modules registered under the address or key asked for.
-/

namespace Precompiles.Modules

/-! ## Reserved addresses -/

/-- `bytes.Compare`: the lexicographic order of byte strings, a proper prefix first. -/
def bytesCompare : List UInt8 → List UInt8 → ℤ
  | [], [] => 0
  | [], _ :: _ => -1
  | _ :: _, [] => 1
  | a :: as, b :: bs => if a < b then -1 else if b < a then 1 else bytesCompare as bs

/-- `AddressRange`, an inclusive range of addresses. -/
structure AddressRange where
  start : Address
  «end» : Address

/-- `AddressRange.Contains`. -/
def AddressRange.contains (a : AddressRange) (addr : Address) : Bool :=
  bytesCompare addr.toList a.start.toList ≥ 0 && bytesCompare addr.toList a.«end».toList ≤ 0

/-- `BlackholeAddr`, the address `0x0100…00`. -/
def blackholeAddr : Address := .ofNat 20 0x0100000000000000000000000000000000000000

/-- `reservedRanges`: `0x0100…00` to `0x0100…ff`, and the same under `0x02` and `0x03`. -/
def reservedRanges : List AddressRange :=
  [⟨.ofNat 20 0x0100000000000000000000000000000000000000,
      .ofNat 20 0x01000000000000000000000000000000000000ff⟩,
    ⟨.ofNat 20 0x0200000000000000000000000000000000000000,
      .ofNat 20 0x02000000000000000000000000000000000000ff⟩,
    ⟨.ofNat 20 0x0300000000000000000000000000000000000000,
      .ofNat 20 0x03000000000000000000000000000000000000ff⟩]

/-- `ReservedAddress`. -/
def reservedAddress (addr : Address) : Bool := reservedRanges.any fun r => r.contains addr

/-- `bytes.Compare` of two byte strings of one length compares their big-endian values. -/
theorem bytesCompare_of_length_eq {l₁ l₂ : List UInt8} (h : l₁.length = l₂.length) :
    bytesCompare l₁ l₂ =
      if beNat l₁ < beNat l₂ then -1 else if beNat l₂ < beNat l₁ then 1 else 0 := by
  induction l₁ generalizing l₂ with
  | nil => cases l₂ with
    | nil => rfl
    | cons _ _ => simp at h
  | cons a as ih => cases l₂ with
    | nil => simp at h
    | cons b bs =>
      have hl : as.length = bs.length := by simpa using h
      have hab : a < b ↔ a.toNat < b.toNat := Iff.rfl
      have hba : b < a ↔ b.toNat < a.toNat := Iff.rfl
      by_cases lt : a < b
      · have := beNat_cons_lt_of_lt hl (hab.1 lt)
        simp [bytesCompare, lt, this]
      by_cases gt : b < a
      · have := beNat_cons_lt_of_lt hl.symm (hba.1 gt)
        simp [bytesCompare, lt, gt, this, not_lt.2 this.le]
      · obtain rfl : a = b := UInt8.toNat.inj (by rw [hab, hba] at *; omega)
        simp only [bytesCompare, lt, if_false, ih hl, beNat_cons, hl, add_lt_add_iff_left]

/-- `AddressRange.Contains` compares the big-endian values of the addresses. -/
theorem AddressRange.contains_iff (r : AddressRange) (addr : Address) :
    r.contains addr = true ↔
      beNat r.start.toList ≤ beNat addr.toList ∧ beNat addr.toList ≤ beNat r.«end».toList := by
  simp only [AddressRange.contains, Bool.and_eq_true, decide_eq_true_eq,
    bytesCompare_of_length_eq (addr.length_toList.trans r.start.length_toList.symm),
    bytesCompare_of_length_eq (addr.length_toList.trans r.«end».length_toList.symm)]
  split_ifs <;> omega

/-- **The reserved ranges.** `ReservedAddress` holds exactly for the addresses whose big-endian
value lies in `[k · 2 ^ 152, k · 2 ^ 152 + 255]` for `k` one of 1, 2 and 3: the byte `k`, eighteen
zero bytes and any last byte. -/
theorem reservedAddress_iff (addr : Address) :
    reservedAddress addr = true ↔
      ∃ k ∈ [1, 2, 3], k * 2 ^ 152 ≤ beNat addr.toList ∧ beNat addr.toList ≤ k * 2 ^ 152 + 255 := by
  simp only [reservedAddress, reservedRanges, List.any_cons, List.any_nil, Bool.or_false,
    Bool.or_eq_true, AddressRange.contains_iff, FixedBytes.ofNat, beNat_beBytes, List.mem_cons,
    List.mem_singleton, List.not_mem_nil, or_false, exists_eq_or_imp, exists_eq_left]
  norm_num [or_assoc]

/-! ## Registration -/

/-- The fields of a `Module` the registry reads. Its contract and configurator are stored and
returned but never read. -/
structure Module where
  configKey : List UInt8
  address : Address
  deriving DecidableEq

/-- `sort.Sort(moduleArray(...))`: a sort whose result is a permutation of its input. -/
structure ModuleSort where
  sort : List Module → List Module
  perm : ∀ l, (sort l).Perm l

/-- The modules in the increasing order of their addresses' big-endian values, which is the
order of `bytes.Compare` on 20-byte addresses (`bytesCompare_of_length_eq`). -/
def ModuleSort.byAddress : ModuleSort :=
  ⟨fun l => l.mergeSort fun a b => beNat a.address.toList ≤ beNat b.address.toList,
    fun l => List.mergeSort_perm l _⟩

/-- `insertSortedByAddress`. -/
def insertSortedByAddress (σ : ModuleSort) (data : List Module) (stm : Module) : List Module :=
  σ.sort (data ++ [stm])

/-- The errors `RegisterModule` returns. -/
inductive RegisterError
  | blackholeOverlap (address : Address)
  | notReserved (address : Address)
  | nameUsed (key : List UInt8)
  | addressUsed (address : Address)
  deriving DecidableEq

/-- The format string of each error, as `fmt.Errorf` receives it. -/
def RegisterError.format : RegisterError → String
  | .blackholeOverlap _ => "address %s overlaps with blackhole address"
  | .notReserved _ => "address %s not in a reserved range"
  | .nameUsed _ => "name %s already used by a stateful precompile"
  | .addressUsed _ => "address %s already used by a stateful precompile"

/-- The loop of `RegisterModule` over the registered modules: the first module with the key or
the address decides the error, the key checked first. -/
def checkRegistered (key : List UInt8) (address : Address) : List Module → Option RegisterError
  | [] => none
  | m :: ms =>
    if m.configKey = key then some (.nameUsed key)
    else if m.address = address then some (.addressUsed address)
    else checkRegistered key address ms

/-- `RegisterModule`: the error it returns, if any, and `registeredModules` after it. -/
def registerModule (σ : ModuleSort) (registered : List Module) (stm : Module) :
    Option RegisterError × List Module :=
  let address := stm.address
  let key := stm.configKey
  if address = blackholeAddr then (some (.blackholeOverlap address), registered)
  else if !reservedAddress address then (some (.notReserved address), registered)
  else
    match checkRegistered key address registered with
    | some e => (some e, registered)
    | none => (none, insertSortedByAddress σ registered stm)

/-- The loop of both lookups: the first registered module satisfying `p`, or `Module{}`. -/
def findModule (p : Module → Bool) (registered : List Module) : Module × Bool :=
  match registered.find? p with
  | some stm => (stm, true)
  | none => (⟨[], FixedBytes.zero 20⟩, false)

/-- `GetPrecompileModuleByAddress`. -/
def getPrecompileModuleByAddress (registered : List Module) (address : Address) : Module × Bool :=
  findModule (fun stm => stm.address = address) registered

/-- `GetPrecompileModule`. -/
def getPrecompileModule (registered : List Module) (key : List UInt8) : Module × Bool :=
  findModule (fun stm => stm.configKey = key) registered

/-- `registeredModules` after the calls `calls` to `RegisterModule`, from `registered`. -/
def registerAll (σ : ModuleSort) : List Module → List Module → List Module
  | registered, [] => registered
  | registered, stm :: calls => registerAll σ (registerModule σ registered stm).2 calls

/-- The modules among `calls` whose `RegisterModule` call returned no error, in order. -/
def accepted (σ : ModuleSort) : List Module → List Module → List Module
  | _, [] => []
  | registered, stm :: calls =>
    (if (registerModule σ registered stm).1 = none then [stm] else []) ++
      accepted σ (registerModule σ registered stm).2 calls

/-! ## One call -/

variable {σ : ModuleSort} {registered : List Module} {stm : Module}

theorem checkRegistered_eq_none_iff {key : List UInt8} {address : Address} :
    checkRegistered key address registered = none ↔
      ∀ m ∈ registered, m.configKey ≠ key ∧ m.address ≠ address := by
  induction registered with
  | nil => simp [checkRegistered]
  | cons m ms ih =>
    by_cases hk : m.configKey = key
    · simp [checkRegistered, hk]
    · by_cases ha : m.address = address
      · simp [checkRegistered, hk, ha]
      · simp [checkRegistered, hk, ha, ih]

/-- **The two outcomes of `RegisterModule`.** Either it returns an error and leaves the registry
as it was, or it returns none, every check passed, and the registry is the sorted registry with
the module appended. -/
theorem registerModule_cases (σ : ModuleSort) (registered : List Module) (stm : Module) :
    (∃ e, registerModule σ registered stm = (some e, registered)) ∨
    ((registerModule σ registered stm).1 = none ∧
      (registerModule σ registered stm).2 = σ.sort (registered ++ [stm]) ∧
      stm.address ≠ blackholeAddr ∧ reservedAddress stm.address = true ∧
      ∀ m ∈ registered, m.configKey ≠ stm.configKey ∧ m.address ≠ stm.address) := by
  unfold registerModule
  by_cases hb : stm.address = blackholeAddr
  · exact .inl ⟨_, if_pos hb⟩
  by_cases hr : reservedAddress stm.address = true
  · cases hc : checkRegistered stm.configKey stm.address registered with
    | some e => exact .inl ⟨e, by simp [hb, hr, hc]⟩
    | none => exact .inr ⟨by simp [hb, hr, hc], by simp [hb, hr, hc, insertSortedByAddress], hb, hr,
        checkRegistered_eq_none_iff.1 hc⟩
  · exact .inl ⟨.notReserved stm.address, by simp [hb, hr]⟩

/-- A call that returns an error leaves the registry unchanged. -/
theorem registerModule_of_error {e : RegisterError}
    (h : (registerModule σ registered stm).1 = some e) :
    (registerModule σ registered stm).2 = registered := by
  rcases registerModule_cases σ registered stm with ⟨e', he⟩ | ⟨hn, -⟩
  · rw [he]
  · rw [hn] at h
    cases h

/-- A call that returns no error adds the module and loses or duplicates none. -/
theorem registerModule_perm_of_ok (h : (registerModule σ registered stm).1 = none) :
    (registerModule σ registered stm).2.Perm (registered ++ [stm]) := by
  rcases registerModule_cases σ registered stm with ⟨e, he⟩ | ⟨-, hs, -⟩
  · rw [he] at h
    cases h
  · rw [hs]
    exact σ.perm _

/-! ## The invariant -/

/-- The invariant of the registry. -/
structure RegistryInv (registered : List Module) : Prop where
  keys_nodup : (registered.map Module.configKey).Nodup
  addresses_nodup : (registered.map Module.address).Nodup
  reserved : ∀ m ∈ registered, reservedAddress m.address = true
  not_blackhole : ∀ m ∈ registered, m.address ≠ blackholeAddr

theorem RegistryInv.nil : RegistryInv [] :=
  ⟨List.nodup_nil, List.nodup_nil, (fun _ h => nomatch h), fun _ h => nomatch h⟩

/-- Appending a value absent from a duplicate-free list keeps it duplicate-free. -/
theorem nodup_append_singleton {α : Type} {l : List α} {a : α} (hl : l.Nodup) (ha : a ∉ l) :
    (l ++ [a]).Nodup :=
  List.nodup_append.2 ⟨hl, List.nodup_singleton a, List.disjoint_singleton.2 ha⟩

/-- **`RegisterModule` keeps the invariant.** -/
theorem RegistryInv.register (h : RegistryInv registered) (σ : ModuleSort) (stm : Module) :
    RegistryInv (registerModule σ registered stm).2 := by
  rcases registerModule_cases σ registered stm with ⟨e, he⟩ | ⟨-, hs, hb, hr, hfresh⟩
  · rwa [he]
  have hperm : ((registerModule σ registered stm).2).Perm (registered ++ [stm]) := hs ▸ σ.perm _
  have hmem : ∀ m, m ∈ (registerModule σ registered stm).2 ↔ m ∈ registered ∨ m = stm := by
    simp [hperm.mem_iff]
  refine ⟨?_, ?_, fun m hm => ?_, fun m hm => ?_⟩
  · rw [(hperm.map _).nodup_iff, List.map_append, List.map_singleton]
    exact nodup_append_singleton h.keys_nodup
      (by simpa using fun m hm => (hfresh m hm).1)
  · rw [(hperm.map _).nodup_iff, List.map_append, List.map_singleton]
    exact nodup_append_singleton h.addresses_nodup
      (by simpa using fun m hm => (hfresh m hm).2)
  · rcases (hmem m).1 hm with hm | rfl
    exacts [h.reserved m hm, hr]
  · rcases (hmem m).1 hm with hm | rfl
    exacts [h.not_blackhole m hm, hb]

/-- **Every sequence of calls keeps the invariant.** -/
theorem RegistryInv.run (h : RegistryInv registered) (σ : ModuleSort)
    (calls : List Module) : RegistryInv (registerAll σ registered calls) := by
  induction calls generalizing registered with
  | nil => exact h
  | cons stm calls ih => exact ih (h.register σ stm)

/-- **A run registers exactly the modules whose call succeeded.** -/
theorem registerAll_perm (σ : ModuleSort) (registered calls : List Module) :
    (registerAll σ registered calls).Perm (registered ++ accepted σ registered calls) := by
  induction calls generalizing registered with
  | nil => simp [registerAll, accepted]
  | cons stm calls ih =>
    simp only [registerAll, accepted]
    refine (ih _).trans ?_
    by_cases hok : (registerModule σ registered stm).1 = none
    · rw [if_pos hok, ← List.append_assoc]
      exact (registerModule_perm_of_ok hok).append_right _
    · obtain ⟨e, he⟩ := Option.ne_none_iff_exists'.1 hok
      rw [if_neg hok, registerModule_of_error he, List.nil_append]

/-! ## Lookups -/

/-- When the values of `f` on the registry are distinct, the lookup by `f` finds a module exactly
when it is registered with that value. -/
theorem findModule_eq_iff {α : Type} [DecidableEq α] {f : Module → α}
    (hf : (registered.map f).Nodup) (a : α) (m : Module) :
    findModule (fun stm => f stm = a) registered = (m, true) ↔ m ∈ registered ∧ f m = a := by
  unfold findModule
  constructor
  · intro h
    split at h
    · next stm hfind =>
      obtain ⟨rfl, -⟩ := Prod.mk.inj h
      exact ⟨List.mem_of_find?_eq_some hfind, by simpa using List.find?_some hfind⟩
    · cases h
  · rintro ⟨hm, rfl⟩
    have hsome : (registered.find? fun stm => decide (f stm = f m)).isSome :=
      List.find?_isSome.2 ⟨m, hm, by simp⟩
    obtain ⟨m', hfind⟩ := Option.isSome_iff_exists.1 hsome
    have hm' := List.mem_of_find?_eq_some hfind
    have hfm' : f m' = f m := by simpa using List.find?_some hfind
    rw [hfind, List.inj_on_of_nodup_map hf hm' hm hfm']

/-- **The registry `RegisterModule` builds.** For every sequence of calls from the empty
registry: the config keys and the addresses of the registered modules are distinct, and every
address is reserved and not the blackhole address; a further call that fails leaves the registry
as it is, and one that succeeds adds exactly its module; the registry holds exactly the modules
whose call succeeded; and each lookup returns `(m, true)` exactly for a module `m` registered
under the address or key asked for. -/
theorem registry_lookup (σ : ModuleSort) (calls : List Module) :
    RegistryInv (registerAll σ [] calls) ∧
    (∀ stm e, (registerModule σ (registerAll σ [] calls) stm).1 = some e →
      (registerModule σ (registerAll σ [] calls) stm).2 = registerAll σ [] calls) ∧
    (∀ stm, (registerModule σ (registerAll σ [] calls) stm).1 = none →
      ((registerModule σ (registerAll σ [] calls) stm).2).Perm
        (registerAll σ [] calls ++ [stm])) ∧
    (registerAll σ [] calls).Perm (accepted σ [] calls) ∧
    (∀ a m, getPrecompileModuleByAddress (registerAll σ [] calls) a = (m, true) ↔
      m ∈ accepted σ [] calls ∧ m.address = a) ∧
    (∀ k m, getPrecompileModule (registerAll σ [] calls) k = (m, true) ↔
      m ∈ accepted σ [] calls ∧ m.configKey = k) := by
  have hinv := RegistryInv.nil.run σ calls
  have hperm := registerAll_perm σ [] calls
  rw [List.nil_append] at hperm
  refine ⟨hinv, fun _ _ => registerModule_of_error, fun _ => registerModule_perm_of_ok, hperm,
    fun a m => ?_, fun k m => ?_⟩
  · rw [getPrecompileModuleByAddress, findModule_eq_iff hinv.addresses_nodup, hperm.mem_iff]
  · rw [getPrecompileModule, findModule_eq_iff hinv.keys_nodup, hperm.mem_iff]

end Precompiles.Modules
