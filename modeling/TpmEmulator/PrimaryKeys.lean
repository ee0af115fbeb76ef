import TpmEmulator.BankInvariant

/-!
The secrets of the device. The hierarchies' seeds are set at realization and never
change; the primary key is derived from the seed of some hierarchy, or it has been
wiped by a CreatePrimary command for another type of key.
-/
namespace TpmEmulator

open CellMemory BigEndian

/-- The seeds of the owner, the platform and the endorsement hierarchy. -/
def hierarchySeeds : List (Nat → UInt8) :=
  [consecutiveBytes 0x10, consecutiveBytes 0x30, consecutiveBytes 0x50]

/-- The keys that can be derived from them. -/
def hierarchyKeys (host : Host) : List (List UInt8) := hierarchySeeds.map (primaryPrivate host)

/-- The AES key of the NV store: the private key of the primary object. -/
def installedKey (p : Persistent) : List UInt8 :=
  slice p.primarySensitive.ecc.buffer 0 p.primarySensitive.ecc.size

structure KeyInvariant (host : Host) (p : Persistent) : Prop where
  mode : p.tpmMode = .normal
  sps : p.sps = consecutiveBytes 0x10
  pps : p.pps = consecutiveBytes 0x30
  eps : p.eps = consecutiveBytes 0x50
  seed : ∃ seed ∈ hierarchySeeds, p.primarySensitive.seedValue =
    ⟨32, store zeroBytes 0 (slice seed 0 32)⟩
  key : p.primarySensitive.ecc.size = 0 ∨ (p.primarySensitive.ecc.size = 32 ∧
    installedKey p = primaryPrivate host p.primarySensitive.seedValue.buffer)

/-- Only the first 32 bytes of a seed enter the derivation. -/
theorem primaryPrivate_congr (host : Host) {seed seed' : Nat → UInt8}
    (h : slice seed 0 32 = slice seed' 0 32) :
    primaryPrivate host seed = primaryPrivate host seed' := by
  rw [primaryPrivate, primaryPrivate, h]

theorem length_primaryPrivate (host : Host) (seed : Nat → UInt8) :
    (primaryPrivate host seed).length = 32 :=
  length_slice _ _ _

theorem slice_seedValue (seed : Nat → UInt8) :
    slice (store zeroBytes 0 (slice seed 0 32)) 0 32 = slice seed 0 32 := by
  have h := slice_store_same zeroBytes 0 (slice seed 0 32)
  rwa [length_slice] at h

theorem KeyInvariant.hierarchySeed_mem {host : Host} {s : Tpm2State}
    (h : KeyInvariant host s.persistent) {primaryHandle : Nat} {seed : Nat → UInt8}
    (hseed : hierarchySeed s primaryHandle = some seed) : seed ∈ hierarchySeeds := by
  have hsps : s.sps = consecutiveBytes 0x10 := h.sps
  have hpps : s.pps = consecutiveBytes 0x30 := h.pps
  have heps : s.eps = consecutiveBytes 0x50 := h.eps
  unfold hierarchySeed at hseed
  rw [hsps, hpps, heps] at hseed
  simp only [hierarchySeeds, List.mem_cons, List.not_mem_nil, or_false]
  split at hseed
  · exact .inl (Option.some.inj hseed).symm
  split at hseed
  · exact .inr (.inl (Option.some.inj hseed).symm)
  split at hseed
  · exact .inr (.inr (Option.some.inj hseed).symm)
  · cases hseed

/-- The key of the NV store is one of three, whatever the guest has done. -/
theorem KeyInvariant.installedKey_mem {host : Host} {p : Persistent} (h : KeyInvariant host p)
    (hkey : IsKeyLength p.primarySensitive.ecc.size) : installedKey p ∈ hierarchyKeys host := by
  obtain hzero | ⟨-, heq⟩ := h.key
  · rw [hzero] at hkey
    exact absurd hkey (by unfold IsKeyLength; decide)
  obtain ⟨seed, hmem, hseed⟩ := h.seed
  rw [heq, hseed]
  refine List.mem_map.mpr ⟨seed, hmem, ?_⟩
  exact (primaryPrivate_congr host (slice_seedValue seed)).symm

/-- The key that a successful CreatePrimary installs. -/
theorem installedKey_withPrimary (host : Host) (s : Tpm2State) (inSensitive : SensitiveCreate)
    (inPublic : Tpm2bPublic) (name : Tpm2bName) (seed : Nat → UInt8) :
    installedKey (withPrimary host s inSensitive inPublic name seed).persistent =
      primaryPrivate host seed := by
  have h := slice_store_same zeroBytes 0 (primaryPrivate host seed)
  rwa [length_primaryPrivate] at h

theorem keyInvariant_withPrimary {host : Host} {s : Tpm2State} (inSensitive : SensitiveCreate)
    (inPublic : Tpm2bPublic) (name : Tpm2bName) {seed : Nat → UInt8} (hmode : s.tpmMode = .normal)
    (hsps : s.sps = consecutiveBytes 0x10) (hpps : s.pps = consecutiveBytes 0x30)
    (heps : s.eps = consecutiveBytes 0x50) (hmem : seed ∈ hierarchySeeds) :
    KeyInvariant host (withPrimary host s inSensitive inPublic name seed).persistent := by
  refine ⟨hmode, hsps, hpps, heps, ⟨seed, hmem, rfl⟩, .inr ⟨rfl, ?_⟩⟩
  rw [installedKey_withPrimary]
  exact primaryPrivate_congr host (slice_seedValue seed).symm

theorem keyInvariant_effect {host : Host} {s : Tpm2State} {a : Access} {p : Persistent}
    (h : KeyInvariant host s.persistent) (heffect : Effect host s a p) : KeyInvariant host p := by
  cases heffect with
  | none => exact h
  | define env params hexec hdefines => exact ⟨h.mode, h.sps, h.pps, h.eps, h.seed, h.key⟩
  | write env params e hexec hwrites => exact ⟨h.mode, h.sps, h.pps, h.eps, h.seed, h.key⟩
  | advance env params template hexec hcode hrequests hseed =>
      exact ⟨h.mode, h.sps, h.pps, h.eps, h.seed, h.key⟩
  | wipe env params template seed hexec hcode hrequests hseed htype =>
      exact ⟨h.mode, h.sps, h.pps, h.eps, ⟨seed, h.hierarchySeed_mem hseed, rfl⟩, .inl rfl⟩
  | create env params template seed hexec hcode hrequests hseed htype =>
      exact keyInvariant_withPrimary _ _ _ h.mode h.sps h.pps h.eps (h.hierarchySeed_mem hseed)

theorem keyInvariant_realize (host : Host) : KeyInvariant host (tpm2Realize host).persistent := by
  rw [tpm2Realize_eq]
  exact keyInvariant_withPrimary _ _ _ rfl rfl rfl rfl (.head _)

theorem keyInvariant_reachable {host : Host} {s : Tpm2State} (h : Reachable host s) :
    KeyInvariant host s.persistent :=
  persistent_invariant (keyInvariant_realize host) (fun _ _ _ _ => keyInvariant_effect) h

end TpmEmulator
