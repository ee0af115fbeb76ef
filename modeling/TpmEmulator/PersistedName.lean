import TpmEmulator.PrimaryKeys
import TpmEmulator.ReferenceHost
import TpmEmulator.Library.StructLayout

/-!
The name of a primary object in memory. `TPM2B_NAME` ends in a flexible array, which adds
nothing to the size of the structure. `tpm2_CreatePrimary` writes 34 bytes through that
array, and keeps a copy with a structure assignment. `nameTrace` follows the two objects
byte by byte and records the positions that are written; the model of the source is what
one reads from its memories.
-/
namespace TpmEmulator

open CellMemory BigEndian StructLayout

def sizeofTpm2bName : Nat := sizeofMembers [uint16 0]

def nameOffset : Nat := alignUp 1 (endOf 0 [uint16 0])

def nameOfMemory (memory : Nat → UInt8) : Tpm2bName :=
  ⟨ofLeBytes (slice memory 0 2), advance memory nameOffset⟩

structure NameStore where
  offset : Nat
  bytes : List UInt8

def applyStores (memory : Nat → UInt8) (stores : List NameStore) : Nat → UInt8 :=
  stores.foldl (fun memory w => store memory w.offset w.bytes) memory

def writtenAt (stores : List NameStore) : List Nat :=
  stores.flatMap fun w => List.range' w.offset w.bytes.length

def outputStores (host : Host) (outPublic : Tpm2bPublic) : List NameStore :=
  [⟨0, leBytes 2 (2 + 32)⟩,
    ⟨nameOffset + 0, [UInt8.ofNat (tpmAlgSha256 / 2 ^ 8)]⟩,
    ⟨nameOffset + 1, [UInt8.ofNat tpmAlgSha256]⟩,
    ⟨nameOffset + 2, (host.sha256 (host.publicBytes outPublic.publicArea)).toList⟩]

/-- `s->primary_name = *name` copies the bytes of the structure. -/
def persistedStores (output : Nat → UInt8) : List NameStore :=
  [⟨0, slice output 0 sizeofTpm2bName⟩]

/-- The memories of the two objects after a call, and the positions written in each. -/
structure NameTrace where
  output : Nat → UInt8
  persisted : Nat → UInt8
  outputWrites : List Nat
  persistedWrites : List Nat

/-- What `tpm2_CreatePrimary` does to the object `*name` and to `s->primary_name`. -/
def nameTrace (host : Host) (s : Tpm2State) (primaryHandle : Nat) (inPublic : Tpm2bPublic)
    (output persisted : Nat → UInt8) : NameTrace :=
  match hierarchySeed s primaryHandle with
  | none => ⟨output, persisted, [], []⟩
  | some seed =>
    if inPublic.publicArea.type ≠ tpmAlgEcc then ⟨output, persisted, [], []⟩
    else
      let outPublic := primaryOutPublic host inPublic.publicArea (primaryPrivate host seed)
      let filled := applyStores output (outputStores host outPublic)
      ⟨filled, applyStores persisted (persistedStores filled),
        writtenAt (outputStores host outPublic), writtenAt (persistedStores filled)⟩

theorem sizeofTpm2bName_eq : sizeofTpm2bName = 2 := by decide

theorem nameOffset_eq : nameOffset = 2 := by decide

theorem nameOfMemory_output (host : Host) (outPublic : Tpm2bPublic) (memory : Nat → UInt8) :
    nameOfMemory (applyStores memory (outputStores host outPublic)) =
      primaryNameOf host outPublic (nameOfMemory memory) := by
  generalize hhash : (host.sha256 (host.publicBytes outPublic.publicArea)).toList = hash
  have hmemory : applyStores memory (outputStores host outPublic) =
      store (store memory 0 (leBytes 2 34)) 2 (bytes16 tpmAlgSha256 ++ hash) := by
    have hparts : bytes16 tpmAlgSha256 ++ hash =
      [UInt8.ofNat (tpmAlgSha256 / 2 ^ 8)] ++ ([UInt8.ofNat tpmAlgSha256] ++ hash) := rfl
    rw [hparts, store_append, store_append, ← hhash]
    rfl
  have hsize : slice (store (store memory 0 (leBytes 2 34)) 2
      (bytes16 tpmAlgSha256 ++ hash)) 0 2 = leBytes 2 34 :=
    (slice_store_disjoint _ _ _ 0 2 (Or.inl (by decide))).trans
      (slice_store_same memory 0 (leBytes 2 34))
  rw [hmemory, nameOfMemory, hsize, nameOffset_eq, advance_store _ 2 0,
    advance_store_past memory 0 _ (by decide), primaryNameOf, hhash]
  rfl

theorem nameOfMemory_persisted (memory output : Nat → UInt8) :
    nameOfMemory (applyStores memory (persistedStores output)) =
      (nameOfMemory memory).assign (nameOfMemory output) := by
  have hsame := slice_store_same memory 0 (slice output 0 2)
  rw [length_slice] at hsame
  rw [nameOfMemory, applyStores, persistedStores, sizeofTpm2bName_eq, List.foldl_cons,
    List.foldl_nil, hsame, nameOffset_eq, advance_store_past memory 0 _ (by simp)]
  rfl

section Call

variable (host : Host) (s : Tpm2State) (primaryHandle : Nat) (inSensitive : SensitiveCreate)
  (inPublic outPublic : Tpm2bPublic) (output persisted : Nat → UInt8)

theorem tpm2CreatePrimary_nameTrace (hpersisted : s.primaryName = nameOfMemory persisted) :
    (tpm2CreatePrimary host s primaryHandle inSensitive inPublic outPublic
        (nameOfMemory output)).2.2.2 =
      nameOfMemory (nameTrace host s primaryHandle inPublic output persisted).output ∧
    (tpm2CreatePrimary host s primaryHandle inSensitive inPublic outPublic
        (nameOfMemory output)).2.1.primaryName =
      nameOfMemory (nameTrace host s primaryHandle inPublic output persisted).persisted := by
  cases hseed : hierarchySeed s primaryHandle with
  | none =>
      rw [tpm2CreatePrimary_no_hierarchy host s _ _ _ _ hseed]
      simp only [nameTrace, hseed]
      exact ⟨trivial, hpersisted⟩
  | some seed =>
      by_cases htype : inPublic.publicArea.type = tpmAlgEcc
      · rw [tpm2CreatePrimary_ecc host s _ _ _ _ hseed htype]
        simp only [nameTrace, hseed, htype, ne_eq, not_true_eq_false, if_false,
          nameOfMemory_output, nameOfMemory_persisted]
        refine ⟨trivial, ?_⟩
        rw [← hpersisted]
        rfl
      · rw [tpm2CreatePrimary_not_ecc host s _ _ _ _ hseed htype]
        simp only [nameTrace, hseed, htype, ne_eq, not_false_eq_true, if_true]
        exact ⟨trivial, hpersisted⟩

/-- The law of the persisted name: a successful call keeps the name that it returns, stays
inside both objects, and changes no other field of the state than the primary object. -/
def NamePersisted : Prop :=
  let r := tpm2CreatePrimary host s primaryHandle inSensitive inPublic outPublic
    (nameOfMemory output)
  let trace := nameTrace host s primaryHandle inPublic output persisted
  r.1 = tpmRcSuccess →
    (r.2.2.2.size = 34 ∧ r.2.1.primaryName.size = 34) ∧
    slice r.2.1.primaryName.name 0 34 = slice r.2.2.2.name 0 34 ∧
    (∀ i ∈ trace.outputWrites, i < sizeofTpm2bName) ∧
    (∀ i ∈ trace.persistedWrites, i < sizeofTpm2bName) ∧
    r.2.1 = { s with
      primarySensitive := r.2.1.primarySensitive
      primaryPublic := r.2.1.primaryPublic
      primaryName := r.2.1.primaryName }

/-- The positions that a successful call writes: all 36 of the output, of which the
structure has two, and the two of the persisted object. -/
theorem nameTrace_writes {seed : Nat → UInt8} (hseed : hierarchySeed s primaryHandle = some seed)
    (htype : inPublic.publicArea.type = tpmAlgEcc) :
    (nameTrace host s primaryHandle inPublic output persisted).outputWrites = List.range 36 ∧
      (nameTrace host s primaryHandle inPublic output persisted).persistedWrites = [0, 1] := by
  simp only [nameTrace, hseed, htype, ne_eq, not_true_eq_false, if_false]
  constructor
  · simp only [writtenAt, outputStores, List.flatMap_cons, List.flatMap_nil, Vector.length_toList,
      List.length_singleton, nameOffset_eq]
    decide
  · simp only [writtenAt, persistedStores, List.flatMap_cons, List.flatMap_nil, length_slice,
      sizeofTpm2bName_eq]
    decide

theorem tpm2CreatePrimary_success_iff (name : Tpm2bName) :
    (tpm2CreatePrimary host s primaryHandle inSensitive inPublic outPublic name).1 =
        tpmRcSuccess ↔
      (∃ seed, hierarchySeed s primaryHandle = some seed) ∧
        inPublic.publicArea.type = tpmAlgEcc := by
  cases hseed : hierarchySeed s primaryHandle with
  | none =>
      rw [tpm2CreatePrimary_no_hierarchy host s _ _ _ _ hseed]
      simp [tpmRcHierarchy, tpmRcSuccess]
  | some seed =>
      by_cases htype : inPublic.publicArea.type = tpmAlgEcc
      · rw [tpm2CreatePrimary_ecc host s _ _ _ _ hseed htype]
        simp [htype]
      · rw [tpm2CreatePrimary_not_ecc host s _ _ _ _ hseed htype]
        simp [htype, tpmRcAsymmetric, tpmRcSuccess]

/-- What a successful call keeps of the name: its size, in front of the bytes that were
there before. -/
theorem tpm2CreatePrimary_names {name : Tpm2bName}
    (hrc : (tpm2CreatePrimary host s primaryHandle inSensitive inPublic outPublic name).1 =
      tpmRcSuccess) :
    (tpm2CreatePrimary host s primaryHandle inSensitive inPublic outPublic name).2.1.primaryName =
        ⟨34, s.primaryName.name⟩ ∧
      ∃ hash : Vector UInt8 32,
        (tpm2CreatePrimary host s primaryHandle inSensitive inPublic outPublic name).2.2.2 =
          ⟨34, store name.name 0 (bytes16 tpmAlgSha256 ++ hash.toList)⟩ := by
  obtain ⟨⟨seed, hseed⟩, htype⟩ := (tpm2CreatePrimary_success_iff host s primaryHandle
    inSensitive inPublic outPublic name).mp hrc
  rw [tpm2CreatePrimary_ecc host s _ _ _ _ hseed htype]
  exact ⟨rfl, _, rfl⟩

/-- The law holds exactly of the calls that are refused: an unknown hierarchy, or another
type than ECC. An accepted call keeps the size and leaves the rest of the state alone, but
34 of the 36 bytes written to the output are outside of it, and what is kept behind the size
is what was there before. The objects the call returns and keeps are those of the trace. -/
theorem namePersisted_iff (hpersisted : s.primaryName = nameOfMemory persisted) :
    let r := tpm2CreatePrimary host s primaryHandle inSensitive inPublic outPublic
      (nameOfMemory output)
    let trace := nameTrace host s primaryHandle inPublic output persisted
    (NamePersisted host s primaryHandle inSensitive inPublic outPublic output persisted ↔
      hierarchySeed s primaryHandle = none ∨ inPublic.publicArea.type ≠ tpmAlgEcc) ∧
    (r.2.2.2 = nameOfMemory trace.output ∧ r.2.1.primaryName = nameOfMemory trace.persisted) ∧
    (hierarchySeed s primaryHandle ≠ none → inPublic.publicArea.type = tpmAlgEcc →
      r.1 = tpmRcSuccess ∧ r.2.1.primaryName = ⟨34, s.primaryName.name⟩ ∧
      trace.outputWrites = List.range 36 ∧ trace.persistedWrites = [0, 1]) := by
  intro r trace
  have hsuccess := tpm2CreatePrimary_success_iff host s primaryHandle inSensitive inPublic
    outPublic (nameOfMemory output)
  refine ⟨⟨fun hlaw => ?_, fun hrefused hrc => ?_⟩, tpm2CreatePrimary_nameTrace host s
    primaryHandle inSensitive inPublic outPublic output persisted hpersisted,
    fun hknown htype => ?_⟩
  · by_contra haccepted
    obtain ⟨hknown, htype⟩ := not_or.mp haccepted
    obtain ⟨seed, hseed⟩ := Option.ne_none_iff_exists'.mp hknown
    rw [not_not] at htype
    obtain ⟨-, -, hinside, -⟩ := hlaw (hsuccess.mpr ⟨⟨seed, hseed⟩, htype⟩)
    rw [(nameTrace_writes host s _ inPublic output persisted hseed htype).1,
      sizeofTpm2bName_eq] at hinside
    exact absurd (hinside 2 (by decide)) (by decide)
  · obtain ⟨⟨seed, hseed⟩, htype⟩ := hsuccess.mp hrc
    rcases hrefused with hnone | hother
    · rw [hnone] at hseed
      cases hseed
    · exact absurd htype hother
  · obtain ⟨seed, hseed⟩ := Option.ne_none_iff_exists'.mp hknown
    have hrc := hsuccess.mpr ⟨⟨seed, hseed⟩, htype⟩
    exact ⟨hrc, (tpm2CreatePrimary_names host s primaryHandle inSensitive inPublic outPublic
      hrc).1, nameTrace_writes host s _ inPublic output persisted hseed htype⟩

end Call

def eccTemplate : Tpm2bPublic := ⟨376, { TpmtPublic.zero with type := tpmAlgEcc, curveId := 3 }⟩

def realizedName : Nat → UInt8 := store zeroBytes 0 (leBytes 2 34)

/-- The first key a guest asks for: its name is kept as a size in front of zeros. -/
theorem namePersisted_iff_first :
    let r := tpm2CreatePrimary referenceHost (tpm2Realize referenceHost) tpmRhOwner
      ⟨.zero, .zero⟩ eccTemplate .zero (nameOfMemory zeroBytes)
    let trace := nameTrace referenceHost (tpm2Realize referenceHost) tpmRhOwner eccTemplate
      zeroBytes realizedName
    r.1 = tpmRcSuccess ∧ r.2.1.primaryName = nameOfMemory realizedName ∧
      r.2.1.primaryName = nameOfMemory trace.persisted ∧
      trace.outputWrites = List.range 36 := by
  intro r trace
  have hname : (tpm2Realize referenceHost).primaryName = nameOfMemory realizedName := by
    have hsize := slice_store_same zeroBytes 0 (leBytes 2 34)
    rw [nameOfMemory, realizedName, nameOffset_eq, advance_store_past zeroBytes 0 _ (by decide),
      show slice (store zeroBytes 0 (leBytes 2 34)) 0 2 = leBytes 2 34 from hsize, tpm2Realize_eq]
    rfl
  obtain ⟨-, ⟨-, hkept⟩, haccepted⟩ := namePersisted_iff referenceHost (tpm2Realize referenceHost)
    tpmRhOwner ⟨.zero, .zero⟩ eccTemplate .zero zeroBytes realizedName hname
  obtain ⟨hrc, hsize, hwrites, -⟩ := haccepted (fun h => absurd h (Option.some_ne_none _)) rfl
  exact ⟨hrc, hsize.trans hname, hkept, hwrites⟩

/-- A call on the device that was just created: the name that it returns starts with
`00 0B` and what it keeps with `00 00`, and byte 35 of an object of two bytes is written. -/
theorem namePersisted_fails :
    ¬ NamePersisted referenceHost (tpm2Realize referenceHost) tpmRhOwner ⟨.zero, .zero⟩
      eccTemplate .zero zeroBytes realizedName ∧
    (let r := tpm2CreatePrimary referenceHost (tpm2Realize referenceHost) tpmRhOwner
      ⟨.zero, .zero⟩ eccTemplate .zero (nameOfMemory zeroBytes)
    r.1 = tpmRcSuccess ∧ r.2.1.primaryName.size = 34 ∧
      slice r.2.1.primaryName.name 0 2 = [0x00, 0x00] ∧
      slice r.2.2.2.name 0 2 = [0x00, 0x0B] ∧
      35 ∈ (nameTrace referenceHost (tpm2Realize referenceHost) tpmRhOwner eccTemplate
        zeroBytes realizedName).outputWrites ∧
      sizeofTpm2bName = 2) := by
  refine ⟨fun hlaw => ?_, by decide +kernel⟩
  obtain ⟨-, -, hinside, -⟩ := hlaw (by decide +kernel)
  exact absurd (hinside 35 (by decide +kernel)) (by decide)

theorem primaryName_effect {host : Host} {s : Tpm2State} {a : Access} {p : Persistent}
    (h : s.persistent.primaryName.name = zeroBytes) (heffect : Effect host s a p) :
    p.primaryName.name = zeroBytes := by
  cases heffect <;> exact h

theorem primaryName_reachable {host : Host} {s : Tpm2State} (h : Reachable host s) :
    s.primaryName.name = zeroBytes := by
  refine persistent_invariant (P := fun p => p.primaryName.name = zeroBytes) ?_
    (fun _ _ _ _ => primaryName_effect) h
  rw [tpm2Realize_eq]
  rfl

/-- In no reachable state does a successful call keep the bytes that it returns. -/
theorem name_not_kept {host : Host} {s : Tpm2State} (h : Reachable host s) (primaryHandle : Nat)
    (inSensitive : SensitiveCreate) (inPublic outPublic : Tpm2bPublic) {name : Tpm2bName}
    (hrc : (tpm2CreatePrimary host s primaryHandle inSensitive inPublic outPublic name).1 =
      tpmRcSuccess) :
    (tpm2CreatePrimary host s primaryHandle inSensitive inPublic outPublic
        name).2.1.primaryName.name 1 ≠
      (tpm2CreatePrimary host s primaryHandle inSensitive inPublic outPublic
        name).2.2.2.name 1 := by
  obtain ⟨hkept, hash, hreturned⟩ :=
    tpm2CreatePrimary_names host s primaryHandle inSensitive inPublic outPublic hrc
  have hsecond : store name.name 0 (bytes16 tpmAlgSha256 ++ hash.toList) (0 + 1) = 0x0B :=
    store_inside name.name 0 (bytes16 tpmAlgSha256 ++ hash.toList) 1 (by simp)
  rw [hkept, hreturned, primaryName_reachable h]
  dsimp only
  rw [hsecond]
  decide

end TpmEmulator
