import TpmEmulator.Effects
import TpmEmulator.ReferenceHost
import TpmEmulator.Library.BumpLayout

/-!
The representation invariant of the NV bank, and what one access may change in the
bank. The bank is the layout of a bump allocator whose blocks are the entries of
the table: the sixteen bytes of the initialization vector, then the data. Only
NV_DefineSpace allocates, at the cursor, and only NV_Write stores, inside the data
of its index, so the invariant holds along every run from realization.
-/
namespace TpmEmulator

open CellMemory BigEndian

/-- The length of an entry's block: initialization vector and data. -/
def NvEntry.extent (e : NvEntry) : Nat := 16 + e.dataLen

structure BankInvariant (p : Persistent) : Prop where
  bankSize : p.nvBankSize = tpm2NvStorageSize
  count : p.nvCount = p.nvMap.keys.card
  count_le : p.nvCount ≤ tpm2MaxNvIndexes
  packed : BumpLayout.Packed NvEntry.ivPtr NvEntry.extent p.nvMap p.nvAllocOffset
  cursor_le : p.nvAllocOffset ≤ p.nvBankSize
  key : ∀ {i e}, p.nvMap.lookup i = some e → e.pub.nvIndex = i
  sizes : ∀ {i e}, p.nvMap.lookup i = some e → e.dataLen = e.pub.dataSize
  adjacent : ∀ {i e}, p.nvMap.lookup i = some e → e.data = e.ivPtr + 16

/-- Anything that leaves the NV store alone keeps the invariant. -/
theorem BankInvariant.of_sameNv {s t : Tpm2State} (h : BankInvariant s.persistent)
    (hsame : SameNv s t) : BankInvariant t.persistent where
  bankSize := hsame.bankSize.trans h.bankSize
  count := by
    change t.nvCount = t.nvMap.keys.card
    rw [hsame.count, hsame.map]
    exact h.count
  count_le := hsame.count.trans_le h.count_le
  packed := by
    change BumpLayout.Packed _ _ t.nvMap t.nvAllocOffset
    rw [hsame.map, hsame.cursor]
    exact h.packed
  cursor_le := by
    change t.nvAllocOffset ≤ t.nvBankSize
    rw [hsame.cursor, hsame.bankSize]
    exact h.cursor_le
  key hlookup := h.key ((hsame.lookup _).symm.trans hlookup)
  sizes hlookup := h.sizes ((hsame.lookup _).symm.trans hlookup)
  adjacent hlookup := h.adjacent ((hsame.lookup _).symm.trans hlookup)

theorem bankInvariant_nvDefined {s : Tpm2State} {nv : NvPublic}
    (h : BankInvariant s.persistent) (hfresh : nv.nvIndex ∉ s.nvMap)
    (hcount : s.nvCount < tpm2MaxNvIndexes)
    (hroom : s.nvAllocOffset + (16 + nv.dataSize) ≤ s.nvBankSize) :
    BankInvariant (nvDefined s nv).persistent := by
  have hsize : s.nvBankSize = tpm2NvStorageSize := h.bankSize
  have hcard : s.nvCount = s.nvMap.keys.card := h.count
  -- Neither the cursor nor the counter can wrap: both are bounded far below 2 ^ 32.
  have hcursor : (s.nvAllocOffset + (16 + nv.dataSize)) % 2 ^ 32 =
      s.nvAllocOffset + (16 + nv.dataSize) := by
    simp only [tpm2NvStorageSize] at hsize
    omega
  have hcounter : (s.nvCount + 1) % 2 ^ 32 = s.nvCount + 1 := by
    simp only [tpm2MaxNvIndexes] at hcount
    omega
  let e := newEntry s.nvAllocOffset nv.nvIndex nv.dataSize nv.nameAlg nv.attributes
  have hpacked : BumpLayout.Packed NvEntry.ivPtr NvEntry.extent (s.nvMap.insert nv.nvIndex e)
      (s.nvAllocOffset + (16 + nv.dataSize)) := h.packed.insert_top hfresh rfl
  refine ⟨hsize, ?_, ?_, ?_, ?_, ?_, ?_, ?_⟩
  · change (s.nvCount + 1) % 2 ^ 32 = (s.nvMap.insert nv.nvIndex e).keys.card
    rw [hcounter, BumpLayout.keys_insert, Finset.card_insert_of_notMem, hcard]
    exact fun hmem => hfresh (Finmap.mem_keys.mp hmem)
  · change (s.nvCount + 1) % 2 ^ 32 ≤ tpm2MaxNvIndexes
    omega
  · change BumpLayout.Packed _ _ (s.nvMap.insert nv.nvIndex e)
      ((s.nvAllocOffset + (16 + nv.dataSize)) % 2 ^ 32)
    rw [hcursor]
    exact hpacked
  · change (s.nvAllocOffset + (16 + nv.dataSize)) % 2 ^ 32 ≤ s.nvBankSize
    omega
  · intro i e' hlookup
    exact BumpLayout.of_lookup_insert (P := fun i e => e.pub.nvIndex = i) hlookup h.key rfl
  · intro i e' hlookup
    exact BumpLayout.of_lookup_insert (P := fun _ e => e.dataLen = e.pub.dataSize) hlookup
      h.sizes rfl
  · intro i e' hlookup
    exact BumpLayout.of_lookup_insert (P := fun _ e => e.data = e.ivPtr + 16) hlookup
      h.adjacent rfl

theorem bankInvariant_nvWritten (host : Host) {s : Tpm2State} {nvIndex : Nat} {e : NvEntry}
    (data : Tpm2b) (offset : Nat) (h : BankInvariant s.persistent)
    (hlookup : s.nvMap.lookup nvIndex = some e) :
    BankInvariant (nvWritten host s nvIndex e data offset).persistent := by
  refine ⟨h.bankSize, ?_, h.count_le, ?_, h.cursor_le, ?_, ?_, ?_⟩
  · change s.nvCount = (s.nvMap.insert nvIndex e.markWritten).keys.card
    rw [BumpLayout.keys_insert_of_mem hlookup]
    exact h.count
  · exact h.packed.insert_same hlookup rfl rfl
  · intro i e' hlookup'
    exact BumpLayout.of_lookup_insert (P := fun i e => e.pub.nvIndex = i) hlookup' h.key
      (h.key (e := e) hlookup)
  · intro i e' hlookup'
    exact BumpLayout.of_lookup_insert (P := fun _ e => e.dataLen = e.pub.dataSize) hlookup'
      h.sizes (h.sizes (e := e) hlookup)
  · intro i e' hlookup'
    exact BumpLayout.of_lookup_insert (P := fun _ e => e.data = e.ivPtr + 16) hlookup'
      h.adjacent (h.adjacent (e := e) hlookup)

theorem bankInvariant_effect {host : Host} {s : Tpm2State} {a : Access} {p : Persistent}
    (h : BankInvariant s.persistent) (heffect : Effect host s a p) : BankInvariant p := by
  cases heffect with
  | none => exact h
  | define env params hexec hdefines =>
      exact bankInvariant_nvDefined h hdefines.fresh hdefines.count_lt hdefines.room
  | write env params e hexec hwrites => exact bankInvariant_nvWritten host _ _ h hwrites.entry
  | advance env params template hexec hcode hrequests hseed =>
      exact h.of_sameNv ⟨rfl, rfl, rfl, rfl, rfl, rfl⟩
  | wipe env params template seed hexec hcode hrequests hseed htype =>
      exact h.of_sameNv ⟨rfl, rfl, rfl, rfl, rfl, rfl⟩
  | create env params template seed hexec hcode hrequests hseed htype =>
      exact h.of_sameNv ⟨rfl, rfl, rfl, rfl, rfl, rfl⟩

theorem BankInvariant.effect {s : Tpm2State} (h : BankInvariant s.persistent) (host : Host)
    (a : Access) : Effect host s a (step host s a).persistent :=
  effect_step host (fun _ _ => h.sizes) a

theorem bankInvariant_blankDevice : BankInvariant blankDevice.persistent where
  bankSize := rfl
  count := rfl
  count_le := Nat.zero_le _
  packed := BumpLayout.Packed.empty
  cursor_le := Nat.zero_le _
  key h := by cases h
  sizes h := by cases h
  adjacent h := by cases h

theorem nvDefineSpaceChecks_testNvPublic :
    nvDefineSpaceChecks blankDevice tpm2ProvisionOwner testNvPublic = tpmRcSuccess := by
  decide

/-- Realization defines the test index and creates the key of the owner hierarchy. -/
theorem tpm2Realize_eq (host : Host) :
    tpm2Realize host = withPrimary host (withSeeds (nvDefined blankDevice testNvPublic))
      testSensitive ⟨host.sizeofTpmtPublic, testTemplate⟩ .zero (consecutiveBytes 0x10) := by
  have hdefine : tpm2TestDefinespace blankDevice = nvDefined blankDevice testNvPublic := by
    unfold tpm2TestDefinespace
    rw [tpm2NvDefineSpace_success _ nvDefineSpaceChecks_testNvPublic (by decide)]
  unfold tpm2Realize tpm2TestCreatePrimary
  rw [hdefine, tpm2CreatePrimary_ecc host _ _ _ _ _
    (show hierarchySeed (withSeeds (nvDefined blankDevice testNvPublic)) tpmRhOwner =
      some (consecutiveBytes 0x10) from rfl) rfl]

theorem bankInvariant_realize (host : Host) : BankInvariant (tpm2Realize host).persistent := by
  have hdefined : BankInvariant (nvDefined blankDevice testNvPublic).persistent :=
    bankInvariant_nvDefined bankInvariant_blankDevice
      (nvDefineSpaceChecks_success nvDefineSpaceChecks_testNvPublic).1 (by decide) (by decide)
  rw [tpm2Realize_eq]
  exact hdefined.of_sameNv ⟨rfl, rfl, rfl, rfl, rfl, rfl⟩

theorem bankInvariant_reachable {host : Host} {s : Tpm2State} (h : Reachable host s) :
    BankInvariant s.persistent := by
  refine h.invariant (P := fun s => BankInvariant s.persistent) ?_ ?_
  · rintro s rfl
    exact bankInvariant_realize host
  · intro s a hs
    exact bankInvariant_effect hs (hs.effect host a)

/-- The rule for an invariant of the persistent state: it holds at realization, and
every effect keeps it where the bank is well formed. -/
theorem persistent_invariant {host : Host} {P : Persistent → Prop}
    (realized : P (tpm2Realize host).persistent)
    (kept : ∀ s a p, BankInvariant s.persistent → P s.persistent → Effect host s a p → P p)
    {s : Tpm2State} (h : Reachable host s) : P s.persistent := by
  induction h with
  | start hs =>
      cases hs
      exact realized
  | next a hs ih =>
      have hinv := bankInvariant_reachable hs
      exact kept _ a _ hinv ih (hinv.effect host a)

theorem nvBank_nvDefined_outside (s : Tpm2State) (nv : NvPublic) {p : Nat}
    (h : p < s.nvAllocOffset ∨ s.nvAllocOffset + 16 + nv.dataSize ≤ p) :
    (nvDefined s nv).nvBank p = s.nvBank p := by
  change store (store s.nvBank s.nvAllocOffset (List.replicate 16 0)) (s.nvAllocOffset + 16)
    (List.replicate nv.dataSize 0) p = s.nvBank p
  rw [store_outside _ _ _ _ (by rw [List.length_replicate]; omega),
    store_outside _ _ _ _ (by rw [List.length_replicate]; omega)]

theorem nvBank_nvWritten_outside (host : Host) (s : Tpm2State) (nvIndex : Nat) (e : NvEntry)
    (data : Tpm2b) (offset : Nat) {p : Nat} (hkey : IsKeyLength s.primarySensitive.ecc.size)
    (h : p < e.data + offset ∨ e.data + offset + data.size ≤ p) :
    (nvWritten host s nvIndex e data offset).nvBank p = s.nvBank p := by
  change store s.nvBank (e.data + offset) (nvCiphertext host s e data) p = s.nvBank p
  have hlen : (nvCiphertext host s e data).length = data.size := by
    rw [nvCiphertext, length_nvCrypt host s e _ true hkey, length_slice]
  exact store_outside _ _ _ _ (hlen.symm ▸ h)

/-- A byte of the bank that an access changes lies in the data that it writes or in
the slice that it allocates. -/
theorem nvBank_effect {host : Host} {s : Tpm2State} {a : Access} {t : Persistent}
    (heffect : Effect host s a t) {p : Nat} (hp : t.nvBank p ≠ s.nvBank p) :
    (∃ env params e, a.Executes s env ∧ Writes env s params e ∧ e.data + params.offset ≤ p ∧
      p < e.data + params.offset + params.data.size) ∨
    (∃ env params, a.Executes s env ∧ Defines env s params ∧
      t = (nvDefined s (nvPublicOf params)).persistent ∧ s.nvAllocOffset ≤ p ∧
      p < s.nvAllocOffset + 16 + params.dataSize) := by
  cases heffect with
  | define env params hexec hdefines =>
      refine .inr ⟨env, params, hexec, hdefines, rfl, ?_⟩
      by_contra hout
      exact hp (nvBank_nvDefined_outside s (nvPublicOf params)
        (show p < s.nvAllocOffset ∨ s.nvAllocOffset + 16 + params.dataSize ≤ p by omega))
  | write env params e hexec hwrites =>
      refine .inl ⟨env, params, e, hexec, hwrites, ?_⟩
      by_contra hout
      exact hp (nvBank_nvWritten_outside host s params.nvIndex e params.data params.offset
        hwrites.writable.key (by omega))
  | none | advance | wipe | create => exact absurd rfl hp

/-- The NV bank in every reachable state, and the bytes of it that the next access
can change. -/
theorem nvBank_representation (host : Host) {s : Tpm2State} (h : Reachable host s) :
    (s.nvCount = s.nvMap.keys.card ∧ s.nvCount ≤ 16) ∧
    (s.nvAllocOffset =
        ∑ i ∈ s.nvMap.keys, (s.nvMap.lookup i).elim 0 (fun e => 16 + e.dataLen) ∧
      s.nvAllocOffset ≤ s.nvBankSize ∧ s.nvBankSize = 6962) ∧
    (∀ i e, s.nvMap.lookup i = some e →
      e.pub.nvIndex = i ∧ e.dataLen = e.pub.dataSize ∧ e.data = e.ivPtr + 16 ∧
        e.data + e.dataLen ≤ s.nvAllocOffset) ∧
    (∀ i j e f, s.nvMap.lookup i = some e → s.nvMap.lookup j = some f → i ≠ j →
      e.data + e.dataLen ≤ f.ivPtr ∨ f.data + f.dataLen ≤ e.ivPtr) ∧
    (∀ a p, (step host s a).nvBank p ≠ s.nvBank p →
      (∃ env params e, a.Executes s env ∧ Writes env s params e ∧
        e.data + params.offset ≤ p ∧ p < e.data + params.offset + params.data.size) ∨
      (∃ env params e, a.Executes s env ∧ Defines env s params ∧
        (step host s a).nvMap.lookup params.nvIndex = some e ∧ e.ivPtr = s.nvAllocOffset ∧
        e.ivPtr ≤ p ∧ p < e.data + e.dataLen)) := by
  have hinv := bankInvariant_reachable h
  refine ⟨⟨hinv.count, hinv.count_le⟩, ⟨hinv.packed.cursor_eq, hinv.cursor_le, hinv.bankSize⟩,
    ?_, ?_, ?_⟩
  · intro i e hlookup
    have hinside : e.ivPtr + (16 + e.dataLen) ≤ s.nvAllocOffset := hinv.packed.inside hlookup
    have hdata := hinv.adjacent hlookup
    exact ⟨hinv.key hlookup, hinv.sizes hlookup, hdata, by omega⟩
  · intro i j e f he hf hne
    have hdisjoint : e.ivPtr + (16 + e.dataLen) ≤ f.ivPtr ∨
        f.ivPtr + (16 + f.dataLen) ≤ e.ivPtr := hinv.packed.disjoint he hf hne
    have hdata := hinv.adjacent he
    have hdata' := hinv.adjacent hf
    omega
  · intro a p hp
    obtain hwrites | ⟨env, params, hexec, hdefines, hstep, hlow, hhigh⟩ :=
      nvBank_effect (hinv.effect host a) hp
    · exact .inl hwrites
    · refine .inr ⟨env, params, newEntry s.nvAllocOffset params.nvIndex params.dataSize
        params.nameAlg (nvPublicOf params).attributes, hexec, hdefines, ?_, rfl, hlow, hhigh⟩
      rw [show (step host s a).nvMap = _ from congrArg Persistent.nvMap hstep]
      exact Finmap.lookup_insert _

theorem nvBank_representation_defined :
    (afterCommands [cmdNvDefineSpace]).nvCount = 2 ∧
      (afterCommands [cmdNvDefineSpace]).nvCount =
        (afterCommands [cmdNvDefineSpace]).nvMap.keys.card ∧
      (afterCommands [cmdNvDefineSpace]).nvAllocOffset = 96 := by
  have h := nvBank_representation referenceHost (reachable_afterCommands [cmdNvDefineSpace])
  exact ⟨by decide +kernel, h.1.1, by decide +kernel⟩

end TpmEmulator
