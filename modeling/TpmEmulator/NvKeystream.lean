import TpmEmulator.PrimaryKeys
import TpmEmulator.NvCommands

/-!
The keystream of the NV store. Every NV_Write encrypts from the initialization
vector of its entry, and `nv_entry_alloc` sets that vector to zero, once, when the
index is defined. So the vector never tells two encryptions apart; the key does, and
it changes only when CreatePrimary installs the key of another hierarchy.
-/
namespace TpmEmulator

open CellMemory BigEndian

/-- The initialization vector of every entry is zero. -/
def IvsZero (p : Persistent) : Prop :=
  ∀ i e, p.nvMap.lookup i = some e → ∀ k < 16, p.nvBank (e.ivPtr + k) = 0

theorem ivsZero_nvDefined {s : Tpm2State} (nv : NvPublic) (hinv : BankInvariant s.persistent)
    (h : IvsZero s.persistent) : IvsZero (nvDefined s nv).persistent := by
  intro i e hlookup k hk
  obtain ⟨-, rfl⟩ | ⟨-, hold⟩ := BumpLayout.lookup_insert_eq_some hlookup
  · change store (store s.nvBank s.nvAllocOffset (List.replicate 16 0)) (s.nvAllocOffset + 16)
      (List.replicate nv.dataSize 0) (s.nvAllocOffset + k) = 0
    rw [store_outside _ _ _ _ (.inl (by omega)),
      store_inside _ _ _ _ (by rw [List.length_replicate]; omega)]
    exact List.getElem_replicate ..
  · have hinside : e.ivPtr + (16 + e.dataLen) ≤ s.nvAllocOffset := hinv.packed.inside hold
    exact (nvBank_nvDefined_outside s nv (.inl (by omega))).trans (h i _ hold k hk)

/-- A write stays inside the data of its entry. -/
theorem ivsZero_nvWritten (host : Host) {s : Tpm2State} {nvIndex : Nat} {e : NvEntry}
    {data : Tpm2b} {offset : Nat} (hinv : BankInvariant s.persistent)
    (hentry : s.nvMap.lookup nvIndex = some e) (hwritable : NvWritable s e data offset)
    (h : IvsZero s.persistent) :
    IvsZero (nvWritten host s nvIndex e data offset).persistent := by
  have hdata := hinv.adjacent hentry
  have hfits := hwritable.fits
  intro i e' hlookup k hk
  obtain ⟨-, rfl⟩ | ⟨hne, hold⟩ := BumpLayout.lookup_insert_eq_some hlookup
  · exact (nvBank_nvWritten_outside host s nvIndex e data offset hwritable.key
      (show e.ivPtr + k < _ ∨ _ ≤ e.ivPtr + k by omega)).trans (h nvIndex _ hentry k hk)
  · have hdisjoint : e'.ivPtr + (16 + e'.dataLen) ≤ e.ivPtr ∨
        e.ivPtr + (16 + e.dataLen) ≤ e'.ivPtr := hinv.packed.disjoint hold hentry hne
    exact (nvBank_nvWritten_outside host s nvIndex e data offset hwritable.key
      (by omega)).trans (h i _ hold k hk)

theorem ivsZero_effect {host : Host} {s : Tpm2State} {a : Access} {p : Persistent}
    (hinv : BankInvariant s.persistent) (h : IvsZero s.persistent)
    (heffect : Effect host s a p) : IvsZero p := by
  cases heffect with
  | none => exact h
  | define env params hexec hdefines => exact ivsZero_nvDefined _ hinv h
  | write env params e hexec hwrites =>
      exact ivsZero_nvWritten host hinv hwrites.entry hwrites.writable h
  | advance env params template hexec hcode hrequests hseed => exact h
  | wipe env params template seed hexec hcode hrequests hseed htype => exact h
  | create env params template seed hexec hcode hrequests hseed htype => exact h

theorem ivsZero_reachable {host : Host} {s : Tpm2State} (h : Reachable host s) :
    IvsZero s.persistent := by
  refine persistent_invariant ?_ (fun _ _ _ => ivsZero_effect) h
  have hdefined : IvsZero (nvDefined blankDevice testNvPublic).persistent :=
    ivsZero_nvDefined _ bankInvariant_blankDevice fun _ _ hlookup => by cases hlookup
  rw [tpm2Realize_eq]
  exact hdefined

theorem nvIv_eq {host : Host} {s : Tpm2State} (h : Reachable host s) {i : Nat} {e : NvEntry}
    (hentry : s.nvMap.lookup i = some e) : nvIv s e = List.replicate 16 0 := by
  refine List.eq_replicate_iff.mpr ⟨length_slice _ _ _, fun b hb => ?_⟩
  obtain ⟨k, hk, rfl⟩ := List.getElem_of_mem hb
  rw [nvIv, length_slice] at hk
  simp only [nvIv, getElem_slice]
  exact ivsZero_reachable h i e hentry k hk

/-- One encryption of the NV store: what goes into it and what is found in the bank. -/
structure Encryption where
  key : List UInt8
  iv : List UInt8
  plaintext : List UInt8
  ciphertext : List UInt8
  deriving DecidableEq, Repr

/-- The encryption that the access makes if it executes an NV_Write that is answered
with success. -/
def encryptionOf (host : Host) (s : Tpm2State) (a : Access) : Option Encryption :=
  match a with
  | .read _ => none
  | .write env addr value =>
    if addr = tpm2CmdReg ∧ value = 1 ∧ s.state = .receiving ∧
        get32 s.commandBuffer 6 = tpmCcNvWrite ∧
        (responseHeader (step host s a)).code = tpmRcSuccess then
      match unmarshalNvWrite env.nvWriteParams env.bytesRead (commandBody env s)
          (commandBodySize s) with
      | .error _ => none
      | .ok (params, _) => (s.nvMap.lookup params.nvIndex).map fun e =>
          { key := installedKey s.persistent
            iv := nvIv s e
            plaintext := slice params.data.buffer 0 params.data.size
            ciphertext := slice (step host s a).nvBank (e.data + params.offset) params.data.size }
    else none

def encryptions (host : Host) (accesses : List Access) : List Encryption :=
  Runs.trace (step host) (encryptionOf host) (tpm2Realize host) accesses

/-- No two encryptions of different plaintexts use the same key and the same vector. -/
def NoKeystreamReuse (host : Host) (accesses : List Access) : Prop :=
  (encryptions host accesses).Pairwise fun r r' =>
    r.plaintext ≠ r'.plaintext → (r.key, r.iv) ≠ (r'.key, r'.iv)

instance (host : Host) (accesses : List Access) : Decidable (NoKeystreamReuse host accesses) :=
  inferInstanceAs (Decidable (List.Pairwise _ _))

/-- What is known of every encryption of a run. -/
structure Encryption.Sound (host : Host) (r : Encryption) : Prop where
  iv : r.iv = List.replicate 16 0
  key : r.key ∈ hierarchyKeys host
  ciphertext : r.ciphertext =
    CipherFeedback.encrypt (· ^^^ ·) (host.aesBlock r.key) r.iv r.plaintext

/-- The encryptions are those of the writes that pass every check in the state before. -/
theorem encryptionOf_eq_some_iff {host : Host} {s : Tpm2State} (h : Reachable host s) {a : Access}
    {r : Encryption} :
    encryptionOf host s a = some r ↔ ∃ env params e, a.Executes s env ∧ Writes env s params e ∧
      r = ⟨installedKey s.persistent, nvIv s e, slice params.data.buffer 0 params.data.size,
        slice (step host s a).nvBank (e.data + params.offset) params.data.size⟩ := by
  have hsuccess (env : Surroundings) (hstate : s.state = .receiving) :
      (get32 s.commandBuffer 6 = tpmCcNvWrite ∧
        (responseHeader (step host s (.write env tpm2CmdReg 1))).code = tpmRcSuccess) ↔
      ∃ params e, Writes env s params e :=
    nvWrite_success_iff host (fun _ _ => (bankInvariant_reachable h).sizes) hstate
  constructor
  · intro hr
    cases a with
    | read addr => cases hr
    | write env addr value =>
        unfold encryptionOf at hr
        dsimp only at hr
        split at hr
        swap
        · cases hr
        rename_i hchosen
        obtain ⟨rfl, rfl, hstate, hcmd, hcode⟩ := hchosen
        obtain ⟨params, e, hwrites⟩ := (hsuccess env hstate).mp ⟨hcmd, hcode⟩
        obtain ⟨bytesRead, hread⟩ := hwrites.unmarshal
        simp only [hread, hwrites.entry, Option.map_some, Option.some.injEq] at hr
        exact ⟨env, params, e, ⟨rfl, hstate⟩, hwrites, hr.symm⟩
  · rintro ⟨env, params, e, ⟨rfl, hstate⟩, hwrites, rfl⟩
    obtain ⟨hcmd, hcode⟩ := (hsuccess env hstate).mpr ⟨params, e, hwrites⟩
    obtain ⟨bytesRead, hread⟩ := hwrites.unmarshal
    simp only [encryptionOf, hstate, hcmd, hcode, and_self, if_true, hread, hwrites.entry,
      Option.map_some]

theorem sound_encryptionOf {host : Host} {s : Tpm2State} (h : Reachable host s) {a : Access}
    {r : Encryption} (hr : encryptionOf host s a = some r) : r.Sound host := by
  obtain ⟨env, params, e, hexec, hwrites, rfl⟩ := (encryptionOf_eq_some_iff h).mp hr
  have hkey := hwrites.writable.key
  refine ⟨nvIv_eq h hwrites.entry, (keyInvariant_reachable h).installedKey_mem hkey, ?_⟩
  have hbank : (step host s a).nvBank =
      store s.nvBank (e.data + params.offset) (nvCiphertext host s e params.data) := by
    rw [step_executes host hexec, hwrites.reply host]
    rfl
  have hslice := slice_store_same s.nvBank (e.data + params.offset)
    (nvCiphertext host s e params.data)
  rw [nvCiphertext, length_nvCrypt host s e _ true hkey, length_slice] at hslice
  dsimp only
  rw [hbank, nvCiphertext, hslice, nvCrypt_of_isKeyLength host s e _ true hkey]
  rfl

theorem sound_of_mem {host : Host} {accesses : List Access} {r : Encryption}
    (hr : r ∈ encryptions host accesses) : r.Sound host := by
  obtain ⟨before, a, after, -, hout⟩ := Runs.mem_trace hr
  exact sound_encryptionOf ((reachable_realize host).run before) hout

theorem xor_cancel (a b k : UInt8) : (a ^^^ k) ^^^ (b ^^^ k) = a ^^^ b := by
  rw [UInt8.xor_comm b k, UInt8.xor_assoc, ← UInt8.xor_assoc k k b, UInt8.xor_self,
    UInt8.zero_xor]

/-- Under one key the first blocks of two ciphertexts differ as the plaintexts do. -/
theorem Encryption.Sound.xor_first {host : Host} {r r' : Encryption} (h : r.Sound host)
    (h' : r'.Sound host) (hkey : r.key = r'.key) {i : Nat} (hi : i < 16) {p p' c c' : UInt8}
    (hp : r.plaintext[i]? = some p) (hp' : r'.plaintext[i]? = some p')
    (hc : r.ciphertext[i]? = some c) (hc' : r'.ciphertext[i]? = some c') :
    c ^^^ c' = p ^^^ p' := by
  obtain ⟨hlt, rfl⟩ := List.getElem?_eq_some_iff.mp hp
  obtain ⟨hlt', rfl⟩ := List.getElem?_eq_some_iff.mp hp'
  rw [h.ciphertext, CipherFeedback.getElem_encrypt_first _ _ _ _ i hlt hi] at hc
  rw [h'.ciphertext, CipherFeedback.getElem_encrypt_first _ _ _ _ i hlt' hi, ← hkey, h'.iv,
    ← h.iv] at hc'
  cases hc
  cases hc'
  exact xor_cancel _ _ _

/-- The private key of the hierarchy that the primary object was last created in. -/
def hierarchyKey (host : Host) (s : Tpm2State) : List UInt8 :=
  primaryPrivate host s.primarySensitive.seedValue.buffer

theorem installedKey_eq {host : Host} {s : Tpm2State} (h : Reachable host s)
    (hkey : IsKeyLength s.primarySensitive.ecc.size) :
    installedKey s.persistent = hierarchyKey host s := by
  obtain hzero | ⟨-, heq⟩ := (keyInvariant_reachable h).key
  · have hnone : s.primarySensitive.ecc.size = 0 := hzero
    rw [hnone] at hkey
    exact absurd hkey (by unfold IsKeyLength; decide)
  · exact heq

/-- A run reuses no keystream exactly when no two accepted writes of different plaintexts
meet the key of the same hierarchy, of which there are three. -/
theorem noKeystreamReuse_iff (host : Host) (accesses : List Access) :
    (∀ r ∈ encryptions host accesses,
      r.iv = List.replicate 16 0 ∧ r.key ∈ hierarchyKeys host) ∧
    (∀ r ∈ encryptions host accesses, ∀ r' ∈ encryptions host accesses, r.key = r'.key →
      ∀ i < 16, ∀ p p' c c', r.plaintext[i]? = some p → r'.plaintext[i]? = some p' →
        r.ciphertext[i]? = some c → r'.ciphertext[i]? = some c' → c ^^^ c' = p ^^^ p') ∧
    (NoKeystreamReuse host accesses ↔
      ∀ before a between b after, accesses = before ++ a :: (between ++ b :: after) →
        let s := Runs.run (step host) (tpm2Realize host) before
        let s' := Runs.run (step host) (tpm2Realize host) (before ++ a :: between)
        ∀ env params e env' params' e', a.Executes s env → Writes env s params e →
          b.Executes s' env' → Writes env' s' params' e' →
          slice params.data.buffer 0 params.data.size ≠
            slice params'.data.buffer 0 params'.data.size →
          hierarchyKey host s ≠ hierarchyKey host s') := by
  refine ⟨fun r hr => ⟨(sound_of_mem hr).iv, (sound_of_mem hr).key⟩, ?_, ?_⟩
  · intro r hr r' hr' hkey i hi p p' c c' hp hp' hc hc'
    exact (sound_of_mem hr).xor_first (sound_of_mem hr') hkey hi hp hp' hc hc'
  · refine (Runs.pairwise_trace_iff _ _).trans ?_
    refine forall_congr' fun before => forall_congr' fun a => forall_congr' fun between =>
      forall_congr' fun b => forall_congr' fun after => forall_congr' fun _ => ?_
    have hs := (reachable_realize host).run before
    have hs' := (reachable_realize host).run (before ++ a :: between)
    constructor
    · intro hpairs s s' env params e env' params' e' ha hwrites hb hwrites' hplain hsame
      refine hpairs _ _ ((encryptionOf_eq_some_iff hs).mpr ⟨env, params, e, ha, hwrites, rfl⟩)
        ((encryptionOf_eq_some_iff hs').mpr ⟨env', params', e', hb, hwrites', rfl⟩) hplain ?_
      dsimp only
      rw [nvIv_eq hs hwrites.entry, nvIv_eq hs' hwrites'.entry,
        installedKey_eq hs hwrites.writable.key, installedKey_eq hs' hwrites'.writable.key]
      exact congrArg (·, List.replicate 16 0) hsame
    · intro hall r r' hr hr' hplain hsame
      obtain ⟨env, params, e, ha, hwrites, rfl⟩ := (encryptionOf_eq_some_iff hs).mp hr
      obtain ⟨env', params', e', hb, hwrites', rfl⟩ := (encryptionOf_eq_some_iff hs').mp hr'
      refine hall env params e env' params' e' ha hwrites hb hwrites' hplain ?_
      rw [← installedKey_eq hs hwrites.writable.key, ← installedKey_eq hs' hwrites'.writable.key]
      exact congrArg Prod.fst hsame

/-- The firmware's write to the index defined at realization, with another first byte. -/
def cmdNvWriteTest : List UInt8 :=
  (((cmdNvWrite.set 15 0x50).set 16 0x00).set 17 0x16).set 22 0x42

theorem noKeystreamReuse_fails :
    let run := [cmdNvDefineSpace, cmdNvWrite, cmdNvWriteTest].flatMap (send zeroSurroundings)
    (encryptions referenceHost run).map Encryption.plaintext =
        [[0x54, 0x45, 0x53, 0x54], [0x42, 0x45, 0x53, 0x54]] ∧
      (encryptions referenceHost run).map Encryption.ciphertext =
        [[0x76, 0x35, 0xC3, 0x24], [0x60, 0x35, 0xC3, 0x24]] ∧
      ¬ NoKeystreamReuse referenceHost run := by
  decide +kernel

end TpmEmulator
