import TpmEmulator.NvKeystream
import TpmEmulator.PrimaryObjects
import TpmEmulator.PendingCommands

/-!
What an NV index holds. `Stored` says which ciphertext stands at which offset of a
written index. Commands for other indices, failed commands, resets and everything
else a guest can do keep it; only a write to the index can change it. The plaintext
depends on the primary key as well, so it also survives every CreatePrimary that
leaves the key as it is, and no other.
-/
namespace TpmEmulator

open CellMemory BigEndian

/-- The buffer holds an NV_Write command of `d` at offset `o` of index `i`, without an
authorization area. -/
@[mk_iff] structure NvWriteCommand (s : Tpm2State) (i : Nat) (d : List UInt8) (o : Nat) : Prop where
  state : s.state = .receiving
  code : get32 s.commandBuffer 6 = tpmCcNvWrite
  index : pendingIndex s = i
  authSize : get16 s.commandBuffer 18 = 0
  dataSize : get16 s.commandBuffer 20 = d.length
  data : slice s.commandBuffer 22 d.length = d
  offset : get16 s.commandBuffer (22 + d.length) = o

/-- The buffer holds an NV_Read command of `n` bytes at offset `o` of index `i`, without
an authorization area. -/
@[mk_iff] structure NvReadCommand (s : Tpm2State) (i n o : Nat) : Prop where
  state : s.state = .receiving
  tag : get16 s.commandBuffer 0 = tpmStNoSessions ∨ get16 s.commandBuffer 0 = tpmStSessions
  size_low : 24 ≤ get32 s.commandBuffer 2
  size_high : get32 s.commandBuffer 2 ≤ s.cmdSize
  code : get32 s.commandBuffer 6 = tpmCcNvRead
  index : pendingIndex s = i
  authSize : get16 s.commandBuffer 18 = 0
  sizeToRead : get16 s.commandBuffer 20 = n
  offset : get16 s.commandBuffer 22 = o

instance (s : Tpm2State) (i : Nat) (d : List UInt8) (o : Nat) :
    Decidable (NvWriteCommand s i d o) :=
  decidable_of_iff' _ (nvWriteCommand_iff s i d o)

instance (s : Tpm2State) (i n o : Nat) : Decidable (NvReadCommand s i n o) :=
  decidable_of_iff' _ (nvReadCommand_iff s i n o)

theorem NvReadCommand.unmarshal {s : Tpm2State} {i n o : Nat} (h : NvReadCommand s i n o)
    (env : Surroundings) :
    unmarshalNvRead env.nvReadParams env.bytesRead (commandBody env s) (commandBodySize s) =
      .ok (⟨pendingHandle s, i, n, o⟩, 14) := by
  have hlow := h.size_low
  have hsize : 14 ≤ commandBodySize s := by
    rw [commandBodySize, sub32_of_le (by rw [tpmCmdHeaderSize]; omega), tpmCmdHeaderSize]
    omega
  rw [unmarshalNvRead, field_uint32 _ (by omega), field_uint32 _ (by omega),
    field_uint16 _ (by omega), get16_commandBody (by decide), if_neg (not_not.mpr h.authSize),
    field_uint16 _ (by omega), field_uint16 _ (by omega)]
  rw [get32_commandBody (by decide), get32_commandBody (by decide), get16_commandBody (by decide),
    get16_commandBody (by decide)]
  rw [← h.index, ← h.sizeToRead, ← h.offset]
  rfl

/-- The data that a write takes from such a command. -/
theorem NvWriteCommand.params_eq {s : Tpm2State} {i o : Nat} {d : List UInt8}
    (h : NvWriteCommand s i d o) {env : Surroundings} {params : NvWriteParams} {e : NvEntry}
    (hsize : s.cmdSize ≤ 1024) (hwrites : Writes env s params e) :
    params.nvIndex = i ∧ params.offset = o ∧ params.data.size = d.length ∧
      slice params.data.buffer 0 params.data.size = d := by
  obtain ⟨bytesRead, hread⟩ := hwrites.unmarshal
  obtain ⟨-, -, -, -, hlow, hhigh, -⟩ := dispatchedCode_some hwrites.code
  have hbody : commandBodySize s = get32 s.commandBuffer 2 - 10 := sub32_of_le hlow
  have hauth : get16 (commandBody env s) 8 = 0 := by
    rw [get16_commandBody (by decide)]
    exact h.authSize
  have hcount : get16 (commandBody env s) 10 = d.length := by
    rw [get16_commandBody (by decide)]
    exact h.dataSize
  obtain ⟨hroom, hread⟩ := field_uint32_ok (Nat.zero_le _) hread
  obtain ⟨hroom, hread⟩ := field_uint32_ok hroom hread
  obtain ⟨hroom, hread⟩ := field_uint16_ok hroom hread
  rw [if_neg (not_not.mpr hauth)] at hread
  obtain ⟨-, hroom, hread⟩ := field_tpm2b_ok hroom hread
  obtain ⟨hroom, hread⟩ := field_uint16_ok (by omega) hread
  cases hread
  change 10 + (2 + get16 (commandBody env s) 10) + 2 ≤ _ at hroom
  rw [hcount, hbody] at hroom
  have hslice : slice (commandBody env s) 12 d.length = d := by
    refine Eq.trans (slice_congr fun k hk => ?_) h.data
    rw [commandBody_apply (by omega)]
    congr 1
    omega
  refine ⟨?_, ?_, hcount, ?_⟩
  · exact (get32_commandBody (by decide)).trans h.index
  · change get16 (commandBody env s) (10 + (2 + get16 (commandBody env s) 10)) = o
    rw [hcount, get16_commandBody (by omega), ← h.offset]
    congr 1
    omega
  · change slice (store _ 0 (slice (commandBody env s) 12 (get16 (commandBody env s) 10))) 0
      (get16 (commandBody env s) 10) = d
    rw [hcount, hslice]
    exact slice_store_same _ 0 d

/-- The response is a success whose body is the TPM2B of these bytes. -/
@[mk_iff] structure AnsweredWith (t : Tpm2State) (bytes : List UInt8) : Prop where
  code : (responseHeader t).code = tpmRcSuccess
  size : (responseHeader t).size = tpmRspHeaderSize + (2 + bytes.length)
  body : slice t.responseBuffer tpmRspHeaderSize (2 + bytes.length) =
    bytes16 bytes.length ++ bytes

instance (t : Tpm2State) (bytes : List UInt8) : Decidable (AnsweredWith t bytes) :=
  decidable_of_iff' _ (answeredWith_iff t bytes)

theorem AnsweredWith.unique {t : Tpm2State} {bytes bytes' : List UInt8}
    (h : AnsweredWith t bytes) (h' : AnsweredWith t bytes') : bytes = bytes' := by
  have hlen : bytes.length = bytes'.length := by
    have hsize := h.size.symm.trans h'.size
    omega
  have hbody := h.body
  rw [hlen, h'.body] at hbody
  exact (List.append_cancel_left hbody).symm

theorem Reads.answered (host : Host) {env : Surroundings} {s : Tpm2State} {params : NvReadParams}
    {e : NvEntry} (hstate : s.state = .receiving) (h : Reads env s params e) :
    AnsweredWith (step host s (.write env tpm2CmdReg 1))
      (nvPlaintext host s e params.sizeToRead params.offset) := by
  have hlen := length_nvPlaintext host e params.sizeToRead params.offset h.key
  have hreply := h.reply host
  have hanswer := (answers_execute host env hstate).ok (congrArg Prod.fst hreply)
  refine ⟨hanswer.1, by rw [hlen]; exact hanswer.2, ?_⟩
  have hsize := h.size_le
  have hfits : 2 + params.sizeToRead ≤ responseBufferSize - tpmRspHeaderSize := by
    rw [responseBufferSize, tpmRspHeaderSize]
    omega
  rw [step_executes host ⟨rfl, hstate⟩, hreply, hlen, slice_responseBody _ hfits]
  have hslice := slice_store_same s.responseBuffer tpmRspHeaderSize
    (bytes16 params.sizeToRead ++ nvPlaintext host s e params.sizeToRead params.offset)
  rw [List.length_append, length_bytes16, hlen] at hslice
  exact hslice

/-- The ciphertext `c` stands at offset `o` of the index, which has been written. -/
def Stored (p : Persistent) (i o : Nat) (c : List UInt8) : Prop :=
  ∃ e, p.nvMap.lookup i = some e ∧ e.written = true ∧ e.readLocked = false ∧
    o + c.length ≤ e.dataLen ∧ slice p.nvBank (e.data + o) c.length = c

/-- A write by which an access is answered with success. -/
def WritesIndex (host : Host) (i : Nat) (s : Tpm2State) (a : Access) : Prop :=
  ∃ env, a.Executes s env ∧ get32 s.commandBuffer 6 = tpmCcNvWrite ∧ pendingIndex s = i ∧
    (responseHeader (step host s a)).code = tpmRcSuccess

theorem Writes.writesIndex (host : Host) {env : Surroundings} {s : Tpm2State} {a : Access}
    {params : NvWriteParams} {e : NvEntry} (hinv : BankInvariant s.persistent)
    (hexec : a.Executes s env) (h : Writes env s params e) :
    WritesIndex host params.nvIndex s a := by
  obtain ⟨rfl, hstate⟩ := hexec
  obtain ⟨hcmd, hcode⟩ :=
    (nvWrite_success_iff host (fun _ _ => hinv.sizes) hstate).mpr ⟨params, e, h⟩
  exact ⟨env, ⟨rfl, hstate⟩, hcmd, h.handles.2.symm, hcode⟩

/-- The index keeps its entry and the bytes of its data. -/
structure SameData (p q : Persistent) (i : Nat) (e : NvEntry) : Prop where
  entry : q.nvMap.lookup i = some e
  bytes : ∀ k < e.dataLen, q.nvBank (e.data + k) = p.nvBank (e.data + k)

section Effect

variable {host : Host} {s : Tpm2State} {i : Nat} {e : NvEntry}

theorem sameData_nvDefined (hinv : BankInvariant s.persistent)
    (hentry : s.nvMap.lookup i = some e) {nv : NvPublic} (hfresh : nv.nvIndex ∉ s.nvMap) :
    SameData s.persistent (nvDefined s nv).persistent i e := by
  have hne : i ≠ nv.nvIndex := fun heq =>
    hfresh (heq ▸ Finmap.mem_of_lookup_eq_some hentry)
  have hinside : e.ivPtr + (16 + e.dataLen) ≤ s.nvAllocOffset := hinv.packed.inside hentry
  have hdata := hinv.adjacent hentry
  exact ⟨(Finmap.lookup_insert_of_ne _ hne).trans hentry, fun k hk =>
    nvBank_nvDefined_outside s nv (.inl (by omega))⟩

/-- A write to another index changes another part of the bank. -/
theorem sameData_nvWritten (hinv : BankInvariant s.persistent)
    (hentry : s.nvMap.lookup i = some e) {nvIndex : Nat} {e' : NvEntry} {data : Tpm2b}
    {offset : Nat} (hentry' : s.nvMap.lookup nvIndex = some e')
    (hwritable : NvWritable s e' data offset) (hne : i ≠ nvIndex) :
    SameData s.persistent (nvWritten host s nvIndex e' data offset).persistent i e := by
  have hdisjoint : e.ivPtr + (16 + e.dataLen) ≤ e'.ivPtr ∨
      e'.ivPtr + (16 + e'.dataLen) ≤ e.ivPtr := hinv.packed.disjoint hentry hentry' hne
  have hdata := hinv.adjacent hentry
  have hdata' := hinv.adjacent hentry'
  have hroom := hwritable.fits
  exact ⟨(Finmap.lookup_insert_of_ne _ hne).trans hentry, fun k hk =>
    nvBank_nvWritten_outside host s nvIndex e' data offset hwritable.key (by omega)⟩

/-- Only a write to the index changes its data. -/
theorem sameData_effect {a : Access} {p : Persistent} (hinv : BankInvariant s.persistent)
    (hentry : s.nvMap.lookup i = some e) (heffect : Effect host s a p)
    (hkeeps : ¬ WritesIndex host i s a) : SameData s.persistent p i e := by
  cases heffect with
  | none => exact ⟨hentry, fun _ _ => rfl⟩
  | define env params hexec hdefines => exact sameData_nvDefined hinv hentry hdefines.fresh
  | write env params e' hexec hwrites =>
      refine sameData_nvWritten hinv hentry hwrites.entry hwrites.writable fun heq => hkeeps ?_
      rw [heq]
      exact hwrites.writesIndex host hinv hexec
  | advance env params template hexec hcode hrequests hseed => exact ⟨hentry, fun _ _ => rfl⟩
  | wipe env params template seed hexec hcode hrequests hseed htype =>
      exact ⟨hentry, fun _ _ => rfl⟩
  | create env params template seed hexec hcode hrequests hseed htype =>
      exact ⟨hentry, fun _ _ => rfl⟩

theorem Stored.effect {o : Nat} {c : List UInt8} {a : Access} {p : Persistent}
    (h : Stored s.persistent i o c) (hinv : BankInvariant s.persistent)
    (heffect : Effect host s a p) (hkeeps : ¬ WritesIndex host i s a) : Stored p i o c := by
  obtain ⟨e, hentry, hwritten, hunlocked, hfits, hslice⟩ := h
  have hsame := sameData_effect hinv hentry heffect hkeeps
  refine ⟨e, hsame.entry, hwritten, hunlocked, hfits, ?_⟩
  rw [← hslice, length_slice]
  refine slice_congr fun k hk => ?_
  rw [Nat.add_assoc]
  exact hsame.bytes (o + k) (by omega)

end Effect

/-- If the access executes a CreatePrimary request, the request names no known
hierarchy, or it asks for an ECC key from the seed that the current key was derived
from. -/
def keepsKey (s : Tpm2State) (a : Access) : Bool :=
  (requestOf s a).all fun request =>
    match hierarchySeed s request.1.primaryHandle with
    | none => true
    | some seed => get16 request.2 0 == tpmAlgEcc &&
        slice seed 0 32 == slice s.primarySensitive.seedValue.buffer 0 32

theorem keepsKey_known {s : Tpm2State} {a : Access} {env : Surroundings}
    {params : CreatePrimaryParams} {template seed : Nat → UInt8} (h : keepsKey s a)
    (hexec : a.Executes s env) (hcode : dispatchedCode s = some tpmCcCreatePrimary)
    (hrequests : Requests env s params template)
    (hseed : hierarchySeed s params.primaryHandle = some seed) :
    get16 template 0 = tpmAlgEcc ∧
      slice seed 0 32 = slice s.primarySensitive.seedValue.buffer 0 32 := by
  have hrequest := requestOf_eq_some.mpr ⟨env, hexec, hcode, hrequests⟩
  simpa [keepsKey, hrequest, hseed] using h

theorem keepsKey_of_code {s : Tpm2State} {a : Access}
    (h : ∀ env, a.Executes s env → dispatchedCode s ≠ some tpmCcCreatePrimary) :
    keepsKey s a := by
  cases hrequest : requestOf s a with
  | none => rw [keepsKey, hrequest]; rfl
  | some request =>
      obtain ⟨env, hexec, hcode, -⟩ := requestOf_eq_some.mp hrequest
      exact absurd hcode (h env hexec)

/-- The primary object has the key `key`, which is long enough for AES. -/
def HasKey (p : Persistent) (key : List UInt8) : Prop :=
  p.primarySensitive.ecc.size = 32 ∧ installedKey p = key

theorem HasKey.isKeyLength {p : Persistent} {key : List UInt8} (h : HasKey p key) :
    IsKeyLength p.primarySensitive.ecc.size :=
  .inr (.inr h.1)

theorem KeyInvariant.hasKey {host : Host} {p : Persistent} (h : KeyInvariant host p)
    (hkey : IsKeyLength p.primarySensitive.ecc.size) : HasKey p (installedKey p) := by
  obtain hzero | ⟨hsize, -⟩ := h.key
  · rw [hzero] at hkey
    exact absurd hkey (by unfold IsKeyLength; decide)
  · exact ⟨hsize, rfl⟩

theorem HasKey.effect {host : Host} {s : Tpm2State} {a : Access} {p : Persistent}
    {key : List UInt8} (h : HasKey s.persistent key) (hinv : KeyInvariant host s.persistent)
    (heffect : Effect host s a p) (hkeeps : keepsKey s a) : HasKey p key := by
  cases heffect with
  | none => exact h
  | define env params hexec hdefines => exact h
  | write env params e hexec hwrites => exact h
  | advance env params template hexec hcode hrequests hseed => exact h
  | wipe env params template seed hexec hcode hrequests hseed htype =>
      exact absurd (keepsKey_known hkeeps hexec hcode hrequests hseed).1 htype
  | create env params template seed hexec hcode hrequests hseed htype =>
      have hsame := (keepsKey_known hkeeps hexec hcode hrequests hseed).2
      refine ⟨rfl, ?_⟩
      rw [primaryCreated, installedKey_withPrimary, primaryPrivate_congr host hsame, ← h.2]
      obtain hzero | ⟨-, hkey⟩ := hinv.key
      · cases hzero.symm.trans h.1
      · exact hkey.symm

/-- The access neither writes the index nor changes the key. -/
def KeepsContents (host : Host) (i : Nat) (s : Tpm2State) (a : Access) : Prop :=
  ¬ WritesIndex host i s a ∧ keepsKey s a

/-- What is needed for a read to return the plaintext of `c` under `key`. -/
structure Readable (host : Host) (i o : Nat) (c key : List UInt8) (s : Tpm2State) : Prop where
  reachable : Reachable host s
  stored : Stored s.persistent i o c
  key : HasKey s.persistent key

theorem readable_run {host : Host} {s : Tpm2State} {i o : Nat} {c key : List UInt8}
    (h : Readable host i o c key s) (accesses : List Access)
    (hkeeps : Runs.Along (step host) (KeepsContents host i) s accesses) :
    Readable host i o c key (Runs.run (step host) s accesses) := by
  refine Runs.run_along (P := Readable host i o c key) ?_ s accesses h hkeeps
  intro s a hs ha
  have hinv := bankInvariant_reachable hs.reachable
  have heffect := hinv.effect host a
  exact ⟨hs.reachable.next a, hs.stored.effect hinv heffect ha.1,
    hs.key.effect (keyInvariant_reachable hs.reachable) heffect ha.2⟩

/-- AES-CFB decryption from the zero vector. -/
def plaintextOf (host : Host) (key c : List UInt8) : List UInt8 :=
  CipherFeedback.decrypt (· ^^^ ·) (host.aesBlock key) (List.replicate 16 0) c

theorem nvPlaintext_eq {host : Host} {s : Tpm2State} {i o n : Nat} {c key : List UInt8}
    {e : NvEntry} (h : Reachable host s) (hkey : HasKey s.persistent key)
    (hentry : s.nvMap.lookup i = some e) (hslice : slice s.nvBank (e.data + o) c.length = c)
    (hn : n ≤ c.length) : nvPlaintext host s e n o = plaintextOf host key (c.take n) := by
  rw [nvPlaintext, nvCrypt_of_isKeyLength host s e _ false hkey.isKeyLength, nvIv_eq h hentry,
    ← take_slice _ _ hn, hslice, ← hkey.2]
  rfl

/-- A read of what is stored is answered with its plaintext. -/
theorem Readable.answered {host : Host} {s : Tpm2State} {i o n : Nat} {c key : List UInt8}
    (h : Readable host i o c key s) (env : Surroundings) (hread : NvReadCommand s i n o)
    (hpos : 1 ≤ n) (hn : n ≤ c.length) (hmax : n ≤ 1012) :
    AnsweredWith (step host s (.write env tpm2CmdReg 1)) (plaintextOf host key (c.take n)) := by
  obtain ⟨e, hentry, hwritten, hunlocked, hfits, hslice⟩ := h.stored
  have hlow := hread.size_low
  have hdispatched : dispatchedCode s = some tpmCcNvRead :=
    dispatchedCode_of_header (keyInvariant_reachable h.reachable).mode hread.tag (by omega)
      hread.size_high hread.code (by decide)
  have hlen := (bankInvariant_reachable h.reachable).sizes hentry
  have hreads : Reads env s ⟨pendingHandle s, i, n, o⟩ e :=
    ⟨hdispatched, ⟨14, hread.unmarshal env⟩, hentry, hwritten,
      show o + n ≤ e.pub.dataSize by omega, hunlocked, show o + n ≤ e.dataLen by omega, hpos,
      h.key.isKeyLength, hmax⟩
  have hanswered := hreads.answered host hread.state
  rwa [nvPlaintext_eq h.reachable h.key hentry hslice hn] at hanswered

/-- No entry is read-locked: no command sets the lock. -/
def ReadUnlocked (p : Persistent) : Prop :=
  ∀ i e, p.nvMap.lookup i = some e → e.readLocked = false

theorem readUnlocked_reachable {host : Host} {s : Tpm2State} (h : Reachable host s) :
    ReadUnlocked s.persistent := fun _ _ hlookup =>
  entry_reachable (P := fun _ e => e.readLocked = false) rfl (fun _ _ _ _ => rfl)
    (fun _ _ hunlocked => hunlocked) h hlookup

/-- AES-CFB encryption from the zero vector. -/
def ciphertextOf (host : Host) (key text : List UInt8) : List UInt8 :=
  CipherFeedback.encrypt (· ^^^ ·) (host.aesBlock key) (List.replicate 16 0) text

theorem xor_xor_self (x k : UInt8) : (x ^^^ k) ^^^ k = x := by
  rw [UInt8.xor_assoc, UInt8.xor_self, UInt8.xor_zero]

theorem nvCiphertext_eq {host : Host} {s : Tpm2State} {i : Nat} {e : NvEntry} {data : Tpm2b}
    (h : Reachable host s) (hentry : s.nvMap.lookup i = some e)
    (hkey : IsKeyLength s.primarySensitive.ecc.size) :
    nvCiphertext host s e data =
      ciphertextOf host (installedKey s.persistent) (slice data.buffer 0 data.size) := by
  rw [nvCiphertext, nvCrypt_of_isKeyLength host s e _ true hkey, nvIv_eq h hentry]
  rfl

theorem Writes.persistent_step (host : Host) {env : Surroundings} {s : Tpm2State}
    {params : NvWriteParams} {e : NvEntry} (hstate : s.state = .receiving)
    (h : Writes env s params e) :
    (step host s (.write env tpm2CmdReg 1)).persistent =
      (nvWritten host s params.nvIndex e params.data params.offset).persistent := by
  rw [step_executes host ⟨rfl, hstate⟩, persistent_respond, h.reply host]
  rfl

/-- After a write the ciphertext of the data stands at its offset. -/
theorem Writes.readable {host : Host} {env : Surroundings} {s : Tpm2State}
    {params : NvWriteParams} {e : NvEntry} (h : Reachable host s) (hstate : s.state = .receiving)
    (hwrites : Writes env s params e) :
    Readable host params.nvIndex params.offset
      (ciphertextOf host (installedKey s.persistent)
        (slice params.data.buffer 0 params.data.size))
      (installedKey s.persistent) (step host s (.write env tpm2CmdReg 1)) := by
  have hpersistent := hwrites.persistent_step host hstate
  have hkey := (keyInvariant_reachable h).hasKey hwrites.writable.key
  have hlen := length_nvCrypt host s e (slice params.data.buffer 0 params.data.size) true
    hwrites.writable.key
  rw [length_slice] at hlen
  have hfits := hwrites.writable.fits
  refine ⟨h.next _, ?_, hpersistent ▸ hkey⟩
  rw [hpersistent, ← nvCiphertext_eq h hwrites.entry hwrites.writable.key]
  refine ⟨e.markWritten, Finmap.lookup_insert _, rfl,
    readUnlocked_reachable h params.nvIndex e hwrites.entry, ?_, slice_store_same _ _ _⟩
  change params.offset + (nvCrypt _ _ _ _ _).length ≤ e.dataLen
  omega

/-- The access executes neither a CreatePrimary command nor a write to the index that
is answered with success. -/
def KeepsWritten (host : Host) (i : Nat) (s : Tpm2State) (a : Access) : Prop :=
  ¬ WritesIndex host i s a ∧
    ∀ env, a.Executes s env → dispatchedCode s ≠ some tpmCcCreatePrimary

theorem KeepsWritten.keepsContents {host : Host} {i : Nat} {s : Tpm2State} {a : Access}
    (h : KeepsWritten host i s a) : KeepsContents host i s a :=
  ⟨h.1, keepsKey_of_code h.2⟩

/-- What a write has stored, a later read at the same offset returns, whatever the
guest does in between that neither writes the index nor creates a key. -/
theorem nvRead_returns_written {host : Host} {env : Surroundings} {s : Tpm2State} {i o : Nat}
    {d : List UInt8} (h : Reachable host s) (hwrite : NvWriteCommand s i d o)
    (hcode : (responseHeader (step host s (.write env tpm2CmdReg 1))).code = tpmRcSuccess)
    (accesses : List Access)
    (hkeeps : Runs.Along (step host) (KeepsWritten host i)
      (step host s (.write env tpm2CmdReg 1)) accesses)
    (env' : Surroundings) {n : Nat}
    (hread : NvReadCommand
      (Runs.run (step host) (step host s (.write env tpm2CmdReg 1)) accesses) i n o)
    (hpos : 1 ≤ n) (hn : n ≤ d.length) (hmax : n ≤ 1012) :
    AnsweredWith
      (step host (Runs.run (step host) (step host s (.write env tpm2CmdReg 1)) accesses)
        (.write env' tpm2CmdReg 1)) (d.take n) := by
  obtain ⟨params, e, hwrites⟩ :=
    (nvWrite_success_iff host (fun _ _ => (bankInvariant_reachable h).sizes) hwrite.state).mp
      ⟨hwrite.code, hcode⟩
  obtain ⟨rfl, rfl, -, hdata⟩ :=
    hwrite.params_eq (transportInvariant_reachable h).cmdSize_le hwrites
  have hwritten := hwrites.readable h hwrite.state
  rw [hdata] at hwritten
  have hreadable := readable_run hwritten accesses
    (hkeeps.imp fun _ _ => KeepsWritten.keepsContents)
  have hanswered := hreadable.answered env' hread hpos
    (by rw [ciphertextOf, CipherFeedback.length_encrypt]; exact hn) hmax
  rwa [plaintextOf, ciphertextOf, CipherFeedback.decrypt_take_encrypt _ _ _ xor_xor_self]
    at hanswered

theorem along_transmit {host : Host} {env : Surroundings} (cmd : List UInt8) (i : Nat)
    (s : Tpm2State) :
    Runs.Along (step host) (KeepsWritten host i) s (transmit env cmd) :=
  Runs.along_of_forall fun _ _ ha => ⟨fun ⟨_, hexec, _⟩ => not_executes_transmit ha hexec,
    fun _ hexec => absurd hexec (not_executes_transmit ha)⟩

theorem nvRead_returns_written_test :
    let s := pendingCommand [cmdNvDefineSpace] cmdNvWrite
    let t := step referenceHost s (.write zeroSurroundings tpm2CmdReg 1)
    let u := Runs.run (step referenceHost) t (transmit zeroSurroundings cmdNvRead)
    (responseHeader t).code = tpmRcSuccess ∧
      AnsweredWith (step referenceHost u (.write zeroSurroundings tpm2CmdReg 1))
        [0x54, 0x45, 0x53, 0x54] := by
  intro s t u
  obtain ⟨hwrite, hcode, hread⟩ : NvWriteCommand s 0x01000001 [0x54, 0x45, 0x53, 0x54] 0 ∧
      (responseHeader t).code = tpmRcSuccess ∧ NvReadCommand u 0x01000001 4 0 := by
    decide +kernel
  exact ⟨hcode, nvRead_returns_written (reachable_pendingCommand _ _) hwrite hcode _
    (along_transmit _ _ _) zeroSurroundings hread (by decide) (by decide) (by decide)⟩

/-- A read that was answered with success is answered with the same bytes again, as
long as the guest neither writes the index nor changes the key. -/
theorem nvRead_same_contents {host : Host} {env : Surroundings} {s : Tpm2State} {i n o : Nat}
    {v : List UInt8} (h : Reachable host s) (hread : NvReadCommand s i n o)
    (hanswered : AnsweredWith (step host s (.write env tpm2CmdReg 1)) v)
    (accesses : List Access)
    (hkeeps : Runs.Along (step host) (KeepsContents host i)
      (step host s (.write env tpm2CmdReg 1)) accesses)
    (env' : Surroundings)
    (hread' : NvReadCommand
      (Runs.run (step host) (step host s (.write env tpm2CmdReg 1)) accesses) i n o) :
    AnsweredWith
      (step host (Runs.run (step host) (step host s (.write env tpm2CmdReg 1)) accesses)
        (.write env' tpm2CmdReg 1)) v := by
  obtain ⟨params, e, hreads⟩ :=
    (nvRead_success_iff host hread.state).mp ⟨hread.code, hanswered.code⟩
  obtain ⟨bytesRead, hparams⟩ := hreads.unmarshal
  cases hparams.symm.trans (hread.unmarshal env)
  have hlen := length_slice s.nvBank (e.data + o) n
  have hreadable :
      Readable host i o (slice s.nvBank (e.data + o) n) (installedKey s.persistent) s :=
    ⟨h, ⟨e, hreads.entry, hreads.written, hreads.unlocked, hlen.symm ▸ hreads.fits,
      by rw [hlen]; rfl⟩, (keyInvariant_reachable h).hasKey hreads.key⟩
  have hstill : KeepsContents host i s (.write env tpm2CmdReg 1) := by
    refine ⟨fun ⟨_, _, hwrite, _⟩ => ?_, keepsKey_of_code fun _ _ hcode => ?_⟩
    · cases hwrite.symm.trans hread.code
    · cases hcode.symm.trans hreads.code
  have hsame := hreadable.answered env hread hreads.nonempty hlen.ge hreads.size_le
  have hlater := (readable_run hreadable (.write env tpm2CmdReg 1 :: accesses)
    ⟨hstill, hkeeps⟩).answered env' hread' hreads.nonempty hlen.ge hreads.size_le
  rw [hanswered.unique hsame]
  exact hlater

theorem nvRead_same_contents_created :
    let s := pendingCommand [cmdNvDefineSpace, cmdNvWrite] cmdNvRead
    let t := step referenceHost s (.write zeroSurroundings tpm2CmdReg 1)
    let u := Runs.run (step referenceHost) t
      (send zeroSurroundings cmdCreatePrimary ++ transmit zeroSurroundings cmdNvRead)
    AnsweredWith t [0x54, 0x45, 0x53, 0x54] ∧
      AnsweredWith (step referenceHost u (.write zeroSurroundings tpm2CmdReg 1))
        [0x54, 0x45, 0x53, 0x54] := by
  intro s t u
  let v := Runs.run (step referenceHost) t (transmit zeroSurroundings cmdCreatePrimary)
  -- One evaluation of the run: what is read, what stands in the buffer, what the key does.
  obtain ⟨hread, hanswered, hcode, hkey, hread'⟩ : NvReadCommand s 0x01000001 4 0 ∧
      AnsweredWith t [0x54, 0x45, 0x53, 0x54] ∧ get32 v.commandBuffer 6 ≠ tpmCcNvWrite ∧
      keepsKey v (.write zeroSurroundings tpm2CmdReg 1) ∧ NvReadCommand u 0x01000001 4 0 := by
    decide +kernel
  have hcreate : KeepsContents referenceHost 0x01000001 v (.write zeroSurroundings tpm2CmdReg 1) :=
    ⟨fun ⟨_, _, hwrite, _⟩ => hcode hwrite, hkey⟩
  have hkeeps : Runs.Along (step referenceHost) (KeepsContents referenceHost 0x01000001) t
      (send zeroSurroundings cmdCreatePrimary ++ transmit zeroSurroundings cmdNvRead) :=
    (Runs.along_append _ _ _).mpr ⟨(Runs.along_append _ _ _).mpr
      ⟨(along_transmit _ _ _).imp fun _ _ => KeepsWritten.keepsContents, hcreate, trivial⟩,
      (along_transmit _ _ _).imp fun _ _ => KeepsWritten.keepsContents⟩
  exact ⟨hanswered, nvRead_same_contents (reachable_pendingCommand _ _) hread hanswered _ hkeeps
    zeroSurroundings hread'⟩

theorem nvRead_same_contents_fails :
    let s := pendingCommand [cmdNvDefineSpace, cmdNvWrite] cmdNvRead
    let t := step referenceHost s (.write zeroSurroundings tpm2CmdReg 1)
    let u := pendingCommand [cmdNvDefineSpace, cmdNvWrite, cmdNvRead, cmdCreatePrimaryRsa] cmdNvRead
    NvReadCommand s 0x01000001 4 0 ∧ AnsweredWith t [0x54, 0x45, 0x53, 0x54] ∧
      NvReadCommand u 0x01000001 4 0 ∧
      (responseHeader (step referenceHost u (.write zeroSurroundings tpm2CmdReg 1))).code ≠
        tpmRcSuccess := by
  decide +kernel

end TpmEmulator
