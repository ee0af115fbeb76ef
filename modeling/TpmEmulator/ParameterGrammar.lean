import TpmEmulator.Unmarshal
import TpmEmulator.Marshal
import TpmEmulator.Library.Framing

/-!
Which bytes the command unmarshallers accept. `Decodes` relates an unmarshaller to
the frames of its values: it returns a value exactly on a buffer that starts with a
frame of it, it then consumes that frame, and on a buffer that ends inside a frame
it reports that the buffer is too short. The relation holds of the unmarshallers of
the fields and goes through `field`, so a composite unmarshaller is compared with
its encoding one field at a time.
-/
namespace TpmEmulator

open CellMemory BigEndian Framing

/-- The unmarshaller accepts the frames of its values and nothing else. -/
structure Decodes {α : Type} (unmarshal : (Nat → UInt8) → Nat → Except Nat (α × Nat))
    (Frame : α → List UInt8 → Prop) : Prop where
  accepts : ∀ {buffer size value bytes}, Frame value bytes → Starts buffer size 0 bytes →
    unmarshal buffer size = .ok (value, bytes.length)
  only : ∀ {buffer size value consumed}, unmarshal buffer size = .ok (value, consumed) →
    ∃ bytes, Frame value bytes ∧ Starts buffer size 0 bytes ∧ consumed = bytes.length
  truncated : ∀ {buffer size value bytes}, Frame value bytes → Cut buffer size 0 bytes →
    unmarshal buffer size = .error tpmRcInsufficient

section Field

variable {α β : Type} {unmarshal : (Nat → UInt8) → Nat → Except Nat (α × Nat)}
  {Frame : α → List UInt8 → Prop} {buffer : Nat → UInt8} {size offset : Nat}
  {next : α → Nat → Except Nat β}

theorem Decodes.field_starts (hd : Decodes unmarshal Frame) {value : α} {bytes : List UInt8}
    (hframe : Frame value bytes) (h : Starts buffer size offset bytes) :
    field unmarshal buffer size offset next = next value (offset + bytes.length) := by
  have hoffset : offset ≤ size := by
    have := h.1
    omega
  refine field_of_ok next ?_
  rw [sub32_of_le hoffset]
  exact hd.accepts hframe ((starts_advance hoffset).mpr h)

theorem Decodes.field_cut (hd : Decodes unmarshal Frame) {value : α} {bytes : List UInt8}
    (hframe : Frame value bytes) (h : Cut buffer size offset bytes) :
    field unmarshal buffer size offset next = .error tpmRcInsufficient := by
  unfold field
  rw [sub32_of_le h.1, hd.truncated hframe ((cut_advance h.1).mpr h)]

theorem Decodes.field_only (hd : Decodes unmarshal Frame) {result : β} (hoffset : offset ≤ size)
    (h : field unmarshal buffer size offset next = .ok result) :
    ∃ value bytes, Frame value bytes ∧ Starts buffer size offset bytes ∧
      next value (offset + bytes.length) = .ok result := by
  obtain ⟨value, consumed, hread, hnext⟩ := field_ok h
  rw [sub32_of_le hoffset] at hread
  obtain ⟨bytes, hframe, hstarts, rfl⟩ := hd.only hread
  exact ⟨value, bytes, hframe, (starts_advance hoffset).mp hstarts, hnext⟩

end Field

/-- A value of a 16-bit member and its bytes. -/
def Frame16 (value : Nat) (bytes : List UInt8) : Prop := value < 2 ^ 16 ∧ bytes = bytes16 value

def Frame32 (value : Nat) (bytes : List UInt8) : Prop := value < 2 ^ 32 ∧ bytes = bytes32 value

/-- The size and the data of a sized buffer; the data is copied over `dataBuffer`. -/
def FrameTpm2b (maxSize : Nat) (dataBuffer : Nat → UInt8) (value : Tpm2b) (bytes : List UInt8) :
    Prop :=
  ∃ data : List UInt8, data.length ≤ maxSize ∧ value = ⟨data.length, store dataBuffer 0 data⟩ ∧
    bytes = bytes16 data.length ++ data

theorem decodes_uint16 : Decodes unmarshalUint16 Frame16 where
  accepts := by
    rintro buffer size value bytes ⟨hvalue, rfl⟩ ⟨hsize, hslice⟩
    rw [length_bytes16] at hsize hslice ⊢
    rw [unmarshalUint16, if_neg (by omega), get16_of_slice hslice, Nat.mod_eq_of_lt hvalue]
  only := by
    intro buffer size value consumed h
    unfold unmarshalUint16 at h
    split at h <;> cases h
    rename_i hsize
    refine ⟨_, ⟨get16_lt buffer 0, rfl⟩, ?_, rfl⟩
    rw [← slice_eq_bytes16]
    exact starts_slice (by omega)
  truncated := by
    rintro buffer size value bytes ⟨-, rfl⟩ ⟨-, hsize, -⟩
    rw [length_bytes16] at hsize
    exact if_pos (by omega)

theorem decodes_uint32 : Decodes unmarshalUint32 Frame32 where
  accepts := by
    rintro buffer size value bytes ⟨hvalue, rfl⟩ ⟨hsize, hslice⟩
    rw [length_bytes32] at hsize hslice ⊢
    rw [unmarshalUint32, if_neg (by omega), get32_of_slice hslice, Nat.mod_eq_of_lt hvalue]
  only := by
    intro buffer size value consumed h
    unfold unmarshalUint32 at h
    split at h <;> cases h
    rename_i hsize
    refine ⟨_, ⟨get32_lt buffer 0, rfl⟩, ?_, rfl⟩
    rw [← slice_eq_bytes32]
    exact starts_slice (by omega)
  truncated := by
    rintro buffer size value bytes ⟨-, rfl⟩ ⟨-, hsize, -⟩
    rw [length_bytes32] at hsize
    exact if_pos (by omega)

theorem decodes_tpm2b {maxSize : Nat} (hmax : maxSize < 2 ^ 16) (dataBuffer : Nat → UInt8) :
    Decodes (unmarshalTpm2b maxSize dataBuffer) (FrameTpm2b maxSize dataBuffer) where
  accepts := by
    rintro buffer size value bytes ⟨data, hdata, rfl, rfl⟩ h
    obtain ⟨hlength, hcontents⟩ := starts_append.mp h
    have hroom := hcontents.1
    have hslice := hcontents.2
    rw [length_bytes16, Nat.zero_add] at hroom hslice
    rw [unmarshalTpm2b, decodes_uint16.field_starts ⟨by omega, rfl⟩ hlength, length_bytes16,
      Nat.zero_add, if_neg (by omega), sub32_of_le (by omega), if_neg (by omega), hslice,
      List.length_append, length_bytes16]
  only := by
    intro buffer size value consumed h
    obtain ⟨dataSize, bytes, ⟨-, rfl⟩, hlength, h⟩ := decodes_uint16.field_only (Nat.zero_le _) h
    have hsize := hlength.1
    rw [length_bytes16, Nat.zero_add] at hsize h
    split at h
    · cases h
    rename_i hdata
    split at h
    · cases h
    rename_i hroom
    rw [sub32_of_le hsize] at hroom
    cases h
    refine ⟨_, ⟨slice buffer 2 dataSize, ?_, ?_, rfl⟩, ?_, ?_⟩
    · rw [length_slice]
      omega
    · rw [length_slice]
    · rw [length_slice]
      exact starts_append.mpr ⟨hlength, starts_slice (by rw [length_bytes16]; omega)⟩
    · rw [List.length_append, length_bytes16, length_slice]
  truncated := by
    rintro buffer size value bytes ⟨data, hdata, rfl, rfl⟩ h
    unfold unmarshalTpm2b
    obtain hcut | ⟨hlength, hcut⟩ := h.append
    · exact decodes_uint16.field_cut ⟨by omega, rfl⟩ hcut
    · rw [decodes_uint16.field_starts ⟨by omega, rfl⟩ hlength]
      obtain ⟨hstart, hend, -⟩ := hcut
      rw [if_neg (by omega), sub32_of_le hstart, if_pos (by omega)]

theorem frameTpm2b_of {maxSize : Nat} (dataBuffer : Nat → UInt8) {source : Tpm2b}
    (h : source.size ≤ maxSize) :
    FrameTpm2b maxSize dataBuffer
      ⟨source.size, store dataBuffer 0 (slice source.buffer 0 source.size)⟩
      (tpm2bBytes source) := by
  refine ⟨slice source.buffer 0 source.size, ?_, ?_, ?_⟩
  · rwa [length_slice]
  · rw [length_slice]
  · rw [length_slice]
    rfl

theorem FrameTpm2b.eq {maxSize : Nat} {dataBuffer : Nat → UInt8} {value : Tpm2b}
    {bytes : List UInt8} (h : FrameTpm2b maxSize dataBuffer value bytes) :
    value.size ≤ maxSize ∧ bytes = tpm2bBytes value := by
  obtain ⟨data, hdata, rfl, rfl⟩ := h
  exact ⟨hdata, congrArg (bytes16 data.length ++ ·) (slice_store_same dataBuffer 0 data).symm⟩

/-- The same size and the same bytes. -/
def Tpm2b.Same (a b : Tpm2b) : Prop :=
  a.size = b.size ∧ slice a.buffer 0 a.size = slice b.buffer 0 b.size

theorem same_stored (old : Nat → UInt8) (source : Tpm2b) :
    Tpm2b.Same ⟨source.size, store old 0 (slice source.buffer 0 source.size)⟩ source := by
  have h := slice_store_same old 0 (slice source.buffer 0 source.size)
  rw [length_slice] at h
  exact ⟨rfl, h⟩

theorem starts_bytes16 {buffer : Nat → UInt8} {size offset value : Nat} (h : value < 2 ^ 16) :
    Starts buffer size offset (bytes16 value) ↔
      offset + 2 ≤ size ∧ get16 buffer offset = value := by
  refine and_congr_right fun _ => ⟨fun hslice => ?_, fun hvalue => ?_⟩
  · exact (get16_of_slice hslice).trans (Nat.mod_eq_of_lt h)
  · rw [length_bytes16, slice_eq_bytes16, hvalue]

theorem starts_bytes32 {buffer : Nat → UInt8} {size offset value : Nat} (h : value < 2 ^ 32) :
    Starts buffer size offset (bytes32 value) ↔
      offset + 4 ≤ size ∧ get32 buffer offset = value := by
  refine and_congr_right fun _ => ⟨fun hslice => ?_, fun hvalue => ?_⟩
  · exact (get32_of_slice hslice).trans (Nat.mod_eq_of_lt h)
  · rw [length_bytes32, slice_eq_bytes32, hvalue]

/-- The parameters as they stand in a command. -/
def encodeNvDefineSpace (p : NvDefineSpaceParams) : List UInt8 :=
  bytes32 p.authHandle ++ tpm2bBytes ⟨p.authSize, p.auth⟩ ++ bytes16 p.publicSize ++
    bytes32 p.nvIndex ++ bytes16 p.nameAlg ++ bytes32 p.attributes ++
    tpm2bBytes ⟨p.authPolicySize, p.authPolicy⟩ ++ bytes16 p.dataSize

/-- The members are in the range of their types, and the sizes in that of their arrays. -/
structure NvDefineSpaceParams.InRange (p : NvDefineSpaceParams) : Prop where
  authHandle : p.authHandle < 2 ^ 32
  authSize : p.authSize ≤ 64
  publicSize : p.publicSize < 2 ^ 16
  nvIndex : p.nvIndex < 2 ^ 32
  nameAlg : p.nameAlg < 2 ^ 16
  attributes : p.attributes < 2 ^ 32
  authPolicySize : p.authPolicySize ≤ 64
  dataSize : p.dataSize < 2 ^ 16

/-- Equal in every member; of the arrays only the used parts count. -/
structure NvDefineSpaceParams.Same (p q : NvDefineSpaceParams) : Prop where
  authHandle : p.authHandle = q.authHandle
  auth : Tpm2b.Same ⟨p.authSize, p.auth⟩ ⟨q.authSize, q.auth⟩
  publicSize : p.publicSize = q.publicSize
  nvIndex : p.nvIndex = q.nvIndex
  nameAlg : p.nameAlg = q.nameAlg
  attributes : p.attributes = q.attributes
  authPolicy : Tpm2b.Same ⟨p.authPolicySize, p.authPolicy⟩ ⟨q.authPolicySize, q.authPolicy⟩
  dataSize : p.dataSize = q.dataSize

/-- The parameters written over a local, whose arrays keep what is not overwritten. -/
def NvDefineSpaceParams.over (locals p : NvDefineSpaceParams) : NvDefineSpaceParams :=
  { p with
    auth := store locals.auth 0 (slice p.auth 0 p.authSize)
    authPolicy := store locals.authPolicy 0 (slice p.authPolicy 0 p.authPolicySize) }

theorem NvDefineSpaceParams.same_over (locals p : NvDefineSpaceParams) :
    (locals.over p).Same p :=
  ⟨rfl, same_stored locals.auth ⟨p.authSize, p.auth⟩, rfl, rfl, rfl, rfl,
    same_stored locals.authPolicy ⟨p.authPolicySize, p.authPolicy⟩, rfl⟩

theorem length_encodeNvDefineSpace (p : NvDefineSpaceParams) :
    (encodeNvDefineSpace p).length = 22 + p.authSize + p.authPolicySize := by
  simp only [encodeNvDefineSpace, List.length_append, length_bytes32, length_bytes16,
    length_tpm2bBytes]
  omega

section DefineSpace

variable {locals p : NvDefineSpaceParams} {buffer : Nat → UInt8} {size : Nat}

theorem unmarshalNvDefineSpace_starts (hp : p.InRange)
    (h : Starts buffer size 0 (encodeNvDefineSpace p)) :
    unmarshalNvDefineSpace locals buffer size =
      .ok (locals.over p, (encodeNvDefineSpace p).length) := by
  have hlength := length_encodeNvDefineSpace p
  simp only [encodeNvDefineSpace, List.append_assoc, starts_append] at h
  obtain ⟨hauthHandle, hauth, hpublicSize, hnvIndex, hnameAlg, hattributes, hauthPolicy,
    hdataSize⟩ := h
  rw [unmarshalNvDefineSpace,
    decodes_uint32.field_starts ⟨hp.authHandle, rfl⟩ hauthHandle,
    (decodes_tpm2b (by decide) _).field_starts (frameTpm2b_of _ hp.authSize) hauth,
    decodes_uint16.field_starts ⟨hp.publicSize, rfl⟩ hpublicSize,
    decodes_uint32.field_starts ⟨hp.nvIndex, rfl⟩ hnvIndex,
    decodes_uint16.field_starts ⟨hp.nameAlg, rfl⟩ hnameAlg,
    decodes_uint32.field_starts ⟨hp.attributes, rfl⟩ hattributes,
    (decodes_tpm2b (by decide) _).field_starts (frameTpm2b_of _ hp.authPolicySize) hauthPolicy,
    decodes_uint16.field_starts ⟨hp.dataSize, rfl⟩ hdataSize, hlength]
  simp only [length_bytes32, length_bytes16, length_tpm2bBytes]
  refine congrArg (fun n => Except.ok (locals.over p, n)) ?_
  omega

/-- Wherever the buffer ends inside the encoding, the field that is cut reports it. -/
theorem unmarshalNvDefineSpace_cut (hp : p.InRange)
    (h : Cut buffer size 0 (encodeNvDefineSpace p)) :
    unmarshalNvDefineSpace locals buffer size = .error tpmRcInsufficient := by
  simp only [encodeNvDefineSpace, List.append_assoc] at h
  unfold unmarshalNvDefineSpace
  obtain hcut | ⟨hauthHandle, h⟩ := h.append
  · exact decodes_uint32.field_cut ⟨hp.authHandle, rfl⟩ hcut
  rw [decodes_uint32.field_starts ⟨hp.authHandle, rfl⟩ hauthHandle]
  obtain hcut | ⟨hauth, h⟩ := h.append
  · exact (decodes_tpm2b (by decide) _).field_cut (frameTpm2b_of _ hp.authSize) hcut
  rw [(decodes_tpm2b (by decide) _).field_starts (frameTpm2b_of _ hp.authSize) hauth]
  obtain hcut | ⟨hpublicSize, h⟩ := h.append
  · exact decodes_uint16.field_cut ⟨hp.publicSize, rfl⟩ hcut
  rw [decodes_uint16.field_starts ⟨hp.publicSize, rfl⟩ hpublicSize]
  obtain hcut | ⟨hnvIndex, h⟩ := h.append
  · exact decodes_uint32.field_cut ⟨hp.nvIndex, rfl⟩ hcut
  rw [decodes_uint32.field_starts ⟨hp.nvIndex, rfl⟩ hnvIndex]
  obtain hcut | ⟨hnameAlg, h⟩ := h.append
  · exact decodes_uint16.field_cut ⟨hp.nameAlg, rfl⟩ hcut
  rw [decodes_uint16.field_starts ⟨hp.nameAlg, rfl⟩ hnameAlg]
  obtain hcut | ⟨hattributes, h⟩ := h.append
  · exact decodes_uint32.field_cut ⟨hp.attributes, rfl⟩ hcut
  rw [decodes_uint32.field_starts ⟨hp.attributes, rfl⟩ hattributes]
  obtain hcut | ⟨hauthPolicy, h⟩ := h.append
  · exact (decodes_tpm2b (by decide) _).field_cut (frameTpm2b_of _ hp.authPolicySize) hcut
  rw [(decodes_tpm2b (by decide) _).field_starts (frameTpm2b_of _ hp.authPolicySize) hauthPolicy]
  exact decodes_uint16.field_cut ⟨hp.dataSize, rfl⟩ h

theorem unmarshalNvDefineSpace_only {n : Nat}
    (h : unmarshalNvDefineSpace locals buffer size = .ok (p, n)) :
    p.InRange ∧ n = (encodeNvDefineSpace p).length ∧
      Starts buffer size 0 (encodeNvDefineSpace p) := by
  obtain ⟨authHandle, _, ⟨hauthHandle, rfl⟩, hs₁, h⟩ :=
    decodes_uint32.field_only (Nat.zero_le _) h
  obtain ⟨auth, _, hframe, hs₂, h⟩ := (decodes_tpm2b (by decide) _).field_only hs₁.1 h
  obtain ⟨hauth, rfl⟩ := hframe.eq
  obtain ⟨publicSize, _, ⟨hpublicSize, rfl⟩, hs₃, h⟩ := decodes_uint16.field_only hs₂.1 h
  obtain ⟨nvIndex, _, ⟨hnvIndex, rfl⟩, hs₄, h⟩ := decodes_uint32.field_only hs₃.1 h
  obtain ⟨nameAlg, _, ⟨hnameAlg, rfl⟩, hs₅, h⟩ := decodes_uint16.field_only hs₄.1 h
  obtain ⟨attributes, _, ⟨hattributes, rfl⟩, hs₆, h⟩ := decodes_uint32.field_only hs₅.1 h
  obtain ⟨authPolicy, _, hframe, hs₇, h⟩ := (decodes_tpm2b (by decide) _).field_only hs₆.1 h
  obtain ⟨hauthPolicy, rfl⟩ := hframe.eq
  obtain ⟨dataSize, _, ⟨hdataSize, rfl⟩, hs₈, h⟩ := decodes_uint16.field_only hs₇.1 h
  cases h
  refine ⟨⟨hauthHandle, hauth, hpublicSize, hnvIndex, hnameAlg, hattributes, hauthPolicy,
    hdataSize⟩, ?_, ?_⟩
  · rw [length_encodeNvDefineSpace]
    simp only [length_bytes32, length_bytes16, length_tpm2bBytes]
    omega
  · simp only [encodeNvDefineSpace, List.append_assoc, starts_append]
    exact ⟨hs₁, hs₂, hs₃, hs₄, hs₅, hs₆, hs₇, hs₈⟩

end DefineSpace

/-- The encoding and the unmarshaller of NV_DefineSpace are inverse to each other, and
every proper prefix of an encoding is too short. -/
theorem nvDefineSpace_codec (locals : NvDefineSpaceParams) (buffer : Nat → UInt8) (size : Nat) :
    (∀ p trailing, p.InRange → slice buffer 0 size = encodeNvDefineSpace p ++ trailing →
      ∃ q, unmarshalNvDefineSpace locals buffer size = .ok (q, (encodeNvDefineSpace p).length) ∧
        q.Same p) ∧
    (∀ p bytesRead, unmarshalNvDefineSpace locals buffer size = .ok (p, bytesRead) →
      bytesRead ≤ size ∧ slice buffer 0 bytesRead = encodeNvDefineSpace p) ∧
    (∀ p, p.InRange → size < (encodeNvDefineSpace p).length →
      slice buffer 0 size = (encodeNvDefineSpace p).take size →
      unmarshalNvDefineSpace locals buffer size = .error tpmRcInsufficient) := by
  refine ⟨?_, ?_, ?_⟩
  · intro p trailing hp hbuffer
    exact ⟨locals.over p, unmarshalNvDefineSpace_starts hp (starts_iff_append.mpr ⟨_, hbuffer⟩),
      locals.same_over p⟩
  · intro p bytesRead h
    obtain ⟨-, rfl, hsize, hslice⟩ := unmarshalNvDefineSpace_only h
    exact ⟨by omega, hslice⟩
  · intro p hp hsize hbuffer
    exact unmarshalNvDefineSpace_cut hp ⟨Nat.zero_le _, by omega, hbuffer⟩

/-- The two handles and the empty authorization that both commands start with. -/
def encodeNvHandles (authHandle nvIndex : Nat) : List UInt8 :=
  bytes32 authHandle ++ bytes32 nvIndex ++ [0x00, 0x00]

def encodeNvWrite (authHandle nvIndex : Nat) (data : List UInt8) (offset : Nat) : List UInt8 :=
  encodeNvHandles authHandle nvIndex ++ (bytes16 data.length ++ data) ++ bytes16 offset

def encodeNvRead (p : NvReadParams) : List UInt8 :=
  encodeNvHandles p.authHandle p.nvIndex ++ bytes16 p.sizeToRead ++ bytes16 p.offset

/-- The commands that NV_Write should accept, with the parameters and the count of
bytes that they stand for. The data is copied over that of the local `params`. -/
def NvWriteSentence (params : NvWriteParams) (buffer : Nat → UInt8) (size : Nat)
    (result : NvWriteParams × Nat) : Prop :=
  ∃ authHandle nvIndex data offset, authHandle < 2 ^ 32 ∧ nvIndex < 2 ^ 32 ∧
    data.length ≤ maxNvBufferSize ∧ offset < 2 ^ 16 ∧
    Starts buffer size 0 (encodeNvWrite authHandle nvIndex data offset) ∧
    result = (⟨authHandle, nvIndex, ⟨data.length, store params.data.buffer 0 data⟩, offset⟩,
      14 + data.length)

def NvReadSentence (buffer : Nat → UInt8) (size : Nat) (result : NvReadParams × Nat) : Prop :=
  ∃ p : NvReadParams, p.authHandle < 2 ^ 32 ∧ p.nvIndex < 2 ^ 32 ∧ p.sizeToRead < 2 ^ 16 ∧
    p.offset < 2 ^ 16 ∧ Starts buffer size 0 (encodeNvRead p) ∧ result = (p, 14)

/-- The unmarshaller reports success exactly on the sentences of its grammar, with the
result that belongs to the sentence, and otherwise reports an error. -/
def FollowsGrammar {α : Type} (outcome : Except Nat α) (Sentence : α → Prop) : Prop :=
  (∀ result, outcome = .ok result ↔ Sentence result) ∧
    ∀ rc, outcome = .error rc → rc ≠ tpmRcSuccess

section NvData

variable {β : Type} {buffer : Nat → UInt8} {size : Nat}
  {next : Nat → Nat → Nat → Nat → Except Nat β}

theorem starts_encodeNvHandles {authHandle nvIndex : Nat} (hauthHandle : authHandle < 2 ^ 32)
    (hnvIndex : nvIndex < 2 ^ 32) {rest : List UInt8} :
    Starts buffer size 0 (encodeNvHandles authHandle nvIndex ++ rest) ↔
      10 ≤ size ∧ get32 buffer 0 = authHandle ∧ get32 buffer 4 = nvIndex ∧ get16 buffer 8 = 0 ∧
        Starts buffer size 10 rest := by
  have hzero : ([0x00, 0x00] : List UInt8) = bytes16 0 := rfl
  rw [encodeNvHandles, hzero, List.append_assoc, List.append_assoc, starts_append, starts_append,
    starts_append, starts_bytes32 hauthHandle, starts_bytes32 hnvIndex, starts_bytes16 (by decide)]
  simp only [length_bytes32, length_bytes16, Nat.reduceAdd]
  constructor
  · rintro ⟨⟨-, h₁⟩, ⟨-, h₂⟩, ⟨hsize, h₃⟩, hrest⟩
    exact ⟨hsize, h₁, h₂, h₃, hrest⟩
  · rintro ⟨hsize, h₁, h₂, h₃, hrest⟩
    exact ⟨⟨by omega, h₁⟩, ⟨by omega, h₂⟩, ⟨hsize, h₃⟩, hrest⟩

/-- The three fields that both unmarshallers read first. -/
theorem field_nvHandles (h : 10 ≤ size) :
    (field unmarshalUint32 buffer size 0 fun authHandle offset =>
      field unmarshalUint32 buffer size offset fun nvIndex offset =>
      field unmarshalUint16 buffer size offset fun authSize offset =>
      next authHandle nvIndex authSize offset) =
      next (get32 buffer 0) (get32 buffer 4) (get16 buffer 8) 10 := by
  rw [field_uint32 _ (by omega), field_uint32 _ (by omega), field_uint16 _ (by omega)]

theorem field_nvHandles_ok {result : β}
    (h : (field unmarshalUint32 buffer size 0 fun authHandle offset =>
      field unmarshalUint32 buffer size offset fun nvIndex offset =>
      field unmarshalUint16 buffer size offset fun authSize offset =>
      next authHandle nvIndex authSize offset) = .ok result) :
    10 ≤ size ∧ next (get32 buffer 0) (get32 buffer 4) (get16 buffer 8) 10 = .ok result := by
  obtain ⟨hsize, h⟩ := field_uint32_ok (Nat.zero_le _) h
  obtain ⟨hsize, h⟩ := field_uint32_ok hsize h
  exact field_uint16_ok hsize h

theorem NvWriteSentence.authSize_eq {params : NvWriteParams} {result : NvWriteParams × Nat}
    (h : NvWriteSentence params buffer size result) : get16 buffer 8 = 0 := by
  obtain ⟨authHandle, nvIndex, data, offset, hauthHandle, hnvIndex, -, -, hstarts, -⟩ := h
  rw [encodeNvWrite, List.append_assoc] at hstarts
  exact ((starts_encodeNvHandles hauthHandle hnvIndex).mp hstarts).2.2.2.1

theorem NvReadSentence.authSize_eq {result : NvReadParams × Nat}
    (h : NvReadSentence buffer size result) : get16 buffer 8 = 0 := by
  obtain ⟨p, hauthHandle, hnvIndex, -, -, hstarts, -⟩ := h
  rw [encodeNvRead, List.append_assoc] at hstarts
  exact ((starts_encodeNvHandles hauthHandle hnvIndex).mp hstarts).2.2.2.1

/-- Where the parameters of a write end. -/
theorem nvWrite_end (data : List UInt8) (offset : Nat) :
    10 + (bytes16 data.length ++ data).length + (bytes16 offset).length = 14 + data.length := by
  simp only [List.length_append, length_bytes16]
  omega

theorem unmarshalNvWrite_sentence {params : NvWriteParams} (bytesRead : Nat)
    {result : NvWriteParams × Nat} (h : NvWriteSentence params buffer size result) :
    unmarshalNvWrite params bytesRead buffer size = .ok result := by
  obtain ⟨authHandle, nvIndex, data, offset, hauthHandle, hnvIndex, hdata, hoffset, hstarts,
    rfl⟩ := h
  rw [encodeNvWrite, List.append_assoc, starts_encodeNvHandles hauthHandle hnvIndex,
    starts_append] at hstarts
  obtain ⟨hsize, rfl, rfl, hauthSize, hcontents, hend⟩ := hstarts
  refine (field_nvHandles hsize).trans ?_
  rw [if_neg (not_not.mpr hauthSize), unmarshalTpm2bMaxNvBuffer,
    (decodes_tpm2b (by decide) _).field_starts ⟨data, hdata, rfl, rfl⟩ hcontents,
    decodes_uint16.field_starts ⟨hoffset, rfl⟩ hend]
  rw [nvWrite_end]

theorem unmarshalNvRead_sentence (params : NvReadParams) (bytesRead : Nat)
    {result : NvReadParams × Nat} (h : NvReadSentence buffer size result) :
    unmarshalNvRead params bytesRead buffer size = .ok result := by
  obtain ⟨⟨authHandle, nvIndex, sizeToRead, offset⟩, hauthHandle, hnvIndex, hsizeToRead, hoffset,
    hstarts, rfl⟩ := h
  rw [encodeNvRead, List.append_assoc, starts_encodeNvHandles hauthHandle hnvIndex,
    starts_append] at hstarts
  obtain ⟨hsize, rfl, rfl, hauthSize, hcount, hend⟩ := hstarts
  refine (field_nvHandles hsize).trans ?_
  rw [if_neg (not_not.mpr hauthSize), decodes_uint16.field_starts ⟨hsizeToRead, rfl⟩ hcount,
    decodes_uint16.field_starts ⟨hoffset, rfl⟩ hend]
  rfl

/-- What is accepted without being a sentence is accepted for its authorization size. -/
theorem unmarshalNvWrite_only {params : NvWriteParams} {bytesRead : Nat}
    {result : NvWriteParams × Nat}
    (h : unmarshalNvWrite params bytesRead buffer size = .ok result) :
    (10 ≤ size ∧ get16 buffer 8 ≠ 0) ∨ NvWriteSentence params buffer size result := by
  obtain ⟨hsize, h⟩ := field_nvHandles_ok h
  by_cases hauthSize : get16 buffer 8 ≠ 0
  · exact .inl ⟨hsize, hauthSize⟩
  rw [if_neg hauthSize] at h
  obtain ⟨value, _, ⟨data, hdata, rfl, rfl⟩, hcontents, h⟩ :=
    (decodes_tpm2b (by decide) _).field_only hsize h
  obtain ⟨offset, _, ⟨hoffset, rfl⟩, hend, h⟩ := decodes_uint16.field_only hcontents.1 h
  cases h
  have hstarts : Starts buffer size 0 (encodeNvHandles (get32 buffer 0) (get32 buffer 4) ++
      (bytes16 data.length ++ data ++ bytes16 offset)) :=
    (starts_encodeNvHandles (get32_lt buffer 0) (get32_lt buffer 4)).mpr
      ⟨hsize, rfl, rfl, not_not.mp hauthSize, starts_append.mpr ⟨hcontents, hend⟩⟩
  rw [← List.append_assoc] at hstarts
  rw [nvWrite_end]
  exact .inr ⟨get32 buffer 0, get32 buffer 4, data, offset, get32_lt buffer 0, get32_lt buffer 4,
    hdata, hoffset, hstarts, rfl⟩

theorem unmarshalNvRead_only {params : NvReadParams} {bytesRead : Nat}
    {result : NvReadParams × Nat}
    (h : unmarshalNvRead params bytesRead buffer size = .ok result) :
    (10 ≤ size ∧ get16 buffer 8 ≠ 0) ∨ NvReadSentence buffer size result := by
  obtain ⟨hsize, h⟩ := field_nvHandles_ok h
  by_cases hauthSize : get16 buffer 8 ≠ 0
  · exact .inl ⟨hsize, hauthSize⟩
  rw [if_neg hauthSize] at h
  obtain ⟨sizeToRead, _, ⟨hsizeToRead, rfl⟩, hcount, h⟩ := decodes_uint16.field_only hsize h
  obtain ⟨offset, _, ⟨hoffset, rfl⟩, hend, h⟩ := decodes_uint16.field_only hcount.1 h
  cases h
  have hstarts : Starts buffer size 0 (encodeNvHandles (get32 buffer 0) (get32 buffer 4) ++
      (bytes16 sizeToRead ++ bytes16 offset)) :=
    (starts_encodeNvHandles (get32_lt buffer 0) (get32_lt buffer 4)).mpr
      ⟨hsize, rfl, rfl, not_not.mp hauthSize, starts_append.mpr ⟨hcount, hend⟩⟩
  rw [← List.append_assoc] at hstarts
  exact .inr ⟨⟨get32 buffer 0, get32 buffer 4, sizeToRead, offset⟩, get32_lt buffer 0,
    get32_lt buffer 4, hsizeToRead, hoffset, hstarts, rfl⟩

/-- A non-zero authorization size ends the parse with the success code. -/
theorem unmarshalNvWrite_authSize (params : NvWriteParams) (bytesRead : Nat)
    (h : 10 ≤ size ∧ get16 buffer 8 ≠ 0) :
    ∃ result, unmarshalNvWrite params bytesRead buffer size = .ok result :=
  ⟨_, (field_nvHandles h.1).trans (if_pos h.2)⟩

theorem unmarshalNvRead_authSize (params : NvReadParams) (bytesRead : Nat)
    (h : 10 ≤ size ∧ get16 buffer 8 ≠ 0) :
    ∃ result, unmarshalNvRead params bytesRead buffer size = .ok result :=
  ⟨_, (field_nvHandles h.1).trans (if_pos h.2)⟩

end NvData

/-- An unmarshaller that accepts the sentences of its grammar, and besides them exactly
the bodies with the property `Skips`, follows its grammar when there is no such body. -/
theorem followsGrammar_iff {α : Type} {outcome : Except Nat α} {Sentence : α → Prop}
    {Skips : Prop} (hsentence : ∀ result, Sentence result → outcome = .ok result)
    (hother : ∀ result, Sentence result → ¬ Skips)
    (honly : ∀ result, outcome = .ok result → Skips ∨ Sentence result)
    (hskips : Skips → ∃ result, outcome = .ok result)
    (herror : ∀ rc, outcome = .error rc → rc ≠ tpmRcSuccess) :
    FollowsGrammar outcome Sentence ↔ ¬ Skips := by
  constructor
  · rintro ⟨hiff, -⟩ hskip
    obtain ⟨result, hresult⟩ := hskips hskip
    exact hother result ((hiff result).mp hresult) hskip
  · intro hnot
    exact ⟨fun result => ⟨fun h => (honly result h).resolve_left hnot, hsentence result⟩, herror⟩

/-- The two unmarshallers follow their grammars exactly on the bodies whose
authorization size is missing or zero. -/
theorem nvGrammar_iff (writeParams : NvWriteParams) (readParams : NvReadParams) (bytesRead : Nat)
    (buffer : Nat → UInt8) (size : Nat) :
    (FollowsGrammar (unmarshalNvWrite writeParams bytesRead buffer size)
      (NvWriteSentence writeParams buffer size) ↔ ¬ (10 ≤ size ∧ get16 buffer 8 ≠ 0)) ∧
    (FollowsGrammar (unmarshalNvRead readParams bytesRead buffer size)
      (NvReadSentence buffer size) ↔ ¬ (10 ≤ size ∧ get16 buffer 8 ≠ 0)) :=
  ⟨followsGrammar_iff (fun _ => unmarshalNvWrite_sentence bytesRead)
      (fun _ hsentence hskips => hskips.2 hsentence.authSize_eq) (fun _ => unmarshalNvWrite_only)
      (unmarshalNvWrite_authSize writeParams bytesRead) fun _ h => (unmarshalNvWrite_error h).1,
    followsGrammar_iff (fun _ => unmarshalNvRead_sentence readParams bytesRead)
      (fun _ hsentence hskips => hskips.2 hsentence.authSize_eq) (fun _ => unmarshalNvRead_only)
      (unmarshalNvRead_authSize readParams bytesRead) fun _ h => (unmarshalNvRead_error h).1⟩

/-- Two handles and an authorization size of one, and no more. -/
def bodyAuthSizeOne : List UInt8 :=
  [0x40, 0x00, 0x00, 0x0C, 0x01, 0x00, 0x00, 0x01, 0x00, 0x01]

theorem nvGrammar_fails :
    let body := fun i => bodyAuthSizeOne.getD i 0
    let result : NvReadParams × Nat := (⟨tpmRhPlatform, 0x01000001, 7, 8⟩, 9)
    unmarshalNvRead ⟨5, 6, 7, 8⟩ 9 body 10 = .ok result ∧ ¬ NvReadSentence body 10 result ∧
      ∃ result, unmarshalNvWrite ⟨5, 6, ⟨7, zeroBytes⟩, 8⟩ 9 body 10 = .ok result ∧
        ¬ NvWriteSentence ⟨5, 6, ⟨7, zeroBytes⟩, 8⟩ body 10 result := by
  intro body result
  have hauthSize : 10 ≤ 10 ∧ get16 body 8 ≠ 0 := by decide +kernel
  obtain ⟨result', hresult⟩ := unmarshalNvWrite_authSize ⟨5, 6, ⟨7, zeroBytes⟩, 8⟩ 9 hauthSize
  exact ⟨by decide +kernel, fun hsentence => hauthSize.2 hsentence.authSize_eq, result', hresult,
    fun hsentence => hauthSize.2 hsentence.authSize_eq⟩

/-- The position of the size of the data in a body with a sensitive area. -/
def dataSizeOffset (body : Nat → UInt8) : Nat := 8 + get16 body 6

/-- The sizes that an accepted body leaves in the parameters: those of the body, the
authorization at most 64 and the data at most 256, or without a sensitive area those
that the handler's local held. -/
theorem unmarshalCreatePrimary_sizes {initial params : CreatePrimaryParams} {body : Nat → UInt8}
    {size bytesRead : Nat}
    (h : unmarshalCreatePrimary initial body size = .ok (params, bytesRead)) :
    params.inSensitiveSize = get16 body 4 ∧
    ((0 < get16 body 4 ∧ params.userAuthSize = get16 body 6 ∧ get16 body 6 ≤ 64 ∧
      params.dataSize = get16 body (dataSizeOffset body) ∧ params.dataSize ≤ 256) ∨
    (get16 body 4 = 0 ∧ params.userAuthSize = initial.userAuthSize ∧
      params.dataSize = initial.dataSize)) := by
  obtain ⟨hsize, h⟩ := field_uint32_ok (Nat.zero_le _) h
  obtain ⟨hsize, h⟩ := field_uint16_ok hsize h
  unfold unmarshalInSensitive at h
  split at h
  · rename_i hpos
    obtain ⟨hauth, hroom, h⟩ := field_tpm2b_ok hsize h
    obtain ⟨hdata, hroom', h⟩ := field_tpm2b_ok (by omega) h
    obtain ⟨-, h⟩ := field_uint16_ok (by omega) h
    split at h
    · cases h
    cases h
    exact ⟨rfl, .inl ⟨hpos, rfl, hauth,
      congrArg (get16 body) (show 6 + (2 + get16 body 6) = 8 + get16 body 6 by omega), hdata⟩⟩
  · rename_i hzero
    obtain ⟨-, h⟩ := field_uint16_ok hsize h
    split at h
    · cases h
    cases h
    exact ⟨rfl, .inr ⟨Nat.eq_zero_of_not_pos hzero, rfl, rfl⟩⟩

theorem unmarshalNvDefineSpace_sizes {initial params : NvDefineSpaceParams} {body : Nat → UInt8}
    {size bytesRead : Nat}
    (h : unmarshalNvDefineSpace initial body size = .ok (params, bytesRead)) :
    params.authSize = get16 body 4 ∧ params.publicSize = get16 body (6 + get16 body 4) ∧
      params.authPolicySize = get16 body (18 + get16 body 4) ∧
      bytesRead = 22 + params.authSize + params.authPolicySize := by
  obtain ⟨hrange, rfl, hstarts⟩ := unmarshalNvDefineSpace_only h
  have hauthSize := hrange.authSize
  have hauthPolicySize := hrange.authPolicySize
  simp only [encodeNvDefineSpace, tpm2bBytes, List.append_assoc, starts_append, length_bytes32,
    length_bytes16, length_slice, Nat.reduceAdd] at hstarts
  obtain ⟨-, hauth, -, hpublicSize, -, -, -, hauthPolicy, -⟩ := hstarts
  obtain ⟨-, hauth⟩ := (starts_bytes16 (by omega)).mp hauth
  obtain ⟨-, hpublicSize⟩ := (starts_bytes16 hrange.publicSize).mp hpublicSize
  obtain ⟨-, hauthPolicy⟩ := (starts_bytes16 (by omega)).mp hauthPolicy
  rw [hauth]
  refine ⟨rfl, hpublicSize.symm, ?_, length_encodeNvDefineSpace params⟩
  rw [← hauthPolicy]
  exact congrArg (get16 body) (by omega)

/-- The position of the size of the template in a CreatePrimary body. -/
def publicSizeOffset (body : Nat → UInt8) : Nat :=
  if 0 < get16 body 4 then 10 + get16 body 6 + get16 body (dataSizeOffset body) else 6

/-- The fields of a CreatePrimary body, with the template of the size that stands before it,
lie in its `size` bytes, and the sizes in a sensitive area are within their limits. -/
def CreateFits (body : Nat → UInt8) (size : Nat) : Prop :=
  (0 < get16 body 4 → get16 body 6 ≤ 64 ∧ get16 body (dataSizeOffset body) ≤ 256) ∧
    publicSizeOffset body + 2 + get16 body (publicSizeOffset body) ≤ size

/-- The same for an NV_DefineSpace body. -/
def DefineFits (body : Nat → UInt8) (size : Nat) : Prop :=
  get16 body 4 ≤ 64 ∧ get16 body (18 + get16 body 4) ≤ 64 ∧
    22 + get16 body 4 + get16 body (18 + get16 body 4) ≤ size

theorem dataSizeOffset_eq (body : Nat → UInt8) :
    6 + (2 + get16 body 6) = dataSizeOffset body ∧
      dataSizeOffset body + (2 + get16 body (dataSizeOffset body)) =
        10 + get16 body 6 + get16 body (dataSizeOffset body) := by
  have hoffset : dataSizeOffset body = 8 + get16 body 6 := rfl
  omega

theorem createFits_of_ok {initial : CreatePrimaryParams} {body : Nat → UInt8} {size : Nat}
    {result : CreatePrimaryParams × Nat}
    (h : unmarshalCreatePrimary initial body size = .ok result) : CreateFits body size := by
  obtain ⟨hoffset, hend⟩ := dataSizeOffset_eq body
  obtain ⟨hsize, h⟩ := field_uint32_ok (Nat.zero_le _) h
  obtain ⟨hsize, h⟩ := field_uint16_ok hsize h
  unfold unmarshalInSensitive at h
  simp only [Nat.reduceAdd] at hsize h
  rw [CreateFits, publicSizeOffset]
  split at h
  · rename_i hpos
    obtain ⟨hauth, hroom, h⟩ := field_tpm2b_ok hsize h
    rw [hoffset] at h
    obtain ⟨hdata, hroom', h⟩ := field_tpm2b_ok (by omega) h
    obtain ⟨hlast, h⟩ := field_uint16_ok (by omega) h
    rw [sub32_of_le hlast] at h
    split at h
    · cases h
    rename_i hfits
    rw [if_pos hpos, ← hend]
    exact ⟨fun _ => ⟨hauth, hdata⟩, by omega⟩
  · rename_i hzero
    obtain ⟨hlast, h⟩ := field_uint16_ok hsize h
    simp only [Nat.reduceAdd] at hlast h
    rw [sub32_of_le hlast] at h
    split at h
    · cases h
    rename_i hfits
    rw [if_neg hzero]
    exact ⟨fun hpos => absurd hpos hzero, by omega⟩

theorem CreateFits.ok {body : Nat → UInt8} {size : Nat} (h : CreateFits body size)
    (initial : CreatePrimaryParams) :
    ∃ result, unmarshalCreatePrimary initial body size = .ok result := by
  obtain ⟨hoffset, hend⟩ := dataSizeOffset_eq body
  obtain ⟨hlimits, hroom⟩ := h
  rw [publicSizeOffset] at hroom
  by_cases hpos : 0 < get16 body 4
  · obtain ⟨hauth, hdata⟩ := hlimits hpos
    rw [if_pos hpos] at hroom
    rw [unmarshalCreatePrimary, field_uint32 _ (by omega), field_uint16 _ (by omega),
      unmarshalInSensitive, if_pos hpos, field_tpm2b _ _ hauth (by omega), hoffset,
      field_tpm2b _ _ hdata (by omega), hend, field_uint16 _ (by omega), sub32_of_le (by omega),
      if_neg (by omega)]
    exact ⟨_, rfl⟩
  · rw [if_neg hpos] at hroom
    rw [unmarshalCreatePrimary, field_uint32 _ (by omega), field_uint16 _ (by omega),
      unmarshalInSensitive, if_neg hpos, field_uint16 _ (by omega), sub32_of_le (by omega)]
    simp only [Nat.reduceAdd]
    rw [if_neg (by omega)]
    exact ⟨_, rfl⟩

theorem unmarshalCreatePrimary_isOk_iff (initial : CreatePrimaryParams) (body : Nat → UInt8)
    (size : Nat) :
    (∃ result, unmarshalCreatePrimary initial body size = .ok result) ↔ CreateFits body size :=
  ⟨fun ⟨_, h⟩ => createFits_of_ok h, fun h => h.ok initial⟩

theorem unmarshalNvDefineSpace_isOk_iff (initial : NvDefineSpaceParams) (body : Nat → UInt8)
    (size : Nat) :
    (∃ result, unmarshalNvDefineSpace initial body size = .ok result) ↔ DefineFits body size := by
  constructor
  · rintro ⟨⟨params, bytesRead⟩, h⟩
    obtain ⟨hrange, hread, hstarts⟩ := unmarshalNvDefineSpace_only h
    obtain ⟨hauth, -, hpolicy, hlength⟩ := unmarshalNvDefineSpace_sizes h
    have hroom := hstarts.1
    rw [← hread, hlength, Nat.zero_add] at hroom
    have hauthSize := hrange.authSize
    have hpolicySize := hrange.authPolicySize
    rw [hpolicy] at hpolicySize hroom
    rw [hauth] at hauthSize hroom
    exact ⟨hauthSize, hpolicySize, hroom⟩
  · rintro ⟨hauth, hpolicy, hroom⟩
    have hoffset : 4 + (2 + get16 body 4) + 2 + 4 + 2 + 4 = 18 + get16 body 4 := by omega
    rw [unmarshalNvDefineSpace, field_uint32 _ (by omega), field_tpm2b _ _ hauth (by omega),
      field_uint16 _ (by omega), field_uint32 _ (by omega), field_uint16 _ (by omega),
      field_uint32 _ (by omega)]
    simp only [Nat.reduceAdd]
    rw [hoffset, field_tpm2b _ _ hpolicy (by omega),
      field_uint16 _ (by omega)]
    exact ⟨_, rfl⟩

/-- An accepted CreatePrimary body has a sensitive area of the size it announces. -/
def SensitiveSizesAgree (initial : CreatePrimaryParams) (body : Nat → UInt8) (size : Nat) : Prop :=
  ∀ params bytesRead, unmarshalCreatePrimary initial body size = .ok (params, bytesRead) →
    params.inSensitiveSize = 4 + params.userAuthSize + params.dataSize

/-- An accepted NV_DefineSpace body has a public area of the size it announces and
nothing behind it. -/
def PublicSizesAgree (initial : NvDefineSpaceParams) (body : Nat → UInt8) (size : Nat) : Prop :=
  ∀ params bytesRead, unmarshalNvDefineSpace initial body size = .ok (params, bytesRead) →
    params.publicSize = 14 + params.authPolicySize ∧ bytesRead = size

/-- A property of what is accepted, when the input decides both the acceptance and the
property. -/
theorem forall_ok_iff {α : Type} {outcome : Except Nat (α × Nat)} {P : α → Nat → Prop}
    {Fits Q : Prop} (hfits : (∃ result, outcome = .ok result) ↔ Fits)
    (h : ∀ value bytesRead, outcome = .ok (value, bytesRead) → (P value bytesRead ↔ Q)) :
    (∀ value bytesRead, outcome = .ok (value, bytesRead) → P value bytesRead) ↔
      (Fits → Q) := by
  constructor
  · intro hall hfit
    obtain ⟨⟨value, bytesRead⟩, hok⟩ := hfits.mpr hfit
    exact (h value bytesRead hok).mp (hall value bytesRead hok)
  · intro hq value bytesRead hok
    exact (h value bytesRead hok).mpr (hq (hfits.mp ⟨_, hok⟩))

/-- The enclosing sizes of an accepted body agree with what they enclose exactly when the
body does not fit, or the size fields in it agree. A body that does not fit is rejected
with an error code. -/
theorem enclosingSizes_iff (createParams : CreatePrimaryParams)
    (defineParams : NvDefineSpaceParams) (body : Nat → UInt8) (size : Nat) :
    (SensitiveSizesAgree createParams body size ↔
      ¬ CreateFits body size ∨
        get16 body 4 = 4 + get16 body 6 + get16 body (8 + get16 body 6)) ∧
    (PublicSizesAgree defineParams body size ↔
      ¬ DefineFits body size ∨
        (get16 body (6 + get16 body 4) = 14 + get16 body (18 + get16 body 4) ∧
          22 + get16 body 4 + get16 body (18 + get16 body 4) = size)) ∧
    (∀ rc, unmarshalCreatePrimary createParams body size = .error rc → rc ≠ tpmRcSuccess) ∧
    ∀ rc, unmarshalNvDefineSpace defineParams body size = .error rc → rc ≠ tpmRcSuccess := by
  refine ⟨?_, ?_, fun _ h => ((isReader_createPrimary createParams).error_code h).1,
    fun _ h => ((isReader_nvDefineSpace defineParams).error_code h).1⟩
  · rw [← imp_iff_not_or]
    refine forall_ok_iff (unmarshalCreatePrimary_isOk_iff _ _ _) fun params bytesRead h => ?_
    obtain ⟨houter, ⟨-, hauth, -, hdata, -⟩ | ⟨hzero, -, -⟩⟩ := unmarshalCreatePrimary_sizes h
    · rw [houter, hauth, hdata, dataSizeOffset]
    · exact iff_of_false (by omega) (by omega)
  · rw [← imp_iff_not_or]
    refine forall_ok_iff (unmarshalNvDefineSpace_isOk_iff _ _ _) fun params bytesRead h => ?_
    obtain ⟨hauth, hpublic, hpolicy, hread⟩ := unmarshalNvDefineSpace_sizes h
    rw [← hpublic, ← hpolicy, ← hauth, ← hread]

/-- A CreatePrimary body without a sensitive area and without a template. -/
def bodyEmptySensitive : List UInt8 := [0x40, 0x00, 0x00, 0x01, 0x00, 0x00, 0x00, 0x00]

/-- The parameters of a definition with a public size of zero, and one more byte. -/
def bodyDefineTrailing : List UInt8 :=
  [0x40, 0x00, 0x00, 0x01, 0x00, 0x00, 0x00, 0x00, 0x01, 0x00, 0x00, 0x01, 0x00, 0x0B,
   0x02, 0x4C, 0x00, 0x06, 0x00, 0x00, 0x00, 0x20, 0xFF]

/-- A computed view of a success gives the success. -/
theorem ok_of_toOption {α β : Type} {outcome : Except Nat α} {view : α → β} {b : β}
    (h : outcome.toOption.map view = some b) :
    ∃ result, outcome = .ok result ∧ view result = b := by
  cases outcome with
  | error rc => cases h
  | ok result => exact ⟨result, rfl, Option.some.inj h⟩

theorem enclosingSizes_fails :
    let createParams : CreatePrimaryParams := ⟨0, 0, 5, zeroBytes, 6, zeroBytes, 0⟩
    let defineParams : NvDefineSpaceParams := ⟨0, 0, zeroBytes, 0, 0, 0, 0, 0, zeroBytes, 0⟩
    (∃ result, unmarshalCreatePrimary createParams (bodyEmptySensitive.getD · 0) 8 = .ok result ∧
      (result.1.inSensitiveSize, result.1.userAuthSize, result.1.dataSize) = (0, 5, 6)) ∧
    ∃ result, unmarshalNvDefineSpace defineParams (bodyDefineTrailing.getD · 0) 23 = .ok result ∧
      (result.1.publicSize, result.1.authPolicySize, result.2) = (0, 0, 22) :=
  ⟨ok_of_toOption (by decide +kernel), ok_of_toOption (by decide +kernel)⟩

end TpmEmulator
