import TpmEmulator.Header

/-!
The command unmarshallers of `cc_unmarshal.h`. An unmarshaller reads a buffer of
a given size and returns a code, a value and the number of bytes it consumed;
here the code is the error of an `Except`. The composite unmarshallers repeat one
statement: call an unmarshaller on `buffer + offset` with `bufferSize - offset`,
return its code if it failed, add what it consumed to the offset. `field` is that
statement. Members of a parameter structure that an unmarshaller does not assign
keep the value the caller's local had.

`IsReader` collects what the rest of the development needs of an unmarshaller: it
consumes no more than the buffer holds, it looks at nothing behind the end of the
buffer, and it fails with an error code.
-/
namespace TpmEmulator

open CellMemory BigEndian

/-- One step of a composite unmarshaller at `offset`; `next` is the rest of it. -/
def field {α β : Type} (unmarshal : (Nat → UInt8) → Nat → Except Nat (α × Nat))
    (buffer : Nat → UInt8) (bufferSize offset : Nat) (next : α → Nat → Except Nat β) :
    Except Nat β :=
  match unmarshal (advance buffer offset) (sub32 bufferSize offset) with
  | .error rc => .error rc
  | .ok (value, consumed) => next value (offset + consumed)

/-- The statement `return rc` of a function whose outputs hold `value`. -/
def returnRc {α : Type} (rc : Nat) (value : α) : Except Nat α :=
  if rc = tpmRcSuccess then .ok value else .error rc

def unmarshalUint16 (buffer : Nat → UInt8) (bufferSize : Nat) : Except Nat (Nat × Nat) :=
  if bufferSize < 2 then .error tpmRcInsufficient else .ok (get16 buffer 0, 2)

def unmarshalUint32 (buffer : Nat → UInt8) (bufferSize : Nat) : Except Nat (Nat × Nat) :=
  if bufferSize < 4 then .error tpmRcInsufficient else .ok (get32 buffer 0, 4)

/-- The size and, copied over the start of `dataBuffer`, the data. -/
def unmarshalTpm2b (maxSize : Nat) (dataBuffer : Nat → UInt8) (buffer : Nat → UInt8)
    (bufferSize : Nat) : Except Nat (Tpm2b × Nat) :=
  field unmarshalUint16 buffer bufferSize 0 fun dataSize offset =>
    if maxSize < dataSize then .error tpmRcSize
    else if sub32 bufferSize offset < dataSize then .error tpmRcInsufficient
    else .ok (⟨dataSize, store dataBuffer 0 (slice buffer offset dataSize)⟩, offset + dataSize)

def unmarshalTpm2bMaxNvBuffer (target : Tpm2b) :
    (Nat → UInt8) → Nat → Except Nat (Tpm2b × Nat) :=
  unmarshalTpm2b maxNvBufferSize target.buffer

def unmarshalGetRandom (buffer : Nat → UInt8) (bufferSize : Nat) : Except Nat (Nat × Nat) :=
  unmarshalUint16 buffer bufferSize

/-- The part of `Unmarshal_CreatePrimary` under `if (params->inSensitiveSize > 0)`.
With a zero size `userAuth` and `data` stay as they were. -/
def unmarshalInSensitive {β : Type} (buffer : Nat → UInt8) (bufferSize offset : Nat)
    (inSensitiveSize : Nat) (params : CreatePrimaryParams)
    (next : Tpm2b → Tpm2b → Nat → Except Nat β) : Except Nat β :=
  if 0 < inSensitiveSize then
    field (unmarshalTpm2b 64 params.userAuth) buffer bufferSize offset fun userAuth offset =>
    field (unmarshalTpm2b 256 params.data) buffer bufferSize offset fun data offset =>
    next userAuth data offset
  else next ⟨params.userAuthSize, params.userAuth⟩ ⟨params.dataSize, params.data⟩ offset

def unmarshalCreatePrimary (params : CreatePrimaryParams) (buffer : Nat → UInt8)
    (bufferSize : Nat) : Except Nat (CreatePrimaryParams × Nat) :=
  field unmarshalUint32 buffer bufferSize 0 fun primaryHandle offset =>
  field unmarshalUint16 buffer bufferSize offset fun inSensitiveSize offset =>
  unmarshalInSensitive buffer bufferSize offset inSensitiveSize params
    fun userAuth data offset =>
  field unmarshalUint16 buffer bufferSize offset fun inPublicSize offset =>
  if sub32 bufferSize offset < inPublicSize then .error tpmRcInsufficient
  else .ok (⟨primaryHandle, inSensitiveSize, userAuth.size, userAuth.buffer, data.size,
    data.buffer, inPublicSize⟩, offset + inPublicSize)

def unmarshalNvDefineSpace (params : NvDefineSpaceParams) (buffer : Nat → UInt8)
    (bufferSize : Nat) : Except Nat (NvDefineSpaceParams × Nat) :=
  field unmarshalUint32 buffer bufferSize 0 fun authHandle offset =>
  field (unmarshalTpm2b 64 params.auth) buffer bufferSize offset fun auth offset =>
  field unmarshalUint16 buffer bufferSize offset fun publicSize offset =>
  field unmarshalUint32 buffer bufferSize offset fun nvIndex offset =>
  field unmarshalUint16 buffer bufferSize offset fun nameAlg offset =>
  field unmarshalUint32 buffer bufferSize offset fun attributes offset =>
  field (unmarshalTpm2b 64 params.authPolicy) buffer bufferSize offset fun authPolicy offset =>
  field unmarshalUint16 buffer bufferSize offset fun dataSize offset =>
  .ok (⟨authHandle, auth.size, auth.buffer, publicSize, nvIndex, nameAlg, attributes,
    authPolicy.size, authPolicy.buffer, dataSize⟩, offset)

/-- A non-zero authorization size is answered with `TPM_RC_VALUE`, which is the
success code: the caller goes on with the data and the offset its local held. -/
def unmarshalNvWrite (params : NvWriteParams) (bytesRead : Nat) (buffer : Nat → UInt8)
    (bufferSize : Nat) : Except Nat (NvWriteParams × Nat) :=
  field unmarshalUint32 buffer bufferSize 0 fun authHandle offset =>
  field unmarshalUint32 buffer bufferSize offset fun nvIndex offset =>
  field unmarshalUint16 buffer bufferSize offset fun authSize offset =>
  if authSize ≠ 0 then returnRc tpmRcValue ({ params with authHandle, nvIndex }, bytesRead)
  else
    field (unmarshalTpm2bMaxNvBuffer params.data) buffer bufferSize offset fun data offset =>
    field unmarshalUint16 buffer bufferSize offset fun writeOffset offset =>
    .ok (⟨authHandle, nvIndex, data, writeOffset⟩, offset)

def unmarshalNvRead (params : NvReadParams) (bytesRead : Nat) (buffer : Nat → UInt8)
    (bufferSize : Nat) : Except Nat (NvReadParams × Nat) :=
  field unmarshalUint32 buffer bufferSize 0 fun authHandle offset =>
  field unmarshalUint32 buffer bufferSize offset fun nvIndex offset =>
  field unmarshalUint16 buffer bufferSize offset fun authSize offset =>
  if authSize ≠ 0 then returnRc tpmRcValue ({ params with authHandle, nvIndex }, bytesRead)
  else
    field unmarshalUint16 buffer bufferSize offset fun sizeToRead offset =>
    field unmarshalUint16 buffer bufferSize offset fun readOffset offset =>
    .ok (⟨authHandle, nvIndex, sizeToRead, readOffset⟩, offset)

section Field

variable {α β : Type} {unmarshal : (Nat → UInt8) → Nat → Except Nat (α × Nat)}

theorem field_ok {buffer : Nat → UInt8} {bufferSize offset : Nat}
    {next : α → Nat → Except Nat β} {result : β}
    (h : field unmarshal buffer bufferSize offset next = .ok result) :
    ∃ value consumed,
      unmarshal (advance buffer offset) (sub32 bufferSize offset) = .ok (value, consumed) ∧
      next value (offset + consumed) = .ok result := by
  unfold field at h
  split at h
  · cases h
  · rename_i value consumed hread
    exact ⟨value, consumed, hread, h⟩

theorem field_of_ok {buffer : Nat → UInt8} {bufferSize offset consumed : Nat} {value : α}
    (next : α → Nat → Except Nat β)
    (h : unmarshal (advance buffer offset) (sub32 bufferSize offset) = .ok (value, consumed)) :
    field unmarshal buffer bufferSize offset next = next value (offset + consumed) := by
  simp only [field, h]

/-- What is needed of an unmarshaller. -/
structure IsReader (unmarshal : (Nat → UInt8) → Nat → Except Nat (α × Nat)) : Prop where
  consumed_le : ∀ {buffer size value consumed},
    unmarshal buffer size = .ok (value, consumed) → consumed ≤ size
  congr : ∀ {buffer buffer' size},
    (∀ i < size, buffer i = buffer' i) → unmarshal buffer size = unmarshal buffer' size
  error_code : ∀ {buffer size rc}, unmarshal buffer size = .error rc → IsErrorCode rc

theorem IsReader.field_offset_le (hr : IsReader unmarshal) {buffer : Nat → UInt8}
    {bufferSize offset consumed : Nat} {value : α} (hoffset : offset ≤ bufferSize)
    (h : unmarshal (advance buffer offset) (sub32 bufferSize offset) = .ok (value, consumed)) :
    offset + consumed ≤ bufferSize := by
  rw [sub32_of_le hoffset] at h
  have := hr.consumed_le h
  omega

theorem IsReader.field_congr (hr : IsReader unmarshal) {buffer buffer' : Nat → UInt8}
    {bufferSize offset : Nat} {next next' : α → Nat → Except Nat β}
    (hoffset : offset ≤ bufferSize)
    (hbuffer : ∀ i < bufferSize, buffer i = buffer' i)
    (hnext : ∀ value offset', offset' ≤ bufferSize → next value offset' = next' value offset') :
    field unmarshal buffer bufferSize offset next =
      field unmarshal buffer' bufferSize offset next' := by
  have hread : unmarshal (advance buffer offset) (sub32 bufferSize offset) =
      unmarshal (advance buffer' offset) (sub32 bufferSize offset) := by
    rw [sub32_of_le hoffset]
    exact hr.congr fun i hi => hbuffer _ (by omega)
  unfold field
  rw [← hread]
  cases hcase : unmarshal (advance buffer offset) (sub32 bufferSize offset) with
  | error rc => rfl
  | ok result => exact hnext _ _ (hr.field_offset_le hoffset hcase)

theorem IsReader.field_error (hr : IsReader unmarshal) {buffer : Nat → UInt8}
    {bufferSize offset rc : Nat} {next : α → Nat → Except Nat β}
    (hnext : ∀ value offset', next value offset' = .error rc → IsErrorCode rc)
    (h : field unmarshal buffer bufferSize offset next = .error rc) : IsErrorCode rc := by
  unfold field at h
  split at h
  · rename_i hread
    cases h
    exact hr.error_code hread
  · exact hnext _ _ h

end Field

theorem isReader_uint16 : IsReader unmarshalUint16 where
  consumed_le := by
    intro buffer size value consumed h
    unfold unmarshalUint16 at h
    split at h <;> cases h
    omega
  congr := by
    intro buffer buffer' size h
    unfold unmarshalUint16
    split
    · rfl
    · rw [get16_congr fun k hk => h _ (by omega)]
  error_code := by
    intro buffer size rc h
    unfold unmarshalUint16 at h
    split at h <;> cases h
    decide

theorem isReader_uint32 : IsReader unmarshalUint32 where
  consumed_le := by
    intro buffer size value consumed h
    unfold unmarshalUint32 at h
    split at h <;> cases h
    omega
  congr := by
    intro buffer buffer' size h
    unfold unmarshalUint32
    split
    · rfl
    · rw [get32_congr fun k hk => h _ (by omega)]
  error_code := by
    intro buffer size rc h
    unfold unmarshalUint32 at h
    split at h <;> cases h
    decide

theorem isReader_tpm2b (maxSize : Nat) (dataBuffer : Nat → UInt8) :
    IsReader (unmarshalTpm2b maxSize dataBuffer) where
  consumed_le := by
    intro buffer size value consumed h
    obtain ⟨dataSize, read, hread, h⟩ := field_ok h
    have hoffset := isReader_uint16.field_offset_le (Nat.zero_le size) hread
    split at h
    · cases h
    split at h
    · cases h
    rename_i hroom
    rw [sub32_of_le hoffset] at hroom
    cases h
    omega
  congr := by
    intro buffer buffer' size h
    refine isReader_uint16.field_congr (Nat.zero_le size) h fun dataSize offset hoffset => ?_
    rw [sub32_of_le hoffset]
    split
    · rfl
    split
    · rfl
    rw [slice_congr fun i hi => h _ (by omega)]
  error_code := by
    intro buffer size rc h
    refine isReader_uint16.field_error (fun dataSize offset h => ?_) h
    split at h
    · cases h; decide
    split at h <;> cases h
    decide

section Positions

variable {β : Type} {buffer : Nat → UInt8} {size offset : Nat}

theorem field_uint16 (next : Nat → Nat → Except Nat β) (h : offset + 2 ≤ size) :
    field unmarshalUint16 buffer size offset next = next (get16 buffer offset) (offset + 2) := by
  refine field_of_ok next ?_
  rw [sub32_of_le (by omega), unmarshalUint16, if_neg (by omega), get16_advance, Nat.add_zero]

theorem field_uint32 (next : Nat → Nat → Except Nat β) (h : offset + 4 ≤ size) :
    field unmarshalUint32 buffer size offset next = next (get32 buffer offset) (offset + 4) := by
  refine field_of_ok next ?_
  rw [sub32_of_le (by omega), unmarshalUint32, if_neg (by omega), get32_advance, Nat.add_zero]

theorem field_uint16_ok {next : Nat → Nat → Except Nat β} {result : β} (hoffset : offset ≤ size)
    (h : field unmarshalUint16 buffer size offset next = .ok result) :
    offset + 2 ≤ size ∧ next (get16 buffer offset) (offset + 2) = .ok result := by
  obtain ⟨value, consumed, hread, hnext⟩ := field_ok h
  have hle := isReader_uint16.field_offset_le hoffset hread
  rw [sub32_of_le hoffset, unmarshalUint16] at hread
  split at hread
  · cases hread
  rw [get16_advance, Nat.add_zero] at hread
  cases hread
  exact ⟨hle, hnext⟩

theorem field_uint32_ok {next : Nat → Nat → Except Nat β} {result : β} (hoffset : offset ≤ size)
    (h : field unmarshalUint32 buffer size offset next = .ok result) :
    offset + 4 ≤ size ∧ next (get32 buffer offset) (offset + 4) = .ok result := by
  obtain ⟨value, consumed, hread, hnext⟩ := field_ok h
  have hle := isReader_uint32.field_offset_le hoffset hread
  rw [sub32_of_le hoffset, unmarshalUint32] at hread
  split at hread
  · cases hread
  rw [get32_advance, Nat.add_zero] at hread
  cases hread
  exact ⟨hle, hnext⟩

theorem field_tpm2b {maxSize : Nat} (dataBuffer : Nat → UInt8) (next : Tpm2b → Nat → Except Nat β)
    (hmax : get16 buffer offset ≤ maxSize) (hroom : offset + 2 + get16 buffer offset ≤ size) :
    field (unmarshalTpm2b maxSize dataBuffer) buffer size offset next =
      next ⟨get16 buffer offset,
        store dataBuffer 0 (slice buffer (offset + 2) (get16 buffer offset))⟩
        (offset + (2 + get16 buffer offset)) := by
  refine field_of_ok next ?_
  rw [sub32_of_le (by omega), unmarshalTpm2b, field_uint16 _ (by omega), get16_advance,
    Nat.add_zero, Nat.zero_add, if_neg (Nat.not_lt.mpr hmax), sub32_of_le (by omega),
    if_neg (by omega), slice_advance]

theorem field_tpm2b_ok {maxSize : Nat} {dataBuffer : Nat → UInt8}
    {next : Tpm2b → Nat → Except Nat β} {result : β} (hoffset : offset ≤ size)
    (h : field (unmarshalTpm2b maxSize dataBuffer) buffer size offset next = .ok result) :
    get16 buffer offset ≤ maxSize ∧ offset + 2 + get16 buffer offset ≤ size ∧
      next ⟨get16 buffer offset,
        store dataBuffer 0 (slice buffer (offset + 2) (get16 buffer offset))⟩
        (offset + (2 + get16 buffer offset)) = .ok result := by
  obtain ⟨value, consumed, hread, hnext⟩ := field_ok h
  rw [sub32_of_le hoffset] at hread
  obtain ⟨hlong, hread⟩ := field_uint16_ok (Nat.zero_le _) hread
  rw [get16_advance, slice_advance, sub32_of_le hlong] at hread
  split at hread
  · cases hread
  rename_i hmax
  split at hread
  · cases hread
  rename_i hroom
  cases hread
  simp only [Nat.add_zero, Nat.zero_add] at hnext hlong hmax hroom
  exact ⟨Nat.le_of_not_lt hmax, by omega, hnext⟩

end Positions

section InSensitive

variable {β : Type} {size offset inSensitiveSize : Nat} {params : CreatePrimaryParams}
  {next : Tpm2b → Tpm2b → Nat → Except Nat β}

/-- Whichever way the sensitive area goes, the rest starts inside the buffer. -/
theorem unmarshalInSensitive_ok {buffer : Nat → UInt8} {result : β} (hoffset : offset ≤ size)
    (h : unmarshalInSensitive buffer size offset inSensitiveSize params next = .ok result) :
    ∃ userAuth data offset', offset' ≤ size ∧ next userAuth data offset' = .ok result := by
  unfold unmarshalInSensitive at h
  split at h
  · obtain ⟨userAuth, read, hread, h⟩ := field_ok h
    have hoffset := (isReader_tpm2b _ _).field_offset_le hoffset hread
    obtain ⟨data, read, hread, h⟩ := field_ok h
    exact ⟨userAuth, data, _, (isReader_tpm2b _ _).field_offset_le hoffset hread, h⟩
  · exact ⟨_, _, offset, hoffset, h⟩

theorem unmarshalInSensitive_congr {buffer buffer' : Nat → UInt8}
    {next' : Tpm2b → Tpm2b → Nat → Except Nat β} (hoffset : offset ≤ size)
    (hbuffer : ∀ i < size, buffer i = buffer' i)
    (hnext : ∀ userAuth data offset', offset' ≤ size →
      next userAuth data offset' = next' userAuth data offset') :
    unmarshalInSensitive buffer size offset inSensitiveSize params next =
      unmarshalInSensitive buffer' size offset inSensitiveSize params next' := by
  unfold unmarshalInSensitive
  split
  · refine (isReader_tpm2b _ _).field_congr hoffset hbuffer fun _ _ hoffset => ?_
    refine (isReader_tpm2b _ _).field_congr hoffset hbuffer fun _ _ hoffset => ?_
    exact hnext _ _ _ hoffset
  · exact hnext _ _ _ hoffset

theorem unmarshalInSensitive_error {buffer : Nat → UInt8} {rc : Nat}
    (hnext : ∀ userAuth data offset', next userAuth data offset' = .error rc → IsErrorCode rc)
    (h : unmarshalInSensitive buffer size offset inSensitiveSize params next = .error rc) :
    IsErrorCode rc := by
  unfold unmarshalInSensitive at h
  split at h
  · refine (isReader_tpm2b _ _).field_error (fun _ _ h => ?_) h
    refine (isReader_tpm2b _ _).field_error (fun _ _ h => ?_) h
    exact hnext _ _ _ h
  · exact hnext _ _ _ h

end InSensitive

/-- The template, the last `inPublicSize` bytes consumed, lies inside the buffer. -/
theorem unmarshalCreatePrimary_ok {params value : CreatePrimaryParams} {buffer : Nat → UInt8}
    {size consumed : Nat}
    (h : unmarshalCreatePrimary params buffer size = .ok (value, consumed)) :
    value.inPublicSize ≤ consumed ∧ consumed ≤ size := by
  obtain ⟨primaryHandle, read, hread, h⟩ := field_ok h
  have hoffset := isReader_uint32.field_offset_le (Nat.zero_le size) hread
  obtain ⟨inSensitiveSize, read, hread, h⟩ := field_ok h
  have hoffset := isReader_uint16.field_offset_le hoffset hread
  obtain ⟨userAuth, data, offset, hoffset, h⟩ := unmarshalInSensitive_ok hoffset h
  obtain ⟨inPublicSize, read, hread, h⟩ := field_ok h
  have hoffset := isReader_uint16.field_offset_le hoffset hread
  split at h
  · cases h
  rename_i hroom
  rw [sub32_of_le hoffset] at hroom
  cases h
  simp only
  omega

theorem isReader_createPrimary (params : CreatePrimaryParams) :
    IsReader (unmarshalCreatePrimary params) where
  consumed_le h := (unmarshalCreatePrimary_ok h).2
  congr := by
    intro buffer buffer' size h
    refine isReader_uint32.field_congr (Nat.zero_le size) h fun _ _ hoffset => ?_
    refine isReader_uint16.field_congr hoffset h fun _ _ hoffset => ?_
    refine unmarshalInSensitive_congr hoffset h fun _ _ _ hoffset => ?_
    exact isReader_uint16.field_congr hoffset h fun _ _ _ => rfl
  error_code := by
    intro buffer size rc h
    refine isReader_uint32.field_error (fun _ _ h => ?_) h
    refine isReader_uint16.field_error (fun _ _ h => ?_) h
    refine unmarshalInSensitive_error (fun _ _ _ h => ?_) h
    refine isReader_uint16.field_error (fun _ _ h => ?_) h
    split at h <;> cases h
    decide

theorem isReader_nvDefineSpace (params : NvDefineSpaceParams) :
    IsReader (unmarshalNvDefineSpace params) where
  consumed_le := by
    intro buffer size value consumed h
    obtain ⟨_, _, hread, h⟩ := field_ok h
    have hoffset := isReader_uint32.field_offset_le (Nat.zero_le size) hread
    obtain ⟨_, _, hread, h⟩ := field_ok h
    have hoffset := (isReader_tpm2b _ _).field_offset_le hoffset hread
    obtain ⟨_, _, hread, h⟩ := field_ok h
    have hoffset := isReader_uint16.field_offset_le hoffset hread
    obtain ⟨_, _, hread, h⟩ := field_ok h
    have hoffset := isReader_uint32.field_offset_le hoffset hread
    obtain ⟨_, _, hread, h⟩ := field_ok h
    have hoffset := isReader_uint16.field_offset_le hoffset hread
    obtain ⟨_, _, hread, h⟩ := field_ok h
    have hoffset := isReader_uint32.field_offset_le hoffset hread
    obtain ⟨_, _, hread, h⟩ := field_ok h
    have hoffset := (isReader_tpm2b _ _).field_offset_le hoffset hread
    obtain ⟨_, _, hread, h⟩ := field_ok h
    have hoffset := isReader_uint16.field_offset_le hoffset hread
    cases h
    exact hoffset
  congr := by
    intro buffer buffer' size h
    refine isReader_uint32.field_congr (Nat.zero_le size) h fun _ _ hoffset => ?_
    refine (isReader_tpm2b _ _).field_congr hoffset h fun _ _ hoffset => ?_
    refine isReader_uint16.field_congr hoffset h fun _ _ hoffset => ?_
    refine isReader_uint32.field_congr hoffset h fun _ _ hoffset => ?_
    refine isReader_uint16.field_congr hoffset h fun _ _ hoffset => ?_
    refine isReader_uint32.field_congr hoffset h fun _ _ hoffset => ?_
    refine (isReader_tpm2b _ _).field_congr hoffset h fun _ _ hoffset => ?_
    exact isReader_uint16.field_congr hoffset h fun _ _ _ => rfl
  error_code := by
    intro buffer size rc h
    refine isReader_uint32.field_error (fun _ _ h => ?_) h
    refine (isReader_tpm2b _ _).field_error (fun _ _ h => ?_) h
    refine isReader_uint16.field_error (fun _ _ h => ?_) h
    refine isReader_uint32.field_error (fun _ _ h => ?_) h
    refine isReader_uint16.field_error (fun _ _ h => ?_) h
    refine isReader_uint32.field_error (fun _ _ h => ?_) h
    refine (isReader_tpm2b _ _).field_error (fun _ _ h => ?_) h
    refine isReader_uint16.field_error (fun _ _ h => ?_) h
    cases h

/-! The NV data commands report a byte count only on their regular exit, so the
bound on what was consumed is not among their facts. -/

section NvData

variable {buffer buffer' : Nat → UInt8} {size bytesRead : Nat}

theorem unmarshalNvWrite_congr {params : NvWriteParams}
    (h : ∀ i < size, buffer i = buffer' i) :
    unmarshalNvWrite params bytesRead buffer size =
      unmarshalNvWrite params bytesRead buffer' size := by
  refine isReader_uint32.field_congr (Nat.zero_le size) h fun _ _ hoffset => ?_
  refine isReader_uint32.field_congr hoffset h fun _ _ hoffset => ?_
  refine isReader_uint16.field_congr hoffset h fun _ _ hoffset => ?_
  split
  · rfl
  · refine (isReader_tpm2b _ _).field_congr hoffset h fun _ _ hoffset => ?_
    exact isReader_uint16.field_congr hoffset h fun _ _ _ => rfl

theorem unmarshalNvRead_congr {params : NvReadParams}
    (h : ∀ i < size, buffer i = buffer' i) :
    unmarshalNvRead params bytesRead buffer size =
      unmarshalNvRead params bytesRead buffer' size := by
  refine isReader_uint32.field_congr (Nat.zero_le size) h fun _ _ hoffset => ?_
  refine isReader_uint32.field_congr hoffset h fun _ _ hoffset => ?_
  refine isReader_uint16.field_congr hoffset h fun _ _ hoffset => ?_
  split
  · rfl
  · refine isReader_uint16.field_congr hoffset h fun _ _ hoffset => ?_
    exact isReader_uint16.field_congr hoffset h fun _ _ _ => rfl

theorem unmarshalNvWrite_error {params : NvWriteParams} {rc : Nat}
    (h : unmarshalNvWrite params bytesRead buffer size = .error rc) : IsErrorCode rc := by
  refine isReader_uint32.field_error (fun _ _ h => ?_) h
  refine isReader_uint32.field_error (fun _ _ h => ?_) h
  refine isReader_uint16.field_error (fun _ _ h => ?_) h
  split at h
  · cases h
  · refine (isReader_tpm2b _ _).field_error (fun _ _ h => ?_) h
    refine isReader_uint16.field_error (fun _ _ h => ?_) h
    cases h

theorem unmarshalNvRead_error {params : NvReadParams} {rc : Nat}
    (h : unmarshalNvRead params bytesRead buffer size = .error rc) : IsErrorCode rc := by
  refine isReader_uint32.field_error (fun _ _ h => ?_) h
  refine isReader_uint32.field_error (fun _ _ h => ?_) h
  refine isReader_uint16.field_error (fun _ _ h => ?_) h
  split at h
  · cases h
  · refine isReader_uint16.field_error (fun _ _ h => ?_) h
    refine isReader_uint16.field_error (fun _ _ h => ?_) h
    cases h

end NvData

end TpmEmulator
