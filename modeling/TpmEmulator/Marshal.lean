import TpmEmulator.Header

/-!
The header marshallers of `cc_header.h` and the response marshallers of
`cc_marshal.h`. A marshaller writes at a position of a memory in which `bufferSize`
bytes are available, and reports the number of bytes written or an error; bytes
written before the error stay written. The memory is the response buffer and the
position an offset into it.

`IsWriter` states that a marshaller reports no more bytes than were available
and fails with an error code.
-/
namespace TpmEmulator

open CellMemory BigEndian

/-- The result of a marshaller: its report and the memory it leaves. -/
abbrev Marshalled := Except Nat Nat × (Nat → UInt8)

/-- The header is checked before anything is written. -/
def marshalCommandHeader (memory : Nat → UInt8) (position bufferSize : Nat) (header : Header) :
    Marshalled :=
  if bufferSize < tpmCmdHeaderSize then (.error tpmRcInsufficient, memory)
  else if unmarshalCommandTag header.tag ≠ tpmRcSuccess then (.error tpmRcBadTag, memory)
  else if unmarshalCommandSize header.size ≠ tpmRcSuccess then (.error tpmRcCommandSize, memory)
  else if unmarshalCommandCode header.code ≠ tpmRcSuccess then (.error tpmRcCommandCode, memory)
  else (.ok tpmCmdHeaderSize,
    store memory position (bytes16 header.tag ++ bytes32 header.size ++ bytes32 header.code))

/-- `MarshalResponseHeader`. -/
def marshalResponseHeader (memory : Nat → UInt8) (position bufferSize : Nat) (header : Header) :
    Marshalled :=
  if bufferSize < tpmRspHeaderSize then (.error tpmRcInsufficient, memory)
  else (.ok tpmRspHeaderSize,
    store memory position (bytes16 header.tag ++ bytes32 header.size ++ bytes32 header.code))

def marshalUint16 (value : Nat) (memory : Nat → UInt8) (position bufferSize : Nat) : Marshalled :=
  if bufferSize < 2 then (.error tpmRcInsufficient, memory)
  else (.ok 2, store memory position (bytes16 value))

def marshalUint32 (value : Nat) (memory : Nat → UInt8) (position bufferSize : Nat) : Marshalled :=
  if bufferSize < 4 then (.error tpmRcInsufficient, memory)
  else (.ok 4, store memory position (bytes32 value))

def marshalTpm2b (source : Tpm2b) (memory : Nat → UInt8) (position bufferSize : Nat) :
    Marshalled :=
  match marshalUint16 source.size memory position bufferSize with
  | (.error rc, memory) => (.error rc, memory)
  | (.ok consumed, memory) =>
    if sub32 bufferSize consumed < source.size then (.error tpmRcInsufficient, memory)
    else (.ok (consumed + source.size),
      store memory (position + consumed) (slice source.buffer 0 source.size))

/-- The statements `rc = Marshal_X(buffer + offset, bufferSize - offset, ..)`,
`if (rc != TPM_RC_SUCCESS) return rc` and `offset += consumed`, for each member of
a response structure in turn. -/
def marshalFields (position bufferSize : Nat) :
    List ((Nat → UInt8) → Nat → Nat → Marshalled) → Nat → (Nat → UInt8) → Marshalled
  | [], offset, memory => (.ok offset, memory)
  | marshal :: rest, offset, memory =>
    match marshal memory (position + offset) (sub32 bufferSize offset) with
    | (.error rc, memory) => (.error rc, memory)
    | (.ok consumed, memory) => marshalFields position bufferSize rest (offset + consumed) memory

def marshalGetRandomResponse (randomBytes : Tpm2b) : (Nat → UInt8) → Nat → Nat → Marshalled :=
  marshalTpm2b randomBytes

/-- `CreatePrimary_Response`. -/
structure CreatePrimaryResponse where
  objectHandle : Nat
  outPublic : Tpm2b
  creationData : Tpm2b
  creationHash : Tpm2b
  creationTicketTag : Nat
  creationTicketHierarchy : Nat
  creationTicketDigest : Tpm2b
  name : Tpm2b

def marshalCreatePrimaryResponse (response : CreatePrimaryResponse) (memory : Nat → UInt8)
    (position bufferSize : Nat) : Marshalled :=
  marshalFields position bufferSize
    [marshalUint32 response.objectHandle,
      marshalTpm2b response.outPublic,
      marshalTpm2b response.creationData,
      marshalTpm2b response.creationHash,
      marshalUint16 response.creationTicketTag,
      marshalUint32 response.creationTicketHierarchy,
      marshalTpm2b response.creationTicketDigest,
      marshalTpm2b response.name] 0 memory

/-- The bound on the size is checked after the size has been written. -/
def marshalTpm2bMaxNvBuffer (source : Tpm2b) (memory : Nat → UInt8) (position bufferSize : Nat) :
    Marshalled :=
  match marshalUint16 source.size memory position bufferSize with
  | (.error rc, memory) => (.error rc, memory)
  | (.ok consumed, memory) =>
    if maxNvBufferSize < source.size then (.error tpmRcSize, memory)
    else if sub32 bufferSize consumed < source.size then (.error tpmRcInsufficient, memory)
    else (.ok (consumed + source.size),
      store memory (position + consumed) (slice source.buffer 0 source.size))

def marshalNvReadResponse (data : Tpm2b) (memory : Nat → UInt8) (position bufferSize : Nat) :
    Marshalled :=
  marshalFields position bufferSize [marshalTpm2bMaxNvBuffer data] 0 memory

structure IsWriter (marshal : (Nat → UInt8) → Nat → Nat → Marshalled) : Prop where
  written_le : ∀ {memory position size written},
    (marshal memory position size).1 = .ok written → written ≤ size
  error_code : ∀ {memory position size rc},
    (marshal memory position size).1 = .error rc → IsErrorCode rc

theorem isWriter_uint16 (value : Nat) : IsWriter (marshalUint16 value) where
  written_le := by
    intro memory position size written h
    unfold marshalUint16 at h
    split at h <;> cases h
    omega
  error_code := by
    intro memory position size rc h
    unfold marshalUint16 at h
    split at h <;> cases h
    decide

theorem isWriter_uint32 (value : Nat) : IsWriter (marshalUint32 value) where
  written_le := by
    intro memory position size written h
    unfold marshalUint32 at h
    split at h <;> cases h
    omega
  error_code := by
    intro memory position size rc h
    unfold marshalUint32 at h
    split at h <;> cases h
    decide

theorem isWriter_tpm2b (source : Tpm2b) : IsWriter (marshalTpm2b source) where
  written_le := by
    intro memory position size written h
    simp only [marshalTpm2b, marshalUint16] at h
    split at h
    · rename_i heq; split at heq <;> cases heq; cases h
    rename_i heq
    split at heq <;> cases heq
    rename_i hfits
    split at h
    · cases h
    rename_i hroom
    rw [sub32_of_le (by omega)] at hroom
    cases h
    omega
  error_code := by
    intro memory position size rc h
    simp only [marshalTpm2b] at h
    split at h
    · rename_i heq
      cases h
      exact (isWriter_uint16 source.size).error_code (congrArg Prod.fst heq)
    · split at h <;> cases h
      decide

theorem isWriter_tpm2bMaxNvBuffer (source : Tpm2b) :
    IsWriter (marshalTpm2bMaxNvBuffer source) where
  written_le := by
    intro memory position size written h
    simp only [marshalTpm2bMaxNvBuffer, marshalUint16] at h
    split at h
    · rename_i heq; split at heq <;> cases heq; cases h
    rename_i heq
    split at heq <;> cases heq
    rename_i hfits
    split at h
    · cases h
    split at h
    · cases h
    rename_i hroom
    rw [sub32_of_le (by omega)] at hroom
    cases h
    omega
  error_code := by
    intro memory position size rc h
    simp only [marshalTpm2bMaxNvBuffer] at h
    split at h
    · rename_i heq
      cases h
      exact (isWriter_uint16 source.size).error_code (congrArg Prod.fst heq)
    · split at h
      · cases h; decide
      split at h <;> cases h
      decide

section Fields

variable {position size : Nat} {fields : List ((Nat → UInt8) → Nat → Nat → Marshalled)}

theorem marshalFields_written_le (hfields : ∀ marshal ∈ fields, IsWriter marshal)
    {offset written : Nat} {memory : Nat → UInt8}
    (hoffset : offset ≤ size)
    (h : (marshalFields position size fields offset memory).1 = .ok written) :
    written ≤ size := by
  induction fields generalizing offset memory with
  | nil =>
      cases h
      exact hoffset
  | cons marshal rest ih =>
      simp only [marshalFields] at h
      split at h
      · cases h
      · rename_i consumed memory' heq
        have hbound : consumed ≤ size - offset := by
          rw [sub32_of_le hoffset] at heq
          exact (hfields marshal List.mem_cons_self).written_le
            (congrArg Prod.fst heq)
        exact ih (fun m hm => hfields m (List.mem_cons_of_mem _ hm)) (by omega) h

theorem marshalFields_error (hfields : ∀ marshal ∈ fields, IsWriter marshal)
    {offset rc : Nat} {memory : Nat → UInt8}
    (h : (marshalFields position size fields offset memory).1 = .error rc) :
    IsErrorCode rc := by
  induction fields generalizing offset memory with
  | nil => cases h
  | cons marshal rest ih =>
      simp only [marshalFields] at h
      split at h
      · rename_i heq
        cases h
        exact (hfields marshal List.mem_cons_self).error_code (congrArg Prod.fst heq)
      · exact ih (fun m hm => hfields m (List.mem_cons_of_mem _ hm)) h

end Fields

theorem isWriter_fields {fields : List ((Nat → UInt8) → Nat → Nat → Marshalled)}
    (hfields : ∀ marshal ∈ fields, IsWriter marshal) :
    IsWriter fun memory position size => marshalFields position size fields 0 memory where
  written_le h := marshalFields_written_le hfields (Nat.zero_le _) h
  error_code h := marshalFields_error hfields h

theorem isWriter_createPrimaryResponse (response : CreatePrimaryResponse) :
    IsWriter (marshalCreatePrimaryResponse response) := by
  refine isWriter_fields fun marshal hmem => ?_
  simp only [List.mem_cons, List.not_mem_nil, or_false] at hmem
  rcases hmem with rfl | rfl | rfl | rfl | rfl | rfl | rfl | rfl
  · exact isWriter_uint32 _
  · exact isWriter_tpm2b _
  · exact isWriter_tpm2b _
  · exact isWriter_tpm2b _
  · exact isWriter_uint16 _
  · exact isWriter_uint32 _
  · exact isWriter_tpm2b _
  · exact isWriter_tpm2b _

theorem isWriter_nvReadResponse (data : Tpm2b) : IsWriter (marshalNvReadResponse data) := by
  refine isWriter_fields fun marshal hmem => ?_
  rw [List.mem_singleton.mp hmem]
  exact isWriter_tpm2bMaxNvBuffer data

/-- With room for them, the marshaller writes exactly these bytes. -/
def Encodes (marshal : (Nat → UInt8) → Nat → Nat → Marshalled) (bytes : List UInt8) : Prop :=
  ∀ memory position size, bytes.length ≤ size →
    marshal memory position size = (.ok bytes.length, store memory position bytes)

/-- The bytes of a sized buffer. -/
def tpm2bBytes (source : Tpm2b) : List UInt8 :=
  bytes16 source.size ++ slice source.buffer 0 source.size

@[simp] theorem length_tpm2bBytes (source : Tpm2b) :
    (tpm2bBytes source).length = 2 + source.size := by
  simp [tpm2bBytes]

theorem encodes_uint16 (value : Nat) : Encodes (marshalUint16 value) (bytes16 value) := by
  intro memory position size hroom
  exact if_neg (Nat.not_lt.mpr hroom)

theorem encodes_uint32 (value : Nat) : Encodes (marshalUint32 value) (bytes32 value) := by
  intro memory position size hroom
  exact if_neg (Nat.not_lt.mpr hroom)

theorem encodes_tpm2b (source : Tpm2b) : Encodes (marshalTpm2b source) (tpm2bBytes source) := by
  intro memory position size hroom
  rw [length_tpm2bBytes] at hroom ⊢
  unfold marshalTpm2b marshalUint16
  rw [if_neg (by omega)]
  dsimp only
  rw [sub32_of_le (by omega), if_neg (by omega), tpm2bBytes, store_append, length_bytes16]

theorem encodes_tpm2bMaxNvBuffer {source : Tpm2b} (hmax : source.size ≤ maxNvBufferSize) :
    Encodes (marshalTpm2bMaxNvBuffer source) (tpm2bBytes source) := by
  intro memory position size hroom
  rw [length_tpm2bBytes] at hroom ⊢
  unfold marshalTpm2bMaxNvBuffer marshalUint16
  rw [if_neg (by omega)]
  dsimp only
  rw [if_neg (by omega), sub32_of_le (by omega), if_neg (by omega), tpm2bBytes, store_append,
    length_bytes16]

/-- The members of a response are written one behind the other. -/
theorem marshalFields_encodes {fields : List ((Nat → UInt8) → Nat → Nat → Marshalled)}
    {parts : List (List UInt8)} (h : List.Forall₂ Encodes fields parts)
    (position size offset : Nat) (memory : Nat → UInt8)
    (hroom : offset + parts.flatten.length ≤ size) :
    marshalFields position size fields offset memory =
      (.ok (offset + parts.flatten.length), store memory (position + offset) parts.flatten) := by
  induction h generalizing offset memory with
  | nil => simp [marshalFields]
  | @cons marshal bytes fields parts hhead _ ih =>
      rw [List.flatten_cons, List.length_append] at hroom ⊢
      rw [marshalFields, sub32_of_le (by omega), hhead _ _ _ (by omega)]
      dsimp only
      rw [ih _ _ (by omega), store_append, Nat.add_assoc, Nat.add_assoc]

theorem encodes_fields {fields : List ((Nat → UInt8) → Nat → Nat → Marshalled)}
    {parts : List (List UInt8)} (h : List.Forall₂ Encodes fields parts) :
    Encodes (fun memory position size => marshalFields position size fields 0 memory)
      parts.flatten := by
  intro memory position size hroom
  have heq := marshalFields_encodes h position size 0 memory (by omega)
  rwa [Nat.zero_add, Nat.add_zero] at heq

theorem encodes_nvReadResponse {data : Tpm2b} (hmax : data.size ≤ maxNvBufferSize) :
    Encodes (marshalNvReadResponse data) (tpm2bBytes data) := by
  have h := encodes_fields (.cons (encodes_tpm2bMaxNvBuffer hmax) .nil)
  rwa [List.flatten_cons, List.flatten_nil, List.append_nil] at h

/-- Data that does not fit is reported as an error. -/
theorem marshalNvReadResponse_ok {data : Tpm2b} {memory : Nat → UInt8}
    {position size written : Nat}
    (h : (marshalNvReadResponse data memory position size).1 = .ok written) :
    data.size ≤ maxNvBufferSize ∧ 2 + data.size ≤ size := by
  rw [marshalNvReadResponse, marshalFields, sub32_of_le (Nat.zero_le size), Nat.sub_zero,
    marshalTpm2bMaxNvBuffer, marshalUint16] at h
  by_cases htwo : size < 2
  · rw [if_pos htwo] at h
    cases h
  rw [if_neg htwo] at h
  dsimp only at h
  by_cases hmax : maxNvBufferSize < data.size
  · rw [if_pos hmax] at h
    cases h
  rw [if_neg hmax, sub32_of_le (by omega)] at h
  by_cases hroom : size - 2 < data.size
  · rw [if_pos hroom] at h
    cases h
  · exact ⟨Nat.le_of_not_lt hmax, by omega⟩

/-- The size of such data is written before the marshaller sees that it does not fit. -/
theorem marshalNvReadResponse_long (data : Tpm2b) (memory : Nat → UInt8) (position : Nat)
    {size : Nat} (hsize : 2 ≤ size) (hlong : size - 2 < data.size) :
    ∃ rc, marshalNvReadResponse data memory position size =
      (.error rc, store memory position (bytes16 data.size)) := by
  rw [marshalNvReadResponse, marshalFields, sub32_of_le (Nat.zero_le size), Nat.sub_zero,
    marshalTpm2bMaxNvBuffer, marshalUint16, if_neg (Nat.not_lt.mpr hsize), Nat.add_zero]
  dsimp only
  rw [sub32_of_le hsize, if_pos hlong]
  by_cases hmax : maxNvBufferSize < data.size
  · rw [if_pos hmax]
    exact ⟨_, rfl⟩
  · rw [if_neg hmax]
    exact ⟨_, rfl⟩

/-- The members of the response in order. -/
def createPrimaryParts (response : CreatePrimaryResponse) : List (List UInt8) :=
  [bytes32 response.objectHandle, tpm2bBytes response.outPublic, tpm2bBytes response.creationData,
    tpm2bBytes response.creationHash, bytes16 response.creationTicketTag,
    bytes32 response.creationTicketHierarchy, tpm2bBytes response.creationTicketDigest,
    tpm2bBytes response.name]

theorem encodes_createPrimaryResponse (response : CreatePrimaryResponse) :
    Encodes (marshalCreatePrimaryResponse response) (createPrimaryParts response).flatten :=
  encodes_fields (.cons (encodes_uint32 _) (.cons (encodes_tpm2b _) (.cons (encodes_tpm2b _)
    (.cons (encodes_tpm2b _) (.cons (encodes_uint16 _) (.cons (encodes_uint32 _)
      (.cons (encodes_tpm2b _) (.cons (encodes_tpm2b _) .nil))))))))

end TpmEmulator
