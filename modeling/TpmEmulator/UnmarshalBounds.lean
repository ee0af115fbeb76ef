import TpmEmulator.Unmarshal

/-!
What the unmarshallers touch. Each unmarshaller has a copy here that works through five
operations: load a byte, subtract two unsigned numbers, copy to an array, report a byte
count, fail. An operation does what it is for and lists the event: the position of the
outermost buffer that is read, the operands, the count with the capacity of the
destination, the report with the size of the buffer. Forgetting the events gives back the
unmarshaller, and all events are safe.

A call on `buffer + offset` passes on where that address lies in the outermost
buffer. One rule, `within_field`, carries the bound on the running offset through
every composite.
-/
namespace TpmEmulator

open CellMemory BigEndian

inductive UnmarshalEvent
  | read (position : Nat)
  | subtract (minuend subtrahend : Nat)
  | copy (count capacity : Nat)
  | report (bytesRead bufferSize : Nat)
  deriving DecidableEq, Repr

/-- The event stays within a buffer of `size` bytes at position `base`. -/
def UnmarshalEvent.Within (base size : Nat) : UnmarshalEvent → Prop
  | .read position => base ≤ position ∧ position < base + size
  | .subtract minuend subtrahend => subtrahend ≤ minuend
  | .copy count capacity => count ≤ capacity
  | .report bytesRead bufferSize => bytesRead ≤ bufferSize

/-- A result and the events on the way to it. -/
abbrev Traced (α : Type) := Except Nat α × List UnmarshalEvent

def Traced.bind {α β : Type} (t : Traced α) (next : α → Traced β) : Traced β :=
  match t.1 with
  | .error rc => (.error rc, t.2)
  | .ok value => ((next value).1, t.2 ++ (next value).2)

def fail {α : Type} (rc : Nat) : Traced α := (.error rc, [])

/-- The byte at index `i` of a buffer that starts at position `base`. -/
def loadByte (base : Nat) (buffer : Nat → UInt8) (i : Nat) : Traced UInt8 :=
  (.ok (buffer i), [.read (base + i)])

def loadBytes (base : Nat) (buffer : Nat → UInt8) (start : Nat) : Nat → Traced (List UInt8)
  | 0 => (.ok [], [])
  | count + 1 =>
    Traced.bind (loadByte base buffer start) fun first =>
    Traced.bind (loadBytes base buffer (start + 1) count) fun rest => (.ok (first :: rest), [])

def subtract (minuend subtrahend : Nat) : Traced Nat :=
  (.ok (sub32 minuend subtrahend), [.subtract minuend subtrahend])

/-- The array `target` has room for `capacity` bytes. -/
def copyTo (capacity : Nat) (target : Nat → UInt8) (bytes : List UInt8) : Traced (Nat → UInt8) :=
  (.ok (store target 0 bytes), [.copy bytes.length capacity])

def report {α : Type} (value : α) (bytesRead bufferSize : Nat) : Traced (α × Nat) :=
  (.ok (value, bytesRead), [.report bytesRead bufferSize])

def tracedField {α β : Type} (unmarshal : Nat → (Nat → UInt8) → Nat → Traced (α × Nat))
    (base : Nat) (buffer : Nat → UInt8) (bufferSize offset : Nat) (next : α → Nat → Traced β) :
    Traced β :=
  Traced.bind (subtract bufferSize offset) fun rest =>
  Traced.bind (unmarshal (base + offset) (advance buffer offset) rest) fun result =>
  next result.1 (offset + result.2)

def tracedUint16 (base : Nat) (buffer : Nat → UInt8) (bufferSize : Nat) : Traced (Nat × Nat) :=
  if bufferSize < 2 then fail tpmRcInsufficient
  else
    Traced.bind (loadBytes base buffer 0 2) fun bytes =>
    report (get16 (bytes.getD · 0) 0) 2 bufferSize

def tracedUint32 (base : Nat) (buffer : Nat → UInt8) (bufferSize : Nat) : Traced (Nat × Nat) :=
  if bufferSize < 4 then fail tpmRcInsufficient
  else
    Traced.bind (loadBytes base buffer 0 4) fun bytes =>
    report (get32 (bytes.getD · 0) 0) 4 bufferSize

/-- The destination of the copy has room for `capacity` bytes. -/
def tracedTpm2b (capacity maxSize : Nat) (dataBuffer : Nat → UInt8) (base : Nat)
    (buffer : Nat → UInt8) (bufferSize : Nat) : Traced (Tpm2b × Nat) :=
  tracedField tracedUint16 base buffer bufferSize 0 fun dataSize offset =>
    if maxSize < dataSize then fail tpmRcSize
    else
      Traced.bind (subtract bufferSize offset) fun rest =>
      if rest < dataSize then fail tpmRcInsufficient
      else
        Traced.bind (loadBytes base buffer offset dataSize) fun bytes =>
        Traced.bind (copyTo capacity dataBuffer bytes) fun data =>
        report ⟨dataSize, data⟩ (offset + dataSize) bufferSize

/-- The array of `TPM2B_MAX_NV_BUFFER` has `MAX_NV_BUFFER_SIZE` bytes. -/
def tracedTpm2bMaxNvBuffer (target : Tpm2b) :
    Nat → (Nat → UInt8) → Nat → Traced (Tpm2b × Nat) :=
  tracedTpm2b 1024 maxNvBufferSize target.buffer

def tracedGetRandom (base : Nat) (buffer : Nat → UInt8) (bufferSize : Nat) :
    Traced (Nat × Nat) :=
  tracedUint16 base buffer bufferSize

/-- The arrays `userAuth` and `data` of `CreatePrimary_Params` have 64 and 256 bytes. -/
def tracedInSensitive {β : Type} (base : Nat) (buffer : Nat → UInt8) (bufferSize offset : Nat)
    (inSensitiveSize : Nat) (params : CreatePrimaryParams)
    (next : Tpm2b → Tpm2b → Nat → Traced β) : Traced β :=
  if 0 < inSensitiveSize then
    tracedField (tracedTpm2b 64 64 params.userAuth) base buffer bufferSize offset
      fun userAuth offset =>
    tracedField (tracedTpm2b 256 256 params.data) base buffer bufferSize offset
      fun data offset =>
    next userAuth data offset
  else next ⟨params.userAuthSize, params.userAuth⟩ ⟨params.dataSize, params.data⟩ offset

def tracedCreatePrimary (params : CreatePrimaryParams) (base : Nat) (buffer : Nat → UInt8)
    (bufferSize : Nat) : Traced (CreatePrimaryParams × Nat) :=
  tracedField tracedUint32 base buffer bufferSize 0 fun primaryHandle offset =>
  tracedField tracedUint16 base buffer bufferSize offset fun inSensitiveSize offset =>
  tracedInSensitive base buffer bufferSize offset inSensitiveSize params
    fun userAuth data offset =>
  tracedField tracedUint16 base buffer bufferSize offset fun inPublicSize offset =>
  Traced.bind (subtract bufferSize offset) fun rest =>
  if rest < inPublicSize then fail tpmRcInsufficient
  else
    report ⟨primaryHandle, inSensitiveSize, userAuth.size, userAuth.buffer, data.size,
      data.buffer, inPublicSize⟩ (offset + inPublicSize) bufferSize

/-- The arrays `auth` and `authPolicy` of `NV_DefineSpace_Params` have 64 bytes. -/
def tracedNvDefineSpace (params : NvDefineSpaceParams) (base : Nat) (buffer : Nat → UInt8)
    (bufferSize : Nat) : Traced (NvDefineSpaceParams × Nat) :=
  tracedField tracedUint32 base buffer bufferSize 0 fun authHandle offset =>
  tracedField (tracedTpm2b 64 64 params.auth) base buffer bufferSize offset fun auth offset =>
  tracedField tracedUint16 base buffer bufferSize offset fun publicSize offset =>
  tracedField tracedUint32 base buffer bufferSize offset fun nvIndex offset =>
  tracedField tracedUint16 base buffer bufferSize offset fun nameAlg offset =>
  tracedField tracedUint32 base buffer bufferSize offset fun attributes offset =>
  tracedField (tracedTpm2b 64 64 params.authPolicy) base buffer bufferSize offset
    fun authPolicy offset =>
  tracedField tracedUint16 base buffer bufferSize offset fun dataSize offset =>
  report ⟨authHandle, auth.size, auth.buffer, publicSize, nvIndex, nameAlg, attributes,
    authPolicy.size, authPolicy.buffer, dataSize⟩ offset bufferSize

def tracedNvWrite (params : NvWriteParams) (bytesRead base : Nat) (buffer : Nat → UInt8)
    (bufferSize : Nat) : Traced (NvWriteParams × Nat) :=
  tracedField tracedUint32 base buffer bufferSize 0 fun authHandle offset =>
  tracedField tracedUint32 base buffer bufferSize offset fun nvIndex offset =>
  tracedField tracedUint16 base buffer bufferSize offset fun authSize offset =>
  if authSize ≠ 0 then (returnRc tpmRcValue ({ params with authHandle, nvIndex }, bytesRead), [])
  else
    tracedField (tracedTpm2bMaxNvBuffer params.data) base buffer bufferSize offset
      fun data offset =>
    tracedField tracedUint16 base buffer bufferSize offset fun writeOffset offset =>
    report ⟨authHandle, nvIndex, data, writeOffset⟩ offset bufferSize

def tracedNvRead (params : NvReadParams) (bytesRead base : Nat) (buffer : Nat → UInt8)
    (bufferSize : Nat) : Traced (NvReadParams × Nat) :=
  tracedField tracedUint32 base buffer bufferSize 0 fun authHandle offset =>
  tracedField tracedUint32 base buffer bufferSize offset fun nvIndex offset =>
  tracedField tracedUint16 base buffer bufferSize offset fun authSize offset =>
  if authSize ≠ 0 then (returnRc tpmRcValue ({ params with authHandle, nvIndex }, bytesRead), [])
  else
    tracedField tracedUint16 base buffer bufferSize offset fun sizeToRead offset =>
    tracedField tracedUint16 base buffer bufferSize offset fun readOffset offset =>
    report ⟨authHandle, nvIndex, sizeToRead, readOffset⟩ offset bufferSize

/-- The copy computes what the unmarshaller computes. -/
def Erases {α : Type} (traced : Nat → (Nat → UInt8) → Nat → Traced α)
    (unmarshal : (Nat → UInt8) → Nat → Except Nat α) : Prop :=
  ∀ base buffer bufferSize, (traced base buffer bufferSize).1 = unmarshal buffer bufferSize

section Field

variable {α β : Type} {traced : Nat → (Nat → UInt8) → Nat → Traced (α × Nat)}
  {unmarshal : (Nat → UInt8) → Nat → Except Nat (α × Nat)} {base : Nat} {buffer : Nat → UInt8}
  {bufferSize offset : Nat}

theorem bind_ok {t : Traced α} {value : α} (h : t.1 = .ok value) (next : α → Traced β) :
    t.bind next = ((next value).1, t.2 ++ (next value).2) := by
  simp only [Traced.bind, h]

theorem bind_error {t : Traced α} {rc : Nat} (h : t.1 = .error rc) (next : α → Traced β) :
    t.bind next = (.error rc, t.2) := by
  simp only [Traced.bind, h]

theorem erases_field (h : Erases traced unmarshal) {next : α → Nat → Traced β}
    {next' : α → Nat → Except Nat β} (hnext : ∀ value offset, (next value offset).1 =
      next' value offset) :
    (tracedField traced base buffer bufferSize offset next).1 =
      field unmarshal buffer bufferSize offset next' := by
  have hcall := h (base + offset) (advance buffer offset) (sub32 bufferSize offset)
  rw [tracedField, bind_ok rfl, field, ← hcall]
  dsimp only
  cases hcase : (traced (base + offset) (advance buffer offset) (sub32 bufferSize offset)).1 with
  | error rc => rw [bind_error hcase]
  | ok result =>
      rw [bind_ok hcase]
      exact hnext _ _

/-- All events stay within the buffer. -/
def AllWithin (base size : Nat) (t : Traced β) : Prop := ∀ event ∈ t.2, event.Within base size

theorem within_of_subbuffer {event : UnmarshalEvent} (hoffset : offset ≤ bufferSize)
    (h : event.Within (base + offset) (bufferSize - offset)) : event.Within base bufferSize := by
  cases event with
  | read position =>
      obtain ⟨hlow, hhigh⟩ := h
      exact ⟨by omega, by omega⟩
  | subtract minuend subtrahend => exact h
  | copy count capacity => exact h
  | report bytesRead size => exact h

theorem AllWithin.bind {t : Traced α} {next : α → Traced β} {size : Nat}
    (ht : AllWithin base size t)
    (hnext : ∀ value, t.1 = .ok value → AllWithin base size (next value)) :
    AllWithin base size (t.bind next) := by
  cases hcase : t.1 with
  | error rc =>
      rw [bind_error hcase]
      exact ht
  | ok value =>
      rw [bind_ok hcase]
      exact List.forall_mem_append.mpr ⟨ht, hnext value hcase⟩

theorem within_fail {size rc : Nat} : AllWithin base size (fail rc : Traced β) :=
  List.forall_mem_nil _

theorem within_subtract {size a b : Nat} (h : b ≤ a) : AllWithin base size (subtract a b) :=
  List.forall_mem_singleton.mpr h

theorem within_report {size n : Nat} (h : n ≤ size) {value : β} :
    AllWithin base size (report value n size) :=
  List.forall_mem_singleton.mpr h

/-- One step of a composite: if it starts inside the buffer, so does the rest. -/
theorem within_field (herases : Erases traced unmarshal) (hreader : IsReader unmarshal)
    (hwithin : ∀ base buffer size, AllWithin base size (traced base buffer size))
    {next : α → Nat → Traced β} (hoffset : offset ≤ bufferSize)
    (hnext : ∀ value offset', offset' ≤ bufferSize →
      AllWithin base bufferSize (next value offset')) :
    AllWithin base bufferSize (tracedField traced base buffer bufferSize offset next) := by
  refine (within_subtract hoffset).bind fun rest hrest => ?_
  obtain rfl : sub32 bufferSize offset = rest := Except.ok.inj hrest
  refine AllWithin.bind ?_ fun result hresult => ?_
  · rw [sub32_of_le hoffset]
    exact fun event hevent => within_of_subbuffer hoffset (hwithin _ _ _ event hevent)
  · rw [herases] at hresult
    exact hnext _ _ (hreader.field_offset_le hoffset hresult)

end Field

theorem loadBytes_fst (base : Nat) (buffer : Nat → UInt8) (start count : Nat) :
    (loadBytes base buffer start count).1 = .ok (slice buffer start count) := by
  induction count generalizing start with
  | zero => rfl
  | succ count ih =>
      rw [loadBytes, bind_ok rfl, bind_ok (ih (start + 1)), Nat.add_comm count 1, slice_add]
      rfl

theorem within_loadBytes {base size : Nat} (buffer : Nat → UInt8) {start count : Nat}
    (h : start + count ≤ size) : AllWithin base size (loadBytes base buffer start count) := by
  induction count generalizing start with
  | zero => exact List.forall_mem_nil _
  | succ count ih =>
      refine AllWithin.bind (List.forall_mem_singleton.mpr ⟨by omega, by omega⟩) fun _ _ => ?_
      exact (ih (by omega)).bind fun _ _ => List.forall_mem_nil _

theorem erases_uint16 : Erases tracedUint16 unmarshalUint16 := by
  intro base buffer bufferSize
  unfold tracedUint16 unmarshalUint16
  split <;> rfl

theorem erases_uint32 : Erases tracedUint32 unmarshalUint32 := by
  intro base buffer bufferSize
  unfold tracedUint32 unmarshalUint32
  split <;> rfl

theorem erases_tpm2b (capacity maxSize : Nat) (dataBuffer : Nat → UInt8) :
    Erases (tracedTpm2b capacity maxSize dataBuffer) (unmarshalTpm2b maxSize dataBuffer) := by
  intro base buffer bufferSize
  refine erases_field erases_uint16 fun dataSize offset => ?_
  split
  · rfl
  rw [bind_ok rfl]
  dsimp only
  split
  · rfl
  · rw [bind_ok (loadBytes_fst base buffer offset dataSize)]
    rfl

theorem within_uint16 (base : Nat) (buffer : Nat → UInt8) (size : Nat) :
    AllWithin base size (tracedUint16 base buffer size) := by
  unfold tracedUint16
  split
  · exact within_fail
  · exact (within_loadBytes buffer (by omega)).bind fun _ _ => within_report (by omega)

theorem within_uint32 (base : Nat) (buffer : Nat → UInt8) (size : Nat) :
    AllWithin base size (tracedUint32 base buffer size) := by
  unfold tracedUint32
  split
  · exact within_fail
  · exact (within_loadBytes buffer (by omega)).bind fun _ _ => within_report (by omega)

theorem within_tpm2b {capacity maxSize : Nat} (hcapacity : maxSize ≤ capacity)
    (dataBuffer : Nat → UInt8) (base : Nat) (buffer : Nat → UInt8) (size : Nat) :
    AllWithin base size (tracedTpm2b capacity maxSize dataBuffer base buffer size) := by
  refine within_field erases_uint16 isReader_uint16 within_uint16 (Nat.zero_le _)
    fun dataSize offset hoffset => ?_
  split
  · exact within_fail
  rename_i hmax
  refine (within_subtract hoffset).bind fun rest hrest => ?_
  obtain rfl : sub32 size offset = rest := Except.ok.inj hrest
  rw [sub32_of_le hoffset]
  split
  · exact within_fail
  rename_i hroom
  refine (within_loadBytes buffer (by omega)).bind fun bytes hbytes => ?_
  obtain rfl := Except.ok.inj ((loadBytes_fst base buffer offset dataSize).symm.trans hbytes)
  refine AllWithin.bind (List.forall_mem_singleton.mpr ?_) fun _ _ => within_report (by omega)
  exact show (slice buffer offset dataSize).length ≤ capacity by rw [length_slice]; omega

def UnmarshalEvent.position? : UnmarshalEvent → Option Nat
  | .read position => some position
  | .subtract _ _ | .copy _ _ | .report _ _ => none

/-- The positions of the outermost buffer that are read, in order. -/
def Traced.reads {α : Type} (t : Traced α) : List Nat := t.2.filterMap UnmarshalEvent.position?

section Reads

variable {α β : Type} {base size offset : Nat} {buffer : Nat → UInt8}

theorem reads_bind_ok {t : Traced α} {value : α} (h : t.1 = .ok value) (next : α → Traced β) :
    (t.bind next).reads = t.reads ++ (next value).reads := by
  rw [bind_ok h, Traced.reads, List.filterMap_append]
  rfl

theorem reads_loadBytes (base : Nat) (buffer : Nat → UInt8) (start count : Nat) :
    (loadBytes base buffer start count).reads = List.range' (base + start) count := by
  induction count generalizing start with
  | zero => rfl
  | succ count ih =>
      rw [loadBytes, reads_bind_ok rfl, reads_bind_ok (loadBytes_fst base buffer _ count), ih,
        List.range'_succ, Nat.add_assoc]
      exact congrArg ((base + start) :: ·) (List.append_nil _)

/-- A field that the buffer is too short for reads nothing. -/
theorem reads_field_short {unmarshal : Nat → (Nat → UInt8) → Nat → Traced (α × Nat)} {rc : Nat}
    (h : unmarshal (base + offset) (advance buffer offset) (sub32 size offset) = fail rc)
    (next : α → Nat → Traced β) :
    (tracedField unmarshal base buffer size offset next).reads = [] := by
  rw [tracedField, reads_bind_ok rfl, h]
  rfl

theorem reads_field_ok {unmarshal : Nat → (Nat → UInt8) → Nat → Traced (α × Nat)} {value : α}
    {consumed : Nat} (next : α → Nat → Traced β)
    (h : (unmarshal (base + offset) (advance buffer offset) (sub32 size offset)).1 =
      .ok (value, consumed)) :
    (tracedField unmarshal base buffer size offset next).reads =
      (unmarshal (base + offset) (advance buffer offset) (sub32 size offset)).reads ++
        (next value (offset + consumed)).reads := by
  rw [tracedField, reads_bind_ok rfl, reads_bind_ok h]
  rfl

theorem reads_field_uint16 (next : Nat → Nat → Traced β) (h : offset + 2 ≤ size) :
    (tracedField tracedUint16 base buffer size offset next).reads =
      List.range' (base + offset) 2 ++ (next (get16 buffer offset) (offset + 2)).reads := by
  have hroom : ¬ sub32 size offset < 2 := by
    rw [sub32_of_le (by omega)]
    omega
  have hvalue : (tracedUint16 (base + offset) (advance buffer offset) (sub32 size offset)).1 =
      .ok (get16 buffer offset, 2) := by
    rw [erases_uint16, unmarshalUint16, if_neg hroom, get16_advance, Nat.add_zero]
  rw [reads_field_ok next hvalue, tracedUint16, if_neg hroom,
    reads_bind_ok (loadBytes_fst _ _ 0 2), reads_loadBytes]
  rfl

theorem reads_field_uint32 (next : Nat → Nat → Traced β) (h : offset + 4 ≤ size) :
    (tracedField tracedUint32 base buffer size offset next).reads =
      List.range' (base + offset) 4 ++ (next (get32 buffer offset) (offset + 4)).reads := by
  have hroom : ¬ sub32 size offset < 4 := by
    rw [sub32_of_le (by omega)]
    omega
  have hvalue : (tracedUint32 (base + offset) (advance buffer offset) (sub32 size offset)).1 =
      .ok (get32 buffer offset, 4) := by
    rw [erases_uint32, unmarshalUint32, if_neg hroom, get32_advance, Nat.add_zero]
  rw [reads_field_ok next hvalue, tracedUint32, if_neg hroom,
    reads_bind_ok (loadBytes_fst _ _ 0 4), reads_loadBytes]
  rfl

theorem reads_tpm2b (capacity : Nat) {maxSize : Nat} (dataBuffer : Nat → UInt8) (base : Nat)
    (hmax : get16 buffer 0 ≤ maxSize) (hroom : 2 + get16 buffer 0 ≤ size) :
    (tracedTpm2b capacity maxSize dataBuffer base buffer size).reads =
      List.range' base 2 ++ List.range' (base + 2) (get16 buffer 0) := by
  rw [tracedTpm2b, reads_field_uint16 _ (by omega), if_neg (Nat.not_lt.mpr hmax),
    reads_bind_ok rfl, sub32_of_le (by omega), if_neg (by omega),
    reads_bind_ok (loadBytes_fst _ _ _ _), reads_loadBytes, reads_bind_ok rfl]
  exact congrArg (List.range' base 2 ++ ·) (List.append_nil _)

theorem reads_field_tpm2b {capacity maxSize : Nat} (dataBuffer : Nat → UInt8)
    (next : Tpm2b → Nat → Traced β) (hmax : get16 buffer offset ≤ maxSize)
    (hroom : offset + 2 + get16 buffer offset ≤ size) :
    (tracedField (tracedTpm2b capacity maxSize dataBuffer) base buffer size offset next).reads =
      List.range' (base + offset) 2 ++ List.range' (base + offset + 2) (get16 buffer offset) ++
        (next ⟨get16 buffer offset,
          store dataBuffer 0 (slice buffer (offset + 2) (get16 buffer offset))⟩
          (offset + (2 + get16 buffer offset))).reads := by
  have hsize : get16 (advance buffer offset) 0 = get16 buffer offset := by
    rw [get16_advance, Nat.add_zero]
  have hvalue : (tracedTpm2b capacity maxSize dataBuffer (base + offset) (advance buffer offset)
      (sub32 size offset)).1 = .ok (⟨get16 buffer offset,
        store dataBuffer 0 (slice buffer (offset + 2) (get16 buffer offset))⟩,
        2 + get16 buffer offset) := by
    rw [erases_tpm2b, sub32_of_le (by omega), unmarshalTpm2b, field_uint16 _ (by omega), hsize,
      Nat.zero_add, if_neg (Nat.not_lt.mpr hmax), sub32_of_le (by omega), if_neg (by omega),
      slice_advance]
  rw [reads_field_ok next hvalue, reads_tpm2b capacity dataBuffer (base + offset)
    (hsize ▸ hmax) (by rw [hsize, sub32_of_le (by omega)]; omega), hsize]

end Reads

section Commands

variable {base size offset : Nat} {buffer : Nat → UInt8} {β : Type}

/-- The rule for each kind of field. -/
theorem within_field_uint16 {next : Nat → Nat → Traced β} (hoffset : offset ≤ size)
    (hnext : ∀ value offset', offset' ≤ size → AllWithin base size (next value offset')) :
    AllWithin base size (tracedField tracedUint16 base buffer size offset next) :=
  within_field erases_uint16 isReader_uint16 within_uint16 hoffset hnext

theorem within_field_uint32 {next : Nat → Nat → Traced β} (hoffset : offset ≤ size)
    (hnext : ∀ value offset', offset' ≤ size → AllWithin base size (next value offset')) :
    AllWithin base size (tracedField tracedUint32 base buffer size offset next) :=
  within_field erases_uint32 isReader_uint32 within_uint32 hoffset hnext

theorem within_field_tpm2b {capacity maxSize : Nat} (hcapacity : maxSize ≤ capacity)
    {dataBuffer : Nat → UInt8} {next : Tpm2b → Nat → Traced β} (hoffset : offset ≤ size)
    (hnext : ∀ value offset', offset' ≤ size → AllWithin base size (next value offset')) :
    AllWithin base size
      (tracedField (tracedTpm2b capacity maxSize dataBuffer) base buffer size offset next) :=
  within_field (erases_tpm2b _ _ _) (isReader_tpm2b _ _) (within_tpm2b hcapacity _) hoffset hnext

theorem within_inSensitive {inSensitiveSize : Nat} {params : CreatePrimaryParams}
    {next : Tpm2b → Tpm2b → Nat → Traced β} (hoffset : offset ≤ size)
    (hnext : ∀ userAuth data offset', offset' ≤ size →
      AllWithin base size (next userAuth data offset')) :
    AllWithin base size
      (tracedInSensitive base buffer size offset inSensitiveSize params next) := by
  unfold tracedInSensitive
  split
  · refine within_field_tpm2b (Nat.le_refl _) hoffset fun _ _ hoffset => ?_
    refine within_field_tpm2b (Nat.le_refl _) hoffset fun _ _ hoffset => ?_
    exact hnext _ _ _ hoffset
  · exact hnext _ _ _ hoffset

theorem erases_inSensitive {inSensitiveSize : Nat} {params : CreatePrimaryParams}
    {next : Tpm2b → Tpm2b → Nat → Traced β} {next' : Tpm2b → Tpm2b → Nat → Except Nat β}
    (hnext : ∀ userAuth data offset, (next userAuth data offset).1 =
      next' userAuth data offset) :
    (tracedInSensitive base buffer size offset inSensitiveSize params next).1 =
      unmarshalInSensitive buffer size offset inSensitiveSize params next' := by
  unfold tracedInSensitive unmarshalInSensitive
  split
  · refine erases_field (erases_tpm2b _ _ _) fun _ _ => ?_
    refine erases_field (erases_tpm2b _ _ _) fun _ _ => ?_
    exact hnext _ _ _
  · exact hnext _ _ _

end Commands

/-- The copy computes the same and all its events are safe. -/
structure SafeUnmarshal {α : Type} (traced : Nat → (Nat → UInt8) → Nat → Traced α)
    (unmarshal : (Nat → UInt8) → Nat → Except Nat α) : Prop where
  erases : Erases traced unmarshal
  within : ∀ base buffer size, AllWithin base size (traced base buffer size)

theorem safeUnmarshal_getRandom : SafeUnmarshal tracedGetRandom unmarshalGetRandom :=
  ⟨erases_uint16, within_uint16⟩

theorem safeUnmarshal_createPrimary (params : CreatePrimaryParams) :
    SafeUnmarshal (tracedCreatePrimary params) (unmarshalCreatePrimary params) where
  erases := by
    intro base buffer size
    refine erases_field erases_uint32 fun _ _ => ?_
    refine erases_field erases_uint16 fun _ _ => ?_
    refine erases_inSensitive fun _ _ _ => ?_
    refine erases_field erases_uint16 fun _ _ => ?_
    rw [bind_ok rfl]
    dsimp only
    split <;> rfl
  within := by
    intro base buffer size
    refine within_field_uint32 (Nat.zero_le _) fun _ _ hoffset => ?_
    refine within_field_uint16 hoffset fun _ _ hoffset => ?_
    refine within_inSensitive hoffset fun _ _ _ hoffset => ?_
    refine within_field_uint16 hoffset fun inPublicSize offset hoffset => ?_
    refine (within_subtract hoffset).bind fun rest hrest => ?_
    obtain rfl : sub32 size offset = rest := Except.ok.inj hrest
    rw [sub32_of_le hoffset]
    split
    · exact within_fail
    · exact within_report (by omega)

theorem safeUnmarshal_nvDefineSpace (params : NvDefineSpaceParams) :
    SafeUnmarshal (tracedNvDefineSpace params) (unmarshalNvDefineSpace params) where
  erases := by
    intro base buffer size
    refine erases_field erases_uint32 fun _ _ => ?_
    refine erases_field (erases_tpm2b _ _ _) fun _ _ => ?_
    refine erases_field erases_uint16 fun _ _ => ?_
    refine erases_field erases_uint32 fun _ _ => ?_
    refine erases_field erases_uint16 fun _ _ => ?_
    refine erases_field erases_uint32 fun _ _ => ?_
    refine erases_field (erases_tpm2b _ _ _) fun _ _ => ?_
    exact erases_field erases_uint16 fun _ _ => rfl
  within := by
    intro base buffer size
    refine within_field_uint32 (Nat.zero_le _) fun _ _ hoffset => ?_
    refine within_field_tpm2b (Nat.le_refl _) hoffset fun _ _ hoffset => ?_
    refine within_field_uint16 hoffset fun _ _ hoffset => ?_
    refine within_field_uint32 hoffset fun _ _ hoffset => ?_
    refine within_field_uint16 hoffset fun _ _ hoffset => ?_
    refine within_field_uint32 hoffset fun _ _ hoffset => ?_
    refine within_field_tpm2b (Nat.le_refl _) hoffset fun _ _ hoffset => ?_
    exact within_field_uint16 hoffset fun _ _ hoffset => within_report hoffset

theorem safeUnmarshal_nvWrite (params : NvWriteParams) (bytesRead : Nat) :
    SafeUnmarshal (tracedNvWrite params bytesRead) (unmarshalNvWrite params bytesRead) where
  erases := by
    intro base buffer size
    refine erases_field erases_uint32 fun _ _ => ?_
    refine erases_field erases_uint32 fun _ _ => ?_
    refine erases_field erases_uint16 fun _ _ => ?_
    split
    · rfl
    · refine erases_field (erases_tpm2b _ _ _) fun _ _ => ?_
      exact erases_field erases_uint16 fun _ _ => rfl
  within := by
    intro base buffer size
    refine within_field_uint32 (Nat.zero_le _) fun _ _ hoffset => ?_
    refine within_field_uint32 hoffset fun _ _ hoffset => ?_
    refine within_field_uint16 hoffset fun _ _ hoffset => ?_
    split
    · exact List.forall_mem_nil _
    · refine within_field_tpm2b (Nat.le_refl _) hoffset fun _ _ hoffset => ?_
      exact within_field_uint16 hoffset fun _ _ hoffset => within_report hoffset

theorem safeUnmarshal_nvRead (params : NvReadParams) (bytesRead : Nat) :
    SafeUnmarshal (tracedNvRead params bytesRead) (unmarshalNvRead params bytesRead) where
  erases := by
    intro base buffer size
    refine erases_field erases_uint32 fun _ _ => ?_
    refine erases_field erases_uint32 fun _ _ => ?_
    refine erases_field erases_uint16 fun _ _ => ?_
    split
    · rfl
    · refine erases_field erases_uint16 fun _ _ => ?_
      exact erases_field erases_uint16 fun _ _ => rfl
  within := by
    intro base buffer size
    refine within_field_uint32 (Nat.zero_le _) fun _ _ hoffset => ?_
    refine within_field_uint32 hoffset fun _ _ hoffset => ?_
    refine within_field_uint16 hoffset fun _ _ hoffset => ?_
    split
    · exact List.forall_mem_nil _
    · refine within_field_uint16 hoffset fun _ _ hoffset => ?_
      exact within_field_uint16 hoffset fun _ _ hoffset => within_report hoffset

/-- On every buffer and every size, each of the five unmarshallers reads only inside
the buffer, never subtracts below zero, never copies more than the destination holds
and never reports more bytes than it was given. -/
theorem unmarshallers_safe (createPrimaryParams : CreatePrimaryParams)
    (nvDefineSpaceParams : NvDefineSpaceParams) (nvWriteParams : NvWriteParams)
    (nvReadParams : NvReadParams) (bytesRead : Nat) :
    SafeUnmarshal tracedGetRandom unmarshalGetRandom ∧
    SafeUnmarshal (tracedCreatePrimary createPrimaryParams)
      (unmarshalCreatePrimary createPrimaryParams) ∧
    SafeUnmarshal (tracedNvDefineSpace nvDefineSpaceParams)
      (unmarshalNvDefineSpace nvDefineSpaceParams) ∧
    SafeUnmarshal (tracedNvWrite nvWriteParams bytesRead)
      (unmarshalNvWrite nvWriteParams bytesRead) ∧
    SafeUnmarshal (tracedNvRead nvReadParams bytesRead)
      (unmarshalNvRead nvReadParams bytesRead) :=
  ⟨safeUnmarshal_getRandom, safeUnmarshal_createPrimary _, safeUnmarshal_nvDefineSpace _,
    safeUnmarshal_nvWrite _ _, safeUnmarshal_nvRead _ _⟩

/-- The copy of a TPM2B of three bytes, and one that the buffer is too short for. -/
example : (tracedTpm2b 64 64 zeroBytes 0 ([0, 3, 7, 8, 9].getD · 0) 5).2 =
    [.subtract 5 0, .read 0, .read 1, .report 2 5, .subtract 5 2, .read 2, .read 3, .read 4,
      .copy 3 64, .report 5 5] := by
  decide +kernel

example : (tracedTpm2b 64 64 zeroBytes 0 ([0, 3, 7, 8].getD · 0) 4).2 =
    [.subtract 4 0, .read 0, .read 1, .report 2 4, .subtract 4 2] := by
  decide +kernel

end TpmEmulator
