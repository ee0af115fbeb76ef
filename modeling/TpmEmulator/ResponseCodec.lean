import TpmEmulator.ParameterGrammar

/-!
The CreatePrimary response from both ends. `Marshals` adds to what a marshaller writes
when there is room what it does when there is none: it reports so and writes nothing
behind the room it has. The relation goes through the list of members. On the other
side the unmarshallers of the fields, called in the order of the members, take the
bytes apart again.
-/
namespace TpmEmulator

open CellMemory BigEndian Framing

/-- With room for the bytes they are written. Without it that is reported, and nothing
is written outside of the room. -/
structure Marshals (marshal : (Nat → UInt8) → Nat → Nat → Marshalled) (bytes : List UInt8) :
    Prop where
  encodes : Encodes marshal bytes
  refuses : ∀ memory position size, size < bytes.length →
    (marshal memory position size).1 = .error tpmRcInsufficient ∧
      ∀ i, i < position ∨ position + size ≤ i → (marshal memory position size).2 i = memory i

theorem marshals_uint16 (value : Nat) : Marshals (marshalUint16 value) (bytes16 value) where
  encodes := encodes_uint16 value
  refuses := by
    intro memory position size hsize
    rw [marshalUint16, if_pos (show size < 2 from hsize)]
    exact ⟨rfl, fun _ _ => rfl⟩

theorem marshals_uint32 (value : Nat) : Marshals (marshalUint32 value) (bytes32 value) where
  encodes := encodes_uint32 value
  refuses := by
    intro memory position size hsize
    rw [marshalUint32, if_pos (show size < 4 from hsize)]
    exact ⟨rfl, fun _ _ => rfl⟩

theorem marshals_tpm2b (source : Tpm2b) : Marshals (marshalTpm2b source) (tpm2bBytes source) where
  encodes := encodes_tpm2b source
  refuses := by
    intro memory position size hsize
    rw [length_tpm2bBytes] at hsize
    unfold marshalTpm2b marshalUint16
    by_cases htwo : size < 2
    · rw [if_pos htwo]
      exact ⟨rfl, fun _ _ => rfl⟩
    · -- the size is already written when the data turns out not to fit
      rw [if_neg htwo]
      dsimp only
      rw [sub32_of_le (by omega), if_pos (by omega)]
      refine ⟨rfl, fun i hi => store_outside _ _ _ i ?_⟩
      rw [length_bytes16]
      omega

/-- The first member that does not fit ends the marshalling. -/
theorem marshalFields_refuses {fields : List ((Nat → UInt8) → Nat → Nat → Marshalled)}
    {parts : List (List UInt8)} (h : List.Forall₂ Marshals fields parts)
    {position size offset : Nat} (memory : Nat → UInt8) (hoffset : offset ≤ size)
    (hsize : size < offset + parts.flatten.length) :
    (marshalFields position size fields offset memory).1 = .error tpmRcInsufficient ∧
      ∀ i, i < position ∨ position + size ≤ i →
        (marshalFields position size fields offset memory).2 i = memory i := by
  induction h generalizing offset memory with
  | nil =>
      rw [List.flatten_nil, List.length_nil] at hsize
      omega
  | @cons marshal bytes fields parts hhead _ ih =>
      rw [List.flatten_cons, List.length_append] at hsize
      rw [marshalFields, sub32_of_le hoffset]
      by_cases hroom : bytes.length ≤ size - offset
      · rw [hhead.encodes _ _ _ hroom]
        obtain ⟨hreport, hframe⟩ := ih (store memory (position + offset) bytes)
          (show offset + bytes.length ≤ size by omega) (by omega)
        refine ⟨hreport, fun i hi => (hframe i hi).trans ?_⟩
        exact store_outside _ _ _ i (by omega)
      · obtain ⟨hreport, hframe⟩ :=
          hhead.refuses memory (position + offset) (size - offset) (by omega)
        generalize marshal memory (position + offset) (size - offset) = result at hreport hframe
        obtain ⟨report, memory'⟩ := result
        cases hreport
        exact ⟨rfl, fun i hi => hframe i (by omega)⟩

/-- The number of bytes of a response. -/
def createPrimaryLength (r : CreatePrimaryResponse) : Nat :=
  20 + r.outPublic.size + r.creationData.size + r.creationHash.size +
    r.creationTicketDigest.size + r.name.size

theorem length_createPrimaryParts (r : CreatePrimaryResponse) :
    (createPrimaryParts r).flatten.length = createPrimaryLength r := by
  simp only [createPrimaryParts, createPrimaryLength, List.flatten_cons, List.flatten_nil,
    List.length_append, List.length_nil, length_bytes32, length_bytes16, length_tpm2bBytes]
  omega

theorem marshals_createPrimaryResponse (r : CreatePrimaryResponse) :
    Marshals (marshalCreatePrimaryResponse r) (createPrimaryParts r).flatten where
  encodes := encodes_createPrimaryResponse r
  refuses := by
    intro memory position size hsize
    have hmembers : List.Forall₂ Marshals _ (createPrimaryParts r) :=
      .cons (marshals_uint32 _) (.cons (marshals_tpm2b _) (.cons (marshals_tpm2b _)
        (.cons (marshals_tpm2b _) (.cons (marshals_uint16 _) (.cons (marshals_uint32 _)
          (.cons (marshals_tpm2b _) (.cons (marshals_tpm2b _) .nil)))))))
    exact marshalFields_refuses hmembers memory (Nat.zero_le size) (by omega)

/-- The members are in the range of their types, and the sizes in that of the arrays of
`CreatePrimary_Response`. -/
structure CreatePrimaryResponse.InRange (r : CreatePrimaryResponse) : Prop where
  objectHandle : r.objectHandle < 2 ^ 32
  outPublic : r.outPublic.size ≤ 512
  creationData : r.creationData.size ≤ 256
  creationHash : r.creationHash.size ≤ 64
  creationTicketTag : r.creationTicketTag < 2 ^ 16
  creationTicketHierarchy : r.creationTicketHierarchy < 2 ^ 32
  creationTicketDigest : r.creationTicketDigest.size ≤ 64
  name : r.name.size ≤ 64

/-- The readers of `cc_unmarshal.h` in the order of the members, into the arrays of
`target`. -/
def decodeCreatePrimaryResponse (target : CreatePrimaryResponse) (buffer : Nat → UInt8)
    (bufferSize : Nat) : Except Nat (CreatePrimaryResponse × Nat) :=
  field unmarshalUint32 buffer bufferSize 0 fun objectHandle offset =>
  field (unmarshalTpm2b 512 target.outPublic.buffer) buffer bufferSize offset
    fun outPublic offset =>
  field (unmarshalTpm2b 256 target.creationData.buffer) buffer bufferSize offset
    fun creationData offset =>
  field (unmarshalTpm2b 64 target.creationHash.buffer) buffer bufferSize offset
    fun creationHash offset =>
  field unmarshalUint16 buffer bufferSize offset fun creationTicketTag offset =>
  field unmarshalUint32 buffer bufferSize offset fun creationTicketHierarchy offset =>
  field (unmarshalTpm2b 64 target.creationTicketDigest.buffer) buffer bufferSize offset
    fun creationTicketDigest offset =>
  field (unmarshalTpm2b 64 target.name.buffer) buffer bufferSize offset fun name offset =>
  .ok (⟨objectHandle, outPublic, creationData, creationHash, creationTicketTag,
    creationTicketHierarchy, creationTicketDigest, name⟩, offset)

/-- Equal in every member. -/
structure CreatePrimaryResponse.Same (r r' : CreatePrimaryResponse) : Prop where
  objectHandle : r.objectHandle = r'.objectHandle
  outPublic : r.outPublic.Same r'.outPublic
  creationData : r.creationData.Same r'.creationData
  creationHash : r.creationHash.Same r'.creationHash
  creationTicketTag : r.creationTicketTag = r'.creationTicketTag
  creationTicketHierarchy : r.creationTicketHierarchy = r'.creationTicketHierarchy
  creationTicketDigest : r.creationTicketDigest.Same r'.creationTicketDigest
  name : r.name.Same r'.name

theorem decodeCreatePrimaryResponse_starts (target : CreatePrimaryResponse)
    {r : CreatePrimaryResponse} (hr : r.InRange) {buffer : Nat → UInt8} {size : Nat}
    (h : Starts buffer size 0 (createPrimaryParts r).flatten) :
    ∃ r', decodeCreatePrimaryResponse target buffer size = .ok (r', createPrimaryLength r) ∧
      r'.Same r := by
  simp only [createPrimaryParts, List.flatten_cons, List.flatten_nil, List.append_nil,
    starts_append] at h
  obtain ⟨hobjectHandle, houtPublic, hcreationData, hcreationHash, htag, hhierarchy, hdigest,
    hname⟩ := h
  rw [decodeCreatePrimaryResponse,
    decodes_uint32.field_starts ⟨hr.objectHandle, rfl⟩ hobjectHandle,
    (decodes_tpm2b (by decide) _).field_starts (frameTpm2b_of _ hr.outPublic) houtPublic,
    (decodes_tpm2b (by decide) _).field_starts (frameTpm2b_of _ hr.creationData) hcreationData,
    (decodes_tpm2b (by decide) _).field_starts (frameTpm2b_of _ hr.creationHash) hcreationHash,
    decodes_uint16.field_starts ⟨hr.creationTicketTag, rfl⟩ htag,
    decodes_uint32.field_starts ⟨hr.creationTicketHierarchy, rfl⟩ hhierarchy,
    (decodes_tpm2b (by decide) _).field_starts (frameTpm2b_of _ hr.creationTicketDigest) hdigest,
    (decodes_tpm2b (by decide) _).field_starts (frameTpm2b_of _ hr.name) hname]
  simp only [length_bytes32, length_bytes16, length_tpm2bBytes]
  refine ⟨_, congrArg (fun n => Except.ok (_, n)) ?_, ?_⟩
  · unfold createPrimaryLength
    omega
  · exact ⟨rfl, same_stored _ _, same_stored _ _, same_stored _ _, rfl, rfl, same_stored _ _,
      same_stored _ _⟩

/-- Marshalling a response succeeds exactly when it fits. Then it writes these bytes and
no others, and they decode to the response; otherwise it reports that there is too
little room and writes nothing outside of it. -/
theorem createPrimaryResponse_codec (r target : CreatePrimaryResponse) (memory : Nat → UInt8)
    (position bufferSize : Nat) (hr : r.InRange) :
    let total := 20 + r.outPublic.size + r.creationData.size + r.creationHash.size +
      r.creationTicketDigest.size + r.name.size
    let result := marshalCreatePrimaryResponse r memory position bufferSize
    ((∃ bytesWritten, result.1 = .ok bytesWritten) ↔ total ≤ bufferSize) ∧
    (∀ bytesWritten, result.1 = .ok bytesWritten → bytesWritten = total ∧
      (∀ i, i < position ∨ position + total ≤ i → result.2 i = memory i) ∧
      ∃ r', decodeCreatePrimaryResponse target (advance result.2 position) total =
          .ok (r', total) ∧ r'.Same r) ∧
    (∀ rc, result.1 = .error rc → rc = tpmRcInsufficient ∧
      ∀ i, i < position ∨ position + bufferSize ≤ i → result.2 i = memory i) := by
  intro total result
  have hmarshals := marshals_createPrimaryResponse r
  have hlength : (createPrimaryParts r).flatten.length = total := length_createPrimaryParts r
  by_cases hfits : total ≤ bufferSize
  · have hresult : result = (.ok total, store memory position (createPrimaryParts r).flatten) := by
      rw [← hlength]
      exact hmarshals.encodes memory position bufferSize (hlength ▸ hfits)
    have hstarts : Starts (advance result.2 position) total 0 (createPrimaryParts r).flatten := by
      rw [hresult]
      refine ⟨by omega, ?_⟩
      rw [slice_advance]
      exact slice_store_same memory position _
    rw [hresult] at hstarts ⊢
    refine ⟨iff_of_true ⟨total, rfl⟩ hfits, fun bytesWritten hok => ?_, fun rc herror => ?_⟩
    · cases hok
      exact ⟨rfl, fun i hi => store_outside _ _ _ i (by omega),
        decodeCreatePrimaryResponse_starts target hr hstarts⟩
    · cases herror
  · obtain ⟨hreport, hframe⟩ := hmarshals.refuses memory position bufferSize (by omega)
    refine ⟨iff_of_false (fun ⟨bytesWritten, hok⟩ => ?_) hfits, fun bytesWritten hok => ?_,
      fun rc herror => ?_⟩
    · cases hreport.symm.trans hok
    · cases hreport.symm.trans hok
    · cases hreport.symm.trans herror
      exact ⟨rfl, hframe⟩

/-- A response of 22 bytes. -/
def smallResponse : CreatePrimaryResponse :=
  ⟨transientFirst, ⟨2, zeroBytes⟩, .zero, .zero, tpmStCreation, tpmRhOwner, .zero, .zero⟩

theorem createPrimaryResponse_codec_small :
    smallResponse.InRange ∧
      (marshalCreatePrimaryResponse smallResponse zeroBytes 10 22).1 = .ok 22 ∧
      (marshalCreatePrimaryResponse smallResponse zeroBytes 10 21).1 = .error tpmRcInsufficient ∧
      ∃ r', decodeCreatePrimaryResponse smallResponse
          (advance (marshalCreatePrimaryResponse smallResponse zeroBytes 10 22).2 10) 22 =
          .ok (r', 22) ∧ r'.Same smallResponse := by
  have hr : smallResponse.InRange := by
    constructor <;> decide
  have hok : (marshalCreatePrimaryResponse smallResponse zeroBytes 10 22).1 = .ok 22 := by
    decide +kernel
  obtain ⟨-, hwritten, -⟩ :=
    createPrimaryResponse_codec smallResponse smallResponse zeroBytes 10 22 hr
  exact ⟨hr, hok, by decide +kernel, (hwritten 22 hok).2.2⟩

end TpmEmulator
