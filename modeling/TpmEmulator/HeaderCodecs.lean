import TpmEmulator.ParameterGrammar

/-!
The three versions of the command header: the validator that the device calls, the
unmarshaller and the marshaller of `cc_header.h`. All three check the tag, the size
and the code of the same three fields. They differ in what the size is compared with:
the validator wants the size of the buffer, the unmarshaller no more than it, and the
header functions have an upper limit of their own.
-/
namespace TpmEmulator

open CellMemory BigEndian Framing

/-- The fields at their positions in the buffer. -/
def headerAt (buffer : Nat → UInt8) : Header := ⟨get16 buffer 0, get32 buffer 2, get32 buffer 6⟩

def headerBytes (h : Header) : List UInt8 := bytes16 h.tag ++ bytes32 h.size ++ bytes32 h.code

/-- The fields are in the range of their types. -/
structure Header.InRange (h : Header) : Prop where
  tag : h.tag < 2 ^ 16
  size : h.size < 2 ^ 32
  code : h.code < 2 ^ 32

/-- What the three checks of `cc_header.h` ask of a header. -/
structure Header.Valid (h : Header) : Prop where
  tag : h.tag = tpmStNoSessions ∨ h.tag = tpmStSessions
  size : tpmCmdHeaderSize ≤ h.size ∧ h.size ≤ tpmMaxCommandSize
  code : isValidCcCommand h.code

theorem unmarshalCommandTag_eq_success {tag : Nat} :
    unmarshalCommandTag tag = tpmRcSuccess ↔ tag = tpmStNoSessions ∨ tag = tpmStSessions := by
  unfold unmarshalCommandTag
  split
  · exact iff_of_false (by decide) (by omega)
  · exact iff_of_true rfl (by omega)

theorem unmarshalCommandSize_eq_success {size : Nat} :
    unmarshalCommandSize size = tpmRcSuccess ↔
      tpmCmdHeaderSize ≤ size ∧ size ≤ tpmMaxCommandSize := by
  unfold unmarshalCommandSize
  split
  · exact iff_of_false (by decide) (by omega)
  · exact iff_of_true rfl (by omega)

theorem unmarshalCommandCode_eq_success {code : Nat} :
    unmarshalCommandCode code = tpmRcSuccess ↔ isValidCcCommand code := by
  simp only [isValidCcCommand, Bool.or_eq_true, Bool.and_eq_true, decide_eq_true_eq]
  unfold unmarshalCommandCode
  split
  · rename_i hvalid
    exact iff_of_true rfl hvalid
  · rename_i hvalid
    exact iff_of_false (by decide) hvalid

/-- The statements `rc = check(..)` and `if (rc != TPM_RC_SUCCESS) return rc`, for a check
with one error code. -/
theorem check_eq {α : Type} {rc code : Nat} {Passes : Prop} [Decidable Passes]
    (hpasses : rc = tpmRcSuccess ↔ Passes) (hfails : ¬ Passes → rc = code)
    {next : Except Nat α} :
    (if rc ≠ tpmRcSuccess then .error rc else next) = if Passes then next else .error code := by
  by_cases h : Passes
  · rw [if_neg (not_not.mpr (hpasses.mpr h)), if_pos h]
  · rw [if_pos fun hrc => h (hpasses.mp hrc), if_neg h, hfails h]

/-- The unmarshaller as the checks it makes, in order. -/
theorem unmarshalCommandHeader_eq (buffer : Nat → UInt8) (n : Nat) :
    unmarshalCommandHeader buffer n =
      if n < tpmCmdHeaderSize then .error tpmRcInsufficient
      else if get16 buffer 0 = tpmStNoSessions ∨ get16 buffer 0 = tpmStSessions then
        if tpmCmdHeaderSize ≤ get32 buffer 2 ∧ get32 buffer 2 ≤ tpmMaxCommandSize then
          if n < get32 buffer 2 then .error tpmRcCommandSize
          else if isValidCcCommand (get32 buffer 6) then .ok (headerAt buffer, 10)
          else .error tpmRcCommandCode
        else .error tpmRcCommandSize
      else .error tpmRcBadTag := by
  have htag : ¬ (get16 buffer 0 = tpmStNoSessions ∨ get16 buffer 0 = tpmStSessions) →
      unmarshalCommandTag (get16 buffer 0) = tpmRcBadTag := fun h => if_pos (by omega)
  have hsize : ¬ (tpmCmdHeaderSize ≤ get32 buffer 2 ∧ get32 buffer 2 ≤ tpmMaxCommandSize) →
      unmarshalCommandSize (get32 buffer 2) = tpmRcCommandSize := fun h => if_pos (by omega)
  have hcode : ¬ isValidCcCommand (get32 buffer 6) →
      unmarshalCommandCode (get32 buffer 6) = tpmRcCommandCode := fun h =>
    if_neg fun hvalid => h (unmarshalCommandCode_eq_success.mp (if_pos hvalid))
  rw [unmarshalCommandHeader, check_eq unmarshalCommandTag_eq_success htag,
    check_eq unmarshalCommandSize_eq_success hsize,
    check_eq unmarshalCommandCode_eq_success hcode]
  rfl

theorem unmarshalCommandHeader_ok_iff {buffer : Nat → UInt8} {n : Nat}
    {result : Header × Nat} :
    unmarshalCommandHeader buffer n = .ok result ↔
      tpmCmdHeaderSize ≤ n ∧ (headerAt buffer).Valid ∧ (headerAt buffer).size ≤ n ∧
        result = (headerAt buffer, 10) := by
  rw [unmarshalCommandHeader_eq]
  constructor
  · intro h
    split at h
    · cases h
    rename_i hlong
    split at h
    case isFalse => cases h
    rename_i htag
    split at h
    case isFalse => cases h
    rename_i hsize
    split at h
    · cases h
    rename_i hroom
    split at h
    case isFalse => cases h
    rename_i hcode
    cases h
    exact ⟨Nat.le_of_not_lt hlong, ⟨htag, hsize, hcode⟩, Nat.le_of_not_lt hroom, rfl⟩
  · rintro ⟨hlong, ⟨htag, hsize, hcode⟩, hroom, rfl⟩
    simp only [headerAt] at htag hsize hcode hroom
    rw [if_neg (Nat.not_lt.mpr hlong), if_pos htag, if_pos hsize,
      if_neg (Nat.not_lt.mpr hroom), if_pos hcode]

theorem unmarshalCommandHeader_error {buffer : Nat → UInt8} {n rc : Nat}
    (h : unmarshalCommandHeader buffer n = .error rc) : IsErrorCode rc := by
  rw [unmarshalCommandHeader_eq] at h
  split at h
  · cases h; decide
  split at h
  · split at h
    · split at h
      · cases h; decide
      · split at h <;> cases h
        decide
    · cases h; decide
  · cases h; decide

theorem marshalCommandHeader_of_valid {h : Header} (hvalid : h.Valid) (memory : Nat → UInt8)
    (position : Nat) {size : Nat} (hsize : tpmCmdHeaderSize ≤ size) :
    marshalCommandHeader memory position size h =
      (.ok tpmCmdHeaderSize, store memory position (headerBytes h)) := by
  rw [marshalCommandHeader, if_neg (Nat.not_lt.mpr hsize),
    if_neg (not_not.mpr (unmarshalCommandTag_eq_success.mpr hvalid.tag)),
    if_neg (not_not.mpr (unmarshalCommandSize_eq_success.mpr hvalid.size)),
    if_neg (not_not.mpr (unmarshalCommandCode_eq_success.mpr hvalid.code)), headerBytes]

/-- What the marshaller accepts is valid. -/
theorem valid_of_marshalCommandHeader {h : Header} {memory : Nat → UInt8}
    {position size written : Nat}
    (hok : (marshalCommandHeader memory position size h).1 = .ok written) :
    tpmCmdHeaderSize ≤ size ∧ h.Valid := by
  unfold marshalCommandHeader at hok
  split at hok
  · cases hok
  rename_i hsize
  split at hok
  · cases hok
  rename_i htag
  split at hok
  · cases hok
  rename_i hlength
  split at hok
  · cases hok
  rename_i hcode
  exact ⟨Nat.le_of_not_lt hsize, unmarshalCommandTag_eq_success.mp (not_not.mp htag),
    unmarshalCommandSize_eq_success.mp (not_not.mp hlength),
    unmarshalCommandCode_eq_success.mp (not_not.mp hcode)⟩

/-- The ten bytes of a header determine it. -/
theorem headerAt_of_slice {h : Header} (hrange : h.InRange) {buffer : Nat → UInt8}
    (hbytes : slice buffer 0 10 = headerBytes h) : headerAt buffer = h := by
  have hstarts : Starts buffer 10 0 (headerBytes h) :=
    starts_iff_append.mpr ⟨[], hbytes.trans (List.append_nil _).symm⟩
  rw [headerBytes, List.append_assoc, starts_append, starts_append, starts_bytes16 hrange.tag,
    starts_bytes32 hrange.size, starts_bytes32 hrange.code] at hstarts
  obtain ⟨⟨-, htag⟩, ⟨-, hsize⟩, -, hcode⟩ := hstarts
  exact congr (congr (congrArg Header.mk htag) hsize) hcode

theorem tpm2ValidateCommandHeader_ok_iff {buffer : Nat → UInt8} {n : Nat}
    (hn : n ≤ tpmMaxCommandSize) {h : Header} :
    tpm2ValidateCommandHeader buffer n = .ok h ↔
      unmarshalCommandHeader buffer n = .ok (h, 10) ∧ h.size = n := by
  rw [unmarshalCommandHeader_ok_iff]
  constructor
  · intro hok
    obtain ⟨hlong, rfl, hsize, htag, hcode⟩ := tpm2ValidateCommandHeader_ok hok
    have hheader : headerAt buffer = ⟨get16 buffer 0, n, get32 buffer 6⟩ := by
      rw [headerAt, hsize]
    rw [hheader]
    exact ⟨⟨hlong, ⟨htag, ⟨hlong, hn⟩, hcode⟩, Nat.le_refl n, rfl⟩, rfl⟩
  · rintro ⟨⟨hlong, hvalid, -, hresult⟩, hsize⟩
    obtain rfl : h = headerAt buffer := congrArg Prod.fst hresult
    have hfield : get32 buffer 2 = n := hsize
    rw [tpm2ValidateCommandHeader_eq_ok hlong hfield hvalid.tag hvalid.code, headerAt, hfield]

/-- The code that a function returns whose output is set when it succeeds. -/
def returnCode {α : Type} : Except Nat α → Nat
  | .ok _ => tpmRcSuccess
  | .error rc => rc

/-- When the size field is not below the size of the buffer, both comparisons of the
size come to equality. -/
theorem returnCode_validateCommandHeader {buffer : Nat → UInt8} {n : Nat}
    (hn : n ≤ tpmMaxCommandSize) (hlong : tpmCmdHeaderSize ≤ n) (hfield : n ≤ get32 buffer 2) :
    returnCode (tpm2ValidateCommandHeader buffer n) =
      returnCode (unmarshalCommandHeader buffer n) := by
  have hshort : ¬ n < 10 := Nat.not_lt.mpr hlong
  rw [unmarshalCommandHeader_eq, tpm2ValidateCommandHeader, tpmUnpackHeader, if_neg hshort,
    if_neg hshort, if_neg (Nat.not_lt.mpr hlong)]
  dsimp only
  by_cases htag : get16 buffer 0 = tpmStNoSessions ∨ get16 buffer 0 = tpmStSessions
  · rw [if_neg (by omega), if_pos htag]
    by_cases hsize : get32 buffer 2 = n
    · have hlimits : tpmCmdHeaderSize ≤ n ∧ n ≤ tpmMaxCommandSize := ⟨hlong, hn⟩
      rw [if_neg (by omega), hsize, if_pos hlimits, if_neg (Nat.lt_irrefl n)]
      by_cases hcode : isValidCcCommand (get32 buffer 6)
      · rw [if_pos hcode, if_pos hcode]
        rfl
      · rw [if_neg hcode, if_neg hcode]
        rfl
    · rw [if_pos (.inr hsize), if_pos (show n < get32 buffer 2 by omega)]
      split <;> rfl
  · rw [if_pos (not_or.mp htag), if_neg htag]
    rfl

/-- The three versions of the command header agree. -/
theorem headerCodecs_agree :
    (∀ buffer n h, n ≤ tpmMaxCommandSize → (tpm2ValidateCommandHeader buffer n = .ok h ↔
      unmarshalCommandHeader buffer n = .ok (h, 10) ∧ h.size = n)) ∧
    (∀ buffer n, n ≤ tpmMaxCommandSize → tpmCmdHeaderSize ≤ n → n ≤ get32 buffer 2 →
      returnCode (tpm2ValidateCommandHeader buffer n) =
        returnCode (unmarshalCommandHeader buffer n)) ∧
    (∀ (h : Header) memory position size written, h.InRange →
      (marshalCommandHeader memory position size h).1 = .ok written → ∀ n, h.size ≤ n →
        unmarshalCommandHeader
          (advance (marshalCommandHeader memory position size h).2 position) n = .ok (h, 10)) ∧
    (∀ (h : Header) memory position size rc, h.InRange → tpmCmdHeaderSize ≤ size →
      (marshalCommandHeader memory position size h).1 = .error rc →
        ∀ buffer n, slice buffer 0 10 = headerBytes h →
          ∃ rc, IsErrorCode rc ∧ unmarshalCommandHeader buffer n = .error rc) := by
  refine ⟨fun buffer n h hn => tpm2ValidateCommandHeader_ok_iff hn,
    fun buffer n hn hlong hfield => returnCode_validateCommandHeader hn hlong hfield, ?_, ?_⟩
  · intro h memory position size written hrange hok n hn
    obtain ⟨hsize, hvalid⟩ := valid_of_marshalCommandHeader hok
    rw [marshalCommandHeader_of_valid hvalid memory position hsize]
    have hheader : headerAt (advance (store memory position (headerBytes h)) position) = h := by
      refine headerAt_of_slice hrange ?_
      rw [slice_advance]
      exact slice_store_same memory position (headerBytes h)
    rw [unmarshalCommandHeader_ok_iff, hheader]
    exact ⟨Nat.le_trans hvalid.size.1 hn, hvalid, hn, rfl⟩
  · intro h memory position size rc hrange hsize herror buffer n hbytes
    have hinvalid : ¬ h.Valid := fun hvalid => by
      rw [marshalCommandHeader_of_valid hvalid memory position hsize] at herror
      cases herror
    cases houtcome : unmarshalCommandHeader buffer n with
    | error rc => exact ⟨rc, unmarshalCommandHeader_error houtcome, rfl⟩
    | ok result =>
        obtain ⟨-, hvalid, -⟩ := unmarshalCommandHeader_ok_iff.mp houtcome
        rw [headerAt_of_slice hrange hbytes] at hvalid
        exact absurd hvalid hinvalid

end TpmEmulator
