import TpmEmulator.ParameterGrammar
import TpmEmulator.Firmware
import TpmEmulator.Library.StructLayout

/-!
How NV_DefineSpace moves the attribute word. The handler copies `sizeof(TPMA_NV)` bytes
from the member `attributes` of its parameters over the bit-fields of the public area. The
fields of `TPMA_NV` take 33 bits, so the structure has two 32-bit units and the copy
reaches into the policy that is stored behind the word. The copy is modelled on the bytes
of the parameters, and what it yields are the attributes that `nvPublicOf` assigns.
-/
namespace TpmEmulator

open CellMemory BigEndian Framing StructLayout

/-- The widths of the bit-fields of `TPMA_NV`, in their order. -/
def tpmaNvWidths : List Nat :=
  [1, 1, 1, 1, 3, 4, 1, 1, 1, 1, 1, 1, 1, 1, 1, 1, 5, 1, 1, 1, 1, 1, 1, 1]

def sizeofTpmaNv : Nat :=
  4 * (((fieldPlaces 32 0 0 tpmaNvWidths).map Prod.fst).foldl max 0 + 1)

def NvDefineSpaceParams.members (p : NvDefineSpaceParams) : List (Member UInt8) :=
  [uint32 p.authHandle, uint16 p.authSize, byteArray 64 p.auth, uint16 p.publicSize,
    uint32 p.nvIndex, uint16 p.nameAlg] ++
  [uint32 p.attributes, uint16 p.authPolicySize, byteArray 64 p.authPolicy, uint16 p.dataSize]

def tpmaNvOfBytes (bytes : List UInt8) : TpmaNv :=
  let unit (k : Nat) := ofLeBytes ((bytes.drop (4 * k)).take 4)
  let field (i : Nat) := fieldValue unit ((fieldPlaces 32 0 0 tpmaNvWidths).getD i (0, 0))
    (tpmaNvWidths.getD i 0)
  let flag (i : Nat) := decide (field i = 1)
  { ppWrite := flag 0
    ownerWrite := flag 1
    authWrite := flag 2
    policyWrite := flag 3
    reserved1 := field 4
    nvType := field 5
    policyDelete := flag 6
    writeLocked := flag 7
    writeAll := flag 8
    writeDefine := flag 9
    writeStClear := flag 10
    globalLock := flag 11
    ppRead := flag 12
    ownerRead := flag 13
    authRead := flag 14
    policyRead := flag 15
    reserved2 := field 16
    noDa := flag 17
    orderly := flag 18
    clearStClear := flag 19
    readLocked := flag 20
    written := flag 21
    platformCreate := flag 22
    readStClear := flag 23 }

def attributesOffset (p : NvDefineSpaceParams) : Nat := (offsets 0 p.members).getD 6 0

/-- The target of `memcpy(&public.nvPublic.attributes, &params.attributes,
sizeof(TPMA_NV))`, for parameters whose padding is `padding`. -/
def copiedAttributes (padding : Nat → UInt8) (p : NvDefineSpaceParams) : TpmaNv :=
  tpmaNvOfBytes (slice (image padding 0 p.members) (attributesOffset p) sizeofTpmaNv)

theorem sizeofTpmaNv_eq : sizeofTpmaNv = 8 := by decide

theorem offsets_members (p : NvDefineSpaceParams) :
    offsets 0 p.members = [0, 4, 6, 70, 72, 76, 80, 84, 86, 150] := by
  simp [NvDefineSpaceParams.members, offsets, uint16, uint32, byteArray, alignUp]

theorem slice_attributes (padding : Nat → UInt8) (p : NvDefineSpaceParams) :
    slice (image padding 0 p.members) 80 8 = leBytes 4 p.attributes ++
      (leBytes 2 p.authPolicySize ++ slice p.authPolicy 0 2) := by
  have hmember {i offset : Nat} {m : Member UInt8}
      (hoffset : [0, 4, 6, 70, 72, 76, 80, 84, 86, 150][i]? = some offset)
      (hm : p.members[i]? = some m) :
      slice (image padding 0 p.members) offset m.cells.length = m.cells :=
    slice_image padding 0 p.members (by rwa [offsets_members]) hm
  have hword : slice (image padding 0 p.members) 80 4 = leBytes 4 p.attributes :=
    hmember (i := 6) rfl rfl
  have hsize : slice (image padding 0 p.members) 84 2 = leBytes 2 p.authPolicySize :=
    hmember (i := 7) rfl rfl
  have hpolicy : slice (image padding 0 p.members) 86 64 = slice p.authPolicy 0 64 :=
    hmember (i := 8) rfl rfl
  rw [show 8 = 4 + (2 + 2) from rfl, slice_add, slice_add, hword, hsize,
    ← take_slice _ 86 (by decide : 2 ≤ 64), hpolicy, take_slice _ 0 (by decide)]

/-- The first 32 bits are one unit and the last field is alone in the second. -/
theorem tpmaNvOfBytes_eq (bytes : List UInt8) :
    tpmaNvOfBytes bytes = TpmaNv.ofWords (ofLeBytes (bytes.take 4))
      (ofLeBytes ((bytes.drop 4).take 4)) := by
  have hplaces : fieldPlaces 32 0 0 tpmaNvWidths =
      [(0, 0), (0, 1), (0, 2), (0, 3), (0, 4), (0, 7), (0, 11), (0, 12), (0, 13), (0, 14),
        (0, 15), (0, 16), (0, 17), (0, 18), (0, 19), (0, 20), (0, 21), (0, 26), (0, 27),
        (0, 28), (0, 29), (0, 30), (0, 31), (1, 0)] := by decide
  simp only [tpmaNvOfBytes, hplaces]
  simp [TpmaNv.ofWords, tpmaNvWidths, fieldValue, Nat.testBit_eq_decide_div_mod_eq]

/-- Of the second unit only the lowest bit is used. -/
theorem ofWords_eq_iff (first a b : Nat) :
    TpmaNv.ofWords first a = TpmaNv.ofWords first b ↔ a % 2 = b % 2 := by
  simp only [TpmaNv.ofWords, TpmaNv.mk.injEq, true_and, Nat.testBit_zero, decide_eq_decide]
  omega

/-- The copy yields the attributes of `nvPublicOf`, whatever the padding holds. -/
theorem copiedAttributes_eq (padding : Nat → UInt8) {p : NvDefineSpaceParams} (hp : p.InRange) :
    copiedAttributes padding p = (nvPublicOf p).attributes := by
  have hword : ofLeBytes (leBytes 4 p.attributes) = p.attributes :=
    ofLeBytes_leBytes hp.attributes
  have hsize : ofLeBytes (leBytes 2 p.authPolicySize) = p.authPolicySize :=
    ofLeBytes_leBytes (hp.authPolicySize.trans_lt (by decide))
  have hoffset : attributesOffset p = 80 := by rw [attributesOffset, offsets_members]; rfl
  rw [copiedAttributes, hoffset, sizeofTpmaNv_eq, slice_attributes, tpmaNvOfBytes_eq,
    List.take_left' (length_leBytes 4 _), List.drop_left' (length_leBytes 4 _),
    List.take_of_length_le (by simp), hword, ofLeBytes_append, hsize,
    length_leBytes]
  exact (ofWords_eq_iff _ _ _).mpr (by omega)

/-- Two accepted bodies with the same attribute word define the same attributes exactly
when the sizes of their policies agree in the lowest bit. -/
theorem definedAttributes_eq_iff {locals₁ locals₂ p₁ p₂ : NvDefineSpaceParams}
    {body₁ body₂ : Nat → UInt8} {size₁ size₂ n₁ n₂ : Nat} (padding₁ padding₂ : Nat → UInt8)
    (h₁ : unmarshalNvDefineSpace locals₁ body₁ size₁ = .ok (p₁, n₁))
    (h₂ : unmarshalNvDefineSpace locals₂ body₂ size₂ = .ok (p₂, n₂))
    (hword : p₁.attributes = p₂.attributes) :
    copiedAttributes padding₁ p₁ = (nvPublicOf p₁).attributes ∧
      copiedAttributes padding₂ p₂ = (nvPublicOf p₂).attributes ∧
      ((nvPublicOf p₁).attributes = (nvPublicOf p₂).attributes ↔
        p₁.authPolicySize % 2 = p₂.authPolicySize % 2) := by
  refine ⟨copiedAttributes_eq padding₁ (unmarshalNvDefineSpace_only h₁).1,
    copiedAttributes_eq padding₂ (unmarshalNvDefineSpace_only h₂).1, ?_⟩
  show TpmaNv.ofWords p₁.attributes _ = TpmaNv.ofWords p₂.attributes _ ↔ _
  rw [hword]
  exact ofWords_eq_iff _ _ _

def spaceWithPolicy (n : Nat) : NvDefineSpaceParams :=
  ⟨0x40000001, 0, zeroBytes, 14 + n, 0x01000001, 0x000B, 0x024C0006, n, zeroBytes, 32⟩

example : encodeNvDefineSpace (spaceWithPolicy 0) = cmdNvDefineSpace.drop 10 := by decide

def spaceBody (n : Nat) : Nat → UInt8 := store zeroBytes 0 (encodeNvDefineSpace (spaceWithPolicy n))

theorem unmarshal_spaceBody (locals : NvDefineSpaceParams) {n : Nat} (hn : n ≤ 64) :
    unmarshalNvDefineSpace locals (spaceBody n) (22 + n) =
      .ok (locals.over (spaceWithPolicy n), 22 + n) := by
  have hlength : (encodeNvDefineSpace (spaceWithPolicy n)).length = 22 + n :=
    length_encodeNvDefineSpace (spaceWithPolicy n)
  have hrange : (spaceWithPolicy n).InRange := by
    constructor <;> simp only [spaceWithPolicy] <;> omega
  have hstarts : Starts (spaceBody n) (22 + n) 0 (encodeNvDefineSpace (spaceWithPolicy n)) :=
    ⟨by omega, slice_store_same _ _ _⟩
  rw [unmarshalNvDefineSpace_starts hrange hstarts, hlength]

theorem definedAttributes_eq_iff_even :
    (nvPublicOf ((spaceWithPolicy 0).over (spaceWithPolicy 2))).attributes =
      (nvPublicOf ((spaceWithPolicy 0).over (spaceWithPolicy 4))).attributes :=
  (definedAttributes_eq_iff zeroBytes zeroBytes
    (unmarshal_spaceBody (spaceWithPolicy 0) (by decide : 2 ≤ 64))
    (unmarshal_spaceBody (spaceWithPolicy 0) (by decide : 4 ≤ 64)) rfl).2.2.mpr rfl

/-- A policy of one byte sets `readStClear`, which no bit of the attribute word does. -/
theorem definedAttributes_policy :
    ∃ p₁ p₂, unmarshalNvDefineSpace (spaceWithPolicy 0) (spaceBody 0) 22 = .ok (p₁, 22) ∧
      unmarshalNvDefineSpace (spaceWithPolicy 0) (spaceBody 1) 23 = .ok (p₂, 23) ∧
      p₁.attributes = p₂.attributes ∧ (nvPublicOf p₁).attributes.readStClear = false ∧
      (nvPublicOf p₂).attributes.readStClear = true :=
  ⟨_, _, unmarshal_spaceBody _ (by decide), unmarshal_spaceBody _ (by decide), rfl, rfl, rfl⟩

end TpmEmulator
