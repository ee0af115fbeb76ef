import TpmEmulator.Header
import TpmEmulator.Library.CipherFeedback

/-!
`tpm_crypto.c`: the key derivation function, AES in CFB-128 mode and the
back end of CreatePrimary. The primitives under them, HMAC, SHA-256, one AES block
and the multiplication of the base point, are the functions of `Host`.

The derivation loop ends because each pass copies at least one byte. Its model
has fuel, one unit per pass; running out of fuel gives `none`, and
`tpm2Kdfa_isSome` shows that the fuel it is called with is enough.
-/
namespace TpmEmulator

open CellMemory BigEndian

/-- The bytes of the label that are hashed: none for `NULL`. -/
def labelBytes : Option (List UInt8) → List UInt8
  | none => []
  | some label => label

section Kdfa

variable {h : Nat} (hmac : List UInt8 → List UInt8 → Vector UInt8 h) (hmacKey : List UInt8)
  (label : Option (List UInt8)) (bits bytesToGenerate : Nat)

def kdfaLoop : Nat → Nat → Nat → (Nat → UInt8) → Option (Nat → UInt8)
  | 0, _, generated, out => if generated < bytesToGenerate then none else some out
  | fuel + 1, counter, generated, out =>
    if generated < bytesToGenerate then
      let hmacBuf := (hmac hmacKey
        (bytes32 counter ++ labelBytes label ++ [0] ++ bytes32 bits)).toList
      let toCopy :=
        if bytesToGenerate < (generated + h) % 2 ^ 32 then bytesToGenerate - generated else h
      kdfaLoop fuel ((counter + 1) % 2 ^ 32) (generated + toCopy)
        (store out generated (hmacBuf.take toCopy))
    else some out

/-- `TPM2_KDFa`: `out` with the derived bytes at its start. -/
def tpm2Kdfa (out : Nat → UInt8) : Option (Nat → UInt8) :=
  let bytesToGenerate := (bits + 7) % 2 ^ 32 / 8
  match kdfaLoop hmac hmacKey label bits bytesToGenerate bytesToGenerate 1 0 out with
  | none => none
  | some out =>
    if bits % 8 = 0 then some out
    else
      let last := sub32 bytesToGenerate 1
      some (store out last [out last &&& UInt8.ofNat (0xFF <<< (8 - bits % 8))])

/-- Each pass uses one unit of fuel and copies at least one byte. -/
theorem kdfaLoop_isSome (hh : 0 < h) (fuel counter generated : Nat) (out : Nat → UInt8)
    (hfuel : bytesToGenerate ≤ generated + fuel) :
    (kdfaLoop hmac hmacKey label bits bytesToGenerate fuel counter generated out).isSome := by
  induction fuel generalizing counter generated out with
  | zero =>
      rw [kdfaLoop, if_neg (by omega)]
      rfl
  | succ fuel ih =>
      rw [kdfaLoop]
      split
      · apply ih
        split <;> omega
      · rfl

theorem tpm2Kdfa_isSome (hh : 0 < h) (out : Nat → UInt8) :
    (tpm2Kdfa hmac hmacKey label bits out).isSome := by
  have hloop := kdfaLoop_isSome hmac hmacKey label bits ((bits + 7) % 2 ^ 32 / 8) hh
    ((bits + 7) % 2 ^ 32 / 8) 1 0 out (by omega)
  simp only [tpm2Kdfa]
  split
  · rename_i hnone
    rw [hnone] at hloop
    cases hloop
  · split <;> rfl

end Kdfa

instance aesBlockSize_neZero : NeZero 16 := ⟨by decide⟩

/-- `TPM2_AES_CFB_Crypt`: the bytes written to `out`, whose number is the value
returned. An unsupported key length writes nothing and returns zero. -/
def tpm2AesCfbCrypt (host : Host) (key : Nat → UInt8) (keylen : Nat) (iv input : List UInt8)
    (enc : Bool) : List UInt8 :=
  if keylen = 16 ∨ keylen = 24 ∨ keylen = 32 then
    let block := host.aesBlock (slice key 0 keylen)
    if enc then CipherFeedback.encrypt (· ^^^ ·) block iv input
    else CipherFeedback.decrypt (· ^^^ ·) block iv input
  else []

/-- The bytes of the string literal `"PRIMARY"`. -/
def primaryLabel : List UInt8 := [0x50, 0x52, 0x49, 0x4D, 0x41, 0x52, 0x59]

/-- The local `priv` of `tpm2_CreatePrimary` after `TPM2_KDFa` has filled it. -/
def primaryPrivate (host : Host) (seed : Nat → UInt8) : List UInt8 :=
  slice ((tpm2Kdfa host.hmacSha256 (slice seed 0 32) (some primaryLabel) 256 zeroBytes).getD
    zeroBytes) 0 32

/-- The seed that the `switch` on the hierarchy handle selects. -/
def hierarchySeed (s : Tpm2State) (primaryHandle : Nat) : Option (Nat → UInt8) :=
  if primaryHandle = tpmRhOwner then some s.sps
  else if primaryHandle = tpmRhPlatform then some s.pps
  else if primaryHandle = tpmRhEndorsement then some s.eps
  else none

/-- The sensitive area after step 2, before the template type is checked. -/
def initialSensitive (inSensitive : SensitiveCreate) (inPublic : Tpm2bPublic)
    (seed : Nat → UInt8) : Tpm2bSensitive :=
  { Tpm2bSensitive.zero with
    sensitiveType := inPublic.publicArea.type
    authValue := inSensitive.userAuth
    seedValue := ⟨32, store zeroBytes 0 (slice seed 0 32)⟩ }

/-- The public area built from the template and the point. -/
def primaryOutPublic (host : Host) (tmpl : TpmtPublic) (priv : List UInt8) : Tpm2bPublic :=
  let point := host.basePointMul priv
  { size := host.sizeofTpmtPublic
    publicArea :=
      { tmpl with
        x := ⟨32, store tmpl.x.buffer 0 point.1.toList⟩
        y := ⟨32, store tmpl.y.buffer 0 point.2.toList⟩ } }

/-- The name of a public area, written over `name`. -/
def primaryNameOf (host : Host) (outPublic : Tpm2bPublic) (name : Tpm2bName) : Tpm2bName :=
  ⟨2 + 32, store name.name 0
    (bytes16 tpmAlgSha256 ++ (host.sha256 (host.publicBytes outPublic.publicArea)).toList)⟩

/-- The state in which `tpm2_CreatePrimary` reports success, for the key of `seed`. -/
def withPrimary (host : Host) (s : Tpm2State) (inSensitive : SensitiveCreate)
    (inPublic : Tpm2bPublic) (name : Tpm2bName) (seed : Nat → UInt8) : Tpm2State :=
  let sens := initialSensitive inSensitive inPublic seed
  let priv := primaryPrivate host seed
  let outPublic := primaryOutPublic host inPublic.publicArea priv
  { s with
    primarySensitive := { sens with ecc := ⟨32, store sens.ecc.buffer 0 priv⟩ }
    primaryPublic := outPublic
    primaryName := s.primaryName.assign (primaryNameOf host outPublic name) }

/-- `tpm2_CreatePrimary`: the response code, the device state and the outputs. The
sensitive area of the state is overwritten before the template type is checked. -/
def tpm2CreatePrimary (host : Host) (s : Tpm2State) (primaryHandle : Nat)
    (inSensitive : SensitiveCreate) (inPublic outPublic : Tpm2bPublic) (name : Tpm2bName) :
    Nat × Tpm2State × Tpm2bPublic × Tpm2bName :=
  match hierarchySeed s primaryHandle with
  | none => (tpmRcHierarchy, s, outPublic, name)
  | some seed =>
    if inPublic.publicArea.type ≠ tpmAlgEcc then
      (tpmRcAsymmetric,
        { s with primarySensitive := initialSensitive inSensitive inPublic seed }, outPublic, name)
    else
      let outPublic := primaryOutPublic host inPublic.publicArea (primaryPrivate host seed)
      (tpmRcSuccess, withPrimary host s inSensitive inPublic name seed, outPublic,
        primaryNameOf host outPublic name)

section CreatePrimary

variable (host : Host) (s : Tpm2State) {primaryHandle : Nat} (inSensitive : SensitiveCreate)
  (inPublic outPublic : Tpm2bPublic) (name : Tpm2bName)

theorem tpm2CreatePrimary_no_hierarchy (h : hierarchySeed s primaryHandle = none) :
    tpm2CreatePrimary host s primaryHandle inSensitive inPublic outPublic name =
      (tpmRcHierarchy, s, outPublic, name) := by
  simp only [tpm2CreatePrimary, h]

theorem tpm2CreatePrimary_not_ecc {seed : Nat → UInt8}
    (h : hierarchySeed s primaryHandle = some seed)
    (htype : inPublic.publicArea.type ≠ tpmAlgEcc) :
    tpm2CreatePrimary host s primaryHandle inSensitive inPublic outPublic name =
      (tpmRcAsymmetric,
        { s with primarySensitive := initialSensitive inSensitive inPublic seed },
        outPublic, name) := by
  simp only [tpm2CreatePrimary, h, if_pos htype]

theorem tpm2CreatePrimary_ecc {seed : Nat → UInt8}
    (h : hierarchySeed s primaryHandle = some seed)
    (htype : inPublic.publicArea.type = tpmAlgEcc) :
    tpm2CreatePrimary host s primaryHandle inSensitive inPublic outPublic name =
      (tpmRcSuccess, withPrimary host s inSensitive inPublic name seed,
        primaryOutPublic host inPublic.publicArea (primaryPrivate host seed),
        primaryNameOf host
          (primaryOutPublic host inPublic.publicArea (primaryPrivate host seed)) name) := by
  simp only [tpm2CreatePrimary, h, if_neg (not_not.mpr htype)]

end CreatePrimary

end TpmEmulator
