import TpmEmulator.Firmware
import TpmEmulator.Library.CryptoPrimitives

/-!
The host that concrete runs of the device use: the library functions with their
standard meaning, and the layout of `TPMT_PUBLIC` on a little-endian machine with
eight-byte alignment.
-/
namespace TpmEmulator

open CellMemory CryptoPrimitives

def littleEndian (n value : Nat) : List UInt8 := (toBytes n value).reverse

/-- The 32 big-endian bytes of a number. -/
def vector32 (value : Nat) : Vector UInt8 32 := ⟨(toBytes 32 value).toArray, by simp [toBytes]⟩

/-- The object representation of `TPMT_PUBLIC`. The `parameters` union starts at
byte 80 and the `unique` union at byte 112. -/
def tpmtPublicBytes (p : TpmtPublic) : List UInt8 :=
  littleEndian 2 p.type ++ littleEndian 2 p.nameAlg ++ littleEndian 4 p.objectAttributes ++
    littleEndian 2 p.authPolicy.size ++ slice p.authPolicy.buffer 0 64 ++ List.replicate 6 0 ++
    List.replicate 24 0 ++ littleEndian 2 p.curveId ++ List.replicate 6 0 ++
    littleEndian 2 p.x.size ++ slice p.x.buffer 0 64 ++
    littleEndian 2 p.y.size ++ slice p.y.buffer 0 64 ++ List.replicate 132 0

def referenceHost : Host where
  aesBlock key block i := UInt8.ofNat (Aes.encryptBlock key block >>> (8 * (15 - i.val)))
  hmacSha256 key message := vector32 (Sha256.hmac key message)
  sha256 message := vector32 (Sha256.hash message)
  basePointMul priv :=
    match P256.baseMul (ofBytes priv) 256 with
    | none => (vector32 0, vector32 0)
    | some (x, y) => (vector32 x, vector32 y)
  publicBytes := tpmtPublicBytes
  sizeofTpmtPublic := 376

example (p : TpmtPublic) : (tpmtPublicBytes p).length = referenceHost.sizeofTpmtPublic := by
  simp only [tpmtPublicBytes, littleEndian, toBytes, List.length_append, List.length_reverse,
    List.length_map, List.length_range, length_slice, List.length_replicate, referenceHost]

/-- The private key of the owner hierarchy's primary object. -/
example : primaryPrivate referenceHost (consecutiveBytes 0x10) = toBytes 32
    0x0f326fe47c10e79ecefcc36bbe9c9e8c5053cdaceba9c2575d9613346ceeea73 := by
  decide +kernel

/-- Surroundings in which every byte is zero. -/
def zeroSurroundings : Surroundings where
  random := zeroBytes
  createPrimaryParams := ⟨0, 0, 0, zeroBytes, 0, zeroBytes, 0⟩
  nvDefineSpaceParams := ⟨0, 0, zeroBytes, 0, 0, 0, 0, 0, zeroBytes, 0⟩
  nvWriteParams := ⟨0, 0, .zero, 0⟩
  nvReadParams := ⟨0, 0, 0, 0⟩
  bytesRead := 0
  pastCommandBuffer := zeroBytes

/-- The realized device after the firmware has sent these commands. -/
def afterCommands (cmds : List (List UInt8)) : Tpm2State :=
  Runs.run (step referenceHost) (tpm2Realize referenceHost) (cmds.flatMap (send zeroSurroundings))

/-- The same, with one more command sent but not yet executed. -/
def pendingCommand (cmds : List (List UInt8)) (cmd : List UInt8) : Tpm2State :=
  Runs.run (step referenceHost) (afterCommands cmds) (transmit zeroSurroundings cmd)

theorem reachable_afterCommands (cmds : List (List UInt8)) :
    Reachable referenceHost (afterCommands cmds) :=
  (reachable_realize referenceHost).run _

theorem reachable_pendingCommand (cmds : List (List UInt8)) (cmd : List UInt8) :
    Reachable referenceHost (pendingCommand cmds cmd) :=
  (reachable_afterCommands cmds).run _

end TpmEmulator
