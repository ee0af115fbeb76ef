import TpmEmulator.Device

/-!
The driver side of the register interface: `tpm_send_command` of the firmware's
`main.c`, which is a sequence of register writes, with some of the commands it sends.
-/
namespace TpmEmulator

open CellMemory BigEndian

/-- The word sent for position `i`: bytes behind the command are zero. -/
def commandWord (cmdBuf : Nat → UInt8) (len i : Nat) : Nat :=
  let byte := fun k => if i + k < len then cmdBuf (i + k) else 0
  be32 (byte 0) (byte 1) (byte 2) (byte 3)

/-- The words in the order in which they are written to the data register. -/
def commandWords (cmdBuf : Nat → UInt8) (len : Nat) : List Nat :=
  let paddedLen := (len + 3) % 2 ^ 32 / 4 * 4
  (List.range (paddedLen / 4)).map fun k => commandWord cmdBuf len (4 * k)

/-- The accesses of `tpm_send_command` before the command is executed. -/
def tpmTransmit (env : Surroundings) (cmdBuf : Nat → UInt8) (len : Nat) : List Access :=
  .write env tpm2CtrlReg 1 :: (commandWords cmdBuf len).map (.write env tpm2DataReg)

def tpmSendCommand (env : Surroundings) (cmdBuf : Nat → UInt8) (len : Nat) : List Access :=
  tpmTransmit env cmdBuf len ++ [.write env tpm2CmdReg 1]

def cmdGetRandom : List UInt8 :=
  [0x80, 0x01, 0x00, 0x00, 0x00, 0x0C, 0x00, 0x00, 0x01, 0x7B, 0x00, 0x20]

def cmdCreatePrimary : List UInt8 :=
  [0x80, 0x01, 0x00, 0x00, 0x00, 0x44, 0x00, 0x00, 0x01, 0x31, 0x40, 0x00, 0x00, 0x01,
   0x00, 0x0A, 0x00, 0x06, 0x70, 0x61, 0x73, 0x73, 0x77, 0x64, 0x00, 0x00,
   0x00, 0x22, 0x00, 0x23, 0x00, 0x0B, 0x00, 0x03, 0x00, 0x72, 0x00, 0x00,
   0x00, 0x10, 0x00, 0x00, 0x00, 0x00, 0x00, 0x10, 0x00, 0x00, 0x00, 0x00,
   0x00, 0x03, 0x00, 0x10, 0x00, 0x00, 0x00, 0x00, 0x00, 0x00, 0x00, 0x00,
   0x00, 0x00, 0x00, 0x00, 0x00, 0x00]

def cmdNvDefineSpace : List UInt8 :=
  [0x80, 0x01, 0x00, 0x00, 0x00, 0x20, 0x00, 0x00, 0x01, 0x2A, 0x40, 0x00, 0x00, 0x01,
   0x00, 0x00, 0x00, 0x0E, 0x01, 0x00, 0x00, 0x01, 0x00, 0x0B, 0x02, 0x4C, 0x00, 0x06,
   0x00, 0x00, 0x00, 0x20]

def cmdNvWrite : List UInt8 :=
  [0x80, 0x01, 0x00, 0x00, 0x00, 0x1C, 0x00, 0x00, 0x01, 0x37, 0x40, 0x00, 0x00, 0x0C,
   0x01, 0x00, 0x00, 0x01, 0x00, 0x00, 0x00, 0x04, 0x54, 0x45, 0x53, 0x54, 0x00, 0x00]

def cmdNvRead : List UInt8 :=
  [0x80, 0x01, 0x00, 0x00, 0x00, 0x18, 0x00, 0x00, 0x01, 0x4E, 0x40, 0x00, 0x00, 0x0C,
   0x01, 0x00, 0x00, 0x01, 0x00, 0x00, 0x00, 0x04, 0x00, 0x00]

/-- The accesses that send a command given as a list of bytes. -/
def transmit (env : Surroundings) (cmd : List UInt8) : List Access :=
  tpmTransmit env (cmd.getD · 0) cmd.length

def send (env : Surroundings) (cmd : List UInt8) : List Access :=
  tpmSendCommand env (cmd.getD · 0) cmd.length

end TpmEmulator
