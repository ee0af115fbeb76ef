import TpmEmulator.Device
import TpmEmulator.MemoryBanks
import TpmEmulator.UartFifo
import TpmEmulator.Library.Programs

/-!
The board as the firmware sees it: the address map of the MCU with its memory
banks, the TPM and the UART, and the registers the firmware names. The UART is
mapped into the board memory, which the MCU puts under its own regions. What the
memory banks hold belongs to the firmware and is not part of the board.

A command finds the surroundings that belong to its number, so a run of the board
is made in one sequence of surroundings, however it is interleaved.
-/
namespace TpmEmulator
open Programs

def dflashBaseAddress : Nat := 0x10000000
def dflashSize : Nat := 256 * 1024
def tpmBaseAddress : Nat := 0xF0000000
def tpmSize : Nat := 4 * 1024
def lpuartBaseAddress : Nat := 0x40328000
def uartSize : Nat := 16 * 1024

/-- What is mapped into the container of the MCU. -/
inductive BoardRegion
  | bank (m : McuBank)
  | dflash
  | tpm
  | uart
deriving DecidableEq, Repr

namespace BoardRegion

def baseAddress : BoardRegion → Nat
  | .bank m => m.baseAddress
  | .dflash => dflashBaseAddress
  | .tpm => tpmBaseAddress
  | .uart => lpuartBaseAddress

def size : BoardRegion → Nat
  | .bank m => m.region.size
  | .dflash => dflashSize
  | .tpm => tpmSize
  | .uart => uartSize

/-- Something answers at the address. A bank does so only where it has a block. -/
def Backs : BoardRegion → Nat → Prop
  | .bank m, address => m.Backs address
  | region, address =>
      region.baseAddress ≤ address ∧ address < region.baseAddress + region.size

instance decidableBacks : (region : BoardRegion) → (address : Nat) →
    Decidable (region.Backs address)
  | .bank m, address => inferInstanceAs (Decidable (m.baseAddress ≤ address ∧
      ∃ b ∈ m.region.subregions, b.Covers m.region.size (address - m.baseAddress)))
  | .dflash, _ | .tpm, _ | .uart, _ => inferInstanceAs (Decidable (_ ∧ _))

theorem Backs.range {region : BoardRegion} {address : Nat} (h : region.Backs address) :
    region.baseAddress ≤ address ∧ address < region.baseAddress + region.size := by
  cases region with
  | bank m =>
      obtain ⟨hlow, b, -, hcovers⟩ := h
      have hhigh : address - m.baseAddress < m.region.size := hcovers.2.2
      simp only [baseAddress, size]
      omega
  | dflash | tpm | uart => exact h

end BoardRegion

/-- The regions in the order in which an address is looked up: those the MCU adds
to its container, and below them the board memory with the UART. -/
def container : List BoardRegion :=
  [.bank .itcm, .bank .pflash, .bank .sram, .dflash, .tpm, .uart]

def decode (address : Nat) : Option BoardRegion := container.find? (·.Backs address)

theorem mem_container (region : BoardRegion) : region ∈ container := by
  revert region
  rintro (⟨_ | _ | _⟩ | _ | _ | _) <;> decide

/-- The regions lie apart, so the order of the container never decides. -/
theorem backs_unique {region region' : BoardRegion} {address : Nat}
    (h : region.Backs address) (h' : region'.Backs address) : region = region' := by
  have hapart : ∀ r ∈ container, ∀ r' ∈ container, r = r' ∨
      r.baseAddress + r.size ≤ r'.baseAddress ∨ r'.baseAddress + r'.size ≤ r.baseAddress := by
    decide
  have hrange := h.range
  have hrange' := h'.range
  rcases hapart region (mem_container region) region' (mem_container region') with
    heq | hbefore | hbehind
  · exact heq
  · omega
  · omega

theorem find_eq_some_iff {order : List BoardRegion} (hall : ∀ region, region ∈ order)
    {region : BoardRegion} {address : Nat} :
    order.find? (·.Backs address) = some region ↔ region.Backs address := by
  constructor
  · intro h
    simpa using List.find?_some h
  · intro h
    cases hfind : order.find? (·.Backs address) with
    | none =>
        have hnone := List.find?_eq_none.mp hfind region (hall region)
        simp [h] at hnone
    | some region' =>
        have h' : region'.Backs address := by simpa using List.find?_some hfind
        rw [backs_unique h h']

theorem decode_eq_some_iff {region : BoardRegion} {address : Nat} :
    decode address = some region ↔ region.Backs address :=
  find_eq_some_iff mem_container

/-- The registers that `uart.h` and `main.c` name. -/
inductive Register
  | uart0Data
  | uart0State
  | uart0Ctrl
  | uart0Bauddiv
  | uart0Flagreg
  | tpm2Ctrl
  | tpm2Status
  | tpm2Random
  | tpm2Cmd
  | tpm2Data
deriving DecidableEq, Repr

def uart0Address : Nat := 0x40328000
def tpm2Base : Nat := 0xF0000000

namespace Register

def address : Register → Nat
  | .uart0Data => uart0Address + 0
  | .uart0State => uart0Address + 4
  | .uart0Ctrl => uart0Address + 8
  | .uart0Bauddiv => uart0Address + 16
  | .uart0Flagreg => uart0Address + 0x18
  | .tpm2Ctrl => tpm2Base + 0x00
  | .tpm2Status => tpm2Base + 0x04
  | .tpm2Random => tpm2Base + 0x08
  | .tpm2Cmd => tpm2Base + 0x0C
  | .tpm2Data => tpm2Base + 0x10

/-- The offset in the register window of the TPM. -/
def tpm? : Register → Option Nat
  | .tpm2Ctrl => some tpm2CtrlReg
  | .tpm2Status => some tpm2StatusReg
  | .tpm2Random => some 0x08
  | .tpm2Cmd => some tpm2CmdReg
  | .tpm2Data => some tpm2DataReg
  | _ => none

end Register

/-- Where the firmware's registers are found on the board. -/
theorem decode_register (r : Register) :
    decode r.address = some (if r.tpm?.isSome then .tpm else .uart) := by
  rw [decode_eq_some_iff]
  cases r <;> decide

/-- The memory of the linker script. The stack grows down from its end. -/
inductive LinkerRegion
  | itcm
  | sram
deriving DecidableEq, Repr

namespace LinkerRegion

def origin : LinkerRegion → Nat
  | .itcm => 0x00000000
  | .sram => 0x20400000

def length : LinkerRegion → Nat
  | .itcm => 64 * 1024
  | .sram => 768 * 1024

def bank : LinkerRegion → McuBank
  | .itcm => .itcm
  | .sram => .sram

theorem backs (region : LinkerRegion) {address : Nat} (hlow : region.origin ≤ address)
    (hhigh : address < region.origin + region.length) : region.bank.Backs address := by
  cases region with
  | itcm =>
      simp only [origin, length] at hlow hhigh
      refine ⟨hlow, ⟨0, itcmBlockSize⟩, by decide, Nat.zero_le _, ?_, ?_⟩
      · show address - 0 < 0 + 64 * 1024
        omega
      · show address - 0 < 64 * 1024 + 1
        omega
  | sram =>
      have htiled : BankTiled .sram := (bankTiled_iff_loop .sram (by decide) rfl).mpr (by decide)
      exact htiled.backed address hlow hhigh

end LinkerRegion

/-- The address map fits the firmware. In whichever order the regions are looked
up, an address finds the same one. The register macros reach the device they are
meant for. All of the memory that the linker script gives to code, data and stack
is there. -/
theorem firmware_address_map :
    (∀ (order : List BoardRegion), order.Perm container →
      ∀ address, order.find? (·.Backs address) = decode address) ∧
    (∀ r : Register, decode r.address = some (if r.tpm?.isSome then .tpm else .uart)) ∧
    ∀ (region : LinkerRegion) (address : Nat), region.origin ≤ address →
      address < region.origin + region.length → decode address = some (.bank region.bank) := by
  refine ⟨fun order hperm address => ?_, decode_register, fun region address hlow hhigh => ?_⟩
  · have hall (region : BoardRegion) : region ∈ order := hperm.mem_iff.mpr (mem_container region)
    apply Option.ext
    intro region
    rw [find_eq_some_iff hall, decode_eq_some_iff]
  · rw [decode_eq_some_iff]
    exact region.backs hlow hhigh

inductive Request
  | read (r : Register)
  | write (r : Register) (value : BitVec 32)
deriving DecidableEq, Repr

def uartFRxfe : BitVec 32 := 1 <<< 4
def uartFRxff : BitVec 32 := 1 <<< 5

/-- The conditions the firmware busy-waits on. -/
inductive Busy
  | rxfe
  | rxff
  | processing
deriving DecidableEq, Repr

namespace Busy

def register : Busy → Register
  | .rxfe | .rxff => .uart0Flagreg
  | .processing => .tpm2Status

/-- The loop goes on with this value. -/
def holds : Busy → BitVec 32 → Bool
  | .rxfe, value => value &&& uartFRxfe != 0
  | .rxff, value => value &&& uartFRxff != 0
  | .processing, value => value == .ofNat 32 TpmState.processing.value

end Busy

/-- The devices, and how many commands the TPM has been told to execute. -/
structure Board where
  uart : NxpUartState
  tpm : Tpm2State
  commands : Nat

namespace Board

def read (b : Board) (address : Nat) : BitVec 32 × Board :=
  match decode address with
  | some .uart =>
      let answer := nxpUartRead b.uart (address - lpuartBaseAddress)
      (answer.1, { b with uart := answer.2 })
  | some .tpm =>
      let answer := tpm2MmioRead b.tpm (address - tpmBaseAddress)
      (.ofNat 32 answer.1, { b with tpm := answer.2 })
  | _ => (0, b)

def write (host : Host) (env : Nat → Surroundings) (b : Board) (address : Nat)
    (value : BitVec 32) : Board :=
  match decode address with
  | some .uart => { b with uart := nxpUartWrite b.uart (address - lpuartBaseAddress) value }
  | some .tpm =>
      let offset := address - tpmBaseAddress
      { b with
        tpm := tpm2MmioWrite host (env b.commands) b.tpm offset value.toNat
        commands := if offset = tpm2CmdReg then b.commands + 1 else b.commands }
  | _ => b

end Board

def boardBus (host : Host) (env : Nat → Surroundings) :
    Bus Board Request Busy (BitVec 32) where
  ask := fun b request =>
    match request with
    | .read r => b.read r.address
    | .write r value => (0, b.write host env r.address value)
  poll := fun b busy =>
    let answer := b.read busy.register.address
    (!busy.holds answer.1, answer.2)

def boardPowerOn (host : Host) : Board := ⟨uartPowerOn, tpm2Realize host, 0⟩

end TpmEmulator
