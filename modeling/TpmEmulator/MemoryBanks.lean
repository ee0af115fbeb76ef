import TpmEmulator.Library.Tiling
import Mathlib.Tactic.Common

/-!
The memory banks the MCU builds from equal blocks: instruction memory, program
flash and static memory. Each is a container region, filled by a loop with one
subregion per block and mapped at the base address of the bank. A subregion is
seen at its offset, clipped to its container.
-/
namespace TpmEmulator
open Tiling

def itcmBaseAddress : Nat := 0x00000000
def itcmBlockSize : Nat := 64 * 1024
def itcmNum : Nat := 1
def itcmSize : Nat := itcmBlockSize + itcmNum

def pflashBaseAddress : Nat := 0x00400000
def pflashBlockSize : Nat := 2048 * 1024
def pflashNum : Nat := 4
def pflashSize : Nat := pflashNum * pflashBlockSize

def sramBaseAddress : Nat := 0x20400000
def sramBlockSize : Nat := 256 * 1024
def sramNum : Nat := 3
def sramSize : Nat := sramBlockSize * sramNum

/-- A container with its subregions, in the order they were added. -/
structure MemoryRegion where
  size : Nat
  subregions : List Block
deriving DecidableEq, Repr

def memoryRegionInit (size : Nat) : MemoryRegion := ⟨size, []⟩

def memoryRegionAddSubregion (mr : MemoryRegion) (offset : Nat) (block : MemoryRegion) :
    MemoryRegion :=
  { mr with subregions := mr.subregions ++ [⟨offset, block.size⟩] }

/-- The loop of the three banks. A block that cannot be allocated ends the
realize function, so a bank that exists has all its blocks. -/
def addBlocks (mr : MemoryRegion) (num blockSize stride : Nat) : MemoryRegion :=
  (List.range num).foldl
    (fun mr i => memoryRegionAddSubregion mr (i * stride) (memoryRegionInit blockSize)) mr

def itcm : MemoryRegion :=
  addBlocks (memoryRegionInit itcmSize) itcmNum itcmBlockSize itcmBlockSize

/-- The flash loop multiplies its counter by the base address of the bank. -/
def pflash : MemoryRegion :=
  addBlocks (memoryRegionInit pflashSize) pflashNum pflashBlockSize pflashBaseAddress

def sram : MemoryRegion :=
  addBlocks (memoryRegionInit sramSize) sramNum sramBlockSize sramBlockSize

inductive McuBank
  | itcm
  | pflash
  | sram
deriving DecidableEq, Repr

namespace McuBank

def baseAddress : McuBank → Nat
  | .itcm => itcmBaseAddress
  | .pflash => pflashBaseAddress
  | .sram => sramBaseAddress

def blockSize : McuBank → Nat
  | .itcm => itcmBlockSize
  | .pflash => pflashBlockSize
  | .sram => sramBlockSize

def num : McuBank → Nat
  | .itcm => itcmNum
  | .pflash => pflashNum
  | .sram => sramNum

def region : McuBank → MemoryRegion
  | .itcm => TpmEmulator.itcm
  | .pflash => TpmEmulator.pflash
  | .sram => TpmEmulator.sram

end McuBank

theorem addBlocks_eq (mr : MemoryRegion) (num blockSize stride : Nat) :
    addBlocks mr num blockSize stride =
      { mr with subregions := mr.subregions ++ progression num blockSize stride } := by
  induction num with
  | zero => simp [addBlocks, progression]
  | succ num ih =>
      rw [addBlocks, List.range_succ, List.foldl_append]
      rw [addBlocks] at ih
      rw [ih]
      simp [memoryRegionAddSubregion, memoryRegionInit, progression, List.range_succ]

/-- The guest address is in the range of the bank and a block is mapped there. -/
def McuBank.Backs (bank : McuBank) (address : Nat) : Prop :=
  bank.baseAddress ≤ address ∧
    ∃ b ∈ bank.region.subregions, b.Covers bank.region.size (address - bank.baseAddress)

/-- The blocks of the bank tile it, and so back every address of its range. -/
structure BankTiled (bank : McuBank) : Prop where
  tiled : Tiled bank.region.size (bank.num * bank.blockSize) bank.region.subregions
  backed : ∀ address, bank.baseAddress ≤ address →
    address < bank.baseAddress + bank.num * bank.blockSize → bank.Backs address

theorem McuBank.backs_of_tiled {bank : McuBank}
    (h : Tiled bank.region.size (bank.num * bank.blockSize) bank.region.subregions)
    {address : Nat} (hlow : bank.baseAddress ≤ address)
    (hhigh : address < bank.baseAddress + bank.num * bank.blockSize) : bank.Backs address := by
  obtain ⟨i, ⟨b, hb, hcovers⟩, -⟩ := h.covered_once (address - bank.baseAddress) (by omega)
  exact ⟨hlow, b, List.mem_of_getElem? hb, hcovers⟩

/-- A bank is tiled exactly when its container has the size of its blocks and
its loop steps by the block size. -/
theorem bankTiled_iff_loop (bank : McuBank) {size stride : Nat} (hblock : 0 < bank.blockSize)
    (hregion : bank.region = addBlocks (memoryRegionInit size) bank.num bank.blockSize stride) :
    BankTiled bank ↔
      (bank.num ≤ 1 ∨ stride = bank.blockSize) ∧ size = bank.num * bank.blockSize := by
  rw [addBlocks_eq] at hregion
  have htiled : Tiled bank.region.size (bank.num * bank.blockSize) bank.region.subregions ↔
      (bank.num ≤ 1 ∨ stride = bank.blockSize) ∧ size = bank.num * bank.blockSize := by
    rw [hregion]
    exact tiled_progression_iff hblock
  rw [← htiled]
  exact ⟨BankTiled.tiled, fun h => ⟨h, fun _ => McuBank.backs_of_tiled h⟩⟩

/-- Of the three banks, only the static memory is tiled by its blocks. The
container of the instruction memory is a byte too large, since its size adds the
number of blocks. The blocks of the flash lie twice their size apart. -/
theorem bankTiled_iff (bank : McuBank) : BankTiled bank ↔ bank = .sram := by
  cases bank with
  | itcm =>
      rw [bankTiled_iff_loop .itcm (by decide) rfl]
      decide
  | pflash =>
      rw [bankTiled_iff_loop .pflash (by decide) rfl]
      decide
  | sram =>
      rw [bankTiled_iff_loop .sram (by decide) rfl]
      decide

/-- The container of the instruction memory ends a byte after its block. The
flash has no block from two to four megabytes, and its last two blocks lie
outside the container. -/
theorem bankTiled_fails :
    (itcm = ⟨65537, [⟨0, 65536⟩]⟩ ∧ ¬ BankTiled .itcm) ∧
      (pflash = ⟨0x800000, [⟨0, 0x200000⟩, ⟨0x400000, 0x200000⟩, ⟨0x800000, 0x200000⟩,
          ⟨0xc00000, 0x200000⟩]⟩ ∧
        ¬ McuBank.pflash.Backs 0x600000 ∧ ¬ BankTiled .pflash) := by
  have hhole : ¬ McuBank.pflash.Backs 0x600000 := by
    rintro ⟨-, hblocks⟩
    revert hblocks
    decide
  refine ⟨⟨by decide, fun h => ?_⟩, by decide, hhole, fun h => ?_⟩
  · exact absurd h.tiled.size_eq (by decide)
  · exact hhole (h.backed 0x600000 (by decide) (by decide))

end TpmEmulator
