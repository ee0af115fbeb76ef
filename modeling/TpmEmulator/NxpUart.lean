import TpmEmulator.Library.RingBuffer
import TpmEmulator.Library.Runs
import Mathlib.Tactic.Common

/-!
The board's UART device. The guest reaches it through its register block, the
host through the character backend: deliveries, events and the bytes the
device sends. The registers are 32-bit words. Positions and counts of the
receive FIFO are natural numbers, and a slot outside the array would be visible.

The receive FIFO of a device state is a ring buffer whose flags are two bits of
the flag register. What each input does to it is said once, at the end.
-/
namespace TpmEmulator
open RingBuffer

def nxpUartFlagRi : BitVec 32 := 0x100
def nxpUartFlagTxfe : BitVec 32 := 0x80
def nxpUartFlagRxff : BitVec 32 := 0x40
def nxpUartFlagTxff : BitVec 32 := 0x20
def nxpUartFlagRxfe : BitVec 32 := 0x10
def nxpUartFlagDcd : BitVec 32 := 0x04
def nxpUartFlagDsr : BitVec 32 := 0x02
def nxpUartFlagCts : BitVec 32 := 0x01

/-- Break marker of the data register. -/
def drBe : BitVec 32 := 1 <<< 10

def intOe : BitVec 32 := 1 <<< 10
def intBe : BitVec 32 := 1 <<< 9
def intPe : BitVec 32 := 1 <<< 8
def intFe : BitVec 32 := 1 <<< 7
def intRt : BitVec 32 := 1 <<< 6
def intTx : BitVec 32 := 1 <<< 5
def intRx : BitVec 32 := 1 <<< 4
def intDsr : BitVec 32 := 1 <<< 3
def intDcd : BitVec 32 := 1 <<< 2
def intCts : BitVec 32 := 1 <<< 1
def intRi : BitVec 32 := 1 <<< 0
def intE : BitVec 32 := intOe ||| intBe ||| intPe ||| intFe
def intMs : BitVec 32 := intRi ||| intDsr ||| intDcd ||| intCts

def lcrFen : BitVec 32 := 1 <<< 4
def lcrBrk : BitVec 32 := 1 <<< 0

def crOut2 : BitVec 32 := 1 <<< 13
def crOut1 : BitVec 32 := 1 <<< 12
def crRts : BitVec 32 := 1 <<< 11
def crDtr : BitVec 32 := 1 <<< 10
def crLbe : BitVec 32 := 1 <<< 7

def ibrdMask : BitVec 32 := 0xffff
def fbrdMask : BitVec 32 := 0x3f

def nxpUartFifoDepth : Nat := 16

def nxpUartIdArm : List (BitVec 32) := [0x11, 0x10, 0x14, 0x00, 0x0d, 0xf0, 0x05, 0xb1]

/-- Which interrupt bits drive each of the six outbound lines. -/
def irqmask : List (BitVec 32) :=
  [intE ||| intMs ||| intRt ||| intTx ||| intRx, intRx, intTx, intRt, intMs, intE]

/-- What the device hands to its character backend. -/
inductive ChrOutput
  | byte (b : UInt8)
  | setBreak (enabled : Bool)
deriving DecidableEq, Repr

/-- The backend events of the character layer. -/
inductive ChrEvent
  | break
  | opened
  | muxIn
  | muxOut
  | closed
deriving DecidableEq, Repr

structure NxpUartState where
  flags : BitVec 32
  lcr : BitVec 32
  rsr : BitVec 32
  cr : BitVec 32
  dmacr : BitVec 32
  intEnabled : BitVec 32
  intLevel : BitVec 32
  readFifo : Nat → BitVec 32
  ilpr : BitVec 32
  ibrd : BitVec 32
  fbrd : BitVec 32
  ifl : BitVec 32
  readPos : Nat
  readCount : Nat
  readTrigger : Nat
  irq : List Bool
  chr : List ChrOutput

def nxpUartUpdate (s : NxpUartState) : NxpUartState :=
  let flags := s.intLevel &&& s.intEnabled
  { s with irq := irqmask.map fun mask => flags &&& mask != 0 }

def nxpUartLoopbackEnabled (s : NxpUartState) : Bool := s.cr &&& crLbe != 0

def nxpUartIsFifoEnabled (s : NxpUartState) : Bool := s.lcr &&& lcrFen != 0

def nxpUartGetFifoDepth (s : NxpUartState) : Nat :=
  if nxpUartIsFifoEnabled s then nxpUartFifoDepth else 1

def nxpUartResetRxFifo (s : NxpUartState) : NxpUartState :=
  { s with
    readCount := 0
    readPos := 0
    flags := (s.flags &&& ~~~nxpUartFlagRxff) ||| nxpUartFlagRxfe }

def nxpUartResetTxFifo (s : NxpUartState) : NxpUartState :=
  { s with flags := (s.flags &&& ~~~nxpUartFlagTxff) ||| nxpUartFlagTxfe }

/-- The arrays of the device that are indexed at run time. -/
inductive UartArray
  | readFifo
  | id
deriving DecidableEq, Repr

/-- The FIFO with a word stored behind the last one, and the element used. -/
def storeRxWord (s : NxpUartState) (value : BitVec 32) :
    (Nat → BitVec 32) × (UartArray × Nat) :=
  let slot := (s.readPos + s.readCount) &&& (nxpUartGetFifoDepth s - 1)
  (Function.update s.readFifo slot value, (.readFifo, slot))

def loadRxWord (s : NxpUartState) : BitVec 32 × (UartArray × Nat) :=
  (s.readFifo s.readPos, (.readFifo, s.readPos))

/-- The identification byte of a register. Behind the array the model has zeros. -/
def loadId (offset : Nat) : BitVec 32 × (UartArray × Nat) :=
  let index := (offset - 0xfe0) / 4
  (nxpUartIdArm.getD index 0, (.id, index))

def nxpUartFifoRxPut (s : NxpUartState) (value : BitVec 32) : NxpUartState :=
  let pipeDepth := nxpUartGetFifoDepth s
  let s :=
    { s with
      readFifo := (storeRxWord s value).1
      readCount := s.readCount + 1
      flags := s.flags &&& ~~~nxpUartFlagRxfe }
  let s :=
    if s.readCount = pipeDepth then { s with flags := s.flags ||| nxpUartFlagRxff } else s
  if s.readCount = s.readTrigger then
    nxpUartUpdate { s with intLevel := s.intLevel ||| intRx }
  else s

def nxpUartLoopbackTx (s : NxpUartState) (value : BitVec 32) : NxpUartState :=
  if nxpUartLoopbackEnabled s then nxpUartFifoRxPut s value else s

/-- The data is sent whether or not the UART and its transmitter are enabled;
a disabled one is only logged. -/
def nxpUartWriteTxdata (s : NxpUartState) (data : UInt8) : NxpUartState :=
  let s := { s with chr := s.chr ++ [.byte data] }
  let s := nxpUartLoopbackTx s (data.toBitVec.setWidth 32)
  nxpUartUpdate { s with intLevel := s.intLevel ||| intTx }

/-- The backend may deliver again once the read is over. Such a delivery is an
input of its own. -/
def nxpUartReadRxdata (s : NxpUartState) : BitVec 32 × NxpUartState :=
  let fifoDepth := nxpUartGetFifoDepth s
  let c := (loadRxWord s).1
  let s := { s with flags := s.flags &&& ~~~nxpUartFlagRxff }
  let s :=
    if 0 < s.readCount then
      { s with
        readCount := s.readCount - 1
        readPos := (s.readPos + 1) &&& (fifoDepth - 1) }
    else s
  let s := if s.readCount = 0 then { s with flags := s.flags ||| nxpUartFlagRxfe } else s
  let s :=
    if s.readCount + 1 = s.readTrigger then { s with intLevel := s.intLevel &&& ~~~intRx } else s
  (c, nxpUartUpdate { s with rsr := c >>> 8 })

/-- Register read. The registers are selected by word, and an access has four
bytes. -/
def nxpUartRead (s : NxpUartState) (offset : Nat) : BitVec 32 × NxpUartState :=
  match offset / 4 with
  | 0 => nxpUartReadRxdata s
  | 1 => (s.rsr, s)
  | 6 => (s.flags, s)
  | 8 => (s.ilpr, s)
  | 9 => (s.ibrd, s)
  | 10 => (s.fbrd, s)
  | 11 => (s.lcr, s)
  | 12 => (s.cr, s)
  | 13 => (s.ifl, s)
  | 14 => (s.intEnabled, s)
  | 15 => (s.intLevel, s)
  | 16 => (s.intLevel &&& s.intEnabled, s)
  | 18 => (s.dmacr, s)
  | register =>
      if 0x3f8 ≤ register ∧ register ≤ 0x400 then ((loadId offset).1, s) else (0, s)

/-- The trigger level of the documentation is compiled out: any byte triggers. -/
def nxpUartSetReadTrigger (s : NxpUartState) : NxpUartState := { s with readTrigger := 1 }

/-- In loopback the modem control outputs drive the modem status inputs. -/
def nxpUartLoopbackMdmctrl (s : NxpUartState) : NxpUartState :=
  if nxpUartLoopbackEnabled s then
    let cr := s.cr
    let fr := s.flags &&&
      ~~~(nxpUartFlagRi ||| nxpUartFlagDcd ||| nxpUartFlagDsr ||| nxpUartFlagCts)
    let fr := fr ||| (if cr &&& crOut2 ≠ 0 then nxpUartFlagRi else 0)
    let fr := fr ||| (if cr &&& crOut1 ≠ 0 then nxpUartFlagDcd else 0)
    let fr := fr ||| (if cr &&& crRts ≠ 0 then nxpUartFlagCts else 0)
    let fr := fr ||| (if cr &&& crDtr ≠ 0 then nxpUartFlagDsr else 0)
    let il := s.intLevel &&& ~~~(intDsr ||| intDcd ||| intCts ||| intRi)
    let il := il ||| (if fr &&& nxpUartFlagDsr ≠ 0 then intDsr else 0)
    let il := il ||| (if fr &&& nxpUartFlagDcd ≠ 0 then intDcd else 0)
    let il := il ||| (if fr &&& nxpUartFlagCts ≠ 0 then intCts else 0)
    let il := il ||| (if fr &&& nxpUartFlagRi ≠ 0 then intRi else 0)
    nxpUartUpdate { s with flags := fr, intLevel := il }
  else s

def nxpUartLoopbackBreak (s : NxpUartState) (brkEnable : BitVec 32) : NxpUartState :=
  if brkEnable ≠ 0 then nxpUartLoopbackTx s drBe else s

/-- Write to the line control register. A change of the FIFO mode empties the
FIFO, and a raised break loops back, both before the new mode is stored. -/
def nxpUartWriteLcr (s : NxpUartState) (value : BitVec 32) : NxpUartState :=
  let changed := s.lcr ^^^ value
  let s := if changed &&& lcrFen ≠ 0 then nxpUartResetTxFifo (nxpUartResetRxFifo s) else s
  let s :=
    if changed &&& lcrBrk ≠ 0 then
      let breakEnable := value &&& lcrBrk
      let s := { s with chr := s.chr ++ [.setBreak (breakEnable != 0)] }
      nxpUartLoopbackBreak s breakEnable
    else s
  nxpUartSetReadTrigger { s with lcr := value }

/-- Register write. Clock and baud rate only appear in trace output. -/
def nxpUartWrite (s : NxpUartState) (offset : Nat) (value : BitVec 32) : NxpUartState :=
  match offset / 4 with
  | 0 => nxpUartWriteTxdata s (.ofBitVec (value.setWidth 8))
  | 1 => { s with rsr := 0 }
  | 6 => s
  | 8 => { s with ilpr := value }
  | 9 => { s with ibrd := value &&& ibrdMask }
  | 10 => { s with fbrd := value &&& fbrdMask }
  | 11 => nxpUartWriteLcr s value
  | 12 => nxpUartLoopbackMdmctrl { s with cr := value }
  | 13 => nxpUartSetReadTrigger { s with ifl := value }
  | 14 => nxpUartUpdate { s with intEnabled := value }
  | 17 => nxpUartUpdate { s with intLevel := s.intLevel &&& ~~~value }
  | 18 => { s with dmacr := value }
  | _ => s

/-- Room in the FIFO, as the signed number the backend is given. -/
def nxpUartCanReceive (s : NxpUartState) : Int :=
  (nxpUartGetFifoDepth s : Int) - s.readCount

/-- The word a delivered byte is stored as. -/
def rxWord (b : UInt8) : BitVec 32 := b.toBitVec.setWidth 32

def nxpUartReceive (s : NxpUartState) (buf : List UInt8) : NxpUartState :=
  if nxpUartLoopbackEnabled s then s
  else buf.foldl (fun s b => nxpUartFifoRxPut s (rxWord b)) s

def nxpUartEvent (s : NxpUartState) (event : ChrEvent) : NxpUartState :=
  if event = .break ∧ ¬ nxpUartLoopbackEnabled s then nxpUartFifoRxPut s drBe else s

/-- Device reset. The cells of the FIFO, the lines and the backend stay. -/
def nxpUartReset (s : NxpUartState) : NxpUartState :=
  let s :=
    { s with
      lcr := 0
      rsr := 0
      dmacr := 0
      intEnabled := 0
      intLevel := 0
      ilpr := 0
      ibrd := 0
      fbrd := 0
      readTrigger := 1
      ifl := 0x12
      cr := 0x300
      flags := 0 }
  nxpUartResetTxFifo (nxpUartResetRxFifo s)

/-- Everything that can happen to the device. -/
inductive UartInput
  | read (offset : Nat)
  | write (offset : Nat) (value : BitVec 32)
  | receive (buf : List UInt8)
  | event (event : ChrEvent)
  | reset
deriving DecidableEq, Repr

def uartStep (s : NxpUartState) : UartInput → NxpUartState
  | .read offset => (nxpUartRead s offset).2
  | .write offset value => nxpUartWrite s offset value
  | .receive buf => nxpUartReceive s buf
  | .event e => nxpUartEvent s e
  | .reset => nxpUartReset s

def NxpUartState.rxfe (s : NxpUartState) : Bool := s.flags &&& nxpUartFlagRxfe != 0

def NxpUartState.rxff (s : NxpUartState) : Bool := s.flags &&& nxpUartFlagRxff != 0

def NxpUartState.rx (s : NxpUartState) : Fifo (BitVec 32) where
  cells := s.readFifo
  depth := nxpUartGetFifoDepth s
  pos := s.readPos
  count := s.readCount
  empty := s.rxfe
  full := s.rxff

/-- Testing a word against a one-bit mask reads that bit. -/
theorem and_twoPow_bne_zero (x : BitVec 32) {i : Nat} (h : i < 32) :
    (x &&& BitVec.twoPow 32 i != 0) = x.getLsbD i := by
  rw [BitVec.and_twoPow]
  have hne : BitVec.twoPow 32 i ≠ 0 := by
    intro hzero
    have hbit := congrArg (BitVec.getLsbD · i) hzero
    simp [h] at hbit
  cases x.getLsbD i with
  | false => rfl
  | true => simpa using hne

theorem rxfe_eq (s : NxpUartState) : s.rxfe = s.flags.getLsbD 4 :=
  and_twoPow_bne_zero s.flags (i := 4) (by decide)

theorem rxff_eq (s : NxpUartState) : s.rxff = s.flags.getLsbD 6 :=
  and_twoPow_bne_zero s.flags (i := 6) (by decide)

theorem rx_depth_pos (s : NxpUartState) : 0 < s.rx.depth := by
  show 0 < nxpUartGetFifoDepth s
  rw [nxpUartGetFifoDepth]
  split <;> decide

/-- Both depths are powers of two, so the mask is a remainder. -/
theorem and_depth_sub_one (s : NxpUartState) (n : Nat) :
    n &&& (nxpUartGetFifoDepth s - 1) = n % nxpUartGetFifoDepth s := by
  rw [nxpUartGetFifoDepth]
  split
  · exact Nat.and_two_pow_sub_one_eq_mod n 4
  · exact Nat.and_two_pow_sub_one_eq_mod n 0

/-- The receive FIFO only looks at five fields, and at two bits of the flags. -/
theorem rx_ext {s t : NxpUartState} {r : Fifo (BitVec 32)}
    (hr : r = { s.rx with cells := t.readFifo, pos := t.readPos, count := t.readCount,
                          empty := t.flags.getLsbD 4, full := t.flags.getLsbD 6 })
    (hlcr : t.lcr = s.lcr) : t.rx = r := by
  have hdepth : nxpUartGetFifoDepth t = nxpUartGetFifoDepth s := by
    rw [nxpUartGetFifoDepth, nxpUartIsFifoEnabled, hlcr]
    rfl
  rw [hr, NxpUartState.rx, rxfe_eq, rxff_eq, hdepth]
  rfl

@[simp] theorem rx_resetTxFifo (s : NxpUartState) : (nxpUartResetTxFifo s).rx = s.rx := by
  refine rx_ext (s := s) ?_ rfl
  simp [nxpUartResetTxFifo, NxpUartState.rx, rxfe_eq, rxff_eq, nxpUartFlagTxff, nxpUartFlagTxfe]

@[simp] theorem rx_resetRxFifo (s : NxpUartState) : (nxpUartResetRxFifo s).rx = s.rx.clear := by
  refine rx_ext (s := s) ?_ rfl
  simp [nxpUartResetRxFifo, NxpUartState.rx, Fifo.clear, nxpUartFlagRxff, nxpUartFlagRxfe]

/-- The interrupt level and its lines are not part of the FIFO. -/
theorem rx_ite_intLevel (c : Prop) [Decidable c] (s : NxpUartState) (level : BitVec 32) :
    (if c then nxpUartUpdate { s with intLevel := level } else s).rx = s.rx := by
  split <;> rfl

@[simp] theorem rx_fifoRxPut (s : NxpUartState) (value : BitVec 32) :
    (nxpUartFifoRxPut s value).rx = s.rx.put value := by
  unfold nxpUartFifoRxPut
  extract_lets pipeDepth stored filled
  rw [rx_ite_intLevel]
  have hslot : (s.readPos + s.readCount) &&& (nxpUartGetFifoDepth s - 1) =
      (s.readPos + s.readCount) % nxpUartGetFifoDepth s := and_depth_sub_one s _
  refine rx_ext (s := s) ?_ ?_
  · by_cases hfull : s.readCount + 1 = nxpUartGetFifoDepth s <;>
      simp [NxpUartState.rx, Fifo.put, filled, stored, pipeDepth, storeRxWord, rxff_eq, hslot,
        hfull, nxpUartFlagRxfe, nxpUartFlagRxff]
  · by_cases hfull : s.readCount + 1 = nxpUartGetFifoDepth s <;>
      simp [filled, stored, pipeDepth, hfull]

/-- The value of a data read is the cell at the read position. -/
theorem readRxdata_value (s : NxpUartState) :
    (nxpUartReadRxdata s).1 = s.rx.cells s.rx.pos := rfl

theorem rx_ite_intLevel_rsr (c : Prop) [Decidable c] (s : NxpUartState) (level rsr : BitVec 32) :
    (nxpUartUpdate { (if c then { s with intLevel := level } else s) with rsr := rsr }).rx =
      s.rx := by
  split <;> rfl

@[simp] theorem rx_readRxdata (s : NxpUartState) : (nxpUartReadRxdata s).2.rx = s.rx.get := by
  unfold nxpUartReadRxdata
  extract_lets fifoDepth c cleared taken flagged lowered
  rw [rx_ite_intLevel_rsr]
  have hnext : (s.readPos + 1) &&& (fifoDepth - 1) = (s.readPos + 1) % nxpUartGetFifoDepth s :=
    and_depth_sub_one s _
  have hflagged : flagged.lcr = s.lcr ∧ s.rx.get =
      { s.rx with cells := flagged.readFifo, pos := flagged.readPos, count := flagged.readCount,
                  empty := flagged.flags.getLsbD 4, full := flagged.flags.getLsbD 6 } := by
    by_cases hcount : 0 < s.readCount
    · by_cases hlast : s.readCount - 1 = 0 <;>
        simp [NxpUartState.rx, Fifo.get, flagged, taken, cleared, rxfe_eq, hnext, hcount, hlast,
          nxpUartFlagRxfe, nxpUartFlagRxff]
    · have hzero : s.readCount = 0 := by omega
      simp [NxpUartState.rx, Fifo.get, flagged, taken, cleared, hzero, nxpUartFlagRxfe,
        nxpUartFlagRxff]
  exact rx_ext hflagged.2 hflagged.1

theorem getLsbD_or_ite {mask : BitVec 32} {i : Nat} (h : mask.getLsbD i = false) (x : BitVec 32)
    (c : Prop) [Decidable c] : (x ||| if c then mask else 0).getLsbD i = x.getLsbD i := by
  split <;> simp [h]

@[simp] theorem rx_loopbackMdmctrl (s : NxpUartState) : (nxpUartLoopbackMdmctrl s).rx = s.rx := by
  unfold nxpUartLoopbackMdmctrl
  split
  · -- None of the modem bits is a bit of the FIFO.
    refine rx_ext (s := s) ?_ rfl
    simp only [nxpUartUpdate, nxpUartFlagRi, nxpUartFlagDcd, nxpUartFlagDsr, nxpUartFlagCts]
    simp (disch := decide) only [getLsbD_or_ite]
    simp [NxpUartState.rx, rxfe_eq, rxff_eq]
  · rfl

theorem rx_loopbackTx (s : NxpUartState) (value : BitVec 32) :
    (nxpUartLoopbackTx s value).rx =
      if nxpUartLoopbackEnabled s then s.rx.put value else s.rx := by
  rw [nxpUartLoopbackTx, apply_ite NxpUartState.rx, rx_fifoRxPut]

theorem rx_writeTxdata (s : NxpUartState) (data : UInt8) :
    (nxpUartWriteTxdata s data).rx =
      if nxpUartLoopbackEnabled s then s.rx.put (rxWord data) else s.rx :=
  rx_loopbackTx { s with chr := s.chr ++ [.byte data] } (rxWord data)

/-- The write changes the FIFO mode. -/
def ChangesFifoMode (s : NxpUartState) (value : BitVec 32) : Prop :=
  (s.lcr ^^^ value) &&& lcrFen ≠ 0

instance (s : NxpUartState) (value : BitVec 32) : Decidable (ChangesFifoMode s value) :=
  inferInstanceAs (Decidable (_ ≠ _))

/-- The write raises the break, and the device is in loopback. -/
def LoopsBreak (s : NxpUartState) (value : BitVec 32) : Prop :=
  (s.lcr ^^^ value) &&& lcrBrk ≠ 0 ∧ value &&& lcrBrk ≠ 0 ∧ nxpUartLoopbackEnabled s

instance (s : NxpUartState) (value : BitVec 32) : Decidable (LoopsBreak s value) :=
  inferInstanceAs (Decidable (_ ∧ _ ∧ _))

def fifoDepthOf (lcr : BitVec 32) : Nat := if lcr &&& lcrFen != 0 then nxpUartFifoDepth else 1

/-- A write to the line control register: the FIFO is emptied and the break put
in at the old depth, and only then the depth changes. -/
def rxAfterLcr (s : NxpUartState) (value : BitVec 32) : Fifo (BitVec 32) :=
  let emptied := if ChangesFifoMode s value then s.rx.clear else s.rx
  let broken := if LoopsBreak s value then emptied.put drBe else emptied
  { broken with depth := fifoDepthOf value }

theorem rx_writeLcr (s : NxpUartState) (value : BitVec 32) :
    (nxpUartWriteLcr s value).rx = rxAfterLcr s value := by
  unfold nxpUartWriteLcr
  extract_lets changed emptied breakEnable noted broken
  have hemptied : emptied.rx = if ChangesFifoMode s value then s.rx.clear else s.rx := by
    show (if ChangesFifoMode s value then nxpUartResetTxFifo (nxpUartResetRxFifo s) else s).rx = _
    rw [apply_ite NxpUartState.rx, rx_resetTxFifo, rx_resetRxFifo]
  have hloop : nxpUartLoopbackEnabled emptied = nxpUartLoopbackEnabled s := by
    show nxpUartLoopbackEnabled (if ChangesFifoMode s value then _ else s) = _
    split <;> rfl
  have hbroken : broken.rx = if LoopsBreak s value then emptied.rx.put drBe else emptied.rx := by
    show (if changed &&& lcrBrk ≠ 0 then nxpUartLoopbackBreak noted breakEnable else emptied).rx = _
    rw [apply_ite NxpUartState.rx, nxpUartLoopbackBreak, apply_ite NxpUartState.rx, rx_loopbackTx,
      show nxpUartLoopbackEnabled noted = nxpUartLoopbackEnabled s from hloop,
      show noted.rx = emptied.rx from rfl]
    by_cases hbreak : LoopsBreak s value
    · obtain ⟨hchange, hvalue, hloopback⟩ := hbreak
      rw [if_pos hchange, if_pos hvalue, if_pos hloopback, if_pos ⟨hchange, hvalue, hloopback⟩]
    · rw [if_neg hbreak]
      split_ifs with hchange hvalue hloopback
      · exact absurd ⟨hchange, hvalue, hloopback⟩ hbreak
      all_goals rfl
  show { broken.rx with depth := fifoDepthOf value } = rxAfterLcr s value
  rw [hbroken, hemptied]
  rfl

theorem rx_receive (s : NxpUartState) (buf : List UInt8) :
    (nxpUartReceive s buf).rx =
      if nxpUartLoopbackEnabled s then s.rx else s.rx.putAll (buf.map rxWord) := by
  rw [nxpUartReceive, apply_ite NxpUartState.rx]
  congr 1
  induction buf generalizing s with
  | nil => rfl
  | cons b buf ih =>
      rw [List.foldl_cons, ih, rx_fifoRxPut]
      rfl

theorem rx_event (s : NxpUartState) (e : ChrEvent) :
    (nxpUartEvent s e).rx =
      if e = .break ∧ ¬ nxpUartLoopbackEnabled s then s.rx.put drBe else s.rx := by
  rw [nxpUartEvent, apply_ite NxpUartState.rx, rx_fifoRxPut]

theorem rx_reset (s : NxpUartState) : (nxpUartReset s).rx = { s.rx.clear with depth := 1 } := by
  rw [nxpUartReset, rx_resetTxFifo, rx_resetRxFifo]
  simp [NxpUartState.rx, Fifo.clear, nxpUartGetFifoDepth, nxpUartIsFifoEnabled]

theorem read_data (s : NxpUartState) {offset : Nat} (h : offset / 4 = 0) :
    nxpUartRead s offset = nxpUartReadRxdata s := by
  simp only [nxpUartRead, h]

theorem read_other (s : NxpUartState) {offset : Nat} (h : offset / 4 ≠ 0) :
    (nxpUartRead s offset).2 = s := by
  unfold nxpUartRead
  split
  · contradiction
  all_goals first | rfl | (split <;> rfl)

/-- What an input does to the receive FIFO. -/
def rxStep (s : NxpUartState) : UartInput → Fifo (BitVec 32)
  | .read offset => if offset / 4 = 0 then s.rx.get else s.rx
  | .write offset value =>
      if offset / 4 = 0 then
        if nxpUartLoopbackEnabled s then s.rx.put (rxWord (.ofBitVec (value.setWidth 8)))
        else s.rx
      else if offset / 4 = 11 then rxAfterLcr s value
      else s.rx
  | .receive buf => if nxpUartLoopbackEnabled s then s.rx else s.rx.putAll (buf.map rxWord)
  | .event e => if e = .break ∧ ¬ nxpUartLoopbackEnabled s then s.rx.put drBe else s.rx
  | .reset => { s.rx.clear with depth := 1 }

theorem rx_read (s : NxpUartState) (offset : Nat) :
    (nxpUartRead s offset).2.rx = rxStep s (.read offset) := by
  rw [rxStep]
  split
  · next hdata => rw [read_data s hdata, rx_readRxdata]
  · next hdata => rw [read_other s hdata]

theorem rx_write (s : NxpUartState) (offset : Nat) (value : BitVec 32) :
    (nxpUartWrite s offset value).rx = rxStep s (.write offset value) := by
  rw [rxStep]
  split_ifs with hdata hloop hlcr
  · simp only [nxpUartWrite, hdata, rx_writeTxdata, hloop, if_true]
  · simp only [nxpUartWrite, hdata, rx_writeTxdata, hloop, if_false, Bool.false_eq_true]
  · simp only [nxpUartWrite, hlcr, rx_writeLcr]
  · unfold nxpUartWrite
    split <;> first | contradiction | rfl | exact rx_loopbackMdmctrl { s with cr := value }

/-- The device acts on its receive FIFO as `rxStep` says. -/
theorem rx_step (s : NxpUartState) (i : UartInput) : (uartStep s i).rx = rxStep s i := by
  cases i with
  | read offset => exact rx_read s offset
  | write offset value => exact rx_write s offset value
  | receive buf => exact rx_receive s buf
  | event e => exact rx_event s e
  | reset => exact rx_reset s

end TpmEmulator
