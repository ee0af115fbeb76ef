import TpmEmulator.UartFifo
import Mathlib.Tactic.Common

/-!
What the registers of the UART hold in every run. An input is a few operations on
the state, one after the other. A property that each operation keeps is kept by
every input, whether or not the host paces itself and whether or not the receive
FIFO overruns.
-/
namespace TpmEmulator
open RingBuffer

/-- The registers that only store what is written. -/
inductive PlainRegister
  | rsr
  | ilpr
  | ibrd
  | fbrd
  | ifl
  | dmacr
deriving DecidableEq, Repr

inductive UartOp
  | put (word : BitVec 32)
  | get
  | clear
  | transmit (out : ChrOutput)
  | raiseTx
  | setLcr (value : BitVec 32)
  | setCr (value : BitVec 32)
  | setEnabled (value : BitVec 32)
  | clearLevel (value : BitVec 32)
  | store (r : PlainRegister) (value : BitVec 32)
  | reset
deriving DecidableEq, Repr

def storePlain (s : NxpUartState) (value : BitVec 32) : PlainRegister → NxpUartState
  | .rsr => { s with rsr := 0 }
  | .ilpr => { s with ilpr := value }
  | .ibrd => { s with ibrd := value &&& ibrdMask }
  | .fbrd => { s with fbrd := value &&& fbrdMask }
  | .ifl => nxpUartSetReadTrigger { s with ifl := value }
  | .dmacr => { s with dmacr := value }

def applyOp (s : NxpUartState) : UartOp → NxpUartState
  | .put word => nxpUartFifoRxPut s word
  | .get => (nxpUartReadRxdata s).2
  | .clear => nxpUartResetTxFifo (nxpUartResetRxFifo s)
  | .transmit out => { s with chr := s.chr ++ [out] }
  | .raiseTx => nxpUartUpdate { s with intLevel := s.intLevel ||| intTx }
  | .setLcr value => nxpUartSetReadTrigger { s with lcr := value }
  | .setCr value => nxpUartLoopbackMdmctrl { s with cr := value }
  | .setEnabled value => nxpUartUpdate { s with intEnabled := value }
  | .clearLevel value => nxpUartUpdate { s with intLevel := s.intLevel &&& ~~~value }
  | .store r value => storePlain s value r
  | .reset => nxpUartReset s

/-- The operations of a write to the data register. -/
def txOps (s : NxpUartState) (data : UInt8) : List UartOp :=
  .transmit (.byte data) ::
    (if nxpUartLoopbackEnabled s then [.put (rxWord data)] else []) ++ [.raiseTx]

/-- The operations of a write to the line control register. -/
def lcrOps (s : NxpUartState) (value : BitVec 32) : List UartOp :=
  (if ChangesFifoMode s value then [.clear] else []) ++
    (if (s.lcr ^^^ value) &&& lcrBrk ≠ 0 then
      .transmit (.setBreak (value &&& lcrBrk != 0)) ::
        (if LoopsBreak s value then [.put drBe] else [])
    else []) ++ [.setLcr value]

/-- The operations an input consists of. -/
def uartOps (s : NxpUartState) : UartInput → List UartOp
  | .read offset => if offset / 4 = 0 then [.get] else []
  | .write offset value =>
      match offset / 4 with
      | 0 => txOps s (.ofBitVec (value.setWidth 8))
      | 1 => [.store .rsr value]
      | 8 => [.store .ilpr value]
      | 9 => [.store .ibrd value]
      | 10 => [.store .fbrd value]
      | 11 => lcrOps s value
      | 12 => [.setCr value]
      | 13 => [.store .ifl value]
      | 14 => [.setEnabled value]
      | 17 => [.clearLevel value]
      | 18 => [.store .dmacr value]
      | _ => []
  | .receive buf => if nxpUartLoopbackEnabled s then [] else buf.map fun b => .put (rxWord b)
  | .event e => if e = .break ∧ ¬ nxpUartLoopbackEnabled s then [.put drBe] else []
  | .reset => [.reset]

theorem run_txOps (s : NxpUartState) (data : UInt8) :
    Runs.run applyOp s (txOps s data) = nxpUartWriteTxdata s data := by
  rw [txOps, nxpUartWriteTxdata, nxpUartLoopbackTx]
  have hloop : nxpUartLoopbackEnabled { s with chr := s.chr ++ [.byte data] } =
      nxpUartLoopbackEnabled s := rfl
  simp only [hloop]
  by_cases h : nxpUartLoopbackEnabled s <;> simp [h, applyOp, rxWord]

theorem run_lcrOps (s : NxpUartState) (value : BitVec 32) :
    Runs.run applyOp s (lcrOps s value) = nxpUartWriteLcr s value := by
  unfold nxpUartWriteLcr lcrOps
  extract_lets changed emptied breakEnable noted broken
  have hemptied :
      Runs.run applyOp s (if ChangesFifoMode s value then [.clear] else []) = emptied := by
    show _ = if ChangesFifoMode s value then nxpUartResetTxFifo (nxpUartResetRxFifo s) else s
    split <;> rfl
  have hloop : nxpUartLoopbackEnabled noted = nxpUartLoopbackEnabled s := by
    show nxpUartLoopbackEnabled (if ChangesFifoMode s value then _ else s) = _
    split <;> rfl
  have hbroken : Runs.run applyOp emptied (if (s.lcr ^^^ value) &&& lcrBrk ≠ 0 then
      .transmit (.setBreak (value &&& lcrBrk != 0)) ::
        (if LoopsBreak s value then [.put drBe] else []) else []) = broken := by
    show _ = if changed &&& lcrBrk ≠ 0 then nxpUartLoopbackBreak noted breakEnable else emptied
    by_cases hchange : changed &&& lcrBrk ≠ 0
    · rw [if_pos hchange, if_pos hchange, Runs.run_cons, nxpUartLoopbackBreak, nxpUartLoopbackTx,
        hloop]
      show Runs.run applyOp noted _ = _
      by_cases hvalue : breakEnable ≠ 0
      · by_cases hback : nxpUartLoopbackEnabled s
        · rw [if_pos ⟨hchange, hvalue, hback⟩, if_pos hvalue, if_pos hback]
          rfl
        · rw [if_neg fun h => hback h.2.2, if_pos hvalue, if_neg hback]
          rfl
      · rw [if_neg fun h => hvalue h.2.1, if_neg hvalue]
        rfl
    · rw [if_neg hchange, if_neg hchange]
      rfl
  rw [Runs.run_append, Runs.run_append, hemptied, hbroken]
  rfl

theorem run_putOps (s : NxpUartState) (buf : List UInt8) :
    Runs.run applyOp s (buf.map fun b => .put (rxWord b)) =
      buf.foldl (fun s b => nxpUartFifoRxPut s (rxWord b)) s := by
  induction buf generalizing s with
  | nil => rfl
  | cons b buf ih => exact ih _

/-- An input does what its operations do. -/
theorem run_uartOps (s : NxpUartState) (i : UartInput) :
    Runs.run applyOp s (uartOps s i) = uartStep s i := by
  cases i with
  | read offset =>
      rw [uartOps, uartStep]
      split
      · next hdata => rw [read_data s hdata]; rfl
      · next hdata => rw [read_other s hdata]; rfl
  | write offset value =>
      simp only [uartStep, uartOps, nxpUartWrite]
      generalize offset / 4 = register
      split
      case h_1 => exact run_txOps s _
      case h_6 => exact run_lcrOps s value
      case h_12 => split <;> first | contradiction | rfl
      all_goals rfl
  | receive buf =>
      rw [uartOps, uartStep, nxpUartReceive]
      split
      · rfl
      · exact run_putOps s buf
  | event e =>
      rw [uartOps, uartStep, nxpUartEvent]
      split <;> rfl
  | reset => rfl

/-- A received word is a byte or the break marker. -/
def RxWord (word : BitVec 32) : Prop := word.toNat < 256 ∨ word = drBe

theorem isRxWord_byte (b : UInt8) : RxWord (rxWord b) := by
  refine .inl ?_
  have hb : (rxWord b).toNat = b.toNat := by
    simp [rxWord]
  rw [hb]
  exact b.toNat_lt

/-- What is known of an operation of an input. -/
def UartInput.Emits (i : UartInput) : UartOp → Prop
  | .put word => RxWord word
  | .get => ∃ offset, i = .read offset
  | .clear => ∃ offset value, i = .write offset value ∧ offset / 4 = 11
  | .clearLevel value => ∃ offset, i = .write offset value ∧ offset / 4 = 17
  | .reset => i = .reset
  | _ => True

theorem emits_of_mem {s : NxpUartState} {i : UartInput} {op : UartOp} (h : op ∈ uartOps s i) :
    i.Emits op := by
  cases i with
  | read offset =>
      simp only [uartOps] at h
      split at h <;> simp at h
      subst h
      exact ⟨offset, rfl⟩
  | write offset value =>
      simp only [uartOps] at h
      split at h
      case h_1 =>
        simp only [txOps, List.cons_append, List.mem_cons, List.mem_append, List.not_mem_nil,
          List.mem_ite_nil_right, or_false] at h
        rcases h with rfl | ⟨-, rfl⟩ | rfl
        · trivial
        · exact isRxWord_byte _
        · trivial
      case h_6 hlcr =>
        simp only [lcrOps, List.mem_append, List.mem_cons, List.not_mem_nil,
          List.mem_ite_nil_right, or_false] at h
        rcases h with (⟨-, rfl⟩ | ⟨-, rfl | ⟨-, rfl⟩⟩) | rfl
        · exact ⟨offset, value, rfl, hlcr⟩
        · trivial
        · exact .inr rfl
        · trivial
      case h_10 hicr =>
        obtain rfl := List.mem_singleton.mp h
        exact ⟨offset, rfl, hicr⟩
      case h_12 => cases h
      all_goals
        obtain rfl := List.mem_singleton.mp h
        trivial
  | receive buf =>
      simp only [uartOps] at h
      split at h
      · cases h
      · obtain ⟨b, -, rfl⟩ := List.mem_map.mp h
        exact isRxWord_byte b
  | event e =>
      simp only [uartOps] at h
      split at h <;> simp at h
      subst h
      exact .inr rfl
  | reset =>
      obtain rfl := List.mem_singleton.mp h
      rfl

/-- A property that the operations of an input keep is kept by the input. -/
theorem step_of_ops {P : NxpUartState → Prop} {ok : UartOp → Prop}
    (kept : ∀ s op, P s → ok op → P (applyOp s op)) {s : NxpUartState} {i : UartInput}
    (hops : ∀ op ∈ uartOps s i, ok op) (h : P s) : P (uartStep s i) := by
  rw [← run_uartOps]
  exact Runs.run_along kept s _ h (Runs.along_of_forall fun _ op => hops op)

theorem getLsbD_clear (x : BitVec 32) {i j : Nat} (h : i ≠ j) :
    (x &&& ~~~BitVec.twoPow 32 j).getLsbD i = x.getLsbD i := by
  by_cases hi : i < 32
  · simp [hi, h]
  · simp [BitVec.getLsbD_of_ge x i (by omega)]

theorem getLsbD_set (x : BitVec 32) {i j : Nat} (h : i ≠ j) :
    (x ||| BitVec.twoPow 32 j).getLsbD i = x.getLsbD i := by
  simp [Ne.symm h]

theorem rxfe_eq_twoPow : nxpUartFlagRxfe = BitVec.twoPow 32 4 := by decide

theorem rxff_eq_twoPow : nxpUartFlagRxff = BitVec.twoPow 32 6 := by decide

theorem txff_eq_twoPow : nxpUartFlagTxff = BitVec.twoPow 32 5 := by decide

theorem txfe_eq_twoPow : nxpUartFlagTxfe = BitVec.twoPow 32 7 := by decide

theorem flags_fifoRxPut (s : NxpUartState) (word : BitVec 32) {i : Nat} (h4 : i ≠ 4)
    (h6 : i ≠ 6) : (nxpUartFifoRxPut s word).flags.getLsbD i = s.flags.getLsbD i := by
  simp only [nxpUartFifoRxPut, rxfe_eq_twoPow, rxff_eq_twoPow]
  split_ifs <;> simp only [nxpUartUpdate, getLsbD_set _ h6, getLsbD_clear _ h4]

theorem flags_readRxdata (s : NxpUartState) {i : Nat} (h4 : i ≠ 4) (h6 : i ≠ 6) :
    (nxpUartReadRxdata s).2.flags.getLsbD i = s.flags.getLsbD i := by
  simp only [nxpUartReadRxdata, rxfe_eq_twoPow, rxff_eq_twoPow]
  split_ifs <;> simp only [nxpUartUpdate, getLsbD_set _ h4, getLsbD_clear _ h6]

theorem flags_clear (s : NxpUartState) {i : Nat} (h : i ∉ [4, 5, 6, 7]) :
    (nxpUartResetTxFifo (nxpUartResetRxFifo s)).flags.getLsbD i = s.flags.getLsbD i := by
  simp only [List.mem_cons, List.not_mem_nil, or_false, not_or] at h
  obtain ⟨h4, h5, h6, h7⟩ := h
  simp only [nxpUartResetTxFifo, nxpUartResetRxFifo, rxfe_eq_twoPow, rxff_eq_twoPow,
    txfe_eq_twoPow, txff_eq_twoPow, getLsbD_set _ h7, getLsbD_clear _ h5, getLsbD_set _ h4,
    getLsbD_clear _ h6]

theorem txFlags_clear (s : NxpUartState) :
    (nxpUartResetTxFifo s).flags.getLsbD 5 = false ∧
      (nxpUartResetTxFifo s).flags.getLsbD 7 = true := by
  simp [nxpUartResetTxFifo, nxpUartFlagTxff, nxpUartFlagTxfe]

/-- The modem flags. -/
def modemFlags : BitVec 32 :=
  nxpUartFlagRi ||| nxpUartFlagDcd ||| nxpUartFlagDsr ||| nxpUartFlagCts

theorem getLsbD_and_not {m : BitVec 32} {i : Nat} (h : m.getLsbD i = false) (x : BitVec 32) :
    (x &&& ~~~m).getLsbD i = x.getLsbD i := by
  rw [BitVec.getLsbD_and, BitVec.getLsbD_not, h]
  by_cases hi : i < 32
  · simp [hi]
  · simp [BitVec.getLsbD_of_ge x i (by omega)]

theorem flags_mdmctrl (s : NxpUartState) {i : Nat} (h : modemFlags.getLsbD i = false) :
    (nxpUartLoopbackMdmctrl s).flags.getLsbD i = s.flags.getLsbD i := by
  have hclear := getLsbD_and_not h
  simp only [modemFlags, BitVec.getLsbD_or, Bool.or_eq_false_iff] at h hclear
  obtain ⟨⟨⟨hri, hdcd⟩, hdsr⟩, hcts⟩ := h
  simp only [nxpUartLoopbackMdmctrl]
  split
  · simp only [nxpUartUpdate, getLsbD_or_ite hdsr, getLsbD_or_ite hcts, getLsbD_or_ite hdcd,
      getLsbD_or_ite hri]
    exact hclear s.flags
  · rfl

/-- In loopback the modem flags show the modem outputs of the control register. -/
structure ModemMirrors (flags cr : BitVec 32) : Prop where
  ri : flags.getLsbD 8 = cr.getLsbD 13
  dcd : flags.getLsbD 2 = cr.getLsbD 12
  cts : flags.getLsbD 0 = cr.getLsbD 11
  dsr : flags.getLsbD 1 = cr.getLsbD 10

structure RegisterInvariant (s : NxpUartState) : Prop where
  busy : s.flags.getLsbD 3 = false
  txff : s.flags.getLsbD 5 = false
  txfe : s.flags.getLsbD 7 = true
  trigger : s.readTrigger = 1
  ibrd : s.ibrd &&& ibrdMask = s.ibrd
  fbrd : s.fbrd &&& fbrdMask = s.fbrd
  words : ∀ k, RxWord (s.readFifo k)
  rsr : s.rsr = 0 ∨ s.rsr = 4
  level : s.intLevel &&& (intE ||| intRt) = 0
  lines : s.irq[3]? ≠ some true ∧ s.irq[5]? ≠ some true
  modem : nxpUartLoopbackEnabled s → ModemMirrors s.flags s.cr

theorem or_and_eq_zero {x y m : BitVec 32} (hx : x &&& m = 0) (hy : y &&& m = 0) :
    (x ||| y) &&& m = 0 := by
  rw [BitVec.and_or_distrib_right, hx, hy]
  rfl

theorem and_and_eq_zero {x m : BitVec 32} (hx : x &&& m = 0) (y : BitVec 32) :
    x &&& y &&& m = 0 := by
  rw [BitVec.and_assoc, BitVec.and_comm y, ← BitVec.and_assoc, hx]
  simp

/-- Lines that no raised interrupt drives stay low. -/
theorem lines_update {s : NxpUartState} (h : s.intLevel &&& (intE ||| intRt) = 0) :
    (nxpUartUpdate s).irq[3]? ≠ some true ∧ (nxpUartUpdate s).irq[5]? ≠ some true := by
  have hmask {m : BitVec 32} (hm : m &&& (intE ||| intRt) = m) :
      s.intLevel &&& s.intEnabled &&& m = 0 := by
    rw [← hm, BitVec.and_comm m, ← BitVec.and_assoc, and_and_eq_zero h s.intEnabled]
    simp
  constructor
  · simp [nxpUartUpdate, irqmask, hmask (m := intRt) (by decide)]
  · simp [nxpUartUpdate, irqmask, hmask (m := intE) (by decide)]

section Put
variable (s : NxpUartState) (word : BitVec 32)

/-- What a put leaves alone. -/
theorem fifoRxPut_frame : nxpUartFifoRxPut s word =
    { s with
      readFifo := (nxpUartFifoRxPut s word).readFifo
      readCount := (nxpUartFifoRxPut s word).readCount
      flags := (nxpUartFifoRxPut s word).flags
      intLevel := (nxpUartFifoRxPut s word).intLevel
      irq := (nxpUartFifoRxPut s word).irq } := by
  simp only [nxpUartFifoRxPut]
  split_ifs <;> rfl

@[simp] theorem lcr_fifoRxPut : (nxpUartFifoRxPut s word).lcr = s.lcr := by
  rw [fifoRxPut_frame]

@[simp] theorem cr_fifoRxPut : (nxpUartFifoRxPut s word).cr = s.cr := by
  rw [fifoRxPut_frame]

@[simp] theorem chr_fifoRxPut : (nxpUartFifoRxPut s word).chr = s.chr := by
  rw [fifoRxPut_frame]

@[simp] theorem readTrigger_fifoRxPut :
    (nxpUartFifoRxPut s word).readTrigger = s.readTrigger := by
  rw [fifoRxPut_frame]

theorem readFifo_fifoRxPut : (nxpUartFifoRxPut s word).readFifo =
    Function.update s.readFifo ((s.readPos + s.readCount) % nxpUartGetFifoDepth s) word :=
  congrArg Fifo.cells (rx_fifoRxPut s word)

theorem intLevel_fifoRxPut : (nxpUartFifoRxPut s word).intLevel =
    if s.readCount + 1 = s.readTrigger then s.intLevel ||| intRx else s.intLevel := by
  simp only [nxpUartFifoRxPut]
  split_ifs <;> simp_all [nxpUartUpdate]

/-- The lines are driven when the level changes. -/
theorem irq_fifoRxPut : (nxpUartFifoRxPut s word).irq =
    if s.readCount + 1 = s.readTrigger then (nxpUartUpdate (nxpUartFifoRxPut s word)).irq
    else s.irq := by
  simp only [nxpUartFifoRxPut]
  split_ifs <;> simp_all [nxpUartUpdate]

end Put

section Get
variable (s : NxpUartState)

/-- What a read of the data register leaves alone. -/
theorem readRxdata_frame : (nxpUartReadRxdata s).2 =
    { s with
      readPos := (nxpUartReadRxdata s).2.readPos
      readCount := (nxpUartReadRxdata s).2.readCount
      flags := (nxpUartReadRxdata s).2.flags
      intLevel := (nxpUartReadRxdata s).2.intLevel
      irq := (nxpUartReadRxdata s).2.irq
      rsr := s.readFifo s.readPos >>> 8 } := by
  simp only [nxpUartReadRxdata]
  split_ifs <;> rfl

@[simp] theorem lcr_readRxdata : (nxpUartReadRxdata s).2.lcr = s.lcr := by
  rw [readRxdata_frame]

@[simp] theorem cr_readRxdata : (nxpUartReadRxdata s).2.cr = s.cr := by
  rw [readRxdata_frame]

@[simp] theorem chr_readRxdata : (nxpUartReadRxdata s).2.chr = s.chr := by
  rw [readRxdata_frame]

@[simp] theorem readTrigger_readRxdata :
    (nxpUartReadRxdata s).2.readTrigger = s.readTrigger := by
  rw [readRxdata_frame]

theorem intLevel_readRxdata : (nxpUartReadRxdata s).2.intLevel =
    if s.readCount - 1 + 1 = s.readTrigger then s.intLevel &&& ~~~intRx else s.intLevel := by
  simp only [nxpUartReadRxdata]
  split_ifs <;> simp_all [nxpUartUpdate]

theorem irq_readRxdata :
    (nxpUartReadRxdata s).2.irq = (nxpUartUpdate (nxpUartReadRxdata s).2).irq := by
  simp only [nxpUartReadRxdata]
  split_ifs <;> rfl

end Get

theorem getLsbD_or_ite_self {mask : BitVec 32} {i : Nat} (h : mask.getLsbD i = true)
    (x : BitVec 32) (c : Prop) [Decidable c] :
    (x ||| if c then mask else 0).getLsbD i = (x.getLsbD i || decide c) := by
  split <;> simp [*]

/-- Each of the modem flags is set from its own output. -/
theorem modemMirrors_mdmctrl {s : NxpUartState} (h : nxpUartLoopbackEnabled s) :
    ModemMirrors (nxpUartLoopbackMdmctrl s).flags s.cr := by
  have hout {i : Nat} {m : BitVec 32} (hm : m = BitVec.twoPow 32 i) (hi : i < 32) :
      decide (s.cr &&& m ≠ 0) = s.cr.getLsbD i := by
    rw [← and_twoPow_bne_zero s.cr hi, hm, Bool.eq_iff_iff, decide_eq_true_iff, bne_iff_ne]
  have hclear {i : Nat} (hi : modemFlags.getLsbD i = true) :
      (s.flags &&& ~~~modemFlags).getLsbD i = false := by
    simp [hi]
  simp only [modemFlags] at hclear
  rw [nxpUartLoopbackMdmctrl, if_pos h]
  constructor <;> simp (disch := decide) only [nxpUartUpdate, getLsbD_or_ite, getLsbD_or_ite_self,
    hclear, Bool.false_or]
  · exact hout (i := 13) (by decide) (by decide)
  · exact hout (i := 12) (by decide) (by decide)
  · exact hout (i := 11) (by decide) (by decide)
  · exact hout (i := 10) (by decide) (by decide)

theorem level_mdmctrl {s : NxpUartState} (h : s.intLevel &&& (intE ||| intRt) = 0) :
    (nxpUartLoopbackMdmctrl s).intLevel &&& (intE ||| intRt) = 0 := by
  have hite (c : Prop) [Decidable c] {m : BitVec 32} (hm : m &&& (intE ||| intRt) = 0) :
      (if c then m else 0) &&& (intE ||| intRt) = 0 := by
    split
    · exact hm
    · rfl
  simp only [nxpUartLoopbackMdmctrl]
  split
  · refine or_and_eq_zero (or_and_eq_zero (or_and_eq_zero (or_and_eq_zero ?_ ?_) ?_) ?_) ?_
    · exact and_and_eq_zero h _
    all_goals exact hite _ (by decide)
  · exact h

namespace RegisterInvariant
variable {s : NxpUartState}

/-- The modem flags survive what leaves them and the control register alone. -/
theorem modem_of_eq (h : RegisterInvariant s) {t : NxpUartState} (hcr : t.cr = s.cr)
    (hflag : ∀ i, i ≠ 4 → i ≠ 6 → t.flags.getLsbD i = s.flags.getLsbD i)
    (hloop : nxpUartLoopbackEnabled t) : ModemMirrors t.flags t.cr := by
  rw [nxpUartLoopbackEnabled, hcr] at hloop
  obtain ⟨hri, hdcd, hcts, hdsr⟩ := h.modem hloop
  constructor <;> rw [hcr, hflag _ (by decide) (by decide)] <;> assumption

theorem put (h : RegisterInvariant s) {word : BitVec 32} (hword : RxWord word) :
    RegisterInvariant (nxpUartFifoRxPut s word) := by
  have hflag (i : Nat) (h4 : i ≠ 4) (h6 : i ≠ 6) := flags_fifoRxPut s word h4 h6
  have hlevel : (nxpUartFifoRxPut s word).intLevel &&& (intE ||| intRt) = 0 := by
    rw [intLevel_fifoRxPut]
    split
    · exact or_and_eq_zero h.level (by decide)
    · exact h.level
  exact {
    busy := (hflag 3 (by decide) (by decide)).trans h.busy
    txff := (hflag 5 (by decide) (by decide)).trans h.txff
    txfe := (hflag 7 (by decide) (by decide)).trans h.txfe
    trigger := (readTrigger_fifoRxPut s word).trans h.trigger
    ibrd := by
      rw [fifoRxPut_frame]
      exact h.ibrd
    fbrd := by
      rw [fifoRxPut_frame]
      exact h.fbrd
    words := by
      intro k
      rw [readFifo_fifoRxPut, Function.update_apply]
      split
      · exact hword
      · exact h.words k
    rsr := by
      rw [fifoRxPut_frame]
      exact h.rsr
    level := hlevel
    lines := by
      rw [irq_fifoRxPut]
      split
      · exact lines_update hlevel
      · exact h.lines
    modem := h.modem_of_eq (cr_fifoRxPut s word) hflag }

/-- The bits behind a byte are those of a break. -/
theorem rsr_of_word {word : BitVec 32} (h : RxWord word) : word >>> 8 = 0 ∨ word >>> 8 = 4 := by
  rcases h with hbyte | rfl
  · left
    apply BitVec.eq_of_toNat_eq
    rw [BitVec.toNat_ushiftRight, Nat.shiftRight_eq_div_pow, Nat.div_eq_of_lt (by simpa)]
    rfl
  · right
    decide

theorem get (h : RegisterInvariant s) : RegisterInvariant (nxpUartReadRxdata s).2 := by
  have hflag (i : Nat) (h4 : i ≠ 4) (h6 : i ≠ 6) := flags_readRxdata s h4 h6
  have hlevel : (nxpUartReadRxdata s).2.intLevel &&& (intE ||| intRt) = 0 := by
    rw [intLevel_readRxdata]
    split
    · exact and_and_eq_zero h.level _
    · exact h.level
  exact {
    busy := (hflag 3 (by decide) (by decide)).trans h.busy
    txff := (hflag 5 (by decide) (by decide)).trans h.txff
    txfe := (hflag 7 (by decide) (by decide)).trans h.txfe
    trigger := (readTrigger_readRxdata s).trans h.trigger
    ibrd := by
      rw [readRxdata_frame]
      exact h.ibrd
    fbrd := by
      rw [readRxdata_frame]
      exact h.fbrd
    words := by
      rw [readRxdata_frame]
      exact h.words
    rsr := by
      rw [readRxdata_frame]
      exact rsr_of_word (h.words s.readPos)
    level := hlevel
    lines := by
      rw [irq_readRxdata]
      exact lines_update hlevel
    modem := h.modem_of_eq (cr_readRxdata s) hflag }

theorem clear (h : RegisterInvariant s) :
    RegisterInvariant (nxpUartResetTxFifo (nxpUartResetRxFifo s)) := by
  have htx := txFlags_clear (nxpUartResetRxFifo s)
  have hflag (i : Nat) (hi : i ∉ [4, 5, 6, 7]) := flags_clear s hi
  exact {
    h with
    busy := (hflag 3 (by decide)).trans h.busy
    txff := htx.1
    txfe := htx.2
    modem := by
      intro hloop
      obtain ⟨hri, hdcd, hcts, hdsr⟩ := h.modem hloop
      constructor <;> rw [hflag _ (by decide)] <;> assumption }

theorem setCr (h : RegisterInvariant s) (value : BitVec 32) :
    RegisterInvariant (nxpUartLoopbackMdmctrl { s with cr := value }) := by
  have hflag {i : Nat} (hi : modemFlags.getLsbD i = false) :=
    flags_mdmctrl { s with cr := value } hi
  have hlevel := level_mdmctrl (s := { s with cr := value }) h.level
  by_cases hloop : nxpUartLoopbackEnabled { s with cr := value }
  · have hmodem := modemMirrors_mdmctrl hloop
    have hbusy := (hflag (i := 3) (by decide)).trans h.busy
    have htxff := (hflag (i := 5) (by decide)).trans h.txff
    have htxfe := (hflag (i := 7) (by decide)).trans h.txfe
    rw [nxpUartLoopbackMdmctrl, if_pos hloop] at hlevel hmodem hbusy htxff htxfe ⊢
    exact {
      h with
      busy := hbusy
      txff := htxff
      txfe := htxfe
      level := hlevel
      lines := lines_update hlevel
      modem := fun _ => hmodem }
  · rw [nxpUartLoopbackMdmctrl, if_neg hloop]
    exact { h with modem := fun hon => absurd hon hloop }

theorem reset (hwords : ∀ k, RxWord (s.readFifo k))
    (hlines : s.irq[3]? ≠ some true ∧ s.irq[5]? ≠ some true) :
    RegisterInvariant (nxpUartReset s) := by
  have hloop : nxpUartLoopbackEnabled (nxpUartReset s) = false := by
    show ((0x300 : BitVec 32) &&& crLbe != 0) = false
    decide
  have hflag (i : Nat) (hi : i ∉ [4, 5, 6, 7]) : (nxpUartReset s).flags.getLsbD i = false := by
    rw [nxpUartReset, flags_clear _ hi, BitVec.ofNat_eq_ofNat, BitVec.getLsbD_zero]
  exact {
    busy := hflag 3 (by decide)
    txff := (txFlags_clear _).1
    txfe := (txFlags_clear _).2
    trigger := rfl
    ibrd := show (0 : BitVec 32) &&& ibrdMask = 0 by decide
    fbrd := show (0 : BitVec 32) &&& fbrdMask = 0 by decide
    words := hwords
    rsr := .inl rfl
    level := show (0 : BitVec 32) &&& (intE ||| intRt) = 0 by decide
    lines := hlines
    modem := by simp [hloop] }

theorem op (h : RegisterInvariant s) {i : UartInput} {op : UartOp} (hop : i.Emits op) :
    RegisterInvariant (applyOp s op) := by
  cases op with
  | put word => exact h.put hop
  | get => exact h.get
  | clear => exact h.clear
  | transmit out => exact { h with busy := h.busy }
  | setLcr value => exact { h with trigger := rfl }
  | raiseTx =>
      have hlevel : (s.intLevel ||| intTx) &&& (intE ||| intRt) = 0 :=
        or_and_eq_zero h.level (by decide)
      exact { h with level := hlevel, lines := lines_update hlevel }
  | setCr value => exact h.setCr value
  | setEnabled value => exact { h with lines := lines_update h.level }
  | clearLevel value =>
      have hlevel := and_and_eq_zero h.level (~~~value)
      exact { h with level := hlevel, lines := lines_update hlevel }
  | store r value =>
      cases r with
      | rsr => exact { h with rsr := .inl rfl }
      | ibrd =>
          exact { h with ibrd := by simp [applyOp, storePlain, BitVec.and_assoc] }
      | fbrd =>
          exact { h with fbrd := by simp [applyOp, storePlain, BitVec.and_assoc] }
      | ifl => exact { h with trigger := rfl }
      | ilpr | dmacr => exact { h with busy := h.busy }
  | reset => exact .reset h.words h.lines

end RegisterInvariant

theorem RegisterInvariant.step {s : NxpUartState} (h : RegisterInvariant s) (i : UartInput) :
    RegisterInvariant (uartStep s i) :=
  step_of_ops (fun _ _ h hop => h.op hop) (fun _ => emits_of_mem) h

theorem registerInvariant_powerOn : RegisterInvariant uartPowerOn :=
  .reset (fun _ => .inl (show (0 : BitVec 32).toNat < 256 by decide)) ⟨by decide, by decide⟩

/-- Whatever the guest and the host do, the transmitter looks idle, the receive
trigger and the baud rate fields keep to their range, the only receive error is a
break, and neither an error interrupt nor a receive timeout is ever raised. -/
theorem registerInvariant_run (inputs : List UartInput) :
    RegisterInvariant (Runs.run uartStep uartPowerOn inputs) :=
  Runs.run_invariant (P := RegisterInvariant) (fun _ i h => h.step i) uartPowerOn inputs
    registerInvariant_powerOn

end TpmEmulator
