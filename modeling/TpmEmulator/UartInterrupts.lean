import TpmEmulator.UartRegisters
import Mathlib.Tactic.Common

/-!
The interrupts of the UART over whole runs. The lines show the enabled interrupts
as long as no reset finds one of them high, since a reset clears the registers
and leaves the lines as they are. The receive interrupt shows that words wait as
long as it is not cleared while they do and no change of the FIFO mode drops them.
-/
namespace TpmEmulator

/-- What the lines are to show. -/
def irqLines (s : NxpUartState) : List Bool := (nxpUartUpdate s).irq

theorem irqLines_congr {s t : NxpUartState} (hlevel : s.intLevel = t.intLevel)
    (henabled : s.intEnabled = t.intEnabled) : irqLines s = irqLines t := by
  simp only [irqLines, nxpUartUpdate, hlevel, henabled]

theorem irqLines_reset (s : NxpUartState) :
    irqLines (nxpUartReset s) = List.replicate 6 false := by
  show irqmask.map (fun mask => (0 : BitVec 32) &&& 0 &&& mask != 0) = _
  decide

def LinesFollow (s : NxpUartState) : Prop := s.irq = irqLines s

/-- Every operation but the reset drives the lines when it changes what they show. -/
theorem LinesFollow.op {s : NxpUartState} (h : LinesFollow s) {op : UartOp} (hop : op ≠ .reset) :
    LinesFollow (applyOp s op) := by
  cases op with
  | put word =>
      show (nxpUartFifoRxPut s word).irq = irqLines (nxpUartFifoRxPut s word)
      rw [irq_fifoRxPut]
      split
      · rfl
      · next hbelow =>
          refine h.trans (irqLines_congr ?_ ?_)
          · rw [intLevel_fifoRxPut, if_neg hbelow]
          · rw [fifoRxPut_frame]
  | get => exact irq_readRxdata s
  | setCr value =>
      show (nxpUartLoopbackMdmctrl { s with cr := value }).irq = _
      simp only [applyOp, nxpUartLoopbackMdmctrl]
      split
      · rfl
      · exact h
  | store r value => cases r <;> exact h
  | clear | transmit _ | setLcr _ => exact h
  | raiseTx | setEnabled _ | clearLevel _ => rfl
  | reset => exact absurd rfl hop

theorem linesFollow_step_iff {s : NxpUartState} (h : LinesFollow s) (i : UartInput) :
    LinesFollow (uartStep s i) ↔ (i = .reset → true ∉ s.irq) := by
  by_cases hi : i = .reset
  · subst hi
    have hkept : (nxpUartReset s).irq = s.irq := rfl
    have hlength : s.irq.length = 6 := by
      rw [show s.irq = irqLines s from h]
      rfl
    show (nxpUartReset s).irq = irqLines (nxpUartReset s) ↔ _
    rw [irqLines_reset, hkept, List.eq_replicate_iff]
    simp only [hlength, true_and, forall_const]
    constructor
    · intro hall hhigh
      exact absurd (hall true hhigh) (by decide)
    · intro hlow line hline
      cases line with
      | false => rfl
      | true => exact absurd hline hlow
  · refine iff_of_true ?_ fun heq => absurd heq hi
    refine step_of_ops (fun s op h hop => h.op hop) (fun op hmem heq => ?_) h
    subst heq
    exact hi (emits_of_mem hmem)

/-- From a device whose lines are low, the lines show the enabled interrupts
throughout exactly when no reset finds one of them high. -/
theorem linesFollow_iff_no_reset_high (s : NxpUartState) (inputs : List UartInput)
    (hlow : s.irq = List.replicate 6 false) :
    (∀ before after, inputs = before ++ after →
      LinesFollow (Runs.run uartStep (nxpUartReset s) before)) ↔
    Runs.Along uartStep (fun t i => i = .reset → true ∉ t.irq) (nxpUartReset s) inputs := by
  have hstart : LinesFollow (nxpUartReset s) := hlow.trans (irqLines_reset s).symm
  exact Runs.forall_run_iff (P := LinesFollow) (fun _ i h => linesFollow_step_iff h i) _ inputs
    hstart

/-- The receive interrupt is enabled and a byte raises its line. Read first, the
byte lets the line fall before the reset. -/
theorem linesFollow_reset :
    let s := nxpUartReset uartPowerOn
    (∀ before after, [.write 0x38 0x10, .receive [0x41], .read 0, .reset] = before ++ after →
      LinesFollow (Runs.run uartStep s before)) ∧
    ¬ ∀ before after, [.write 0x38 0x10, .receive [0x41], .reset] = before ++ after →
      LinesFollow (Runs.run uartStep s before) :=
  ⟨(linesFollow_iff_no_reset_high _ _ rfl).mpr (by decide +kernel),
    fun h => absurd ((linesFollow_iff_no_reset_high _ _ rfl).mp h) (by decide +kernel)⟩

/-- The raw receive interrupt is set exactly while words wait in the FIFO. -/
structure RxPending (s : NxpUartState) : Prop where
  trigger : s.readTrigger = 1
  pending : s.intLevel.getLsbD 4 = true ↔ 0 < s.readCount

theorem intRx_eq_twoPow : intRx = BitVec.twoPow 32 4 := by decide

theorem readCount_fifoRxPut (s : NxpUartState) (word : BitVec 32) :
    (nxpUartFifoRxPut s word).readCount = s.readCount + 1 :=
  congrArg RingBuffer.Fifo.count (rx_fifoRxPut s word)

theorem readCount_readRxdata (s : NxpUartState) :
    (nxpUartReadRxdata s).2.readCount = s.readCount - 1 :=
  congrArg RingBuffer.Fifo.count (rx_readRxdata s)

/-- A word in the FIFO sets the interrupt, whatever was there before. -/
theorem rxPending_put {s : NxpUartState} (htrigger : s.readTrigger = 1)
    (h : 0 < s.readCount → s.intLevel.getLsbD 4 = true) (word : BitVec 32) :
    RxPending (nxpUartFifoRxPut s word) := by
  refine ⟨(readTrigger_fifoRxPut s word).trans htrigger, ?_⟩
  rw [readCount_fifoRxPut, intLevel_fifoRxPut, htrigger]
  refine iff_of_true ?_ (Nat.succ_pos _)
  by_cases hzero : s.readCount = 0
  · simp [hzero, intRx_eq_twoPow]
  · rw [if_neg (by omega)]
    exact h (Nat.pos_of_ne_zero hzero)

theorem RxPending.get {s : NxpUartState} (h : RxPending s) : RxPending (nxpUartReadRxdata s).2 := by
  refine ⟨(readTrigger_readRxdata s).trans h.trigger, ?_⟩
  have hpending := h.pending
  rw [readCount_readRxdata, intLevel_readRxdata, h.trigger]
  by_cases hlast : s.readCount ≤ 1
  · rw [if_pos (by omega), intRx_eq_twoPow]
    refine iff_of_false ?_ (by omega)
    simp
  · rw [if_neg (by omega), hpending]
    omega

/-- Looping the modem outputs back touches the modem interrupts only. -/
theorem rxLevel_mdmctrl (s : NxpUartState) :
    (nxpUartLoopbackMdmctrl s).intLevel.getLsbD 4 = s.intLevel.getLsbD 4 := by
  have hclear := getLsbD_and_not (m := intDsr ||| intDcd ||| intCts ||| intRi) (i := 4) (by decide)
  simp only [nxpUartLoopbackMdmctrl]
  split
  · simp (disch := decide) only [nxpUartUpdate, getLsbD_or_ite, hclear]
  · rfl

theorem mdmctrl_frame (s : NxpUartState) : nxpUartLoopbackMdmctrl s =
    { s with
      flags := (nxpUartLoopbackMdmctrl s).flags
      intLevel := (nxpUartLoopbackMdmctrl s).intLevel
      irq := (nxpUartLoopbackMdmctrl s).irq } := by
  simp only [nxpUartLoopbackMdmctrl]
  split <;> rfl

/-- The operations that may part the interrupt from the words in the FIFO. -/
def Parts : UartOp → Prop
  | .clear | .clearLevel _ => True
  | _ => False

theorem rxPending_reset (s : NxpUartState) : RxPending (nxpUartReset s) := by
  refine ⟨rfl, iff_of_false ?_ (Nat.lt_irrefl 0)⟩
  show ¬ (0 : BitVec 32).getLsbD 4 = true
  decide

theorem RxPending.op {s : NxpUartState} (h : RxPending s) {op : UartOp} (hop : ¬ Parts op) :
    RxPending (applyOp s op) := by
  cases op with
  | put word => exact rxPending_put h.trigger h.pending.mpr word
  | get => exact h.get
  | raiseTx =>
      refine ⟨h.trigger, ?_⟩
      show (s.intLevel ||| intTx).getLsbD 4 = true ↔ _
      rw [show intTx = BitVec.twoPow 32 5 by decide, getLsbD_set _ (by decide)]
      exact h.pending
  | setCr value =>
      have hlevel := rxLevel_mdmctrl { s with cr := value }
      show RxPending (nxpUartLoopbackMdmctrl { s with cr := value })
      rw [mdmctrl_frame]
      exact ⟨h.trigger, by rw [hlevel]; exact h.pending⟩
  | store r value => cases r <;> exact ⟨by first | rfl | exact h.trigger, h.pending⟩
  | transmit _ | setEnabled _ => exact ⟨h.trigger, h.pending⟩
  | setLcr _ => exact ⟨rfl, h.pending⟩
  | reset => exact rxPending_reset s
  | clear | clearLevel _ => exact absurd trivial hop

/-- What parts the interrupt from the words in the FIFO: clearing it while words
wait, and dropping the words without a break in their place. -/
def PartsRx (s : NxpUartState) : UartInput → Prop
  | .write offset value =>
      0 < s.readCount ∧
        ((offset / 4 = 17 ∧ value.getLsbD 4 = true) ∨
          (offset / 4 = 11 ∧ ChangesFifoMode s value ∧ ¬ LoopsBreak s value))
  | .read _ | .receive _ | .event _ | .reset => False

instance PartsRx.decidable (s : NxpUartState) : (i : UartInput) → Decidable (PartsRx s i)
  | .write _ _ => inferInstanceAs (Decidable (_ ∧ (_ ∨ _)))
  | .read _ | .receive _ | .event _ | .reset => .isFalse not_false

theorem rxPending_clearLevel_iff {s : NxpUartState} (h : RxPending s) (value : BitVec 32) :
    RxPending (applyOp s (.clearLevel value)) ↔ ¬ (0 < s.readCount ∧ value.getLsbD 4 = true) := by
  have hlevel : (applyOp s (.clearLevel value)).intLevel.getLsbD 4 =
      (s.intLevel.getLsbD 4 && !value.getLsbD 4) := by
    simp [applyOp, nxpUartUpdate]
  have hiff : RxPending (applyOp s (.clearLevel value)) ↔
      ((s.intLevel.getLsbD 4 && !value.getLsbD 4) = true ↔ 0 < s.readCount) :=
    ⟨fun hcleared => hlevel ▸ hcleared.pending, fun hcleared => ⟨h.trigger, hlevel ▸ hcleared⟩⟩
  rw [hiff, ← h.pending]
  cases s.intLevel.getLsbD 4 <;> cases value.getLsbD 4 <;> decide

/-- Emptying the FIFO leaves the interrupt as it is. -/
theorem rxPending_clear_iff {s : NxpUartState} (h : RxPending s) :
    RxPending (applyOp s .clear) ↔ s.readCount = 0 := by
  constructor
  · intro hcleared
    have hlow : ¬ s.intLevel.getLsbD 4 = true := fun hset =>
      absurd (hcleared.pending.mp hset) (Nat.lt_irrefl 0)
    rw [h.pending] at hlow
    omega
  · intro hzero
    refine ⟨h.trigger, iff_of_false ?_ (Nat.lt_irrefl 0)⟩
    show ¬ s.intLevel.getLsbD 4 = true
    rw [h.pending]
    omega

theorem rxPending_congr {s t : NxpUartState} (htrigger : s.readTrigger = t.readTrigger)
    (hlevel : s.intLevel = t.intLevel) (hcount : s.readCount = t.readCount) :
    RxPending s ↔ RxPending t := by
  constructor
  · rintro ⟨htrig, hpending⟩
    exact ⟨htrigger ▸ htrig, hlevel ▸ hcount ▸ hpending⟩
  · rintro ⟨htrig, hpending⟩
    exact ⟨htrigger ▸ htrig, hlevel ▸ hcount ▸ hpending⟩

/-- A break looped back stands for the words that a change of the mode drops. -/
theorem rxPending_lcr_iff {s : NxpUartState} (h : RxPending s) (value : BitVec 32) :
    RxPending (nxpUartWriteLcr s value) ↔
      ¬ (0 < s.readCount ∧ ChangesFifoMode s value ∧ ¬ LoopsBreak s value) := by
  rw [← run_lcrOps]
  by_cases hbreak : LoopsBreak s value
  · refine iff_of_true ?_ fun hdropped => hdropped.2.2 hbreak
    simp only [lcrOps, if_pos hbreak, if_pos hbreak.1, Runs.run_append, Runs.run_cons,
      Runs.run_nil]
    refine RxPending.op (rxPending_put ?_ ?_ drBe) (show ¬ Parts (.setLcr value) from not_false)
    · split <;> exact h.trigger
    · split
      · exact fun hwait => absurd hwait (Nat.lt_irrefl 0)
      · exact h.pending.mpr
  · by_cases hmode : ChangesFifoMode s value
    · have hclear := rxPending_clear_iff h
      have hsame : RxPending (Runs.run applyOp s (lcrOps s value)) ↔
          RxPending (applyOp s .clear) := by
        simp only [lcrOps, if_pos hmode, if_neg hbreak, Runs.run_append]
        split <;> exact rxPending_congr h.trigger.symm rfl rfl
      rw [hsame, hclear]
      simp only [hmode, hbreak, not_false_eq_true, and_true]
      omega
    · refine iff_of_true ?_ fun hdropped => hmode hdropped.2.1
      simp only [lcrOps, if_neg hmode, if_neg hbreak, Runs.run_append]
      split <;> exact ⟨rfl, h.pending⟩

theorem RxPending.step {s : NxpUartState} (h : RxPending s) {i : UartInput}
    (hi : ∀ offset value, i = .write offset value → offset / 4 ≠ 11 ∧ offset / 4 ≠ 17) :
    RxPending (uartStep s i) := by
  refine step_of_ops (P := RxPending) (fun t op ht hop => ht.op hop) (fun op hmem hparts => ?_) h
  have hemits := emits_of_mem hmem
  cases op with
  | clear =>
      obtain ⟨offset, value, rfl, hlcr⟩ := hemits
      exact (hi offset value rfl).1 hlcr
  | clearLevel value =>
      obtain ⟨offset, rfl, hicr⟩ := hemits
      exact (hi offset value rfl).2 hicr
  | put _ | get | transmit _ | raiseTx | setLcr _ | setCr _ | setEnabled _ | store _ _ | reset =>
      exact hparts

theorem rxPending_step_iff {s : NxpUartState} (h : RxPending s) (i : UartInput) :
    RxPending (uartStep s i) ↔ ¬ PartsRx s i := by
  cases i with
  | write offset value =>
      by_cases hlcr : offset / 4 = 11
      · have hstep : uartStep s (.write offset value) = nxpUartWriteLcr s value := by
          simp only [uartStep, nxpUartWrite, hlcr]
        rw [hstep, rxPending_lcr_iff h, PartsRx]
        simp [hlcr]
      · by_cases hicr : offset / 4 = 17
        · have hstep : uartStep s (.write offset value) = applyOp s (.clearLevel value) := by
            simp only [uartStep, nxpUartWrite, hicr, applyOp]
          rw [hstep, rxPending_clearLevel_iff h, PartsRx]
          simp [hicr]
        · refine iff_of_true (h.step ?_) (by simp [PartsRx, hlcr, hicr])
          rintro _ _ ⟨rfl, rfl⟩
          exact ⟨hlcr, hicr⟩
  | read _ | receive _ | event _ | reset => exact iff_of_true (h.step (by simp)) not_false

/-- From reset on, the receive interrupt is set exactly while words wait, unless
it is cleared while they do or a change of the FIFO mode drops them. -/
theorem rxPending_iff_not_parted (s : NxpUartState) (inputs : List UartInput) :
    (∀ before after, inputs = before ++ after →
      RxPending (Runs.run uartStep (nxpUartReset s) before)) ↔
    Runs.Along uartStep (fun t i => ¬ PartsRx t i) (nxpUartReset s) inputs :=
  Runs.forall_run_iff (P := RxPending) (fun _ i h => rxPending_step_iff h i) _ inputs
    (rxPending_reset s)

end TpmEmulator
