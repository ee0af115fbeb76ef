import TpmEmulator.UartInterrupts
import TpmEmulator.UartReception
import TpmEmulator.Library.BigEndian
import Mathlib.Tactic.Common

/-!
Migration of the UART. The state is sent as a sequence of 32-bit words behind four
unused bytes, and the destination checks and repairs it after loading. The lines
and the character backend belong to the host and are not sent. The clock is a
subsection of its own and is left out.
-/
namespace TpmEmulator
open CellMemory BigEndian

/-- The fields in the order of the description. -/
def vmstateNxpUart (s : NxpUartState) : List Nat :=
  [s.flags.toNat, s.lcr.toNat, s.rsr.toNat, s.cr.toNat, s.dmacr.toNat, s.intEnabled.toNat,
    s.intLevel.toNat] ++
  (List.range nxpUartFifoDepth).map (fun k => (s.readFifo k).toNat) ++
  [s.ilpr.toNat, s.ibrd.toNat, s.fbrd.toNat, s.ifl.toNat, s.readPos, s.readCount, s.readTrigger]

def nxpUartSave (s : NxpUartState) : List UInt8 :=
  List.replicate 4 0 ++ (vmstateNxpUart s).flatMap bytes32

/-- The position and the count are compared as unsigned numbers, so a negative one
is too large. -/
def nxpUartPostLoad (s : NxpUartState) : Option NxpUartState :=
  if nxpUartFifoDepth ≤ s.readPos ∨ nxpUartFifoDepth < s.readCount then none
  else
    let s :=
      if ¬ nxpUartIsFifoEnabled s ∧ 0 < s.readCount ∧ 0 < s.readPos then
        { s with
          readFifo := Function.update s.readFifo 0 (s.readFifo s.readPos)
          readPos := 0 }
      else s
    some { s with ibrd := s.ibrd &&& ibrdMask, fbrd := s.fbrd &&& fbrdMask }

/-- The device `t` of the destination with the fields of the stream. -/
def nxpUartLoad (t : NxpUartState) (stream : List UInt8) : Option NxpUartState :=
  let field := fun k => get32 (stream.getD · 0) (4 + 4 * k)
  let word := fun k => BitVec.ofNat 32 (field k)
  if stream.length < 124 then none
  else
    nxpUartPostLoad
      { t with
        flags := word 0
        lcr := word 1
        rsr := word 2
        cr := word 3
        dmacr := word 4
        intEnabled := word 5
        intLevel := word 6
        readFifo := fun k => if k < nxpUartFifoDepth then word (7 + k) else t.readFifo k
        ilpr := word 23
        ibrd := word 24
        fbrd := word 25
        ifl := word 26
        readPos := field 27
        readCount := field 28
        readTrigger := field 29 }

/-- A sequence of words behind a start is read back word by word. -/
theorem get32_flatMap_bytes32 (start : List UInt8) (words : List Nat) {k n : Nat}
    (h : words[k]? = some n) :
    get32 ((start ++ words.flatMap bytes32).getD · 0) (start.length + 4 * k) = n % 2 ^ 32 := by
  induction words generalizing start k with
  | nil => simp at h
  | cons word words ih =>
      cases k with
      | zero =>
          obtain rfl : word = n := by simpa using h
          exact get32_of_slice (slice_getD_append start (bytes32 word) (words.flatMap bytes32) 0)
      | succ k =>
          have hnext := ih (start ++ bytes32 word) (k := k) (by simpa using h)
          rw [List.append_assoc, ← List.flatMap_cons, List.length_append, length_bytes32] at hnext
          rw [← hnext]
          congr 1
          omega

theorem length_nxpUartSave (s : NxpUartState) : (nxpUartSave s).length = 124 := by
  simp [nxpUartSave, vmstateNxpUart, nxpUartFifoDepth, List.length_flatMap, Function.comp_def]

/-- A field is read back from its place in the stream. -/
theorem field_nxpUartSave {s : NxpUartState} {k n : Nat}
    (h : (vmstateNxpUart s)[k]? = some n) :
    get32 ((nxpUartSave s).getD · 0) (4 + 4 * k) = n % 2 ^ 32 :=
  get32_flatMap_bytes32 (List.replicate 4 0) _ h

theorem word_nxpUartSave {s : NxpUartState} {k : Nat} {w : BitVec 32}
    (h : (vmstateNxpUart s)[k]? = some w.toNat) :
    BitVec.ofNat 32 (get32 ((nxpUartSave s).getD · 0) (4 + 4 * k)) = w := by
  rw [field_nxpUartSave h, Nat.mod_eq_of_lt w.isLt, BitVec.ofNat_toNat, BitVec.setWidth_eq]

theorem cell_nxpUartSave (s : NxpUartState) {k : Nat} (hk : k < nxpUartFifoDepth) :
    (vmstateNxpUart s)[7 + k]? = some (s.readFifo k).toNat := by
  rw [vmstateNxpUart, List.getElem?_append_left (by simp; omega),
    List.getElem?_append_right (by simp)]
  simp [hk]

/-- What the destination has before its checks. -/
theorem nxpUartLoad_save (s t : NxpUartState) :
    nxpUartLoad t (nxpUartSave s) = nxpUartPostLoad
      { s with
        readFifo := fun k => if k < nxpUartFifoDepth then s.readFifo k else t.readFifo k
        readPos := s.readPos % 2 ^ 32
        readCount := s.readCount % 2 ^ 32
        readTrigger := s.readTrigger % 2 ^ 32
        irq := t.irq
        chr := t.chr } := by
  have hcells : (fun k => if k < nxpUartFifoDepth then
      BitVec.ofNat 32 (get32 ((nxpUartSave s).getD · 0) (4 + 4 * (7 + k))) else t.readFifo k) =
      fun k => if k < nxpUartFifoDepth then s.readFifo k else t.readFifo k := by
    funext k
    split
    · next hk => exact word_nxpUartSave (cell_nxpUartSave s hk)
    · rfl
  simp only [nxpUartLoad, length_nxpUartSave, Nat.lt_irrefl, if_false, hcells]
  rw [word_nxpUartSave (k := 0) (w := s.flags) rfl,
    word_nxpUartSave (k := 1) (w := s.lcr) rfl,
    word_nxpUartSave (k := 2) (w := s.rsr) rfl,
    word_nxpUartSave (k := 3) (w := s.cr) rfl,
    word_nxpUartSave (k := 4) (w := s.dmacr) rfl,
    word_nxpUartSave (k := 5) (w := s.intEnabled) rfl,
    word_nxpUartSave (k := 6) (w := s.intLevel) rfl,
    word_nxpUartSave (k := 23) (w := s.ilpr) rfl,
    word_nxpUartSave (k := 24) (w := s.ibrd) rfl,
    word_nxpUartSave (k := 25) (w := s.fbrd) rfl,
    word_nxpUartSave (k := 26) (w := s.ifl) rfl,
    field_nxpUartSave (k := 27) (n := s.readPos) rfl,
    field_nxpUartSave (k := 28) (n := s.readCount) rfl,
    field_nxpUartSave (k := 29) (n := s.readTrigger) rfl]

/-- They differ in the lines, the backend and cells that no FIFO has. -/
def GuestAgrees (s t : NxpUartState) : Prop :=
  ∃ irq chr readFifo, t = { s with irq, chr, readFifo } ∧
    ∀ k < nxpUartFifoDepth, readFifo k = s.readFifo k

namespace GuestAgrees
variable {s t : NxpUartState}

theorem put (h : GuestAgrees s t) (word : BitVec 32) :
    GuestAgrees (nxpUartFifoRxPut s word) (nxpUartFifoRxPut t word) := by
  obtain ⟨irq, chr, readFifo, rfl, hcells⟩ := h
  have hdepth : nxpUartGetFifoDepth { s with irq, chr, readFifo } = nxpUartGetFifoDepth s := rfl
  refine ⟨(nxpUartFifoRxPut { s with irq, chr, readFifo } word).irq, chr,
    (nxpUartFifoRxPut { s with irq, chr, readFifo } word).readFifo, ?_, ?_⟩
  · simp only [nxpUartFifoRxPut, hdepth]
    split_ifs <;> rfl
  · intro k hk
    rw [readFifo_fifoRxPut, readFifo_fifoRxPut, hdepth]
    simp only [Function.update_apply, hcells k hk]

theorem get (h : GuestAgrees s t) (hpos : s.readPos < nxpUartFifoDepth) :
    GuestAgrees (nxpUartReadRxdata s).2 (nxpUartReadRxdata t).2 := by
  obtain ⟨irq, chr, readFifo, rfl, hcells⟩ := h
  have hdepth : nxpUartGetFifoDepth { s with irq, chr, readFifo } = nxpUartGetFifoDepth s := rfl
  refine ⟨(nxpUartReadRxdata { s with irq, chr, readFifo }).2.irq, chr, readFifo, ?_, ?_⟩
  · simp only [nxpUartReadRxdata, loadRxWord, hdepth, hcells s.readPos hpos]
    split_ifs <;> rfl
  · rw [readRxdata_frame]
    exact hcells

theorem setCr (h : GuestAgrees s t) (value : BitVec 32) :
    GuestAgrees (nxpUartLoopbackMdmctrl { s with cr := value })
      (nxpUartLoopbackMdmctrl { t with cr := value }) := by
  obtain ⟨irq, chr, readFifo, rfl, hcells⟩ := h
  have hloop : nxpUartLoopbackEnabled { s with irq, chr, readFifo, cr := value } =
      nxpUartLoopbackEnabled { s with cr := value } := rfl
  simp only [nxpUartLoopbackMdmctrl, hloop]
  split
  · exact ⟨_, _, _, rfl, hcells⟩
  · exact ⟨_, _, _, rfl, hcells⟩

theorem op (h : GuestAgrees s t) {op : UartOp}
    (hop : op = .get → s.readPos < nxpUartFifoDepth) :
    GuestAgrees (applyOp s op) (applyOp t op) := by
  cases op with
  | put word => exact h.put word
  | get => exact h.get (hop rfl)
  | setCr value => exact h.setCr value
  | store r value =>
      obtain ⟨irq, chr, readFifo, rfl, hcells⟩ := h
      cases r <;> exact ⟨_, _, _, rfl, hcells⟩
  | clear | transmit _ | raiseTx | setLcr _ | setEnabled _ | clearLevel _ | reset =>
      obtain ⟨irq, chr, readFifo, rfl, hcells⟩ := h
      exact ⟨_, _, _, rfl, hcells⟩

theorem uartOps_eq (h : GuestAgrees s t) (i : UartInput) : uartOps t i = uartOps s i := by
  obtain ⟨irq, chr, readFifo, rfl, -⟩ := h
  rfl

theorem ops (h : GuestAgrees s t) {l : List UartOp} (hl : .get ∉ l) :
    GuestAgrees (Runs.run applyOp s l) (Runs.run applyOp t l) := by
  induction l generalizing s t with
  | nil => exact h
  | cons op l ih =>
      simp only [List.mem_cons, not_or] at hl
      exact ih (h.op fun hget => absurd hget.symm hl.1) hl.2

theorem step (h : GuestAgrees s t) (hpos : s.readPos < nxpUartFifoDepth) (i : UartInput) :
    GuestAgrees (uartStep s i) (uartStep t i) := by
  rw [← run_uartOps, ← run_uartOps t, h.uartOps_eq]
  by_cases hget : .get ∈ uartOps s i
  · obtain ⟨offset, rfl⟩ := emits_of_mem hget
    rw [uartOps]
    split
    · exact h.get hpos
    · exact h
  · exact h.ops hget

/-- What the guest reads is the same. -/
theorem read_eq (h : GuestAgrees s t) (hpos : s.readPos < nxpUartFifoDepth) (offset : Nat) :
    (nxpUartRead t offset).1 = (nxpUartRead s offset).1 := by
  obtain ⟨irq, chr, readFifo, rfl, hcells⟩ := h
  unfold nxpUartRead
  split
  case h_1 => exact hcells s.readPos hpos
  case h_14 => split <;> rfl
  all_goals rfl

end GuestAgrees

/-- What an input shows the guest. -/
def guestRead (s : NxpUartState) : UartInput → List (BitVec 32)
  | .read offset => [(nxpUartRead s offset).1]
  | .write _ _ | .receive _ | .event _ | .reset => []

def UartOp.out? : UartOp → Option ChrOutput
  | .transmit out => some out
  | _ => none

/-- What an input sends to the backend. -/
def transmitted (s : NxpUartState) (i : UartInput) : List ChrOutput :=
  (uartOps s i).filterMap UartOp.out?

theorem chr_op (s : NxpUartState) (op : UartOp) :
    (applyOp s op).chr = s.chr ++ op.out?.toList := by
  cases op with
  | put word => simp [applyOp, UartOp.out?]
  | get => simp [applyOp, UartOp.out?]
  | setCr value =>
      rw [applyOp, mdmctrl_frame]
      exact (List.append_nil _).symm
  | store r value => cases r <;> exact (List.append_nil _).symm
  | transmit out => rfl
  | clear | raiseTx | setLcr _ | setEnabled _ | clearLevel _ | reset =>
      exact (List.append_nil _).symm

theorem chr_step (s : NxpUartState) (i : UartInput) :
    (uartStep s i).chr = s.chr ++ transmitted s i := by
  rw [← run_uartOps, transmitted]
  generalize uartOps s i = ops
  induction ops generalizing s with
  | nil => simp
  | cons op ops ih =>
      rw [Runs.run_cons, ih, chr_op]
      cases hout : op.out? <;> simp [hout]

theorem chr_run (s : NxpUartState) (inputs : List UartInput) :
    (Runs.run uartStep s inputs).chr = s.chr ++ Runs.gather uartStep transmitted s inputs := by
  induction inputs generalizing s with
  | nil => exact (List.append_nil _).symm
  | cons i inputs ih => rw [Runs.run_cons, ih, chr_step, List.append_assoc, Runs.gather]

theorem readPos_lt_of_positioned {s : NxpUartState} (h : s.rx.Positioned) :
    s.readPos < nxpUartFifoDepth :=
  Nat.lt_of_lt_of_le h.pos_lt (fifoDepth_le s)

/-- Two devices that look the same go on doing so. -/
theorem GuestAgrees.gather {s t : NxpUartState} (h : GuestAgrees s t)
    (hpos : s.rx.Positioned) (inputs : List UartInput) :
    Runs.gather uartStep guestRead t inputs = Runs.gather uartStep guestRead s inputs ∧
      Runs.gather uartStep transmitted t inputs = Runs.gather uartStep transmitted s inputs := by
  induction inputs generalizing s t with
  | nil => exact ⟨rfl, rfl⟩
  | cons i inputs ih =>
      have hlt := readPos_lt_of_positioned hpos
      obtain ⟨hreads, hsent⟩ := ih (h.step hlt i) (positioned_step hpos i)
      have hread : guestRead t i = guestRead s i := by
        cases i with
        | read offset => simp only [guestRead, h.read_eq hlt]
        | write _ _ | receive _ | event _ | reset => rfl
      have htransmitted : transmitted t i = transmitted s i := by
        simp only [transmitted, h.uartOps_eq]
      simp only [Runs.gather, hread, htransmitted, hreads, hsent, and_self]

/-- A FIFO of depth one holds its word in the first cell, so there is nothing to
repair. -/
theorem readPos_eq_zero {s : NxpUartState} (h : s.rx.Positioned)
    (hmode : ¬ nxpUartIsFifoEnabled s) : s.readPos = 0 := by
  have hpos : s.readPos < nxpUartGetFifoDepth s := h.pos_lt
  rw [nxpUartGetFifoDepth, if_neg hmode] at hpos
  omega

theorem nxpUartPostLoad_eq {s : NxpUartState} (hpos : s.readPos < nxpUartFifoDepth)
    (hmode : ¬ nxpUartIsFifoEnabled s → s.readPos = 0) (hibrd : s.ibrd &&& ibrdMask = s.ibrd)
    (hfbrd : s.fbrd &&& fbrdMask = s.fbrd) :
    nxpUartPostLoad s = if nxpUartFifoDepth < s.readCount then none else some s := by
  have hrepair : ¬ (¬ nxpUartIsFifoEnabled s ∧ 0 < s.readCount ∧ 0 < s.readPos) := by
    rintro ⟨hoff, -, hmoved⟩
    rw [hmode hoff] at hmoved
    exact absurd hmoved (Nat.lt_irrefl 0)
  simp only [nxpUartPostLoad, if_neg hrepair, hibrd, hfbrd, Nat.not_le.mpr hpos, false_or]

/-- The stream of a device in a state it can be in, and what is loaded from it. -/
theorem nxpUartLoad_eq {s : NxpUartState} (hpos : s.rx.Positioned)
    (hregisters : RegisterInvariant s) (hcount : s.readCount < 2 ^ 32) (t : NxpUartState) :
    nxpUartLoad t (nxpUartSave s) =
      if nxpUartFifoDepth < s.readCount then none
      else some { s with
        readFifo := fun k => if k < nxpUartFifoDepth then s.readFifo k else t.readFifo k
        irq := t.irq
        chr := t.chr } := by
  have hlt := readPos_lt_of_positioned hpos
  have hposition : s.readPos % 2 ^ 32 = s.readPos :=
    Nat.mod_eq_of_lt (Nat.lt_trans hlt (by decide))
  have htrigger : s.readTrigger % 2 ^ 32 = s.readTrigger := by
    rw [hregisters.trigger]
    decide
  have hmode : ¬ nxpUartIsFifoEnabled s → s.readPos = 0 := readPos_eq_zero hpos
  rw [nxpUartLoad_save, hposition, Nat.mod_eq_of_lt hcount, htrigger]
  exact nxpUartPostLoad_eq hlt hmode hregisters.ibrd hregisters.fbrd

/-- A device that has met its guest, its host and resets is accepted by the
destination exactly when its FIFO holds no more words than it has cells. From then
on the guest reads, and the host is sent, what they would have got without the
migration. -/
theorem migration_transparent (before : List UartInput) (t : NxpUartState)
    (hcount : (Runs.run uartStep uartPowerOn before).readCount < 2 ^ 32) :
    let s := Runs.run uartStep uartPowerOn before
    ((nxpUartLoad t (nxpUartSave s)).isSome ↔ s.readCount ≤ nxpUartFifoDepth) ∧
      ∀ u, nxpUartLoad t (nxpUartSave s) = some u → ∀ after,
        Runs.gather uartStep guestRead u after = Runs.gather uartStep guestRead s after ∧
          (Runs.run uartStep u after).chr =
            t.chr ++ Runs.gather uartStep transmitted s after := by
  intro s
  have hpos : s.rx.Positioned :=
    Runs.run_invariant (P := fun t => t.rx.Positioned) (fun _ i h => positioned_step h i)
      uartPowerOn before (wellFormed_reset _).positioned
  have hregisters : RegisterInvariant s :=
    Runs.run_invariant (P := RegisterInvariant) (fun _ i h => h.step i) uartPowerOn before
      registerInvariant_powerOn
  rw [nxpUartLoad_eq hpos hregisters hcount t]
  refine ⟨?_, fun u hu after => ?_⟩
  · split
    case isTrue hover => simpa using hover
    case isFalse hfits => simpa using hfits
  · split at hu
    case isTrue => cases hu
    case isFalse =>
      cases hu
      have hagrees : GuestAgrees s { s with
          readFifo := fun k => if k < nxpUartFifoDepth then s.readFifo k else t.readFifo k
          irq := t.irq
          chr := t.chr } := ⟨_, _, _, rfl, fun k hk => if_pos hk⟩
      obtain ⟨hreads, hsent⟩ := hagrees.gather hpos after
      exact ⟨hreads, by rw [chr_run, hsent]⟩

/-- A device with one received byte, loaded into one that was just switched on. The
guest reads the byte there, and what it then sends goes out. -/
theorem migration_transparent_byte :
    let s := Runs.run uartStep uartPowerOn [.receive [65]]
    s.readCount < 2 ^ 32 ∧ ∃ u, nxpUartLoad uartPowerOn (nxpUartSave s) = some u ∧
      Runs.gather uartStep guestRead u [.read 0, .write 0 66] = [65] ∧
      (Runs.run uartStep u [.read 0, .write 0 66]).chr = [.byte 66] := by
  intro s
  obtain ⟨hload, hlater⟩ := migration_transparent [.receive [65]] uartPowerOn (by decide)
  obtain ⟨u, hu⟩ := Option.isSome_iff_exists.mp (hload.mpr (by decide))
  obtain ⟨hreads, hsent⟩ := hlater u hu [.read 0, .write 0 66]
  exact ⟨by decide, u, hu, hreads.trans (by decide +kernel), hsent.trans (by decide +kernel)⟩

end TpmEmulator
