import TpmEmulator.FirmwareCode
import TpmEmulator.UartMigration

/-!
The board behind the firmware as a terminal: what is typed queues up, what is
printed is appended to the output, and the TPM is itself. The model leaves open
what the firmware never asks for, such as a key that has not been typed. While the
host keeps to the room in the FIFO, the board implements the terminal.
-/
namespace TpmEmulator
open Programs

structure Terminal where
  input : List (BitVec 32)
  output : List UInt8
  tpm : Tpm2State
  commands : Nat

namespace Terminal

def say (s : Terminal) (text : List UInt8) : Terminal := { s with output := s.output ++ text }

def feed (s : Terminal) (words : List (BitVec 32)) : Terminal :=
  { s with input := s.input ++ words }

@[simp] theorem say_nil (s : Terminal) : s.say [] = s := by simp [say]

@[simp] theorem say_say (s : Terminal) (a b : List UInt8) : (s.say a).say b = s.say (a ++ b) := by
  simp [say]

@[simp] theorem feed_nil (s : Terminal) : s.feed [] = s := by simp [feed]

theorem feed_feed (s : Terminal) (a b : List (BitVec 32)) :
    (s.feed a).feed b = s.feed (a ++ b) := by
  simp [feed]

def read (s : Terminal) (r : Register) : Option (BitVec 32 × Terminal) :=
  match r.tpm?, r, s.input with
  | some offset, _, _ =>
      let answer := tpm2MmioRead s.tpm offset
      some (.ofNat 32 answer.1, { s with tpm := answer.2 })
  | none, .uart0Data, word :: words => some (word, { s with input := words })
  | none, _, _ => none

def write (host : Host) (env : Nat → Surroundings) (s : Terminal) (r : Register)
    (value : BitVec 32) : Option Terminal :=
  match r.tpm?, r with
  | some offset, _ =>
      some { s with
        tpm := tpm2MmioWrite host (env s.commands) s.tpm offset value.toNat
        commands := if offset = tpm2CmdReg then s.commands + 1 else s.commands }
  | none, .uart0Data => some (s.say [.ofBitVec (value.setWidth 8)])
  | none, .uart0Ctrl | none, .uart0Bauddiv => some s
  | none, _ => none

def ready (s : Terminal) : Busy → Bool
  | .rxfe => !s.input.isEmpty
  | .rxff => true
  | .processing => decide (s.tpm.state ≠ .processing)

def model (host : Host) (env : Nat → Surroundings) :
    Model Terminal Request Busy (BitVec 32) where
  ask := fun s request =>
    match request with
    | .read r => s.read r
    | .write r value => (s.write host env r value).map fun s => (0, s)
  ready := ready

/-- What is still to be typed does not matter to what the firmware does now. -/
theorem feeds (host : Host) (env : Nat → Surroundings) : (model host env).Feeds feed where
  nil := feed_nil
  append := feed_feed
  ask := by
    intro s request v s' words hask
    cases request with
    | read r =>
        cases r with
        | uart0Data =>
            simp only [model, read, Register.tpm?] at hask ⊢
            cases hinput : s.input with
            | nil => simp [hinput] at hask
            | cons word rest =>
                simp only [hinput, Option.some.injEq, Prod.mk.injEq] at hask
                obtain ⟨rfl, rfl⟩ := hask
                simp [feed, hinput]
        | uart0State | uart0Ctrl | uart0Bauddiv | uart0Flagreg =>
            simp [model, read, Register.tpm?] at hask
        | tpm2Ctrl | tpm2Status | tpm2Random | tpm2Cmd | tpm2Data =>
            cases hask
            rfl
    | write r value =>
        cases r with
        | uart0State | uart0Flagreg => cases hask
        | uart0Data | uart0Ctrl | uart0Bauddiv | tpm2Ctrl | tpm2Status | tpm2Random | tpm2Cmd
        | tpm2Data =>
            cases hask
            rfl
  ready := by
    intro s busy words hready
    cases busy with
    | rxfe =>
        cases hinput : s.input with
        | nil => simp [model, ready, hinput] at hready
        | cons word rest => simp [model, ready, feed, hinput]
    | rxff | processing => exact hready

end Terminal

/-- The UART holds what was typed and has sent what was printed. -/
structure Listens (u : NxpUartState) (input : List (BitVec 32)) (output : List UInt8) :
    Prop where
  wellFormed : u.rx.WellFormed
  registers : RegisterInvariant u
  loopback : nxpUartLoopbackEnabled u = false
  contents : u.rx.contents = input
  sent : u.chr = output.map .byte

/-- The operations that the terminal sees. -/
def UartOp.Plain : UartOp → Prop
  | .put _ | .get | .transmit _ | .raiseTx => True
  | .clear | .setLcr _ | .setCr _ | .setEnabled _ | .clearLevel _ | .store _ _ | .reset => False

theorem cr_step_of_plain {u : NxpUartState} {i : UartInput}
    (h : ∀ op ∈ uartOps u i, op.Plain) : (uartStep u i).cr = u.cr := by
  refine step_of_ops (P := fun t => t.cr = u.cr) (fun t op ht hop => ?_) h rfl
  cases op with
  | put word => rwa [applyOp, cr_fifoRxPut]
  | get => rwa [applyOp, cr_readRxdata]
  | transmit _ | raiseTx => exact ht
  | clear | setLcr _ | setCr _ | setEnabled _ | clearLevel _ | store _ _ | reset =>
      exact absurd hop not_false

theorem Listens.step {u : NxpUartState} {input : List (BitVec 32)} {output : List UInt8}
    (h : Listens u input output) (i : UartInput) (rest : List (BitVec 32)) (text : List UInt8)
    (hpaced : Paced u i) (hover : ¬ Overruns u i) (hplain : ∀ op ∈ uartOps u i, op.Plain)
    (htaken : rxTaken u i ++ rest = input ++ rxAccepted u i)
    (hsent : transmitted u i = text.map .byte) : Listens (uartStep u i) rest (output ++ text) where
  wellFormed := (wellFormed_step_iff h.wellFormed hpaced).mpr hover
  registers := h.registers.step i
  loopback := by
    have hloop := h.loopback
    rw [nxpUartLoopbackEnabled] at hloop ⊢
    rw [cr_step_of_plain hplain, hloop]
  contents := by
    have hconserved := conserved_step h.wellFormed hpaced hover
    rw [h.contents, ← htaken] at hconserved
    exact List.append_cancel_left hconserved
  sent := by rw [chr_step, h.sent, hsent, List.map_append]

/-- A word that is read was the first one typed. -/
theorem Listens.readData {u : NxpUartState} {word : BitVec 32} {words : List (BitVec 32)}
    {output : List UInt8} (h : Listens u (word :: words) output) :
    (nxpUartRead u 0).1 = word ∧ Listens (nxpUartRead u 0).2 words output := by
  have hsome : ¬ u.rxfe := by
    intro hempty
    have hzero : u.rx.count = 0 := h.wellFormed.empty_iff.mp hempty
    have hnone := RingBuffer.Fifo.contents_of_count_zero hzero
    rw [h.contents] at hnone
    cases hnone
  have hread : rxDataRead u (.read 0) = some (nxpUartRead u 0).1 := if_pos ⟨rfl, hsome⟩
  have hconserved := contents_read h.wellFormed 0
  rw [hread, h.contents] at hconserved
  obtain ⟨hword, -⟩ := List.cons.inj hconserved
  refine ⟨hword, ?_⟩
  have hstep := h.step (.read 0) words [] trivial not_false
    (by simp [uartOps, UartOp.Plain])
    (by rw [rxTaken_of_keeps u (.read 0) not_false, hread, hword]; simp [rxAccepted])
    (by simp [transmitted, uartOps, UartOp.out?])
  rwa [List.append_nil] at hstep

theorem Listens.writeData {u : NxpUartState} {input : List (BitVec 32)} {output : List UInt8}
    (h : Listens u input output) (value : BitVec 32) :
    Listens (nxpUartWrite u 0 value) input (output ++ [.ofBitVec (value.setWidth 8)]) := by
  have hops : uartOps u (.write 0 value) =
      [.transmit (.byte (.ofBitVec (value.setWidth 8))), .raiseTx] := by
    simp [uartOps, txOps, h.loopback]
  refine h.step (.write 0 value) input _ trivial ?_ ?_ ?_ ?_
  · simp [Overruns, h.loopback]
  · simp [hops, UartOp.Plain]
  · rw [rxTaken_of_idle u (.write 0 value) (by simp [DropsRx]) rfl]
    simp [rxAccepted, h.loopback]
  · simp [transmitted, hops, UartOp.out?]

structure Shows (b : Board) (s : Terminal) : Prop where
  uart : Listens b.uart s.input s.output
  tpm : b.tpm = s.tpm
  commands : b.commands = s.commands

theorem read_uart (b : Board) {r : Register} (h : r.tpm? = none) :
    b.read r.address = ((nxpUartRead b.uart (r.address - lpuartBaseAddress)).1,
      { b with uart := (nxpUartRead b.uart (r.address - lpuartBaseAddress)).2 }) := by
  rw [Board.read, decode_register, h]
  rfl

theorem write_uart (host : Host) (env : Nat → Surroundings) (b : Board) {r : Register}
    (h : r.tpm? = none) (value : BitVec 32) :
    b.write host env r.address value =
      { b with uart := nxpUartWrite b.uart (r.address - lpuartBaseAddress) value } := by
  rw [Board.write, decode_register, h]
  rfl

theorem address_of_tpm? {r : Register} {a : Nat} (h : r.tpm? = some a) :
    r.address - tpmBaseAddress = a := by
  cases r <;> cases h <;> rfl

theorem read_tpm (b : Board) {r : Register} {a : Nat} (h : r.tpm? = some a) :
    b.read r.address =
      (.ofNat 32 (tpm2MmioRead b.tpm a).1, { b with tpm := (tpm2MmioRead b.tpm a).2 }) := by
  rw [Board.read, decode_register, h, ← address_of_tpm? h]
  rfl

theorem write_tpm (host : Host) (env : Nat → Surroundings) (b : Board) {r : Register}
    {a : Nat} (h : r.tpm? = some a) (value : BitVec 32) :
    b.write host env r.address value =
      { b with
        tpm := tpm2MmioWrite host (env b.commands) b.tpm a value.toNat
        commands := if a = tpm2CmdReg then b.commands + 1 else b.commands } := by
  rw [Board.write, decode_register, h, ← address_of_tpm? h]
  rfl

theorem flags_read (b : Board) :
    b.read Register.uart0Flagreg.address = (b.uart.flags, b) := by
  rw [read_uart b rfl]
  rfl

theorem rxfe_holds (u : NxpUartState) : Busy.rxfe.holds u.flags = u.rxfe := rfl

/-- The second flag the firmware waits for is the one of a full transmitter. -/
theorem rxff_holds {u : NxpUartState} (h : RegisterInvariant u) :
    Busy.rxff.holds u.flags = false :=
  (and_twoPow_bne_zero u.flags (i := 5) (by decide)).trans h.txff

theorem value_eq_processing_iff (s : TpmState) :
    (BitVec.ofNat 32 s.value == .ofNat 32 TpmState.processing.value) =
      decide (s = .processing) := by
  cases s <;> rfl

theorem Shows.ask (host : Host) (env : Nat → Surroundings) {b : Board} {s s' : Terminal}
    {request : Request} {v : BitVec 32} (h : Shows b s)
    (hask : (Terminal.model host env).ask s request = some (v, s')) :
    ((boardBus host env).ask b request).1 = v ∧
      Shows ((boardBus host env).ask b request).2 s' := by
  obtain ⟨huart, htpm, hcommands⟩ := h
  cases request with
  | read r =>
      change (b.read r.address).1 = v ∧ Shows (b.read r.address).2 s'
      cases hoffset : r.tpm? with
      | some offset =>
          simp only [Terminal.model, Terminal.read, hoffset, Option.some.injEq,
            Prod.mk.injEq] at hask
          obtain ⟨rfl, rfl⟩ := hask
          rw [read_tpm b hoffset, htpm]
          exact ⟨rfl, huart, rfl, hcommands⟩
      | none =>
          rw [read_uart b hoffset]
          cases r with
          | uart0Data =>
              cases hinput : s.input with
              | nil => simp [Terminal.model, Terminal.read, hoffset, hinput] at hask
              | cons word words =>
                  simp only [Terminal.model, Terminal.read, hoffset, hinput, Option.some.injEq,
                    Prod.mk.injEq] at hask
                  obtain ⟨rfl, rfl⟩ := hask
                  rw [hinput] at huart
                  exact ⟨huart.readData.1, huart.readData.2, htpm, hcommands⟩
          | uart0State | uart0Ctrl | uart0Bauddiv | uart0Flagreg =>
              simp [Terminal.model, Terminal.read, hoffset] at hask
          | tpm2Ctrl | tpm2Status | tpm2Random | tpm2Cmd | tpm2Data => cases hoffset
  | write r value =>
      change 0 = v ∧ Shows (b.write host env r.address value) s'
      cases hoffset : r.tpm? with
      | some offset =>
          simp only [Terminal.model, Terminal.write, hoffset, Option.map_some, Option.some.injEq,
            Prod.mk.injEq] at hask
          obtain ⟨rfl, rfl⟩ := hask
          rw [write_tpm host env b hoffset, htpm, hcommands]
          exact ⟨rfl, huart, rfl, rfl⟩
      | none =>
          rw [write_uart host env b hoffset]
          cases r with
          | uart0Data =>
              cases hask
              exact ⟨rfl, huart.writeData value, htpm, hcommands⟩
          | uart0Ctrl | uart0Bauddiv =>
              cases hask
              exact ⟨rfl, huart, htpm, hcommands⟩
          | uart0State | uart0Flagreg => cases hask
          | tpm2Ctrl | tpm2Status | tpm2Random | tpm2Cmd | tpm2Data => cases hoffset

theorem Shows.poll (host : Host) (env : Nat → Surroundings) {b : Board} {s : Terminal}
    (busy : Busy) (h : Shows b s) :
    ((boardBus host env).poll b busy).1 = s.ready busy ∧
      Shows ((boardBus host env).poll b busy).2 s := by
  change (!busy.holds (b.read busy.register.address).1) = s.ready busy ∧
    Shows (b.read busy.register.address).2 s
  cases busy with
  | rxfe =>
      rw [Busy.register, flags_read]
      refine ⟨?_, h⟩
      rw [rxfe_holds, Terminal.ready, ← h.uart.contents]
      have hempty : b.uart.rxfe = b.uart.rx.contents.isEmpty := by
        have hlength : b.uart.rx.contents.length = b.uart.rx.count := by
          rw [RingBuffer.Fifo.contents, List.length_map, List.length_range]
        rw [Bool.eq_iff_iff, List.isEmpty_iff, ← List.length_eq_zero_iff, hlength]
        exact h.uart.wellFormed.empty_iff
      rw [hempty]
  | rxff =>
      rw [Busy.register, flags_read]
      exact ⟨by rw [rxff_holds h.uart.registers]; rfl, h⟩
  | processing =>
      rw [Busy.register, read_tpm b (a := tpm2StatusReg) rfl, mmioRead_status]
      refine ⟨?_, h⟩
      rw [Busy.holds, value_eq_processing_iff, h.tpm, Terminal.ready, decide_not]

theorem board_implements (host : Host) (env : Nat → Surroundings) :
    Implements (boardBus host env) (Terminal.model host env) Shows where
  ask := Shows.ask host env
  poll := Shows.poll host env

/-- What the host may do: it delivers what fits, sends a break where there is room
for its word, or reports an event. -/
def HostInput (b : Board) : UartInput → Prop
  | .receive buf => (buf.length : Int) ≤ nxpUartCanReceive b.uart
  | .event e => e = .break → b.uart.readCount < nxpUartGetFifoDepth b.uart
  | .read _ | .write _ _ | .reset => False

instance HostInput.decidable (b : Board) : (i : UartInput) → Decidable (HostInput b i)
  | .receive _ => inferInstanceAs (Decidable ((_ : Int) ≤ _))
  | .event _ => inferInstanceAs (Decidable (_ → _))
  | .read _ | .write _ _ | .reset => .isFalse not_false

def hostActs (b : Board) (i : UartInput) : Board := { b with uart := uartStep b.uart i }

/-- The words an input of the host stands for. -/
def typed : UartInput → List (BitVec 32)
  | .receive buf => buf.map rxWord
  | .event e => if e = .break then [drBe] else []
  | .read _ | .write _ _ | .reset => []

theorem shows_hostActs (b : Board) (s : Terminal) (i : UartInput) (h : Shows b s)
    (hinput : HostInput b i) : Shows (hostActs b i) (s.feed (typed i)) := by
  refine ⟨?_, h.tpm, h.commands⟩
  have hloop := h.uart.loopback
  cases i with
  | receive buf =>
      have hstep := h.uart.step (.receive buf) (s.input ++ buf.map rxWord) [] hinput not_false
        (by simp [uartOps, hloop, UartOp.Plain])
        (by rw [rxTaken_of_idle b.uart (.receive buf) not_false rfl]; simp [rxAccepted, hloop])
        (by simp [transmitted, uartOps, hloop, UartOp.out?, List.filterMap_map])
      rwa [List.append_nil] at hstep
  | event e =>
      have hstep := h.uart.step (.event e) (s.input ++ typed (.event e)) [] trivial
        (fun hover => absurd hover.2.2 (Nat.ne_of_lt (hinput hover.1)))
        (by simp only [uartOps]; split <;> simp [UartOp.Plain])
        (by rw [rxTaken_of_idle b.uart (.event e) not_false rfl]; simp [rxAccepted, hloop, typed])
        (by simp only [transmitted, uartOps]; split <;> simp [UartOp.out?])
      rwa [List.append_nil] at hstep
  | read _ | write _ _ | reset => exact absurd hinput not_false

/-- The board after power on, before anything is typed. -/
theorem shows_powerOn (host : Host) :
    Shows (boardPowerOn host) ⟨[], [], tpm2Realize host, 0⟩ where
  uart :=
    ⟨wellFormed_reset _, registerInvariant_powerOn,
      show nxpUartLoopbackEnabled uartPowerOn = false by decide,
      RingBuffer.Fifo.contents_of_count_zero rfl, rfl⟩
  tpm := rfl
  commands := rfl

end TpmEmulator
