import TpmEmulator.Firmware
import TpmEmulator.Library.Programs

/-!
`tpm_read_response` of the firmware's `main.c`, as a program over the two registers
it reads, the response buffer and the calls that print its messages. What stands
behind the registers is a parameter: a device is any pair of register reads over a
state. A run against a device keeps the values read from the data register, the
positions of the response buffer that are stored to and the messages. Polling the
busy wait takes fuel, and running out of fuel gives `none`.
-/
namespace TpmEmulator

open Programs CellMemory BigEndian

/-- A length filled up to whole words, in 32 bits. -/
def padded (len : Nat) : Nat := (len + 3) % 2 ^ 32 / 4 * 4

theorem padded_eq {len : Nat} (h : len ≤ 2 ^ 32 - 4) : padded len = (len + 3) / 4 * 4 := by
  rw [padded]
  omega

/-- The messages of the function, with their numbers. -/
inductive ReadMessage
  | notSending (state : BitVec 32)
  | reading
  | size (actual padded : BitVec 32)
  | tooSmall
  | invalidSize
  | stoppedEarly
  | complete (actual bytesRead : BitVec 32)
deriving DecidableEq, Repr

inductive ReadRequest
  | status
  | data
  | load (i : Nat)
  | put (i : Nat) (b : UInt8)
  | say (m : ReadMessage)

/-- A value computed with these requests. The one busy wait is on PROCESSING. -/
abbrev ReadCode := Prog ReadRequest Unit Nat

namespace ReadCode

def status : ReadCode Nat := Prog.ask .status Prog.ret

def data : ReadCode Nat := Prog.ask .data Prog.ret

def load (i : Nat) : ReadCode UInt8 := Prog.ask (.load i) fun v => Prog.ret (.ofNat v)

def put (i : Nat) (b : UInt8) : ReadCode Unit := Prog.ask (.put i b) fun _ => Prog.ret ()

def say (m : ReadMessage) : ReadCode Unit := Prog.ask (.say m) fun _ => Prog.ret ()

/-- One pass of the loop over the first twelve bytes. -/
def readHeader (i : Nat) : ReadCode Unit := do
  let word ← data
  put (i * 4 + 0) (.ofNat (word / 2 ^ 24))
  put (i * 4 + 1) (.ofNat (word / 2 ^ 16))
  put (i * 4 + 2) (.ofNat (word / 2 ^ 8))
  put (i * 4 + 3) (.ofNat word)

def actualSize : ReadCode Nat := do
  let b2 ← load 2
  let b3 ← load 3
  let b4 ← load 4
  let b5 ← load 5
  return be32 b2 b3 b4 b5

def putBelow (actualSize i : Nat) (b : UInt8) : ReadCode Unit :=
  if i < actualSize then put i b else pure ()

/-- A later word, each byte under its own test. The sums are 32 bits. -/
def readWord (actualSize bytesRead : Nat) : ReadCode Unit := do
  let word ← data
  if bytesRead < actualSize then do
    put ((bytesRead + 0) % 2 ^ 32) (.ofNat (word / 2 ^ 24))
    putBelow actualSize ((bytesRead + 1) % 2 ^ 32) (.ofNat (word / 2 ^ 16))
    putBelow actualSize ((bytesRead + 2) % 2 ^ 32) (.ofNat (word / 2 ^ 8))
    putBelow actualSize ((bytesRead + 3) % 2 ^ 32) (.ofNat word)
  else pure ()

def complete (actualSize bytesRead : Nat) : ReadCode Nat := do
  say (.complete (.ofNat 32 actualSize) (.ofNat 32 bytesRead))
  return actualSize

/-- The loop over the rest of the response, with a bound on its passes that
`readTail_passes` shows to be enough. -/
def readTail (actualSize paddedSize : Nat) : Nat → Nat → ReadCode Nat
  | 0, bytesRead => complete actualSize bytesRead
  | passes + 1, bytesRead =>
      if bytesRead < paddedSize then do
        let state ← status
        if state ≠ TpmState.sending.value then do
          say .stoppedEarly
          return if actualSize < bytesRead then actualSize else bytesRead
        else do
          readWord actualSize bytesRead
          readTail actualSize paddedSize passes ((bytesRead + 4) % 2 ^ 32)
      else complete actualSize bytesRead

/-- What follows the header: the size it gives is checked, and the rest is read. -/
def readRest (maxLen : Nat) : ReadCode Nat := do
  let actualSize ← actualSize
  let paddedSize := padded actualSize
  say (.size (.ofNat 32 actualSize) (.ofNat 32 paddedSize))
  if maxLen < actualSize then do
    say .tooSmall
    return 12
  else if actualSize < 10 then do
    say .invalidSize
    return 12
  else readTail actualSize paddedSize (paddedSize / 4) 12

/-- The status is read once more for the message that it is wrong. -/
def notSending : ReadCode Nat := do
  let state ← status
  say (.notSending (.ofNat 32 state))
  return 0

def tpmReadResponse (maxLen : Nat) : ReadCode Nat := do
  Prog.wait () (Prog.ret ())
  let state ← status
  if state ≠ TpmState.sending.value then notSending
  else do
    say .reading
    readHeader 0
    readHeader 1
    readHeader 2
    readRest maxLen

/-- Every pass brings the loop a word nearer to its end, so more of them than the
bound allows are never needed. -/
theorem readTail_passes {actualSize paddedSize : Nat} (hpadded : paddedSize ≤ 2 ^ 32 - 4)
    (passes more bytesRead : Nat) (h : paddedSize ≤ bytesRead + 4 * passes) :
    readTail actualSize paddedSize (passes + more) bytesRead =
      readTail actualSize paddedSize passes bytesRead := by
  induction passes generalizing bytesRead with
  | zero =>
      cases more with
      | zero => rfl
      | succ more => exact if_neg (by omega)
  | succ passes ih =>
      rw [Nat.add_right_comm, readTail, readTail]
      by_cases hmore : bytesRead < paddedSize
      · have hrest := ih ((bytesRead + 4) % 2 ^ 32) (by rw [Nat.mod_eq_of_lt] <;> omega)
        rw [if_pos hmore, if_pos hmore, hrest]
      · rw [if_neg hmore, if_neg hmore]

end ReadCode

/-- The registers a driver reads. A read may change the device. -/
structure Registers (σ : Type) where
  status : σ → Nat × σ
  data : σ → Nat × σ

/-- What the driver has while it reads a response. The last three fields are
ghosts. -/
structure Reader (σ : Type) where
  device : σ
  respBuf : Nat → UInt8
  words : List Nat
  written : List Nat
  log : List ReadMessage

variable {σ : Type}

namespace Reader

def status (dev : Registers σ) (d : Reader σ) : Nat × Reader σ :=
  let read := dev.status d.device
  (read.1, { d with device := read.2 })

def data (dev : Registers σ) (d : Reader σ) : Nat × Reader σ :=
  let read := dev.data d.device
  (read.1, { d with device := read.2, words := d.words ++ [read.1] })

def put (d : Reader σ) (i : Nat) (b : UInt8) : Reader σ :=
  { d with respBuf := store d.respBuf i [b], written := d.written ++ [i] }

def say (d : Reader σ) (m : ReadMessage) : Reader σ := { d with log := d.log ++ [m] }

def answer (dev : Registers σ) (d : Reader σ) : ReadRequest → Nat × Reader σ
  | .status => d.status dev
  | .data => d.data dev
  | .load i => ((d.respBuf i).toNat, d)
  | .put i b => (0, d.put i b)
  | .say m => (0, d.say m)

end Reader

namespace Registers

def bus (dev : Registers σ) : Bus (Reader σ) ReadRequest Unit Nat where
  ask := fun d => d.answer dev
  poll := fun d _ =>
    (decide ((d.status dev).1 ≠ TpmState.processing.value), (d.status dev).2)

/-- The value returned and what the driver then has. -/
def tpmReadResponse (dev : Registers σ) (fuel : Nat) (device : σ) (respBuf : Nat → UInt8)
    (maxLen : Nat) : Option (Nat × Reader σ) :=
  dev.bus.exec fuel (ReadCode.tpmReadResponse maxLen) ⟨device, respBuf, [], [], []⟩

end Registers

/-- The registers of the emulated device. -/
def tpmRegisters : Registers Tpm2State where
  status := fun s => tpm2MmioRead s tpm2StatusReg
  data := fun s => tpm2MmioRead s tpm2DataReg

abbrev Driver := Reader Tpm2State

def tpmReadResponse (fuel : Nat) (s : Tpm2State) (respBuf : Nat → UInt8) (maxLen : Nat) :
    Option (Nat × Driver) :=
  tpmRegisters.tpmReadResponse fuel s respBuf maxLen

/-- One word is read and its first `count` bytes are stored from `start` on. -/
structure Reader.Takes (dev : Registers σ) (d : Reader σ) (start count : Nat) (d' : Reader σ) :
    Prop where
  device : d'.device = (dev.data d.device).2
  words : d'.words = d.words ++ [(dev.data d.device).1]
  respBuf : d'.respBuf = store d.respBuf start ((bytes32 (dev.data d.device).1).take count)
  written : ∀ i ∈ d'.written, i ∈ d.written ∨ i < start + count
  log : d'.log = d.log

section Pieces
variable (dev : Registers σ) (d : Reader σ)

theorem store_cons (m : Nat → UInt8) (start : Nat) (c : UInt8) (cells : List UInt8) :
    store m start (c :: cells) = store (store m start [c]) (start + 1) cells :=
  store_append m start [c] cells

theorem store_bytes32 (m : Nat → UInt8) (i word : Nat) :
    store m i (bytes32 word) =
      store (store (store (store m i [.ofNat (word / 2 ^ 24)]) (i + 1) [.ofNat (word / 2 ^ 16)])
        (i + 2) [.ofNat (word / 2 ^ 8)]) (i + 3) [.ofNat word] := by
  rw [bytes32, store_cons, store_cons _ (i + 1), store_cons _ (i + 1 + 1)]

theorem Reader.written_put {d d' : Reader σ} {bound i : Nat} {b : UInt8}
    (h : ∀ j ∈ d'.written, j ∈ d.written ∨ j < bound) (hi : i < bound) :
    ∀ j ∈ (d'.put i b).written, j ∈ d.written ∨ j < bound := by
  intro j hj
  rcases List.mem_append.mp hj with hold | hnew
  · exact h j hold
  · exact .inr (List.mem_singleton.mp hnew ▸ hi)

theorem takes_readHeader (i : Nat) :
    ∃ d', (∀ fuel, dev.bus.exec fuel (ReadCode.readHeader i) d = some ((), d')) ∧
      d.Takes dev (i * 4) 4 d' := by
  refine ⟨_, fun _ => rfl, rfl, rfl, ?_, ?_, rfl⟩
  · rw [List.take_of_length_le (length_bytes32 _).le]
    exact (store_bytes32 ..).symm
  · have hold : ∀ j ∈ (d.data dev).2.written, j ∈ d.written ∨ j < i * 4 + 4 :=
      fun j hj => .inl hj
    refine Reader.written_put (Reader.written_put (Reader.written_put (Reader.written_put hold
      ?_) ?_) ?_) ?_ <;> omega

/-- The loop over the first twelve bytes. -/
theorem takes_headers :
    ∃ d₁ d₂ d₃, d.Takes dev 0 4 d₁ ∧ d₁.Takes dev 4 4 d₂ ∧ d₂.Takes dev 8 4 d₃ ∧
      ∀ fuel (rest : ReadCode Nat), dev.bus.exec fuel (do
        ReadCode.readHeader 0
        ReadCode.readHeader 1
        ReadCode.readHeader 2
        rest) d = dev.bus.exec fuel rest d₃ := by
  obtain ⟨d₁, hfirst, h₁⟩ := takes_readHeader dev d 0
  obtain ⟨d₂, hsecond, h₂⟩ := takes_readHeader dev d₁ 1
  obtain ⟨d₃, hthird, h₃⟩ := takes_readHeader dev d₂ 2
  refine ⟨d₁, d₂, d₃, h₁, h₂, h₃, fun fuel rest => ?_⟩
  rw [dev.bus.exec_bind (hfirst fuel), dev.bus.exec_bind (hsecond fuel),
    dev.bus.exec_bind (hthird fuel)]

/-- Where the sums do not wrap, the tests cut the word at the response size. -/
theorem takes_readWord (actualSize : Nat) {bytesRead : Nat} (h : bytesRead + 3 < 2 ^ 32) :
    ∃ d', (∀ fuel, dev.bus.exec fuel (ReadCode.readWord actualSize bytesRead) d =
        some ((), d')) ∧ d.Takes dev bytesRead (actualSize - bytesRead) d' := by
  have hsum (k : Nat) (hk : k ≤ 3) : (bytesRead + k) % 2 ^ 32 = bytesRead + k :=
    Nat.mod_eq_of_lt (by omega)
  have hbelow (k : Nat) : bytesRead + k < actualSize ↔ k < actualSize - bytesRead := by omega
  have hfirst : bytesRead < actualSize ↔ 0 < actualSize - bytesRead := by omega
  simp only [ReadCode.readWord, ReadCode.putBelow, hsum 0 (by decide), hsum 1 (by decide),
    hsum 2 (by decide), hsum 3 (by decide), hbelow, hfirst]
  have hold : ∀ j ∈ (d.data dev).2.written,
      j ∈ d.written ∨ j < bytesRead + (actualSize - bytesRead) := fun j hj => .inl hj
  revert hold
  rcases actualSize - bytesRead with _ | _ | _ | _ | rest <;> intro hold
  · exact ⟨_, fun _ => rfl, rfl, rfl, (store_nil ..).symm, hold, rfl⟩
  · exact ⟨_, fun _ => rfl, rfl, rfl, rfl, Reader.written_put hold (by omega), rfl⟩
  · exact ⟨_, fun _ => rfl, rfl, rfl, (store_cons ..).symm,
      Reader.written_put (Reader.written_put hold (by omega)) (by omega), rfl⟩
  · refine ⟨_, fun _ => rfl, rfl, rfl, ?_, ?_, rfl⟩
    · exact ((store_cons ..).trans (store_cons ..)).symm
    · refine Reader.written_put (Reader.written_put (Reader.written_put hold ?_) ?_) ?_ <;> omega
  · refine ⟨_, fun _ => rfl, rfl, rfl, ?_, ?_, rfl⟩
    · rw [List.take_of_length_le (by rw [length_bytes32]; omega)]
      exact (store_bytes32 ..).symm
    · refine Reader.written_put (Reader.written_put (Reader.written_put (Reader.written_put hold
        ?_) ?_) ?_) ?_ <;> omega

variable (fuel : Nat)

theorem exec_status :
    dev.bus.exec fuel ReadCode.status d = some ((d.status dev).1, (d.status dev).2) := rfl

theorem exec_say (m : ReadMessage) :
    dev.bus.exec fuel (ReadCode.say m) d = some ((), d.say m) := rfl

/-- The response size is taken from the buffer. -/
theorem exec_actualSize :
    dev.bus.exec fuel ReadCode.actualSize d = some (get32 d.respBuf 2, d) := by
  simp [ReadCode.actualSize, ReadCode.load, Bus.exec, Registers.bus, Reader.answer, get32]

theorem exec_readTail_done {actualSize paddedSize bytesRead : Nat}
    (h : ¬ bytesRead < paddedSize) (passes : Nat) :
    dev.bus.exec fuel (ReadCode.readTail actualSize paddedSize passes bytesRead) d =
      some (actualSize, d.say (.complete (.ofNat 32 actualSize) (.ofNat 32 bytesRead))) := by
  cases passes with
  | zero => rfl
  | succ passes =>
      rw [ReadCode.readTail, if_neg h]
      rfl

theorem exec_readTail_stopped {actualSize paddedSize bytesRead : Nat}
    (h : bytesRead < paddedSize) (hstatus : (d.status dev).1 ≠ TpmState.sending.value)
    (passes : Nat) :
    dev.bus.exec fuel (ReadCode.readTail actualSize paddedSize (passes + 1) bytesRead) d =
      some (if actualSize < bytesRead then actualSize else bytesRead,
        (d.status dev).2.say .stoppedEarly) := by
  rw [ReadCode.readTail, if_pos h, dev.bus.exec_bind (exec_status dev d fuel), if_pos hstatus,
    dev.bus.exec_bind (exec_say dev _ fuel _)]
  rfl

theorem exec_readTail_sending {actualSize paddedSize bytesRead : Nat} {d' : Reader σ}
    (h : bytesRead < paddedSize) (hstatus : (d.status dev).1 = TpmState.sending.value)
    (hword : dev.bus.exec fuel (ReadCode.readWord actualSize bytesRead) (d.status dev).2 =
      some ((), d')) (passes : Nat) :
    dev.bus.exec fuel (ReadCode.readTail actualSize paddedSize (passes + 1) bytesRead) d =
      dev.bus.exec fuel (ReadCode.readTail actualSize paddedSize passes ((bytesRead + 4) % 2 ^ 32))
        d' := by
  rw [ReadCode.readTail, if_pos h, dev.bus.exec_bind (exec_status dev d fuel),
    if_neg (not_not.mpr hstatus)]
  exact dev.bus.exec_bind hword _

/-- The size is checked first, against the buffer and against the header. -/
theorem exec_readRest (maxLen : Nat) :
    let size := get32 d.respBuf 2
    let said := d.say (.size (.ofNat 32 size) (.ofNat 32 (padded size)))
    dev.bus.exec fuel (ReadCode.readRest maxLen) d =
      if maxLen < size then some (12, said.say .tooSmall)
      else if size < 10 then some (12, said.say .invalidSize)
      else dev.bus.exec fuel
        (ReadCode.readTail size (padded size) (padded size / 4) 12) said := by
  intro size said
  rw [ReadCode.readRest, dev.bus.exec_bind (exec_actualSize dev d fuel)]
  dsimp only
  rw [dev.bus.exec_bind (exec_say dev d fuel _)]
  split_ifs
  · rw [dev.bus.exec_bind (exec_say dev _ fuel _)]
    rfl
  · rw [dev.bus.exec_bind (exec_say dev _ fuel _)]
    rfl
  · rfl

theorem await_ready (h : (d.status dev).1 ≠ TpmState.processing.value) :
    dev.bus.await () (fuel + 1) d = some (d.status dev).2 :=
  if_pos (decide_eq_true h)

theorem await_busy (h : (d.status dev).1 = TpmState.processing.value) :
    dev.bus.await () (fuel + 1) d = dev.bus.await () fuel (d.status dev).2 :=
  if_neg fun hready => (of_decide_eq_true hready : (d.status dev).1 ≠ _) h

/-- The function behind its busy wait. -/
theorem exec_tpmReadResponse {ready : Reader σ} (h : dev.bus.await () fuel d = some ready)
    (maxLen : Nat) :
    dev.bus.exec fuel (ReadCode.tpmReadResponse maxLen) d =
      if (ready.status dev).1 ≠ TpmState.sending.value then
        some (0, ((ready.status dev).2.status dev).2.say
          (.notSending (.ofNat 32 ((ready.status dev).2.status dev).1)))
      else dev.bus.exec fuel (do
        ReadCode.readHeader 0
        ReadCode.readHeader 1
        ReadCode.readHeader 2
        ReadCode.readRest maxLen) ((ready.status dev).2.say .reading) := by
  rw [ReadCode.tpmReadResponse, Prog.wait_bind, Prog.ret_bind, Bus.exec, h, Option.bind_some,
    dev.bus.exec_bind (exec_status dev ready fuel)]
  split_ifs
  · rw [ReadCode.notSending, dev.bus.exec_bind (exec_status dev _ fuel),
      dev.bus.exec_bind (exec_say dev _ fuel _)]
    rfl
  · rw [dev.bus.exec_bind (exec_say dev _ fuel _)]

end Pieces

end TpmEmulator
