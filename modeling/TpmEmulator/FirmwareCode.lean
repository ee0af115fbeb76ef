import TpmEmulator.Board
import TpmEmulator.DriverRobustness
import TpmEmulator.HexDump

/-!
The firmware as a program on the board: `uart.c` and `main.c` with every register
access and every busy wait in its place. A program is a tree of accesses, so what
the host does between two of them is part of a run. Every call of the formatted
output is one of the listed messages, with its arguments.
-/
namespace TpmEmulator
open Programs CellMemory BigEndian

/-- A piece of a message: one of those of `tpm_read_response`, or a number under
`%0nX`, or a character. -/
inductive TextPart
  | plain (part : MessagePart)
  | upperHex (width : Fin 11) (v : BitVec 32)
  | char (c : UInt8)

namespace TextPart

def items : TextPart → List FormatItem
  | .plain part => part.items
  | .upperHex width v => [.number .upperHex true width v]
  | .char c => [.char (c.toBitVec.setWidth 32)]

/-- The characters a piece can take. -/
def room : TextPart → Nat
  | .plain part => part.room
  | .upperHex _ _ => 10
  | .char _ => 1

end TextPart

def menuLines : List String :=
  ["\n--- TPM Command Menu ---\n",
   "1: TPM2_GetRandom (32 bytes)\n",
   "2: TPM2_CreatePrimary (ECC P-256 primary storage key)\n",
   "3: TPM2_NV_DefineSpace (32-byte index)\n",
   "4: TPM2_NV_Write (\"TEST\" to index)\n",
   "5: TPM2_NV_Read (4 bytes from index)\n",
   "6: Test: BAD_HDR (header size mismatch)\n",
   "7: Test: GetRandom_TOO_BIG (parameter bounds)\n",
   "8: Test: NV_READ_OVERSIZE (out-of-bounds read)\n",
   "9: Test: NV_WRITE_OVERSIZE (out-of-bounds write)\n",
   "a: Test: NV_WRITE_FMT_STR (format-string payload)\n",
   "b: Test: NV_READ_UNINIT (uninitialized read)\n",
   "c: Test: INT_OVERFLOW (integer overflow attempt)\n",
   "Select an option: "]

/-- The calls of `UART_printf`, with the values they print. -/
inductive Message
  | started
  | menu (line : Fin 14)
  | echo (c : UInt8)
  | invalidOption (c : UInt8)
  | sending (len padded : BitVec 32)
  | read (m : ReadMessage)
  | header
  | tag (value : BitVec 32)
  | size (value : BitVec 32)
  | code (value : BitVec 32)
  | success
  | error
  | fullResponse
  | noResponse
  | lineEnd

namespace Message

def parts : Message → List TextPart
  | .started => [.plain (.text "--- TPM Firmware Test Started ---\n")]
  | .menu line => [.plain (.text (menuLines.getD line ""))]
  | .echo c => [.char c, .plain (.text "\n")]
  | .invalidOption c => [.plain (.text "Invalid option '"), .char c, .plain (.text "'\n")]
  | .sending len padded =>
      [.plain (.text "Sending command (size "), .plain (.number len),
        .plain (.text ", padded to "), .plain (.number padded), .plain (.text ")...\n")]
  | .read m => m.parts.map .plain
  | .header => [.plain (.text "\nResponse Header:\n")]
  | .tag value =>
      [.plain (.text "  Tag:  0x"), .upperHex ⟨4, by decide⟩ value, .plain (.text "\n")]
  | .size value => [.plain (.text "  Size: "), .plain (.number value), .plain (.text " bytes\n")]
  | .code value =>
      [.plain (.text "  Code: 0x"), .upperHex ⟨8, by decide⟩ value, .plain (.text " ")]
  | .success => [.plain (.text "(TPM_RC_SUCCESS)\n")]
  | .error => [.plain (.text "(ERROR)\n")]
  | .fullResponse => [.plain (.text "\nFull Response (Hex):\n")]
  | .noResponse => [.plain (.text "Failed to get response.\n")]
  | .lineEnd => [.plain (.text "\n")]

/-- The format of a message with its arguments. -/
def items (m : Message) : List FormatItem := m.parts.flatMap TextPart.items

/-- What arrives at the terminal: the text of the standard up to a NUL in it. -/
def text (m : Message) : List UInt8 := uartPutstr (isoPrintf m.items)

end Message

theorem putstr_append_nul (s : List UInt8) : uartPutstr (s ++ [0]) = uartPutstr s := by
  induction s with
  | nil => rfl
  | cons c s ih =>
      rw [uartPutstr, uartPutstr] at ih ⊢
      simp only [List.cons_append, List.takeWhile_cons, ih]

theorem uart_eq_iso_of_mem_part {part : TextPart} {item : FormatItem} (h : item ∈ part.items) :
    item.uart = item.iso := by
  cases part with
  | plain part => exact FormatItem.uart_eq_iso (agrees_of_mem_part h)
  | upperHex width v =>
      obtain rfl := List.mem_singleton.mp h
      exact FormatItem.uart_eq_iso fun hneg =>
        absurd hneg (Int.not_lt.mpr (Int.natCast_nonneg v.toNat))
  | char c =>
      obtain rfl := List.mem_singleton.mp h
      rfl

theorem length_iso_upperHex_le (width : Fin 11) (v : BitVec 32) :
    (isoNumber .upperHex true width v).length ≤ 10 := by
  have hpositive : ¬ NumConv.upperHex.value v < 0 := Int.not_lt.mpr (Int.natCast_nonneg v.toNat)
  have hdigits := length_convDigits_le NumConv.upperHex.text v
  rw [convDigits_eq, List.length_reverse] at hdigits
  have hwidth := width.isLt
  simp only [isoNumber, if_neg hpositive, if_true, List.nil_append, List.length_nil,
    List.length_append, List.length_replicate]
  omega

theorem length_iso_part_le (part : TextPart) : (isoPrintf part.items).length ≤ part.room := by
  cases part with
  | plain part => simpa [TextPart.items, TextPart.room] using length_parts_le [part]
  | upperHex width v =>
      simpa [isoPrintf, TextPart.items, FormatItem.iso, TextPart.room] using
        length_iso_upperHex_le width v
  | char c => exact Nat.le_refl 1

theorem length_iso_parts_le (parts : List TextPart) :
    (isoPrintf (parts.flatMap TextPart.items)).length ≤ (parts.map TextPart.room).sum := by
  induction parts with
  | nil => exact Nat.le_refl 0
  | cons part parts ih =>
      have hpart := length_iso_part_le part
      rw [isoPrintf] at ih hpart ⊢
      simp only [List.flatMap_cons, List.flatMap_append, List.length_append, List.map_cons,
        List.sum_cons]
      omega

theorem room_message (m : Message) : (m.parts.map TextPart.room).sum ≤ 127 := by
  cases m with
  | menu line =>
      revert line
      decide +kernel
  | read m =>
      cases m <;> simp only [Message.parts, ReadMessage.parts, TextPart.room, MessagePart.room,
        List.map_cons, List.map_nil] <;> decide +kernel
  | _ =>
      simp only [Message.parts, TextPart.room, MessagePart.room, List.map_cons, List.map_nil]
      decide +kernel

theorem uartPrintf_message (m : Message) :
    ∃ r, uartPrintf (formatOf m.items) (argsOf m.items) = some r ∧
      r.buffer = isoPrintf m.items ∧ (r.buffer.length ≤ 127 → r.InBounds) := by
  obtain ⟨r, hrun, hbuffer, hbounds⟩ := uartPrintf_items m.items
  refine ⟨r, hrun, ?_, hbounds⟩
  rw [hbuffer]
  refine List.flatMap_congr fun item hitem => ?_
  obtain ⟨part, -, hpart⟩ := List.mem_flatMap.mp hitem
  exact uart_eq_iso_of_mem_part hpart

/-- Whatever is typed and whatever the TPM answers, no call of the formatted output
leaves its buffers, and what it sends is the text of the standard, up to a NUL. -/
theorem message_inBounds (m : Message) :
    ∃ r, uartPrintf (formatOf m.items) (argsOf m.items) = some r ∧ r.InBounds ∧
      r.sent = m.text := by
  obtain ⟨r, hrun, hbuffer, hbounds⟩ := uartPrintf_message m
  refine ⟨r, hrun, hbounds ?_, ?_⟩
  · rw [hbuffer]
    exact Nat.le_trans (length_iso_parts_le m.parts) (room_message m)
  · rw [PrintfRun.sent, hbuffer, Message.text]
    exact putstr_append_nul _

/-- A carriage return or a line feed. -/
def EndsLine (c : UInt8) : Prop := c = ascii '\r' ∨ c = newline

instance : DecidablePred EndsLine := fun _ => inferInstanceAs (Decidable (_ ∨ _))

/-- A value computed by accesses to the board and busy waits. -/
abbrev Code := Prog Request Busy (BitVec 32)

namespace Code

def read (r : Register) : Code (BitVec 32) := Prog.ask (.read r) Prog.ret

def write (r : Register) (value : BitVec 32) : Code Unit :=
  Prog.ask (.write r value) fun _ => Prog.ret ()

def wait (busy : Busy) : Code Unit := Prog.wait busy (Prog.ret ())

/-- Plain characters are unsigned on the target. -/
def charWord (c : UInt8) : BitVec 32 := c.toBitVec.setWidth 32

def uartInit : Code Unit := do
  write .uart0Bauddiv 16
  write .uart0Ctrl 1

def uartPutstr : List UInt8 → Code Unit
  | [] => pure ()
  | c :: s =>
      if c = 0 then pure ()
      else do
        write .uart0Data (charWord c)
        uartPutstr s

/-- The buffer is rendered before its first character is sent. -/
def uartPrintf (fmt : CString) (args : List PrintfArg) : Code Unit :=
  match TpmEmulator.uartPrintf fmt args with
  | none => pure ()
  | some r => uartPutstr (r.buffer ++ [0])

def uartPutc (c : UInt8) : Code Unit := do
  wait .rxff
  write .uart0Data (charWord c)

def uartGetc : Code UInt8 := do
  wait .rxfe
  let word ← read .uart0Data
  return .ofBitVec (word.setWidth 8)

/-- The loop of `UART_gets` with `n` characters to go. -/
def getsLoop : Nat → Nat → (Nat → UInt8) → Code (Nat × (Nat → UInt8))
  | 0, i, s => pure (i, s)
  | n + 1, i, s => do
      let c ← uartGetc
      uartPutc c
      if EndsLine c then pure (i, s) else getsLoop n (i + 1) (store s i [c])

/-- What `UART_gets` does behind its loop. -/
def endLine (line : Nat × (Nat → UInt8)) : Code (Nat → UInt8) := do
  uartPutc newline
  return store line.2 line.1 [0]

def uartGets (s : Nat → UInt8) (maxlen : Int) : Code (Nat → UInt8) := do
  let line ← getsLoop (maxlen - 1).toNat 0 s
  endLine line

def say (m : Message) : Code Unit := uartPrintf (formatOf m.items) (argsOf m.items)

def sayAll : List Message → Code Unit
  | [] => pure ()
  | m :: ms => do
      say m
      sayAll ms

/-- What follows the byte at an index. -/
def hexSeparator (i : Nat) : Code Unit :=
  if (i + 1) % 2 ^ 32 % 16 = 0 then uartPutstr [newline, 0]
  else if (i + 1) % 2 ^ 32 % 4 = 0 then uartPutstr [blank, 0]
  else pure ()

def hexLoop (i : Nat) : List UInt8 → Code Unit
  | [] => pure ()
  | b :: bytes => do
      uartPutc (hexDigit ((b >>> 4) &&& 0x0f))
      uartPutc (hexDigit (b &&& 0x0f))
      hexSeparator i
      hexLoop (i + 1) bytes

def uartPrintHex (data : Nat → UInt8) (len : Nat) : Code Unit := do
  hexLoop 0 (slice data 0 len)
  if len % 16 ≠ 0 then say .lineEnd else pure ()

end Code

/-- The header states 48 bytes. -/
def cmdBadHdr : List UInt8 :=
  [0x80, 0x01, 0x00, 0x00, 0x00, 0x30, 0x00, 0x00, 0x01, 0x7B, 0x00, 0x04]

def cmdGetRandomTooBig : List UInt8 :=
  [0x80, 0x01, 0x00, 0x00, 0x00, 0x0C, 0x00, 0x00, 0x01, 0x7B, 0xFF, 0xFF]

def cmdNvReadOversize : List UInt8 :=
  [0x80, 0x01, 0x00, 0x00, 0x00, 0x18, 0x00, 0x00, 0x01, 0x4E, 0x40, 0x00, 0x00, 0x0C,
   0x01, 0x00, 0x00, 0x01, 0x00, 0x00, 0x04, 0x00, 0x00, 0x00]

/-- The data have two bytes less than their size says, and the whole six less than
the header says. -/
def cmdNvWriteOversize : List UInt8 :=
  [0x80, 0x01, 0x00, 0x00, 0x00, 0x3D, 0x00, 0x00, 0x01, 0x37, 0x40, 0x00, 0x00, 0x0C,
   0x01, 0x00, 0x00, 0x01, 0x00, 0x00, 0x00, 0x21] ++ List.replicate 31 0x41 ++ [0x00, 0x00]

def cmdNvWriteFmtStr : List UInt8 :=
  [0x80, 0x01, 0x00, 0x00, 0x00, 0x2B, 0x00, 0x00, 0x01, 0x37, 0x40, 0x00, 0x00, 0x0C,
   0x01, 0x00, 0x00, 0x01, 0x00, 0x00, 0x00, 0x0B,
   0x25, 0x78, 0x25, 0x73, 0x25, 0x6E, 0x41, 0x42, 0x43, 0x00, 0x01, 0x00, 0x00]

def cmdNvReadUninit : List UInt8 :=
  [0x80, 0x01, 0x00, 0x00, 0x00, 0x18, 0x00, 0x00, 0x01, 0x4E, 0x40, 0x00, 0x00, 0x0C,
   0x01, 0x00, 0x00, 0x02, 0x00, 0x00, 0x00, 0x04, 0x00, 0x00]

def cmdIntOverflow : List UInt8 :=
  [0x80, 0x01, 0x00, 0x00, 0x00, 0x0C, 0x00, 0x00, 0x01, 0x7B, 0xFF, 0xFF]

/-- The cases of the switch over the key. -/
def menuCases : List (UInt8 × List UInt8) :=
  [(ascii '1', cmdGetRandom), (ascii '2', cmdCreatePrimary), (ascii '3', cmdNvDefineSpace),
    (ascii '4', cmdNvWrite), (ascii '5', cmdNvRead), (ascii '6', cmdBadHdr),
    (ascii '7', cmdGetRandomTooBig), (ascii '8', cmdNvReadOversize),
    (ascii '9', cmdNvWriteOversize), (ascii 'a', cmdNvWriteFmtStr), (ascii 'A', cmdNvWriteFmtStr),
    (ascii 'b', cmdNvReadUninit), (ascii 'B', cmdNvReadUninit), (ascii 'c', cmdIntOverflow),
    (ascii 'C', cmdIntOverflow)]

def menuCommand (c : UInt8) : Option (List UInt8) :=
  (menuCases.find? fun case => case.1 == c).map Prod.snd

namespace Code

def writeWords : List Nat → Code Unit
  | [] => pure ()
  | word :: words => do
      write .tpm2Data (.ofNat 32 word)
      writeWords words

/-- The function up to the write that starts the command. -/
def tpmTransmit (cmdBuf : Nat → UInt8) (len : Nat) : Code Unit := do
  write .tpm2Ctrl 1
  say (.sending (.ofNat 32 len) (.ofNat 32 (padded len)))
  writeWords (commandWords cmdBuf len)

def tpmSendCommand (cmdBuf : Nat → UInt8) (len : Nat) : Code Unit := do
  tpmTransmit cmdBuf len
  write .tpm2Cmd 1

/-- The requests of `tpm_read_response` on the board. Its buffer is the caller's. -/
def ofRead {α : Type} : ReadCode α → (Nat → UInt8) → Code (α × (Nat → UInt8))
  | .ret a, respBuf => pure (a, respBuf)
  | .wait _ k, respBuf => do
      wait .processing
      ofRead k respBuf
  | .ask .status k, respBuf => do
      let state ← read .tpm2Status
      ofRead (k state.toNat) respBuf
  | .ask .data k, respBuf => do
      let word ← read .tpm2Data
      ofRead (k word.toNat) respBuf
  | .ask (.load i) k, respBuf => ofRead (k (respBuf i).toNat) respBuf
  | .ask (.put i b) k, respBuf => ofRead (k 0) (store respBuf i [b])
  | .ask (.say m) k, respBuf => do
      say (.read m)
      ofRead (k 0) respBuf

def tpmReadResponse (respBuf : Nat → UInt8) (maxLen : Nat) : Code (Nat × (Nat → UInt8)) :=
  ofRead (ReadCode.tpmReadResponse maxLen) respBuf

def printMenu : Code Unit := sayAll ((List.finRange 14).map .menu)

def parseResponseHeader (respBuf : Nat → UInt8) : Code Unit :=
  let code := get32 respBuf 6
  sayAll
    [.header, .tag (.ofNat 32 (get16 respBuf 0)), .size (.ofNat 32 (get32 respBuf 2)),
      .code (.ofNat 32 code), if code = 0 then .success else .error]

/-- What main does with a response. -/
def report (respSize : Nat) (respBuf : Nat → UInt8) : Code Unit :=
  if 0 < respSize then do
    parseResponseHeader respBuf
    say .fullResponse
    uartPrintHex respBuf respSize
  else say .noResponse

def responseBufferSize : Nat := 1024

/-- What a command of the menu comes to. -/
def exchange (cmd : List UInt8) (respBuf : Nat → UInt8) : Code (Nat → UInt8) := do
  tpmSendCommand (cmd.getD · 0) cmd.length
  let response ← tpmReadResponse respBuf responseBufferSize
  report response.1 response.2
  return response.2

/-- The switch over the key. -/
def serveKey (c : UInt8) (respBuf : Nat → UInt8) : Code (Nat → UInt8) :=
  match menuCommand c with
  | none => do
      say (.invalidOption c)
      return respBuf
  | some cmd => exchange cmd respBuf

/-- The main loop behind the menu. -/
def serve (respBuf : Nat → UInt8) : Code (Nat → UInt8) := do
  let c ← uartGetc
  say (.echo c)
  serveKey c respBuf

/-- One round of the main loop. The response buffer lives outside of it. -/
def mainLoop (respBuf : Nat → UInt8) : Code (Nat → UInt8) := do
  printMenu
  serve respBuf

def main (respBuf : Nat → UInt8) : Code (Nat → UInt8) := do
  uartInit
  say .started
  mainLoop respBuf

end Code

end TpmEmulator
