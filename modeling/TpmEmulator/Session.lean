import TpmEmulator.Terminal

/-!
Sessions with the firmware. What the terminal shows is a function of the keys that
were typed: each key is echoed and served by one exchange with the TPM, whatever
the order in which the host delivers keys and the firmware accesses its registers.
-/
namespace TpmEmulator
open Programs CellMemory BigEndian

def menuText : List UInt8 := ((List.finRange 14).map Message.menu).flatMap Message.text

def sizeMessage (size : Nat) : Message :=
  .read (.size (.ofNat 32 size) (.ofNat 32 (padded size)))

def completeMessage (size : Nat) : Message :=
  .read (.complete (.ofNat 32 size) (.ofNat 32 (padded size)))

def readMessages (size : Nat) : List Message :=
  [.read .reading, sizeMessage size, completeMessage size]

def headerMessages (header : Header) : List Message :=
  [.header, .tag (.ofNat 32 header.tag), .size (.ofNat 32 header.size),
    .code (.ofNat 32 header.code), if header.code = 0 then .success else .error]

/-- What is printed while the response is read and when it has been read. -/
def answerText (t : Tpm2State) : List UInt8 :=
  let header := responseHeader t
  (readMessages header.size ++ headerMessages header ++ [Message.fullResponse]).flatMap
      Message.text ++
    uartPrintHex t.responseBuffer (.ofNat 32 header.size)

/-- The TPM after its response has been read. -/
def fetched (host : Host) (t : Tpm2State) : Tpm2State :=
  Runs.run (step host) t (List.replicate (((responseHeader t).size + 3) / 4) (.read tpm2DataReg))

/-- The terminal, and the response buffer of the firmware. -/
structure Session where
  terminal : Terminal
  respBuf : Nat → UInt8

namespace Session

def start (host : Host) (respBuf : Nat → UInt8) : Session :=
  ⟨⟨[], Message.started.text ++ menuText, tpm2Realize host, 0⟩, respBuf⟩

def say (s : Session) (text : List UInt8) : Session := { s with terminal := s.terminal.say text }

/-- A command is sent and its answer is read and printed. -/
def exchange (host : Host) (env : Nat → Surroundings) (s : Session) (cmd : List UInt8) : Session :=
  let t := Runs.run (step host) s.terminal.tpm (send (env s.terminal.commands) cmd)
  let sending := Message.sending (.ofNat 32 cmd.length) (.ofNat 32 (padded cmd.length))
  { terminal :=
      { s.terminal with tpm := fetched host t, commands := s.terminal.commands + 1 }.say
        (sending.text ++ answerText t)
    respBuf := store s.respBuf 0 (slice t.responseBuffer 0 (max 12 (responseHeader t).size)) }

def serveKey (host : Host) (env : Nat → Surroundings) (s : Session) (c : UInt8) : Session :=
  match menuCommand c with
  | none => s.say (Message.invalidOption c).text
  | some cmd => s.exchange host env cmd

/-- A typed word is echoed and served, and the menu is printed again. -/
def serve (host : Host) (env : Nat → Surroundings) (s : Session) (word : BitVec 32) : Session :=
  let c : UInt8 := .ofBitVec (word.setWidth 8)
  ((s.say (Message.echo c).text).serveKey host env c).say menuText

end Session

section Firmware
variable (host : Host) (env : Nat → Surroundings) (s : Terminal)

theorem does_writeData (c : UInt8) :
    (Terminal.model host env).Does s (Code.write .uart0Data (Code.charWord c)) (s.say [c]) () := by
  refine .ask (v := 0) ?_ (.ret _ ())
  have hbyte : UInt8.ofBitVec ((Code.charWord c).setWidth 8) = c := by
    simp [Code.charWord]
  change some (0, s.say [.ofBitVec ((Code.charWord c).setWidth 8)]) = _
  rw [hbyte]

theorem does_putc (c : UInt8) :
    (Terminal.model host env).Does s (Code.uartPutc c) (s.say [c]) () :=
  .wait rfl (does_writeData host env s c)

theorem does_putstr (text : List UInt8) :
    (Terminal.model host env).Does s (Code.uartPutstr text) (s.say (uartPutstr text)) () := by
  induction text generalizing s with
  | nil =>
      rw [uartPutstr, List.takeWhile_nil, Terminal.say_nil]
      exact .ret s ()
  | cons c text ih =>
      rw [Code.uartPutstr, uartPutstr, List.takeWhile_cons]
      by_cases hc : c = 0
      · simp only [hc, if_true, bne_self_eq_false, Bool.false_eq_true, if_false, Terminal.say_nil]
        exact .ret s ()
      · simp only [hc, if_false, bne_iff_ne, ne_eq, not_false_eq_true, if_true]
        have hrest := ih (s.say [c])
        rw [Terminal.say_say] at hrest
        exact (does_writeData host env s c).bind hrest

theorem does_say (m : Message) :
    (Terminal.model host env).Does s (Code.say m) (s.say m.text) () := by
  obtain ⟨r, hrun, hbuffer, -⟩ := uartPrintf_message m
  simp only [Code.say, Code.uartPrintf, hrun]
  rw [hbuffer, Message.text, ← putstr_append_nul]
  exact does_putstr host env s _

theorem does_sayAll (ms : List Message) :
    (Terminal.model host env).Does s (Code.sayAll ms) (s.say (ms.flatMap Message.text)) () := by
  induction ms generalizing s with
  | nil =>
      rw [List.flatMap_nil, Terminal.say_nil]
      exact .ret s ()
  | cons m ms ih =>
      have hrest := ih (s.say m.text)
      rw [Terminal.say_say] at hrest
      exact (does_say host env s m).bind hrest

theorem does_separator (i : Nat) :
    (Terminal.model host env).Does s (Code.hexSeparator i) (s.say (hexSeparator i)) () := by
  rw [hexSeparator, Code.hexSeparator]
  split_ifs
  · exact does_putstr host env s [newline, 0]
  · exact does_putstr host env s [blank, 0]
  · rw [Terminal.say_nil]
    exact .ret s ()

theorem does_hexLoop (i : Nat) (bytes : List UInt8) :
    (Terminal.model host env).Does s (Code.hexLoop i bytes) (s.say (hexLoop i bytes)) () := by
  induction bytes generalizing s i with
  | nil =>
      rw [hexLoop, Terminal.say_nil]
      exact .ret s ()
  | cons b bytes ih =>
      have hhigh := does_putc host env s (hexDigit ((b >>> 4) &&& 0x0f))
      have hlow := does_putc host env (s.say [hexDigit ((b >>> 4) &&& 0x0f)])
        (hexDigit (b &&& 0x0f))
      rw [Terminal.say_say] at hlow
      have hseparator := does_separator host env (s.say (hexByte b)) i
      rw [Terminal.say_say] at hseparator
      have hrest := ih (s.say (hexByte b ++ hexSeparator i)) (i + 1)
      rw [Terminal.say_say] at hrest
      exact hhigh.bind (hlow.bind (hseparator.bind hrest))

theorem does_printHex (data : Nat → UInt8) {len : Nat} (hlen : len < 2 ^ 32) :
    (Terminal.model host env).Does s (Code.uartPrintHex data len)
      (s.say (uartPrintHex data (.ofNat 32 len))) () := by
  have htoNat : (BitVec.ofNat 32 len).toNat = len := by
    rw [BitVec.toNat_ofNat, Nat.mod_eq_of_lt hlen]
  rw [uartPrintHex, htoNat, ← Terminal.say_say]
  refine (does_hexLoop host env s 0 (slice data 0 len)).bind ?_
  split_ifs
  · exact does_say host env _ .lineEnd
  · rw [Terminal.say_nil]
    exact .ret _ ()

theorem does_getc {word : BitVec 32} {words : List (BitVec 32)} (h : s.input = word :: words) :
    (Terminal.model host env).Does s Code.uartGetc { s with input := words }
      (.ofBitVec (word.setWidth 8)) := by
  refine .wait ?_ (.ask (v := word) ?_ (.ret _ _))
  · simp [Terminal.model, Terminal.ready, h]
  · simp only [Terminal.model, Terminal.read, Register.tpm?, h]

theorem does_readTpm {r : Register} {a : Nat} (h : r.tpm? = some a) :
    (Terminal.model host env).Does s (Code.read r) { s with tpm := (tpm2MmioRead s.tpm a).2 }
      (.ofNat 32 (tpm2MmioRead s.tpm a).1) := by
  refine .ask ?_ (.ret _ _)
  simp only [Terminal.model, Terminal.read, h]

theorem does_writeTpm {r : Register} {a : Nat} (h : r.tpm? = some a) (value : BitVec 32) :
    (Terminal.model host env).Does s (Code.write r value)
      { s with
        tpm := step host s.tpm (.write (env s.commands) a value.toNat)
        commands := if a = tpm2CmdReg then s.commands + 1 else s.commands } () := by
  refine .ask (v := 0) ?_ (.ret _ _)
  simp only [Terminal.model, Terminal.write, h, Option.map_some]
  rfl

theorem does_writeWords {words : List Nat} (h : ∀ word ∈ words, word < 2 ^ 32) :
    (Terminal.model host env).Does s (Code.writeWords words)
      { s with
        tpm := Runs.run (step host) s.tpm
          (words.map (.write (env s.commands) tpm2DataReg)) } () := by
  induction words generalizing s with
  | nil => exact .ret s ()
  | cons word words ih =>
      obtain ⟨hword, hwords⟩ := List.forall_mem_cons.mp h
      have hfirst := does_writeTpm host env s (r := .tpm2Data) (a := tpm2DataReg) rfl
        (.ofNat 32 word)
      rw [BitVec.toNat_ofNat, Nat.mod_eq_of_lt hword, if_neg (by decide)] at hfirst
      exact hfirst.bind (ih _ hwords)

theorem does_transmit (cmdBuf : Nat → UInt8) (len : Nat) :
    (Terminal.model host env).Does s (Code.tpmTransmit cmdBuf len)
      ({ s with tpm := Runs.run (step host) s.tpm (tpmTransmit (env s.commands) cmdBuf len) }.say
        (Message.sending (.ofNat 32 len) (.ofNat 32 (padded len))).text) () := by
  have hwords : ∀ word ∈ commandWords cmdBuf len, word < 2 ^ 32 := by
    intro word hword
    obtain ⟨k, -, rfl⟩ := List.mem_map.mp hword
    exact be32_lt _ _ _ _
  rw [tpmTransmit, Runs.run_cons]
  exact (does_writeTpm host env s (r := .tpm2Ctrl) rfl 1).bind
    ((does_say host env _ _).bind (does_writeWords host env _ hwords))

/-- Sending a command is the sequence of writes of the driver, with its message. -/
theorem does_sendCommand (cmdBuf : Nat → UInt8) (len : Nat) :
    (Terminal.model host env).Does s (Code.tpmSendCommand cmdBuf len)
      ({ s with
        tpm := Runs.run (step host) s.tpm (tpmSendCommand (env s.commands) cmdBuf len)
        commands := s.commands + 1 }.say
          (Message.sending (.ofNat 32 len) (.ofNat 32 (padded len))).text) () := by
  rw [tpmSendCommand, Runs.run_append]
  exact (does_transmit host env s cmdBuf len).bind
    (does_writeTpm host env _ (r := .tpm2Cmd) rfl 1)

theorem mmioRead_data_lt (t : Tpm2State) : (tpm2MmioRead t tpm2DataReg).1 < 2 ^ 32 := by
  rw [tpm2MmioRead, if_neg (by decide), if_neg (by decide), if_pos rfl]
  split_ifs
  · exact Nat.two_pow_pos 32
  · exact Nat.two_pow_pos 32
  · dsimp only
    split <;> exact get32_lt _ _

theorem does_readData (t : Tpm2State) :
    ∃ word, word.toNat = (tpm2MmioRead t tpm2DataReg).1 ∧
      (Terminal.model host env).Does { s with tpm := t } (Code.read .tpm2Data)
        { s with tpm := (tpm2MmioRead t tpm2DataReg).2 } word :=
  ⟨.ofNat 32 (tpm2MmioRead t tpm2DataReg).1,
    by rw [BitVec.toNat_ofNat, Nat.mod_eq_of_lt (mmioRead_data_lt t)],
    does_readTpm host env { s with tpm := t } (r := .tpm2Data) rfl⟩

theorem does_readStatus (t : Tpm2State) :
    ∃ word, word.toNat = t.state.value ∧
      (Terminal.model host env).Does { s with tpm := t } (Code.read .tpm2Status)
        { s with tpm := t } word := by
  have hread := does_readTpm host env { s with tpm := t } (r := .tpm2Status)
    (a := tpm2StatusReg) rfl
  rw [mmioRead_status] at hread
  refine ⟨.ofNat 32 t.state.value, ?_, hread⟩
  cases t.state <;> rfl

/-- The emulated device does not change while it is polled. -/
theorem await_tpmRegisters {fuel : Nat} {d ready : Driver}
    (h : tpmRegisters.bus.await () fuel d = some ready) :
    d.device.state ≠ .processing ∧ ready = d := by
  induction fuel with
  | zero => cases h
  | succ fuel ih =>
      have hstatus := status_tpmRegisters d
      by_cases hbusy : d.device.state = .processing
      · rw [await_busy tpmRegisters d fuel (by rw [hstatus, hbusy]), hstatus] at h
        exact ih h
      · have hvalue : d.device.state.value ≠ TpmState.processing.value := by
          cases hstate : d.device.state <;> first | exact absurd hstate hbusy | decide
        rw [await_ready tpmRegisters d fuel (by rwa [hstatus]), hstatus] at h
        exact ⟨hbusy, (Option.some.inj h).symm⟩

/-- On the board `tpm_read_response` does what it does on the registers of the device
alone, and its messages appear on the terminal. -/
theorem does_ofRead {α : Type} {fuel : Nat} {p : ReadCode α} {d d' : Driver} {a : α}
    (h : tpmRegisters.bus.exec fuel p d = some (a, d')) :
    ∃ said, d'.log = d.log ++ said ∧
      (Terminal.model host env).Does { s with tpm := d.device } (Code.ofRead p d.respBuf)
        ({ s with tpm := d'.device }.say (said.flatMap fun m => (Message.read m).text))
        (a, d'.respBuf) := by
  induction p generalizing s d with
  | ret b =>
      cases h
      refine ⟨[], (List.append_nil _).symm, ?_⟩
      rw [List.flatMap_nil, Terminal.say_nil]
      exact .ret _ _
  | ask r k ih =>
      cases r with
      | status =>
          obtain ⟨word, hword, hread⟩ := does_readStatus host env s d.device
          have hstatus := status_tpmRegisters d
          have hexec : tpmRegisters.bus.exec fuel (k word.toNat) d = some (a, d') := by
            rw [hword]
            change tpmRegisters.bus.exec fuel (k (d.status tpmRegisters).1)
              (d.status tpmRegisters).2 = _ at h
            rwa [hstatus] at h
          obtain ⟨said, hlog, hdoes⟩ := ih _ s hexec
          exact ⟨said, hlog, hread.bind hdoes⟩
      | data =>
          obtain ⟨word, hword, hread⟩ := does_readData host env s d.device
          have hexec : tpmRegisters.bus.exec fuel (k word.toNat) (d.data tpmRegisters).2 =
              some (a, d') := by
            rw [hword]
            exact h
          obtain ⟨said, hlog, hdoes⟩ := ih _ s hexec
          exact ⟨said, hlog, hread.bind hdoes⟩
      | load i => exact ih _ s h
      | put i b => exact ih _ s h
      | say m =>
          obtain ⟨said, hlog, hdoes⟩ := ih _ (s.say (Message.read m).text) h
          refine ⟨m :: said, hlog.trans (List.append_assoc _ _ _), ?_⟩
          rw [List.flatMap_cons, ← Terminal.say_say]
          exact (does_say host env { s with tpm := d.device } (.read m)).bind hdoes
  | wait c k ih =>
      obtain ⟨ready, hawait, hexec⟩ := Option.bind_eq_some_iff.mp h
      obtain ⟨hstate, rfl⟩ := await_tpmRegisters hawait
      obtain ⟨said, hlog, hdoes⟩ := ih s hexec
      refine ⟨said, hlog, .wait ?_ hdoes⟩
      simp [Terminal.model, Terminal.ready, hstate]

/-- A response is read whole, and the device sees one read for each of its words. -/
theorem does_readResponse {t : Tpm2State} (start : Nat → UInt8) (hstate : t.state = .sending)
    (hidx : t.respIdx = 0) (hlow : 10 ≤ (responseHeader t).size)
    (hsize : (responseHeader t).size ≤ t.respSize) (hhigh : t.respSize ≤ 1024) :
    (Terminal.model host env).Does { s with tpm := t } (Code.tpmReadResponse start 1024)
      ({ s with tpm := fetched host t }.say
        ((readMessages (responseHeader t).size).flatMap Message.text))
      ((responseHeader t).size,
        store start 0 (slice t.responseBuffer 0 (max 12 (responseHeader t).size))) := by
  obtain ⟨d, hread, hd, hlog⟩ := readResponse_sending host start hstate hidx hlow hsize hhigh
    (Nat.le_refl 1024) Nat.zero_lt_one
  obtain ⟨said, hsaid, hdoes⟩ := does_ofRead host env s hread
  have hall : min (max 12 (responseHeader t).size) (4 * (((responseHeader t).size + 3) / 4)) =
      max 12 (responseHeader t).size := by omega
  have htext : said.flatMap (fun m => (Message.read m).text) =
      (readMessages (responseHeader t).size).flatMap Message.text := by
    rw [← List.nil_append said, ← hsaid, hlog]
    rfl
  rwa [htext, hd.device, hd.respBuf, hall] at hdoes

/-- The header and the dump are those of the response in the device. -/
theorem does_report {t : Tpm2State} {respBuf : Nat → UInt8}
    (hbytes : ∀ i < max 12 (responseHeader t).size, respBuf i = t.responseBuffer i)
    (hlow : 10 ≤ (responseHeader t).size) (hhigh : (responseHeader t).size ≤ 1024) :
    (Terminal.model host env).Does s (Code.report (responseHeader t).size respBuf)
      (s.say ((headerMessages (responseHeader t) ++ [Message.fullResponse]).flatMap Message.text ++
        uartPrintHex t.responseBuffer (.ofNat 32 (responseHeader t).size))) () := by
  have htag : get16 respBuf 0 = (responseHeader t).tag :=
    get16_congr fun k hk => hbytes (0 + k) (by omega)
  have hsize : get32 respBuf 2 = (responseHeader t).size :=
    get32_congr fun k hk => hbytes (2 + k) (by omega)
  have hcode : get32 respBuf 6 = (responseHeader t).code :=
    get32_congr fun k hk => hbytes (6 + k) (by omega)
  have hheader : Code.parseResponseHeader respBuf =
      Code.sayAll (headerMessages (responseHeader t)) := by
    rw [Code.parseResponseHeader, htag, hsize, hcode]
    rfl
  have hdump : uartPrintHex respBuf (.ofNat 32 (responseHeader t).size) =
      uartPrintHex t.responseBuffer (.ofNat 32 (responseHeader t).size) := by
    have hslice : slice respBuf 0 (responseHeader t).size =
        slice t.responseBuffer 0 (responseHeader t).size :=
      slice_congr fun i hi => by rw [Nat.zero_add, hbytes i (by omega)]
    rw [uartPrintHex, uartPrintHex, BitVec.toNat_ofNat, Nat.mod_eq_of_lt (by omega), hslice]
  rw [Code.report, if_pos (by omega), hheader, List.flatMap_append, List.append_assoc,
    ← Terminal.say_say, ← Terminal.say_say, ← hdump]
  refine (does_sayAll host env s _).bind ((does_say host env _ .fullResponse).bind ?_)
  rw [List.flatMap_singleton]
  exact does_printHex host env _ respBuf (by omega)

/-- What is in the TPM when a command of the menu has been sent: an answer. -/
theorem send_answers (env : Surroundings) {cmd : List UInt8} (hcmd : cmd.length ≤ 1024)
    (s : Tpm2State) :
    let t := Runs.run (step host) s (send env cmd)
    t.state = .sending ∧ t.respIdx = 0 ∧ 10 ≤ (responseHeader t).size ∧
      (responseHeader t).size ≤ t.respSize ∧ t.respSize ≤ 1024 := by
  intro t
  have hreceiving := receiving_transmit host env (cmd.getD · 0) hcmd s
  have ht : t = step host (Runs.run (step host) s (tpmTransmit env (cmd.getD · 0) cmd.length))
      (.write env tpm2CmdReg 1) := Runs.run_append _ _ _ _
  have hanswers := answers_execute host env hreceiving.state
  have hlow := (respSize_le_padded (executeReply_wellFormed host env
    (Runs.run (step host) s (tpmTransmit env (cmd.getD · 0) cmd.length)))).1
  rw [← step_executes host ⟨rfl, hreceiving.state⟩, ← ht] at hlow
  rw [← ht] at hanswers
  exact ⟨hanswers.sending, hanswers.respIdx, hlow, hanswers.size_le, hanswers.respSize_le⟩

theorem length_menuCommand_le {c : UInt8} {cmd : List UInt8} (h : menuCommand c = some cmd) :
    cmd.length ≤ 1024 := by
  have hall : ∀ case ∈ menuCases, case.2.length ≤ 1024 := by decide
  obtain ⟨case, hfind, rfl⟩ := Option.map_eq_some_iff.mp h
  exact hall case (List.mem_of_find?_eq_some hfind)

end Firmware

/-- What a command of the menu shows. -/
theorem does_exchange (host : Host) (env : Nat → Surroundings) (s : Session) {cmd : List UInt8}
    (hcmd : cmd.length ≤ 1024) :
    (Terminal.model host env).Does s.terminal (Code.exchange cmd s.respBuf)
      (s.exchange host env cmd).terminal (s.exchange host env cmd).respBuf := by
  let t := Runs.run (step host) s.terminal.tpm (send (env s.terminal.commands) cmd)
  obtain ⟨hstate, hidx, hlow, hsize, hhigh⟩ : t.state = .sending ∧ t.respIdx = 0 ∧ _ :=
    send_answers host (env s.terminal.commands) hcmd s.terminal.tpm
  let sent := { s.terminal with commands := s.terminal.commands + 1 }.say
    (Message.sending (.ofNat 32 cmd.length) (.ofNat 32 (padded cmd.length))).text
  have hread := does_readResponse host env sent s.respBuf hstate hidx hlow hsize hhigh
  have hbytes : ∀ i < max 12 (responseHeader t).size,
      store s.respBuf 0 (slice t.responseBuffer 0 (max 12 (responseHeader t).size)) i =
        t.responseBuffer i := by
    intro i hi
    have hlength : i < (slice t.responseBuffer 0 (max 12 (responseHeader t).size)).length := by
      rwa [length_slice]
    have hcell := store_inside s.respBuf 0 _ i hlength
    rwa [getElem_slice, Nat.zero_add] at hcell
  have hterminal : (s.exchange host env cmd).terminal =
      ({ sent with tpm := fetched host t }.say
        ((readMessages (responseHeader t).size).flatMap Message.text)).say
        ((headerMessages (responseHeader t) ++ [Message.fullResponse]).flatMap Message.text ++
          uartPrintHex t.responseBuffer (.ofNat 32 (responseHeader t).size)) := by
    simp only [Session.exchange, answerText, Terminal.say, sent, List.flatMap_append,
      List.append_assoc]
    rfl
  rw [hterminal]
  exact (does_sendCommand host env s.terminal (cmd.getD · 0) cmd.length).bind
    (hread.bind ((does_report host env _ hbytes hlow (Nat.le_trans hsize hhigh)).bind (.ret _ _)))

theorem does_serveKey (host : Host) (env : Nat → Surroundings) (s : Session) (c : UInt8) :
    (Terminal.model host env).Does s.terminal (Code.serveKey c s.respBuf)
      (s.serveKey host env c).terminal (s.serveKey host env c).respBuf := by
  rw [Code.serveKey, Session.serveKey]
  cases hcmd : menuCommand c with
  | none => exact (does_say host env s.terminal (.invalidOption c)).bind (.ret _ _)
  | some cmd => exact does_exchange host env s (length_menuCommand_le hcmd)

/-- A key is served up to the next menu. -/
theorem leads_serve (host : Host) (env : Nat → Surroundings) (s : Session) {word : BitVec 32}
    {words : List (BitVec 32)} (h : s.terminal.input = word :: words) :
    let s' := { s with terminal := { s.terminal with input := words } }
    (Terminal.model host env).Leads Code.mainLoop (s.terminal, Code.serve s.respBuf)
      ((s'.serve host env word).terminal, Code.serve (s'.serve host env word).respBuf) := by
  intro s'
  let echoed := s'.say (Message.echo (.ofBitVec (word.setWidth 8))).text
  have hserve := (does_getc host env s.terminal h).bind
    (f := fun c => do Code.say (.echo c); Code.serveKey c s.respBuf)
    ((does_say host env s'.terminal _).bind (does_serveKey host env echoed _))
  have hround := hserve.leads .ret Code.mainLoop
  rw [Prog.bind_ret] at hround
  refine hround.trans (.head rfl ?_)
  exact (does_sayAll host env _ ((List.finRange 14).map Message.menu)).leads _ Code.mainLoop

def Session.feed (s : Session) (words : List (BitVec 32)) : Session :=
  { s with terminal := s.terminal.feed words }

theorem say_feed (s : Session) (text : List UInt8) (words : List (BitVec 32)) :
    (s.feed words).say text = (s.say text).feed words := rfl

theorem serveKey_feed (host : Host) (env : Nat → Surroundings) (s : Session) (c : UInt8)
    (words : List (BitVec 32)) :
    (s.feed words).serveKey host env c = (s.serveKey host env c).feed words := by
  rw [Session.serveKey, Session.serveKey]
  cases menuCommand c with
  | none => rfl
  | some cmd => rfl

/-- Serving a key does not look at those behind it. -/
theorem serve_feed (host : Host) (env : Nat → Surroundings) (s : Session) (word : BitVec 32)
    (words : List (BitVec 32)) :
    (s.feed words).serve host env word = (s.serve host env word).feed words := by
  rw [Session.serve, Session.serve, say_feed, serveKey_feed, say_feed]

theorem input_serve (host : Host) (env : Nat → Surroundings) (s : Session) (word : BitVec 32) :
    (s.serve host env word).terminal.input = s.terminal.input := by
  simp only [Session.serve, Session.serveKey]
  split <;> rfl

theorem input_run (host : Host) (env : Nat → Surroundings) (s : Session)
    (words : List (BitVec 32)) :
    (Runs.run (Session.serve host env) s words).terminal.input = s.terminal.input :=
  Runs.run_invariant (P := fun t => t.terminal.input = s.terminal.input)
    (fun t word ht => (input_serve host env t word).trans ht) s words rfl

theorem leads_run (host : Host) (env : Nat → Surroundings) (s : Session)
    (words : List (BitVec 32)) (h : s.terminal.input = []) :
    (Terminal.model host env).Leads Code.mainLoop
      (s.terminal.feed words, Code.serve s.respBuf)
      ((Runs.run (Session.serve host env) s words).terminal,
        Code.serve (Runs.run (Session.serve host env) s words).respBuf) := by
  induction words generalizing s with
  | nil =>
      rw [Terminal.feed_nil]
      exact .refl
  | cons word words ih =>
      have hinput : (s.feed (word :: words)).terminal.input = word :: words := by
        simp [Session.feed, Terminal.feed, h]
      have htaken : { s.feed (word :: words) with
          terminal := { (s.feed (word :: words)).terminal with input := words } } =
          s.feed words := by
        simp [Session.feed, Terminal.feed, h]
      have hfirst := leads_serve host env (s.feed (word :: words)) hinput
      dsimp only at hfirst
      rw [htaken, serve_feed] at hfirst
      exact hfirst.trans (ih _ ((input_serve host env s word).trans h))

/-- Where the firmware rests when the words have been typed in a session. -/
def restingPoint (host : Host) (env : Nat → Surroundings) (s : Session)
    (words : List (BitVec 32)) : Terminal × Code (Nat → UInt8) :=
  let s' := Runs.run (Session.serve host env) s words
  (s'.terminal, Code.serve s'.respBuf)

theorem rests_restingPoint (host : Host) (env : Nat → Surroundings) {s : Session}
    (h : s.terminal.input = []) (words : List (BitVec 32)) :
    (Terminal.model host env).Rests Code.mainLoop (restingPoint host env s words) := by
  refine .of_wait ?_
  have hinput : (restingPoint host env s words).1.input = [] :=
    (input_run host env s words).trans h
  show (!(restingPoint host env s words).1.input.isEmpty) = false
  rw [hinput]
  rfl

theorem leads_restingPoint (host : Host) (env : Nat → Surroundings) {s : Session}
    (h : s.terminal.input = []) (words more : List (BitVec 32)) :
    (Terminal.model host env).Leads Code.mainLoop
      ((restingPoint host env s words).1.feed more, (restingPoint host env s words).2)
      (restingPoint host env s (words ++ more)) := by
  have hleads := leads_run host env (Runs.run (Session.serve host env) s words) more
    ((input_run host env s words).trans h)
  rwa [← Runs.run_append] at hleads

/-- The prologue of main, up to the first menu. -/
theorem leads_main (host : Host) (env : Nat → Surroundings) (t : Terminal)
    (respBuf : Nat → UInt8) :
    (Terminal.model host env).Leads Code.mainLoop (t, Code.main respBuf)
      (t.say (Message.started.text ++ menuText), Code.serve respBuf) := by
  have hinit : (Terminal.model host env).Does t Code.uartInit t () :=
    .ask (v := 0) rfl (.ask (v := 0) rfl (.ret _ ()))
  have hstarted := does_say host env t .started
  have hmenu := does_sayAll host env (t.say Message.started.text)
    ((List.finRange 14).map Message.menu)
  rw [Terminal.say_say] at hmenu
  refine (hinit.leads _ Code.mainLoop).trans ((hstarted.leads _ Code.mainLoop).trans ?_)
  exact hmenu.leads (fun _ => Code.serve respBuf) Code.mainLoop

/-- What the board's answers can do to the terminal. The TPM keeps what it has stored
as long as no command is started. -/
structure Terminal.Extends (host : Host) (s t : Terminal) : Prop where
  output : s.output <+: t.output
  reachable : Reachable host s.tpm → Reachable host t.tpm
  commands : s.commands ≤ t.commands
  kept : s.commands = t.commands → s.tpm.persistent = t.tpm.persistent

namespace Terminal.Extends
variable {host : Host}

theorem refl (s : Terminal) : s.Extends host s := ⟨List.prefix_rfl, id, Nat.le_refl _, fun _ => rfl⟩

theorem trans {s t r : Terminal} (h : s.Extends host t) (h' : t.Extends host r) :
    s.Extends host r where
  output := h.output.trans h'.output
  reachable := h'.reachable ∘ h.reachable
  commands := Nat.le_trans h.commands h'.commands
  kept := by
    intro hsame
    have hfirst : s.commands = t.commands :=
      Nat.le_antisymm h.commands (hsame ▸ h'.commands)
    exact (h.kept hfirst).trans (h'.kept (hfirst.symm.trans hsame))

theorem of_read (s : Terminal) (offset : Nat) :
    s.Extends host { s with tpm := (tpm2MmioRead s.tpm offset).2 } where
  output := List.prefix_rfl
  reachable := fun h => show Reachable host (step host s.tpm (.read offset)) from h.next _
  commands := Nat.le_refl _
  kept := fun _ => (persistent_mmioRead s.tpm offset).symm

theorem of_write (env : Nat → Surroundings) (s : Terminal) (offset value : Nat) :
    s.Extends host { s with
      tpm := tpm2MmioWrite host (env s.commands) s.tpm offset value
      commands := if offset = tpm2CmdReg then s.commands + 1 else s.commands } where
  output := List.prefix_rfl
  reachable := fun h =>
    show Reachable host (step host s.tpm (.write (env s.commands) offset value)) from h.next _
  commands := by dsimp only; split_ifs <;> omega
  kept := by
    dsimp only
    split_ifs with hcmd
    · intro hsame
      omega
    · intro _
      refine (persistent_mmioWrite host _ s.tpm offset value fun hexec => hcmd ?_).symm
      cases hexec.1
      rfl

theorem of_leads {α : Type} {env : Nat → Surroundings} {body : α → Code α}
    {c d : Terminal × Code α} (h : (Terminal.model host env).Leads body c d) :
    c.1.Extends host d.1 := by
  refine h.rel refl (fun _ _ _ => trans) ?_
  intro s request v s' hask
  cases request with
  | read r =>
      simp only [Terminal.model, Terminal.read] at hask
      split at hask <;> cases hask
      · exact of_read s _
      · exact ⟨List.prefix_rfl, id, Nat.le_refl _, fun _ => rfl⟩
  | write r value =>
      simp only [Terminal.model, Terminal.write] at hask
      split at hask <;> cases hask
      · exact of_write env s _ _
      · exact ⟨List.prefix_append _ _, id, Nat.le_refl _, fun _ => rfl⟩
      · exact refl s
      · exact refl s

end Terminal.Extends

theorem leads_start (host : Host) (env : Nat → Surroundings) (respBuf : Nat → UInt8) :
    (Terminal.model host env).Leads Code.mainLoop
      (⟨[], [], tpm2Realize host, 0⟩, Code.main respBuf)
      (restingPoint host env (Session.start host respBuf) []) :=
  leads_main host env ⟨[], [], tpm2Realize host, 0⟩ respBuf

/-- Left alone at any moment, the firmware completes the session. -/
theorem session_settles (host : Host) (env : Nat → Surroundings) (respBuf : Nat → UInt8)
    (events : List (Event UartInput))
    (hhost : Runs.Along ((boardBus host env).step Code.mainLoop hostActs) (Allowed HostInput)
      (boardPowerOn host, Code.main respBuf) events) :
    let c := Runs.run ((boardBus host env).step Code.mainLoop hostActs)
      (boardPowerOn host, Code.main respBuf) events
    let s := Runs.run (Session.serve host env) (Session.start host respBuf)
      (events.flatMap (Event.given typed))
    ∃ n, let d := ((boardBus host env).cycle Code.mainLoop)^[n] c
      d.1.uart.chr = s.terminal.output.map .byte ∧ d.1.tpm = s.terminal.tpm ∧
        d.2 = Code.serve s.respBuf := by
  intro c s
  obtain ⟨n, hshows, hprog⟩ := settles (board_implements host env) (Terminal.feeds host env)
    shows_hostActs (rests_restingPoint host env rfl) (leads_restingPoint host env rfl)
    (shows_powerOn host) (leads_start host env respBuf) events hhost
  exact ⟨n, hshows.uart.sent, hshows.tpm, hprog⟩

/-- The firmware and the board under any interleaving with a host that keeps to the
room in the FIFO. At every moment the output is the beginning of what the typed
words come to. If the firmware then goes on alone, it completes that output, leaves
the TPM where the commands have brought it, and waits for the next key. -/
theorem firmware_session (host : Host) (env : Nat → Surroundings) (respBuf : Nat → UInt8)
    (events : List (Event UartInput))
    (hhost : Runs.Along ((boardBus host env).step Code.mainLoop hostActs) (Allowed HostInput)
      (boardPowerOn host, Code.main respBuf) events) :
    let c := Runs.run ((boardBus host env).step Code.mainLoop hostActs)
      (boardPowerOn host, Code.main respBuf) events
    let s := Runs.run (Session.serve host env) (Session.start host respBuf)
      (events.flatMap (Event.given typed))
    c.1.uart.chr <+: s.terminal.output.map .byte ∧
      ∃ n, let d := ((boardBus host env).cycle Code.mainLoop)^[n] c
        d.1.uart.chr = s.terminal.output.map .byte ∧ d.1.tpm = s.terminal.tpm ∧
          d.2 = Code.serve s.respBuf := by
  intro c s
  refine ⟨?_, session_settles host env respBuf events hhost⟩
  obtain ⟨t, hshows, -, hleads⟩ := on_the_way (board_implements host env)
    (Terminal.feeds host env) shows_hostActs (rests_restingPoint host env rfl)
    (leads_restingPoint host env rfl) (shows_powerOn host) (leads_start host env respBuf)
    events hhost
  rw [hshows.uart.sent]
  exact (Terminal.Extends.of_leads hleads).output.map _

/-- The key for GetRandom, typed while the banner is being printed. The command succeeds
and its answer is on the terminal. -/
theorem firmware_session_getRandom :
    let env := fun _ : Nat => zeroSurroundings
    let events : List (Event UartInput) :=
      [.access, .access, .access, .other (.receive [ascii '1']), .access]
    let c := Runs.run ((boardBus referenceHost env).step Code.mainLoop hostActs)
      (boardPowerOn referenceHost, Code.main zeroBytes) events
    let t := Runs.run (step referenceHost) (tpm2Realize referenceHost)
      (send zeroSurroundings cmdGetRandom)
    Runs.Along ((boardBus referenceHost env).step Code.mainLoop hostActs) (Allowed HostInput)
        (boardPowerOn referenceHost, Code.main zeroBytes) events ∧
      responseHeader t = ⟨tpmStNoSessions, 44, tpmRcSuccess⟩ ∧
      ∃ n, let d := ((boardBus referenceHost env).cycle Code.mainLoop)^[n] c
        d.1.uart.chr = (Message.started.text ++ menuText ++ (Message.echo (ascii '1')).text ++
            ((Message.sending 12 12).text ++ answerText t) ++ menuText).map .byte ∧
          d.1.tpm = fetched referenceHost t := by
  intro env events c t
  have hhost : Runs.Along ((boardBus referenceHost env).step Code.mainLoop hostActs)
      (Allowed HostInput) (boardPowerOn referenceHost, Code.main zeroBytes) events := by
    decide +kernel
  obtain ⟨-, n, hsent, htpm, -⟩ := firmware_session referenceHost env zeroBytes events hhost
  exact ⟨hhost, by decide +kernel, n, hsent, htpm⟩

end TpmEmulator
