import TpmEmulator.Menu

/-!
Resets of the board. The UART and the buffers of the TPM become empty and the firmware
starts over, while the TPM keeps its indices and its keys. A reset may come between any
two accesses of the firmware and leaves no command half done: the command of a key has
been executed or it has not, and it has been once the answer begins to be printed.
-/
namespace TpmEmulator
open Programs

def Board.reset (b : Board) : Board :=
  { b with uart := nxpUartReset b.uart, tpm := tpm2Reset b.tpm }

/-- The firmware from one reset to the next: what the stack holds where the response
buffer is, and what happens. -/
structure Boot where
  respBuf : Nat → UInt8
  events : List (Event UartInput)

namespace Boot

/-- The board at the end of a boot. -/
def run (host : Host) (env : Nat → Surroundings) (b : Board) (boot : Boot) : Board :=
  (Runs.run ((boardBus host env).step Code.mainLoop hostActs)
    (b.reset, Code.main boot.respBuf) boot.events).1

/-- The host keeps to the room in the FIFO. -/
def Polite (host : Host) (env : Nat → Surroundings) (b : Board) (boot : Boot) : Prop :=
  Runs.Along ((boardBus host env).step Code.mainLoop hostActs) (Allowed HostInput)
    (b.reset, Code.main boot.respBuf) boot.events

instance (host : Host) (env : Nat → Surroundings) (b : Board) (boot : Boot) :
    Decidable (boot.Polite host env b) :=
  inferInstanceAs (Decidable (Runs.Along _ _ _ _))

def words (boot : Boot) : List (BitVec 32) := boot.events.flatMap (Event.given typed)

end Boot

namespace Menu

/-- What is printed of a key before its command is started. -/
def request (word : BitVec 32) : List UInt8 :=
  let c : UInt8 := .ofBitVec (word.setWidth 8)
  match menuKey c with
  | none => (Message.echo c).text
  | some cmd =>
      (Message.echo c).text ++
        (Message.sending (.ofNat 32 cmd.bytes.length) (.ofNat 32 (padded cmd.bytes.length))).text

/-- What a boot prints when the words are typed. -/
def transcript (host : Host) (env : Nat → Surroundings) (m : Menu) (words : List (BitVec 32)) :
    List UInt8 :=
  Message.started.text ++ menuText ++ Runs.gather serve (shows host env) m words

/-- How a boot with these words may end: what it has shown, and the state it leaves. -/
inductive Cut (host : Host) (env : Nat → Surroundings) (m : Menu) (words : List (BitVec 32)) :
    List UInt8 → Menu → Prop
  | starting {shown : List UInt8} (h : shown <+: transcript host env m []) :
      Cut host env m words shown m
  | requested {shown : List UInt8} (us : List (BitVec 32)) (word : BitVec 32)
      (typed : us ++ [word] <+: words) (served : transcript host env m us <+: shown)
      (h : shown <+: transcript host env m us ++ request word) :
      Cut host env m words shown (Runs.run serve m us)
  | executed {shown : List UInt8} (us : List (BitVec 32)) (word : BitVec 32)
      (typed : us ++ [word] <+: words)
      (started : transcript host env m us ++ request word <+: shown)
      (h : shown <+: transcript host env m (us ++ [word])) :
      Cut host env m words shown (Runs.run serve m (us ++ [word]))

/-- The states that boots may leave, with all that has been shown. -/
inductive Boots (host : Host) (env : Nat → Surroundings) : List Boot → List UInt8 → Menu → Prop
  | power : Boots host env [] [] start
  | boot {boots : List Boot} {output shown : List UInt8} {m m' : Menu} {boot : Boot}
      (past : Boots host env boots output m) (cut : m.Cut host env boot.words shown m') :
      Boots host env (boots ++ [boot]) (output ++ shown) m'

theorem request_extends (host : Host) (env : Nat → Surroundings) (m : Menu) (word : BitVec 32) :
    request word <+: m.shows host env word := by
  simp only [request, shows]
  generalize UInt8.ofBitVec (word.setWidth 8) = c
  cases menuKey c with
  | none => simp
  | some cmd => simp

end Menu

def Terminal.reset (t : Terminal) : Terminal := ⟨[], t.output, tpm2Reset t.tpm, t.commands⟩

theorem Shows.reset {b : Board} {t : Terminal} (h : Shows b t) : Shows b.reset t.reset where
  uart :=
    ⟨wellFormed_reset b.uart, h.uart.registers.step .reset,
      show ((0x300 : BitVec 32) &&& crLbe != 0) = false by decide,
      RingBuffer.Fifo.contents_of_count_zero rfl, h.uart.sent⟩
  tpm := congrArg tpm2Reset h.tpm
  commands := h.commands

section Follows
variable {host : Host} {s t : Terminal} {m : Menu}

theorem Terminal.Follows.same (h : s.Follows host m) (hreach : Reachable host t.tpm)
    (hpersistent : s.tpm.persistent = t.tpm.persistent) (hcommands : s.commands = t.commands) :
    t.Follows host m :=
  ⟨hreach, hpersistent ▸ h.holds, hcommands ▸ h.commands⟩

theorem Terminal.Follows.feed (h : t.Follows host m) (words : List (BitVec 32)) :
    (t.feed words).Follows host m :=
  ⟨h.reachable, h.holds, h.commands⟩

/-- Between two points with the same number of commands nothing stored changes. -/
theorem Terminal.Follows.kept (h : s.Follows host m) (hext : s.Extends host t)
    (hcommands : s.commands = t.commands) : t.Follows host m :=
  h.same (hext.reachable h.reachable) (hext.kept hcommands) hcommands

/-- A reset is what a guest gets by writing 0 to the control register. -/
theorem Terminal.Follows.reset (h : t.Follows host m) : t.reset.Follows host m := by
  refine h.same ?_ rfl rfl
  exact show Reachable host (step host t.tpm (.write zeroSurroundings tpm2CtrlReg 0)) from
    h.reachable.next _

end Follows

/-- The firmware on its way to the write that starts a command. -/
theorem leads_request (host : Host) (env : Nat → Surroundings) (s : Session)
    {word : BitVec 32} {words : List (BitVec 32)}
    {cmd : MenuCommand} (hinput : s.terminal.input = word :: words)
    (hkey : menuKey (.ofBitVec (word.setWidth 8)) = some cmd) :
    ∃ t k, (Terminal.model host env).Leads Code.mainLoop (s.terminal, Code.serve s.respBuf)
        (t, .ask (.write .tpm2Cmd 1) k) ∧
      t.output = s.terminal.output ++ Menu.request word ∧ t.commands = s.terminal.commands := by
  obtain ⟨k, hserve⟩ : ∃ k, Code.serveKey (.ofBitVec (word.setWidth 8)) s.respBuf =
      Code.tpmTransmit (cmd.bytes.getD · 0) cmd.bytes.length >>= fun _ =>
        .ask (.write .tpm2Cmd 1) k := by
    refine ⟨fun _ => do
      let response ← Code.tpmReadResponse s.respBuf responseBufferSize
      Code.report response.1 response.2
      return response.2, ?_⟩
    rw [Code.serveKey, menuCommand_eq, hkey, Option.map_some]
    simp only [Code.exchange, Code.tpmSendCommand, Prog.bind_assoc]
    rfl
  have htyped := (does_getc host env s.terminal hinput).leads
    (fun c => do Code.say (.echo c); Code.serveKey c s.respBuf) Code.mainLoop
  have hechoed := (does_say host env { s.terminal with input := words }
    (.echo (.ofBitVec (word.setWidth 8)))).leads
    (fun _ => Code.serveKey (.ofBitVec (word.setWidth 8)) s.respBuf) Code.mainLoop
  have hsent := (does_transmit host env (Terminal.say { s.terminal with input := words }
    (Message.echo (.ofBitVec (word.setWidth 8))).text) (cmd.bytes.getD · 0)
    cmd.bytes.length).leads (fun _ => .ask (.write .tpm2Cmd 1) k) Code.mainLoop
  rw [← hserve] at hsent
  refine ⟨_, _, htyped.trans (hechoed.trans hsent), ?_, rfl⟩
  simp only [Menu.request, hkey, Terminal.say, List.append_assoc]

section Cut
variable {host : Host} {env : Nat → Surroundings}

/-- While a key is being served its command has been started or not, which shows in
what has been printed. -/
theorem cut_serve {s : Session} {m : Menu} (h : s.terminal.Follows host m)
    (hempty : s.terminal.input = []) {word : BitVec 32} {words : List (BitVec 32)}
    {x : Terminal × Code (Nat → UInt8)}
    (hpast : (Terminal.model host env).Leads Code.mainLoop
      (s.terminal.feed (word :: words), Code.serve s.respBuf) x)
    (hahead : (Terminal.model host env).Leads Code.mainLoop x
      ((s.serve host env word).terminal.feed words, Code.serve (s.serve host env word).respBuf)) :
    (x.1.Follows host m ∧ x.1.output <+: s.terminal.output ++ Menu.request word) ∨
      x.1.Follows host (m.serve word) ∧ s.terminal.output ++ Menu.request word <+: x.1.output := by
  have hpastExt : (s.terminal.feed (word :: words)).Extends host x.1 := .of_leads hpast
  have haheadExt : x.1.Extends host ((s.serve host env word).terminal.feed words) :=
    .of_leads hahead
  obtain ⟨hserved, houtput⟩ := h.serve env word
  have hlow : s.terminal.commands ≤ x.1.commands := hpastExt.commands
  have hhigh : x.1.commands ≤ (s.serve host env word).terminal.commands := haheadExt.commands
  cases hkey : menuKey (.ofBitVec (word.setWidth 8)) with
  | none =>
      have hsame : m.serve word = m := by rw [Menu.serve, hkey]
      have hstays : (s.serve host env word).terminal.commands = s.terminal.commands := by
        rw [hserved.commands, hsame, h.commands]
      have hfollows : x.1.Follows host m := (h.feed _).kept hpastExt (by
        change s.terminal.commands = x.1.commands
        omega)
      have hrequest : s.terminal.output ++ Menu.request word <+:
          (s.serve host env word).terminal.output := by
        rw [houtput, List.prefix_append_right_inj]
        exact Menu.request_extends host env m word
      rcases List.prefix_or_prefix_of_prefix haheadExt.output hrequest with hless | hmore
      · exact .inl ⟨hfollows, hless⟩
      · exact .inr ⟨hsame.symm ▸ hfollows, hmore⟩
  | some cmd =>
      have hnext : m.serve word = m.next cmd := by rw [Menu.serve, hkey]
      have hgrows : (s.serve host env word).terminal.commands = s.terminal.commands + 1 := by
        rw [hserved.commands, hnext, h.commands]
        rfl
      have hinput : (s.feed (word :: words)).terminal.input = word :: words := by
        simp [Session.feed, Terminal.feed, hempty]
      obtain ⟨t, k, hrequest, htext, hcommands⟩ :=
        leads_request host env (s.feed (word :: words)) hinput hkey
      have hbefore (hto : x.1.Extends host t) :
          x.1.Follows host m ∧ x.1.output <+: s.terminal.output ++ Menu.request word := by
        refine ⟨(h.feed _).kept hpastExt ?_, htext ▸ hto.output⟩
        exact Nat.le_antisymm hlow (hcommands ▸ hto.commands)
      rcases hpast.comparable hrequest with hto | hfrom
      · exact .inl (hbefore (.of_leads hto))
      rcases hfrom.cases_head with heq | ⟨y, hstart, hrest⟩
      · exact .inl (hbefore (heq ▸ .refl t))
      · right
        cases hstart
        have hext := Terminal.Extends.of_leads hrest
        have hstarted : t.commands + 1 ≤ x.1.commands := hext.commands
        have hcount : (s.serve host env word).terminal.commands = x.1.commands := by
          change t.commands = s.terminal.commands at hcommands
          omega
        exact ⟨(hserved.feed words).same (hpastExt.reachable h.reachable)
          (haheadExt.kept hcount.symm).symm hcount, htext ▸ hext.output⟩

/-- A boot on the terminal is before the first menu or at one of its keys. -/
theorem cut_of_between {t : Terminal} {m : Menu} (h : t.Follows host m) (hempty : t.input = [])
    {respBuf : Nat → UInt8} {words : List (BitVec 32)} {x : Terminal × Code (Nat → UInt8)}
    (hpast : (Terminal.model host env).Leads Code.mainLoop (t.feed words, Code.main respBuf) x)
    (hbetween :
      let s : Session := ⟨t.say (Message.started.text ++ menuText), respBuf⟩
      let stage := fun k => ((restingPoint host env s (words.take k)).1.feed (words.drop k),
        (restingPoint host env s (words.take k)).2)
      (Terminal.model host env).Leads Code.mainLoop x (stage 0) ∨
        ∃ k < words.length, (Terminal.model host env).Leads Code.mainLoop (stage k) x ∧
          (Terminal.model host env).Leads Code.mainLoop x (stage (k + 1))) :
    ∃ shown m', x.1.Follows host m' ∧ x.1.output = t.output ++ shown ∧
      m.Cut host env words shown m' := by
  let s : Session := ⟨t.say (Message.started.text ++ menuText), respBuf⟩
  have hext := Terminal.Extends.of_leads hpast
  obtain ⟨shown, hshown⟩ : t.output <+: x.1.output := hext.output
  rcases hbetween with hto | ⟨k, hk, hfrom, hto⟩
  · -- No command has been started yet.
    have hahead := Terminal.Extends.of_leads hto
    have hcommands : t.commands = x.1.commands := Nat.le_antisymm hext.commands hahead.commands
    refine ⟨shown, m, (h.feed words).kept hext hcommands, hshown.symm, .starting ?_⟩
    have houtput : x.1.output <+: t.output ++ (Message.started.text ++ menuText) := hahead.output
    rw [← hshown, List.prefix_append_right_inj] at houtput
    simpa [Menu.transcript, Runs.gather] using houtput
  · have hstart : s.terminal.Follows host m := ⟨h.reachable, h.holds, h.commands⟩
    have htranscript (us : List (BitVec 32)) : (restingPoint host env s us).1.output =
        t.output ++ m.transcript host env us := by
      rw [restingPoint, (hstart.run env us).2, Menu.transcript, ← List.append_assoc]
      rfl
    have htake : words.take (k + 1) = words.take k ++ [words[k]] :=
      (List.take_append_getElem hk).symm
    have htyped : words.take k ++ [words[k]] <+: words := htake ▸ List.take_prefix _ _
    have hserved : t.output ++ m.transcript host env (words.take k) <+: x.1.output := by
      rw [← htranscript]
      exact (Terminal.Extends.of_leads hfrom).output
    have hbelow : x.1.output <+:
        t.output ++ m.transcript host env (words.take k ++ [words[k]]) := by
      rw [← htranscript, ← htake]
      exact (Terminal.Extends.of_leads hto).output
    -- The resting places around the key are the session before and after it.
    simp only [List.drop_eq_getElem_cons hk] at hfrom
    simp only [htake, restingPoint, Runs.run_append] at hto
    have hcut := cut_serve (hstart.run env (words.take k)).1
      ((input_run host env s _).trans hempty) hfrom hto
    rw [show (Runs.run (Session.serve host env) s (words.take k)).terminal.output = _ from
      htranscript _, List.append_assoc] at hcut
    simp only [← hshown, List.prefix_append_right_inj] at hserved hbelow hcut
    rcases hcut with ⟨hbefore, hrequest⟩ | ⟨hafter, hrequest⟩
    · exact ⟨shown, _, hbefore, hshown.symm, .requested _ _ htyped hserved hrequest⟩
    · refine ⟨shown, _, hafter, hshown.symm, ?_⟩
      have hcase := Menu.Cut.executed _ _ htyped hrequest hbelow
      rwa [Runs.run_append] at hcase

/-- A boot from any state of the machine may end as the machine says. -/
theorem boot_cut {b : Board} {t : Terminal} {m : Menu} (hshows : Shows b t)
    (hfollows : t.Follows host m) (boot : Boot) (hpolite : boot.Polite host env b) :
    ∃ t' shown m', Shows (boot.run host env b) t' ∧ t'.Follows host m' ∧
      t'.output = t.output ++ shown ∧ m.Cut host env boot.words shown m' := by
  have hempty : (t.reset.say (Message.started.text ++ menuText)).input = [] := rfl
  obtain ⟨t', hshows', hpast, hbetween⟩ := between (board_implements host env)
    (Terminal.feeds host env) shows_hostActs
    (rests_restingPoint host env (s := ⟨_, boot.respBuf⟩) hempty)
    (leads_restingPoint host env hempty) hshows.reset (leads_main host env t.reset boot.respBuf)
    boot.events hpolite
  obtain ⟨shown, m', hcut⟩ := cut_of_between hfollows.reset rfl hpast hbetween
  exact ⟨t', shown, m', hshows', hcut⟩

theorem boots_follow (boots : List Boot)
    (hpolite : Runs.Along (Boot.run host env) (Boot.Polite host env) (boardPowerOn host) boots) :
    ∃ t m, Shows (Runs.run (Boot.run host env) (boardPowerOn host) boots) t ∧
      t.Follows host m ∧ Menu.Boots host env boots t.output m := by
  induction boots using List.reverseRecOn with
  | nil =>
      exact ⟨_, Menu.start, shows_powerOn host,
        ⟨reachable_realize host, Menu.holds_start host, rfl⟩, .power⟩
  | append_singleton boots boot ih =>
      obtain ⟨hpast, hlast, -⟩ := (Runs.along_append _ _ _).mp hpolite
      obtain ⟨t, m, hshows, hfollows, hboots⟩ := ih hpast
      obtain ⟨t', shown, m', hshows', hfollows', houtput, hcut⟩ :=
        boot_cut hshows hfollows boot hlast
      rw [Runs.run_append]
      exact ⟨t', m', hshows', hfollows', houtput ▸ hboots.boot hcut⟩

end Cut

/-- Boots that end anywhere, with a host that keeps to the room in the FIFO. What has
been printed and what the TPM holds are what the machine of the menu says: in each boot
the keys up to some point have been served, a key whose answer has begun to appear has
been executed, and what was executed is there in the boots that follow. -/
theorem reboots_leave_whole_commands (host : Host) (env : Nat → Surroundings) (boots : List Boot)
    (hpolite : Runs.Along (Boot.run host env) (Boot.Polite host env) (boardPowerOn host) boots) :
    let b := Runs.run (Boot.run host env) (boardPowerOn host) boots
    ∃ output m, Menu.Boots host env boots output m ∧ b.uart.chr = output.map .byte ∧
      m.Holds host b.tpm.persistent := by
  obtain ⟨t, m, hshows, hfollows, hboots⟩ := boots_follow boots hpolite
  exact ⟨t.output, m, hboots, hshows.uart.sent, hshows.tpm ▸ hfollows.holds⟩

/-- A key typed during the banner, and a reset behind its command. The index it defined
is there when the next boot is cut. -/
theorem reboots_leave_whole_commands_defined :
    let env := fun _ : Nat => zeroSurroundings
    ∃ n, let boots : List Boot :=
        [⟨zeroBytes, [.access, .access, .access, .other (.receive [ascii '3'])] ++
            List.replicate n .access⟩,
          ⟨zeroBytes, [.access, .access]⟩]
      let b := Runs.run (Boot.run referenceHost env) (boardPowerOn referenceHost) boots
      Runs.Along (Boot.run referenceHost env) (Boot.Polite referenceHost env)
          (boardPowerOn referenceHost) boots ∧
        ∃ output m, Menu.Boots referenceHost env boots output m ∧
          b.uart.chr = output.map .byte ∧ m.Holds referenceHost b.tpm.persistent ∧
          m.slot ≠ .undefined := by
  intro env
  let typing : List (Event UartInput) :=
    [.access, .access, .access, .other (.receive [ascii '3'])]
  have htyping : Runs.Along ((boardBus referenceHost env).step Code.mainLoop hostActs)
      (Allowed HostInput) (boardPowerOn referenceHost, Code.main zeroBytes) typing := by
    decide +kernel
  obtain ⟨n, -, htpm, -⟩ := session_settles referenceHost env zeroBytes typing htyping
  rw [← Bus.run_accesses _ _ hostActs, ← Runs.run_append] at htpm
  refine ⟨n, ?_⟩
  intro boots b
  have hpolite : Runs.Along (Boot.run referenceHost env) (Boot.Polite referenceHost env)
      (boardPowerOn referenceHost) boots :=
    ⟨(Runs.along_append _ _ _).mpr ⟨htyping, Bus.along_accesses _ _ _ _ _ n⟩,
      ⟨trivial, trivial, trivial⟩, trivial⟩
  obtain ⟨output, m, hboots, hchr, hholds⟩ :=
    reboots_leave_whole_commands referenceHost env boots hpolite
  refine ⟨hpolite, output, m, hboots, hchr, hholds, fun hslot => ?_⟩
  have hpersistent : b.tpm.persistent = (Runs.run (Session.serve referenceHost env)
      (Session.start referenceHost zeroBytes)
      (typing.flatMap (Event.given typed))).terminal.tpm.persistent := by
    have hfirst := congrArg Tpm2State.persistent htpm
    exact hfirst
  have hdefined : ((Runs.run (Session.serve referenceHost env)
      (Session.start referenceHost zeroBytes)
      (typing.flatMap (Event.given typed))).terminal.tpm.persistent.nvMap.lookup
        menuIndex).isSome := by
    decide +kernel
  have hundefined := hholds.slot
  rw [hslot, hpersistent] at hundefined
  rw [hundefined.1] at hdefined
  cases hdefined

end TpmEmulator
