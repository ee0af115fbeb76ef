import TpmEmulator.Session

/-!
Reading a line with `UART_gets`. A line ends at a carriage return or a line feed,
or when its buffer is full. What is stored and echoed is a function of the words
that arrive, however their arrival is interleaved with the loop that reads them.
-/
namespace TpmEmulator
open Programs CellMemory

/-- A line as far as it has arrived. The echo of an ended one has a line feed of its
own. -/
structure Line where
  stored : List UInt8
  echoed : List UInt8
  rest : List (BitVec 32)
  ended : Bool
deriving DecidableEq, Repr

/-- The line that words come to in a buffer with `n` places before the NUL. -/
def readLine : Nat → List (BitVec 32) → Line
  | 0, words => ⟨[], [newline], words, true⟩
  | _ + 1, [] => ⟨[], [], [], false⟩
  | n + 1, word :: words =>
      let c : UInt8 := .ofBitVec (word.setWidth 8)
      if EndsLine c then ⟨[], [c, newline], words, true⟩
      else
        let line := readLine n words
        { line with stored := c :: line.stored, echoed := c :: line.echoed }

theorem length_stored_le (n : Nat) (words : List (BitVec 32)) :
    (readLine n words).stored.length ≤ n := by
  fun_induction readLine n words with
  | case1 words => exact Nat.le_refl 0
  | case2 n => exact Nat.zero_le _
  | case3 n word words c hends => exact Nat.zero_le _
  | case4 n word words c hends line ih => exact Nat.succ_le_succ ih

def getsEnd : Nat → Nat → (Nat → UInt8) → Terminal → Terminal × Code (Nat → UInt8)
  | 0, i, s, t => (t.say [newline], .ret (store s i [0]))
  | n + 1, i, s, t =>
      match t.input with
      | [] => (t, Code.getsLoop (n + 1) i s >>= Code.endLine)
      | word :: words =>
          let c : UInt8 := .ofBitVec (word.setWidth 8)
          let t := { t with input := words }.say [c]
          if EndsLine c then (t.say [newline], .ret (store s i [0]))
          else getsEnd n (i + 1) (store s i [c]) t

section Gets
variable (host : Host) (env : Nat → Surroundings)

theorem leads_endLine (i : Nat) (s : Nat → UInt8) (t : Terminal) :
    (Terminal.model host env).Leads .ret (t, Code.endLine (i, s))
      (t.say [newline], .ret (store s i [0])) :=
  (does_putc host env t newline).leads (fun _ => .ret (store s i [0])) .ret

theorem leads_key {t : Terminal} {word : BitVec 32} {words : List (BitVec 32)}
    (h : t.input = word :: words) (n i : Nat) (s : Nat → UInt8) :
    let c : UInt8 := .ofBitVec (word.setWidth 8)
    (Terminal.model host env).Leads .ret (t, Code.getsLoop (n + 1) i s >>= Code.endLine)
      ({ t with input := words }.say [c],
        if EndsLine c then Code.endLine (i, s)
        else Code.getsLoop n (i + 1) (store s i [c]) >>= Code.endLine) := by
  intro c
  have hpass : (Terminal.model host env).Does t (do
      let c ← Code.uartGetc
      Code.uartPutc c
      return c) ({ t with input := words }.say [c]) c :=
    (does_getc host env t h).bind ((does_putc host env _ c).bind (.ret _ c))
  have hleads := hpass.leads (fun c => if EndsLine c then Code.endLine (i, s)
    else Code.getsLoop n (i + 1) (store s i [c]) >>= Code.endLine) .ret
  have hcode : Code.getsLoop (n + 1) i s >>= Code.endLine = (do
      let c ← Code.uartGetc
      Code.uartPutc c
      return c) >>= fun c => if EndsLine c then Code.endLine (i, s)
        else Code.getsLoop n (i + 1) (store s i [c]) >>= Code.endLine := by
    simp only [Code.getsLoop, Prog.bind_assoc]
    congr 1
    funext c
    congr 1
    funext _
    simp only [Prog.pure_eq, Prog.ret_bind]
    split <;> rfl
  rwa [hcode]

theorem leads_getsLoop (n i : Nat) (s : Nat → UInt8) (t : Terminal) :
    (Terminal.model host env).Leads .ret (t, Code.getsLoop n i s >>= Code.endLine)
      (getsEnd n i s t) := by
  induction n generalizing i s t with
  | zero => exact leads_endLine host env i s t
  | succ n ih =>
      rw [getsEnd]
      cases hinput : t.input with
      | nil => exact .refl
      | cons word words =>
          refine (leads_key host env hinput n i s).trans ?_
          dsimp only
          split
          · exact leads_endLine host env i s _
          · exact ih (i + 1) _ _

/-- More input leads on from where the loop waits, and does not matter once it is
left. -/
theorem leads_getsEnd (n i : Nat) (s : Nat → UInt8) (t : Terminal) (more : List (BitVec 32)) :
    (Terminal.model host env).Leads .ret ((getsEnd n i s t).1.feed more, (getsEnd n i s t).2)
      (getsEnd n i s (t.feed more)) := by
  induction n generalizing i s t with
  | zero => exact .refl
  | succ n ih =>
      cases hinput : t.input with
      | nil =>
          have hwaits : getsEnd (n + 1) i s t =
              (t, Code.getsLoop (n + 1) i s >>= Code.endLine) := by
            rw [getsEnd, hinput]
          rw [hwaits]
          exact leads_getsLoop host env (n + 1) i s (t.feed more)
      | cons word words =>
          have hfed : (t.feed more).input = word :: (words ++ more) := by
            simp [Terminal.feed, hinput]
          rw [getsEnd, getsEnd, hinput, hfed]
          dsimp only
          split
          · exact .refl
          · exact ih (i + 1) _ _

theorem rests_getsEnd (n i : Nat) (s : Nat → UInt8) (t : Terminal) :
    (Terminal.model host env).Rests .ret (getsEnd n i s t) := by
  induction n generalizing i s t with
  | zero => exact .of_ret rfl
  | succ n ih =>
      rw [getsEnd]
      cases hinput : t.input with
      | nil =>
          refine .of_wait ?_
          simp [Terminal.model, Terminal.ready, hinput]
      | cons word words =>
          dsimp only
          split
          · exact .of_ret rfl
          · exact ih (i + 1) _ _

end Gets

/-- The loop is left with the line in the buffer, or it waits for more. -/
theorem getsEnd_eq (n i : Nat) (s : Nat → UInt8) (t : Terminal) :
    (getsEnd n i s t).1 = { t with
      input := (readLine n t.input).rest
      output := t.output ++ (readLine n t.input).echoed } ∧
    ((readLine n t.input).ended = true →
      (getsEnd n i s t).2 = .ret (store s i ((readLine n t.input).stored ++ [0]))) := by
  induction n generalizing i s t with
  | zero => exact ⟨by simp [getsEnd, readLine, Terminal.say], fun _ => rfl⟩
  | succ n ih =>
      cases hinput : t.input with
      | nil =>
          rw [getsEnd, readLine, hinput]
          refine ⟨?_, fun hended => by cases hended⟩
          simp only [List.append_nil, ← hinput]
      | cons word words =>
          rw [getsEnd, readLine, hinput]
          dsimp only
          split
          · exact ⟨by simp [Terminal.say], fun _ => rfl⟩
          · obtain ⟨hterminal, hprog⟩ := ih (i + 1) (store s i [.ofBitVec (word.setWidth 8)])
              ({ t with input := words }.say [.ofBitVec (word.setWidth 8)])
            refine ⟨?_, fun hended => ?_⟩
            · rw [hterminal]
              simp [Terminal.say]
            · rw [hprog hended]
              exact congrArg Prog.ret (store_cons s i _ _).symm

/-- A line is read into a buffer of `maxlen` bytes under any interleaving with the
host. At every moment the echo is the beginning of the echo of the line. Once the
line has ended, the call returns with its characters and a NUL in the buffer, and
what was typed behind it is still there to be read. -/
theorem gets_line (host : Host) (env : Nat → Surroundings) (s : Nat → UInt8) (maxlen : Int)
    {b : Board} {t : Terminal} (hshows : Shows b t) (events : List (Event UartInput))
    (hhost : Runs.Along ((boardBus host env).step .ret hostActs) (Allowed HostInput)
      (b, Code.uartGets s maxlen) events) :
    let line := readLine (maxlen - 1).toNat (t.input ++ events.flatMap (Event.given typed))
    let c := Runs.run ((boardBus host env).step .ret hostActs) (b, Code.uartGets s maxlen) events
    c.1.uart.chr <+: (t.output ++ line.echoed).map .byte ∧
      (line.ended = true → ∃ n, let d := ((boardBus host env).cycle .ret)^[n] c
        d.2 = .ret (store s 0 (line.stored ++ [0])) ∧
          d.1.uart.chr = (t.output ++ line.echoed).map .byte ∧
          fifoContents d.1.uart = line.rest) ∧
      ((line.stored ++ [0]).length : Int) ≤ max 1 maxlen := by
  intro line c
  let goal := fun words => getsEnd (maxlen - 1).toNat 0 s (t.feed words)
  have hrests (words : List (BitVec 32)) : (Terminal.model host env).Rests .ret (goal words) :=
    rests_getsEnd host env _ 0 s (t.feed words)
  have hmore (words more : List (BitVec 32)) : (Terminal.model host env).Leads .ret
      ((goal words).1.feed more, (goal words).2) (goal (words ++ more)) := by
    have hleads := leads_getsEnd host env (maxlen - 1).toNat 0 s (t.feed words) more
    rwa [Terminal.feed_feed] at hleads
  have hstart : (Terminal.model host env).Leads .ret (t, Code.uartGets s maxlen) (goal []) := by
    show (Terminal.model host env).Leads .ret _ (getsEnd _ 0 s (t.feed []))
    rw [Terminal.feed_nil]
    exact leads_getsLoop host env (maxlen - 1).toNat 0 s t
  obtain ⟨hterminal, hprog⟩ := getsEnd_eq (maxlen - 1).toNat 0 s
    (t.feed (events.flatMap (Event.given typed)))
  refine ⟨?_, fun hended => ?_, ?_⟩
  · obtain ⟨t', hshows', -, hleads⟩ := on_the_way (board_implements host env)
      (Terminal.feeds host env) shows_hostActs hrests hmore hshows hstart events hhost
    have hprefix : t'.output <+: (goal (events.flatMap (Event.given typed))).1.output :=
      (Terminal.Extends.of_leads hleads).output
    rw [hterminal] at hprefix
    rw [hshows'.uart.sent]
    exact hprefix.map _
  · obtain ⟨n, hshows', hdone⟩ := settles (board_implements host env)
      (Terminal.feeds host env) shows_hostActs hrests hmore hshows hstart events hhost
    refine ⟨n, hdone.trans (hprog hended), ?_, ?_⟩
    · exact hshows'.uart.sent.trans (congrArg (fun t => t.output.map ChrOutput.byte) hterminal)
    · rw [fifoContents_eq]
      exact hshows'.uart.contents.trans (congrArg Terminal.input hterminal)
  · have hlength : line.stored.length ≤ (maxlen - 1).toNat := length_stored_le _ _
    rw [List.length_append, List.length_singleton]
    omega

/-- A line of two characters in a buffer of eight bytes. The first one is typed
before the call, the others while it waits. -/
theorem gets_line_short :
    let events : List (Event UartInput) :=
      [.other (.receive [79]), .access, .access, .access, .access, .other (.receive [75]),
        .access, .access, .access, .access, .other (.receive [13])]
    let line := readLine 7 (events.flatMap (Event.given typed))
    line = ⟨[79, 75], [79, 75, 13, 10], [], true⟩ ∧
      ∃ n, (((boardBus referenceHost fun _ => zeroSurroundings).cycle .ret)^[n]
        (Runs.run ((boardBus referenceHost fun _ => zeroSurroundings).step .ret hostActs)
          (boardPowerOn referenceHost, Code.uartGets zeroBytes 8) events)).2 =
        .ret (store zeroBytes 0 [79, 75, 0]) := by
  intro events line
  have hline : line = ⟨[79, 75], [79, 75, 13, 10], [], true⟩ := by decide +kernel
  have hhost : Runs.Along ((boardBus referenceHost fun _ => zeroSurroundings).step .ret hostActs)
      (Allowed HostInput) (boardPowerOn referenceHost, Code.uartGets zeroBytes 8) events := by
    decide +kernel
  have hgets := (gets_line referenceHost (fun _ => zeroSurroundings) zeroBytes 8
    (shows_powerOn referenceHost) events hhost).2.1
  have hended : line.ended = true := by rw [hline]
  obtain ⟨n, hprog, -⟩ := hgets hended
  refine ⟨hline, n, hprog.trans ?_⟩
  show Prog.ret (store zeroBytes 0 (line.stored ++ [0])) = _
  rw [hline]
  rfl

end TpmEmulator
