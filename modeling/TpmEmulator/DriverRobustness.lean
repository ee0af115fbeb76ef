import TpmEmulator.DriverAgreement
import TpmEmulator.PrintfConformance
import Mathlib.Tactic.Common

/-!
The driver against any device: one that sends any values in any order. As long as
its status does not stay PROCESSING, the function returns, stores within the
caller's buffer only, and hands over what it read from the data register. Its
messages are printed in bounds.
-/
namespace TpmEmulator

open Programs CellMemory BigEndian

variable {σ : Type}

/-- A read of a register, with the value it gave. -/
inductive RegisterRead
  | status (value : Nat)
  | data (value : Nat)
deriving DecidableEq, Repr

def RegisterRead.word? : RegisterRead → Option Nat
  | .status _ => none
  | .data value => some value

namespace Registers

/-- A device in state `start` gives the values of these reads, one after the other. -/
inductive Gives (dev : Registers σ) (start : σ) : List RegisterRead → σ → Prop
  | nil : dev.Gives start [] start
  | status {reads : List RegisterRead} {s : σ} (h : dev.Gives start reads s) :
      dev.Gives start (reads ++ [.status (dev.status s).1]) (dev.status s).2
  | data {reads : List RegisterRead} {s : σ} (h : dev.Gives start reads s) :
      dev.Gives start (reads ++ [.data (dev.data s).1]) (dev.data s).2

def polled (dev : Registers σ) : Nat → σ → σ
  | 0, device => device
  | k + 1, device => dev.polled k (dev.status device).2

end Registers

/-- The words the driver has are those that the data register gave since `start`. -/
def Reader.Genuine (dev : Registers σ) (start : σ) (d : Reader σ) : Prop :=
  ∃ reads, dev.Gives start reads d.device ∧ d.words = reads.filterMap RegisterRead.word?

theorem Reader.Genuine.status {dev : Registers σ} {start : σ} {d : Reader σ}
    (h : d.Genuine dev start) : (d.status dev).2.Genuine dev start := by
  obtain ⟨reads, hgives, hwords⟩ := h
  refine ⟨_, hgives.status, ?_⟩
  rw [List.filterMap_append, ← hwords]
  exact (List.append_nil _).symm

theorem Reader.Genuine.answer {dev : Registers σ} {start : σ} {d : Reader σ}
    (h : d.Genuine dev start) (r : ReadRequest) : (d.answer dev r).2.Genuine dev start := by
  cases r with
  | status => exact h.status
  | data =>
      obtain ⟨reads, hgives, hwords⟩ := h
      refine ⟨_, hgives.data, ?_⟩
      rw [List.filterMap_append, ← hwords]
      rfl
  | load i => exact h
  | put i b => exact h
  | say m => exact h

/-- However the run goes on, no word is invented, dropped or reordered. -/
theorem genuine_readResponse {dev : Registers σ} {fuel maxLen n : Nat} {device : σ}
    {respBuf : Nat → UInt8} {d : Reader σ}
    (h : dev.tpmReadResponse fuel device respBuf maxLen = some (n, d)) : d.Genuine dev device :=
  Bus.exec_kept (fun _ r hd => hd.answer r) (fun _ _ hd => hd.status) h ⟨[], .nil, rfl⟩

/-- Each written position is below `bound` and the buffer is as it was from there
on. The bytes of the words read so far are in it, up to `limit`. -/
structure Collected (start : Nat → UInt8) (bound limit : Nat) (d : Reader σ) : Prop where
  written : ∀ i ∈ d.written, i < bound
  outside : ∀ i, bound ≤ i → d.respBuf i = start i
  bytes : slice d.respBuf 0 (min limit (4 * d.words.length)) =
    (d.words.flatMap bytes32).take (min limit (4 * d.words.length))

theorem length_flatMap_bytes32 (words : List Nat) :
    (words.flatMap bytes32).length = 4 * words.length := by
  induction words with
  | nil => rfl
  | cons w words ih =>
      rw [List.flatMap_cons, List.length_append, ih, length_bytes32, List.length_cons]
      omega

/-- A further word, of which the bytes below the limit are stored behind those
that are there. -/
theorem Collected.next {dev : Registers σ} {start : Nat → UInt8} {bound limit k count : Nat}
    {d d' : Reader σ} (h : Collected start bound limit d) (hk : d.words.length = k)
    (hcount : 4 * k + min count 4 = min limit (4 * (k + 1))) (hbound : 4 * k + count ≤ bound)
    (htakes : d.Takes dev (4 * k) count d') :
    Collected start bound limit d' ∧ d'.words.length = k + 1 := by
  have hlength : (d.words.flatMap bytes32).length = 4 * k := hk ▸ length_flatMap_bytes32 d.words
  have hnext : d'.words.length = k + 1 := by
    rw [htakes.words, List.length_append, List.length_singleton, hk]
  refine ⟨⟨fun i hi => ?_, fun i hi => ?_, ?_⟩, hnext⟩
  · rcases htakes.written i hi with hold | hnew
    · exact h.written i hold
    · omega
  · rw [htakes.respBuf, store_outside _ _ _ _ (.inr (by rw [List.length_take]; omega))]
    exact h.outside i hi
  · have hold : min limit (4 * k) = 4 * k := by omega
    have hcells : ((bytes32 (dev.data d.device).1).take count).length = min count 4 := by
      rw [List.length_take, length_bytes32]
    have hcut : (bytes32 (dev.data d.device).1).take (min count 4) =
        (bytes32 (dev.data d.device).1).take count :=
      List.take_eq_take_iff.mpr (by rw [length_bytes32]; omega)
    have hbytes := h.bytes
    rw [hk, hold, List.take_of_length_le (Nat.le_of_eq hlength)] at hbytes
    have htext : (d.words ++ [(dev.data d.device).1]).flatMap bytes32 =
        d.words.flatMap bytes32 ++ bytes32 (dev.data d.device).1 := by
      simp
    have hsame := slice_store_same d.respBuf (4 * k) ((bytes32 (dev.data d.device).1).take count)
    rw [hcells] at hsame
    rw [hnext, ← hcount, htakes.words, htext, htakes.respBuf, slice_add, Nat.zero_add, hsame,
      slice_store_disjoint _ _ _ _ _ (.inl (by omega)), hbytes, ← hcut, ← hlength,
      List.take_length_add_append]

/-- While the words do not reach the limit, the limit does not matter. -/
theorem Collected.limit {start : Nat → UInt8} {bound limit : Nat} {d : Reader σ}
    (h : Collected start bound limit d) (hle : 4 * d.words.length ≤ limit) (limit' : Nat) :
    Collected start bound limit' d where
  written := h.written
  outside := h.outside
  bytes := by
    have hmin : min limit (4 * d.words.length) = 4 * d.words.length := by omega
    have hbytes := congrArg (List.take (min limit' (4 * d.words.length))) h.bytes
    rwa [hmin, take_slice _ _ (Nat.min_le_right _ _), List.take_take,
      Nat.min_eq_left (Nat.min_le_right _ _)] at hbytes

/-- What the caller gets: a length within its buffer, and that much of the words
read. -/
structure HandedOver (start : Nat → UInt8) (maxLen n : Nat) (d : Reader σ) : Prop where
  written : ∀ i ∈ d.written, i < maxLen
  outside : ∀ i, maxLen ≤ i → d.respBuf i = start i
  length_le : n ≤ maxLen
  bytes : slice d.respBuf 0 n = (d.words.flatMap bytes32).take n

theorem Collected.handedOver {start : Nat → UInt8} {maxLen limit n : Nat} {d : Reader σ}
    (h : Collected start maxLen limit d) (hle : n ≤ maxLen)
    (hn : min limit (4 * d.words.length) = n) : HandedOver start maxLen n d where
  written := h.written
  outside := h.outside
  length_le := hle
  bytes := by
    have hbytes := h.bytes
    rwa [hn] at hbytes

theorem HandedOver.say {start : Nat → UInt8} {maxLen n : Nat} {d : Reader σ}
    (h : HandedOver start maxLen n d) (m : ReadMessage) : HandedOver start maxLen n (d.say m) :=
  ⟨h.written, h.outside, h.length_le, h.bytes⟩

/-- The busy wait ends at the first status other than PROCESSING. -/
theorem await_of_polled (dev : Registers σ) {k : Nat} {d : Reader σ}
    (h : (dev.status (dev.polled k d.device)).1 ≠ TpmState.processing.value) :
    ∃ device, ∀ fuel, k < fuel → dev.bus.await () fuel d = some { d with device := device } := by
  induction k generalizing d with
  | zero =>
      refine ⟨(dev.status d.device).2, fun fuel hfuel => ?_⟩
      obtain ⟨fuel, rfl⟩ := Nat.exists_eq_add_of_le' hfuel
      exact await_ready dev d fuel h
  | succ k ih =>
      by_cases hfirst : (dev.status d.device).1 = TpmState.processing.value
      · obtain ⟨device, hawait⟩ := ih (d := (d.status dev).2) h
        refine ⟨device, fun fuel hfuel => ?_⟩
        obtain ⟨fuel, rfl⟩ := Nat.exists_eq_add_of_le' (Nat.zero_lt_of_lt hfuel)
        exact (await_busy dev d fuel hfirst).trans (hawait fuel (by omega))
      · refine ⟨(dev.status d.device).2, fun fuel hfuel => ?_⟩
        obtain ⟨fuel, rfl⟩ := Nat.exists_eq_add_of_le' (Nat.zero_lt_of_lt hfuel)
        exact await_ready dev d fuel hfirst

/-- The loop over the rest, on the number of words that are left. The device may
stop sending before any of them. -/
theorem Collected.tail {start : Nat → UInt8} {maxLen actualSize n : Nat} {d : Reader σ}
    (dev : Registers σ) (h : Collected start maxLen actualSize d) (hsize : actualSize ≤ maxLen)
    (hmax : maxLen ≤ 2 ^ 32 - 4) (hn : d.words.length + n = (actualSize + 3) / 4) (passes : Nat)
    (hpasses : n ≤ passes) :
    ∃ count d', (∀ fuel, dev.bus.exec fuel (ReadCode.readTail actualSize
        ((actualSize + 3) / 4 * 4) passes (4 * d.words.length)) d = some (count, d')) ∧
      HandedOver start maxLen count d' := by
  induction n generalizing d passes with
  | zero =>
      refine ⟨actualSize, _, fun fuel => exec_readTail_done dev d fuel (by omega) passes, ?_⟩
      exact (h.handedOver hsize (by omega)).say _
  | succ n ih =>
      obtain ⟨passes, rfl⟩ := Nat.exists_eq_add_of_le' (Nat.one_le_of_lt hpasses)
      have hmore : 4 * d.words.length < (actualSize + 3) / 4 * 4 := by omega
      have hroom : 4 * d.words.length < actualSize := by omega
      -- A read of the status changes nothing but the device.
      have hpolled : Collected start maxLen actualSize (d.status dev).2 :=
        ⟨h.written, h.outside, h.bytes⟩
      by_cases hsending : (d.status dev).1 = TpmState.sending.value
      · obtain ⟨d₁, hword, htakes⟩ := takes_readWord dev (d.status dev).2 actualSize
          (show 4 * d.words.length + 3 < 2 ^ 32 by omega)
        obtain ⟨hnext, hlength⟩ :=
          hpolled.next (k := d.words.length) rfl (by omega) (by omega) htakes
        obtain ⟨count, d', htail, hd'⟩ :=
          ih hnext (by omega) passes (Nat.le_of_succ_le_succ hpasses)
        rw [hlength] at htail
        refine ⟨count, d', fun fuel => ?_, hd'⟩
        rw [exec_readTail_sending dev d fuel hmore hsending (hword fuel),
          Nat.mod_eq_of_lt (by omega)]
        exact htail fuel
      · have hhanded : HandedOver start maxLen (4 * d.words.length) (d.status dev).2 :=
          hpolled.handedOver (by omega) (Nat.min_eq_right (Nat.le_of_lt hroom))
        refine ⟨_, _, fun fuel => exec_readTail_stopped dev d fuel hmore hsending passes, ?_⟩
        rw [if_neg (by omega)]
        exact hhanded.say .stoppedEarly

theorem Collected.rest {start : Nat → UInt8} {maxLen : Nat} {d : Reader σ} (dev : Registers σ)
    (h : Collected start maxLen 12 d) (hwords : d.words.length = 3) (hlow : 12 ≤ maxLen)
    (hhigh : maxLen ≤ 2 ^ 32 - 4) :
    ∃ n d', (∀ fuel, dev.bus.exec fuel (ReadCode.readRest maxLen) d = some (n, d')) ∧
      HandedOver start maxLen n d' := by
  have hrest := exec_readRest dev d
  extract_lets size said at hrest
  have hsaid : Collected start maxLen 12 said := ⟨h.written, h.outside, h.bytes⟩
  have hheader : HandedOver start maxLen 12 said :=
    hsaid.handedOver hlow (show min 12 (4 * d.words.length) = 12 by rw [hwords]; rfl)
  by_cases hlarge : maxLen < size
  · exact ⟨12, _, fun fuel => (hrest fuel maxLen).trans (if_pos hlarge), hheader.say .tooSmall⟩
  · by_cases hsmall : size < 10
    · refine ⟨12, _, fun fuel => ?_, hheader.say .invalidSize⟩
      rw [hrest, if_neg hlarge, if_pos hsmall]
    · have hsaidWords : said.words.length = 3 := hwords
      have hpadded : padded size = (size + 3) / 4 * 4 := padded_eq (by omega)
      obtain ⟨n, d', htail, hd'⟩ := (hsaid.limit (by omega) size).tail dev
        (n := (size + 3) / 4 - 3) (by omega) hhigh (by omega) (padded size / 4) (by omega)
      refine ⟨n, d', fun fuel => ?_, hd'⟩
      rw [hsaidWords, ← hpadded] at htail
      rw [hrest, if_neg hlarge, if_neg hsmall]
      exact htail fuel

/-- The driver survives any device whose status ends up different from
PROCESSING: the call ends, writes below `maxLen` only, and returns a length up to
`maxLen` at which the buffer holds the first bytes of the words it read. These are
the values that the data register gave, in order. -/
theorem readResponse_survives (dev : Registers σ) (device : σ) (respBuf : Nat → UInt8)
    {maxLen : Nat} (hlow : 12 ≤ maxLen) (hhigh : maxLen ≤ 2 ^ 32 - 4)
    (hready : ∃ k, (dev.status (dev.polled k device)).1 ≠ TpmState.processing.value) :
    ∃ fuel n d,
      (∀ more, fuel ≤ more → dev.tpmReadResponse more device respBuf maxLen = some (n, d)) ∧
      (∀ i ∈ d.written, i < maxLen) ∧ (∀ i, maxLen ≤ i → d.respBuf i = respBuf i) ∧
      n ≤ maxLen ∧ slice d.respBuf 0 n = (d.words.flatMap bytes32).take n ∧
      ∃ reads, dev.Gives device reads d.device ∧
        d.words = reads.filterMap RegisterRead.word? := by
  suffices h : ∃ fuel n d,
      (∀ more, fuel ≤ more → dev.tpmReadResponse more device respBuf maxLen = some (n, d)) ∧
      HandedOver respBuf maxLen n d by
    obtain ⟨fuel, n, d, hread, hd⟩ := h
    exact ⟨fuel, n, d, hread, hd.written, hd.outside, hd.length_le, hd.bytes,
      genuine_readResponse (hread fuel (Nat.le_refl fuel))⟩
  obtain ⟨k, hk⟩ := hready
  obtain ⟨ready, hawait⟩ := await_of_polled dev (d := ⟨device, respBuf, [], [], []⟩) hk
  have hstart (device : σ) (log : List ReadMessage) :
      Collected respBuf maxLen 12 ⟨device, respBuf, [], [], log⟩ :=
    ⟨by simp, fun _ _ => rfl, rfl⟩
  by_cases hsending : (dev.status ready).1 = TpmState.sending.value
  · obtain ⟨d₁, d₂, d₃, h₁, h₂, h₃, hheaders⟩ :=
      takes_headers dev ⟨(dev.status ready).2, respBuf, [], [], [.reading]⟩
    obtain ⟨hfirst, hone⟩ := (hstart _ _).next (k := 0) rfl (by decide) (by omega) h₁
    obtain ⟨hsecond, htwo⟩ := hfirst.next hone (by decide) (by omega) h₂
    obtain ⟨hthird, hthree⟩ := hsecond.next htwo (by decide) (by omega) h₃
    obtain ⟨n, d, hrest, hd⟩ := hthird.rest dev hthree hlow hhigh
    refine ⟨k + 1, n, d, fun more hmore => ?_, hd⟩
    rw [Registers.tpmReadResponse, exec_tpmReadResponse dev _ more (hawait more hmore)]
    exact (if_neg (not_not.mpr hsending)).trans ((hheaders more _).trans (hrest more))
  · let again := dev.status (dev.status ready).2
    have hnone : HandedOver respBuf maxLen 0 ⟨again.2, respBuf, [], [], []⟩ :=
      (hstart again.2 []).handedOver (Nat.zero_le _) rfl
    refine ⟨k + 1, 0, _, fun more hmore => ?_, hnone.say (.notSending (.ofNat 32 again.1))⟩
    rw [Registers.tpmReadResponse, exec_tpmReadResponse dev _ more (hawait more hmore)]
    exact if_pos hsending

/-- A device that answers from two sequences, at the positions it has reached. -/
def sequenceRegisters (statuses words : Nat → Nat) : Registers (Nat × Nat) where
  status := fun reached => (statuses reached.1, (reached.1 + 1, reached.2))
  data := fun reached => (words reached.2, (reached.1, reached.2 + 1))

/-- A device that is busy at first, announces 32 bytes and stops after sixteen. -/
def haltingDevice : Registers (Nat × Nat) :=
  sequenceRegisters
    (fun k =>
      if k = 0 then TpmState.processing.value else if k < 4 then TpmState.sending.value else 0)
    (fun k => [0x80010000, 0x00200000, 0x0000aabb, 0xccddeeff].getD k 0)

theorem readResponse_survives_haltingDevice :
    ∃ fuel n d, (∀ more, fuel ≤ more →
        haltingDevice.tpmReadResponse more (0, 0) (fun _ => 0) 1024 = some (n, d)) ∧
      (∀ i ∈ d.written, i < 1024) ∧ (∀ i, 1024 ≤ i → d.respBuf i = 0) ∧
      n ≤ 1024 ∧ slice d.respBuf 0 n = (d.words.flatMap bytes32).take n ∧
      ∃ reads, haltingDevice.Gives (0, 0) reads d.device ∧
        d.words = reads.filterMap RegisterRead.word? :=
  readResponse_survives haltingDevice (0, 0) (fun _ => 0) (by decide) (by decide)
    ⟨1, by decide⟩

def literal? (c : Char) : Option FormatItem :=
  if h : ascii c ≠ 0 ∧ ascii c ≠ ascii '%' then some (.literal ⟨ascii c, h⟩) else none

def literals (s : String) : List FormatItem := s.toList.filterMap literal?

/-- A piece of a message: its text, or a number under `%u`. -/
inductive MessagePart
  | text (s : String)
  | number (v : BitVec 32)

def MessagePart.items : MessagePart → List FormatItem
  | .text s => literals s
  | .number v => [.number .unsigned false ⟨0, by decide⟩ v]

def MessagePart.room : MessagePart → Nat
  | .text s => s.length
  | .number _ => 10

def ReadMessage.parts : ReadMessage → List MessagePart
  | .notSending state =>
      [.text "Error: TPM did not enter SENDING state (state=", .number state, .text ")\n"]
  | .reading => [.text "Reading response...\n"]
  | .size actual padded =>
      [.text "Response size: actual=", .number actual, .text ", padded=", .number padded,
        .text "\n"]
  | .tooSmall => [.text "Error: Response buffer too small!\n"]
  | .invalidSize => [.text "Error: Invalid response size!\n"]
  | .stoppedEarly => [.text "Error: TPM stopped sending early!\n"]
  | .complete actual bytesRead =>
      [.text "Response read complete (actual ", .number actual, .text " bytes, read ",
        .number bytesRead, .text " with padding).\n"]

def ReadMessage.items (m : ReadMessage) : List FormatItem := m.parts.flatMap MessagePart.items

theorem nonneg_unsigned (v : BitVec 32) : ¬ NumConv.unsigned.value v < 0 :=
  Int.not_lt.mpr (Int.natCast_nonneg _)

theorem literal?_eq_some {c : Char} {item : FormatItem} (h : literal? c = some item) :
    item.Agrees ∧ item.iso.length = 1 := by
  rw [literal?] at h
  split at h
  · obtain rfl := Option.some.inj h
    exact ⟨trivial, rfl⟩
  · cases h

theorem agrees_of_mem_part {part : MessagePart} {item : FormatItem} (h : item ∈ part.items) :
    item.Agrees := by
  cases part with
  | text s =>
      obtain ⟨c, -, hc⟩ := List.mem_filterMap.mp h
      exact (literal?_eq_some hc).1
  | number v =>
      obtain rfl := List.mem_singleton.mp h
      exact fun hneg => absurd hneg (nonneg_unsigned v)

theorem length_iso_number_le (v : BitVec 32) : (isoNumber .unsigned false 0 v).length ≤ 10 := by
  have hdigits := length_convDigits_le NumConv.unsigned.text v
  rw [convDigits_eq, List.length_reverse] at hdigits
  simpa [isoNumber, nonneg_unsigned v] using hdigits

theorem length_literals_le (s : String) : (isoPrintf (literals s)).length ≤ s.length := by
  rw [literals, ← String.length_toList]
  induction s.toList with
  | nil => exact Nat.le_refl 0
  | cons c cs ih =>
      rw [List.filterMap_cons, List.length_cons]
      cases hc : literal? c with
      | none => exact Nat.le_succ_of_le ih
      | some item =>
          rw [isoPrintf] at ih ⊢
          rw [List.flatMap_cons, List.length_append, (literal?_eq_some hc).2]
          omega

theorem length_parts_le (parts : List MessagePart) :
    (isoPrintf (parts.flatMap MessagePart.items)).length ≤ (parts.map MessagePart.room).sum := by
  induction parts with
  | nil => exact Nat.le_refl 0
  | cons part parts ih =>
      have hpart : (isoPrintf part.items).length ≤ part.room := by
        cases part with
        | text s => exact length_literals_le s
        | number v => simpa [isoPrintf, MessagePart.items, FormatItem.iso, MessagePart.room] using
            length_iso_number_le v
      rw [isoPrintf] at ih hpart ⊢
      simp only [List.flatMap_cons, List.flatMap_append, List.length_append, List.map_cons,
        List.sum_cons]
      omega

/-- Every message is printed in bounds and as the standard asks, whatever numbers
the device made it carry. -/
theorem readMessage_sent (m : ReadMessage) :
    ∃ r, uartPrintf (formatOf m.items) (argsOf m.items) = some r ∧ r.InBounds ∧
      r.sent = isoPrintf m.items := by
  have hroom : (m.parts.map MessagePart.room).sum ≤ 127 := by
    cases m <;> simp only [ReadMessage.parts, MessagePart.room, List.map_cons, List.map_nil] <;>
      decide +kernel
  refine uartPrintf_of_agrees ?_ (Nat.le_trans (length_parts_le m.parts) hroom)
  intro item hitem
  obtain ⟨part, -, hpart⟩ := List.mem_flatMap.mp hitem
  exact agrees_of_mem_part hpart

end TpmEmulator
