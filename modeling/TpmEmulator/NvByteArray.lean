import TpmEmulator.NvContents
import TpmEmulator.Library.FragmentStore

/-!
An NV index as an array of bytes. Every write encrypts its data as a text of its own
and every read decrypts its range as one text, both from the zero vector, so the data
of an index is a memory written in enciphered fragments. While the key stays, a read
returns the bytes last written at each position if its blocks line up with those of
the writes. A read from the middle of a write does not.
-/
namespace TpmEmulator

open CellMemory BigEndian FragmentStore

/-- The data and the offset if the access executes an NV_Write to the index that is
answered with success. -/
def fragmentOf (host : Host) (i : Nat) (s : Tpm2State) (a : Access) : Option (Fragment UInt8) :=
  match a with
  | .read _ => none
  | .write env addr value =>
    if addr = tpm2CmdReg ∧ value = 1 ∧ s.state = .receiving ∧
        get32 s.commandBuffer 6 = tpmCcNvWrite ∧ pendingIndex s = i ∧
        (responseHeader (step host s a)).code = tpmRcSuccess then
      match unmarshalNvWrite env.nvWriteParams env.bytesRead (commandBody env s)
          (commandBodySize s) with
      | .error _ => none
      | .ok (params, _) => some ⟨params.offset, slice params.data.buffer 0 params.data.size⟩
    else none

def writesTo (host : Host) (i : Nat) (s : Tpm2State) (accesses : List Access) :
    List (Fragment UInt8) :=
  Runs.trace (step host) (fragmentOf host i) s accesses

theorem fragmentOf_cases (host : Host) {s : Tpm2State} (hinv : BankInvariant s.persistent) (i : Nat)
    (a : Access) :
    (fragmentOf host i s a = none ∧ ¬ WritesIndex host i s a) ∨
    ∃ env params e, a = .write env tpm2CmdReg 1 ∧ s.state = .receiving ∧ Writes env s params e ∧
      params.nvIndex = i ∧
      fragmentOf host i s a =
        some ⟨params.offset, slice params.data.buffer 0 params.data.size⟩ := by
  by_cases hwrites : WritesIndex host i s a
  · obtain ⟨env, ⟨rfl, hstate⟩, hcmd, hindex, hcode⟩ := hwrites
    obtain ⟨params, e, h⟩ :=
      (nvWrite_success_iff host (fun _ _ => hinv.sizes) hstate).mp ⟨hcmd, hcode⟩
    obtain ⟨bytesRead, hread⟩ := h.unmarshal
    refine .inr ⟨env, params, e, rfl, hstate, h, h.handles.2.trans hindex, ?_⟩
    simp only [fragmentOf, hstate, hcmd, hindex, hcode, hread, and_self, if_true]
  · refine .inl ⟨?_, hwrites⟩
    cases a with
    | read addr => rfl
    | write env addr value =>
        refine if_neg ?_
        rintro ⟨rfl, rfl, hstate, hcmd, hindex, hcode⟩
        exact hwrites ⟨env, ⟨rfl, hstate⟩, hcmd, hindex, hcode⟩

/-- The data of the index is the memory that the writes leave. -/
def HoldsWrites (host : Host) (key : List UInt8) (i : Nat) (p : Persistent)
    (writes : List (Fragment UInt8)) : Prop :=
  (p.nvMap.lookup i = none ∧ writes = []) ∨
    ∃ e blank, p.nvMap.lookup i = some e ∧ ∀ k < e.dataLen,
      p.nvBank (e.data + k) = image (ciphertextOf host key) blank writes k

theorem holdsWrites_nil (host : Host) (key : List UInt8) (i : Nat) (p : Persistent) :
    HoldsWrites host key i p [] := by
  cases hentry : p.nvMap.lookup i with
  | none => exact .inl ⟨hentry, rfl⟩
  | some e => exact .inr ⟨e, fun k => p.nvBank (e.data + k), hentry, fun _ _ => rfl⟩

theorem holdsWrites_step {host : Host} {s : Tpm2State} {i : Nat} {writes : List (Fragment UInt8)}
    (h : Reachable host s)
    (hholds : HoldsWrites host (installedKey s.persistent) i s.persistent writes) (a : Access) :
    HoldsWrites host (installedKey s.persistent) i (step host s a).persistent
      (writes ++ (fragmentOf host i s a).toList) := by
  have hinv := bankInvariant_reachable h
  obtain ⟨hfragment, hkeeps⟩ | ⟨env, params, e, rfl, hstate, hwrites, rfl, hfragment⟩ :=
    fragmentOf_cases host hinv i a
  · rw [hfragment, Option.toList_none, List.append_nil]
    obtain ⟨-, rfl⟩ | ⟨e, blank, hentry, hbank⟩ := hholds
    · exact holdsWrites_nil host _ i _
    · have hsame := sameData_effect hinv hentry (hinv.effect host a) hkeeps
      exact .inr ⟨e, blank, hsame.entry, fun k hk => (hsame.bytes k hk).trans (hbank k hk)⟩
  · rw [hfragment, Option.toList_some, hwrites.persistent_step host hstate]
    obtain ⟨hnone, -⟩ | ⟨e', blank, hentry, hbank⟩ := hholds
    · cases hnone.symm.trans hwrites.entry
    cases hentry.symm.trans hwrites.entry
    refine .inr ⟨e.markWritten, blank, Finmap.lookup_insert _, fun k hk => ?_⟩
    rw [image_append, ← nvCiphertext_eq h hwrites.entry hwrites.writable.key]
    exact store_shift _ (hbank k hk)

def KeyUnchanged (host : Host) (s : Tpm2State) (a : Access) : Prop :=
  installedKey (step host s a).persistent = installedKey s.persistent

instance (host : Host) (s : Tpm2State) (a : Access) : Decidable (KeyUnchanged host s a) :=
  inferInstanceAs (Decidable (_ = _))

theorem holdsWrites_run {host : Host} {s : Tpm2State} (h : Reachable host s) (i : Nat)
    (accesses : List Access) (hkey : Runs.Along (step host) (KeyUnchanged host) s accesses) :
    let t := Runs.run (step host) s accesses
    HoldsWrites host (installedKey t.persistent) i t.persistent (writesTo host i s accesses) := by
  refine (Runs.trace_along (P := fun s writes => Reachable host s ∧
    HoldsWrites host (installedKey s.persistent) i s.persistent writes) ?_ s accesses []
    ⟨h, holdsWrites_nil _ _ _ _⟩ hkey).2
  rintro s a writes ⟨hs, hholds⟩ ha
  refine ⟨hs.next a, ?_⟩
  rw [show installedKey (step host s a).persistent = installedKey s.persistent from ha]
  exact holdsWrites_step hs hholds a

/-- Decrypting an aligned range of the data gives what was written there. -/
theorem plaintextOf_aligned {host : Host} {key : List UInt8} {bank blank : Nat → UInt8}
    {writes : List (Fragment UInt8)} {data dataLen o n : Nat}
    (hbank : ∀ k < dataLen, bank (data + k) = image (ciphertextOf host key) blank writes k)
    (hfits : o + n ≤ dataLen) (haligned : Aligned 16 writes o n) :
    plaintextOf host key (slice bank (data + o) n) = slice (image id zeroBytes writes) o n := by
  have hstored : slice bank (data + o) n = slice (image (ciphertextOf host key) blank writes) o n :=
    slice_congr fun k hk => by
      rw [Nat.add_assoc]
      exact hbank (o + k) (by omega)
  rw [hstored]
  exact decrypt_image _ _ _ blank zeroBytes xor_xor_self haligned

/-- Every byte is the one that the last write to its position put there. -/
def LastWritten (writes : List (Fragment UInt8)) (o : Nat) (v : List UInt8) : Prop :=
  ∀ j < v.length, ∃ w, lastWrite writes (o + j) = some w ∧ v[j]? = w.cells[o + j - w.offset]?

/-- While the key stays, a successful read of a range that lines up with the writes
returns the bytes last written there. -/
theorem nvRead_lastWritten {host : Host} {s : Tpm2State} (h : Reachable host s) {i n o : Nat}
    (accesses : List Access) (hkey : Runs.Along (step host) (KeyUnchanged host) s accesses)
    (env : Surroundings) (hread : NvReadCommand (Runs.run (step host) s accesses) i n o)
    (hcode : (responseHeader (step host (Runs.run (step host) s accesses)
      (.write env tpm2CmdReg 1))).code = tpmRcSuccess)
    (haligned : Aligned 16 (writesTo host i s accesses) o n) :
    ∃ v, AnsweredWith (step host (Runs.run (step host) s accesses) (.write env tpm2CmdReg 1)) v ∧
      v.length = n ∧ LastWritten (writesTo host i s accesses) o v := by
  have hholds := holdsWrites_run h i accesses hkey
  have hreach := h.run accesses
  obtain ⟨params, e, hreads⟩ := (nvRead_success_iff host hread.state).mp ⟨hread.code, hcode⟩
  obtain ⟨bytesRead, hparams⟩ := hreads.unmarshal
  cases hparams.symm.trans (hread.unmarshal env)
  obtain ⟨hnone, -⟩ | ⟨e', blank, hentry, hbank⟩ := hholds
  · cases hnone.symm.trans hreads.entry
  cases hentry.symm.trans hreads.entry
  have hfits : o + n ≤ e.dataLen := hreads.fits
  have hplain : nvPlaintext host (Runs.run (step host) s accesses) e n o =
      slice (image id zeroBytes (writesTo host i s accesses)) o n := by
    rw [nvPlaintext_eq hreach ((keyInvariant_reachable hreach).hasKey hreads.key) hentry
      (congrArg _ (length_slice _ _ _)) (length_slice _ _ n).ge,
      List.take_of_length_le (length_slice _ _ _).le]
    exact plaintextOf_aligned hbank hfits haligned
  refine ⟨_, hplain ▸ hreads.answered host hread.state, length_slice _ _ _, fun j hj => ?_⟩
  rw [length_slice] at hj
  obtain ⟨w, hlast, -⟩ := haligned j hj
  refine ⟨w, hlast, ?_⟩
  rw [getElem?_slice _ _ hj]
  exact (image_of_lastWrite (f := id) (fun _ => rfl) zeroBytes hlast).symm

/-- The firmware defines its index, writes it and sends a read. -/
def writeThenRead (cmdRead : List UInt8) : List Access :=
  [cmdNvDefineSpace, cmdNvWrite].flatMap (send zeroSurroundings) ++
    transmit zeroSurroundings cmdRead

theorem nvRead_lastWritten_start :
    let s := tpm2Realize referenceHost
    let accesses := writeThenRead cmdNvRead
    let t := Runs.run (step referenceHost) s accesses
    writesTo referenceHost 0x01000001 s accesses = [⟨0, [0x54, 0x45, 0x53, 0x54]⟩] ∧
      ∃ v, AnsweredWith (step referenceHost t (.write zeroSurroundings tpm2CmdReg 1)) v ∧
        v.length = 4 ∧ LastWritten (writesTo referenceHost 0x01000001 s accesses) 0 v := by
  intro s accesses t
  obtain ⟨hwrites, hkey, hread, hcode⟩ :
      writesTo referenceHost 0x01000001 s accesses = [⟨0, [0x54, 0x45, 0x53, 0x54]⟩] ∧
      Runs.Along (step referenceHost) (KeyUnchanged referenceHost) s accesses ∧
      NvReadCommand t 0x01000001 4 0 ∧
      (responseHeader (step referenceHost t (.write zeroSurroundings tpm2CmdReg 1))).code =
        tpmRcSuccess := by
    decide +kernel
  have haligned : Aligned 16 (writesTo referenceHost 0x01000001 s accesses) 0 4 := by
    rw [hwrites]
    intro j hj
    exact ⟨_, if_pos ⟨Nat.zero_le _, Nat.add_lt_add_left hj 0⟩, .inl ⟨by omega, rfl⟩⟩
  exact ⟨hwrites, nvRead_lastWritten (reachable_realize referenceHost) accesses hkey
    zeroSurroundings hread hcode haligned⟩

def cmdNvReadMiddle : List UInt8 := (cmdNvRead.set 21 0x01).set 23 0x01

theorem nvRead_lastWritten_fails :
    let s := tpm2Realize referenceHost
    let accesses := writeThenRead cmdNvReadMiddle
    let t := Runs.run (step referenceHost) s accesses
    Runs.Along (step referenceHost) (KeyUnchanged referenceHost) s accesses ∧
      writesTo referenceHost 0x01000001 s accesses = [⟨0, [0x54, 0x45, 0x53, 0x54]⟩] ∧
      NvReadCommand t 0x01000001 1 1 ∧
      AnsweredWith (step referenceHost t (.write zeroSurroundings tpm2CmdReg 1)) [0x17] ∧
      ¬ LastWritten (writesTo referenceHost 0x01000001 s accesses) 1 [0x17] := by
  intro s accesses t
  obtain ⟨hkey, hwrites, hread, hanswered⟩ :
      Runs.Along (step referenceHost) (KeyUnchanged referenceHost) s accesses ∧
      writesTo referenceHost 0x01000001 s accesses = [⟨0, [0x54, 0x45, 0x53, 0x54]⟩] ∧
      NvReadCommand t 0x01000001 1 1 ∧
      AnsweredWith (step referenceHost t (.write zeroSurroundings tpm2CmdReg 1)) [0x17] := by
    decide +kernel
  refine ⟨hkey, hwrites, hread, hanswered, ?_⟩
  rw [hwrites]
  intro h
  obtain ⟨w, hlast, hv⟩ := h 0 (by decide)
  cases hlast
  exact absurd hv (by decide)

end TpmEmulator
