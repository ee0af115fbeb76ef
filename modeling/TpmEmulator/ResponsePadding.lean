import TpmEmulator.LocalCopies

/-!
What the guest reads of a response. A read of the data register while the device sends
delivers four bytes of the response buffer, and the last word can reach behind the
response. The builder of a success zeroes these bytes. The builder of an error does not,
so the third word of an error carries two bytes that an earlier response has left.
-/
namespace TpmEmulator

open CellMemory BigEndian

def dataRead (s : Tpm2State) : Access → Option Nat
  | .read addr =>
    if addr = tpm2DataReg ∧ s.state = .sending then some (tpm2MmioRead s addr).1 else none
  | .write _ _ _ => none

def responseWords (t : Tpm2State) : Nat := ((responseHeader t).size + 3) / 4

def paddedResponse (t : Tpm2State) : List Nat :=
  (List.range (responseWords t)).map fun k =>
    get32 (fun i => if i < (responseHeader t).size then t.responseBuffer i else 0) (4 * k)

def bufferedResponse (t : Tpm2State) : List Nat :=
  (List.range (responseWords t)).map fun k => get32 t.responseBuffer (4 * k)

/-- The law of padding, for the state `t` that an execution ends in: until the next
execution, whatever the guest does, it is delivered a beginning of the padded response,
and if it only reads then all of it. -/
structure DeliversPadded (host : Host) (t : Tpm2State) : Prop where
  beginning : ∀ accesses, Runs.Along (step host) (fun s a => ∀ env, ¬ a.Executes s env) t accesses →
    Runs.trace (step host) dataRead t accesses <+: paddedResponse t
  whole : Runs.trace (step host) dataRead t
    (List.replicate (responseWords t) (.read tpm2DataReg)) = paddedResponse t

/-- After `k` words of the response of `t`: if the device still sends, it goes on with
the next word of that response. -/
def Delivering (t : Tpm2State) (k : Nat) (s : Tpm2State) : Prop :=
  s.state = .sending →
    s.responseBuffer = t.responseBuffer ∧ s.respSize = t.respSize ∧ s.respIdx = 4 * k ∧
      4 * k < t.respSize

theorem mmioWrite_cases (host : Host) {env : Surroundings} {s : Tpm2State} {addr value : Nat}
    (hexec : ¬ Access.Executes s (.write env addr value) env) :
    tpm2MmioWrite host env s addr value = s ∨
      (tpm2MmioWrite host env s addr value).state ≠ .sending := by
  unfold tpm2MmioWrite
  split
  · split
    · exact .inr nofun
    split
    · exact .inr nofun
    · exact .inl rfl
  split
  · rename_i haddr
    split
    · rename_i hvalue
      split
      · exact .inr nofun
      · rename_i hstate
        exact absurd ⟨by rw [haddr, hvalue], not_not.mp hstate⟩ hexec
    · exact .inl rfl
  split
  · split
    · exact .inl rfl
    rename_i hstate
    have hreceiving : s.state ≠ .sending := fun h => absurd (h.symm.trans (not_not.mp hstate)) nofun
    split
    · exact .inr nofun
    · exact .inr hreceiving
  · exact .inl rfl

theorem dataRead_eq {s : Tpm2State} (h : s.state = .sending) :
    dataRead s (.read tpm2DataReg) = some (tpm2MmioRead s tpm2DataReg).1 :=
  if_pos ⟨rfl, h⟩

theorem step_read_none {host : Host} {s : Tpm2State} {addr : Nat}
    (h : dataRead s (.read addr) = none) : step host s (.read addr) = s := by
  change (tpm2MmioRead s addr).2 = s
  unfold tpm2MmioRead
  split
  · rfl
  split
  · rfl
  split
  · rename_i haddr
    have hstate : s.state ≠ .sending := fun hstate => by
      rw [dataRead, if_pos ⟨haddr, hstate⟩] at h
      cases h
    rw [if_pos hstate]
  · rfl

theorem delivering_read (host : Host) {t s : Tpm2State} {k : Nat} (hsize : t.respSize ≤ 1024)
    (h : Delivering t k s) (hstate : s.state = .sending) :
    dataRead s (.read tpm2DataReg) = some (get32 t.responseBuffer (4 * k)) ∧
      Delivering t (k + 1) (step host s (.read tpm2DataReg)) ∧
      (4 * (k + 1) < t.respSize → (step host s (.read tpm2DataReg)).state = .sending) := by
  obtain ⟨hbuffer, hresp, hidx, hmore⟩ := h hstate
  obtain ⟨hword, hsame, hnext, hlast⟩ :=
    mmioRead_data hstate (by omega) (by omega : s.respSize ≤ 1024)
  rw [hidx, hresp] at hnext hlast
  refine ⟨?_, fun hsending => ?_, fun hlt => (hnext (by omega)).1⟩
  · rw [dataRead_eq hstate, hword, hidx, hbuffer]
  · by_cases hlt : 4 * k + 4 < t.respSize
    · obtain ⟨-, hidx', hresp'⟩ := hnext hlt
      exact ⟨hsame.trans hbuffer, hresp', hidx', by omega⟩
    · cases hsending.symm.trans (hlast (Nat.le_of_not_lt hlt)).1

def Delivered (t s : Tpm2State) (words : List Nat) : Prop :=
  ∃ k ≤ responseWords t, words = (List.range k).map (fun j => get32 t.responseBuffer (4 * j)) ∧
    Delivering t k s

theorem delivered_step (host : Host) {t : Tpm2State} (hsize : t.respSize ≤ 1024)
    (hwords : t.respSize ≤ 4 * responseWords t) (s : Tpm2State) (a : Access) (words : List Nat)
    (h : Delivered t s words) (hexec : ∀ env, ¬ a.Executes s env) :
    Delivered t (step host s a) (words ++ (dataRead s a).toList) := by
  obtain ⟨k, hk, rfl, hdelivering⟩ := h
  cases a with
  | read addr =>
      cases hread : dataRead s (.read addr) with
      | none =>
          rw [step_read_none hread, Option.toList_none, List.append_nil]
          exact ⟨k, hk, rfl, hdelivering⟩
      | some word =>
          obtain ⟨rfl, hstate⟩ : addr = tpm2DataReg ∧ s.state = .sending := by
            by_contra hnot
            rw [dataRead, if_neg hnot] at hread
            cases hread
          obtain ⟨hword, hnext, -⟩ := delivering_read host hsize hdelivering hstate
          have hmore := (hdelivering hstate).2.2.2
          cases hread.symm.trans hword
          refine ⟨k + 1, by omega, ?_, hnext⟩
          rw [List.range_succ, List.map_append]
          rfl
  | write env addr value =>
      refine ⟨k, hk, List.append_nil _, fun hsending => ?_⟩
      obtain hsame | hstops := mmioWrite_cases host (hexec env)
      · have hstep : step host s (.write env addr value) = s := hsame
        rw [hstep] at hsending ⊢
        exact hdelivering hsending
      · exact absurd hsending hstops

theorem trace_reads (host : Host) {t : Tpm2State} (hsize : t.respSize ≤ 1024) (n : Nat)
    {k : Nat} {s : Tpm2State} (h : Delivering t k s) (hn : 4 * (k + n) < t.respSize + 4)
    (hstate : n ≠ 0 → s.state = .sending) :
    Runs.trace (step host) dataRead s (List.replicate n (.read tpm2DataReg)) =
      (List.range' k n).map fun j => get32 t.responseBuffer (4 * j) := by
  induction n generalizing k s with
  | zero => rfl
  | succ n ih =>
      obtain ⟨hword, hnext, hsending⟩ := delivering_read host hsize h (hstate (Nat.succ_ne_zero n))
      rw [List.replicate_succ, Runs.trace, hword,
        ih hnext (by omega) (fun hne => hsending (by omega)), List.range'_succ, List.map_cons]
      rfl

theorem delivers_buffered (host : Host) {t : Tpm2State} (hstate : t.state = .sending)
    (hidx : t.respIdx = 0) (hpos : 0 < t.respSize) (hsize : t.respSize ≤ 1024)
    (hlow : 4 * responseWords t < t.respSize + 4) (hhigh : t.respSize ≤ 4 * responseWords t) :
    (∀ accesses, Runs.Along (step host) (fun s a => ∀ env, ¬ a.Executes s env) t accesses →
      Runs.trace (step host) dataRead t accesses <+: bufferedResponse t) ∧
    Runs.trace (step host) dataRead t
      (List.replicate (responseWords t) (.read tpm2DataReg)) = bufferedResponse t := by
  have hstart : Delivering t 0 t := fun _ => ⟨rfl, rfl, hidx, hpos⟩
  constructor
  · intro accesses halong
    obtain ⟨k, hk, htrace, -⟩ := Runs.trace_along (P := Delivered t)
      (delivered_step host hsize hhigh) t accesses [] ⟨0, Nat.zero_le _, rfl, hstart⟩ halong
    rw [List.nil_append] at htrace
    rw [htrace, bufferedResponse]
    exact (List.prefix_iff_eq_take.mpr (by rw [List.length_range, List.take_range,
      Nat.min_eq_left hk])).map _
  · rw [trace_reads host hsize _ hstart (by omega) fun _ => hstate, bufferedResponse,
      List.range_eq_range']

/-- The words agree exactly when the buffer has zeros behind the response. -/
theorem bufferedResponse_eq_iff (t : Tpm2State) :
    bufferedResponse t = paddedResponse t ↔
      ∀ i, (responseHeader t).size ≤ i → i < 4 * responseWords t → t.responseBuffer i = 0 := by
  rw [bufferedResponse, paddedResponse, List.map_inj_left]
  simp only [List.mem_range]
  constructor
  · intro h i hlow hhigh
    have hbyte := byte_of_get32 (h (i / 4) (by omega)) (k := i % 4) (by omega)
    rwa [show 4 * (i / 4) + i % 4 = i by omega, if_neg (by omega)] at hbyte
  · intro h k hk
    refine get32_congr fun j hj => ?_
    split
    · rfl
    · exact h _ (by omega) (by omega)

theorem padding_ok (s : Tpm2State) {bodySize i : Nat}
    (h : bodySize ≤ responseBufferSize - tpmRspHeaderSize) (hlow : tpmRspHeaderSize + bodySize ≤ i)
    (hhigh : i < (tpmRspHeaderSize + bodySize + 3) / 4 * 4) :
    (respond (.ok bodySize, s)).responseBuffer i = 0 := by
  have hsize : (tpmRspHeaderSize + bodySize) % 2 ^ 32 = tpmRspHeaderSize + bodySize := by
    simp only [responseBufferSize, tpmRspHeaderSize] at h ⊢
    omega
  have hpadded : (tpmRspHeaderSize + bodySize + 3) % 2 ^ 32 = tpmRspHeaderSize + bodySize + 3 := by
    simp only [responseBufferSize, tpmRspHeaderSize] at h ⊢
    omega
  obtain ⟨j, rfl⟩ := Nat.exists_eq_add_of_le hlow
  simp only [responseBuffer_ok, hsize, hpadded]
  rw [store_inside _ _ _ j (by rw [List.length_replicate]; omega), List.getElem_replicate]

theorem responseWords_respond {r : Reply} (hr : r.WellFormed) :
    4 * responseWords (respond r) < (respond r).respSize + 4 ∧
      (respond r).respSize ≤ 4 * responseWords (respond r) := by
  have hans := answers_respond hr
  have hsize := hans.size_le
  have hpadded := (respSize_le_padded hr).2
  simp only [responseWords]
  omega

theorem padding_respond {r : Reply} (hr : r.WellFormed) :
    bufferedResponse (respond r) = paddedResponse (respond r) ↔
      (responseHeader (respond r)).code = tpmRcSuccess ∨
        ((respond r).responseBuffer 10 = 0 ∧ (respond r).responseBuffer 11 = 0) := by
  rw [bufferedResponse_eq_iff]
  obtain ⟨report, s⟩ := r
  cases report with
  | error rc =>
      have hcode := hr.error_code rfl
      simp only [responseWords, responseHeader_error s hcode, tpmRspHeaderSize, hcode.1, false_or]
      constructor
      · exact fun h => ⟨h 10 (by decide) (by decide), h 11 (by decide) (by decide)⟩
      · rintro ⟨h₁₀, h₁₁⟩ i hlow hhigh
        obtain rfl | rfl : i = 10 ∨ i = 11 := by omega
        · exact h₁₀
        · exact h₁₁
  | ok bodySize =>
      have hbody := hr.body_le rfl
      simp only [responseWords, responseHeader_ok s hbody, true_or, iff_true]
      exact fun i hlow hhigh => padding_ok s hbody hlow (by omega)

inductive Accepts (env : Surroundings) (s : Tpm2State) : Prop
  | getRandom (code : dispatchedCode s = some tpmCcGetRandom) (size : 2 ≤ commandBodySize s)
      (count : get16 (commandBody env s) 0 ≤ 32)
  | createPrimary (params : CreatePrimaryParams) (template seed : Nat → UInt8)
      (creates : Creates env s params template)
      (hierarchy : hierarchySeed s params.primaryHandle = some seed)
      (type : get16 template 0 = tpmAlgEcc)
  | nvDefineSpace (params : NvDefineSpaceParams) (defines : Defines env s params)
  | nvWrite (params : NvWriteParams) (e : NvEntry) (writes : Writes env s params e)
  | nvRead (params : NvReadParams) (e : NvEntry) (reads : Reads env s params e)

/-- The pending command is an NV_Read that passes the checks of its handler, but asks for
more than the response has room for. -/
def ReadTooLong (env : Surroundings) (s : Tpm2State) : Prop :=
  ∃ params e, ReadAdmitted env s params e ∧ IsKeyLength s.primarySensitive.ecc.size ∧
    1012 < params.sizeToRead

section Outcome

variable {host : Host} {env : Surroundings} {s : Tpm2State}

theorem Accepts.reply (host : Host) (h : Accepts env s) :
    ∃ bodySize t, executeReply host env s = (.ok bodySize, t) := by
  cases h with
  | getRandom code size count =>
      rw [executeReply_getRandom host env code, handleGetRandom, unmarshalGetRandom,
        unmarshalUint16, if_neg (Nat.not_lt.mpr size)]
      dsimp only
      rw [if_neg (Nat.not_lt.mpr count), marshalBody, marshalGetRandomResponse,
        encodes_tpm2b _ _ _ _ (by
          rw [length_tpm2bBytes, responseBufferSize, tpmRspHeaderSize]
          change 2 + get16 (commandBody env s) 0 ≤ _
          omega)]
      exact ⟨_, _, rfl⟩
  | createPrimary params template seed creates hierarchy type =>
      rw [creates.reply host,
        createPrimaryFrom_created host (accept s) params template hierarchy type]
      exact ⟨_, _, rfl⟩
  | nvDefineSpace params defines => exact ⟨_, _, defines.reply host⟩
  | nvWrite params e writes => exact ⟨_, _, writes.reply host⟩
  | nvRead params e reads => exact ⟨_, _, reads.reply host⟩

/-- The size that was asked for is left behind the header. -/
theorem ReadTooLong.reply (hreach : Reachable host s) (h : ReadTooLong env s) :
    ∃ rc t, executeReply host env s = (.error rc, t) ∧ get16 t.responseBuffer 10 ≠ 0 := by
  obtain ⟨params, e, hadmitted, hkey, hlong⟩ := h
  obtain ⟨bytesRead, hread⟩ := hadmitted.unmarshal
  have hrange := hadmitted.range
  have hinv := bankInvariant_reachable hreach
  have hlength := hinv.sizes hadmitted.entry
  have hextent : e.ivPtr + (16 + e.dataLen) ≤ 6962 :=
    (hinv.packed.inside hadmitted.entry).trans (hinv.cursor_le.trans hinv.bankSize.le)
  have hreply := executeReply_nvRead host env hadmitted.code
  rw [handleNvRead_decrypted host env (accept s) _ _ hread hadmitted.entry hadmitted.written
    hrange hadmitted.unlocked (hlength ▸ hrange) (Nat.zero_lt_of_lt hlong) hkey, marshalBody]
    at hreply
  obtain ⟨rc, hmarshal⟩ := marshalNvReadResponse_long ⟨params.sizeToRead,
    store zeroBytes 0 (nvPlaintext host (accept s) e params.sizeToRead params.offset)⟩
    (accept s).responseBuffer tpmRspHeaderSize
    (show 2 ≤ responseBufferSize - tpmRspHeaderSize by decide) hlong
  rw [hmarshal] at hreply
  refine ⟨rc, _, hreply, ?_⟩
  have hstored : get16 (store s.responseBuffer tpmRspHeaderSize (bytes16 params.sizeToRead))
      tpmRspHeaderSize = params.sizeToRead % 2 ^ 16 :=
    get16_of_slice (slice_store_same _ _ (bytes16 params.sizeToRead))
  exact fun hzero => absurd (hstored.symm.trans hzero) (by omega)

/-- An error over the buffer as it was. -/
def Refused (host : Host) (env : Surroundings) (s : Tpm2State) : Prop :=
  ∃ rc t, executeReply host env s = (.error rc, t) ∧ t.responseBuffer = s.responseBuffer

theorem refused_getRandom (host : Host) (hcode : dispatchedCode s = some tpmCcGetRandom)
    (hnot : ¬ Accepts env s) : Refused host env s := by
  rw [Refused, executeReply_getRandom host env hcode, handleGetRandom, unmarshalGetRandom,
    unmarshalUint16]
  by_cases hsize : commandBodySize s < 2
  · rw [if_pos hsize]
    exact ⟨_, _, rfl, rfl⟩
  · rw [if_neg hsize]
    dsimp only
    rw [if_pos (Nat.lt_of_not_le fun hcount =>
      hnot (.getRandom hcode (Nat.le_of_not_lt hsize) hcount))]
    exact ⟨_, _, rfl, rfl⟩

theorem refused_createPrimary (host : Host) (hcode : dispatchedCode s = some tpmCcCreatePrimary)
    (hnot : ¬ Accepts env s) : Refused host env s := by
  obtain ⟨rc, -, -, heq⟩ | ⟨params, template, hrequests, hcases⟩ :=
    createPrimary_effect host env s hcode
  · exact ⟨_, _, heq, rfl⟩
  obtain ⟨-, heq⟩ | ⟨seed, -, -, heq⟩ | ⟨seed, hseed, htype, -⟩ := hcases
  · exact ⟨_, _, heq, rfl⟩
  · exact ⟨_, _, heq, rfl⟩
  · exact absurd (.createPrimary params template seed ⟨hcode, hrequests⟩ hseed htype) hnot

theorem refused_nvRead (host : Host) (hcode : dispatchedCode s = some tpmCcNvRead)
    (hnot : ¬ Accepts env s) (hfits : ¬ ReadTooLong env s) : Refused host env s := by
  have hreply := executeReply_nvRead host env hcode
  obtain ⟨rc, -, heq⟩ | ⟨params, bytesRead, e, hparams, hentry, hwritten, hrange, hunlocked,
    hdata, hpos, hkey, -⟩ :=
    handleNvRead_cases host env (accept s) (commandBody env s) (commandBodySize s)
  · exact ⟨_, _, hreply.trans heq, rfl⟩
  by_cases hlong : 1012 < params.sizeToRead
  · exact absurd ⟨params, e, ⟨hcode, ⟨bytesRead, hparams⟩, hentry, hwritten, hrange,
      hunlocked⟩, hkey, hlong⟩ hfits
  · exact absurd (.nvRead params e ⟨hcode, ⟨bytesRead, hparams⟩, hentry, hwritten, hrange,
      hunlocked, hdata, hpos, hkey, Nat.le_of_not_lt hlong⟩) hnot

/-- A command that is not carried out is refused, unless it is a read for whose size the
bytes behind the header are used. -/
theorem executeReply_refused (host : Host)
    (hsizes : ∀ i e, s.nvMap.lookup i = some e → e.dataLen = e.pub.dataSize)
    (hnot : ¬ Accepts env s) (hfits : ¬ ReadTooLong env s) : Refused host env s := by
  by_cases hrandom : dispatchedCode s = some tpmCcGetRandom
  · exact refused_getRandom host hrandom hnot
  by_cases hcreate : dispatchedCode s = some tpmCcCreatePrimary
  · exact refused_createPrimary host hcreate hnot
  by_cases hread : dispatchedCode s = some tpmCcNvRead
  · exact refused_nvRead host hread hnot hfits
  by_cases hdefine : dispatchedCode s = some tpmCcNvDefineSpace
  · obtain ⟨rc, -, heq⟩ | ⟨params, hdefines⟩ := nvDefineSpace_effect host env s hdefine
    · exact ⟨_, _, heq, rfl⟩
    · exact absurd (.nvDefineSpace params hdefines) hnot
  by_cases hwrite : dispatchedCode s = some tpmCcNvWrite
  · obtain ⟨rc, -, heq⟩ | ⟨params, e, hwrites⟩ := nvWrite_effect host env s hwrite hsizes
    · exact ⟨_, _, heq, rfl⟩
    · exact absurd (.nvWrite params e hwrites) hnot
  obtain ⟨rc, t, -, heq, -, -, hbuffer⟩ :=
    executeReply_other host env hrandom hcreate hdefine hwrite hread
  exact ⟨rc, t, heq, hbuffer⟩

end Outcome

theorem deliversPadded_respond (host : Host) {r : Reply} (hr : r.WellFormed) :
    DeliversPadded host (respond r) ↔ (responseHeader (respond r)).code = tpmRcSuccess ∨
      ((respond r).responseBuffer 10 = 0 ∧ (respond r).responseBuffer 11 = 0) := by
  obtain ⟨hlow, hhigh⟩ := responseWords_respond hr
  have hans := answers_respond hr
  have hpos : 0 < (respond r).respSize :=
    lt_of_lt_of_le (by decide) ((respSize_le_padded hr).1.trans hans.size_le)
  obtain ⟨hbeginning, hwhole⟩ :=
    delivers_buffered host hans.sending hans.respIdx hpos hans.respSize_le hlow hhigh
  rw [← padding_respond hr]
  constructor
  · exact fun h => hwhole.symm.trans h.whole
  · exact fun h => ⟨fun accesses halong => h ▸ hbeginning accesses halong, hwhole.trans h⟩

theorem responseBuffer_behind_error (s : Tpm2State) (rc : Nat) {i : Nat} (h : 10 ≤ i) :
    (respond (.error rc, s)).responseBuffer i = s.responseBuffer i := by
  rw [responseBuffer_error, marshalResponseHeader, if_neg (by decide)]
  refine store_outside s.responseBuffer 0 _ i (.inr ?_)
  simpa only [List.length_append, length_bytes16, length_bytes32, Nat.zero_add] using h

theorem deliversPadded_error (host : Host) (s : Tpm2State) {rc : Nat} (hrc : IsErrorCode rc) :
    DeliversPadded host (respond (.error rc, s)) ↔
      s.responseBuffer 10 = 0 ∧ s.responseBuffer 11 = 0 := by
  have hcode : (responseHeader (respond (.error rc, s))).code ≠ tpmRcSuccess := by
    rw [responseHeader_error s hrc]
    exact hrc.1
  rw [deliversPadded_respond host (wellFormed_error s hrc), or_iff_right hcode,
    responseBuffer_behind_error s rc (by decide), responseBuffer_behind_error s rc (by decide)]

/-- The padding law holds of a command that is carried out. Of a command that is refused
it holds exactly when the two bytes of the buffer behind an error header are zero before,
and the command is no read for whose size they are used. -/
theorem deliversPadded_iff {host : Host} {env : Surroundings} {s t : Tpm2State}
    (hreach : Reachable host s) (hstate : s.state = .receiving)
    (ht : process host (some s) (.write env tpm2CmdReg 1) = some t) :
    DeliversPadded host t ↔ Accepts env s ∨
      (¬ ReadTooLong env s ∧ s.responseBuffer 10 = 0 ∧ s.responseBuffer 11 = 0) := by
  have hwf := executeReply_wellFormed host env s
  obtain rfl : t = respond (executeReply host env s) := by
    have hrun : Runs.run (process host) (some s) [.write env tpm2CmdReg 1] = some t := ht
    exact (Runs.run_stopping_iff.mp hrun).2.symm.trans (step_executes host ⟨rfl, hstate⟩)
  by_cases haccepts : Accepts env s
  · obtain ⟨bodySize, t, hreply⟩ := haccepts.reply host
    have hcode := ((answers_respond hwf).ok (congrArg Prod.fst hreply)).1
    exact iff_of_true ((deliversPadded_respond host hwf).mpr (.inl hcode)) (.inl haccepts)
  rw [or_iff_right haccepts]
  by_cases hlong : ReadTooLong env s
  · obtain ⟨rc, t, hreply, hbytes⟩ := hlong.reply hreach
    rw [hreply, deliversPadded_error host t (hwf.error_code (congrArg Prod.fst hreply))]
    refine iff_of_false (fun hzero => hbytes ?_) fun h => h.1 hlong
    simp only [get16, be16, hzero, UInt8.toNat_zero, Nat.zero_mul, Nat.add_zero]
  · obtain ⟨rc, t, hreply, hbuffer⟩ := executeReply_refused host
      (fun _ _ => (bankInvariant_reachable hreach).sizes) haccepts hlong
    rw [hreply, deliversPadded_error host t (hwf.error_code (congrArg Prod.fst hreply)), hbuffer,
      and_iff_right hlong]

/-- The first response of the device is an error over an empty buffer. -/
theorem deliversPadded_iff_first :
    ∃ t, process referenceHost (some (pendingCommand [] cmdCreatePrimaryBadTag))
        (.write zeroSurroundings tpm2CmdReg 1) = some t ∧ DeliversPadded referenceHost t := by
  have hcode : dispatchedCode (pendingCommand [] cmdCreatePrimaryBadTag) = none := by
    decide +kernel
  refine ⟨_, process_continues (by decide +kernel), ?_⟩
  refine (deliversPadded_iff (reachable_pendingCommand [] cmdCreatePrimaryBadTag)
    (by decide +kernel) (process_continues (by decide +kernel))).mpr (.inr ⟨?_, by decide +kernel⟩)
  rintro ⟨params, e, hadmitted, -⟩
  cases hcode.symm.trans hadmitted.code

/-- An error behind 32 random bytes: its third word ends with the low byte of their
number. -/
theorem deliversPadded_fails :
    let s := pendingCommand [cmdGetRandom] cmdCreatePrimaryBadTag
    let t := step referenceHost s (.write zeroSurroundings tpm2CmdReg 1)
    s.state = .receiving ∧
      process referenceHost (some s) (.write zeroSurroundings tpm2CmdReg 1) = some t ∧
      Runs.trace (step referenceHost) dataRead t (List.replicate 3 (.read tpm2DataReg)) =
        [0x80010000, 0x000A0000, 0x001E0020] ∧
      paddedResponse t = [0x80010000, 0x000A0000, 0x001E0000] ∧
      ¬ DeliversPadded referenceHost t := by
  intro s t
  have htrace : Runs.trace (step referenceHost) dataRead t
      (List.replicate 3 (.read tpm2DataReg)) = [0x80010000, 0x000A0000, 0x001E0020] := by
    decide +kernel
  have hpadded : paddedResponse t = [0x80010000, 0x000A0000, 0x001E0000] := by decide +kernel
  refine ⟨by decide +kernel, process_continues (by decide +kernel), htrace, hpadded, fun h => ?_⟩
  have hwhole := h.whole
  rw [show responseWords t = 3 by decide +kernel, htrace, hpadded] at hwhole
  exact absurd hwhole (by decide)

end TpmEmulator
