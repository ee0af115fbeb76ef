import TpmEmulator.PendingCommands

/-!
Migration of the TPM. `vmstate_tpm2` names three registers, and the NV bank is RAM of
the device and sent as RAM is. The map of the indices, the allocation cursor, the
primary object and a message under way are not sent: the destination has those of its
own realization. To its guest it is a TPM that has just been switched on, with one
exception: the record of the index defined at realization comes from the source.
-/
namespace TpmEmulator
open CellMemory BigEndian

/-- The fields of the description, and the RAM of the device. -/
structure Tpm2Saved where
  ctrl : Nat
  status : Nat
  keyGenerated : Nat
  nvBank : List UInt8

def tpm2Save (s : Tpm2State) : Tpm2Saved :=
  ⟨s.ctrl, s.status, s.keyGenerated, slice s.nvBank 0 tpm2NvStorageSize⟩

/-- The device `t` of the destination after loading. -/
def tpm2Load (t : Tpm2State) (saved : Tpm2Saved) : Tpm2State :=
  { t with
    ctrl := saved.ctrl
    status := saved.status
    keyGenerated := saved.keyGenerated
    nvBank := store t.nvBank 0 saved.nvBank }

/-- The value that the guest gets from an access. -/
def accessValue (s : Tpm2State) : Access → Nat
  | .read addr => (tpm2MmioRead s addr).1
  | .write _ _ _ => 0

/-- The registers that `vmstate_tpm2` names. -/
def Tpm2State.registers (s : Tpm2State) : Nat × Nat × Nat := (s.ctrl, s.status, s.keyGenerated)

theorem handleNvWrite_registers (host : Host) (env : Surroundings) (s : Tpm2State)
    (cmdBody : Nat → UInt8) (bodySize : Nat) :
    (handleNvWrite host env s cmdBody bodySize).2.registers = s.registers := by
  unfold handleNvWrite
  cases unmarshalNvWrite env.nvWriteParams env.bytesRead cmdBody bodySize with
  | error rc => rfl
  | ok result =>
      obtain ⟨params, bytesRead⟩ := result
      dsimp only
      cases s.nvMap.lookup params.nvIndex with
      | none => rfl
      | some e =>
          dsimp only
          split
          · rfl
          cases provisionOf params.authHandle with
          | none => rfl
          | some provHandle =>
              dsimp only
              obtain ⟨rc, hrc, heq⟩ | ⟨e', hlookup, hbeyond⟩ | ⟨e', hlookup, hwritable⟩ :=
                tpm2NvWrite_cases host s provHandle params.nvIndex params.data params.offset
              · rw [heq, if_pos hrc.1]
              · rw [tpm2NvWrite_beyond host provHandle params.data hlookup hbeyond]
                rfl
              · rw [tpm2NvWrite_stored host provHandle hlookup hwritable]
                rfl

theorem dispatch_registers (host : Host) (env : Surroundings) (s : Tpm2State) (code : Nat) :
    (dispatch host env s code).2.registers = s.registers := by
  unfold dispatch
  dsimp only
  split
  · obtain ⟨rc, -, heq⟩ | ⟨n, -, heq⟩ := handleGetRandom_cases env s
      (advance (commandMemory env s) tpmCmdHeaderSize) (sub32 s.cmdSize tpmCmdHeaderSize)
    · rw [heq]
    · rw [heq]
      rfl
  split
  · obtain ⟨rc, -, -, heq⟩ | ⟨params, bytesRead, -, heq⟩ := handleCreatePrimary_cases host env s
      (advance (commandMemory env s) tpmCmdHeaderSize) (sub32 s.cmdSize tpmCmdHeaderSize)
    · rw [heq]
    · obtain ⟨sensitive, publicArea, name, handle, buffer, hframe⟩ := createPrimaryFrom_frame host s
        params (advance (advance (commandMemory env s) tpmCmdHeaderSize)
          (bytesRead - params.inPublicSize))
      rw [heq, hframe]
      rfl
  split
  · obtain ⟨rc, -, heq⟩ | ⟨params, bytesRead, provHandle, hread, hprov, hchecks, hroom⟩ :=
      handleNvDefineSpace_cases env s
        (advance (commandMemory env s) tpmCmdHeaderSize) (sub32 s.cmdSize tpmCmdHeaderSize)
    · rw [heq]
    · rw [handleNvDefineSpace_defined hread hprov hchecks hroom]
      rfl
  split
  · exact handleNvWrite_registers host env s _ _
  split
  · obtain ⟨rc, -, heq⟩ | ⟨params, bytesRead, e, -, -, -, -, -, -, -, -, heq⟩ :=
      handleNvRead_cases host env s
        (advance (commandMemory env s) tpmCmdHeaderSize) (sub32 s.cmdSize tpmCmdHeaderSize)
    · rw [heq]
    · rw [heq]
      rfl
  · rfl

theorem executeReply_registers (host : Host) (env : Surroundings) (s : Tpm2State) :
    (executeReply host env s).2.registers = s.registers := by
  rw [executeReply]
  split
  · rfl
  cases hvalid : validateCommand (accept s) with
  | error rc =>
      rw [commandReply_error host env hvalid]
      rfl
  | ok header =>
      rw [commandReply_ok host env hvalid]
      exact dispatch_registers host env (accept s) header.code

theorem registers_respond (r : Reply) : (respond r).registers = r.2.registers := by
  obtain ⟨report, s⟩ := r
  cases report <;> rfl

/-- No access gives one of the three registers a value. -/
theorem registers_reachable {host : Host} {s : Tpm2State} (h : Reachable host s) :
    s.registers = (0, 0, 0) := by
  refine h.invariant (P := fun s => s.registers = (0, 0, 0)) ?_ ?_
  · rintro s rfl
    rw [tpm2Realize_eq]
    rfl
  · intro s a hs
    cases a with
    | read addr =>
        change (tpm2MmioRead s addr).2.registers = _
        unfold tpm2MmioRead
        dsimp only
        split_ifs <;> exact hs
    | write env addr value =>
        change (tpm2MmioWrite host env s addr value).registers = _
        unfold tpm2MmioWrite
        split_ifs
        · exact hs
        · rfl
        · exact hs
        · exact hs
        · rw [executeCommand_eq_respond, registers_respond, executeReply_registers, hs]
        all_goals exact hs

def Tpm2State.withBank (s : Tpm2State) (bank : Nat → UInt8) : Tpm2State := { s with nvBank := bank }

/-- The second device differs in the part of the bank that has not been allocated. -/
def BankAgrees (s t : Tpm2State) : Prop :=
  ∃ bank, t = s.withBank bank ∧ ∀ i < s.nvAllocOffset, bank i = s.nvBank i

/-- Two results that are the same but for devices that agree. -/
structure ResultsAgree {α : Type} (r r' : α × Tpm2State) : Prop where
  value : r'.1 = r.1
  device : BankAgrees r.2 r'.2

theorem ResultsAgree.ite {α : Type} {p : Prop} [Decidable p] {r₁ r₁' r₂ r₂' : α × Tpm2State}
    (h₁ : ResultsAgree r₁ r₁') (h₂ : ¬ p → ResultsAgree r₂ r₂') :
    ResultsAgree (if p then r₁ else r₂) (if p then r₁' else r₂') := by
  split
  case isTrue => exact h₁
  case isFalse hp => exact h₂ hp

section Handlers
variable {s : Tpm2State} {bank : Nat → UInt8} (h : ∀ i < s.nvAllocOffset, bank i = s.nvBank i)
include h

theorem resultsAgree_same {α : Type} (value : α) :
    ResultsAgree (value, s) (value, s.withBank bank) :=
  ⟨rfl, bank, rfl, h⟩

theorem handleGetRandom_agree (env : Surroundings) (cmdBody : Nat → UInt8) (bodySize : Nat) :
    ResultsAgree (handleGetRandom env s cmdBody bodySize)
      (handleGetRandom env (s.withBank bank) cmdBody bodySize) := by
  unfold handleGetRandom
  cases unmarshalGetRandom cmdBody bodySize with
  | error rc => exact resultsAgree_same h _
  | ok result =>
      exact .ite (resultsAgree_same h _) fun _ => ⟨rfl, bank, rfl, h⟩

theorem createPrimaryFrom_agree (host : Host) (params : CreatePrimaryParams)
    (pubBuf : Nat → UInt8) :
    ResultsAgree (createPrimaryFrom host s params pubBuf)
      (createPrimaryFrom host (s.withBank bank) params pubBuf) := by
  cases hseed : hierarchySeed s params.primaryHandle with
  | none =>
      rw [createPrimaryFrom_no_hierarchy host s params pubBuf hseed,
        createPrimaryFrom_no_hierarchy host (s.withBank bank) params pubBuf hseed]
      exact ⟨rfl, bank, rfl, h⟩
  | some seed =>
      by_cases htype : get16 pubBuf 0 = tpmAlgEcc
      · rw [createPrimaryFrom_ecc host s params pubBuf hseed htype,
          createPrimaryFrom_ecc host (s.withBank bank) params pubBuf hseed htype]
        exact ⟨rfl, bank, rfl, h⟩
      · rw [createPrimaryFrom_not_ecc host s params pubBuf hseed htype,
          createPrimaryFrom_not_ecc host (s.withBank bank) params pubBuf hseed htype]
        exact ⟨rfl, bank, rfl, h⟩

theorem handleCreatePrimary_agree (host : Host) (env : Surroundings) (cmdBody : Nat → UInt8)
    (bodySize : Nat) :
    ResultsAgree (handleCreatePrimary host env s cmdBody bodySize)
      (handleCreatePrimary host env (s.withBank bank) cmdBody bodySize) := by
  unfold handleCreatePrimary
  cases unmarshalCreatePrimary env.createPrimaryParams cmdBody bodySize with
  | error rc => exact resultsAgree_same h _
  | ok result => exact createPrimaryFrom_agree h host _ _

/-- A new slice is zeroed in both banks. -/
theorem nvDefined_agree (nv : NvPublic) :
    BankAgrees (nvDefined s nv) (nvDefined (s.withBank bank) nv) := by
  refine ⟨_, rfl, fun i hi => ?_⟩
  have hiv := store_agree h (List.replicate 16 (0 : UInt8)) (Nat.le_refl s.nvAllocOffset)
  have hstart : s.nvAllocOffset + 16 ≤ max s.nvAllocOffset
      (s.nvAllocOffset + (List.replicate 16 (0 : UInt8)).length) := by
    rw [List.length_replicate]
    omega
  refine store_agree hiv (List.replicate nv.dataSize (0 : UInt8)) hstart i ?_
  have hcursor : i < (s.nvAllocOffset + (16 + nv.dataSize)) % 2 ^ 32 := hi
  have hle := Nat.mod_le (s.nvAllocOffset + (16 + nv.dataSize)) (2 ^ 32)
  simp only [List.length_replicate]
  omega

theorem handleNvDefineSpace_agree (env : Surroundings) (cmdBody : Nat → UInt8) (bodySize : Nat) :
    ResultsAgree (handleNvDefineSpace env s cmdBody bodySize)
      (handleNvDefineSpace env (s.withBank bank) cmdBody bodySize) := by
  unfold handleNvDefineSpace
  cases unmarshalNvDefineSpace env.nvDefineSpaceParams cmdBody bodySize with
  | error rc => exact resultsAgree_same h _
  | ok result =>
      dsimp only
      cases provisionOf result.1.authHandle with
      | none => exact resultsAgree_same h _
      | some provHandle =>
          dsimp only
          generalize nvPublicOf result.1 = nv
          generalize Tpm2b.mk result.1.authSize _ = auth
          by_cases hchecks : nvDefineSpaceChecks s provHandle nv = tpmRcSuccess
          · by_cases hroom : s.nvAllocOffset + (16 + nv.dataSize) ≤ s.nvBankSize
            · rw [tpm2NvDefineSpace_success auth hchecks hroom,
                tpm2NvDefineSpace_success (s := s.withBank bank) auth hchecks hroom]
              exact ⟨rfl, nvDefined_agree h nv⟩
            · rw [tpm2NvDefineSpace_full auth hchecks hroom,
                tpm2NvDefineSpace_full (s := s.withBank bank) auth hchecks hroom]
              exact resultsAgree_same h _
          · rw [tpm2NvDefineSpace_rejected auth hchecks,
              tpm2NvDefineSpace_rejected (s := s.withBank bank) auth hchecks]
            change ResultsAgree
              (if nvDefineSpaceChecks s provHandle nv ≠ tpmRcSuccess then _ else _)
              (if nvDefineSpaceChecks s provHandle nv ≠ tpmRcSuccess then _ else _)
            rw [if_pos hchecks, if_pos hchecks]
            exact resultsAgree_same h _

section Entry
variable {nvIndex : Nat} {e : NvEntry} (hinv : BankInvariant s.persistent)
  (hlookup : s.nvMap.lookup nvIndex = some e)
include hinv hlookup

/-- The two banks hold the same in the slice of an index. -/
theorem slice_entry_agree {start count : Nat} (hend : start + count ≤ e.data + e.dataLen) :
    slice bank start count = slice s.nvBank start count := by
  have hinside : e.ivPtr + (16 + e.dataLen) ≤ s.nvAllocOffset := hinv.packed.inside hlookup
  have hdata : e.data = e.ivPtr + 16 := hinv.adjacent hlookup
  exact slice_congr fun i hi => h (start + i) (by omega)

theorem nvCrypt_agree (host : Host) (input : List UInt8) (enc : Bool) :
    nvCrypt host (s.withBank bank) e input enc = nvCrypt host s e input enc := by
  have hdata : e.data = e.ivPtr + 16 := hinv.adjacent hlookup
  have hiv : nvIv (s.withBank bank) e = nvIv s e :=
    slice_entry_agree h hinv hlookup (by omega)
  rw [nvCrypt, nvCrypt, hiv]
  rfl

theorem nvReadDecryptFromBank_agree (host : Host) (len offset : Nat) :
    nvReadDecryptFromBank host (s.withBank bank) e len offset =
      nvReadDecryptFromBank host s e len offset := by
  rw [nvReadDecryptFromBank, nvReadDecryptFromBank]
  split
  · rfl
  rw [nvCrypt_agree h hinv hlookup, show slice (s.withBank bank).nvBank (e.data + offset) len =
    slice s.nvBank (e.data + offset) len from slice_entry_agree h hinv hlookup (by omega)]

theorem tpm2NvWrite_agree (host : Host) (authHandle : Provision) (data : Tpm2b) (offset : Nat) :
    ResultsAgree (tpm2NvWrite host s authHandle nvIndex data offset)
      (tpm2NvWrite host (s.withBank bank) authHandle nvIndex data offset) := by
  have hlookup' : (s.withBank bank).nvMap.lookup nvIndex = some e := hlookup
  have hsame (rc : Nat) := resultsAgree_same h rc
  simp only [tpm2NvWrite, hlookup, hlookup', nvCrypt_agree h hinv hlookup]
  refine .ite (hsame _) fun _ => .ite (hsame _) fun _ => .ite (hsame _) fun _ =>
    .ite (hsame _) fun hrange => .ite (hsame _) fun _ => .ite (hsame _) fun _ =>
      .ite (hsame _) fun _ => .ite (hsame _) fun _ => ⟨rfl, _, rfl, fun i hi => ?_⟩
  have hslice : slice (s.withBank bank).nvBank (e.data + offset) data.size =
      slice s.nvBank (e.data + offset) data.size :=
    slice_entry_agree h hinv hlookup (by omega)
  have hinside : e.ivPtr + (16 + e.dataLen) ≤ s.nvAllocOffset := hinv.packed.inside hlookup
  have hdata : e.data = e.ivPtr + 16 := hinv.adjacent hlookup
  rw [hslice]
  split
  · exact store_agree h _ (by omega) i (Nat.lt_of_lt_of_le hi (Nat.le_max_left _ _))
  · exact h i hi

end Entry

variable (hinv : BankInvariant s.persistent)
include hinv

theorem handleNvWrite_agree (host : Host) (env : Surroundings) (cmdBody : Nat → UInt8)
    (bodySize : Nat) :
    ResultsAgree (handleNvWrite host env s cmdBody bodySize)
      (handleNvWrite host env (s.withBank bank) cmdBody bodySize) := by
  unfold handleNvWrite
  cases unmarshalNvWrite env.nvWriteParams env.bytesRead cmdBody bodySize with
  | error rc => exact resultsAgree_same h _
  | ok result =>
      dsimp only
      cases hlookup : s.nvMap.lookup result.1.nvIndex with
      | none =>
          rw [show (s.withBank bank).nvMap.lookup result.1.nvIndex = none from hlookup]
          exact resultsAgree_same h _
      | some e =>
          rw [show (s.withBank bank).nvMap.lookup result.1.nvIndex = some e from hlookup]
          refine .ite (resultsAgree_same h _) fun _ => ?_
          cases provisionOf result.1.authHandle with
          | none => exact resultsAgree_same h _
          | some provHandle =>
              dsimp only
              obtain ⟨hvalue, bank', hdevice, hagree⟩ := tpm2NvWrite_agree h hinv hlookup host
                provHandle result.1.data result.1.offset
              rw [hvalue, hdevice]
              exact .ite ⟨rfl, bank', rfl, hagree⟩ fun _ => ⟨rfl, bank', rfl, hagree⟩

theorem nvReadOutput_agree (host : Host) (env : Surroundings) (cmdBody : Nat → UInt8)
    (bodySize : Nat) :
    nvReadOutput host env (s.withBank bank) cmdBody bodySize =
      nvReadOutput host env s cmdBody bodySize := by
  unfold nvReadOutput
  cases unmarshalNvRead env.nvReadParams env.bytesRead cmdBody bodySize with
  | error rc => rfl
  | ok result =>
      dsimp only
      cases hlookup : s.nvMap.lookup result.1.nvIndex with
      | none => rw [show (s.withBank bank).nvMap.lookup result.1.nvIndex = none from hlookup]
      | some e =>
          rw [show (s.withBank bank).nvMap.lookup result.1.nvIndex = some e from hlookup]
          dsimp only
          rw [nvReadDecryptFromBank_agree h hinv hlookup]

theorem handleNvRead_agree (host : Host) (env : Surroundings) (cmdBody : Nat → UInt8)
    (bodySize : Nat) :
    ResultsAgree (handleNvRead host env s cmdBody bodySize)
      (handleNvRead host env (s.withBank bank) cmdBody bodySize) := by
  rw [handleNvRead, handleNvRead, nvReadOutput_agree h hinv]
  cases nvReadOutput host env s cmdBody bodySize with
  | error rc => exact resultsAgree_same h _
  | ok result => exact ⟨rfl, bank, rfl, h⟩

theorem dispatch_agree (host : Host) (env : Surroundings) (code : Nat) :
    ResultsAgree (dispatch host env s code) (dispatch host env (s.withBank bank) code) := by
  unfold dispatch
  exact .ite (handleGetRandom_agree h _ _ _) fun _ =>
    .ite (handleCreatePrimary_agree h _ _ _ _) fun _ =>
    .ite (handleNvDefineSpace_agree h _ _ _) fun _ =>
    .ite (handleNvWrite_agree h hinv _ _ _ _) fun _ =>
    .ite (handleNvRead_agree h hinv _ _ _ _) fun _ => resultsAgree_same h _

end Handlers

theorem commandReply_agree {s t : Tpm2State} (h : BankAgrees s t)
    (hinv : BankInvariant s.persistent) (host : Host) (env : Surroundings) :
    ResultsAgree (commandReply host env s) (commandReply host env t) := by
  obtain ⟨bank, rfl, hbank⟩ := h
  have hvalidate : validateCommand (s.withBank bank) = validateCommand s :=
    validateCommand_congr rfl rfl
  cases hvalid : validateCommand s with
  | error rc =>
      rw [commandReply_error host env hvalid,
        commandReply_error host env (hvalidate.trans hvalid)]
      exact resultsAgree_same hbank _
  | ok header =>
      rw [commandReply_ok host env hvalid, commandReply_ok host env (hvalidate.trans hvalid)]
      exact dispatch_agree hbank hinv host env header.code

theorem executeReply_agree {s t : Tpm2State} (h : BankAgrees s t)
    (hinv : BankInvariant s.persistent) (host : Host) (env : Surroundings) :
    ResultsAgree (executeReply host env s) (executeReply host env t) := by
  have haccept : BankAgrees (accept s) (accept t) := by
    obtain ⟨bank, rfl, hbank⟩ := h
    exact ⟨bank, rfl, hbank⟩
  have hreply := commandReply_agree haccept hinv host env
  obtain ⟨bank, rfl, hbank⟩ := h
  rw [executeReply, executeReply]
  exact .ite ⟨rfl, bank, rfl, hbank⟩ fun _ => hreply

theorem respond_agree {r r' : Reply} (h : ResultsAgree r r') :
    BankAgrees (respond r) (respond r') := by
  obtain ⟨report, s⟩ := r
  obtain ⟨report', t⟩ := r'
  obtain ⟨hvalue, bank, hdevice, hbank⟩ := h
  dsimp only at hvalue hdevice hbank
  subst hvalue hdevice
  cases report' with
  | error rc => exact ⟨bank, rfl, hbank⟩
  | ok bodySize => exact ⟨bank, rfl, hbank⟩

theorem mmioRead_agree {s t : Tpm2State} (h : BankAgrees s t) (addr : Nat) :
    ResultsAgree (tpm2MmioRead s addr) (tpm2MmioRead t addr) := by
  obtain ⟨bank, rfl, hbank⟩ := h
  have hsame (value : Nat) := resultsAgree_same hbank value
  rw [tpm2MmioRead, tpm2MmioRead]
  exact .ite (hsame _) fun _ => .ite (hsame _) fun _ =>
    .ite (.ite (hsame _) fun _ => .ite (hsame _) fun _ =>
      .ite ⟨rfl, bank, rfl, hbank⟩ fun _ => ⟨rfl, bank, rfl, hbank⟩) fun _ => hsame _

theorem mmioWrite_agree {s t : Tpm2State} (h : BankAgrees s t)
    (hinv : BankInvariant s.persistent) (host : Host) (env : Surroundings) (addr value : Nat) :
    BankAgrees (tpm2MmioWrite host env s addr value) (tpm2MmioWrite host env t addr value) := by
  have hexecute : BankAgrees (executeCommand host env s) (executeCommand host env t) := by
    rw [executeCommand_eq_respond, executeCommand_eq_respond]
    exact respond_agree (executeReply_agree h hinv host env)
  obtain ⟨bank, rfl, hbank⟩ := h
  have hstate : (s.withBank bank).state = s.state := rfl
  have hsize : (s.withBank bank).cmdSize = s.cmdSize := rfl
  unfold tpm2MmioWrite
  rw [hstate, hsize]
  split_ifs
  all_goals first
    | exact hexecute
    | exact ⟨bank, rfl, hbank⟩

/-- A guest gets the same from two devices that agree, whatever it does. -/
theorem observed_agree (host : Host) {s t : Tpm2State} (hreach : Reachable host s)
    (h : BankAgrees s t) (accesses : List Access) :
    Runs.observed (step host) accessValue t accesses =
      Runs.observed (step host) accessValue s accesses := by
  refine Runs.observed_eq (R := fun s t => Reachable host s ∧ BankAgrees s t) ?_ ?_
    ⟨hreach, h⟩ accesses
  · rintro s t a ⟨hreach, h⟩
    refine ⟨hreach.next a, ?_⟩
    cases a with
    | read addr => exact (mmioRead_agree h addr).device
    | write env addr value =>
        exact mmioWrite_agree h (bankInvariant_reachable hreach) host env addr value
  · rintro s t a ⟨-, h⟩
    cases a with
    | read addr => exact (mmioRead_agree h addr).value
    | write env addr value => rfl

/-- The access does not write to the index that is defined at realization. -/
def SparesTestIndex (s : Tpm2State) (a : Access) : Prop :=
  ∀ env params e, a.Executes s env → Writes env s params e →
    params.nvIndex ≠ testNvPublic.nvIndex

theorem sparesTestIndex_of_bytes {s : Tpm2State}
    (h : get32 s.commandBuffer 14 ≠ testNvPublic.nvIndex) (a : Access) : SparesTestIndex s a := by
  intro env params e _ hwrites
  obtain ⟨bytesRead, hread⟩ := hwrites.unmarshal
  rw [(unmarshalNvWrite_handles hread).2]
  exact h

/-- The first record of the bank is that of the index defined at realization. -/
structure TestRecord (host : Host) (p : Persistent) : Prop where
  entry : ∃ e, p.nvMap.lookup testNvPublic.nvIndex = some e ∧ e.ivPtr = 0 ∧ e.dataLen = 32
  bank : ∀ i < 48, p.nvBank i = (tpm2Realize host).nvBank i

theorem testRecord_realize (host : Host) : TestRecord host (tpm2Realize host).persistent := by
  refine ⟨?_, fun _ _ => rfl⟩
  rw [tpm2Realize_eq]
  exact ⟨_, Finmap.lookup_insert _, rfl, rfl⟩

theorem TestRecord.effect {host : Host} {s : Tpm2State} {a : Access} {p : Persistent}
    (h : TestRecord host s.persistent) (hinv : BankInvariant s.persistent)
    (heffect : Effect host s a p) (hspares : SparesTestIndex s a) : TestRecord host p := by
  obtain ⟨e, hlookup, hstart, hlen⟩ := h.entry
  have hentry : s.nvMap.lookup testNvPublic.nvIndex = some e := hlookup
  constructor
  · cases heffect with
    | none | advance | wipe | create => exact h.entry
    | define env params hexec hdefines =>
        have hne : testNvPublic.nvIndex ≠ params.nvIndex := by
          intro heq
          exact hdefines.fresh (heq ▸ Finmap.mem_of_lookup_eq_some hentry)
        exact ⟨e, (Finmap.lookup_insert_of_ne _ hne).trans hentry, hstart, hlen⟩
    | write env params e' hexec hwrites =>
        have hne := hspares env params e' hexec hwrites
        exact ⟨e, (Finmap.lookup_insert_of_ne _ hne.symm).trans hentry, hstart, hlen⟩
  · intro i hi
    rw [← h.bank i hi]
    by_contra hchanged
    have hinside : e.ivPtr + (16 + e.dataLen) ≤ s.nvAllocOffset := hinv.packed.inside hentry
    obtain ⟨env, params, e', hexec, hwrites, hlow, -⟩ |
        ⟨env, params, hexec, hdefines, -, hlow, -⟩ := nvBank_effect heffect hchanged
    · have hne := hspares env params e' hexec hwrites
      have hdisjoint : e.ivPtr + (16 + e.dataLen) ≤ e'.ivPtr ∨
          e'.ivPtr + (16 + e'.dataLen) ≤ e.ivPtr :=
        hinv.packed.disjoint hentry hwrites.entry hne.symm
      have hdata : e'.data = e'.ivPtr + 16 := hinv.adjacent hwrites.entry
      omega
    · omega

theorem testRecord_run (host : Host) (accesses : List Access)
    (hspares : Runs.Along (step host) SparesTestIndex (tpm2Realize host) accesses) :
    TestRecord host (Runs.run (step host) (tpm2Realize host) accesses).persistent := by
  refine (Runs.run_along (P := fun s => Reachable host s ∧ TestRecord host s.persistent) ?_
    (tpm2Realize host) accesses ⟨reachable_realize host, testRecord_realize host⟩ hspares).2
  rintro s a ⟨hreach, hrecord⟩ hspares
  have hinv := bankInvariant_reachable hreach
  exact ⟨hreach.next a, hrecord.effect hinv (hinv.effect host a) hspares⟩

theorem tpm2Reset_realize (host : Host) : tpm2Reset (tpm2Realize host) = tpm2Realize host := by
  rw [tpm2Realize_eq]
  rfl

/-- Wherever a TPM is migrated, the guest of the destination finds a TPM that has just
been switched on, if the index defined at realization has not been written. -/
theorem tpm_migration_restarts (host : Host) (before after : List Access)
    (hspares : Runs.Along (step host) SparesTestIndex (tpm2Realize host) before) :
    let s := Runs.run (step host) (tpm2Realize host) before
    let t := tpm2Load (tpm2Reset (tpm2Realize host)) (tpm2Save s)
    Runs.observed (step host) accessValue t after =
      Runs.observed (step host) accessValue (tpm2Realize host) after := by
  intro s t
  have hregisters : s.registers = (tpm2Realize host).registers :=
    (registers_reachable ((reachable_realize host).run before)).trans
      (registers_reachable (reachable_realize host)).symm
  simp only [Tpm2State.registers, Prod.mk.injEq] at hregisters
  obtain ⟨hctrl, hstatus, hkey⟩ := hregisters
  refine observed_agree host (reachable_realize host) ⟨t.nvBank, ?_, fun i hi => ?_⟩ after
  · simp only [t, tpm2Load, tpm2Save, tpm2Reset_realize, hctrl, hstatus, hkey]
    rfl
  · have hfirst : i < 48 := by
      rw [tpm2Realize_eq] at hi
      exact hi
    have hcell := store_inside (tpm2Realize host).nvBank 0 (slice s.nvBank 0 tpm2NvStorageSize) i
      (by rw [length_slice]; exact Nat.lt_trans hfirst (by decide))
    rw [getElem_slice, Nat.zero_add] at hcell
    simp only [t, tpm2Load, tpm2Save, tpm2Reset_realize]
    exact hcell.trans ((testRecord_run host before hspares).bank i hfirst)

/-- The firmware has defined, written and read its own index before the migration. -/
theorem tpm_migration_restarts_firmware :
    let before := [cmdNvDefineSpace, cmdNvWrite, cmdNvRead].flatMap (send zeroSurroundings)
    Runs.Along (step referenceHost) SparesTestIndex (tpm2Realize referenceHost) before ∧
      Runs.observed (step referenceHost) accessValue
          (tpm2Load (tpm2Reset (tpm2Realize referenceHost))
            (tpm2Save (Runs.run (step referenceHost) (tpm2Realize referenceHost) before)))
          (send zeroSurroundings cmdNvRead) =
        Runs.observed (step referenceHost) accessValue (tpm2Realize referenceHost)
          (send zeroSurroundings cmdNvRead) := by
  intro before
  have hspares : Runs.Along (step referenceHost) SparesTestIndex (tpm2Realize referenceHost)
      before := by
    have hbytes : Runs.Along (step referenceHost)
        (fun s _ => get32 s.commandBuffer 14 ≠ testNvPublic.nvIndex) (tpm2Realize referenceHost)
        before := by
      decide +kernel
    exact hbytes.imp fun s a h => sparesTestIndex_of_bytes h a
  exact ⟨hspares, tpm_migration_restarts referenceHost before _ hspares⟩

-- Otherwise the destination gives out what was written on the source, as soon as one
-- byte of the index has been written there.
example :
    let write (data : List UInt8) := commandBytes tpmStNoSessions tpmCcNvWrite
      (encodeNvWrite tpmRhOwner testNvPublic.nvIndex data 0)
    let read := commandBytes tpmStNoSessions tpmCcNvRead
      (encodeNvRead ⟨tpmRhOwner, testNvPublic.nvIndex, 4, 0⟩)
    let s := afterCommands [write [1, 2, 3, 4]]
    let t := tpm2Load (tpm2Reset (tpm2Realize referenceHost)) (tpm2Save s)
    let u := Runs.run (step referenceHost) t
      ([write [1], read].flatMap (send zeroSurroundings))
    slice u.responseBuffer 12 4 = [1, 2, 3, 4] := by
  decide +kernel

end TpmEmulator
