import TpmEmulator.NvAttributes
import TpmEmulator.NvCommands
import TpmEmulator.ParameterGrammar

/-!
The objects that CreatePrimary makes. Handles come from a counter that starts at 1
and advances with every request that the unmarshaller accepts, whether or not a key
comes of it; nothing compares it with the end of the transient range. The sensitive
area is copied into a structure whose data field is half as long as the one the
unmarshaller checks against.
-/
namespace TpmEmulator

open CellMemory BigEndian

/-- The request that the access makes: the parameters that the unmarshaller accepts
and the memory from which the template is read. -/
def requestOf (s : Tpm2State) : Access → Option (CreatePrimaryParams × (Nat → UInt8))
  | .read _ => none
  | .write env addr value =>
    if addr = tpm2CmdReg ∧ value = 1 ∧ s.state = .receiving ∧
        dispatchedCode s = some tpmCcCreatePrimary then
      match unmarshalCreatePrimary env.createPrimaryParams (commandBody env s)
          (commandBodySize s) with
      | .error _ => none
      | .ok (params, bytesRead) =>
        some (params, advance (commandBody env s) (bytesRead - params.inPublicSize))
    else none

theorem requestOf_eq_some {s : Tpm2State} {a : Access} {params : CreatePrimaryParams}
    {template : Nat → UInt8} :
    requestOf s a = some (params, template) ↔ ∃ env, a.Executes s env ∧
      dispatchedCode s = some tpmCcCreatePrimary ∧ Requests env s params template := by
  constructor
  · intro h
    cases a with
    | read addr => cases h
    | write env addr value =>
        unfold requestOf at h
        dsimp only at h
        split at h
        · rename_i hexec
          obtain ⟨rfl, rfl, hstate, hcode⟩ := hexec
          split at h
          · cases h
          · rename_i params' bytesRead hread
            cases h
            exact ⟨env, ⟨rfl, hstate⟩, hcode, bytesRead, hread, rfl⟩
        · cases h
  · rintro ⟨env, ⟨rfl, hstate⟩, hcode, bytesRead, hread, rfl⟩
    simp only [requestOf, hstate, hcode, hread, and_self, if_true]

def creates (s : Tpm2State) (a : Access) : Bool :=
  (requestOf s a).any fun request =>
    (hierarchySeed s request.1.primaryHandle).isSome && get16 request.2 0 == tpmAlgEcc

/-- The object handle in the response if the access executes a CreatePrimary command
that is answered with success. -/
def returnedHandle (host : Host) (s : Tpm2State) (a : Access) : Option Nat :=
  match a with
  | .read _ => none
  | .write _ addr value =>
    if addr = tpm2CmdReg ∧ value = 1 ∧ s.state = .receiving ∧
        get32 s.commandBuffer 6 = tpmCcCreatePrimary ∧
        (responseHeader (step host s a)).code = tpmRcSuccess then
      some (get32 (step host s a).responseBuffer tpmRspHeaderSize)
    else none

section Step

variable (host : Host) {s : Tpm2State}

theorem requestOf_eq_none {a : Access}
    (h : ∀ env params template, a.Executes s env → ¬ Requests env s params template) :
    requestOf s a = none := by
  cases hrequest : requestOf s a with
  | none => rfl
  | some request =>
      obtain ⟨env, hexec, -, hrequests⟩ := requestOf_eq_some.mp hrequest
      exact absurd hrequests (h env _ _ hexec)

theorem get32_createdHandle {t : Tpm2State} {memory : Nat → UInt8}
    {response : CreatePrimaryResponse}
    (hfits : (createPrimaryParts response).flatten.length ≤
      responseBufferSize - tpmRspHeaderSize)
    (hbuffer : t.responseBuffer =
      store memory tpmRspHeaderSize (createPrimaryParts response).flatten) :
    get32 (respond (.ok (createPrimaryParts response).flatten.length, t)).responseBuffer
      tpmRspHeaderSize = response.objectHandle % 2 ^ 32 := by
  have hbody := slice_responseBody t hfits
  rw [hbuffer, slice_store_same] at hbody
  have hlong : 4 ≤ (createPrimaryParts response).flatten.length := by
    rw [createPrimaryParts, List.flatten_cons, List.length_append, length_bytes32]
    omega
  refine get32_of_slice ?_
  rw [← take_slice _ _ hlong, hbody]
  rfl

theorem nextTransientHandle_effect {host : Host} {a : Access} {t : Persistent}
    (heffect : Effect host s a t)
    (h : ¬ ∃ env, a.Executes s env ∧ dispatchedCode s = some tpmCcCreatePrimary) :
    t.nextTransientHandle = s.nextTransientHandle := by
  cases heffect with
  | none | define | write => rfl
  | advance env _ _ hexec hcode => exact absurd ⟨env, hexec, hcode⟩ h
  | wipe env _ _ _ hexec hcode => exact absurd ⟨env, hexec, hcode⟩ h
  | create env _ _ _ hexec hcode => exact absurd ⟨env, hexec, hcode⟩ h

theorem requestOf_none_effect {a : Access} (hinv : BankInvariant s.persistent)
    (h : ¬ ∃ env, a.Executes s env ∧ dispatchedCode s = some tpmCcCreatePrimary) :
    requestOf s a = none ∧ (step host s a).nextTransientHandle = s.nextTransientHandle ∧
      returnedHandle host s a = none := by
  refine ⟨?_, ?_, ?_⟩
  · cases hrequest : requestOf s a with
    | none => rfl
    | some request =>
        obtain ⟨env, hexec, hcode, -⟩ := requestOf_eq_some.mp hrequest
        exact absurd ⟨env, hexec, hcode⟩ h
  · exact nextTransientHandle_effect (hinv.effect host a) h
  · cases a with
    | read addr => rfl
    | write env addr value =>
        refine if_neg fun hreturned => h ⟨env, ?_⟩
        obtain ⟨rfl, rfl, hstate, hcmd, hcode⟩ := hreturned
        exact ⟨⟨rfl, hstate⟩, dispatchedCode_of_success hstate hcmd hcode⟩

theorem requestOf_effect (hinv : BankInvariant s.persistent) (a : Access) :
    (requestOf s a = none ∧ (step host s a).nextTransientHandle = s.nextTransientHandle ∧
      returnedHandle host s a = none) ∨
    ((requestOf s a).isSome ∧
      (step host s a).nextTransientHandle = (s.nextTransientHandle + 1) % 2 ^ 32 ∧
      returnedHandle host s a =
        if creates s a then some (objectHandleOf s.nextTransientHandle % 2 ^ 32) else none) := by
  by_cases hcreate : ∃ env, a.Executes s env ∧ dispatchedCode s = some tpmCcCreatePrimary
  swap
  · exact .inl (requestOf_none_effect host hinv hcreate)
  obtain ⟨env, ⟨rfl, hstate⟩, hcode⟩ := hcreate
  have hhandle := (SamePrimary.of_persistent (persistent_execute host env hstate)).handle
  have hfailed : ∀ {rc}, IsErrorCode rc → (executeReply host env s).1 = .error rc →
      returnedHandle host s (.write env tpm2CmdReg 1) = none := fun hrc hreply =>
    if_neg fun h => hrc.1 ((code_error hstate hreply).symm.trans h.2.2.2.2)
  obtain ⟨rc, hrc, hnone, heq⟩ | ⟨params, template, hrequests, hcases⟩ :=
    createPrimary_effect host env s hcode
  · refine .inl ⟨requestOf_eq_none ?_, ?_, hfailed hrc (congrArg Prod.fst heq)⟩
    · rintro env' params template ⟨henv, -⟩
      cases henv
      exact hnone params template
    · rw [hhandle, heq]
      rfl
  have hrequest : requestOf s (.write env tpm2CmdReg 1) = some (params, template) :=
    requestOf_eq_some.mpr ⟨env, ⟨rfl, hstate⟩, hcode, hrequests⟩
  refine .inr ⟨by rw [hrequest]; rfl, ?_⟩
  obtain ⟨hseed, heq⟩ | ⟨seed, hseed, htype, heq⟩ | ⟨seed, hseed, htype, heq⟩ := hcases
  · refine ⟨by rw [hhandle, heq]; rfl, ?_⟩
    rw [hfailed (by decide) (congrArg Prod.fst heq), creates, hrequest]
    simp [hseed]
  · refine ⟨by rw [hhandle, heq]; rfl, ?_⟩
    rw [hfailed (by decide) (congrArg Prod.fst heq), creates, hrequest]
    simp [htype]
  · refine ⟨by rw [hhandle, heq]; rfl, ?_⟩
    obtain ⟨-, -, -, -, -, -, hcmd⟩ := dispatchedCode_some hcode
    have hok := code_ok hstate (congrArg Prod.fst heq)
    have hcreates : creates s (.write env tpm2CmdReg 1) = true := by
      rw [creates, hrequest]
      simp [hseed, htype]
    rw [hcreates, if_pos rfl]
    refine (if_pos ⟨rfl, rfl, hstate, hcmd, hok⟩).trans (congrArg some ?_)
    rw [step_executes host ⟨rfl, hstate⟩, heq]
    exact get32_createdHandle (length_primaryResponse host (accept s) params template seed) rfl

end Step

def stepNumbered (host : Host) (p : Tpm2State × Nat) (a : Access) : Tpm2State × Nat :=
  (step host p.1 a, if (requestOf p.1 a).isSome then p.2 + 1 else p.2)

/-- The handles that the successful CreatePrimary commands of a run return. -/
def returnedHandles (host : Host) (accesses : List Access) : List Nat :=
  Runs.trace (step host) (returnedHandle host) (tpm2Realize host) accesses

/-- For each successful CreatePrimary command of a run, its number among all requests:
1 for the first request, failed requests counted. -/
def creationNumbers (host : Host) (accesses : List Access) : List Nat :=
  Runs.trace (stepNumbered host)
    (fun p a => if creates p.1 a then some (p.2 + 1) else none) (tpm2Realize host, 0) accesses

def Counted (s : Tpm2State) : Tpm2State × Nat → Prop
  | (t, n) => t = s ∧ BankInvariant s.persistent ∧ s.nextTransientHandle = (n + 1) % 2 ^ 32

theorem counted_step (host : Host) (s : Tpm2State) (p : Tpm2State × Nat) (a : Access)
    (h : Counted s p) : Counted (step host s a) (stepNumbered host p a) := by
  obtain ⟨t, n⟩ := p
  obtain ⟨rfl, hinv, hcounter⟩ := h
  refine ⟨rfl, bankInvariant_effect hinv (hinv.effect host a), ?_⟩
  obtain ⟨hnone, hsame, -⟩ | ⟨hsome, hnext, -⟩ := requestOf_effect host hinv a
  · rw [hsame, hcounter, hnone]
    rfl
  · rw [hnext, hcounter, if_pos hsome]
    omega

def handleOfNumber (n : Nat) : Nat := 0x80000000 + n % 2 ^ 31

theorem objectHandleOf_eq {counter : Nat} (h : counter < 2 ^ 32) :
    objectHandleOf counter % 2 ^ 32 = 0x80000000 + counter % 2 ^ 31 := by
  have hlt : ∀ n, n % 2 ^ 31 < 2 ^ 31 := fun n => Nat.mod_lt n (Nat.two_pow_pos 31)
  have hor : ∀ r < 2 ^ 31, 2 ^ 31 ||| r = 2 ^ 31 + r := fun r hr => by
    have hadd := Nat.two_pow_add_eq_or_of_lt hr 1
    rw [Nat.mul_one] at hadd
    exact hadd.symm
  have hsplit : 2 ^ 31 ||| counter = 2 ^ 31 ||| counter % 2 ^ 31 := by
    by_cases hhigh : counter < 2 ^ 31
    · rw [Nat.mod_eq_of_lt hhigh]
    · have hcounter : 2 ^ 31 ||| counter % 2 ^ 31 = counter := by
        rw [hor _ (hlt counter)]
        omega
      calc 2 ^ 31 ||| counter = 2 ^ 31 ||| (2 ^ 31 ||| counter % 2 ^ 31) := by rw [hcounter]
        _ = 2 ^ 31 ||| counter % 2 ^ 31 := by rw [← Nat.or_assoc, Nat.or_self]
  rw [objectHandleOf, show (0x80000000 : Nat) = 2 ^ 31 by decide, hsplit, hor _ (hlt counter)]
  omega

theorem returnedHandle_eq (host : Host) (s : Tpm2State) (p : Tpm2State × Nat) (a : Access)
    (h : Counted s p) :
    returnedHandle host s a =
      (if creates p.1 a then some (p.2 + 1) else none).map handleOfNumber := by
  obtain ⟨t, n⟩ := p
  obtain ⟨rfl, hinv, hcounter⟩ := h
  obtain ⟨hnone, -, hreturned⟩ | ⟨-, -, hreturned⟩ := requestOf_effect host hinv a
  · rw [hreturned, creates, hnone]
    rfl
  · rw [hreturned]
    by_cases hcreates : creates t a
    · rw [if_pos hcreates, if_pos hcreates, Option.map_some, objectHandleOf_eq (by omega),
        hcounter, handleOfNumber]
      congr 1
      omega
    · rw [if_neg hcreates, if_neg hcreates]
      rfl

theorem returnedHandles_eq (host : Host) (accesses : List Access) :
    returnedHandles host accesses = (creationNumbers host accesses).map handleOfNumber := by
  refine Runs.trace_map (R := Counted) (counted_step host) (returnedHandle_eq host) ?_ accesses
  refine ⟨rfl, bankInvariant_realize host, ?_⟩
  rw [tpm2Realize_eq]
  rfl

/-- The handles are distinct and transient exactly when every successful creation is
among the first 31 requests, as far as the 31 low bits of the counter can tell. -/
theorem returnedHandles_iff (host : Host) (accesses : List Access) :
    ((returnedHandles host accesses).Nodup ∧
      ∀ handle ∈ returnedHandles host accesses,
        transientFirst ≤ handle ∧ handle ≤ transientLast) ↔
    ((creationNumbers host accesses).map (· % 2 ^ 31)).Nodup ∧
      ∀ n ∈ creationNumbers host accesses, n % 2 ^ 31 ≤ 31 := by
  have hmap : (creationNumbers host accesses).map handleOfNumber =
      ((creationNumbers host accesses).map (· % 2 ^ 31)).map (0x80000000 + ·) := by
    rw [List.map_map]
    rfl
  rw [returnedHandles_eq, List.forall_mem_map, hmap,
    List.nodup_map_iff fun a b h => Nat.add_left_cancel h]
  refine and_congr_right fun _ => forall₂_congr fun n _ => ?_
  simp only [handleOfNumber, transientFirst, transientLast]
  omega

def cmdCreatePrimaryUnknown : List UInt8 :=
  [0x80, 0x01, 0x00, 0x00, 0x00, 0x12, 0x00, 0x00, 0x01, 0x31, 0x40, 0x00, 0x00, 0x07,
   0x00, 0x00, 0x00, 0x00]

/-- 31 failed requests use up the range, and the next one that succeeds leaves it. -/
theorem returnedHandles_leave :
    returnedHandles referenceHost
        ((List.replicate 31 cmdCreatePrimaryUnknown ++ [cmdCreatePrimary]).flatMap
          (send zeroSurroundings)) = [0x80000020] ∧
      transientLast < 0x80000020 := by
  decide +kernel

/-- The sizes of `TPM2B_AUTH.buffer` and `TPM2B_SENSITIVE_DATA.buffer`. -/
def authCapacity : Nat := 64

def sensitiveDataCapacity : Nat := 128

/-- The two copies into `TPM2B_SENSITIVE_CREATE` stay inside their destinations. -/
def CopiesFit (inSensitive : SensitiveCreate) : Prop :=
  inSensitive.userAuth.size ≤ authCapacity ∧ inSensitive.data.size ≤ sensitiveDataCapacity

/-- The copies of an accepted body fit exactly when the data it carries fits, or, if it
carries no sensitive area, when what the uninitialised parameters hold fits. -/
theorem copiesFit_iff {initial params : CreatePrimaryParams} {body : Nat → UInt8}
    {size bytesRead : Nat}
    (h : unmarshalCreatePrimary initial body size = .ok (params, bytesRead)) :
    CopiesFit (inSensitiveOf params) ↔
      (0 < get16 body 4 ∧ get16 body (dataSizeOffset body) ≤ sensitiveDataCapacity) ∨
      (get16 body 4 = 0 ∧ initial.userAuthSize ≤ authCapacity ∧
        initial.dataSize ≤ sensitiveDataCapacity) := by
  change params.userAuthSize ≤ authCapacity ∧ params.dataSize ≤ sensitiveDataCapacity ↔ _
  obtain ⟨-, ⟨hpos, hauthSize, hauth, hdata, -⟩ | ⟨hzero, hauth, hdata⟩⟩ :=
    unmarshalCreatePrimary_sizes h
  · rw [hauthSize, hdata]
    constructor
    · rintro ⟨-, hfits⟩
      exact .inl ⟨hpos, hfits⟩
    · rintro (⟨-, hfits⟩ | ⟨hzero, -⟩)
      · exact ⟨hauth, hfits⟩
      · omega
  · rw [hauth, hdata]
    constructor
    · exact fun hfits => .inr ⟨hzero, hfits⟩
    · rintro (⟨hpos, -⟩ | ⟨-, hfits⟩)
      · omega
      · exact hfits

theorem copiesFit_iff_firmware :
    ∃ params bytesRead, unmarshalCreatePrimary zeroSurroundings.createPrimaryParams
        ((cmdCreatePrimary.drop 10).getD · 0) 58 = .ok (params, bytesRead) ∧
      CopiesFit (inSensitiveOf params) := by
  have hok : (unmarshalCreatePrimary zeroSurroundings.createPrimaryParams
      ((cmdCreatePrimary.drop 10).getD · 0) 58).toBool := by
    decide +kernel
  cases h : unmarshalCreatePrimary zeroSurroundings.createPrimaryParams
      ((cmdCreatePrimary.drop 10).getD · 0) 58 with
  | error rc =>
      rw [h] at hok
      cases hok
  | ok result =>
      obtain ⟨params, bytesRead⟩ := result
      exact ⟨params, bytesRead, rfl, (copiesFit_iff h).mpr (.inl (by decide +kernel))⟩

def bodyLargeData : List UInt8 :=
  [0x40, 0x00, 0x00, 0x01, 0x00, 0xCC, 0x00, 0x00, 0x00, 0xC8] ++ List.replicate 200 0xFF ++
    [0x00, 0x00]

theorem copiesFit_fails :
    ∃ params bytesRead, unmarshalCreatePrimary zeroSurroundings.createPrimaryParams
        (bodyLargeData.getD · 0) 212 = .ok (params, bytesRead) ∧
      (inSensitiveOf params).data.size = 200 ∧ ¬ CopiesFit (inSensitiveOf params) := by
  have hok : (unmarshalCreatePrimary zeroSurroundings.createPrimaryParams
      (bodyLargeData.getD · 0) 212).toBool := by
    decide +kernel
  have hdata : get16 (bodyLargeData.getD · 0) (dataSizeOffset (bodyLargeData.getD · 0)) = 200 := by
    decide +kernel
  cases h : unmarshalCreatePrimary zeroSurroundings.createPrimaryParams
      (bodyLargeData.getD · 0) 212 with
  | error rc =>
      rw [h] at hok
      cases hok
  | ok result =>
      obtain ⟨params, bytesRead⟩ := result
      obtain ⟨-, ⟨-, -, -, hsize, -⟩ | ⟨hzero, -⟩⟩ := unmarshalCreatePrimary_sizes h
      · have hlarge : (inSensitiveOf params).data.size = 200 := hsize.trans hdata
        refine ⟨params, bytesRead, rfl, hlarge, fun hfits => ?_⟩
        rw [CopiesFit, hlarge] at hfits
        exact absurd hfits.2 (by decide)
      · exact absurd hzero (by decide +kernel)

end TpmEmulator
