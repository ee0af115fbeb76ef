import TpmEmulator.NvOperations
import TpmEmulator.ReferenceHost
import TpmEmulator.Library.Admission

/-!
How many indices the store holds. Of a request that an empty store accepts only three
checks can still fail: the index is taken, all slots are taken, or the bank is full.
The store therefore keeps a ledger of its successful definitions, with the index as key
and the initialization vector and the data as cost.
-/
namespace TpmEmulator

open CellMemory Admission

/-- The arguments of a call of `tpm2_nv_define_space`. -/
structure DefineRequest where
  authHandle : Provision
  auth : Tpm2b
  nv : NvPublic

def defineSpace (s : Tpm2State) (r : DefineRequest) : Nat × Tpm2State :=
  tpm2NvDefineSpace s r.authHandle r.auth r.nv

def nvLimits : Limits DefineRequest Nat where
  key r := r.nv.nvIndex
  cost r := 16 + r.nv.dataSize
  slots := tpm2MaxNvIndexes
  budget := tpm2NvStorageSize

/-- An empty store accepts the request. -/
def AcceptedEmpty (s : Tpm2State) (r : DefineRequest) : Prop :=
  (defineSpace (tpm2NvInit s) r).1 = tpmRcSuccess

section Checks

variable {s init : Tpm2State} {r : DefineRequest}

theorem nvDefineSpaceChecks_of_empty (hbank : s.nvBankSize = tpm2NvStorageSize)
    (h : nvDefineSpaceChecks (tpm2NvInit init) r.authHandle r.nv = tpmRcSuccess) :
    nvDefineSpaceChecks s r.authHandle r.nv =
      if r.nv.nvIndex ∈ s.nvMap then tpmRcNvDefined
      else if tpm2MaxNvIndexes ≤ s.nvCount then tpmRcNvSpace
      else tpmRcSuccess := by
  unfold nvDefineSpaceChecks at h ⊢
  obtain ⟨hrequest, h⟩ := ite_success (by decide) h
  obtain ⟨-, h⟩ := ite_success (by decide) h
  obtain ⟨-, h⟩ := ite_success (by decide) h
  dsimp only
  rw [if_neg hrequest, hbank]
  exact if_congr Iff.rfl rfl (if_congr Iff.rfl rfl h)

theorem defineSpace_of_empty (hbank : s.nvBankSize = tpm2NvStorageSize) (h : AcceptedEmpty init r) :
    defineSpace s r =
      if r.nv.nvIndex ∈ s.nvMap then (tpmRcNvDefined, s)
      else if tpm2MaxNvIndexes ≤ s.nvCount then (tpmRcNvSpace, s)
      else if s.nvAllocOffset + (16 + r.nv.dataSize) ≤ s.nvBankSize then
        (tpmRcSuccess, nvDefined s r.nv)
      else (tpmRcMemory, s) := by
  have hempty : nvDefineSpaceChecks (tpm2NvInit init) r.authHandle r.nv = tpmRcSuccess := by
    obtain ⟨rc, hrc, heq⟩ | ⟨hchecks, -⟩ :=
      tpm2NvDefineSpace_cases (tpm2NvInit init) r.authHandle r.auth r.nv
    · exact absurd ((congrArg Prod.fst heq).symm.trans h) hrc.1
    · exact hchecks
  have hchecks := nvDefineSpaceChecks_of_empty hbank hempty
  by_cases htaken : r.nv.nvIndex ∈ s.nvMap
  · rw [if_pos htaken] at hchecks ⊢
    rw [defineSpace, tpm2NvDefineSpace_rejected r.auth (by rw [hchecks]; decide), hchecks]
  rw [if_neg htaken] at hchecks ⊢
  by_cases hfull : tpm2MaxNvIndexes ≤ s.nvCount
  · rw [if_pos hfull] at hchecks ⊢
    rw [defineSpace, tpm2NvDefineSpace_rejected r.auth (by rw [hchecks]; decide), hchecks]
  rw [if_neg hfull] at hchecks ⊢
  by_cases hroom : s.nvAllocOffset + (16 + r.nv.dataSize) ≤ s.nvBankSize
  · rw [if_pos hroom]
    exact tpm2NvDefineSpace_success r.auth hchecks hroom
  · rw [if_neg hroom]
    exact tpm2NvDefineSpace_full r.auth hchecks hroom

end Checks

/-- The ledger of a store: its indices, their number, and the cursor of the allocator. -/
structure LedgerOf (s : Tpm2State) (ledger : List DefineRequest) : Prop where
  bankSize : s.nvBankSize = tpm2NvStorageSize
  indices : ∀ i, i ∈ s.nvMap ↔ i ∈ ledger.map nvLimits.key
  count : s.nvCount = ledger.length
  cursor : s.nvAllocOffset = spent nvLimits ledger

theorem ledgerOf_init (s : Tpm2State) : LedgerOf (tpm2NvInit s) [] where
  bankSize := rfl
  indices _ := iff_of_false Finmap.notMem_empty List.not_mem_nil
  count := rfl
  cursor := rfl

/-- The new entry takes its place in the ledger; neither counter wraps. -/
theorem LedgerOf.nvDefined {s : Tpm2State} {ledger : List DefineRequest} {r : DefineRequest}
    (h : LedgerOf s ledger) (hr : Admissible nvLimits ledger r) :
    LedgerOf (nvDefined s r.nv) (ledger ++ [r]) := by
  have hslot : ledger.length < 16 := hr.slot
  have hroom : 16 + r.nv.dataSize + spent nvLimits ledger ≤ 6962 := hr.room
  have hcost : nvLimits.cost r = 16 + r.nv.dataSize := rfl
  refine ⟨h.bankSize, fun i => ?_, ?_, ?_⟩
  · change i ∈ s.nvMap.insert r.nv.nvIndex _ ↔ _
    rw [Finmap.mem_insert, List.map_append, List.mem_append, h.indices, or_comm]
    exact or_congr_right List.mem_singleton.symm
  · change (s.nvCount + 1) % 2 ^ 32 = _
    rw [h.count, List.length_append, List.length_singleton, Nat.mod_eq_of_lt (by omega)]
  · change (s.nvAllocOffset + (16 + r.nv.dataSize)) % 2 ^ 32 = _
    rw [h.cursor, spent_append_singleton, hcost, Nat.mod_eq_of_lt (by omega)]

theorem LedgerOf.defineSpace {s init : Tpm2State} {ledger : List DefineRequest} {r : DefineRequest}
    (h : LedgerOf s ledger) (hr : AcceptedEmpty init r) :
    (Admissible nvLimits ledger r ∧
        defineSpace s r = (tpmRcSuccess, TpmEmulator.nvDefined s r.nv)) ∨
      (¬ Admissible nvLimits ledger r ∧ ∃ rc, rc ≠ tpmRcSuccess ∧ defineSpace s r = (rc, s)) := by
  have hdefine := defineSpace_of_empty h.bankSize hr
  by_cases htaken : r.nv.nvIndex ∈ s.nvMap
  · rw [if_pos htaken] at hdefine
    exact .inr ⟨fun hadm => hadm.fresh ((h.indices _).mp htaken), _, by decide, hdefine⟩
  rw [if_neg htaken] at hdefine
  by_cases hfull : tpm2MaxNvIndexes ≤ s.nvCount
  · rw [if_pos hfull] at hdefine
    rw [h.count] at hfull
    exact .inr ⟨fun hadm => Nat.not_lt.mpr hfull hadm.slot, _, by decide, hdefine⟩
  rw [if_neg hfull] at hdefine
  rw [h.count] at hfull
  by_cases hroom : s.nvAllocOffset + (16 + r.nv.dataSize) ≤ s.nvBankSize
  · rw [if_pos hroom] at hdefine
    rw [h.cursor, h.bankSize, Nat.add_comm] at hroom
    exact .inl ⟨⟨fun hmem => htaken ((h.indices _).mpr hmem), Nat.lt_of_not_le hfull, hroom⟩,
      hdefine⟩
  · rw [if_neg hroom] at hdefine
    rw [h.cursor, h.bankSize, Nat.add_comm] at hroom
    exact .inr ⟨fun hadm => hroom hadm.room, _, by decide, hdefine⟩

theorem keeps_defineSpace (init : Tpm2State) :
    Keeps (fun s r => (defineSpace s r).2) (fun s r => (defineSpace s r).1 = tpmRcSuccess) nvLimits
      (AcceptedEmpty init) LedgerOf where
  accepts_iff h hr := by
    obtain ⟨hadm, heq⟩ | ⟨hnot, rc, hrc, heq⟩ := h.defineSpace hr
    · rw [heq]
      exact iff_of_true rfl hadm
    · rw [heq]
      exact iff_of_false hrc hnot
  step_accepted h hr haccepts := by
    obtain ⟨hadm, heq⟩ | ⟨-, rc, hrc, heq⟩ := h.defineSpace hr
    · rw [heq]
      exact h.nvDefined hadm
    · rw [heq] at haccepts
      exact absurd haccepts hrc
  step_rejected h hr hrejects := by
    obtain ⟨-, heq⟩ | ⟨-, rc, -, heq⟩ := h.defineSpace hr
    · rw [heq] at hrejects
      exact absurd rfl hrejects
    · rw [heq]

/-- The state after a sequence of definitions, and the ones among them that succeeded. -/
def afterRequests (init : Tpm2State) (requests : List DefineRequest) : Tpm2State :=
  Runs.run (fun s r => (defineSpace s r).2) (tpm2NvInit init) requests

def successes (init : Tpm2State) (requests : List DefineRequest) : List DefineRequest :=
  accepted (fun s r => (defineSpace s r).2) (fun s r => (defineSpace s r).1 = tpmRcSuccess)
    (tpm2NvInit init) requests

/-- The capacity law of the store, for a request behind any sequence of requests that an
empty store would accept. -/
theorem nvCapacity (init : Tpm2State) (earlier : List DefineRequest) (r : DefineRequest)
    (h : ∀ q ∈ earlier ++ [r], AcceptedEmpty init q) :
    ((defineSpace (afterRequests init earlier) r).1 = tpmRcSuccess ↔
      (∀ q ∈ successes init earlier, q.nv.nvIndex ≠ r.nv.nvIndex) ∧
        (successes init earlier).length < 16 ∧
        16 + r.nv.dataSize + ((successes init earlier).map fun q => 16 + q.nv.dataSize).sum ≤
          6962) ∧
    afterRequests init (successes init earlier) = afterRequests init earlier ∧
    ((∃ q ∈ successes init earlier, q.nv.nvIndex = r.nv.nvIndex) →
      (defineSpace (afterRequests init earlier) r).1 = tpmRcNvDefined) := by
  have hearlier : ∀ q ∈ earlier, AcceptedEmpty init q := fun q hq =>
    h q (List.mem_append_left _ hq)
  have hr : AcceptedEmpty init r := h r (List.mem_append_right _ (List.mem_singleton_self r))
  have hkeeps := keeps_defineSpace init
  obtain ⟨hledger, hreplay⟩ := hkeeps.run (ledgerOf_init init) hearlier
  have hfresh : nvLimits.key r ∉ (successes init earlier).map nvLimits.key ↔
      ∀ q ∈ successes init earlier, q.nv.nvIndex ≠ r.nv.nvIndex := by
    rw [List.mem_map, not_exists]
    exact forall_congr' fun q => not_and
  refine ⟨(hkeeps.accepts_iff hledger hr).trans ⟨fun hadm => ?_, fun hlaw => ?_⟩, hreplay, ?_⟩
  · exact ⟨hfresh.mp hadm.fresh, hadm.slot, hadm.room⟩
  · exact ⟨hfresh.mpr hlaw.1, hlaw.2.1, hlaw.2.2⟩
  · rintro ⟨q, hq, hindex⟩
    have htaken : r.nv.nvIndex ∈ (afterRequests init earlier).nvMap :=
      (hledger.indices _).mpr (List.mem_map.mpr ⟨q, hq, hindex⟩)
    exact congrArg Prod.fst ((defineSpace_of_empty hledger.bankSize hr).trans (if_pos htaken))

def firmwareRequest : DefineRequest where
  authHandle := ⟨tpmRhOwner, tpmRhOwner, tpmRhOwner⟩
  auth := .zero
  nv :=
    { nvIndex := 0x01000001
      nameAlg := tpmAlgSha256
      attributes := TpmaNv.ofWords 0x024C0006 0
      authPolicy := zeroBytes
      authPolicySize := 0
      dataSize := 32 }

theorem nvCapacity_firmware :
    let init := tpm2Realize referenceHost
    AcceptedEmpty init firmwareRequest ∧ firmwareRequest ∈ successes init [firmwareRequest] ∧
      (defineSpace (afterRequests init [firmwareRequest]) firmwareRequest).1 = tpmRcNvDefined := by
  intro init
  have haccepted : AcceptedEmpty init firmwareRequest := by
    unfold AcceptedEmpty
    decide +kernel
  have hsuccess : successes init [firmwareRequest] = [firmwareRequest] :=
    congrArg (Option.toList · ++ []) (if_pos haccepted)
  have hmember : firmwareRequest ∈ successes init [firmwareRequest] := by
    rw [hsuccess]
    exact List.mem_singleton_self _
  have hrequests : ∀ q ∈ [firmwareRequest] ++ [firmwareRequest], AcceptedEmpty init q := by
    intro q hq
    obtain rfl : q = firmwareRequest := by simpa using hq
    exact haccepted
  exact ⟨haccepted, hmember, (nvCapacity init [firmwareRequest] firmwareRequest hrequests).2.2
    ⟨firmwareRequest, hmember, rfl⟩⟩

end TpmEmulator
