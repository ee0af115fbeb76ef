import TpmEmulator.FailedCommands

/-!
Where the attributes of an NV entry come from. The checks of NV_DefineSpace make
the attributes consistent with the type and the size of the index, and afterwards
only the written flag changes, in both of its copies. The index value itself is
checked against zero alone, so the ranges of `tpm2_handles.h` are up to the guest.
-/
namespace TpmEmulator

open CellMemory BigEndian

/-- What the checks of `tpm2_nv_define_space` establish about attributes and size. -/
structure AttributesConsistent (a : TpmaNv) (dataSize : Nat) : Prop where
  read : a.ppRead ∨ a.ownerRead ∨ a.authRead ∨ a.policyRead
  write : a.ppWrite ∨ a.ownerWrite ∨ a.authWrite ∨ a.policyWrite
  policyDelete : a.policyDelete → a.platformCreate
  counter : a.nvType = tpmNtCounter → ¬ a.clearStClear ∧ dataSize = 8
  bits : a.nvType = tpmNtBits → dataSize = 8
  pinFail : a.nvType = tpmNtPinFail →
    dataSize = 8 ∧ a.noDa ∧ ¬ a.authWrite ∧ (a.ppWrite ∨ a.ownerWrite ∨ a.policyWrite)
  pinPass : a.nvType = tpmNtPinPass →
    dataSize = 8 ∧ ¬ a.authWrite ∧ (a.ppWrite ∨ a.ownerWrite ∨ a.policyWrite)
  ordinary : a.nvType = tpmNtOrdinary → a.writeAll → dataSize ≤ 1024
  unlocked : ¬ a.writeLocked ∧ ¬ a.readLocked

theorem nvTypeRules_counter {a : TpmaNv} {dataSize : Nat}
    (h : nvTypeRules a dataSize = tpmRcSuccess) (htype : a.nvType = tpmNtCounter) :
    ¬ a.clearStClear ∧ dataSize = 8 := by
  rw [nvTypeRules, if_pos htype] at h
  obtain ⟨hclear, h⟩ := ite_success (by decide) h
  obtain ⟨hsize, -⟩ := ite_success (by decide) h
  exact ⟨hclear, not_not.mp hsize⟩

theorem nvTypeRules_bits {a : TpmaNv} {dataSize : Nat}
    (h : nvTypeRules a dataSize = tpmRcSuccess) (htype : a.nvType = tpmNtBits) :
    dataSize = 8 := by
  rw [nvTypeRules, if_neg (by rw [htype]; decide), if_pos htype] at h
  obtain ⟨hsize, -⟩ := ite_success (by decide) h
  exact not_not.mp hsize

theorem nvTypeRules_pinFail {a : TpmaNv} {dataSize : Nat}
    (h : nvTypeRules a dataSize = tpmRcSuccess) (htype : a.nvType = tpmNtPinFail) :
    dataSize = 8 ∧ a.noDa ∧ ¬ a.authWrite ∧ (a.ppWrite ∨ a.ownerWrite ∨ a.policyWrite) := by
  rw [nvTypeRules, if_neg (by rw [htype]; decide), if_neg (by rw [htype]; decide),
    if_pos htype] at h
  obtain ⟨hnoDa, h⟩ := ite_success (by decide) h
  obtain ⟨hsize, h⟩ := ite_success (by decide) h
  obtain ⟨hauth, h⟩ := ite_success (by decide) h
  obtain ⟨hwrite, -⟩ := ite_success (by decide) h
  refine ⟨not_not.mp hsize, by simpa using hnoDa, hauth, ?_⟩
  rw [Bool.not_eq_true', Bool.not_eq_false] at hwrite
  simpa only [Bool.or_eq_true, or_assoc] using hwrite

theorem nvTypeRules_pinPass {a : TpmaNv} {dataSize : Nat}
    (h : nvTypeRules a dataSize = tpmRcSuccess) (htype : a.nvType = tpmNtPinPass) :
    dataSize = 8 ∧ ¬ a.authWrite ∧ (a.ppWrite ∨ a.ownerWrite ∨ a.policyWrite) := by
  rw [nvTypeRules, if_neg (by rw [htype]; decide), if_neg (by rw [htype]; decide),
    if_neg (by rw [htype]; decide), if_pos htype] at h
  obtain ⟨hsize, h⟩ := ite_success (by decide) h
  obtain ⟨hauth, h⟩ := ite_success (by decide) h
  obtain ⟨hwrite, -⟩ := ite_success (by decide) h
  refine ⟨not_not.mp hsize, hauth, ?_⟩
  rw [Bool.not_eq_true', Bool.not_eq_false] at hwrite
  simpa only [Bool.or_eq_true, or_assoc] using hwrite

/-- What passing the checks says about the public area. -/
theorem nvDefineSpaceChecks_attributes {s : Tpm2State} {authHandle : Provision} {nv : NvPublic}
    (h : nvDefineSpaceChecks s authHandle nv = tpmRcSuccess) :
    AttributesConsistent nv.attributes nv.dataSize ∧ nv.attributes.written = false ∧
      (nv.attributes.platformCreate ↔ authHandle.platform = tpmRhPlatform) := by
  unfold nvDefineSpaceChecks at h
  obtain ⟨-, h⟩ := ite_success (by decide) h
  obtain ⟨-, h⟩ := ite_success (by decide) h
  obtain ⟨-, h⟩ := ite_success (by decide) h
  obtain ⟨hclear, h⟩ := ite_success (by decide) h
  obtain ⟨-, h⟩ := ite_success (by decide) h
  obtain ⟨hread, h⟩ := ite_success (by decide) h
  obtain ⟨hwrite, h⟩ := ite_success (by decide) h
  obtain ⟨hcreate, h⟩ := ite_success (by decide) h
  obtain ⟨hnoCreate, h⟩ := ite_success (by decide) h
  obtain ⟨hdelete, h⟩ := ite_success (by decide) h
  have hrules : nvTypeRules nv.attributes nv.dataSize = tpmRcSuccess := by
    by_contra hne
    rw [if_pos hne] at h
    exact hne h
  rw [if_neg (not_not.mpr hrules)] at h
  obtain ⟨-, h⟩ := ite_success (by decide) h
  obtain ⟨hall, -⟩ := ite_success (by decide) h
  simp only [Bool.or_eq_true, not_or, Bool.not_eq_true] at hclear
  simp only [Bool.not_eq_true', Bool.not_eq_false, anyReadBit, anyWriteBit, Bool.or_eq_true,
    or_assoc] at hread hwrite
  simp only [Bool.and_eq_true, Bool.not_eq_true', decide_eq_true_eq, decide_eq_false_iff_not,
    not_and, Bool.not_eq_false, not_not] at hcreate hnoCreate hdelete
  refine ⟨⟨hread, hwrite, fun hd => hcreate (hdelete hd), nvTypeRules_counter hrules,
    nvTypeRules_bits hrules, nvTypeRules_pinFail hrules, nvTypeRules_pinPass hrules, ?_, ?_⟩,
    hclear.1.1, fun hc => ?_, hcreate⟩
  · intro htype hwriteAll
    by_contra hsize
    exact hall ⟨htype, hwriteAll, Nat.lt_of_not_le hsize⟩
  · exact ⟨by rw [hclear.2]; decide, by rw [hclear.1.2]; decide⟩
  · by_contra hplatform
    exact absurd hc (hnoCreate hplatform)

/-- The only handle that counts as platform authorization is the platform's. -/
theorem provisionOf_platform {authHandle : Nat} {provHandle : Provision}
    (h : provisionOf authHandle = some provHandle) :
    provHandle.platform = tpmRhPlatform ↔ authHandle = tpmRhPlatform := by
  unfold provisionOf at h
  split at h
  · rename_i hplatform
    cases h
    exact ⟨fun _ => hplatform, fun _ => rfl⟩
  split at h
  · rename_i howner
    cases h
    rw [howner]
    exact ⟨fun h => absurd h (by decide), fun h => absurd h (by decide)⟩
  · cases h

/-- The run defines the index, at realization or by a command, under this handle and
with these attributes. -/
def DefinedIn (host : Host) (accesses : List Access) (nvIndex authHandle : Nat)
    (attributes : TpmaNv) : Prop :=
  (nvIndex = testNvPublic.nvIndex ∧ authHandle = tpmRhOwner ∧
    attributes = testNvPublic.attributes) ∨
  ∃ before a after env params, accesses = before ++ a :: after ∧
    a.Executes (Runs.run (step host) (tpm2Realize host) before) env ∧
    Defines env (Runs.run (step host) (tpm2Realize host) before) params ∧
    params.nvIndex = nvIndex ∧ params.authHandle = authHandle ∧
    (nvPublicOf params).attributes = attributes

theorem DefinedIn.append {host : Host} {accesses : List Access} {nvIndex authHandle : Nat}
    {attributes : TpmaNv} (h : DefinedIn host accesses nvIndex authHandle attributes)
    (a : Access) : DefinedIn host (accesses ++ [a]) nvIndex authHandle attributes := by
  obtain h | ⟨before, b, after, env, params, rfl, h⟩ := h
  · exact .inl h
  · exact .inr ⟨before, b, after ++ [a], env, params, by simp, h⟩

/-- What holds of an entry at every point of a run. -/
structure EntryConsistent (host : Host) (accesses : List Access) (nvIndex : Nat) (e : NvEntry) :
    Prop where
  consistent : AttributesConsistent e.pub.attributes e.pub.dataSize
  mirrors : e.written = e.pub.attributes.written
  origin : ∃ authHandle attributes, DefinedIn host accesses nvIndex authHandle attributes ∧
    e.pub.attributes = { attributes with written := e.written } ∧
    (e.pub.attributes.platformCreate ↔ authHandle = tpmRhPlatform)

theorem EntryConsistent.append {host : Host} {accesses : List Access} {nvIndex : Nat}
    {e : NvEntry} (h : EntryConsistent host accesses nvIndex e) (a : Access) :
    EntryConsistent host (accesses ++ [a]) nvIndex e := by
  obtain ⟨authHandle, attributes, hdefined, hrest⟩ := h.origin
  exact ⟨h.consistent, h.mirrors, authHandle, attributes, hdefined.append a, hrest⟩

theorem AttributesConsistent.markWritten {e : NvEntry}
    (h : AttributesConsistent e.pub.attributes e.pub.dataSize) :
    AttributesConsistent e.markWritten.pub.attributes e.markWritten.pub.dataSize :=
  ⟨h.read, h.write, h.policyDelete, h.counter, h.bits, h.pinFail, h.pinPass, h.ordinary,
    h.unlocked⟩

/-- Setting both copies of the written flag keeps everything else. -/
theorem EntryConsistent.markWritten {host : Host} {accesses : List Access} {nvIndex : Nat}
    {e : NvEntry} (h : EntryConsistent host accesses nvIndex e) :
    EntryConsistent host accesses nvIndex e.markWritten := by
  obtain ⟨authHandle, attributes, hdefined, heq, hplatform⟩ := h.origin
  refine ⟨h.consistent.markWritten, rfl, authHandle, attributes, hdefined, ?_, hplatform⟩
  change { e.pub.attributes with written := true } = { attributes with written := true }
  rw [heq]

theorem entryConsistent_new {host : Host} {accesses : List Access} {authHandle : Nat}
    {provHandle : Provision} {s : Tpm2State} (nv : NvPublic) (base : Nat)
    (hdefined : DefinedIn host accesses nv.nvIndex authHandle nv.attributes)
    (hplatform : provHandle.platform = tpmRhPlatform ↔ authHandle = tpmRhPlatform)
    (hchecks : nvDefineSpaceChecks s provHandle nv = tpmRcSuccess) :
    EntryConsistent host accesses nv.nvIndex
      (newEntry base nv.nvIndex nv.dataSize nv.nameAlg nv.attributes) := by
  obtain ⟨hconsistent, hwritten, hcreate⟩ := nvDefineSpaceChecks_attributes hchecks
  refine ⟨hconsistent, hwritten.symm, authHandle, nv.attributes, hdefined, ?_,
    hcreate.trans hplatform⟩
  change nv.attributes = { nv.attributes with written := false }
  rw [← hwritten]

/-- The state after one more access, seen from the NV table. -/
theorem nvMap_effect {host : Host} {s : Tpm2State} {a : Access} {t : Persistent}
    (heffect : Effect host s a t) :
    t.nvMap = s.nvMap ∨
    (∃ env params, a.Executes s env ∧ Defines env s params ∧
      t.nvMap = s.nvMap.insert params.nvIndex
        (newEntry s.nvAllocOffset params.nvIndex params.dataSize params.nameAlg
          (nvPublicOf params).attributes)) ∨
    (∃ env params e, a.Executes s env ∧ Writes env s params e ∧
      t.nvMap = s.nvMap.insert params.nvIndex e.markWritten) := by
  cases heffect with
  | define env params hexec hdefines => exact .inr (.inl ⟨env, params, hexec, hdefines, rfl⟩)
  | write env params e hexec hwrites => exact .inr (.inr ⟨env, params, e, hexec, hwrites, rfl⟩)
  | none | advance | wipe | create => exact .inl rfl

/-- The rule for an invariant of the entries: it holds of the entry made at realization
and of every entry a definition makes, and setting the written flag keeps it. -/
theorem entry_reachable {host : Host} {P : Nat → NvEntry → Prop}
    (realized : P testNvPublic.nvIndex (newEntry 0 testNvPublic.nvIndex testNvPublic.dataSize
      testNvPublic.nameAlg testNvPublic.attributes))
    (defined : ∀ env s params, Defines env s params → P params.nvIndex
      (newEntry s.nvAllocOffset params.nvIndex params.dataSize params.nameAlg
        (nvPublicOf params).attributes))
    (marked : ∀ i e, P i e → P i e.markWritten) {s : Tpm2State} (h : Reachable host s) :
    ∀ {i e}, s.nvMap.lookup i = some e → P i e := by
  refine persistent_invariant (P := fun p => ∀ {i e}, p.nvMap.lookup i = some e → P i e) ?_ ?_ h
  · intro i e hlookup
    rw [tpm2Realize_eq] at hlookup
    obtain ⟨rfl, rfl⟩ | ⟨-, hempty⟩ := BumpLayout.lookup_insert_eq_some hlookup
    · exact realized
    · cases hempty
  · intro s a p _ ih heffect i e hlookup
    obtain hmap | ⟨env, params, -, hdefines, hmap⟩ | ⟨env, params, e', -, hwrites, hmap⟩ :=
      nvMap_effect heffect
    · rw [hmap] at hlookup
      exact ih hlookup
    · rw [hmap] at hlookup
      exact BumpLayout.of_lookup_insert hlookup ih (defined env s params hdefines)
    · rw [hmap] at hlookup
      exact BumpLayout.of_lookup_insert hlookup ih (marked _ _ (ih hwrites.entry))

theorem entryConsistent_realize (host : Host) {nvIndex : Nat} {e : NvEntry}
    (h : (tpm2Realize host).nvMap.lookup nvIndex = some e) :
    EntryConsistent host [] nvIndex e := by
  rw [tpm2Realize_eq] at h
  obtain ⟨rfl, rfl⟩ | ⟨-, hempty⟩ := BumpLayout.lookup_insert_eq_some h
  · exact entryConsistent_new testNvPublic 0 (.inl ⟨rfl, rfl, rfl⟩) (by decide)
       nvDefineSpaceChecks_testNvPublic
  · cases hempty

theorem entryConsistent_run (host : Host) (accesses : List Access) {nvIndex : Nat} {e : NvEntry}
    (h : (Runs.run (step host) (tpm2Realize host) accesses).nvMap.lookup nvIndex = some e) :
    EntryConsistent host accesses nvIndex e := by
  induction accesses using List.reverseRecOn generalizing nvIndex e with
  | nil => exact entryConsistent_realize host h
  | append_singleton accesses a ih =>
      have hinv := bankInvariant_reachable ((reachable_realize host).run accesses)
      rw [Runs.run_append] at h
      change (step host _ a).persistent.nvMap.lookup nvIndex = some e at h
      obtain hmap | ⟨env, params, hexec, hdefines, hmap⟩ | ⟨env, params, e', -, hwrites, hmap⟩ :=
        nvMap_effect (hinv.effect host a)
      · rw [hmap] at h
        exact (ih h).append a
      · rw [hmap] at h
        obtain ⟨provHandle, hprov, hchecks⟩ := hdefines.checks
        exact BumpLayout.of_lookup_insert h (fun hold => (ih hold).append a)
          (entryConsistent_new (nvPublicOf params) _
            (.inr ⟨accesses, a, [], env, params, rfl, hexec, hdefines, rfl, rfl, rfl⟩)
            (provisionOf_platform hprov) hchecks)
      · rw [hmap] at h
        exact BumpLayout.of_lookup_insert h (fun hold => (ih hold).append a)
          ((ih hwrites.entry).markWritten.append a)

/-- Every entry of every reachable NV store is consistent, and its attributes are
those of its definition but for the written flag. -/
theorem nvStore_attributes (host : Host) (accesses : List Access) {nvIndex : Nat} {e : NvEntry}
    (h : (Runs.run (step host) (tpm2Realize host) accesses).nvMap.lookup nvIndex = some e) :
    AttributesConsistent e.pub.attributes e.pub.dataSize ∧
      (e.written ↔ e.pub.attributes.written) ∧
      ∃ authHandle attributes, DefinedIn host accesses nvIndex authHandle attributes ∧
        e.pub.attributes = { attributes with written := e.written } ∧
        (e.pub.attributes.platformCreate ↔ authHandle = tpmRhPlatform) := by
  have hentry := entryConsistent_run host accesses h
  exact ⟨hentry.consistent, by rw [hentry.mirrors], hentry.origin⟩

/-- The firmware's index after its definition and its write. -/
theorem nvStore_attributes_written :
    let accesses := [cmdNvDefineSpace, cmdNvWrite].flatMap (send zeroSurroundings)
    ∃ e, (Runs.run (step referenceHost) (tpm2Realize referenceHost) accesses).nvMap.lookup
        0x01000001 = some e ∧
      AttributesConsistent e.pub.attributes e.pub.dataSize ∧ e.pub.attributes.written ∧
      ∃ authHandle attributes,
        DefinedIn referenceHost accesses 0x01000001 authHandle attributes ∧
        e.pub.attributes = { attributes with written := true } := by
  intro accesses
  have hany : ((Runs.run (step referenceHost) (tpm2Realize referenceHost) accesses).nvMap.lookup
      0x01000001).any (·.written) := by decide +kernel
  obtain ⟨e, he, hwritten⟩ := (Option.any_eq_true _ _).mp hany
  obtain ⟨hconsistent, hflag, authHandle, attributes, hdefined, hattributes, -⟩ :=
    nvStore_attributes referenceHost accesses he
  rw [hwritten] at hattributes
  exact ⟨e, he, hconsistent, hflag.mp hwritten, authHandle, attributes, hdefined, hattributes⟩

/-- The three ranges that `tpm2_handles.h` sets aside for NV indices. -/
def InNvRange (i : Nat) : Prop :=
  (nvIndexFirst ≤ i ∧ i ≤ nvIndexLast) ∨ (externalNvFirst ≤ i ∧ i ≤ externalNvLast) ∨
    (permanentNvFirst ≤ i ∧ i ≤ permanentNvLast)

/-- The object handle that CreatePrimary forms from the counter. -/
def objectHandleOf (counter : Nat) : Nat := 0x80000000 ||| counter

/-- Every index is an NV handle, and so neither a permanent handle nor one that
CreatePrimary can return. -/
def NvHandleSpace (s : Tpm2State) : Prop :=
  ∀ i ∈ s.nvMap, InNvRange i ∧ ¬ (permanentFirst ≤ i ∧ i ≤ permanentLast) ∧
    ∀ counter, i ≠ objectHandleOf counter

theorem InNvRange.separate {i : Nat} (h : InNvRange i) :
    ¬ (permanentFirst ≤ i ∧ i ≤ permanentLast) ∧ ∀ counter, i ≠ objectHandleOf counter := by
  simp only [InNvRange, nvIndexFirst, nvIndexLast, externalNvFirst, externalNvLast,
    permanentNvFirst, permanentNvLast] at h
  constructor
  · simp only [permanentFirst, permanentLast]
    omega
  · intro counter heq
    have hle : 0x80000000 ≤ 0x80000000 ||| counter := Nat.left_le_or
    rw [← objectHandleOf, ← heq] at hle
    omega

/-- Every definition that the access makes is of an NV handle. -/
def DefinesInRange (s : Tpm2State) (a : Access) : Prop :=
  ∀ env params, a.Executes s env → Defines env s params → InNvRange params.nvIndex

theorem mem_nvMap_iff {s : Tpm2State} {i : Nat} :
    i ∈ s.nvMap ↔ ∃ e, s.nvMap.lookup i = some e := by
  rw [← Finmap.lookup_isSome, Option.isSome_iff_exists]

theorem nvHandleSpace_realize (host : Host) : NvHandleSpace (tpm2Realize host) := by
  intro i hmem
  obtain ⟨e, hlookup⟩ := mem_nvMap_iff.mp hmem
  rw [tpm2Realize_eq] at hlookup
  obtain ⟨rfl, rfl⟩ | ⟨-, hempty⟩ := BumpLayout.lookup_insert_eq_some hlookup
  · have hrange : InNvRange testNvPublic.nvIndex := .inl (by decide)
    exact ⟨hrange, hrange.separate⟩
  · cases hempty

theorem nvHandleSpace_step (host : Host) {s : Tpm2State} (hinv : BankInvariant s.persistent)
    (hspace : NvHandleSpace s) {a : Access} (ha : DefinesInRange s a) :
    NvHandleSpace (step host s a) := by
  intro i hmem
  obtain ⟨e, hlookup⟩ := mem_nvMap_iff.mp hmem
  change (step host s a).persistent.nvMap.lookup i = some e at hlookup
  obtain hmap | ⟨env, params, hexec, hdefines, hmap⟩ | ⟨env, params, e', -, hwrites, hmap⟩ :=
    nvMap_effect (hinv.effect host a)
  · rw [hmap] at hlookup
    exact hspace i (mem_nvMap_iff.mpr ⟨e, hlookup⟩)
  · rw [hmap] at hlookup
    obtain ⟨rfl, -⟩ | ⟨-, hold⟩ := BumpLayout.lookup_insert_eq_some hlookup
    · have hrange := ha env params hexec hdefines
      exact ⟨hrange, hrange.separate⟩
    · exact hspace i (mem_nvMap_iff.mpr ⟨e, hold⟩)
  · rw [hmap] at hlookup
    obtain ⟨rfl, -⟩ | ⟨-, hold⟩ := BumpLayout.lookup_insert_eq_some hlookup
    · exact hspace _ (mem_nvMap_iff.mpr ⟨e', hwrites.entry⟩)
    · exact hspace i (mem_nvMap_iff.mpr ⟨e, hold⟩)

/-- A definition enters its index in the table. -/
theorem mem_nvMap_defined (host : Host) {s : Tpm2State} {a : Access} {env : Surroundings}
    {params : NvDefineSpaceParams} (hexec : a.Executes s env) (hdefines : Defines env s params) :
    params.nvIndex ∈ (step host s a).nvMap := by
  refine mem_nvMap_iff.mpr ⟨newEntry s.nvAllocOffset params.nvIndex params.dataSize
    params.nameAlg (nvPublicOf params).attributes, ?_⟩
  have hmap := (SameNv.of_persistent (persistent_respond (executeReply host env s))).map
  rw [step_executes host hexec, hmap, hdefines.reply host]
  exact Finmap.lookup_insert _

/-- What one access does to the two invariants. -/
theorem nvHandleSpace_step_iff (host : Host) {s : Tpm2State} (hinv : BankInvariant s.persistent)
    (hspace : NvHandleSpace s) (a : Access) :
    BankInvariant (step host s a).persistent ∧ NvHandleSpace (step host s a) ↔
      DefinesInRange s a := by
  constructor
  · intro hnext env params hexec hdefines
    exact (hnext.2 _ (mem_nvMap_defined host hexec hdefines)).1
  · intro ha
    exact ⟨bankInvariant_effect hinv (hinv.effect host a), nvHandleSpace_step host hinv hspace ha⟩

/-- The indices stay in the NV handle space throughout a run exactly when every
definition along it is of an NV handle. -/
theorem nvHandleSpace_iff (host : Host) (accesses : List Access) :
    (∀ before after, accesses = before ++ after →
      NvHandleSpace (Runs.run (step host) (tpm2Realize host) before)) ↔
    Runs.Along (step host) DefinesInRange (tpm2Realize host) accesses := by
  -- The step lemma needs the bank's invariant, which every reachable state has.
  have hbank (before : List Access) :
      BankInvariant (Runs.run (step host) (tpm2Realize host) before).persistent :=
    bankInvariant_reachable ((reachable_realize host).run before)
  have hwhole := Runs.forall_run_iff_along
    (P := fun s => BankInvariant s.persistent ∧ NvHandleSpace s)
    (fun s a hs (_ : True) => nvHandleSpace_step_iff host hs.1 hs.2 a) (tpm2Realize host) accesses
    ⟨bankInvariant_realize host, nvHandleSpace_realize host⟩
    (Runs.along_of_forall fun _ _ _ => trivial)
  rw [← hwhole]
  constructor
  · intro hspace before after heq
    exact ⟨hbank before, hspace before after heq⟩
  · intro hboth before after heq
    exact (hboth before after heq).2

/-- The firmware's definition with the handle of the owner hierarchy as its index. -/
def cmdNvDefineSpaceOwner : List UInt8 := cmdNvDefineSpace.set 18 0x40

theorem nvHandleSpace_fails :
    (responseHeader (afterCommands [cmdNvDefineSpaceOwner])).code = tpmRcSuccess ∧
      tpmRhOwner ∈ (afterCommands [cmdNvDefineSpaceOwner]).nvMap ∧ ¬ InNvRange tpmRhOwner ∧
      ¬ NvHandleSpace (afterCommands [cmdNvDefineSpaceOwner]) := by
  have hsome : ((afterCommands [cmdNvDefineSpaceOwner]).nvMap.lookup tpmRhOwner).isSome := by
    decide +kernel
  have hmem : tpmRhOwner ∈ (afterCommands [cmdNvDefineSpaceOwner]).nvMap :=
    mem_nvMap_iff.mpr (Option.isSome_iff_exists.mp hsome)
  have hout : ¬ InNvRange tpmRhOwner := by
    rw [InNvRange]
    decide
  exact ⟨by decide +kernel, hmem, hout, fun hspace => hout (hspace _ hmem).1⟩

end TpmEmulator
