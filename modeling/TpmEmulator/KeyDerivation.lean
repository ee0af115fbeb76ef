import TpmEmulator.ReferenceHost
import TpmEmulator.Library.CounterMode

/-!
What `TPM2_KDFa` derives. `tracedKdfa` is the function together with what it does to
`out`: the passes of its loop, with the counter and the bytes copied in each, and the
positions of the masking step. As long as the rounding of the bit count does not
overflow, the result is the beginning of the stream of HMAC blocks, whatever the length
of a block. At the top of the range the rounding wraps to zero bytes and the masking
step goes to the last position of the address range.
-/
namespace TpmEmulator

open CellMemory BigEndian CounterMode

/-- One pass of the loop: its counter, and where it copies how many bytes. -/
structure KdfaCopy where
  counter : Nat
  start : Nat
  count : Nat
  deriving DecidableEq, Repr

structure KdfaRun where
  out : Nat → UInt8
  bytesToGenerate : Nat
  copies : List KdfaCopy
  masked : List Nat

/-- The positions of `out` that are copied to, in the order of the copies. -/
def KdfaRun.copied (r : KdfaRun) : List Nat :=
  r.copies.flatMap fun c => List.range' c.start c.count

section Kdfa

variable {h : Nat} (hmac : List UInt8 → List UInt8 → Vector UInt8 h) (hmacKey : List UInt8)
  (label : Option (List UInt8)) (bits bytesToGenerate : Nat)

def kdfaBlock (i : Nat) : List UInt8 :=
  (hmac hmacKey (bytes32 i ++ labelBytes label ++ [0] ++ bytes32 bits)).toList

def tracedKdfaLoop : Nat → Nat → Nat → (Nat → UInt8) → Option ((Nat → UInt8) × List KdfaCopy)
  | 0, _, generated, out => if generated < bytesToGenerate then none else some (out, [])
  | fuel + 1, counter, generated, out =>
    if generated < bytesToGenerate then
      let toCopy :=
        if bytesToGenerate < (generated + h) % 2 ^ 32 then bytesToGenerate - generated else h
      (tracedKdfaLoop fuel ((counter + 1) % 2 ^ 32) (generated + toCopy)
        (store out generated ((kdfaBlock hmac hmacKey label bits counter).take toCopy))).map
        fun r => (r.1, ⟨counter, generated, toCopy⟩ :: r.2)
    else some (out, [])

def tracedKdfa (out : Nat → UInt8) : Option KdfaRun :=
  let bytesToGenerate := (bits + 7) % 2 ^ 32 / 8
  match tracedKdfaLoop hmac hmacKey label bits bytesToGenerate bytesToGenerate 1 0 out with
  | none => none
  | some (out, copies) =>
    if bits % 8 = 0 then some ⟨out, bytesToGenerate, copies, []⟩
    else
      let last := sub32 bytesToGenerate 1
      some ⟨store out last [out last &&& UInt8.ofNat (0xFF <<< (8 - bits % 8))],
        bytesToGenerate, copies, [last]⟩

theorem tracedKdfaLoop_fst (fuel counter generated : Nat) (out : Nat → UInt8) :
    (tracedKdfaLoop hmac hmacKey label bits bytesToGenerate fuel counter generated out).map
      Prod.fst = kdfaLoop hmac hmacKey label bits bytesToGenerate fuel counter generated out := by
  induction fuel generalizing counter generated out with
  | zero =>
      rw [tracedKdfaLoop, kdfaLoop]
      split <;> rfl
  | succ fuel ih =>
      rw [tracedKdfaLoop, kdfaLoop]
      split
      · rw [Option.map_map]
        exact ih _ _ _
      · rfl

/-- Without the trace it is the model of the source. -/
theorem tracedKdfa_out (out : Nat → UInt8) :
    (tracedKdfa hmac hmacKey label bits out).map KdfaRun.out =
      tpm2Kdfa hmac hmacKey label bits out := by
  simp only [tracedKdfa, tpm2Kdfa, ← tracedKdfaLoop_fst]
  cases tracedKdfaLoop hmac hmacKey label bits ((bits + 7) % 2 ^ 32 / 8)
      ((bits + 7) % 2 ^ 32 / 8) 1 0 out with
  | none => rfl
  | some r =>
      dsimp only [Option.map_some]
      split <;> rfl

theorem length_kdfaBlock (i : Nat) : (kdfaBlock hmac hmacKey label bits i).length = h :=
  Vector.length_toList

def kdfaCopy (h n k : Nat) : KdfaCopy := ⟨k + 1, k * h, min h (n - k * h)⟩

variable {bytesToGenerate}

/-- The addition in the loop does not wrap: a block that is longer than what is asked for
is the only one. -/
theorem kdfa_toCopy (hmax : h < 2 ^ 32) (hn : bytesToGenerate ≤ 2 ^ 29) {k : Nat}
    (hk : k * h < bytesToGenerate) :
    (if bytesToGenerate < (k * h + h) % 2 ^ 32 then bytesToGenerate - k * h else h) =
      min h (bytesToGenerate - k * h) := by
  have hmod : (k * h + h) % 2 ^ 32 = k * h + h := by
    refine Nat.mod_eq_of_lt ?_
    obtain rfl | hpos := Nat.eq_zero_or_pos k
    · omega
    · have hle : h ≤ k * h := Nat.le_mul_of_pos_left h hpos
      omega
  rw [hmod]
  split <;> omega

theorem tracedKdfaLoop_blocks (hh : 0 < h) (fuel counter : Nat) (out : Nat → UInt8) :
    tracedKdfaLoop hmac hmacKey label bits bytesToGenerate fuel counter
      (min (blocks h bytesToGenerate * h) bytesToGenerate) out = some (out, []) := by
  rw [Nat.min_eq_right (le_blocks_mul hh)]
  cases fuel <;> simp [tracedKdfaLoop]

theorem tracedKdfaLoop_pass (hmax : h < 2 ^ 32) (hn : bytesToGenerate ≤ 2 ^ 29)
    (out : Nat → UInt8) (fuel : Nat) {k : Nat} (hmore : k * h < bytesToGenerate)
    (hk : k < bytesToGenerate) :
    tracedKdfaLoop hmac hmacKey label bits bytesToGenerate (fuel + 1) (k + 1)
        (min (k * h) bytesToGenerate)
        (store out 0 ((stream (kdfaBlock hmac hmacKey label bits) k).take bytesToGenerate)) =
      (tracedKdfaLoop hmac hmacKey label bits bytesToGenerate fuel (k + 1 + 1)
        (min ((k + 1) * h) bytesToGenerate)
        (store out 0 ((stream (kdfaBlock hmac hmacKey label bits) (k + 1)).take
          bytesToGenerate))).map fun r => (r.1, kdfaCopy h bytesToGenerate k :: r.2) := by
  have hlen := length_kdfaBlock hmac hmacKey label bits
  have hstart : min (k * h) bytesToGenerate = k * h := Nat.min_eq_left hmore.le
  have hkept : (stream (kdfaBlock hmac hmacKey label bits) k).take bytesToGenerate =
      stream (kdfaBlock hmac hmacKey label bits) k :=
    List.take_of_length_le (by rw [length_stream hlen]; exact hmore.le)
  have hend : k * h + min h (bytesToGenerate - k * h) = min ((k + 1) * h) bytesToGenerate := by
    rw [Nat.succ_mul]
    omega
  have hpiece : (kdfaBlock hmac hmacKey label bits (k + 1)).take
        (min h (bytesToGenerate - k * h)) =
      (kdfaBlock hmac hmacKey label bits (k + 1)).take (bytesToGenerate - k * h) := by
    rw [List.take_eq_take_iff, hlen]
    omega
  have hstore : store (store out 0 (stream (kdfaBlock hmac hmacKey label bits) k)) (k * h)
        ((kdfaBlock hmac hmacKey label bits (k + 1)).take (bytesToGenerate - k * h)) =
      store out 0
        ((stream (kdfaBlock hmac hmacKey label bits) (k + 1)).take bytesToGenerate) := by
    rw [take_stream_succ hlen hmore.le, store_append, Nat.zero_add, length_stream hlen]
  rw [tracedKdfaLoop, hstart, hkept, if_pos hmore]
  dsimp only
  rw [kdfa_toCopy hmax hn hmore, hend, hpiece, hstore,
    Nat.mod_eq_of_lt (by omega : k + 1 + 1 < 2 ^ 32)]
  rfl

/-- From pass `k` on, the loop copies the blocks that are left. -/
theorem tracedKdfaLoop_eq (hh : 0 < h) (hmax : h < 2 ^ 32) (hn : bytesToGenerate ≤ 2 ^ 29)
    (out : Nat → UInt8) (fuel k : Nat) (hfuel : blocks h bytesToGenerate ≤ k + fuel)
    (hk : k ≤ blocks h bytesToGenerate) :
    tracedKdfaLoop hmac hmacKey label bits bytesToGenerate fuel (k + 1)
        (min (k * h) bytesToGenerate)
        (store out 0 ((stream (kdfaBlock hmac hmacKey label bits) k).take bytesToGenerate)) =
      some (store out 0 ((stream (kdfaBlock hmac hmacKey label bits)
          (blocks h bytesToGenerate)).take bytesToGenerate),
        (List.range' k (blocks h bytesToGenerate - k)).map (kdfaCopy h bytesToGenerate)) := by
  have hblocks := blocks_le hh (n := bytesToGenerate)
  induction fuel generalizing k with
  | zero =>
      obtain rfl : k = blocks h bytesToGenerate := by omega
      rw [tracedKdfaLoop_blocks hmac hmacKey label bits hh, Nat.sub_self]
      rfl
  | succ fuel ih =>
      obtain rfl | hlt := Nat.eq_or_lt_of_le hk
      · rw [tracedKdfaLoop_blocks hmac hmacKey label bits hh, Nat.sub_self]
        rfl
      · have hrange : List.range' k (blocks h bytesToGenerate - k) =
            k :: List.range' (k + 1) (blocks h bytesToGenerate - (k + 1)) := by
          rw [← List.range'_succ]
          congr 1
          omega
        rw [tracedKdfaLoop_pass hmac hmacKey label bits hmax hn out fuel
          ((lt_blocks_iff hh).mp hlt) (by omega), ih (k + 1) (by omega) hlt, hrange]
        rfl

def clearLow (k : Nat) (b : UInt8) : UInt8 := UInt8.ofNat (b.toNat / 2 ^ k * 2 ^ k)

/-- The bits of the last byte that were not asked for are cleared. -/
def clearTail (bits : Nat) (bytes : List UInt8) : List UInt8 :=
  if bits % 8 = 0 then bytes else bytes.modify (bytes.length - 1) (clearLow (8 - bits % 8))

theorem and_mask (b : UInt8) {k : Nat} (hk : k < 8) :
    b &&& UInt8.ofNat (0xFF <<< (8 - k)) = clearLow (8 - k) b := by
  have hall : ∀ k : Fin 8, ∀ n : Fin 256, UInt8.ofNat n.val &&& UInt8.ofNat (0xFF <<< (8 - k.val)) =
      clearLow (8 - k.val) (UInt8.ofNat n.val) := by decide +kernel
  have hb := hall ⟨k, hk⟩ ⟨b.toNat, b.toNat_lt⟩
  rwa [UInt8.ofNat_toNat] at hb

def maskTail (bits n : Nat) (out : Nat → UInt8) : Nat → UInt8 :=
  if bits % 8 = 0 then out
  else store out (sub32 n 1) [clearLow (8 - bits % 8) (out (sub32 n 1))]

def maskedAt (bits n : Nat) : List Nat := if bits % 8 = 0 then [] else [sub32 n 1]

theorem maskedAt_last {n : Nat} (hn : (bits + 7) / 8 = n) :
    ∀ p ∈ maskedAt bits n, p + 1 = n := by
  intro p hp
  rw [maskedAt] at hp
  split at hp
  · cases hp
  · rw [List.mem_singleton.mp hp, sub32_of_le (by omega)]
    omega

theorem slice_maskTail {n : Nat} (hn : (bits + 7) / 8 = n) (out : Nat → UInt8) :
    slice (maskTail bits n out) 0 n = clearTail bits (slice out 0 n) := by
  rw [maskTail, clearTail]
  split
  · rfl
  · rw [slice_store_cell, length_slice, sub32_of_le (by omega)]

theorem maskTail_outside {n : Nat} (hn : (bits + 7) / 8 = n) (out : Nat → UInt8) {i : Nat}
    (hi : n ≤ i) : maskTail bits n out i = out i := by
  rw [maskTail]
  split
  · rfl
  · refine store_outside out _ _ i (Or.inr ?_)
    rw [List.length_singleton, sub32_of_le (by omega)]
    omega

def kdfaBytes (n : Nat) : List UInt8 :=
  (stream (kdfaBlock hmac hmacKey label bits) (blocks h n)).take n

theorem length_kdfaBytes (hh : 0 < h) (n : Nat) :
    (kdfaBytes hmac hmacKey label bits n).length = n := by
  rw [kdfaBytes, List.length_take, length_stream (length_kdfaBlock hmac hmacKey label bits)]
  exact Nat.min_eq_left (le_blocks_mul hh)

/-- What is kept of the blocks does not depend on how many of them are made. -/
theorem kdfaBytes_eq (hh : 0 < h) {n k : Nat} (hk : n ≤ k * h) :
    kdfaBytes hmac hmacKey label bits n =
      (stream (kdfaBlock hmac hmacKey label bits) k).take n := by
  have hle : blocks h n ≤ k := Nat.le_of_not_lt fun hlt =>
    absurd ((lt_blocks_iff hh).mp hlt) (Nat.not_lt.mpr hk)
  exact (take_stream (length_kdfaBlock hmac hmacKey label bits) hle (le_blocks_mul hh)).symm

theorem tracedKdfa_eq (hh : 0 < h) (hmax : h < 2 ^ 32) (out : Nat → UInt8) {n : Nat}
    (hn : (bits + 7) % 2 ^ 32 / 8 = n) :
    tracedKdfa hmac hmacKey label bits out = some
      ⟨maskTail bits n (store out 0 (kdfaBytes hmac hmacKey label bits n)), n,
        (List.range (blocks h n)).map (kdfaCopy h n), maskedAt bits n⟩ := by
  have hloop := tracedKdfaLoop_eq hmac hmacKey label bits hh hmax
    (show n ≤ 2 ^ 29 by omega) out n 0 (by simpa using blocks_le hh) (Nat.zero_le _)
  rw [Nat.zero_mul, Nat.zero_min, Nat.zero_add, Nat.sub_zero, ← List.range_eq_range',
    stream_zero, List.take_nil, store_nil] at hloop
  simp only [tracedKdfa, hn, hloop, and_mask _ (Nat.mod_lt bits (by decide)), maskTail, maskedAt]
  split <;> rfl

theorem copied_map_kdfaCopy (hh : 0 < h) (n : Nat) :
    (((List.range (blocks h n)).map (kdfaCopy h n)).flatMap fun c =>
      List.range' c.start c.count) = List.range n := by
  rw [List.flatMap_map]
  exact (tiles h n (blocks h n)).trans (by rw [Nat.min_eq_right (le_blocks_mul hh)])

/-- `TPM2_KDFa` fills the output with the beginning of the HMAC stream and touches
nothing behind it. `hmax` is the range of the `unsigned int` in which HMAC reports its
length. -/
theorem tpm2Kdfa_output (hh : 0 < h) (hmax : h < 2 ^ 32) (hbits : bits ≤ 2 ^ 32 - 8)
    (out : Nat → UInt8) :
    ∃ r, tracedKdfa hmac hmacKey label bits out = some r ∧
      tpm2Kdfa hmac hmacKey label bits out = some r.out ∧
      (∀ k, (bits + 7) / 8 ≤ k * h →
        slice r.out 0 ((bits + 7) / 8) = clearTail bits
          ((stream (kdfaBlock hmac hmacKey label bits) k).take ((bits + 7) / 8))) ∧
      (∀ i, (bits + 7) / 8 ≤ i → r.out i = out i) ∧
      r.copied = List.range ((bits + 7) / 8) ∧ (∀ p ∈ r.masked, p + 1 = (bits + 7) / 8) ∧
      r.copies.map KdfaCopy.counter = List.range' 1 r.copies.length ∧
      r.copies.length + 1 < 2 ^ 32 := by
  generalize hn : (bits + 7) / 8 = n
  have hlen := length_kdfaBytes hmac hmacKey label bits hh n
  have hrun := tracedKdfa_eq hmac hmacKey label bits hh hmax out (n := n) (by omega)
  refine ⟨_, hrun, ?_, fun k hk => ?_, fun i hi => ?_, copied_map_kdfaCopy hh n,
    maskedAt_last bits hn, ?_, ?_⟩
  · rw [← tracedKdfa_out, hrun]
    rfl
  · have hsame := slice_store_same out 0 (kdfaBytes hmac hmacKey label bits n)
    rw [hlen] at hsame
    rw [slice_maskTail bits hn, hsame, kdfaBytes_eq hmac hmacKey label bits hh hk]
  · exact (maskTail_outside bits hn _ hi).trans (store_outside out 0 _ i (Or.inr (by omega)))
  · simp [kdfaCopy, List.range'_eq_map_range, Nat.add_comm]
  · have hblocks := blocks_le hh (n := n)
    rw [List.length_map, List.length_range]
    omega

end Kdfa

theorem tpm2Kdfa_output_primary :
    ∃ r, tracedKdfa referenceHost.hmacSha256 [] (some primaryLabel) 256 zeroBytes = some r ∧
      r.copied = List.range 32 := by
  obtain ⟨r, hrun, -, -, -, hcopied, -⟩ := tpm2Kdfa_output referenceHost.hmacSha256 []
    (some primaryLabel) 256 (by decide) (by decide) (by decide) zeroBytes
  exact ⟨r, hrun, hcopied⟩

theorem primaryPrivate_eq (host : Host) (seed : Nat → UInt8) :
    primaryPrivate host seed = (host.hmacSha256 (slice seed 0 32)
      (bytes32 1 ++ primaryLabel ++ [0] ++ bytes32 256)).toList := by
  have hblock : kdfaBytes host.hmacSha256 (slice seed 0 32) (some primaryLabel) 256 32 =
      kdfaBlock host.hmacSha256 (slice seed 0 32) (some primaryLabel) 256 1 := by
    rw [kdfaBytes_eq _ _ _ _ (by decide) (k := 1) (by decide), stream_succ, stream_zero,
      List.nil_append, List.take_of_length_le (length_kdfaBlock _ _ _ _ _).le]
  have hsame := slice_store_same zeroBytes 0
    (kdfaBlock host.hmacSha256 (slice seed 0 32) (some primaryLabel) 256 1)
  rw [length_kdfaBlock] at hsame
  rw [primaryPrivate, ← tracedKdfa_out,
    tracedKdfa_eq _ _ _ _ (by decide) (by decide) zeroBytes (n := 32) rfl, hblock]
  exact (slice_maskTail 256 rfl _).trans hsame

/-- What the length arithmetic has to guarantee: the number of bytes is the rounded-up
number of bits, as many bits as were asked for are produced, and the masking step goes to
the last byte. -/
structure KdfaLengthsSafe (bits : Nat) (r : KdfaRun) : Prop where
  bytesToGenerate : r.bytesToGenerate = (bits + 7) / 8
  produced : bits ≤ 8 * r.copied.length
  masked : ∀ p ∈ r.masked, p + 1 = (bits + 7) / 8

section Lengths

variable {h : Nat} (hmac : List UInt8 → List UInt8 → Vector UInt8 h) (hmacKey : List UInt8)
  (label : Option (List UInt8)) {bits : Nat}

/-- The arithmetic is right up to the bit count whose rounding still fits. Beyond it
nothing is derived, one is returned, and the masking step goes to `out[2^32 - 1]`. -/
theorem kdfaLengthsSafe_iff (hh : 0 < h) (hmax : h < 2 ^ 32) (hbits : bits < 2 ^ 32)
    (out : Nat → UInt8) :
    ∃ r, tracedKdfa hmac hmacKey label bits out = some r ∧
      tpm2Kdfa hmac hmacKey label bits out = some r.out ∧
      (KdfaLengthsSafe bits r ↔ bits ≤ 2 ^ 32 - 8) ∧
      (2 ^ 32 - 8 < bits → r.copied = [] ∧ r.masked = [2 ^ 32 - 1]) := by
  have hrun := tracedKdfa_eq hmac hmacKey label bits hh hmax out rfl
  generalize hn : (bits + 7) % 2 ^ 32 / 8 = n at hrun
  have hcopied := copied_map_kdfaCopy hh n
  refine ⟨_, hrun, ?_, ⟨fun hsafe => ?_, fun hle => ⟨?_, ?_, ?_⟩⟩, fun hlt => ⟨?_, ?_⟩⟩
  · rw [← tracedKdfa_out, hrun]
    rfl
  · have hbytes : n = (bits + 7) / 8 := hsafe.bytesToGenerate
    omega
  · show n = (bits + 7) / 8
    omega
  · rw [KdfaRun.copied, hcopied, List.length_range]
    omega
  · rw [show (bits + 7) / 8 = n by omega]
    exact maskedAt_last bits (by omega)
  · rw [KdfaRun.copied, hcopied, show n = 0 by omega]
    rfl
  · rw [show n = 0 by omega]
    exact if_neg (by omega)

end Lengths

theorem kdfaLengthsSafe_iff_primary :
    ∃ r, tracedKdfa referenceHost.hmacSha256 [] (some primaryLabel) 256 zeroBytes = some r ∧
      KdfaLengthsSafe 256 r := by
  obtain ⟨r, hrun, -, hsafe, -⟩ := kdfaLengthsSafe_iff referenceHost.hmacSha256 []
    (some primaryLabel) (by decide) (by decide) (show 256 < 2 ^ 32 by decide) zeroBytes
  exact ⟨r, hrun, hsafe.mpr (by decide)⟩

/-- All bits of the parameter set: the function reports success without a byte. -/
theorem kdfaLengths_wrap :
    ∃ r, tracedKdfa referenceHost.hmacSha256 [] none (2 ^ 32 - 1) zeroBytes = some r ∧
      r.bytesToGenerate = 0 ∧ r.copied = [] ∧ r.masked = [2 ^ 32 - 1] ∧
      ¬ KdfaLengthsSafe (2 ^ 32 - 1) r := by
  refine ⟨_, rfl, rfl, rfl, rfl, fun hsafe => ?_⟩
  have hbytes := hsafe.bytesToGenerate
  exact absurd hbytes (by decide)

end TpmEmulator
