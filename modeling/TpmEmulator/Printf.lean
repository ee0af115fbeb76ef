import Mathlib.Algebra.Order.Ring.Nat
import Mathlib.Data.List.Range
import Mathlib.Tactic.Common

/-!
Formatted output of the firmware. The function scans its format and renders
into a buffer of 128 characters, with a 16 character array for the digits of a
number. The model keeps the indices of both arrays that a call uses and whether
the format was read past its terminating NUL. Nothing in the model stops at the
ends of the arrays, so staying within them is a theorem.
-/
namespace TpmEmulator

def ascii (c : Char) : UInt8 := .ofNat c.toNat

/-- A NUL-terminated string by the characters before its NUL. -/
structure CString where
  chars : List UInt8
  nonzero : 0 ∉ chars

/-- A variable argument. A number of either signedness is 32 bits. -/
inductive PrintfArg
  | int (v : BitVec 32)
  | str (s : CString)

inductive ArgKind
  | int
  | str
deriving DecidableEq, Repr

def PrintfArg.kind : PrintfArg → ArgKind
  | .int _ => .int
  | .str _ => .str

/-- What a call has rendered and which cells it has used. -/
structure PrintfRun where
  buffer : List UInt8 := []
  bufferIndices : List Nat := []
  numIndices : List Nat := []
  pastEnd : Bool := false
deriving DecidableEq, Repr

namespace PrintfRun

/-- The character is stored through the moving pointer into the buffer. -/
def put (r : PrintfRun) (c : UInt8) : PrintfRun :=
  { r with
    buffer := r.buffer ++ [c]
    bufferIndices := r.bufferIndices ++ [r.buffer.length] }

def putAll (r : PrintfRun) (cs : List UInt8) : PrintfRun := cs.foldl put r

/-- The digit array is filled from index zero on and read back from its last
index down. -/
def putNum (r : PrintfRun) (num : List UInt8) : PrintfRun :=
  { r with numIndices := r.numIndices ++ List.range num.length }.putAll num.reverse

/-- The terminating NUL is stored where the pointer stands. -/
def terminate (r : PrintfRun) : PrintfRun :=
  { r with bufferIndices := r.bufferIndices ++ [r.buffer.length] }

end PrintfRun

/-- A string is sent up to its first NUL. -/
def uartPutstr (s : List UInt8) : List UInt8 := s.takeWhile (· != 0)

def PrintfRun.sent (r : PrintfRun) : List UInt8 := uartPutstr (r.buffer ++ [0])

def isDigit (c : UInt8) : Bool := ascii '0' ≤ c && c ≤ ascii '9'

/-- The conversions that take the digit array. -/
def isNumeric (c : UInt8) : Bool :=
  c == ascii 'd' || c == ascii 'u' || c == ascii 'x' || c == ascii 'X'

/-- One optional flag. -/
def scanFlag : List UInt8 → Bool × List UInt8
  | [] => (false, [])
  | c :: fmt => if c = ascii '0' then (true, fmt) else (false, c :: fmt)

/-- The width is a signed 32-bit number. An overflow wraps, as it does on the
target. -/
def scanWidth (width : BitVec 32) : List UInt8 → BitVec 32 × List UInt8
  | [] => (width, [])
  | c :: fmt =>
      if isDigit c then scanWidth (width * 10 + (c - ascii '0').toBitVec.setWidth 32) fmt
      else (width, c :: fmt)

/-- What one round of the loop finds in the format. A conversion is cut where
the NUL stands in the place of its conversion character. -/
inductive Piece
  | literal (c : UInt8)
  | conversion (zeroPad : Bool) (width : BitVec 32) (c : UInt8)
  | cut
deriving DecidableEq, Repr

def scan : List UInt8 → Option (Piece × List UInt8)
  | [] => none
  | c :: fmt =>
      if c = ascii '%' then
        let (zeroPad, fmt) := scanFlag fmt
        let (width, fmt) := scanWidth 0 fmt
        match fmt with
        | [] => some (.cut, [])
        | c :: fmt => some (.conversion zeroPad width c, fmt)
      else some (.literal c, fmt)

/-- A digit, with the letter that stands for ten. -/
def digitText (letter : UInt8) (digit : Nat) : UInt8 :=
  if digit < 10 then ascii '0' + .ofNat digit else letter + .ofNat (digit - 10)

/-- Digits by repeated division, the last one first. At least one is made. -/
def numDigits (base : Nat) (letter : UInt8) : Nat → Nat → List UInt8
  | 0, _ => []
  | fuel + 1, val =>
      digitText letter (val % base) ::
        if 0 < val / base then numDigits base letter fuel (val / base) else []

/-- A number is negative only under the signed conversion. -/
def isNegative (c : UInt8) (v : BitVec 32) : Bool := c == ascii 'd' && v.slt 0

/-- The digits of a converted number. The negation of the least number wraps
to its magnitude. A 32-bit number has no more than 32 digits in any base. -/
def convDigits (c : UInt8) (v : BitVec 32) : List UInt8 :=
  let val := if isNegative c v then (-v).toNat else v.toNat
  let base := if c = ascii 'x' ∨ c = ascii 'X' then 16 else 10
  numDigits base (if c = ascii 'x' then ascii 'a' else ascii 'A') 32 val

/-- The array is padded behind its digits, up to a width that may be negative. -/
def padNum (num : List UInt8) (width : BitVec 32) (zeroPad : Bool) : List UInt8 :=
  num ++ List.replicate (width.toInt.toNat - num.length)
    (if zeroPad then ascii '0' else ascii ' ')

/-- The sign goes to the buffer before the padded digits. -/
def PrintfRun.putNumber (r : PrintfRun) (c : UInt8) (zeroPad : Bool) (width v : BitVec 32) :
    PrintfRun :=
  let r := if isNegative c v then r.put (ascii '-') else r
  r.putNum (padNum (convDigits c v) width zeroPad)

/-- One round of the loop, with the arguments that are left. It has no result
where an argument of the wrong kind would be taken. After a cut conversion the
format pointer stands behind the NUL, and the loop condition reads there. -/
def emit (r : PrintfRun) : Piece → List PrintfArg → Option (List PrintfArg × PrintfRun)
  | .literal c, args => some (args, r.put c)
  | .conversion zeroPad width c, args =>
      if c = ascii 'c' then
        match args with
        | .int v :: args => some (args, r.put (.ofBitVec (v.setWidth 8)))
        | _ => none
      else if c = ascii 's' then
        match args with
        | .str s :: args => some (args, r.putAll s.chars)
        | _ => none
      else if isNumeric c then
        match args with
        | .int v :: args => some (args, r.putNumber c zeroPad width v)
        | _ => none
      else some (args, (r.put (ascii '%')).put c)
  | .cut, args => some (args, { (r.put (ascii '%')).put 0 with pastEnd := true })

/-- The loop over the format. A call that has read past the NUL ends here, since
what it would go on with is not part of the format. -/
def printfLoop : Nat → List UInt8 → List PrintfArg → PrintfRun → Option PrintfRun
  | 0, _, _, _ => none
  | fuel + 1, fmt, args, r =>
      match scan fmt with
      | none => some r
      | some (piece, fmt) =>
          match emit r piece args with
          | none => none
          | some (args, r) => printfLoop fuel fmt args r

def uartPrintf (fmt : CString) (args : List PrintfArg) : Option PrintfRun :=
  (printfLoop (fmt.chars.length + 1) fmt.chars args {}).map PrintfRun.terminate

def pieces : Nat → List UInt8 → List Piece
  | 0, _ => []
  | fuel + 1, fmt =>
      match scan fmt with
      | none => []
      | some (piece, fmt) => piece :: pieces fuel fmt

/-- The pieces of a whole format, in order. -/
def formatPieces (fmt : CString) : List Piece := pieces (fmt.chars.length + 1) fmt.chars

/-- The argument a piece takes. -/
def Piece.argKind : Piece → Option ArgKind
  | .literal _ => none
  | .conversion _ _ c =>
      if c = ascii 'c' then some .int
      else if c = ascii 's' then some .str
      else if isNumeric c then some .int
      else none
  | .cut => none

/-- The arguments are those the conversions ask for, in order. More may follow. -/
def ArgsMatch (fmt : CString) (args : List PrintfArg) : Prop :=
  (formatPieces fmt).filterMap Piece.argKind <+: args.map PrintfArg.kind

/-- The format is not read past its NUL, the digit array is used below 16 and
the buffer is written below 128. -/
structure PrintfRun.InBounds (r : PrintfRun) : Prop where
  format : r.pastEnd = false
  num : ∀ i ∈ r.numIndices, i < 16
  buffer : ∀ i ∈ r.bufferIndices, i < 128

/-- A conversion has its conversion character, and a numeric one has a width of
at most 16. -/
def Piece.Bounded : Piece → Prop
  | .literal _ => True
  | .conversion _ width c => isNumeric c → width.toInt ≤ 16
  | .cut => False

instance : DecidablePred Piece.Bounded
  | .literal _ => .isTrue trivial
  | .conversion _ _ _ => inferInstanceAs (Decidable (_ → _))
  | .cut => .isFalse not_false

namespace PrintfRun

@[simp] theorem putAll_nil (r : PrintfRun) : r.putAll [] = r := rfl

@[simp] theorem putAll_cons (r : PrintfRun) (c : UInt8) (cs : List UInt8) :
    r.putAll (c :: cs) = (r.put c).putAll cs := rfl

@[simp] theorem buffer_putAll (r : PrintfRun) (cs : List UInt8) :
    (r.putAll cs).buffer = r.buffer ++ cs := by
  induction cs generalizing r with
  | nil => simp
  | cons c cs ih => simp [ih, put]

@[simp] theorem numIndices_putAll (r : PrintfRun) (cs : List UInt8) :
    (r.putAll cs).numIndices = r.numIndices := by
  induction cs generalizing r with
  | nil => rfl
  | cons c cs ih => exact ih (r.put c)

@[simp] theorem pastEnd_putAll (r : PrintfRun) (cs : List UInt8) :
    (r.putAll cs).pastEnd = r.pastEnd := by
  induction cs generalizing r with
  | nil => rfl
  | cons c cs ih => exact ih (r.put c)

/-- The buffer has been written from its start on without a gap. -/
def Consistent (r : PrintfRun) : Prop := r.bufferIndices = List.range r.buffer.length

theorem Consistent.put {r : PrintfRun} (h : r.Consistent) (c : UInt8) : (r.put c).Consistent := by
  rw [Consistent] at h
  simp [Consistent, PrintfRun.put, h, List.range_succ]

theorem Consistent.putAll {r : PrintfRun} (h : r.Consistent) (cs : List UInt8) :
    (r.putAll cs).Consistent := by
  induction cs generalizing r with
  | nil => exact h
  | cons c cs ih => exact ih (h.put c)

theorem Consistent.putNum {r : PrintfRun} (h : r.Consistent) (num : List UInt8) :
    (r.putNum num).Consistent :=
  Consistent.putAll (r := { r with numIndices := r.numIndices ++ List.range num.length }) h _

/-- The part of the bounds that does not depend on the length of the output. -/
def Within (r : PrintfRun) : Prop := r.pastEnd = false ∧ ∀ i ∈ r.numIndices, i < 16

@[simp] theorem within_putAll (r : PrintfRun) (cs : List UInt8) :
    (r.putAll cs).Within ↔ r.Within := by
  simp [Within]

theorem within_putNum (r : PrintfRun) (num : List UInt8) :
    (r.putNum num).Within ↔ r.Within ∧ num.length ≤ 16 := by
  have hrange : (∀ i, i < num.length → i < 16) ↔ num.length ≤ 16 :=
    ⟨fun h => Nat.le_of_not_lt fun hlt => absurd (h 16 hlt) (by decide), by omega⟩
  simp only [putNum, within_putAll]
  simp only [Within, List.mem_append, List.mem_range, or_imp, forall_and, hrange, and_assoc]

/-- A consistent call that ends is in bounds when its output leaves room for the
NUL and the rest of the bounds holds. -/
theorem inBounds_terminate_iff {r : PrintfRun} (h : r.Consistent) :
    r.terminate.InBounds ↔ r.Within ∧ r.buffer.length ≤ 127 := by
  have hindices : r.terminate.bufferIndices = List.range (r.buffer.length + 1) := by
    rw [Consistent] at h
    simp [terminate, h, List.range_succ]
  constructor
  · intro hbounds
    have hlast := hbounds.buffer r.buffer.length (by rw [hindices]; simp)
    exact ⟨⟨hbounds.format, hbounds.num⟩, by omega⟩
  · rintro ⟨⟨hformat, hnum⟩, hlength⟩
    refine ⟨hformat, hnum, ?_⟩
    intro i hi
    rw [hindices, List.mem_range] at hi
    omega

end PrintfRun

/-- A number below a power of the base has no more digits than the exponent. -/
theorem length_numDigits_le {base : Nat} (letter : UInt8) (hbase : 0 < base) :
    ∀ (fuel digits val : Nat), val < base ^ (digits + 1) →
      (numDigits base letter fuel val).length ≤ digits + 1
  | 0, _, _, _ => Nat.zero_le _
  | fuel + 1, digits, val, hval => by
      rw [numDigits, List.length_cons]
      split
      · next hrest =>
          cases digits with
          | zero =>
              rw [Nat.zero_add, Nat.pow_one] at hval
              rw [Nat.div_eq_of_lt hval] at hrest
              exact absurd hrest (Nat.lt_irrefl 0)
          | succ digits =>
              have hdiv : val / base < base ^ (digits + 1) :=
                Nat.div_lt_of_lt_mul (by rwa [Nat.pow_succ, Nat.mul_comm] at hval)
              have := length_numDigits_le letter hbase fuel digits (val / base) hdiv
              omega
      · simp

/-- Ten digits are enough for 32 bits, in decimal and in hexadecimal. -/
theorem length_convDigits_le (c : UInt8) (v : BitVec 32) : (convDigits c v).length ≤ 10 := by
  unfold convDigits
  extract_lets val base
  have hval : val < 2 ^ 32 := by
    simp only [val]
    split <;> exact BitVec.isLt _
  have hbase : 10 ≤ base := by
    simp only [base]
    split <;> decide
  refine length_numDigits_le _ (by omega) 32 9 val ?_
  calc val < 10 ^ 10 := by omega
    _ ≤ base ^ 10 := Nat.pow_le_pow_left hbase 10

theorem length_padNum (num : List UInt8) (width : BitVec 32) (zeroPad : Bool) :
    (padNum num width zeroPad).length = max num.length width.toInt.toNat := by
  simp only [padNum, List.length_append, List.length_replicate]
  omega

namespace PrintfRun

theorem Consistent.putNumber {r : PrintfRun} (h : r.Consistent) (c : UInt8) (zeroPad : Bool)
    (width v : BitVec 32) : (r.putNumber c zeroPad width v).Consistent := by
  rw [PrintfRun.putNumber]
  split
  · exact (h.put _).putNum _
  · exact h.putNum _

/-- A number uses the digit array within its bounds up to a width of 16. -/
theorem within_putNumber (r : PrintfRun) (c : UInt8) (zeroPad : Bool) (width v : BitVec 32) :
    (r.putNumber c zeroPad width v).Within ↔ r.Within ∧ width.toInt ≤ 16 := by
  have hdigits := length_convDigits_le c v
  have hsign : (if isNegative c v then r.put (ascii '-') else r).Within ↔ r.Within := by
    split <;> exact Iff.rfl
  rw [putNumber, within_putNum, hsign, length_padNum]
  exact and_congr Iff.rfl (by omega)

end PrintfRun

/-- What one round can do: it stores some characters and takes no number, or it
renders a number, or it runs past the end of the format. -/
theorem emit_cases {r r' : PrintfRun} {piece : Piece} {args args' : List PrintfArg}
    (h : emit r piece args = some (args', r')) :
    (piece.Bounded ∧ ∃ cs, r' = r.putAll cs) ∨
    (∃ zeroPad width c v, piece = .conversion zeroPad width c ∧ isNumeric c = true ∧
      r' = r.putNumber c zeroPad width v) ∨
    (piece = .cut ∧ r' = { (r.put (ascii '%')).put 0 with pastEnd := true }) := by
  cases piece with
  | literal c =>
      obtain ⟨-, rfl⟩ := Prod.mk.inj (Option.some.inj h)
      exact .inl ⟨trivial, [c], rfl⟩
  | cut =>
      obtain ⟨-, rfl⟩ := Prod.mk.inj (Option.some.inj h)
      exact .inr (.inr ⟨rfl, rfl⟩)
  | conversion zeroPad width c =>
      simp only [emit] at h
      split at h
      · next hc =>
          have hplain : isNumeric c = false := by rw [hc]; decide
          split at h
          · obtain ⟨-, rfl⟩ := Prod.mk.inj (Option.some.inj h)
            exact .inl ⟨fun hnum => absurd hnum (by simp [hplain]), [_], rfl⟩
          · cases h
      · split at h
        · next hs =>
            have hplain : isNumeric c = false := by rw [hs]; decide
            split at h
            · obtain ⟨-, rfl⟩ := Prod.mk.inj (Option.some.inj h)
              exact .inl ⟨fun hnum => absurd hnum (by simp [hplain]), _, rfl⟩
            · cases h
        · split at h
          · next hnum =>
              split at h
              · obtain ⟨-, rfl⟩ := Prod.mk.inj (Option.some.inj h)
                exact .inr (.inl ⟨zeroPad, width, c, _, rfl, hnum, rfl⟩)
              · cases h
          · next hplain =>
              obtain ⟨-, rfl⟩ := Prod.mk.inj (Option.some.inj h)
              exact .inl ⟨fun hnum => absurd hnum hplain, [ascii '%', c], rfl⟩

theorem consistent_emit {r r' : PrintfRun} {piece : Piece} {args args' : List PrintfArg}
    (h : emit r piece args = some (args', r')) (hr : r.Consistent) : r'.Consistent := by
  obtain ⟨-, cs, rfl⟩ | ⟨zeroPad, width, c, v, -, -, rfl⟩ | ⟨-, rfl⟩ := emit_cases h
  · exact hr.putAll cs
  · exact hr.putNumber c zeroPad width v
  · exact (hr.put (ascii '%')).put 0

theorem within_emit {r r' : PrintfRun} {piece : Piece} {args args' : List PrintfArg}
    (h : emit r piece args = some (args', r')) : r'.Within ↔ r.Within ∧ piece.Bounded := by
  obtain ⟨hbounded, cs, rfl⟩ | ⟨zeroPad, width, c, v, rfl, hnum, rfl⟩ | ⟨rfl, rfl⟩ := emit_cases h
  · simp [hbounded]
  · simp [PrintfRun.within_putNumber, Piece.Bounded, hnum]
  · simp [PrintfRun.Within, Piece.Bounded]

theorem exists_arg_of_kind {args : List PrintfArg} {kind : ArgKind} {kinds : List ArgKind}
    (h : kind :: kinds <+: args.map PrintfArg.kind) :
    ∃ arg rest, args = arg :: rest ∧ arg.kind = kind ∧ kinds <+: rest.map PrintfArg.kind := by
  cases args with
  | nil => simp at h
  | cons arg rest =>
      rw [List.map_cons, List.cons_prefix_cons] at h
      exact ⟨arg, rest, rfl, h.1.symm, h.2⟩

theorem exists_int_arg {args : List PrintfArg} {kinds : List ArgKind}
    (h : .int :: kinds <+: args.map PrintfArg.kind) :
    ∃ v rest, args = .int v :: rest ∧ kinds <+: rest.map PrintfArg.kind := by
  obtain ⟨arg, rest, rfl, hkind, hrest⟩ := exists_arg_of_kind h
  cases arg with
  | int v => exact ⟨v, rest, rfl, hrest⟩
  | str s => cases hkind

theorem exists_str_arg {args : List PrintfArg} {kinds : List ArgKind}
    (h : .str :: kinds <+: args.map PrintfArg.kind) :
    ∃ s rest, args = .str s :: rest ∧ kinds <+: rest.map PrintfArg.kind := by
  obtain ⟨arg, rest, rfl, hkind, hrest⟩ := exists_arg_of_kind h
  cases arg with
  | int v => cases hkind
  | str s => exact ⟨s, rest, rfl, hrest⟩

/-- A round that finds its argument goes through, and leaves the others. -/
theorem emit_total (r : PrintfRun) {piece : Piece} {args : List PrintfArg} {kinds : List ArgKind}
    (h : piece.argKind.toList ++ kinds <+: args.map PrintfArg.kind) :
    ∃ args' r', emit r piece args = some (args', r') ∧ kinds <+: args'.map PrintfArg.kind := by
  cases piece with
  | literal c => exact ⟨args, _, rfl, h⟩
  | cut => exact ⟨args, _, rfl, h⟩
  | conversion zeroPad width c =>
      simp only [Piece.argKind] at h
      simp only [emit]
      split_ifs at h ⊢ with hc hs hnum
      · obtain ⟨v, rest, rfl, hrest⟩ := exists_int_arg h
        exact ⟨rest, _, rfl, hrest⟩
      · obtain ⟨s, rest, rfl, hrest⟩ := exists_str_arg h
        exact ⟨rest, _, rfl, hrest⟩
      · obtain ⟨v, rest, rfl, hrest⟩ := exists_int_arg h
        exact ⟨rest, _, rfl, hrest⟩
      · exact ⟨args, _, rfl, h⟩

theorem length_scanFlag_le (fmt : List UInt8) : (scanFlag fmt).2.length ≤ fmt.length := by
  cases fmt with
  | nil => exact Nat.le_refl 0
  | cons c fmt =>
      rw [scanFlag]
      split <;> simp

theorem length_scanWidth_le (width : BitVec 32) (fmt : List UInt8) :
    (scanWidth width fmt).2.length ≤ fmt.length := by
  induction fmt generalizing width with
  | nil => exact Nat.le_refl 0
  | cons c fmt ih =>
      rw [scanWidth]
      split
      · exact Nat.le_succ_of_le (ih _)
      · exact Nat.le_refl _

/-- Each round uses up some of the format. -/
theorem length_scan_lt {fmt rest : List UInt8} {piece : Piece}
    (h : scan fmt = some (piece, rest)) : rest.length < fmt.length := by
  cases fmt with
  | nil => cases h
  | cons c fmt =>
      have hflag := length_scanFlag_le fmt
      have hwidth := length_scanWidth_le 0 (scanFlag fmt).2
      simp only [scan] at h
      split at h
      · split at h
        · obtain ⟨-, rfl⟩ := Prod.mk.inj (Option.some.inj h)
          exact Nat.succ_pos _
        · next hrest =>
            obtain ⟨-, rfl⟩ := Prod.mk.inj (Option.some.inj h)
            rw [hrest, List.length_cons] at hwidth
            rw [List.length_cons]
            omega
      · obtain ⟨-, rfl⟩ := Prod.mk.inj (Option.some.inj h)
        exact Nat.lt_succ_self _

/-- The loop over a format goes through with matching arguments, and stays
within its bounds exactly when every piece does. -/
theorem printfLoop_spec {fuel : Nat} {fmt : List UInt8} {args : List PrintfArg} {r : PrintfRun}
    (hfuel : fmt.length < fuel)
    (hmatch : (pieces fuel fmt).filterMap Piece.argKind <+: args.map PrintfArg.kind)
    (hr : r.Consistent) :
    ∃ r', printfLoop fuel fmt args r = some r' ∧ r'.Consistent ∧
      (r'.Within ↔ r.Within ∧ ∀ piece ∈ pieces fuel fmt, piece.Bounded) := by
  induction fuel generalizing fmt args r with
  | zero => exact absurd hfuel (Nat.not_lt_zero _)
  | succ fuel ih =>
      rw [printfLoop]
      rw [pieces] at hmatch ⊢
      cases hscan : scan fmt with
      | none => exact ⟨r, rfl, hr, by simp⟩
      | some found =>
          obtain ⟨piece, rest⟩ := found
          have hkinds : (piece :: pieces fuel rest).filterMap Piece.argKind =
              piece.argKind.toList ++ (pieces fuel rest).filterMap Piece.argKind := by
            rw [List.filterMap_cons]
            cases piece.argKind <;> rfl
          simp only [hscan, hkinds] at hmatch ⊢
          have hrest := length_scan_lt hscan
          obtain ⟨args', r', hemit, hmatch'⟩ := emit_total r hmatch
          obtain ⟨last, hloop, hconsistent, hwithin⟩ :=
            ih (by omega) hmatch' (consistent_emit hemit hr)
          refine ⟨last, by rw [hemit]; exact hloop, hconsistent, ?_⟩
          rw [hwithin, within_emit hemit, List.forall_mem_cons, and_assoc]

/-- For every format and matching arguments the call ends. With an output of at
most 127 characters it stays in bounds exactly when no conversion is cut by the
end of the format and no numeric one has a width over 16. -/
theorem uartPrintf_inBounds_iff (fmt : CString) (args : List PrintfArg)
    (hmatch : ArgsMatch fmt args) :
    ∃ r, uartPrintf fmt args = some r ∧
      (r.buffer.length ≤ 127 →
        (r.InBounds ↔ ∀ piece ∈ formatPieces fmt, piece.Bounded)) := by
  obtain ⟨r, hloop, hconsistent, hwithin⟩ :=
    printfLoop_spec (r := {}) (Nat.lt_succ_self _) hmatch rfl
  refine ⟨r.terminate, by rw [uartPrintf, hloop]; rfl, ?_⟩
  intro hlength
  have hstart : PrintfRun.Within {} := ⟨rfl, by simp⟩
  rw [PrintfRun.inBounds_terminate_iff hconsistent, hwithin]
  exact ⟨fun h => h.1.2, fun h => ⟨⟨hstart, h⟩, hlength⟩⟩

/-- The conversions the firmware uses, with a width: `%08x %s`. -/
def paddedFormat : CString :=
  ⟨[ascii '%', ascii '0', ascii '8', ascii 'x', ascii ' ', ascii '%', ascii 's'], by decide⟩

theorem uartPrintf_paddedFormat :
    let args := [.int 0x1a3f, .str ⟨[ascii 'O', ascii 'K'], by decide⟩]
    ArgsMatch paddedFormat args ∧
      ∃ r, uartPrintf paddedFormat args = some r ∧ r.buffer.length = 11 ∧ r.InBounds := by
  intro args
  have hmatch : ArgsMatch paddedFormat args := by
    rw [ArgsMatch]
    decide +kernel
  have hbounded : ∀ piece ∈ formatPieces paddedFormat, piece.Bounded := by decide +kernel
  have hbuffer : (uartPrintf paddedFormat args).map (fun r => r.buffer.length) = some 11 := by
    decide +kernel
  obtain ⟨r, hrun, hiff⟩ := uartPrintf_inBounds_iff paddedFormat args hmatch
  rw [hrun] at hbuffer
  have hlength : r.buffer.length = 11 := Option.some.inj hbuffer
  exact ⟨hmatch, r, hrun, hlength, (hiff (by omega)).mpr hbounded⟩

/-- The formats `%` and `%17d`. -/
def lonePercent : CString := ⟨[ascii '%'], by decide⟩
def wideFormat : CString := ⟨[ascii '%', ascii '1', ascii '7', ascii 'd'], by decide⟩

/-- A lone percent sign makes the scanner read behind the format. A width of 17
makes a number use the seventeenth cell of the digit array. -/
theorem uartPrintf_inBounds_fails :
    (ArgsMatch lonePercent [] ∧ ∃ r, uartPrintf lonePercent [] = some r ∧
      r.buffer.length ≤ 127 ∧ r.pastEnd = true ∧ ¬ r.InBounds) ∧
    (ArgsMatch wideFormat [.int 5] ∧ ∃ r, uartPrintf wideFormat [.int 5] = some r ∧
      r.buffer.length ≤ 127 ∧ 16 ∈ r.numIndices ∧ ¬ r.InBounds) := by
  refine ⟨⟨?_, _, rfl, by decide, by decide, fun h => ?_⟩,
    ⟨?_, _, rfl, by decide, by decide, fun h => ?_⟩⟩
  · rw [ArgsMatch]
    decide +kernel
  · exact absurd h.format (by decide)
  · rw [ArgsMatch]
    decide +kernel
  · exact absurd (h.num 16 (by decide)) (by decide)

end TpmEmulator
