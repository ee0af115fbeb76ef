import TpmEmulator.Library.CellMemory
import TpmEmulator.Printf
import Mathlib.Tactic.Common

/-!
The hex dump of the firmware: two digits per byte, a blank after every fourth
byte, a line break after every sixteenth, and a last line break if the last line
is short. The dump is read back, and it is cut into its lines.
-/
namespace TpmEmulator
open CellMemory

def newline : UInt8 := ascii '\n'
def blank : UInt8 := ascii ' '

def hexDigits : List UInt8 :=
  [ascii '0', ascii '1', ascii '2', ascii '3', ascii '4', ascii '5', ascii '6', ascii '7',
    ascii '8', ascii '9', ascii 'a', ascii 'b', ascii 'c', ascii 'd', ascii 'e', ascii 'f']

/-- A character is sent once the device has room. -/
def uartPutc (c : UInt8) : List UInt8 := [c]

def hexDigit (nibble : UInt8) : UInt8 := hexDigits.getD nibble.toNat 0

def hexByte (b : UInt8) : List UInt8 :=
  uartPutc (hexDigit ((b >>> 4) &&& 0x0f)) ++ uartPutc (hexDigit (b &&& 0x0f))

/-- What follows the byte at an index. The index is a 32-bit counter. -/
def hexSeparator (i : Nat) : List UInt8 :=
  if (i + 1) % 2 ^ 32 % 16 = 0 then uartPutstr [newline]
  else if (i + 1) % 2 ^ 32 % 4 = 0 then uartPutstr [blank]
  else []

def hexLoop (i : Nat) : List UInt8 → List UInt8
  | [] => []
  | b :: bytes => hexByte b ++ hexSeparator i ++ hexLoop (i + 1) bytes

def newlineFormat : CString := ⟨[newline], by decide⟩

def uartPrintHex (data : Nat → UInt8) (len : BitVec 32) : List UInt8 :=
  hexLoop 0 (slice data 0 len.toNat) ++
    if len.toNat % 16 ≠ 0 then
      ((uartPrintf newlineFormat []).map PrintfRun.sent).getD []
    else []

/-- The value of a hex digit in either case. -/
def hexValue (c : UInt8) : Option Nat :=
  if ascii '0' ≤ c ∧ c ≤ ascii '9' then some (c - ascii '0').toNat
  else if ascii 'a' ≤ c ∧ c ≤ ascii 'f' then some ((c - ascii 'a').toNat + 10)
  else if ascii 'A' ≤ c ∧ c ≤ ascii 'F' then some ((c - ascii 'A').toNat + 10)
  else none

/-- Pairs of hex digits as bytes. -/
def decodeHex : List UInt8 → Option (List UInt8)
  | [] => some []
  | [_] => none
  | high :: low :: rest => do
      let h ← hexValue high
      let l ← hexValue low
      let bytes ← decodeHex rest
      return .ofNat (h * 16 + l) :: bytes

def isSeparator (c : UInt8) : Bool := c == blank || c == newline

/-- The text of a line from a column on. A blank follows every fourth byte
other than the sixteenth. -/
def lineFrom (column : Nat) : List UInt8 → List UInt8
  | [] => []
  | b :: bytes =>
      hexByte b ++ (if (column + 1) % 4 = 0 ∧ column + 1 ≠ 16 then [blank] else []) ++
        lineFrom (column + 1) bytes

def lineText (line : List UInt8) : List UInt8 := lineFrom 0 line

theorem nibbles (b : UInt8) :
    ((b >>> 4) &&& 0x0f).toNat = b.toNat / 16 ∧ (b &&& 0x0f).toNat = b.toNat % 16 := by
  have hlow (n : Nat) : n &&& 15 = n % 16 := Nat.and_two_pow_sub_one_eq_mod n 4
  have hb := b.toNat_lt
  constructor
  · rw [UInt8.toNat_and, UInt8.toNat_shiftRight]
    show (b.toNat >>> 4) &&& 15 = _
    rw [hlow, Nat.shiftRight_eq_div_pow]
    omega
  · rw [UInt8.toNat_and]
    exact hlow b.toNat

theorem hexValue_hexDigit {nibble : UInt8} (h : nibble.toNat < 16) :
    hexValue (hexDigit nibble) = some nibble.toNat := by
  have hall : ∀ n, n < 16 → hexValue (hexDigits.getD n 0) = some n := by decide
  exact hall _ h

theorem hexByte_eq (b : UInt8) : ∃ high low, hexByte b = [high, low] ∧
    hexValue high = some (b.toNat / 16) ∧ hexValue low = some (b.toNat % 16) := by
  obtain ⟨hhigh, hlow⟩ := nibbles b
  have hb := b.toNat_lt
  refine ⟨_, _, rfl, ?_, ?_⟩
  · rw [hexValue_hexDigit (by omega), hhigh]
  · rw [hexValue_hexDigit (by omega), hlow]

theorem decodeHex_flatMap (bytes : List UInt8) :
    decodeHex (bytes.flatMap hexByte) = some bytes := by
  induction bytes with
  | nil => rfl
  | cons b bytes ih =>
      obtain ⟨high, low, hbyte, hhigh, hlow⟩ := hexByte_eq b
      have hb : UInt8.ofNat (b.toNat / 16 * 16 + b.toNat % 16) = b := by
        rw [Nat.div_add_mod', UInt8.ofNat_toNat]
      rw [List.flatMap_cons, hbyte, List.cons_append, List.cons_append, List.nil_append, decodeHex,
        hhigh, hlow, ih]
      exact congrArg (fun byte => some (byte :: bytes)) hb

theorem not_isSeparator_of_hexValue {c : UInt8} {n : Nat} (h : hexValue c = some n) :
    isSeparator c = false := by
  have hblank : hexValue blank = none := by decide
  have hnewline : hexValue newline = none := by decide
  rw [isSeparator, Bool.or_eq_false_iff, beq_eq_false_iff_ne, beq_eq_false_iff_ne]
  constructor
  · rintro rfl
    rw [hblank] at h
    cases h
  · rintro rfl
    rw [hnewline] at h
    cases h

theorem isSeparator_hexByte {b c : UInt8} (h : c ∈ hexByte b) : isSeparator c = false := by
  obtain ⟨high, low, hbyte, hhigh, hlow⟩ := hexByte_eq b
  rw [hbyte] at h
  rcases List.mem_pair.mp h with rfl | rfl
  · exact not_isSeparator_of_hexValue hhigh
  · exact not_isSeparator_of_hexValue hlow

/-- The counter wraps at a multiple of sixteen, so the wrap is not seen. -/
theorem hexSeparator_eq (i : Nat) :
    hexSeparator i =
      if (i + 1) % 16 = 0 then [newline] else if (i + 1) % 4 = 0 then [blank] else [] := by
  have h16 : (i + 1) % 2 ^ 32 % 16 = (i + 1) % 16 := Nat.mod_mod_of_dvd _ (by decide)
  have h4 : (i + 1) % 2 ^ 32 % 4 = (i + 1) % 4 := Nat.mod_mod_of_dvd _ (by decide)
  rw [hexSeparator, h16, h4]
  rfl

theorem filter_hexSeparator (i : Nat) :
    (hexSeparator i).filter (fun c => !isSeparator c) = [] := by
  rw [hexSeparator_eq]
  split_ifs <;> rfl

/-- Without its separators, a dump is the digits of its bytes. -/
theorem filter_hexLoop (i : Nat) (bytes : List UInt8) :
    (hexLoop i bytes).filter (fun c => !isSeparator c) = bytes.flatMap hexByte := by
  induction bytes generalizing i with
  | nil => rfl
  | cons b bytes ih =>
      have hdigits : (hexByte b).filter (fun c => !isSeparator c) = hexByte b :=
        List.filter_eq_self.mpr fun c hc => by rw [isSeparator_hexByte hc]; rfl
      rw [hexLoop, List.filter_append, List.filter_append, hdigits, filter_hexSeparator, ih,
        List.append_nil, List.flatMap_cons]

theorem hexLoop_append (i : Nat) (a b : List UInt8) :
    hexLoop i (a ++ b) = hexLoop i a ++ hexLoop (i + a.length) b := by
  induction a generalizing i with
  | nil => rfl
  | cons c a ih =>
      have hindex : i + 1 + a.length = i + (a.length + 1) := by omega
      rw [List.cons_append, hexLoop, hexLoop, ih, hindex, List.length_cons]
      simp only [List.append_assoc]

/-- The separator by the column of the byte in its line. -/
theorem hexSeparator_column {i column : Nat} (h : i % 16 = column) :
    hexSeparator i = (if (column + 1) % 4 = 0 ∧ column + 1 ≠ 16 then [blank] else []) ++
      if column + 1 = 16 then [newline] else [] := by
  have hbreak : (i + 1) % 16 = 0 ↔ column + 1 = 16 := by omega
  have hgroup : (i + 1) % 4 = 0 ↔ (column + 1) % 4 = 0 := by omega
  rw [hexSeparator_eq]
  simp only [hbreak, hgroup]
  by_cases hlast : column + 1 = 16
  · simp [hlast]
  · simp [hlast]

/-- Within a line the loop writes the text of the line, and its break with the
sixteenth byte. -/
theorem hexLoop_line {i column : Nat} {line : List UInt8} (hcolumn : i % 16 = column)
    (hline : line ≠ []) (hlength : column + line.length ≤ 16) :
    hexLoop i line =
      lineFrom column line ++ if column + line.length = 16 then [newline] else [] := by
  induction line generalizing i column with
  | nil => exact absurd rfl hline
  | cons b line ih =>
      rw [List.length_cons] at hlength ⊢
      rw [hexLoop, lineFrom, hexSeparator_column hcolumn]
      cases line with
      | nil => simp [hexLoop, lineFrom]
      | cons b' line =>
          rw [List.length_cons] at hlength ⊢
          have hnext : (i + 1) % 16 = column + 1 := by omega
          have hshort : column + 1 ≠ 16 := by omega
          have htotal : column + 1 + (line.length + 1) = column + (line.length + 1 + 1) := by omega
          rw [ih hnext (List.cons_ne_nil _ _) (by rw [List.length_cons]; omega),
            List.length_cons, htotal, if_neg hshort, List.append_nil]
          simp only [List.append_assoc]

/-- A full line and what follows it. -/
theorem hexLoop_full {i : Nat} {bytes : List UInt8} (hi : i % 16 = 0)
    (hlength : 16 ≤ bytes.length) :
    hexLoop i bytes =
      (lineText (bytes.take 16) ++ [newline]) ++ hexLoop (i + 16) (bytes.drop 16) := by
  have hhead : (bytes.take 16).length = 16 := by
    rw [List.length_take]
    omega
  have hne : bytes.take 16 ≠ [] := List.length_pos_iff.mp (by omega)
  calc hexLoop i bytes = hexLoop i (bytes.take 16 ++ bytes.drop 16) := by
        rw [List.take_append_drop]
    _ = hexLoop i (bytes.take 16) ++ hexLoop (i + 16) (bytes.drop 16) := by
        rw [hexLoop_append, hhead]
    _ = (lineText (bytes.take 16) ++ [newline]) ++ hexLoop (i + 16) (bytes.drop 16) := by
        rw [hexLoop_line hi hne (by omega), if_pos (by omega), lineText]

/-- The bytes of a dump cut into lines: sixteen bytes each, the last one at
least one. -/
structure DumpLines (lines : List (List UInt8)) : Prop where
  length_le : ∀ line ∈ lines, line ≠ [] ∧ line.length ≤ 16
  full : ∀ line ∈ lines.dropLast, line.length = 16

theorem DumpLines.cons {line : List UInt8} {lines : List (List UInt8)} (h : DumpLines lines)
    (hline : line.length = 16) : DumpLines (line :: lines) where
  length_le := by
    have hne : line ≠ [] := List.length_pos_iff.mp (by omega)
    exact List.forall_mem_cons.mpr ⟨⟨hne, by omega⟩, h.length_le⟩
  full := by
    cases lines with
    | nil => simp
    | cons next lines =>
        rw [List.dropLast_cons_cons]
        exact List.forall_mem_cons.mpr ⟨hline, h.full⟩

/-- From the start of a line on, the loop and the last break write lines. -/
theorem exists_lines (bytes : List UInt8) {i : Nat} (hi : i % 16 = 0) :
    ∃ lines, DumpLines lines ∧ lines.flatten = bytes ∧
      hexLoop i bytes ++ (if bytes.length % 16 ≠ 0 then [newline] else []) =
        lines.flatMap fun line => lineText line ++ [newline] := by
  induction hn : bytes.length using Nat.strong_induction_on generalizing bytes i with
  | _ n ih =>
      subst hn
      by_cases hempty : bytes = []
      · subst hempty
        exact ⟨[], ⟨by simp, by simp⟩, rfl, rfl⟩
      · have hpos := List.length_pos_iff.mpr hempty
        by_cases hshort : bytes.length < 16
        · refine ⟨[bytes], ⟨by simp [hempty, Nat.le_of_lt hshort], by simp⟩, by simp, ?_⟩
          have hmod : bytes.length % 16 ≠ 0 := by omega
          rw [hexLoop_line hi hempty (by omega), if_neg (by omega), if_pos hmod]
          simp [lineText]
        · have hhead : (bytes.take 16).length = 16 := by
            rw [List.length_take]
            omega
          have htail : (bytes.drop 16).length = bytes.length - 16 := List.length_drop
          obtain ⟨lines, hlines, hflatten, htext⟩ :=
            ih (bytes.drop 16).length (by omega) (bytes.drop 16) (i := i + 16) (by omega) rfl
          refine ⟨bytes.take 16 :: lines, hlines.cons hhead, ?_, ?_⟩
          · rw [List.flatten_cons, hflatten, List.take_append_drop]
          · have hmod : (bytes.drop 16).length % 16 = bytes.length % 16 := by omega
            rw [hmod] at htext
            rw [hexLoop_full hi (by omega), List.append_assoc, htext, List.flatMap_cons]

theorem newline_not_mem_lineFrom (column : Nat) (line : List UInt8) :
    newline ∉ lineFrom column line := by
  induction line generalizing column with
  | nil => simp [lineFrom]
  | cons b line ih =>
      have hbyte : newline ∉ hexByte b := fun h => by
        have := isSeparator_hexByte h
        revert this
        decide
      have hblank : newline ∉ if (column + 1) % 4 = 0 ∧ column + 1 ≠ 16 then [blank] else [] := by
        split <;> decide
      rw [lineFrom, List.mem_append, List.mem_append]
      rintro ((h | h) | h)
      · exact hbyte h
      · exact hblank h
      · exact ih _ h

/-- The last break goes through formatted output. -/
theorem uartPrintHex_eq (data : Nat → UInt8) (len : BitVec 32) :
    uartPrintHex data len = hexLoop 0 (slice data 0 len.toNat) ++
      if (slice data 0 len.toNat).length % 16 ≠ 0 then [newline] else [] := by
  rw [length_slice]
  rfl

theorem decodeHex_uartPrintHex (data : Nat → UInt8) (len : BitVec 32) :
    decodeHex ((uartPrintHex data len).filter fun c => !isSeparator c) =
      some (slice data 0 len.toNat) := by
  have hbreak : (if (slice data 0 len.toNat).length % 16 ≠ 0 then [newline] else []).filter
      (fun c => !isSeparator c) = [] := by
    split <;> rfl
  rw [uartPrintHex_eq, List.filter_append, filter_hexLoop, hbreak, List.append_nil,
    decodeHex_flatMap]

theorem lineText_ne_nil {line : List UInt8} (h : line ≠ []) : lineText line ≠ [] := by
  cases line with
  | nil => exact absurd rfl h
  | cons b line => simp [lineText, lineFrom, hexByte, uartPutc]

/-- A text of lines that are not empty ends with one break. -/
theorem exists_body {lines : List (List UInt8)} (h : DumpLines lines) (hne : lines ≠ []) :
    ∃ body, (lines.flatMap fun line => lineText line ++ [newline]) = body ++ [newline] ∧
      body.getLast? ≠ some newline := by
  obtain rfl | ⟨before, last, rfl⟩ := List.eq_nil_or_concat lines
  · exact absurd rfl hne
  · refine ⟨(before.flatMap fun line => lineText line ++ [newline]) ++ lineText last, by simp, ?_⟩
    have hlast := lineText_ne_nil (h.length_le last (by simp)).1
    rw [List.getLast?_append_of_ne_nil _ hlast]
    intro hend
    exact newline_not_mem_lineFrom 0 last (List.mem_of_getLast? hend)

/-- The dump of any array. Without blanks and line breaks it decodes to the
array. It consists of lines that end with a break, carry sixteen bytes but for
the last, and are the text of their bytes. If it is not empty, it ends with
exactly one line break. -/
theorem uartPrintHex_faithful (data : Nat → UInt8) (len : BitVec 32) :
    decodeHex ((uartPrintHex data len).filter fun c => !isSeparator c) =
        some (slice data 0 len.toNat) ∧
      (∃ lines, DumpLines lines ∧ lines.flatten = slice data 0 len.toNat ∧
        (∀ line ∈ lines, newline ∉ lineText line) ∧
        uartPrintHex data len = lines.flatMap fun line => lineText line ++ [newline]) ∧
      (uartPrintHex data len ≠ [] → ∃ body, uartPrintHex data len = body ++ [newline] ∧
        body.getLast? ≠ some newline) := by
  obtain ⟨lines, hlines, hflatten, htext⟩ := exists_lines (slice data 0 len.toNat) (i := 0) rfl
  rw [← uartPrintHex_eq] at htext
  refine ⟨decodeHex_uartPrintHex data len, ⟨lines, hlines, hflatten, ?_, htext⟩, fun hne => ?_⟩
  · exact fun line _ => newline_not_mem_lineFrom 0 line
  · rw [htext] at hne ⊢
    exact exists_body hlines (by rintro rfl; exact hne rfl)

end TpmEmulator
