import TpmEmulator.Printf
import Mathlib.Data.List.TakeWhile
import Mathlib.Tactic.Common

/-!
Formatted output against the printf of the C standard. A format is a list of
items, each a literal character or a conversion with its argument. What an item
spells in the format, what the firmware renders for it and what the standard
asks for are three functions of the item. The rendering differs from the
standard for a NUL character and for negative numbers that are padded.
-/
namespace TpmEmulator

inductive NumConv
  | decimal
  | unsigned
  | lowerHex
  | upperHex
deriving DecidableEq, Repr

namespace NumConv

def text : NumConv → UInt8
  | .decimal => ascii 'd'
  | .unsigned => ascii 'u'
  | .lowerHex => ascii 'x'
  | .upperHex => ascii 'X'

def base : NumConv → Nat
  | .decimal | .unsigned => 10
  | .lowerHex | .upperHex => 16

/-- The number an argument stands for under the conversion. -/
def value : NumConv → BitVec 32 → Int
  | .decimal, v => v.toInt
  | .unsigned, v | .lowerHex, v | .upperHex, v => v.toNat

end NumConv

/-- A literal character or a conversion with its argument. The numeric ones
have an optional flag and a width of at most ten, where zero stands for none. -/
inductive FormatItem
  | literal (c : { c : UInt8 // c ≠ 0 ∧ c ≠ ascii '%' })
  | char (v : BitVec 32)
  | string (s : CString)
  | number (conv : NumConv) (zeroPad : Bool) (width : Fin 11) (v : BitVec 32)

def widthText (width : Fin 11) : List UInt8 :=
  if width = 0 then [] else (Nat.toDigits 10 width).map ascii

namespace FormatItem

/-- What the item spells in the format. -/
def spell : FormatItem → List UInt8
  | .literal c => [c]
  | .char _ => [ascii '%', ascii 'c']
  | .string _ => [ascii '%', ascii 's']
  | .number conv zeroPad width _ =>
      ascii '%' :: (if zeroPad then [ascii '0'] else []) ++ widthText width ++ [conv.text]

def arg : FormatItem → Option PrintfArg
  | .literal _ => none
  | .char v => some (.int v)
  | .string s => some (.str s)
  | .number _ _ _ v => some (.int v)

end FormatItem

/-- The conventional notation of a number, with capital letters for `%X`. -/
def isoDigits (conv : NumConv) (n : Nat) : List UInt8 :=
  (Nat.toDigits conv.base n).map fun c => ascii (if conv = .upperHex then c.toUpper else c)

/-- The converted number, padded to the width by zeros after its sign or by
blanks before it. -/
def isoNumber (conv : NumConv) (zeroPad : Bool) (width : Nat) (v : BitVec 32) : List UInt8 :=
  let n := conv.value v
  let sign := if n < 0 then [ascii '-'] else []
  let digits := isoDigits conv n.natAbs
  let fill := width - (sign.length + digits.length)
  if zeroPad then sign ++ List.replicate fill (ascii '0') ++ digits
  else List.replicate fill (ascii ' ') ++ sign ++ digits

def FormatItem.iso : FormatItem → List UInt8
  | .literal c => [c]
  | .char v => [.ofBitVec (v.setWidth 8)]
  | .string s => s.chars
  | .number conv zeroPad width v => isoNumber conv zeroPad width v

/-- The characters the standard asks for. -/
def isoPrintf (items : List FormatItem) : List UInt8 := items.flatMap FormatItem.iso

namespace FormatItem

/-- What the scanner makes of the item. -/
def piece : FormatItem → Piece
  | .literal c => .literal c
  | .char _ => .conversion false 0 (ascii 'c')
  | .string _ => .conversion false 0 (ascii 's')
  | .number conv zeroPad width _ => .conversion zeroPad (.ofNat 32 width) conv.text

end FormatItem

theorem nonzero_spell (item : FormatItem) : 0 ∉ item.spell := by
  cases item with
  | literal c => simpa [FormatItem.spell] using c.2.1.symm
  | char v | string s =>
      rw [FormatItem.spell]
      decide
  | number conv zeroPad width v =>
      rw [FormatItem.spell]
      cases conv <;> cases zeroPad <;> revert width <;> decide +kernel

def formatOf (items : List FormatItem) : CString where
  chars := items.flatMap FormatItem.spell
  nonzero := by
    rw [List.mem_flatMap]
    rintro ⟨item, -, hzero⟩
    exact nonzero_spell item hzero

def argsOf (items : List FormatItem) : List PrintfArg := items.filterMap FormatItem.arg

/-- A width is scanned digit by digit, up to the first other character. -/
theorem scanWidth_append {digits : List UInt8} (hdigits : ∀ d ∈ digits, isDigit d = true)
    {c : UInt8} (hc : isDigit c = false) (width : BitVec 32) (rest : List UInt8) :
    scanWidth width (digits ++ c :: rest) =
      (digits.foldl (fun w d => w * 10 + (d - ascii '0').toBitVec.setWidth 32) width,
        c :: rest) := by
  induction digits generalizing width with
  | nil => simp [scanWidth, hc]
  | cons d digits ih =>
      obtain ⟨hd, hrest⟩ := List.forall_mem_cons.mp hdigits
      rw [List.cons_append, scanWidth, if_pos hd, ih hrest, List.foldl_cons]

theorem isDigit_convText (conv : NumConv) : isDigit conv.text = false := by
  cases conv <;> decide

theorem scanWidth_widthText (width : Fin 11) (conv : NumConv) (rest : List UInt8) :
    scanWidth 0 (widthText width ++ conv.text :: rest) =
      (.ofNat 32 width, conv.text :: rest) := by
  have hdigits : ∀ w : Fin 11, ∀ d ∈ widthText w, isDigit d = true := by decide +kernel
  have hvalue : ∀ w : Fin 11, (widthText w).foldl
      (fun w d => w * 10 + (d - ascii '0').toBitVec.setWidth 32) 0 = BitVec.ofNat 32 w := by
    decide +kernel
  rw [scanWidth_append (hdigits width) (isDigit_convText conv), hvalue]

/-- Without the flag, neither a width nor a conversion character starts with a
zero. -/
theorem scanFlag_spell (zeroPad : Bool) (width : Fin 11) (conv : NumConv) (rest : List UInt8) :
    scanFlag ((if zeroPad then [ascii '0'] else []) ++ (widthText width ++ conv.text :: rest)) =
      (zeroPad, widthText width ++ conv.text :: rest) := by
  cases zeroPad with
  | true => rfl
  | false =>
      have hhead : ∀ w : Fin 11, (widthText w).head? ≠ some (ascii '0') := by decide +kernel
      have hconv : conv.text ≠ ascii '0' := by cases conv <;> decide
      simp only [Bool.false_eq_true, if_false, List.nil_append]
      cases hwidth : widthText width with
      | nil => simp [scanFlag, hconv]
      | cons d digits =>
          have hd : d ≠ ascii '0' := fun heq => hhead width (by rw [hwidth, heq]; rfl)
          simp [scanFlag, hd]

/-- The scanner finds the item that was spelled and goes on behind it. -/
theorem scan_spell (item : FormatItem) (rest : List UInt8) :
    scan (item.spell ++ rest) = some (item.piece, rest) := by
  cases item with
  | literal c =>
      have hc : c.1 ≠ ascii '%' := c.2.2
      simp [FormatItem.spell, FormatItem.piece, scan, hc]
  | char v => rfl
  | string s => rfl
  | number conv zeroPad width v =>
      have hspell : (FormatItem.number conv zeroPad width v).spell ++ rest =
          ascii '%' :: ((if zeroPad then [ascii '0'] else []) ++
            (widthText width ++ conv.text :: rest)) := by
        simp [FormatItem.spell]
      rw [hspell]
      simp only [scan, if_true, scanFlag_spell, scanWidth_widthText]
      rfl

theorem length_spell_pos (item : FormatItem) (rest : List UInt8) :
    rest.length < (item.spell ++ rest).length :=
  length_scan_lt (scan_spell item rest)

theorem pieces_spell {fuel : Nat} (items : List FormatItem)
    (hfuel : (items.flatMap FormatItem.spell).length < fuel) :
    pieces fuel (items.flatMap FormatItem.spell) = items.map FormatItem.piece := by
  induction items generalizing fuel with
  | nil => cases fuel <;> rfl
  | cons item items ih =>
      rw [List.flatMap_cons] at hfuel ⊢
      have hrest := length_spell_pos item (items.flatMap FormatItem.spell)
      cases fuel with
      | zero => exact absurd hfuel (Nat.not_lt_zero _)
      | succ fuel =>
          simp only [pieces, scan_spell, List.map_cons]
          rw [ih (by omega)]

theorem formatPieces_formatOf (items : List FormatItem) :
    formatPieces (formatOf items) = items.map FormatItem.piece :=
  pieces_spell items (Nat.lt_succ_self _)

/-- The sign goes before the padding, and the width counts the digits only. -/
def uartNumber (conv : NumConv) (zeroPad : Bool) (width : Fin 11) (v : BitVec 32) : List UInt8 :=
  (if isNegative conv.text v then [ascii '-'] else []) ++
    (padNum (convDigits conv.text v) (.ofNat 32 width) zeroPad).reverse

def FormatItem.uart : FormatItem → List UInt8
  | .literal c => [c]
  | .char v => [.ofBitVec (v.setWidth 8)]
  | .string s => s.chars
  | .number conv zeroPad width v => uartNumber conv zeroPad width v

theorem buffer_putNumber (r : PrintfRun) (c : UInt8) (zeroPad : Bool) (width v : BitVec 32) :
    (r.putNumber c zeroPad width v).buffer = r.buffer ++
      ((if isNegative c v then [ascii '-'] else []) ++
        (padNum (convDigits c v) width zeroPad).reverse) := by
  simp only [PrintfRun.putNumber, PrintfRun.putNum, PrintfRun.buffer_putAll]
  split <;> simp [PrintfRun.put]

theorem emit_item (r : PrintfRun) (item : FormatItem) (args : List PrintfArg) :
    ∃ r', emit r item.piece (item.arg.toList ++ args) = some (args, r') ∧
      r'.buffer = r.buffer ++ item.uart := by
  cases item with
  | literal c => exact ⟨_, rfl, rfl⟩
  | char v => exact ⟨_, rfl, rfl⟩
  | string s => exact ⟨_, rfl, PrintfRun.buffer_putAll r s.chars⟩
  | number conv zeroPad width v =>
      refine ⟨r.putNumber conv.text zeroPad (.ofNat 32 width) v, ?_, buffer_putNumber ..⟩
      cases conv <;> rfl

theorem printfLoop_items {fuel : Nat} (items : List FormatItem) (r : PrintfRun)
    (hfuel : (items.flatMap FormatItem.spell).length < fuel) :
    ∃ r', printfLoop fuel (items.flatMap FormatItem.spell) (argsOf items) r = some r' ∧
      r'.buffer = r.buffer ++ items.flatMap FormatItem.uart := by
  induction items generalizing fuel r with
  | nil =>
      cases fuel with
      | zero => exact absurd hfuel (Nat.not_lt_zero _)
      | succ fuel => exact ⟨r, rfl, by simp⟩
  | cons item items ih =>
      rw [List.flatMap_cons] at hfuel ⊢
      have hrest := length_spell_pos item (items.flatMap FormatItem.spell)
      have hargs : argsOf (item :: items) = item.arg.toList ++ argsOf items := by
        rw [argsOf, List.filterMap_cons]
        cases item.arg <;> rfl
      obtain ⟨r', hemit, hbuffer⟩ := emit_item r item (argsOf items)
      cases fuel with
      | zero => exact absurd hfuel (Nat.not_lt_zero _)
      | succ fuel =>
          obtain ⟨last, hloop, hlast⟩ := ih r' (by omega : _ < fuel)
          refine ⟨last, ?_, by rw [hlast, hbuffer, List.flatMap_cons, List.append_assoc]⟩
          simp only [printfLoop, scan_spell, hargs, hemit, hloop]

/-- The arguments of the items are those their conversions ask for. -/
theorem argsMatch_formatOf (items : List FormatItem) :
    ArgsMatch (formatOf items) (argsOf items) := by
  have hkind (item : FormatItem) : item.piece.argKind = item.arg.map PrintfArg.kind := by
    cases item with
    | literal c => rfl
    | char v => rfl
    | string s => rfl
    | number conv zeroPad width v => cases conv <;> rfl
  have hkinds : (formatPieces (formatOf items)).filterMap Piece.argKind =
      (argsOf items).map PrintfArg.kind := by
    rw [formatPieces_formatOf, List.filterMap_map, argsOf, List.map_filterMap]
    exact List.filterMap_congr fun item _ => hkind item
  exact ⟨[], by rw [hkinds, List.append_nil]⟩

theorem bounded_piece (item : FormatItem) : item.piece.Bounded := by
  cases item with
  | literal c => trivial
  | char v | string s =>
      rw [FormatItem.piece]
      decide
  | number conv zeroPad width v =>
      intro _
      revert width
      decide +kernel

/-- The division loop makes the conventional notation, last digit first. -/
theorem numDigits_eq {base : Nat} {letter : UInt8} {text : Char → UInt8} (hbase : 1 < base)
    (htext : ∀ d, d < base → digitText letter d = text d.digitChar) :
    ∀ fuel val : Nat, val < base ^ fuel → 0 < fuel →
      numDigits base letter fuel val = ((Nat.toDigits base val).map text).reverse
  | 0, _, _, hpos => absurd hpos (Nat.lt_irrefl 0)
  | fuel + 1, val, hval, _ => by
      rw [numDigits]
      have hlast := htext (val % base) (Nat.mod_lt _ (by omega))
      by_cases hsmall : val < base
      · rw [Nat.div_eq_of_lt hsmall, if_neg (Nat.lt_irrefl 0), Nat.toDigits_of_lt_base hsmall,
          hlast, Nat.mod_eq_of_lt hsmall]
        rfl
      · have hquot : 0 < val / base := Nat.div_pos (by omega) (by omega)
        have hnext : val / base < base ^ fuel :=
          Nat.div_lt_of_lt_mul (by rwa [Nat.pow_succ, Nat.mul_comm] at hval)
        have hfuel : 0 < fuel := by
          rcases Nat.eq_zero_or_pos fuel with rfl | hpos
          · rw [Nat.pow_zero] at hnext
            omega
          · exact hpos
        rw [if_pos hquot, numDigits_eq hbase htext fuel (val / base) hnext hfuel,
          Nat.toDigits_of_base_le (n := val) hbase (by omega), hlast]
        simp

/-- The sign and the magnitude the firmware uses are those of the number. -/
theorem isNegative_convText (conv : NumConv) (v : BitVec 32) :
    isNegative conv.text v = decide (conv.value v < 0) := by
  cases conv with
  | decimal => exact Bool.true_and _
  | unsigned | lowerHex | upperHex => exact (decide_eq_false (by simp [NumConv.value])).symm

theorem magnitude_eq (conv : NumConv) (v : BitVec 32) :
    (if isNegative conv.text v then (-v).toNat else v.toNat) = (conv.value v).natAbs := by
  have hlt := v.isLt
  have hint := v.toInt_eq_toNat_cond
  have hneg := BitVec.toNat_neg v
  rw [isNegative_convText]
  by_cases hsign : conv.value v < 0
  · rw [if_pos (decide_eq_true hsign)]
    cases conv <;> simp only [NumConv.value] at hsign ⊢ <;> omega
  · rw [if_neg (by simpa using hsign)]
    cases conv <;> simp only [NumConv.value] at hsign ⊢ <;> omega

theorem convDigits_eq (conv : NumConv) (v : BitVec 32) :
    convDigits conv.text v = (isoDigits conv (conv.value v).natAbs).reverse := by
  have hmagnitude := magnitude_eq conv v
  have hlt : (conv.value v).natAbs < 2 ^ 32 := by
    rw [← hmagnitude]
    split <;> exact BitVec.isLt _
  have hdecimal : (conv.value v).natAbs < 10 ^ 32 := by omega
  have hhex : (conv.value v).natAbs < 16 ^ 32 := by omega
  rw [convDigits, hmagnitude, isoDigits]
  cases conv with
  | decimal | unsigned => exact numDigits_eq (by decide) (by decide) 32 _ hdecimal (by decide)
  | lowerHex | upperHex => exact numDigits_eq (by decide) (by decide) 32 _ hhex (by decide)

/-- The firmware renders the item as the standard does: a character is not NUL,
and the digits of a negative number fill the width. -/
def FormatItem.Agrees : FormatItem → Prop
  | .literal _ | .string _ => True
  | .char v => v.setWidth 8 ≠ (0 : BitVec 8)
  | .number conv _ width v =>
      conv.value v < 0 → width ≤ (isoDigits conv (conv.value v).natAbs).length

instance : DecidablePred FormatItem.Agrees
  | .literal _ | .string _ => .isTrue trivial
  | .char _ => inferInstanceAs (Decidable (_ ≠ _))
  | .number _ _ _ _ => inferInstanceAs (Decidable (_ → _))

theorem uartNumber_eq (conv : NumConv) (zeroPad : Bool) (width : Fin 11) (v : BitVec 32) :
    uartNumber conv zeroPad width v =
      (if conv.value v < 0 then [ascii '-'] else []) ++
        (List.replicate (width - (isoDigits conv (conv.value v).natAbs).length)
          (if zeroPad then ascii '0' else ascii ' ') ++ isoDigits conv (conv.value v).natAbs) := by
  have hwidth : ∀ w : Fin 11, (BitVec.ofNat 32 w).toInt.toNat = w := by decide +kernel
  simp [uartNumber, padNum, convDigits_eq, isNegative_convText, hwidth]

/-- A number that is not negative, or whose digits fill the width, is rendered
as the standard asks. -/
theorem uartNumber_eq_isoNumber {conv : NumConv} {width : Fin 11} {v : BitVec 32}
    (zeroPad : Bool)
    (h : conv.value v < 0 → width ≤ (isoDigits conv (conv.value v).natAbs).length) :
    uartNumber conv zeroPad width v = isoNumber conv zeroPad width v := by
  rw [uartNumber_eq, isoNumber]
  by_cases hneg : conv.value v < 0
  · have hfill := h hneg
    simp only [hneg, if_true, List.length_singleton]
    rw [Nat.sub_eq_zero_of_le hfill, Nat.sub_eq_zero_of_le (by omega)]
    simp
  · cases zeroPad <;> simp [hneg]

/-- A padded negative number takes one character more than the width. -/
theorem length_uartNumber {conv : NumConv} {width : Fin 11} {v : BitVec 32} (zeroPad : Bool)
    (hneg : conv.value v < 0)
    (hpad : (isoDigits conv (conv.value v).natAbs).length < width) :
    (uartNumber conv zeroPad width v).length = (isoNumber conv zeroPad width v).length + 1 := by
  have huart : (uartNumber conv zeroPad width v).length = width + 1 := by
    rw [uartNumber_eq]
    simp [hneg]
    omega
  have hiso : (isoNumber conv zeroPad width v).length = width := by
    rw [isoNumber]
    cases zeroPad <;> simp [hneg] <;> omega
  rw [huart, hiso]

namespace FormatItem

theorem uart_eq_iso {item : FormatItem} (h : item.Agrees) : item.uart = item.iso := by
  cases item with
  | literal c | char v | string s => rfl
  | number conv zeroPad width v => exact uartNumber_eq_isoNumber zeroPad h

theorem length_iso_le (item : FormatItem) : item.iso.length ≤ item.uart.length := by
  cases item with
  | literal c | char v | string s => exact Nat.le_refl _
  | number conv zeroPad width v =>
      by_cases h : (number conv zeroPad width v).Agrees
      · rw [uart_eq_iso h]
      · obtain ⟨hneg, hpad⟩ := Classical.not_imp.mp h
        have := length_uartNumber (v := v) zeroPad hneg (Nat.lt_of_not_le hpad)
        exact Nat.le_of_lt (by simp only [uart, iso]; omega)

/-- Without a NUL, an item of the standard's length is the standard's. -/
theorem agrees_of_length {item : FormatItem} (hzero : 0 ∉ item.iso)
    (hlength : item.uart.length ≤ item.iso.length) : item.Agrees := by
  cases item with
  | literal c | string s => trivial
  | char v =>
      intro hnul
      exact hzero (by simp [iso, hnul])
  | number conv zeroPad width v =>
      intro hneg
      by_contra hpad
      have := length_uartNumber (v := v) zeroPad hneg (Nat.lt_of_not_le hpad)
      simp only [uart, iso] at hlength
      omega

end FormatItem

theorem length_isoPrintf_le (items : List FormatItem) :
    (isoPrintf items).length ≤ (items.flatMap FormatItem.uart).length := by
  induction items with
  | nil => exact Nat.le_refl 0
  | cons item items ih =>
      have hitem := item.length_iso_le
      simp only [isoPrintf, List.flatMap_cons, List.length_append] at ih ⊢
      omega

theorem forall_agrees_of_length {items : List FormatItem} (hzero : 0 ∉ isoPrintf items)
    (hlength : (items.flatMap FormatItem.uart).length ≤ (isoPrintf items).length) :
    ∀ item ∈ items, item.Agrees := by
  induction items with
  | nil => simp
  | cons item items ih =>
      have hitem := item.length_iso_le
      have htail := length_isoPrintf_le items
      simp only [isoPrintf, List.flatMap_cons, List.mem_append, not_or, List.length_append]
        at hzero hlength htail
      rw [List.forall_mem_cons]
      refine ⟨FormatItem.agrees_of_length hzero.1 ?_, ih hzero.2 ?_⟩
      · omega
      · show _ ≤ (items.flatMap FormatItem.iso).length
        omega

theorem nonzero_numDigits {base : Nat} {letter : UInt8} (hbase : 0 < base)
    (htext : ∀ d, d < base → digitText letter d ≠ 0) :
    ∀ fuel val : Nat, 0 ∉ numDigits base letter fuel val
  | 0, _ => by simp [numDigits]
  | fuel + 1, val => by
      rw [numDigits, List.mem_cons, not_or]
      refine ⟨(htext _ (Nat.mod_lt _ hbase)).symm, ?_⟩
      split
      · exact nonzero_numDigits hbase htext fuel (val / base)
      · simp

theorem nonzero_uartNumber (conv : NumConv) (zeroPad : Bool) (width : Fin 11) (v : BitVec 32) :
    0 ∉ uartNumber conv zeroPad width v := by
  have hdigits : 0 ∉ convDigits conv.text v := by
    rw [convDigits]
    cases conv <;> exact nonzero_numDigits (by decide) (by decide) 32 _
  have hsign : 0 ∉ if isNegative conv.text v then [ascii '-'] else [] := by
    split <;> decide
  have hpad : (0 : UInt8) ≠ if zeroPad then ascii '0' else ascii ' ' := by
    split <;> decide
  simp only [uartNumber, padNum, List.mem_append, List.mem_reverse, List.mem_replicate, not_or]
  exact ⟨hsign, hdigits, fun h => hpad h.2⟩

/-- Only a NUL character puts a NUL into the buffer. -/
theorem nonzero_render {items : List FormatItem}
    (h : ∀ v, .char v ∈ items → v.setWidth 8 ≠ (0 : BitVec 8)) :
    0 ∉ items.flatMap FormatItem.uart := by
  rw [List.mem_flatMap]
  rintro ⟨item, hitem, hmem⟩
  cases item with
  | literal c => exact c.2.1 (List.mem_singleton.mp hmem).symm
  | string s => exact s.nonzero hmem
  | char v =>
      have hzero : (0 : UInt8) = .ofBitVec (v.setWidth 8) := List.mem_singleton.mp hmem
      exact h v hitem (congrArg UInt8.toBitVec hzero).symm
  | number conv zeroPad width v => exact nonzero_uartNumber conv zeroPad width v hmem

/-- A buffer without a NUL is sent as it is. -/
theorem sent_of_nonzero {r : PrintfRun} (h : 0 ∉ r.buffer) : r.sent = r.buffer := by
  have hall : ∀ c ∈ r.buffer, (c != 0) = true := fun c hc => by
    have hne : c ≠ 0 := fun hzero => h (hzero ▸ hc)
    simpa using hne
  rw [PrintfRun.sent, uartPutstr, List.takeWhile_append_of_pos hall]
  simp

theorem nonzero_sent (r : PrintfRun) : 0 ∉ r.sent := fun h => by
  have := List.mem_takeWhile_imp h
  simp at this

/-- The call on a format of items ends with what the firmware renders for them,
and stays in bounds if that leaves room for the NUL. -/
theorem uartPrintf_items (items : List FormatItem) :
    ∃ r, uartPrintf (formatOf items) (argsOf items) = some r ∧
      r.buffer = items.flatMap FormatItem.uart ∧ (r.buffer.length ≤ 127 → r.InBounds) := by
  obtain ⟨r, hloop, hbuffer⟩ := printfLoop_items items {} (Nat.lt_succ_self _)
  obtain ⟨r', hloop', hconsistent, hwithin⟩ :=
    printfLoop_spec (r := {}) (Nat.lt_succ_self _) (argsMatch_formatOf items) rfl
  obtain rfl : r = r' := Option.some.inj (hloop.symm.trans hloop')
  have hbounded : ∀ piece ∈ formatPieces (formatOf items), piece.Bounded := by
    rw [formatPieces_formatOf]
    exact List.forall_mem_map.mpr fun item _ => bounded_piece item
  refine ⟨r.terminate, ?_, hbuffer, fun hlength => ?_⟩
  · exact congrArg (Option.map PrintfRun.terminate) hloop
  · have hstart : PrintfRun.Within {} := ⟨rfl, by simp⟩
    exact (PrintfRun.inBounds_terminate_iff hconsistent).mpr
      ⟨hwithin.mpr ⟨hstart, hbounded⟩, hlength⟩

/-- Where every item agrees, the firmware sends what the standard asks for. -/
theorem uartPrintf_of_agrees {items : List FormatItem} (hagrees : ∀ item ∈ items, item.Agrees)
    (hlength : (isoPrintf items).length ≤ 127) :
    ∃ r, uartPrintf (formatOf items) (argsOf items) = some r ∧ r.InBounds ∧
      r.sent = isoPrintf items := by
  obtain ⟨r, hrun, hbuffer, hbounds⟩ := uartPrintf_items items
  have hiso : r.buffer = isoPrintf items := by
    rw [hbuffer]
    exact List.flatMap_congr fun item hitem => FormatItem.uart_eq_iso (hagrees item hitem)
  have hclean : 0 ∉ r.buffer := by
    rw [hbuffer]
    exact nonzero_render fun v hv => hagrees _ hv
  refine ⟨r, hrun, hbounds (by rw [hiso]; exact hlength), ?_⟩
  rw [sent_of_nonzero hclean, hiso]

/-- What is sent is what the standard asks for only where every item agrees. -/
theorem agrees_of_sent {items : List FormatItem} {r : PrintfRun}
    (hrun : uartPrintf (formatOf items) (argsOf items) = some r)
    (hsent : r.sent = isoPrintf items) : ∀ item ∈ items, item.Agrees := by
  obtain ⟨r', hrun', hbuffer, -⟩ := uartPrintf_items items
  obtain rfl : r = r' := Option.some.inj (hrun.symm.trans hrun')
  have hzero : 0 ∉ isoPrintf items := hsent ▸ nonzero_sent r
  have hclean : 0 ∉ r.buffer := by
    rw [hbuffer]
    refine nonzero_render ?_
    intro v hv hnul
    exact hzero (List.mem_flatMap.mpr ⟨_, hv, by simp [FormatItem.iso, hnul]⟩)
  refine forall_agrees_of_length hzero (Nat.le_of_eq ?_)
  rw [← hsent, sent_of_nonzero hclean, hbuffer]

/-- On formats whose standard rendering has at most 127 characters, the firmware
stays in bounds and sends what the standard asks for exactly when every item
agrees: no NUL character is printed, and no negative number is padded. -/
theorem uartPrintf_iso_iff (items : List FormatItem) (hlength : (isoPrintf items).length ≤ 127) :
    (∃ r, uartPrintf (formatOf items) (argsOf items) = some r ∧ r.InBounds ∧
      r.sent = isoPrintf items) ↔ ∀ item ∈ items, item.Agrees := by
  constructor
  · rintro ⟨r, hrun, -, hsent⟩
    exact agrees_of_sent hrun hsent
  · intro hagrees
    exact uartPrintf_of_agrees hagrees hlength

/-- The format `M%s%d%08x` with a short string, a negative number that is not
padded and a padded one that is not negative. -/
def messageItems : List FormatItem :=
  [.literal ⟨ascii 'M', by decide⟩, .string ⟨[ascii 'O', ascii 'K'], by decide⟩,
    .number .decimal false 0 (-42), .number .lowerHex true 8 0x1a3f]

theorem uartPrintf_messageItems :
    (isoPrintf messageItems).length ≤ 127 ∧
      ∃ r, uartPrintf (formatOf messageItems) (argsOf messageItems) = some r ∧ r.InBounds ∧
        r.sent = isoPrintf messageItems :=
  ⟨by decide +kernel, (uartPrintf_iso_iff messageItems (by decide +kernel)).mpr (by decide +kernel)⟩

/-- The format `%5d` with -42, and `%c` with zero. -/
def paddedNegative : List FormatItem := [.number .decimal false 5 (-42)]
def nulCharacter : List FormatItem := [.char 0]

/-- The padding of a negative number goes behind its sign, and makes it a
character too long. A NUL character ends the output. -/
theorem uartPrintf_iso_fails :
    (isoPrintf paddedNegative = [ascii ' ', ascii ' ', ascii '-', ascii '4', ascii '2'] ∧
      ∃ r, uartPrintf (formatOf paddedNegative) (argsOf paddedNegative) = some r ∧
        r.sent = [ascii '-', ascii ' ', ascii ' ', ascii ' ', ascii '4', ascii '2']) ∧
    (isoPrintf nulCharacter = [0] ∧
      ∃ r, uartPrintf (formatOf nulCharacter) (argsOf nulCharacter) = some r ∧ r.sent = []) := by
  refine ⟨⟨by decide +kernel, _, rfl, by decide +kernel⟩,
    ⟨by decide +kernel, _, rfl, by decide +kernel⟩⟩

end TpmEmulator
