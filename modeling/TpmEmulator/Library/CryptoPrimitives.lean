import Mathlib.Algebra.Order.Ring.Nat
import Mathlib.Tactic.Common

/-!
Executable cryptographic primitives: SHA-256 with its HMAC, the AES block cipher and
multiples of the P-256 base point. They serve to run a program that calls them on a
concrete input, so words, blocks and field elements are natural numbers, which a
proof can evaluate.
-/
namespace CryptoPrimitives

/-- Evaluates its argument and goes on with the value. Without it a proof that
evaluates a round would carry unevaluated words into the next one. -/
def force {α : Type} (n : Nat) (next : Nat → α) : α :=
  match n with
  | 0 => next 0
  | n + 1 => next (n + 1)

/-- The number with the given big-endian bytes. -/
def ofBytes (bytes : List UInt8) : Nat := bytes.foldl (fun n b => n * 2 ^ 8 + b.toNat) 0

/-- The `n` big-endian bytes of a number. -/
def toBytes (n value : Nat) : List UInt8 :=
  (List.range n).map fun i => UInt8.ofNat (value >>> (8 * (n - 1 - i)))

/-! SHA-256. Words are numbers below 2 ^ 32, and a digest is the number whose 32
big-endian bytes it is. -/

namespace Sha256

def rotr (x n : Nat) : Nat := (x >>> n ||| x <<< (32 - n)) % 2 ^ 32

def roundConstants : List Nat :=
  [0x428a2f98, 0x71374491, 0xb5c0fbcf, 0xe9b5dba5, 0x3956c25b, 0x59f111f1, 0x923f82a4,
   0xab1c5ed5, 0xd807aa98, 0x12835b01, 0x243185be, 0x550c7dc3, 0x72be5d74, 0x80deb1fe,
   0x9bdc06a7, 0xc19bf174, 0xe49b69c1, 0xefbe4786, 0x0fc19dc6, 0x240ca1cc, 0x2de92c6f,
   0x4a7484aa, 0x5cb0a9dc, 0x76f988da, 0x983e5152, 0xa831c66d, 0xb00327c8, 0xbf597fc7,
   0xc6e00bf3, 0xd5a79147, 0x06ca6351, 0x14292967, 0x27b70a85, 0x2e1b2138, 0x4d2c6dfc,
   0x53380d13, 0x650a7354, 0x766a0abb, 0x81c2c92e, 0x92722c85, 0xa2bfe8a1, 0xa81a664b,
   0xc24b8b70, 0xc76c51a3, 0xd192e819, 0xd6990624, 0xf40e3585, 0x106aa070, 0x19a4c116,
   0x1e376c08, 0x2748774c, 0x34b0bcb5, 0x391c0cb3, 0x4ed8aa4a, 0x5b9cca4f, 0x682e6ff3,
   0x748f82ee, 0x78a5636f, 0x84c87814, 0x8cc70208, 0x90befffa, 0xa4506ceb, 0xbef9a3f7,
   0xc67178f2]

/-- The eight working variables. -/
structure Working where
  a : Nat
  b : Nat
  c : Nat
  d : Nat
  e : Nat
  f : Nat
  g : Nat
  h : Nat

def initial : Working where
  a := 0x6a09e667
  b := 0xbb67ae85
  c := 0x3c6ef372
  d := 0xa54ff53a
  e := 0x510e527f
  f := 0x9b05688c
  g := 0x1f83d9ab
  h := 0x5be0cd19

/-- One round with the constant `k` and the message word `w`. -/
def Working.round {α : Type} (v : Working) (k w : Nat) (next : Working → α) : α :=
  let s1 := rotr v.e 6 ^^^ rotr v.e 11 ^^^ rotr v.e 25
  let ch := (v.e &&& v.f) ^^^ ((2 ^ 32 - 1 - v.e) &&& v.g)
  let s0 := rotr v.a 2 ^^^ rotr v.a 13 ^^^ rotr v.a 22
  let maj := (v.a &&& v.b) ^^^ (v.a &&& v.c) ^^^ (v.b &&& v.c)
  force (v.h + s1 + ch + k + w) fun t1 =>
  force ((t1 + s0 + maj) % 2 ^ 32) fun a =>
  force ((v.d + t1) % 2 ^ 32) fun e =>
  next ⟨a, v.a, v.b, v.c, e, v.e, v.f, v.g⟩

/-- Word `i` of the sixteen words of `window`, the first of them the most
significant. -/
def word (window i : Nat) : Nat := window >>> (480 - 32 * i) % 2 ^ 32

/-- The message word after the sixteen words of `window`. -/
def nextWord (window : Nat) : Nat :=
  let x := word window 1
  let y := word window 14
  let s0 := rotr x 7 ^^^ rotr x 18 ^^^ x >>> 3
  let s1 := rotr y 17 ^^^ rotr y 19 ^^^ y >>> 10
  (word window 0 + s0 + word window 9 + s1) % 2 ^ 32

/-- The rounds of one block; `window` holds the next sixteen message words. -/
def rounds : List Nat → Nat → Working → Working
  | [], _, v => v
  | k :: ks, window, v =>
      v.round k (word window 0) fun v =>
      force (window * 2 ^ 32 % 2 ^ 512 + nextWord window) fun window =>
      rounds ks window v

def Working.add {α : Type} (v w : Working) (next : Working → α) : α :=
  force ((v.a + w.a) % 2 ^ 32) fun a =>
  force ((v.b + w.b) % 2 ^ 32) fun b =>
  force ((v.c + w.c) % 2 ^ 32) fun c =>
  force ((v.d + w.d) % 2 ^ 32) fun d =>
  force ((v.e + w.e) % 2 ^ 32) fun e =>
  force ((v.f + w.f) % 2 ^ 32) fun f =>
  force ((v.g + w.g) % 2 ^ 32) fun g =>
  force ((v.h + w.h) % 2 ^ 32) fun h =>
  next ⟨a, b, c, d, e, f, g, h⟩

def Working.digest (v : Working) : Nat :=
  [v.a, v.b, v.c, v.d, v.e, v.f, v.g, v.h].foldl (fun n w => n * 2 ^ 32 + w) 0

/-- The message, a one bit, zeros, and the length of the message in bits. -/
def pad (message : List UInt8) : List UInt8 :=
  message ++ [0x80] ++ List.replicate ((119 - message.length % 64) % 64) 0 ++
    toBytes 8 (8 * message.length)

/-- The digest after the first `count` blocks of `padded` have followed `v`. -/
def blocks (padded : List UInt8) : Nat → Working → Nat
  | 0, v => v.digest
  | count + 1, v =>
      force (ofBytes (padded.take 64)) fun window =>
      (rounds roundConstants window v).add v fun v =>
      blocks (padded.drop 64) count v

def hash (message : List UInt8) : Nat := blocks (pad message) ((pad message).length / 64) initial

def hmac (key message : List UInt8) : Nat :=
  let key := if 64 < key.length then toBytes 32 (hash key) else key
  let block := key ++ List.replicate (64 - key.length) 0
  force (hash (block.map (· ^^^ 0x36) ++ message)) fun inner =>
  hash (block.map (· ^^^ 0x5c) ++ toBytes 32 inner)

example : hash [0x61, 0x62, 0x63] =
    0xba7816bf8f01cfea414140de5dae2223b00361a396177a9cb410ff61f20015ad := by
  decide +kernel

end Sha256

/-! AES. A column of the state and a word of the key are numbers below 2 ^ 32, the
first byte the most significant. -/

namespace Aes

/-- The rows of the S-box: sixteen bytes each, as one number. -/
def sboxRows : List Nat :=
  [0x637c777bf26b6fc53001672bfed7ab76,
   0xca82c97dfa5947f0add4a2af9ca472c0,
   0xb7fd9326363ff7cc34a5e5f171d83115,
   0x04c723c31896059a071280e2eb27b275,
   0x09832c1a1b6e5aa0523bd6b329e32f84,
   0x53d100ed20fcb15b6acbbe394a4c58cf,
   0xd0efaafb434d338545f9027f503c9fa8,
   0x51a3408f929d38f5bcb6da2110fff3d2,
   0xcd0c13ec5f974417c4a77e3d645d1973,
   0x60814fdc222a908846eeb814de5e0bdb,
   0xe0323a0a4906245cc2d3ac629195e479,
   0xe7c8376d8dd54ea96c56f4ea657aae08,
   0xba78252e1ca6b4c6e8dd741f4bbd8b8a,
   0x703eb5664803f60e613557b986c11d9e,
   0xe1f8981169d98e949b1e87e9ce5528df,
   0x8ca1890dbfe6426841992d0fb054bb16]

def sbox (x : Nat) : Nat := sboxRows.getD (x / 16) 0 >>> (8 * (15 - x % 16)) % 2 ^ 8

def byte (w i : Nat) : Nat := w >>> (24 - 8 * i) % 2 ^ 8

def ofByteFn (b : Nat → Nat) : Nat := ((b 0 * 2 ^ 8 + b 1) * 2 ^ 8 + b 2) * 2 ^ 8 + b 3

def subWord (w : Nat) : Nat := ofByteFn fun i => sbox (byte w i)

def rotWord (w : Nat) : Nat := w * 2 ^ 8 % 2 ^ 32 + byte w 0

/-- Multiplication by the polynomial x. -/
def xtime (x : Nat) : Nat := (x * 2 ^^^ if x < 2 ^ 7 then 0 else 0x11b) % 2 ^ 8

/-- The round constant of the given round. -/
def rcon : Nat → Nat
  | 0 => 0
  | 1 => 1
  | n + 1 => xtime (rcon n)

/-- The word of the key schedule after `window`, the last `nk` words. -/
def nextKeyWord (nk i : Nat) (window : List Nat) : Nat :=
  let last := window.getLastD 0
  window.headD 0 ^^^
    if i % nk = 0 then subWord (rotWord last) ^^^ rcon (i / nk) * 2 ^ 24
    else if 6 < nk ∧ i % nk = 4 then subWord last
    else last

/-- `fuel` words of the key schedule from word `i` on. -/
def keySchedule (nk : Nat) : Nat → Nat → List Nat → List Nat
  | 0, _, _ => []
  | fuel + 1, i, window =>
      force (nextKeyWord nk i window) fun w =>
      w :: keySchedule nk fuel (i + 1) (window.tail ++ [w])

/-- The key's own words, followed by the words derived from them. -/
def expandKey (key : List UInt8) : List Nat :=
  let nk := key.length / 4
  let words := (List.range nk).map fun i => ofBytes ((key.drop (4 * i)).take 4)
  words ++ keySchedule nk (4 * (nk + 7) - nk) nk words

def mixColumn (w : Nat) : Nat :=
  ofByteFn fun i =>
    let b := fun j => byte w ((i + j) % 4)
    xtime (b 0) ^^^ xtime (b 1) ^^^ b 1 ^^^ b 2 ^^^ b 3

/-- The four columns of the state. -/
structure Columns where
  c0 : Nat
  c1 : Nat
  c2 : Nat
  c3 : Nat

/-- The shifted rows of the substituted state, mixed by `mix`, and the round key. -/
def Columns.round {α : Type} (v : Columns) (mix : Nat → Nat) (key : List Nat)
    (next : Columns → α) : α :=
  let column := fun a b c d => mix (ofByteFn fun i =>
    sbox (byte (if i = 0 then a else if i = 1 then b else if i = 2 then c else d) i))
  force (column v.c0 v.c1 v.c2 v.c3 ^^^ key.getD 0 0) fun c0 =>
  force (column v.c1 v.c2 v.c3 v.c0 ^^^ key.getD 1 0) fun c1 =>
  force (column v.c2 v.c3 v.c0 v.c1 ^^^ key.getD 2 0) fun c2 =>
  force (column v.c3 v.c0 v.c1 v.c2 ^^^ key.getD 3 0) fun c3 =>
  next ⟨c0, c1, c2, c3⟩

def Columns.toNat (v : Columns) : Nat :=
  ((v.c0 * 2 ^ 32 + v.c1) * 2 ^ 32 + v.c2) * 2 ^ 32 + v.c3

/-- The rounds for the rest of the key schedule; the last one mixes no columns. -/
def rounds : Nat → List Nat → Columns → Nat
  | 0, key, v => v.round id key Columns.toNat
  | n + 1, key, v => v.round mixColumn key fun v => rounds n (key.drop 4) v

/-- The block under a key of 16, 24 or 32 bytes, as a number of 128 bits. -/
def encryptBlock (key block : List UInt8) : Nat :=
  let w := expandKey key
  let column := fun i => ofBytes ((block.drop (4 * i)).take 4) ^^^ w.getD i 0
  rounds (key.length / 4 + 5) (w.drop 4) ⟨column 0, column 1, column 2, column 3⟩

example : encryptBlock ((List.range 32).map UInt8.ofNat)
    (toBytes 16 0x00112233445566778899aabbccddeeff) = 0x8ea2b7ca516745bfeafc49904b496089 := by
  decide +kernel

end Aes

/-! P-256. A point is a pair of affine coordinates, or `none` at infinity. -/

namespace P256

def p : Nat := 2 ^ 256 - 2 ^ 224 + 2 ^ 192 + 2 ^ 96 - 1

def base : Nat × Nat :=
  (0x6b17d1f2e12c4247f8bce6e563a440f277037d812deb33a0f4a13945d898c296,
    0x4fe342e2fe1a7f9b8ee7eb4a7c0f9e162bce33576b315ececbb6406837bf51f5)

/-- The power of `x` modulo `p` by squaring, for exponents below 2 ^ `bits`. -/
def powMod (x exponent : Nat) : Nat → Nat
  | 0 => 1
  | bits + 1 =>
      force (powMod x (exponent / 2) bits) fun r =>
      if exponent % 2 = 1 then r * r * x % p else r * r % p

def inverse (x : Nat) : Nat := powMod x (p - 2) 256

/-- The third point of the line of the given slope, reflected. -/
def chord (slope x y x' : Nat) : Nat × Nat :=
  let x'' := (slope * slope + 2 * p - x - x') % p
  (x'', (slope * (x + p - x'') + p - y) % p)

def add : Option (Nat × Nat) → Option (Nat × Nat) → Option (Nat × Nat)
  | none, q => q
  | q, none => q
  | some (x, y), some (x', y') =>
      if x = x' then
        if y = y' ∧ y ≠ 0 then
          some (chord ((3 * x * x + (p - 3)) * inverse (2 * y % p) % p) x y x')
        else none
      else some (chord ((y' + p - y) * inverse ((x' + p - x) % p) % p) x y x')

/-- The multiple of the base point for scalars below 2 ^ `bits`. -/
def baseMul (k : Nat) : Nat → Option (Nat × Nat)
  | 0 => none
  | bits + 1 =>
      let q := baseMul (k / 2) bits
      let q := add q q
      if k % 2 = 1 then add q (some base) else q

example : baseMul 2 256 =
    some (0x7cf27b188d034f7e8a52380304b51ac3c08969e277f21b35a60b48fc47669978,
      0x07775510db8ed040293d9ac69f7430dbba7dade63ce982299e04b79d227873d1) := by
  decide +kernel

end P256

end CryptoPrimitives
