import WorkspaceSync.Bytes

/-!
# Content hashes

XXH3-128 with seed 0 and its standard secret. Up to 240 bytes are hashed by closed formulas, one
for each range of lengths; longer inputs are cut into stripes of 64 bytes that feed eight lanes,
which are scrambled after every sixteenth stripe. `ofBytes` hashes a whole byte string, `Hasher`
one that arrives in chunks, keeping only what the digest still needs.
-/

namespace WorkspaceSync

structure ContentHash where
  low : UInt64
  high : UInt64
  deriving DecidableEq, Repr

namespace ContentHash

/-- Sixteen bytes, least significant first. -/
def toBytes (h : ContentHash) : Bytes := Bytes.ofWord h.low ++ Bytes.ofWord h.high

def toHex (h : ContentHash) : String := Bytes.toHex h.toBytes

/-- The hash that sixteen bytes spell. -/
def ofWords (b : Bytes) : ContentHash := ⟨Bytes.word 8 b, Bytes.word 8 (b.drop 8)⟩

def prime32₁ : UInt64 := 0x9E3779B1
def prime32₂ : UInt64 := 0x85EBCA77
def prime32₃ : UInt64 := 0xC2B2AE3D
def prime64₁ : UInt64 := 0x9E3779B185EBCA87
def prime64₂ : UInt64 := 0xC2B2AE3D27D4EB4F
def prime64₃ : UInt64 := 0x165667B19E3779F9
def prime64₄ : UInt64 := 0x85EBCA77C2B2AE63
def prime64₅ : UInt64 := 0x27D4EB2F165667C5
def mixPrime₁ : UInt64 := 0x165667919E3779F9
def mixPrime₂ : UInt64 := 0x9FB21C651E98DF25

/-- The standard secret of 192 bytes. -/
def secret : Bytes :=
  [0xB8, 0xFE, 0x6C, 0x39, 0x23, 0xA4, 0x4B, 0xBE, 0x7C, 0x01, 0x81, 0x2C, 0xF7, 0x21, 0xAD, 0x1C,
   0xDE, 0xD4, 0x6D, 0xE9, 0x83, 0x90, 0x97, 0xDB, 0x72, 0x40, 0xA4, 0xA4, 0xB7, 0xB3, 0x67, 0x1F,
   0xCB, 0x79, 0xE6, 0x4E, 0xCC, 0xC0, 0xE5, 0x78, 0x82, 0x5A, 0xD0, 0x7D, 0xCC, 0xFF, 0x72, 0x21,
   0xB8, 0x08, 0x46, 0x74, 0xF7, 0x43, 0x24, 0x8E, 0xE0, 0x35, 0x90, 0xE6, 0x81, 0x3A, 0x26, 0x4C,
   0x3C, 0x28, 0x52, 0xBB, 0x91, 0xC3, 0x00, 0xCB, 0x88, 0xD0, 0x65, 0x8B, 0x1B, 0x53, 0x2E, 0xA3,
   0x71, 0x64, 0x48, 0x97, 0xA2, 0x0D, 0xF9, 0x4E, 0x38, 0x19, 0xEF, 0x46, 0xA9, 0xDE, 0xAC, 0xD8,
   0xA8, 0xFA, 0x76, 0x3F, 0xE3, 0x9C, 0x34, 0x3F, 0xF9, 0xDC, 0xBB, 0xC7, 0xC7, 0x0B, 0x4F, 0x1D,
   0x8A, 0x51, 0xE0, 0x4B, 0xCD, 0xB4, 0x59, 0x31, 0xC8, 0x9F, 0x7E, 0xC9, 0xD9, 0x78, 0x73, 0x64,
   0xEA, 0xC5, 0xAC, 0x83, 0x34, 0xD3, 0xEB, 0xC3, 0xC5, 0x81, 0xA0, 0xFF, 0xFA, 0x13, 0x63, 0xEB,
   0x17, 0x0D, 0xDD, 0x51, 0xB7, 0xF0, 0xDA, 0x49, 0xD3, 0x16, 0x55, 0x26, 0x29, 0xD4, 0x68, 0x9E,
   0x2B, 0x16, 0xBE, 0x58, 0x7D, 0x47, 0xA1, 0xFC, 0x8F, 0xF8, 0xB8, 0xD1, 0x7A, 0xD0, 0x31, 0xCE,
   0x45, 0xCB, 0x3A, 0x8F, 0x95, 0x16, 0x04, 0x28, 0xAF, 0xD7, 0xFB, 0xCA, 0xBB, 0x4B, 0x40, 0x7E]

def secretWord (offset : Nat) : UInt64 := Bytes.word 8 (secret.drop offset)

/-- The low and the high word of a product. -/
def wideMul (a b : UInt64) : UInt64 × UInt64 :=
  let p := a.toNat * b.toNat
  (UInt64.ofNat p, UInt64.ofNat (p >>> 64))

def foldMul (a b : UInt64) : UInt64 :=
  let (lo, hi) := wideMul a b
  lo ^^^ hi

def xorShift (h : UInt64) (n : UInt64) : UInt64 := h ^^^ (h >>> n)

/-- Spreads every bit over the word; used where one multiplication came before. -/
def avalanche (h : UInt64) : UInt64 := xorShift (xorShift h 37 * mixPrime₁) 32

/-- Spreads every bit over the word; used where no multiplication came before. -/
def avalancheRaw (h : UInt64) : UInt64 :=
  xorShift (xorShift (xorShift h 33 * prime64₂) 29 * prime64₃) 32

/-- The `n` low bytes of a word in opposite order. -/
def swapBytes (n : Nat) (w : UInt64) : UInt64 := Bytes.word n ((Bytes.ofWord w).take n).reverse

def emptyHash : ContentHash :=
  ⟨avalancheRaw (secretWord 64 ^^^ secretWord 72), avalancheRaw (secretWord 80 ^^^ secretWord 88)⟩

/-- One to three bytes. -/
def tinyHash (b : Bytes) : ContentHash :=
  let n := b.length
  let byteAt (i : Nat) : UInt64 := (b.getD i 0).toUInt64
  let lo := byteAt 0 <<< 16 ||| byteAt (n / 2) <<< 24 ||| byteAt (n - 1) ||| UInt64.ofNat n <<< 8
  let swapped := swapBytes 4 lo
  let hi := (swapped <<< 13 ||| swapped >>> 19) &&& 0xFFFFFFFF
  let key (offset : Nat) : UInt64 :=
    Bytes.word 4 (secret.drop offset) ^^^ Bytes.word 4 (secret.drop (offset + 4))
  ⟨avalancheRaw (lo ^^^ key 0), avalancheRaw (hi ^^^ key 8)⟩

/-- Four to eight bytes. -/
def wordHash (b : Bytes) : ContentHash :=
  let n := b.length
  let input := Bytes.word 4 b + Bytes.word 4 (b.drop (n - 4)) <<< 32
  let keyed := input ^^^ (secretWord 16 ^^^ secretWord 24)
  let (lo, hi) := wideMul keyed (prime64₁ + UInt64.ofNat n <<< 2)
  let hi := hi + lo <<< 1
  let lo := xorShift (xorShift (lo ^^^ hi >>> 3) 35 * mixPrime₂) 28
  ⟨lo, avalanche hi⟩

/-- Nine to sixteen bytes. -/
def pairHash (b : Bytes) : ContentHash :=
  let n := b.length
  let first := Bytes.word 8 b
  let last := Bytes.word 8 (b.drop (n - 8))
  let (lo, hi) := wideMul (first ^^^ last ^^^ (secretWord 32 ^^^ secretWord 40)) prime64₁
  let lo := lo + UInt64.ofNat (n - 1) <<< 54
  let last := last ^^^ (secretWord 48 ^^^ secretWord 56)
  let hi := hi + last + (last &&& 0xFFFFFFFF) * (prime32₂ - 1)
  let lo := lo ^^^ swapBytes 8 hi
  let (lo', hi') := wideMul lo prime64₂
  ⟨avalanche lo', avalanche (hi' + hi * prime64₂)⟩

/-- Mixes the sixteen bytes at the front of `b` with the secret at an offset. -/
def mix16 (b : Bytes) (offset : Nat) : UInt64 :=
  foldMul (Bytes.word 8 b ^^^ secretWord offset)
    (Bytes.word 8 (b.drop 8) ^^^ secretWord (offset + 8))

/-- Mixes sixteen bytes from each of two places into a running pair. -/
def mix32 (acc : ContentHash) (a b : Bytes) (offset : Nat) : ContentHash :=
  let lo := (acc.low + mix16 a offset) ^^^ (Bytes.word 8 b + Bytes.word 8 (b.drop 8))
  let hi := (acc.high + mix16 b (offset + 16)) ^^^ (Bytes.word 8 a + Bytes.word 8 (a.drop 8))
  ⟨lo, hi⟩

def finishPair (n : Nat) (acc : ContentHash) : ContentHash :=
  let hi := acc.low * prime64₁ + acc.high * prime64₄ + UInt64.ofNat n * prime64₂
  ⟨avalanche (acc.low + acc.high), 0 - avalanche hi⟩

/-- Seventeen to 128 bytes: pairs of pieces from the two ends, from the middle outwards. -/
def mediumHash (b : Bytes) : ContentHash :=
  let n := b.length
  let rounds := (n - 1) / 32
  finishPair n <| (List.range (rounds + 1)).reverse.foldl
    (fun acc i => mix32 acc (b.drop (16 * i)) (b.drop (n - 16 * (i + 1))) (32 * i))
    ⟨UInt64.ofNat n * prime64₁, 0⟩

/-- From 129 to 240 bytes: pieces of 32 bytes in order, and the last 32 once more. -/
def largeHash (b : Bytes) : ContentHash :=
  let n := b.length
  let piece (shift : Nat) (acc : ContentHash) (i : Nat) : ContentHash :=
    mix32 acc (b.drop (32 * i)) (b.drop (32 * i + 16)) (32 * i - shift)
  let first := (List.range 4).foldl (piece 0) ⟨UInt64.ofNat n * prime64₁, 0⟩
  let spread : ContentHash := ⟨avalanche first.low, avalanche first.high⟩
  let acc := ((List.range (n / 32)).drop 4).foldl (piece 125) spread
  finishPair n (mix32 acc (b.drop (n - 16)) (b.drop (n - 32)) 103)

/-- The most bytes that a closed formula hashes. -/
def shortLimit : Nat := 240

def ofShort (b : Bytes) : ContentHash :=
  let n := b.length
  if n = 0 then emptyHash
  else if n ≤ 3 then tinyHash b
  else if n ≤ 8 then wordHash b
  else if n ≤ 16 then pairHash b
  else if n ≤ 128 then mediumHash b
  else largeHash b

def swapPairs : List UInt64 → List UInt64
  | a :: b :: rest => b :: a :: swapPairs rest
  | rest => rest

/-- The eight words of a stripe, or of the secret from an offset. -/
def stripeWords (b : Bytes) : List UInt64 :=
  (List.range 8).map fun i => Bytes.word 8 (b.drop (8 * i))

/-- The product of the two halves of a word keyed by the secret. -/
def keyedProduct (word key : UInt64) : UInt64 :=
  let k := word ^^^ key
  let low := k &&& 0xFFFFFFFF
  low * (k >>> 32)

/-- Adds to each lane its neighbour's word and its own keyed product. -/
def accumulate (lanes : List UInt64) (stripe : Bytes) (offset : Nat) : List UInt64 :=
  let words := stripeWords stripe
  let products := List.zipWith keyedProduct words (stripeWords (secret.drop offset))
  List.zipWith (· + ·) lanes (List.zipWith (· + ·) (swapPairs words) products)

def scramble (lanes : List UInt64) : List UInt64 :=
  List.zipWith (fun a s => (xorShift a 47 ^^^ s) * prime32₁) lanes
    (stripeWords (secret.drop 128))

/-- The lanes, and how many stripes of the current block of sixteen they have taken in. -/
structure Lanes where
  words : List UInt64
  taken : Nat
  deriving DecidableEq

namespace Lanes

def start : Lanes :=
  ⟨[prime32₃, prime64₁, prime64₂, prime64₃, prime64₄, prime32₂, prime64₅, prime32₁], 0⟩

def take (s : Lanes) (stripe : Bytes) : Lanes :=
  let words := accumulate s.words stripe (8 * s.taken)
  if s.taken + 1 = 16 then ⟨scramble words, 0⟩ else ⟨words, s.taken + 1⟩

/-- Takes in whole stripes as long as something follows them, and returns what is left. -/
def takeAll (s : Lanes) (b : Bytes) : Lanes × Bytes :=
  if h : b.drop 64 = [] then (s, b)
  else
    have : (b.drop 64).length < b.length := by
      have := List.length_pos_iff.2 h
      simp only [List.length_drop] at *
      omega
    (s.take (b.take 64)).takeAll (b.drop 64)
termination_by b.length

def sumProducts : List UInt64 → UInt64 → UInt64
  | a :: b :: rest, acc => sumProducts rest (acc + foldMul a b)
  | _, acc => acc

def merge (words : List UInt64) (offset : Nat) (acc : UInt64) : UInt64 :=
  avalanche (sumProducts (List.zipWith (· ^^^ ·) words (stripeWords (secret.drop offset))) acc)

/-- The hash of `n` bytes whose last 64 are `last`. -/
def finish (s : Lanes) (last : Bytes) (n : Nat) : ContentHash :=
  let words := accumulate s.words last 121
  let len := UInt64.ofNat n
  ⟨merge words 11 (len * prime64₁), merge words 117 (~~~(len * prime64₂))⟩

end Lanes

/-- The hash of a whole byte string. -/
def ofBytes (b : Bytes) : ContentHash :=
  if b.length ≤ shortLimit then ofShort b
  else (Lanes.start.takeAll b).1.finish (Bytes.takeLast 64 b) b.length

/-- What must be kept of the bytes seen so far: as many as a closed formula can hash, the lanes,
the bytes that no stripe has taken in yet and the last 64. -/
structure Hasher where
  length : Nat
  head : Bytes
  lanes : Lanes
  pending : Bytes
  last : Bytes

namespace Hasher

def start : Hasher := ⟨0, [], Lanes.start, [], []⟩

def update (h : Hasher) (chunk : Bytes) : Hasher :=
  let (lanes, pending) := h.lanes.takeAll (h.pending ++ chunk)
  { length := h.length + chunk.length
    head := (h.head ++ chunk).take shortLimit
    lanes, pending
    last := Bytes.takeLast 64 (h.last ++ chunk) }

def digest (h : Hasher) : ContentHash :=
  if h.length ≤ shortLimit then ofShort h.head else h.lanes.finish h.last h.length

end Hasher

/-- What one attempt to read on delivers. An empty chunk is the end of the input, and so is the end of
the list of attempts. -/
inductive ReadEvent (ε : Type) where
  | chunk (b : Bytes)
  | interrupted
  | failed (e : ε)

/-- The hash of what a reader delivers: an interrupted attempt is repeated, any other failure ends
the reading. -/
def ofReader {ε : Type} : List (ReadEvent ε) → Except ε ContentHash :=
  go Hasher.start
where
  go (h : Hasher) : List (ReadEvent ε) → Except ε ContentHash
    | [] => .ok h.digest
    | .chunk b :: rest => if b = [] then .ok h.digest else go (h.update b) rest
    | .interrupted :: rest => go h rest
    | .failed e :: _ => .error e

end ContentHash

end WorkspaceSync
