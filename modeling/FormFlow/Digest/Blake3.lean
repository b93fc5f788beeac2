import FormFlow.Json.Printer

/-!
# BLAKE3

The hash of a list of bytes, 32 bytes long. The input is cut into chunks of 1024 bytes, and a
chunk into blocks of 64. Compressing the blocks of a chunk one after the other leaves its
last block to be compressed, as an `Output`. Outputs are paired, left to right, until one is
left; an output without a partner goes up a level as it is. The last one is the root and is
compressed as such.
-/

set_option autoImplicit false

namespace FormFlow

namespace Blake3

/-- A chaining value. -/
abbrev Chain := Vector UInt32 8

/-- The words of a block. -/
abbrev Block := Vector UInt32 16

/-- The initial chaining value. -/
def initial : Chain :=
  #v[0x6A09E667, 0xBB67AE85, 0x3C6EF372, 0xA54FF53A, 0x510E527F, 0x9B05688C, 0x1F83D9AB,
    0x5BE0CD19]

/-- Where each word of a block comes from in the next round. -/
def permutation : Vector (Fin 16) 16 :=
  #v[2, 6, 3, 10, 7, 0, 4, 13, 1, 11, 12, 5, 9, 14, 15, 8]

/-- The first block of a chunk. -/
def chunkStart : UInt32 := 1

/-- The last block of a chunk. -/
def chunkEnd : UInt32 := 2

/-- A pair of outputs. -/
def parent : UInt32 := 4

/-- The root. -/
def root : UInt32 := 8

/-- Rotates a word to the right by fewer than 32 bits. -/
def rotateRight (word count : UInt32) : UInt32 := (word >>> count) ||| (word <<< (32 - count))

/-- Mixes four words of the state with two words of the block. -/
def mix (state : Block) (a b c d : Fin 16) (x y : UInt32) : Block :=
  let a1 := state[a] + state[b] + x
  let d1 := rotateRight (state[d] ^^^ a1) 16
  let c1 := state[c] + d1
  let b1 := rotateRight (state[b] ^^^ c1) 12
  let a2 := a1 + b1 + y
  let d2 := rotateRight (d1 ^^^ a2) 8
  let c2 := c1 + d2
  let b2 := rotateRight (b1 ^^^ c2) 7
  (((state.set a a2).set b b2).set c c2).set d d2

/-- Mixes the columns of the state and then its diagonals. -/
def round (state block : Block) : Block :=
  let s1 := mix state 0 4 8 12 block[0] block[1]
  let s2 := mix s1 1 5 9 13 block[2] block[3]
  let s3 := mix s2 2 6 10 14 block[4] block[5]
  let s4 := mix s3 3 7 11 15 block[6] block[7]
  let s5 := mix s4 0 5 10 15 block[8] block[9]
  let s6 := mix s5 1 6 11 12 block[10] block[11]
  let s7 := mix s6 2 7 8 13 block[12] block[13]
  mix s7 3 4 9 14 block[14] block[15]

/-- The block of the next round. -/
def permute (block : Block) : Block := permutation.map fun source => block[source]

/-- Applies a number of rounds, with the block permuted between them. -/
def rounds : Nat → Block → Block → Block
  | 0, state, _ => state
  | count + 1, state, block => rounds count (round state block) (permute block)

/-- What is left to be compressed of a chunk or a pair. -/
structure Output where
  chain : Chain
  block : Block
  counter : Nat
  length : Nat
  flags : UInt32
deriving Inhabited

/-- Compresses an output to a chaining value. -/
def Output.compress (output : Output) (extra : UInt32) : Chain :=
  let h := output.chain
  let state : Block :=
    #v[h[0], h[1], h[2], h[3], h[4], h[5], h[6], h[7],
      initial[0], initial[1], initial[2], initial[3],
      output.counter.toUInt32, (output.counter / Nat.pow 2 32).toUInt32, output.length.toUInt32,
      output.flags ||| extra]
  let mixed := rounds 7 state output.block
  #v[mixed[0] ^^^ mixed[8], mixed[1] ^^^ mixed[9], mixed[2] ^^^ mixed[10],
    mixed[3] ^^^ mixed[11], mixed[4] ^^^ mixed[12], mixed[5] ^^^ mixed[13],
    mixed[6] ^^^ mixed[14], mixed[7] ^^^ mixed[15]]

/-- The word that four bytes write, the least first; bytes that are not there are zero. -/
def wordAt (bytes : Array UInt8) (position : Nat) : UInt32 :=
  (bytes.getD position 0).toUInt32 |||
    ((bytes.getD (position + 1) 0).toUInt32 <<< 8) |||
    ((bytes.getD (position + 2) 0).toUInt32 <<< 16) |||
    ((bytes.getD (position + 3) 0).toUInt32 <<< 24)

/-- The words of a block of at most 64 bytes. -/
def blockOf (bytes : List UInt8) : Block :=
  let array := bytes.toArray
  Vector.ofFn fun index => wordAt array (4 * index.val)

/-- Cuts a list into pieces of a length, the last one possibly shorter. The empty list is one
empty piece. -/
def pieces (length : Nat) : (fuel : Nat) → List UInt8 → List (List UInt8)
  | 0, bytes => [bytes]
  | fuel + 1, bytes =>
    if bytes.length ≤ length then [bytes]
    else bytes.take length :: pieces length fuel (bytes.drop length)

/-- The output of a chunk from its blocks. -/
def chunkBlocks (counter : Nat) (flags : UInt32) (chain : Chain) :
    List (List UInt8) → Output
  | [] => ⟨chain, blockOf [], counter, 0, flags ||| chunkEnd⟩
  | [last] => ⟨chain, blockOf last, counter, last.length, flags ||| chunkEnd⟩
  | block :: rest =>
    let output : Output := ⟨chain, blockOf block, counter, block.length, flags⟩
    chunkBlocks counter 0 (output.compress 0) rest

/-- The output of a chunk. -/
def chunkOutput (bytes : List UInt8) (counter : Nat) : Output :=
  chunkBlocks counter chunkStart initial (pieces 64 16 bytes)

/-- The output of a pair. -/
def pairOutput (left right : Output) : Output :=
  ⟨initial, left.compress 0 ++ right.compress 0, 0, 64, parent⟩

/-- Pairs neighbours. -/
def pairUp : List Output → List Output
  | left :: right :: rest => pairOutput left right :: pairUp rest
  | rest => rest

/-- Pairs outputs until one is left. Each round removes at least one. -/
def rootOf : (fuel : Nat) → List Output → Output
  | _, [] => chunkOutput [] 0
  | _, [single] => single
  | 0, first :: _ => first
  | fuel + 1, outputs => rootOf fuel (pairUp outputs)

/-- The hash of some bytes, as eight words. -/
def hash (bytes : List UInt8) : Chain :=
  let outputs := (pieces 1024 bytes.length bytes).zipIdx.map fun chunk =>
    chunkOutput chunk.1 chunk.2
  (rootOf outputs.length outputs).compress root

/-- A byte in hexadecimal. -/
def hexByte (byte : Nat) : List Char := [Json.hexDigit (byte / 16), Json.hexDigit (byte % 16)]

/-- A word in hexadecimal, the least byte first. -/
def hexWord (word : UInt32) : List Char :=
  let value := word.toNat
  hexByte (value % 256) ++ hexByte (value / 256 % 256) ++ hexByte (value / 65536 % 256) ++
    hexByte (value / 16777216 % 256)

/-- The hash of a text in hexadecimal. -/
def hexOfText (text : String) : String :=
  String.ofList ((hash text.toUTF8.toList).toList.flatMap hexWord)

end Blake3

end FormFlow
