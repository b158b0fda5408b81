/-!
# BLAKE3

`Blake3.hash` is the 256-bit BLAKE3 hash of a string of bytes. The bytes are
cut into chunks of 1024 and the chunks into blocks of 64. Within a chunk the
blocks are compressed one after the other; the chunks are the leaves of a binary
tree whose left subtrees are complete. What a node has to compress last is kept
as a `Node`, because the compression at the root differs from all others by a
flag.
-/

namespace Blackboard.Blake3

/-- Eight words that are carried from one compression to the next. -/
abbrev Chaining := Vector UInt32 8

/-- Sixteen words that are compressed. -/
abbrev Block := Vector UInt32 16

def initial : Chaining :=
  #v[0x6A09E667, 0xBB67AE85, 0x3C6EF372, 0xA54FF53A, 0x510E527F, 0x9B05688C, 0x1F83D9AB, 0x5BE0CD19]

def chunkStart : UInt32 := 1
def chunkEnd : UInt32 := 2
def parentNode : UInt32 := 4
def rootNode : UInt32 := 8

def rotateRight (word places : UInt32) : UInt32 := (word >>> places) ||| (word <<< (32 - places))

/-- Mixes two words of a message into four words of the state. -/
def mix (v : Block) (a b c d : Fin 16) (x y : UInt32) : Block :=
  let a₁ := v[a] + v[b] + x
  let d₁ := rotateRight (v[d] ^^^ a₁) 16
  let c₁ := v[c] + d₁
  let b₁ := rotateRight (v[b] ^^^ c₁) 12
  let a₂ := a₁ + b₁ + y
  let d₂ := rotateRight (d₁ ^^^ a₂) 8
  let c₂ := c₁ + d₂
  let b₂ := rotateRight (b₁ ^^^ c₂) 7
  (((v.set a a₂).set b b₂).set c c₂).set d d₂

/-- Mixes a message into the columns of the state, then into its diagonals. -/
def round (v m : Block) : Block :=
  let v := mix v 0 4 8 12 m[0] m[1]
  let v := mix v 1 5 9 13 m[2] m[3]
  let v := mix v 2 6 10 14 m[4] m[5]
  let v := mix v 3 7 11 15 m[6] m[7]
  let v := mix v 0 5 10 15 m[8] m[9]
  let v := mix v 1 6 11 12 m[10] m[11]
  let v := mix v 2 7 8 13 m[12] m[13]
  mix v 3 4 9 14 m[14] m[15]

/-- The order of the words of the message in the next round. -/
def permute (m : Block) : Block :=
  #v[m[2], m[6], m[3], m[10], m[7], m[0], m[4], m[13],
     m[1], m[11], m[12], m[5], m[9], m[14], m[15], m[8]]

/-- Mixes for a number of rounds, permuting the message between them. -/
def rounds : Nat → Block → Block → Block
  | 0, v, _ => v
  | count + 1, v, m => rounds count (round v m) (permute m)

/-- Compresses a block of `length` bytes into the chaining value. -/
def compress (h : Chaining) (m : Block) (counter : UInt64) (length flags : UInt32) : Chaining :=
  let v : Block :=
    #v[h[0], h[1], h[2], h[3], h[4], h[5], h[6], h[7],
       initial[0], initial[1], initial[2], initial[3],
       counter.toUInt32, (counter >>> 32).toUInt32, length, flags]
  let v := rounds 7 v m
  #v[v[0] ^^^ v[8], v[1] ^^^ v[9], v[2] ^^^ v[10], v[3] ^^^ v[11],
     v[4] ^^^ v[12], v[5] ^^^ v[13], v[6] ^^^ v[14], v[7] ^^^ v[15]]

/-- The last compression of a chunk or of an inner node. -/
structure Node where
  chaining : Chaining
  block : Block
  counter : UInt64 := 0
  length : UInt32 := 64
  flags : UInt32

/-- The chaining value of a node. -/
def Node.value (node : Node) : Chaining :=
  compress node.chaining node.block node.counter node.length node.flags

/-- The node above two nodes. -/
def Node.parent (left right : Node) : Node :=
  let l := left.value
  let r := right.value
  { chaining := initial
    block := #v[l[0], l[1], l[2], l[3], l[4], l[5], l[6], l[7],
                r[0], r[1], r[2], r[3], r[4], r[5], r[6], r[7]]
    flags := parentNode }

/-- The byte at an index, zero behind the end. -/
def byteAt (bytes : ByteArray) (index : Nat) : UInt32 := ((bytes[index]?).getD 0).toUInt32

/-- The word at an index, its lowest byte first. -/
def wordAt (bytes : ByteArray) (index : Nat) : UInt32 :=
  byteAt bytes index ||| (byteAt bytes (index + 1) <<< 8) |||
    (byteAt bytes (index + 2) <<< 16) ||| (byteAt bytes (index + 3) <<< 24)

/-- The block at an index, filled up with zeros. -/
def blockAt (bytes : ByteArray) (index : Nat) : Block :=
  Vector.ofFn fun i => wordAt bytes (index + 4 * i.val)

/-- The chunk with a number. Only the last chunk can have fewer than 1024 bytes
and only its last block fewer than 64. -/
def chunk (bytes : ByteArray) (number : Nat) : Node :=
  let start := 1024 * number
  let size := min 1024 (bytes.size - start)
  let last := (size - 1) / 64
  let counter := number.toUInt64
  let startFlag (block : Nat) : UInt32 := if block = 0 then chunkStart else 0
  { chaining := (List.range last).foldl
      (fun h i => compress h (blockAt bytes (start + 64 * i)) counter 64 (startFlag i)) initial
    block := blockAt bytes (start + 64 * last)
    counter
    length := (size - 64 * last).toUInt32
    flags := chunkEnd ||| startFlag last }

/-- Joins neighbours in pairs; a last one without a neighbour is kept. -/
def pairUp : List Node → List Node
  | left :: right :: rest => left.parent right :: pairUp rest
  | nodes => nodes

theorem length_pairUp_le : ∀ nodes : List Node, 2 * (pairUp nodes).length ≤ nodes.length + 1
  | [] => by simp [pairUp]
  | [_] => by simp [pairUp]
  | _ :: _ :: rest => by
    have := length_pairUp_le rest
    simp only [pairUp, List.length_cons]
    omega

/-- The root above a row of nodes. Joining in pairs until one node is left makes
every left subtree complete. -/
def root (first : Node) (others : List Node) : Node :=
  match paired : pairUp (first :: others) with
  | [] => first
  | [node] => node
  | left :: right :: rest =>
    have shorter : (right :: rest).length < others.length := by
      have := length_pairUp_le (first :: others)
      rw [paired] at this
      simp only [List.length_cons] at this ⊢
      omega
    root left (right :: rest)
termination_by others.length

/-- The hash of a string of bytes. -/
def hash (bytes : ByteArray) : Chaining :=
  let count := (bytes.size - 1) / 1024
  let node := root (chunk bytes 0) ((List.range count).map fun i => chunk bytes (i + 1))
  { node with flags := node.flags ||| rootNode }.value

/-- The eight digits of a word, its lowest byte first. -/
def wordDigits (word : UInt32) : List Char :=
  (List.range 4).flatMap fun i =>
    let byte := word.toNat >>> (8 * i) % 256
    [Nat.digitChar (byte / 16), Nat.digitChar (byte % 16)]

/-- The hash of a text, of its UTF-8 bytes, in hexadecimal digits. -/
def hexadecimal (text : String) : String :=
  String.ofList ((hash text.toUTF8).toList.flatMap wordDigits)

end Blackboard.Blake3
