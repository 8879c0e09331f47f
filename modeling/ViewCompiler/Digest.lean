import ViewCompiler.Text

/-!
# Content digests

The 256-bit BLAKE3 digest of a sequence of octets. The input is cut into chunks of
1024 octets, a chunk into blocks of 64. Each chunk is reduced to a chaining value,
and the chaining values are reduced pairwise, the left side always holding the
greatest power of two of chunks that leaves something for the right side. The last
reduction is marked as the root and gives the digest.

The sixteen words of the compression state stand in four rows, so that the mixing
of the four columns is one operation on rows, and so is that of the diagonals after
turning the rows against each other.
-/

namespace ViewCompiler.Digest

/-- Four words that are mixed side by side. -/
structure Row where
  a : UInt32
  b : UInt32
  c : UInt32
  d : UInt32
deriving DecidableEq, Repr

namespace Row

/-- The operation on each pair of words. -/
def zip (operation : UInt32 → UInt32 → UInt32) (left right : Row) : Row :=
  ⟨operation left.a right.a, operation left.b right.b, operation left.c right.c, operation left.d right.d⟩

/-- Words turned to the right by `count` bits, for a count between 1 and 31. -/
def turn (count : UInt32) (row : Row) : Row :=
  let each (word : UInt32) : UInt32 := (word >>> count) ||| (word <<< (32 - count))
  ⟨each row.a, each row.b, each row.c, each row.d⟩

/-- The second word first. -/
def shift (row : Row) : Row := ⟨row.b, row.c, row.d, row.a⟩

/-- The words in order. -/
def words (row : Row) : List UInt32 := [row.a, row.b, row.c, row.d]

end Row

/-- The word at a position, zero beyond the end. -/
def word (words : List UInt32) (position : Nat) : UInt32 := (words[position]?).getD 0

/-- Four words of a list. -/
def rowOf (words : List UInt32) (first second third fourth : Nat) : Row :=
  ⟨word words first, word words second, word words third, word words fourth⟩

/-- The state of a compression. -/
structure State where
  top : Row
  upper : Row
  lower : Row
  bottom : Row

/-- One mixing of every column with two message words each. -/
def State.mix (state : State) (even odd : Row) : State :=
  let top := ((state.top.zip (· + ·) state.upper).zip (· + ·) even)
  let bottom := (state.bottom.zip (· ^^^ ·) top).turn 16
  let lower := state.lower.zip (· + ·) bottom
  let upper := (state.upper.zip (· ^^^ ·) lower).turn 12
  let top := ((top.zip (· + ·) upper).zip (· + ·) odd)
  let bottom := (bottom.zip (· ^^^ ·) top).turn 8
  let lower := lower.zip (· + ·) bottom
  let upper := (upper.zip (· ^^^ ·) lower).turn 7
  ⟨top, upper, lower, bottom⟩

/-- Columns, then diagonals. -/
def State.round (state : State) (message : List UInt32) : State :=
  let mixed := state.mix (rowOf message 0 2 4 6) (rowOf message 1 3 5 7)
  let slanted : State := ⟨mixed.top, mixed.upper.shift, mixed.lower.shift.shift, mixed.bottom.shift.shift.shift⟩
  let mixed := slanted.mix (rowOf message 8 10 12 14) (rowOf message 9 11 13 15)
  ⟨mixed.top, mixed.upper.shift.shift.shift, mixed.lower.shift.shift, mixed.bottom.shift⟩

/-- Where the next round finds each message word. -/
def order : List Nat := [2, 6, 3, 10, 7, 0, 4, 13, 1, 11, 12, 5, 9, 14, 15, 8]

/-- Rounds, with the message words reordered between them. -/
def State.rounds : Nat → State → List UInt32 → State
  | 0, state, _ => state
  | count + 1, state, message => (state.round message).rounds count (order.map (word message))

/-- The initial chaining value. -/
def initial : List UInt32 :=
  [0x6A09E667, 0xBB67AE85, 0x3C6EF372, 0xA54FF53A, 0x510E527F, 0x9B05688C, 0x1F83D9AB, 0x5BE0CD19]

/-- Everything that one compression takes. -/
structure Node where
  chaining : List UInt32
  message : List UInt32
  counter : UInt64
  size : UInt32
  flags : UInt32

/-- The block that begins a chunk. -/
def chunkStart : UInt32 := 1
/-- The block that ends a chunk. -/
def chunkEnd : UInt32 := 2
/-- The reduction of two chaining values. -/
def parent : UInt32 := 4
/-- The last reduction. -/
def root : UInt32 := 8

/-- The eight words that a node is reduced to. -/
def Node.reduce (node : Node) : List UInt32 :=
  let state : State :=
    ⟨rowOf node.chaining 0 1 2 3, rowOf node.chaining 4 5 6 7, rowOf initial 0 1 2 3,
      ⟨node.counter.toUInt32, (node.counter >>> 32).toUInt32, node.size, node.flags⟩⟩
  let final := state.rounds 7 node.message
  (final.top.zip (· ^^^ ·) final.lower).words ++ (final.upper.zip (· ^^^ ·) final.bottom).words

/-- Octets as words, the least significant octet first; the last word is filled with
zeros. -/
def wordsOf : Octets → List UInt32
  | [] => []
  | a :: b :: c :: d :: rest =>
    (a.toUInt32 ||| (b.toUInt32 <<< 8) ||| (c.toUInt32 <<< 16) ||| (d.toUInt32 <<< 24)) :: wordsOf rest
  | [a, b, c] => [a.toUInt32 ||| (b.toUInt32 <<< 8) ||| (c.toUInt32 <<< 16)]
  | [a, b] => [a.toUInt32 ||| (b.toUInt32 <<< 8)]
  | [a] => [a.toUInt32]

/-- A word as octets, the least significant first. -/
def octetsOf (value : UInt32) : Octets :=
  [value.toUInt8, (value >>> 8).toUInt8, (value >>> 16).toUInt8, (value >>> 24).toUInt8]

/-- The octets in groups of `size`, the last one possibly shorter; no octets make one
empty group. -/
def groups (size : Nat) (positive : 0 < size) (octets : Octets) : List Octets :=
  if octets.length ≤ size then [octets]
  else octets.take size :: groups size positive (octets.drop size)
termination_by octets.length
decreasing_by
  simp only [List.length_drop]
  omega

/-- The last node of a chunk, its earlier blocks being reduced into the chaining
value one after the other. -/
def chunkNode (counter : UInt64) (chaining : List UInt32) (flags : UInt32) : List Octets → Node
  | [] => ⟨chaining, [], counter, 0, flags ||| chunkEnd⟩
  | [last] => ⟨chaining, wordsOf last, counter, last.length.toUInt32, flags ||| chunkEnd⟩
  | block :: more =>
    let node : Node := ⟨chaining, wordsOf block, counter, 64, flags⟩
    chunkNode counter node.reduce 0 more

/-- The node of the chunk at a place in the input. -/
def chunk (place : Nat) (octets : Octets) : Node :=
  chunkNode place.toUInt64 initial chunkStart (groups 64 (by decide) octets)

/-- The node that joins two subtrees. -/
def join (left right : Node) : Node :=
  ⟨initial, left.reduce ++ right.reduce, 0, 64, parent⟩

/-- The greatest power of two below a number of chunks that is at least two. -/
def leftCount (count : Nat) : Nat := 1 <<< (count - 1).log2

/-- Of several chunks the left subtree has fewer than all. -/
theorem leftCount_lt {count : Nat} (several : 2 ≤ count) : leftCount count < count := by
  have reached := Nat.log2_self_le (n := count - 1) (by omega)
  simp only [leftCount, Nat.shiftLeft_eq]
  omega

/-- The left subtree is never without chunks. -/
theorem leftCount_pos (count : Nat) : 0 < leftCount count := by
  rw [leftCount, Nat.shiftLeft_eq, Nat.one_mul]
  exact Nat.two_pow_pos _

/-- The root of the tree over chunks. -/
def tree (chunks : List Node) : Node :=
  match chunks with
  | [] => chunk 0 []
  | [only] => only
  | first :: second :: more =>
    let nodes := first :: second :: more
    let left := leftCount nodes.length
    join (tree (nodes.take left)) (tree (nodes.drop left))
termination_by chunks.length
decreasing_by
  · have := @leftCount_lt (first :: second :: more).length (by simp)
    simp only [List.length_take, List.length_cons] at this ⊢
    omega
  · have := leftCount_pos (first :: second :: more).length
    simp only [List.length_drop, List.length_cons] at this ⊢
    omega

/-- The chunks of an input, with their places. -/
def chunksOf (octets : Octets) : List Node :=
  (groups 1024 (by decide) octets).zipIdx.map fun (piece, place) => chunk place piece

end ViewCompiler.Digest

namespace ViewCompiler

/-- The digest of a content: 32 octets. -/
structure Digest where
  octets : Octets
deriving DecidableEq, Repr

namespace Digest

/-- The BLAKE3 digest of a content. -/
def ofOctets (content : Octets) : Digest :=
  let top := tree (chunksOf content)
  ⟨({ top with flags := top.flags ||| root } : Node).reduce.flatMap octetsOf⟩

/-- What stands for the digest of a file that is missing or cannot be read. -/
def empty : Digest := ⟨List.replicate 32 0⟩

/-- Whether this is the stand-in of a missing file. -/
def isEmpty (digest : Digest) : Bool := digest == empty

/-- One octet in two hexadecimal digits. -/
def hexOctet (octet : UInt8) : Text :=
  [Nat.digitChar (octet.toNat / 16), Nat.digitChar (octet.toNat % 16)]

/-- The digest in hexadecimal digits. -/
def hex (digest : Digest) : Text := digest.octets.flatMap hexOctet

/-- The first sixteen digits, enough to tell digests apart at a glance. -/
def brief (digest : Digest) : Text := digest.hex.take 16

end Digest

end ViewCompiler
