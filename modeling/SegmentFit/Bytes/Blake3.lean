import SegmentFit.Bytes.Hex

/-!
# BLAKE3 — the hash behind every receipt

The unkeyed 256-bit hash of a byte string. A message is cut into chunks of 1024
bytes, a chunk into blocks of 64. Each block is folded into an eight-word chaining
value by `compress`; the chunks' values are then joined in pairs, level by level,
an odd one out moving up unchanged, until one node is left. That node alone is
compressed with the root flag.

Nothing in the library depends on how the digest is computed: the theorems speak
of the bytes that go in.
-/

namespace SegmentFit.Blake3

abbrev Chain := Vector UInt32 8

/-- The sixteen words of a block, or of the state that mixes it in. -/
abbrev Block := Vector UInt32 16

def initial : Chain :=
  #v[0x6A09E667, 0xBB67AE85, 0x3C6EF372, 0xA54FF53A,
     0x510E527F, 0x9B05688C, 0x1F83D9AB, 0x5BE0CD19]

def chunkStart : UInt32 := 1

def chunkEnd : UInt32 := 2

def parent : UInt32 := 4

def root : UInt32 := 8

def rotateRight (word count : UInt32) : UInt32 :=
  (word >>> count) ||| (word <<< (32 - count))

def mix (s : Block) (a b c d : Fin 16) (x y : UInt32) : Block :=
  let a₁ := s[a] + s[b] + x
  let d₁ := rotateRight (s[d] ^^^ a₁) 16
  let c₁ := s[c] + d₁
  let b₁ := rotateRight (s[b] ^^^ c₁) 12
  let a₂ := a₁ + b₁ + y
  let d₂ := rotateRight (d₁ ^^^ a₂) 8
  let c₂ := c₁ + d₂
  let b₂ := rotateRight (b₁ ^^^ c₂) 7
  (((s.set a a₂).set b b₂).set c c₂).set d d₂

def round (s m : Block) : Block :=
  let s := mix s 0 4 8 12 m[0] m[1]
  let s := mix s 1 5 9 13 m[2] m[3]
  let s := mix s 2 6 10 14 m[4] m[5]
  let s := mix s 3 7 11 15 m[6] m[7]
  let s := mix s 0 5 10 15 m[8] m[9]
  let s := mix s 1 6 11 12 m[10] m[11]
  let s := mix s 2 7 8 13 m[12] m[13]
  mix s 3 4 9 14 m[14] m[15]

/-- The message words as the next round takes them. -/
def permuted (m : Block) : Block :=
  #v[m[2], m[6], m[3], m[10], m[7], m[0], m[4], m[13],
     m[1], m[11], m[12], m[5], m[9], m[14], m[15], m[8]]

def rounds : Nat → Block → Block → Block
  | 0, s, _ => s
  | count + 1, s, m => rounds count (round s m) (permuted m)

/-- What is left to compress: a block, the value it is folded into, and its place. -/
structure Node where
  chain : Chain
  block : Block
  counter : UInt64
  length : UInt32
  flags : UInt32

/-- Fold a node's block into its chaining value. -/
def Node.compress (node : Node) : Chain :=
  let h := node.chain
  let s : Block :=
    #v[h[0], h[1], h[2], h[3], h[4], h[5], h[6], h[7],
       initial[0], initial[1], initial[2], initial[3],
       node.counter.toUInt32, (node.counter >>> 32).toUInt32, node.length, node.flags]
  let s := rounds 7 s node.block
  #v[s[0] ^^^ s[8], s[1] ^^^ s[9], s[2] ^^^ s[10], s[3] ^^^ s[11],
     s[4] ^^^ s[12], s[5] ^^^ s[13], s[6] ^^^ s[14], s[7] ^^^ s[15]]

/-- The node above two others: their chaining values make up its block. -/
def Node.join (left right : Node) : Node :=
  let block : Block := (left.compress ++ right.compress).cast (by decide)
  ⟨initial, block, 0, 64, parent⟩

/-- Cut a list into pieces of `size`, the last one possibly shorter. -/
def pieces {α : Type} (size : Nat) (xs : List α) : List (List α) :=
  if _h : xs.length ≤ size ∨ size = 0 then [xs]
  else xs.take size :: pieces size (xs.drop size)
termination_by xs.length
decreasing_by simp only [List.length_drop]; omega

def words (bytes : List UInt8) : Block :=
  let a := bytes.toArray
  let byte (i : Nat) : UInt32 := (a.getD i 0).toUInt32
  Vector.ofFn fun i =>
    byte (4 * i) ||| (byte (4 * i + 1) <<< 8) ||| (byte (4 * i + 2) <<< 16)
      ||| (byte (4 * i + 3) <<< 24)

def chunkNode (counter : UInt64) (chain : Chain) (start : UInt32) : List (List UInt8) → Node
  | [] => ⟨chain, words [], counter, 0, start ||| chunkEnd⟩
  | [last] => ⟨chain, words last, counter, last.length.toUInt32, start ||| chunkEnd⟩
  | block :: rest =>
    chunkNode counter (Node.compress ⟨chain, words block, counter, 64, start⟩) 0 rest

/-- Join neighbours in pairs; an odd last one moves up as it is. -/
def joinPairs : List Node → List Node
  | left :: right :: rest => left.join right :: joinPairs rest
  | rest => rest

theorem length_joinPairs (nodes : List Node) :
    (joinPairs nodes).length = (nodes.length + 1) / 2 := by
  induction nodes using joinPairs.induct with
  | case1 left right rest ih => simp only [joinPairs, List.length_cons, ih]; omega
  | case2 rest h =>
    match rest, h with
    | [], _ => simp [joinPairs]
    | [node], _ => simp [joinPairs]
    | left :: right :: more, h => exact absurd rfl (h left right more)

/-- The node left at the top of the tree over `first :: rest`. -/
def top (first : Node) (rest : List Node) : Node :=
  match _h : joinPairs (first :: rest) with
  | [] => first
  | [node] => node
  | node :: second :: more => top node (second :: more)
termination_by rest.length
decreasing_by
  have hl := length_joinPairs (first :: rest)
  rw [_h] at hl
  simp only [List.length_cons] at hl ⊢
  omega

def chainBytes (chain : Chain) : List UInt8 :=
  chain.toList.flatMap fun (w : UInt32) =>
    [w.toUInt8, (w >>> 8).toUInt8, (w >>> 16).toUInt8, (w >>> 24).toUInt8]

def digest (message : List UInt8) : List UInt8 :=
  let nodes := (pieces 1024 message).zipIdx.map fun (chunk, i) =>
    chunkNode i.toUInt64 initial chunkStart (pieces 64 chunk)
  match nodes with
  | [] => []
  | first :: rest =>
    let last := top first rest
    chainBytes (Node.compress { last with counter := 0, flags := last.flags ||| root })

def hexDigest (message : List UInt8) : String :=
  Hex.encode (digest message)

end SegmentFit.Blake3
