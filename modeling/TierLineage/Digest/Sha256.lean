import TierLineage.Digest.Hex

/-!
# SHA-256

The digest that identifies a procedure text.  The message is padded to blocks of sixty-four bytes,
each block is spread over a schedule of sixty-four words, and the schedule is folded into eight
chaining words.  `contentHash` writes the digest of a string's bytes in hexadecimal.
-/

namespace TierLineage.Digest

/-! ### Constants -/

/-- The round constants. -/
def roundConstants : List UInt32 := [
  0x428a2f98, 0x71374491, 0xb5c0fbcf, 0xe9b5dba5, 0x3956c25b, 0x59f111f1, 0x923f82a4, 0xab1c5ed5,
  0xd807aa98, 0x12835b01, 0x243185be, 0x550c7dc3, 0x72be5d74, 0x80deb1fe, 0x9bdc06a7, 0xc19bf174,
  0xe49b69c1, 0xefbe4786, 0x0fc19dc6, 0x240ca1cc, 0x2de92c6f, 0x4a7484aa, 0x5cb0a9dc, 0x76f988da,
  0x983e5152, 0xa831c66d, 0xb00327c8, 0xbf597fc7, 0xc6e00bf3, 0xd5a79147, 0x06ca6351, 0x14292967,
  0x27b70a85, 0x2e1b2138, 0x4d2c6dfc, 0x53380d13, 0x650a7354, 0x766a0abb, 0x81c2c92e, 0x92722c85,
  0xa2bfe8a1, 0xa81a664b, 0xc24b8b70, 0xc76c51a3, 0xd192e819, 0xd6990624, 0xf40e3585, 0x106aa070,
  0x19a4c116, 0x1e376c08, 0x2748774c, 0x34b0bcb5, 0x391c0cb3, 0x4ed8aa4a, 0x5b9cca4f, 0x682e6ff3,
  0x748f82ee, 0x78a5636f, 0x84c87814, 0x8cc70208, 0x90befffa, 0xa4506ceb, 0xbef9a3f7, 0xc67178f2]

/-- The eight chaining words. -/
structure Chain where
  a : UInt32
  b : UInt32
  c : UInt32
  d : UInt32
  e : UInt32
  f : UInt32
  g : UInt32
  h : UInt32
  deriving Repr, DecidableEq

/-- The chaining words before the first block. -/
def Chain.initial : Chain :=
  ⟨0x6a09e667, 0xbb67ae85, 0x3c6ef372, 0xa54ff53a, 0x510e527f, 0x9b05688c, 0x1f83d9ab, 0x5be0cd19⟩

/-! ### Padding -/

/-- A one bit, zeros up to eight bytes short of a block, and the length in bits. -/
def padding (length : Nat) : List UInt8 :=
  let zeros := (119 - length % 64) % 64
  0x80 :: List.replicate zeros 0 ++
    ((List.range 8).map fun i => UInt8.ofNat (length * 8 / Nat.pow 256 (7 - i)))

/-- Four bytes as a word, most significant first; a shorter rest is dropped. -/
def words : List UInt8 → List UInt32
  | b₀ :: b₁ :: b₂ :: b₃ :: rest =>
    ((b₀.toUInt32 <<< 24) ||| (b₁.toUInt32 <<< 16) ||| (b₂.toUInt32 <<< 8) ||| b₃.toUInt32) ::
      words rest
  | _ => []

/-! ### Compression -/

/-- Rotation to the right. -/
def rotate (x : UInt32) (n : UInt32) : UInt32 :=
  (x >>> n) ||| (x <<< (32 - n))

/-- One more word of the schedule, from the sixteen before it. -/
def nextWord (w : Array UInt32) : UInt32 :=
  let before (back : Nat) : UInt32 := w.getD (w.size - back) 0
  let x := before 15
  let y := before 2
  let s₀ := rotate x 7 ^^^ rotate x 18 ^^^ (x >>> 3)
  let s₁ := rotate y 17 ^^^ rotate y 19 ^^^ (y >>> 10)
  before 16 + s₀ + before 7 + s₁

/-- The schedule of a block of sixteen words. -/
def schedule (block : List UInt32) : Array UInt32 :=
  (List.range 48).foldl (fun w _ => w.push (nextWord w)) block.toArray

/-- One round. -/
def Chain.round (s : Chain) (constant word : UInt32) : Chain :=
  let s₁ := rotate s.e 6 ^^^ rotate s.e 11 ^^^ rotate s.e 25
  let choice := (s.e &&& s.f) ^^^ (~~~ s.e &&& s.g)
  let t₁ := s.h + s₁ + choice + constant + word
  let s₀ := rotate s.a 2 ^^^ rotate s.a 13 ^^^ rotate s.a 22
  let majority := (s.a &&& s.b) ^^^ (s.a &&& s.c) ^^^ (s.b &&& s.c)
  ⟨t₁ + (s₀ + majority), s.a, s.b, s.c, s.d + t₁, s.e, s.f, s.g⟩

/-- Wordwise sum. -/
def Chain.add (s t : Chain) : Chain :=
  ⟨s.a + t.a, s.b + t.b, s.c + t.c, s.d + t.d, s.e + t.e, s.f + t.f, s.g + t.g, s.h + t.h⟩

/-- Fold one block of sixteen words into the chaining words. -/
def Chain.compress (s : Chain) (block : List UInt32) : Chain :=
  s.add ((roundConstants.zip (schedule block).toList).foldl (fun t p => t.round p.1 p.2) s)

/-- Fold all words, sixteen at a time. -/
def Chain.absorb (s : Chain) (ws : List UInt32) : Chain :=
  match _h : ws.drop 15 with
  | [] => s
  | _ :: rest => (s.compress (ws.take 16)).absorb rest
termination_by ws.length
decreasing_by
  have := congrArg List.length _h
  simp only [List.length_drop, List.length_cons] at this
  omega

/-- The digest as a number of 256 bits. -/
def sha256 (message : List UInt8) : Nat :=
  let s := Chain.initial.absorb (words (message ++ padding message.length))
  [s.a, s.b, s.c, s.d, s.e, s.f, s.g, s.h].foldl (fun n w => n * 0x100000000 + w.toNat) 0

/-- The digest of a text, in hexadecimal. -/
def contentHash (text : String) : String :=
  String.ofList (hexDigits 64 (sha256 text.toUTF8.toList))

end TierLineage.Digest
