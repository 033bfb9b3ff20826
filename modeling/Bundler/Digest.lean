/-! SHA-256 of a sequence of bytes. The chaining value has eight words and a digest has thirty-two
bytes by their types, so no step can change a width. -/

namespace Bundler

abbrev Digest := Vector UInt8 32

namespace Digest

abbrev Chain := Vector UInt32 8

def constants : List UInt32 :=
  [0x428a2f98, 0x71374491, 0xb5c0fbcf, 0xe9b5dba5, 0x3956c25b, 0x59f111f1, 0x923f82a4, 0xab1c5ed5,
    0xd807aa98, 0x12835b01, 0x243185be, 0x550c7dc3, 0x72be5d74, 0x80deb1fe, 0x9bdc06a7, 0xc19bf174,
    0xe49b69c1, 0xefbe4786, 0x0fc19dc6, 0x240ca1cc, 0x2de92c6f, 0x4a7484aa, 0x5cb0a9dc, 0x76f988da,
    0x983e5152, 0xa831c66d, 0xb00327c8, 0xbf597fc7, 0xc6e00bf3, 0xd5a79147, 0x06ca6351, 0x14292967,
    0x27b70a85, 0x2e1b2138, 0x4d2c6dfc, 0x53380d13, 0x650a7354, 0x766a0abb, 0x81c2c92e, 0x92722c85,
    0xa2bfe8a1, 0xa81a664b, 0xc24b8b70, 0xc76c51a3, 0xd192e819, 0xd6990624, 0xf40e3585, 0x106aa070,
    0x19a4c116, 0x1e376c08, 0x2748774c, 0x34b0bcb5, 0x391c0cb3, 0x4ed8aa4a, 0x5b9cca4f, 0x682e6ff3,
    0x748f82ee, 0x78a5636f, 0x84c87814, 0x8cc70208, 0x90befffa, 0xa4506ceb, 0xbef9a3f7, 0xc67178f2]

def start : Chain :=
  #v[0x6a09e667, 0xbb67ae85, 0x3c6ef372, 0xa54ff53a, 0x510e527f, 0x9b05688c, 0x1f83d9ab, 0x5be0cd19]

def rotate (w : UInt32) (n : UInt32) : UInt32 := (w >>> n) ||| (w <<< (32 - n))

def schedule : Nat → List UInt32 → List UInt32
  | 0, _ => []
  | rounds + 1, window =>
    let near := window.getD 1 0
    let far := window.getD 14 0
    let next := window.getD 0 0 + (rotate near 7 ^^^ rotate near 18 ^^^ (near >>> 3)) +
      window.getD 9 0 + (rotate far 17 ^^^ rotate far 19 ^^^ (far >>> 10))
    window.getD 0 0 :: schedule rounds (window.drop 1 ++ [next])

def round (s : Chain) (kw : UInt32 × UInt32) : Chain :=
  let e := s[4]
  let a := s[0]
  let choice := (e &&& s[5]) ^^^ (~~~e &&& s[6])
  let majority := (a &&& s[1]) ^^^ (a &&& s[2]) ^^^ (s[1] &&& s[2])
  let high := s[7] + (rotate e 6 ^^^ rotate e 11 ^^^ rotate e 25) + choice + kw.1 + kw.2
  let low := (rotate a 2 ^^^ rotate a 13 ^^^ rotate a 22) + majority
  #v[high + low, a, s[1], s[2], s[3] + high, e, s[5], s[6]]

def compress (chain : Chain) (words : List UInt32) : Chain :=
  let worked := (constants.zip (schedule 64 words)).foldl round chain
  Vector.zipWith (· + ·) chain worked

def wordsOf : List UInt8 → List UInt32
  | a :: b :: c :: d :: rest =>
    ((a.toUInt32 <<< 24) ||| (b.toUInt32 <<< 16) ||| (c.toUInt32 <<< 8) ||| d.toUInt32) ::
      wordsOf rest
  | _ => []

def lengthBytes (bits : Nat) : List UInt8 :=
  [56, 48, 40, 32, 24, 16, 8, 0].map fun shift => (bits >>> shift).toUInt8

def pad (message : List UInt8) : List UInt8 :=
  let zeros := (119 - message.length % 64) % 64
  message ++ 0x80 :: (List.replicate zeros 0 ++ lengthBytes (8 * message.length))

def chainBlocks : Nat → Chain → List UInt32 → Chain
  | 0, chain, _ => chain
  | blocks + 1, chain, words => chainBlocks blocks (compress chain (words.take 16)) (words.drop 16)

def ofChain (chain : Chain) : Digest :=
  Vector.ofFn fun i => (chain.get ⟨i.val / 4, by omega⟩ >>> (24 - 8 * (i.val % 4)).toUInt32).toUInt8

def ofBytes (message : List UInt8) : Digest :=
  let words := wordsOf (pad message)
  ofChain (chainBlocks (words.length / 16) start words)

def ofText (text : String) : Digest := ofBytes (text.toList.flatMap String.utf8EncodeChar)

end Digest

def hexDigits (b : UInt8) : List Char :=
  [Nat.digitChar (b.toNat / 16), Nat.digitChar (b.toNat % 16)]

structure ContentId where
  digest : Digest
  deriving DecidableEq

namespace ContentId

def ofText (text : String) : ContentId := ⟨.ofText text⟩

def hexChars (id : ContentId) : List Char := id.digest.toList.flatMap hexDigits

def hex (id : ContentId) : String := String.ofList id.hexChars

def short (id : ContentId) : String := String.ofList (id.hexChars.take 8)

def binding (id : ContentId) : String := "require_" ++ id.hex

instance : Repr ContentId := ⟨fun id _ => id.short⟩

instance : Inhabited ContentId := ⟨.ofText ""⟩

end ContentId

end Bundler
