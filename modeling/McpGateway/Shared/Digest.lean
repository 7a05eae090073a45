import McpGateway.Shared.GoStrings

namespace McpGateway.Shared

def utf8Bytes (s : String) : List Nat :=
  s.toList.flatMap fun c => (String.utf8EncodeChar c).map UInt8.toNat

theorem utf8Bytes_append (s t : String) : utf8Bytes (s ++ t) = utf8Bytes s ++ utf8Bytes t := by
  simp [utf8Bytes]

theorem utf8Bytes_lt (s : String) : ∀ b ∈ utf8Bytes s, b < 256 := by
  intro b mem
  simp only [utf8Bytes, List.mem_flatMap, List.mem_map] at mem
  obtain ⟨_, _, byte, _, rfl⟩ := mem
  exact byte.toNat_lt

def hexEncode (bytes : List Nat) : String :=
  String.ofList (bytes.flatMap fun byte => [hexRune (byte / 16), hexRune (byte % 16)])

theorem hexRune_visible (n : Nat) : isSpace (hexRune n) = false := by
  have digits : "0123456789abcdef".toList.all (fun c => !isSpace c) = true := by decide
  simp only [List.all_eq_true, Bool.not_eq_true'] at digits
  rw [hexRune, List.getD_eq_getElem?_getD]
  cases found : "0123456789abcdef".toList[n]? with
  | none => decide
  | some digit => exact digits digit (List.mem_of_getElem? found)

theorem trimSpace_hexEncode (bytes : List Nat) : trimSpace (hexEncode bytes) = hexEncode bytes := by
  apply trimSpace_eq_self
  intro c mem
  simp only [hexEncode, String.toList_ofList, List.mem_flatMap, List.mem_cons, List.not_mem_nil, or_false] at mem
  obtain ⟨byte, _, rfl | rfl⟩ := mem
  · exact hexRune_visible _
  · exact hexRune_visible _

def base64UrlRune (sextet : Nat) : Char :=
  if sextet < 26 then Char.ofNat ('A'.toNat + sextet)
  else if sextet < 52 then Char.ofNat ('a'.toNat + (sextet - 26))
  else if sextet < 62 then Char.ofNat ('0'.toNat + (sextet - 52))
  else if sextet = 62 then '-'
  else '_'

-- base64.RawURLEncoding: no padding behind the last group.
def base64UrlRunes : List Nat → List Char
  | [] => []
  | [a] => [base64UrlRune (a / 4), base64UrlRune (a % 4 * 16)]
  | [a, b] => [base64UrlRune (a / 4), base64UrlRune (a % 4 * 16 + b / 16), base64UrlRune (b % 16 * 4)]
  | a :: b :: c :: rest =>
    [base64UrlRune (a / 4), base64UrlRune (a % 4 * 16 + b / 16), base64UrlRune (b % 16 * 4 + c / 64),
      base64UrlRune (c % 64)] ++ base64UrlRunes rest

def base64Url (bytes : List Nat) : String :=
  String.ofList (base64UrlRunes bytes)

namespace Sha256

def rotateRight (word bits : Nat) : Nat :=
  (word >>> bits ||| word <<< (32 - bits)) % 2 ^ 32

def choose (x y z : Nat) : Nat :=
  (x &&& y) ^^^ ((2 ^ 32 - 1 - x) &&& z)

def majority (x y z : Nat) : Nat :=
  (x &&& y) ^^^ (x &&& z) ^^^ (y &&& z)

def roundConstants : List Nat :=
  [0x428a2f98, 0x71374491, 0xb5c0fbcf, 0xe9b5dba5, 0x3956c25b, 0x59f111f1, 0x923f82a4, 0xab1c5ed5,
   0xd807aa98, 0x12835b01, 0x243185be, 0x550c7dc3, 0x72be5d74, 0x80deb1fe, 0x9bdc06a7, 0xc19bf174,
   0xe49b69c1, 0xefbe4786, 0x0fc19dc6, 0x240ca1cc, 0x2de92c6f, 0x4a7484aa, 0x5cb0a9dc, 0x76f988da,
   0x983e5152, 0xa831c66d, 0xb00327c8, 0xbf597fc7, 0xc6e00bf3, 0xd5a79147, 0x06ca6351, 0x14292967,
   0x27b70a85, 0x2e1b2138, 0x4d2c6dfc, 0x53380d13, 0x650a7354, 0x766a0abb, 0x81c2c92e, 0x92722c85,
   0xa2bfe8a1, 0xa81a664b, 0xc24b8b70, 0xc76c51a3, 0xd192e819, 0xd6990624, 0xf40e3585, 0x106aa070,
   0x19a4c116, 0x1e376c08, 0x2748774c, 0x34b0bcb5, 0x391c0cb3, 0x4ed8aa4a, 0x5b9cca4f, 0x682e6ff3,
   0x748f82ee, 0x78a5636f, 0x84c87814, 0x8cc70208, 0x90befffa, 0xa4506ceb, 0xbef9a3f7, 0xc67178f2]

structure Working where
  a : Nat
  b : Nat
  c : Nat
  d : Nat
  e : Nat
  f : Nat
  g : Nat
  h : Nat

def initial : Working :=
  ⟨0x6a09e667, 0xbb67ae85, 0x3c6ef372, 0xa54ff53a, 0x510e527f, 0x9b05688c, 0x1f83d9ab, 0x5be0cd19⟩

def schedule : Nat → List Nat → List Nat
  | 0, words => words.reverse
  | more + 1, words =>
    let recent := words.getD 1 0
    let distant := words.getD 14 0
    let small1 := rotateRight recent 17 ^^^ rotateRight recent 19 ^^^ recent >>> 10
    let small0 := rotateRight distant 7 ^^^ rotateRight distant 18 ^^^ distant >>> 3
    schedule more ((small1 + words.getD 6 0 + small0 + words.getD 15 0) % 2 ^ 32 :: words)

def round (state : Working) (input : Nat × Nat) : Working :=
  let big1 := rotateRight state.e 6 ^^^ rotateRight state.e 11 ^^^ rotateRight state.e 25
  let big0 := rotateRight state.a 2 ^^^ rotateRight state.a 13 ^^^ rotateRight state.a 22
  let first := state.h + big1 + choose state.e state.f state.g + input.1 + input.2
  let second := big0 + majority state.a state.b state.c
  ⟨(first + second) % 2 ^ 32, state.a, state.b, state.c, (state.d + first) % 2 ^ 32, state.e, state.f, state.g⟩

def compress (state : Working) (block : List Nat) : Working :=
  let mixed := (roundConstants.zip (schedule 48 block.reverse)).foldl round state
  ⟨(state.a + mixed.a) % 2 ^ 32, (state.b + mixed.b) % 2 ^ 32, (state.c + mixed.c) % 2 ^ 32,
    (state.d + mixed.d) % 2 ^ 32, (state.e + mixed.e) % 2 ^ 32, (state.f + mixed.f) % 2 ^ 32,
    (state.g + mixed.g) % 2 ^ 32, (state.h + mixed.h) % 2 ^ 32⟩

def bigEndian (width value : Nat) : List Nat :=
  (List.range width).reverse.map fun place => value / 256 ^ place % 256

def padded (bytes : List Nat) : List Nat :=
  bytes ++ 0x80 :: List.replicate ((119 - bytes.length % 64) % 64) 0 ++ bigEndian 8 (8 * bytes.length)

def wordsOf (bytes : List Nat) : List Nat :=
  (bytes.toChunks 4).map fun chunk => chunk.foldl (fun word byte => word * 256 + byte) 0

def sum (bytes : List Nat) : List Nat :=
  let final := ((wordsOf (padded bytes)).toChunks 16).foldl compress initial
  [final.a, final.b, final.c, final.d, final.e, final.f, final.g, final.h].flatMap (bigEndian 4)

end Sha256

example : hexEncode (Sha256.sum (utf8Bytes "abc")) =
    "ba7816bf8f01cfea414140de5dae2223b00361a396177a9cb410ff61f20015ad" := by decide +kernel

end McpGateway.Shared
