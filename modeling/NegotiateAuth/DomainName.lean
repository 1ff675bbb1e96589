import NegotiateAuth.Text

/-! # Names of domains

A name is written in ASCII. A label that begins with `xn--` stands for a text of any script, and
that text has to be one which has no other coded form: it is decoded, its characters are ones that
names may have, it is in composed normal form, joiners change the writing where they stand, and no
label changes its direction.
-/

namespace NegotiateAuth

/-! ## Tables of runs -/

namespace Text

structure Run where
  letter : Char
  number : Nat
deriving DecidableEq, Repr

namespace Run

def length (run : Run) : Nat :=
  max run.number 1

def extend (runs : List Run) (c : Char) : List Run :=
  match digitIn? 10 c, runs with
  | some digit, run :: rest => { run with number := run.number * 10 + digit } :: rest
  | _, _ => ⟨c, 0⟩ :: runs

def readAll (table : List String) : List Run :=
  ((table.flatMap String.toList).foldl extend []).reverse

def letterAt? : List Run → Nat → Option Char
  | [], _ => none
  | run :: rest, n => if n < run.length then some run.letter else letterAt? rest (n - run.length)

end Run

end Text

/-! ## Punycode -/

namespace DomainName

namespace Punycode

/-- The value of a digit: the small letters from zero, then the decimal digits. -/
def digit? (c : Char) : Option Nat :=
  if 'a' ≤ c ∧ c ≤ 'z' then some (c.toNat - 97)
  else if '0' ≤ c ∧ c ≤ '9' then some (c.toNat - 22)
  else none

def threshold (place bias : Nat) : Nat :=
  if place ≤ bias then 1
  else if bias + 26 ≤ place then 26
  else place - bias

def settle (distance base : Nat) : Nat :=
  if 455 < distance then settle (distance / 35) (base + 36)
  else base + 36 * distance / (distance + 38)
termination_by distance
decreasing_by omega

/-- The bias after a distance that led to the `count`th character; the first one counts for less. -/
def adaptedBias (distance count : Nat) (first : Bool) : Nat :=
  let scaled := if first then distance / 700 else distance / 2
  settle (scaled + scaled / count) 0

/-- A text that is being decoded. The number that is being read began at `origin`; it has led to
`position`, and its next digit is at `place` and counts `weight` times. -/
structure Progress where
  text : List Char
  code : Nat
  bias : Nat
  origin : Nat
  position : Nat
  place : Nat
  weight : Nat
deriving DecidableEq, Repr

namespace Progress

def start (plain : List Char) : Progress :=
  { text := plain, code := 128, bias := 72, origin := 0, position := 0, place := 36, weight := 1 }

/-- Positions and weights are words of 32 bits. -/
def wordLimit : Nat := 4294967296

def isSettled (p : Progress) : Bool :=
  p.place == 36

def insert? (p : Progress) : Option Progress :=
  let count := p.text.length + 1
  let code := p.code + p.position / count
  let index := p.position % count
  if code.isValidChar then
    some
      { text := p.text.insertIdx index (Char.ofNat code)
        code := code
        bias := adaptedBias (p.position - p.origin) count (p.origin == 0)
        origin := index + 1
        position := index + 1
        place := 36
        weight := 1 }
  else none

def step? (p : Progress) (c : Char) : Option Progress := do
  let digit ← digit? c
  let position := p.position + digit * p.weight
  let limit := threshold p.place p.bias
  if wordLimit ≤ position then none
  else if digit < limit then insert? { p with position := position }
  else
    let weight := p.weight * (36 - limit)
    if wordLimit ≤ weight then none
    else some { p with position := position, place := p.place + 36, weight := weight }

end Progress

/-- The characters of ASCII and the digits. The last hyphen stands between them, but a hyphen with
nothing in front of it separates nothing. -/
def parts (cs : List Char) : List Char × List Char :=
  let reversed := cs.reverse
  let plain := ((reversed.dropWhile (· ≠ '-')).drop 1).reverse
  if plain.isEmpty then ([], cs) else (plain, (reversed.takeWhile (· ≠ '-')).reverse)

def decode? (cs : List Char) : Option (List Char) := do
  let (plain, digits) := parts cs
  let final ← digits.foldlM Progress.step? (Progress.start plain)
  if final.isSettled then some final.text else none

end Punycode

/-! ## The composed normal form -/

namespace NormalForm

/-- The combining classes of the characters that names have: `@` for a character that starts a new
letter, and for the marks a character each class, in the order of the classes. -/
def classTable : List String :=
  ["@768y21zt4zrt5p2t4p2t11A5t4y10t3y3t3y3t4yzt2y|~2|~2|y14@274y5@265ty4ty3uty6t6y2ty2uxyFGHIJKL",
    "MNO2PQR@S@TU@yt@N9@64y8Zab@48WXYZabcdy2t2y5ty2t@16e@101y8@y4ty@2y2@ty2t@35f@30yty2ty2t3yt2yt",
    "y3tytytyty4@158y7ty@9t@24y4@y9@y3@y7@41t5@57y2t3y4@42y5t5y15ty2ty2ty3t3WXYy3ty2t2y5@60C@16E",
    "@3yty2@103C@16E@48y3@59C2@15E4@107C@16E3@108C@16E8@120E3@108C@16E8gh2@100C@16E8@102E2@16E",
    "@124E5@105i2E5@9j4@108k2E@13l4@76t2@27t@t@r@55mn2o6n4@2n2y2E@y2@62t@112C@E2@82t@719y3@948E11",
    "@21E@157E@10y3@201x@143uyt5@215yt@71E@20y10t@48y5t6y2t@t2y2t2y5ty18t3y6ty4~21@52C@15E@38yty7",
    "@54E2@58C@11E10@59C4@149y3@At5y2t4y@A7@4t@6y@3y2@198y2ty7ty2~qtpy37zx2tsy|tyt2@719y2A2y4A3y2",
    "@4y@3A2ytyA2t4y20@3051y4@140E@96y32@554sxzuv2@105D4@30162y@4y10@32y2@80y2@276E@37E4@148E@27",
    "y18@57t3@37E12@84C@12E@239y@y2t@2y2@5y2@y@52E11@236E3@20270V148@622y7t7y23@952t131@96t@149",
    "y10@1677t@y@40yAt5E@165yt5@569y12@57y5@317y2@77t2@t3@70t2y3tyt4@49ytyt@192E@41E@14E@57EC@69",
    "y3@48E3@61C@76E@9C@106EC@178CE6@75C2@16E3@22y26@78E@E@113E@3C@23y@99EC@251EC@126E@118EC@115",
    "E5@265EC@258E2@4C@156E@83E@18E9@73E@421E@258C@E2@81E@425E2@16876E@2496A5@59y7@1209B2@19628A",
    "@5318r2A3@3wr13t8@2y5t2@30y4@148y3@3515y256@48y7@375y18@44y4@508z2ty@254yt@243y@2y@7y2@5y9",
    "@466t82@34y6C@84783"]

def classRuns : List Text.Run :=
  Text.Run.readAll classTable

/-- The place of the character's class in the order of the classes, zero for one that starts. -/
def classOf (c : Char) : Nat :=
  ((Text.Run.letterAt? classRuns c.toNat).getD '@').toNat - 64

/-- A sign that takes the vowel from the consonant before it; its class is the fifth of the
marks. -/
def isVirama (c : Char) : Bool :=
  classOf c == 5

/-- The characters that are made of two, each before its two parts. -/
def compositeTable : List String :=
  ["e0 61 300 e1 61 301 e2 61 302 e3 61 303 e4 61 308 e5 61 30a e7 63 327 e8 65 300 e9 65 301",
    "ea 65 302 eb 65 308 ec 69 300 ed 69 301 ee 69 302 ef 69 308 f1 6e 303 f2 6f 300 f3 6f 301",
    "f4 6f 302 f5 6f 303 f6 6f 308 f9 75 300 fa 75 301 fb 75 302 fc 75 308 fd 79 301 ff 79 308",
    "101 61 304 103 61 306 105 61 328 107 63 301 109 63 302 10b 63 307 10d 63 30c 10f 64 30c",
    "113 65 304 115 65 306 117 65 307 119 65 328 11b 65 30c 11d 67 302 11f 67 306 121 67 307",
    "123 67 327 125 68 302 129 69 303 12b 69 304 12d 69 306 12f 69 328 135 6a 302 137 6b 327",
    "13a 6c 301 13c 6c 327 13e 6c 30c 144 6e 301 146 6e 327 148 6e 30c 14d 6f 304 14f 6f 306",
    "151 6f 30b 155 72 301 157 72 327 159 72 30c 15b 73 301 15d 73 302 15f 73 327 161 73 30c",
    "163 74 327 165 74 30c 169 75 303 16b 75 304 16d 75 306 16f 75 30a 171 75 30b 173 75 328",
    "175 77 302 177 79 302 17a 7a 301 17c 7a 307 17e 7a 30c 1a1 6f 31b 1b0 75 31b 1ce 61 30c",
    "1d0 69 30c 1d2 6f 30c 1d4 75 30c 1d6 fc 304 1d8 fc 301 1da fc 30c 1dc fc 300 1df e4 304",
    "1e1 227 304 1e3 e6 304 1e7 67 30c 1e9 6b 30c 1eb 6f 328 1ed 1eb 304 1ef 292 30c 1f0 6a 30c",
    "1f5 67 301 1f9 6e 300 1fb e5 301 1fd e6 301 1ff f8 301 201 61 30f 203 61 311 205 65 30f",
    "207 65 311 209 69 30f 20b 69 311 20d 6f 30f 20f 6f 311 211 72 30f 213 72 311 215 75 30f",
    "217 75 311 219 73 326 21b 74 326 21f 68 30c 227 61 307 229 65 327 22b f6 304 22d f5 304",
    "22f 6f 307 231 22f 304 233 79 304 390 3ca 301 3ac 3b1 301 3ad 3b5 301 3ae 3b7 301",
    "3af 3b9 301 3b0 3cb 301 3ca 3b9 308 3cb 3c5 308 3cc 3bf 301 3cd 3c5 301 3ce 3c9 301",
    "439 438 306 450 435 300 451 435 308 453 433 301 457 456 308 45c 43a 301 45d 438 300",
    "45e 443 306 477 475 30f 4c2 436 306 4d1 430 306 4d3 430 308 4d7 435 306 4db 4d9 308",
    "4dd 436 308 4df 437 308 4e3 438 304 4e5 438 308 4e7 43e 308 4eb 4e9 308 4ed 44d 308",
    "4ef 443 304 4f1 443 308 4f3 443 30b 4f5 447 308 4f9 44b 308 622 627 653 623 627 654",
    "624 648 654 625 627 655 626 64a 654 6c0 6d5 654 6c2 6c1 654 6d3 6d2 654 929 928 93c",
    "931 930 93c 934 933 93c 9cb 9c7 9be 9cc 9c7 9d7 b48 b47 b56 b4b b47 b3e b4c b47 b57",
    "b94 b92 bd7 bca bc6 bbe bcb bc7 bbe bcc bc6 bd7 c48 c46 c56 cc0 cbf cd5 cc7 cc6 cd5",
    "cc8 cc6 cd6 cca cc6 cc2 ccb cca cd5 d4a d46 d3e d4b d47 d3e d4c d46 d57 dda dd9 dca",
    "ddc dd9 dcf ddd ddc dca dde dd9 ddf 1026 1025 102e 1b06 1b05 1b35 1b08 1b07 1b35",
    "1b0a 1b09 1b35 1b0c 1b0b 1b35 1b0e 1b0d 1b35 1b12 1b11 1b35 1b3b 1b3a 1b35 1b3d 1b3c 1b35",
    "1b40 1b3e 1b35 1b41 1b3f 1b35 1b43 1b42 1b35 1e01 61 325 1e03 62 307 1e05 62 323",
    "1e07 62 331 1e09 e7 301 1e0b 64 307 1e0d 64 323 1e0f 64 331 1e11 64 327 1e13 64 32d",
    "1e15 113 300 1e17 113 301 1e19 65 32d 1e1b 65 330 1e1d 229 306 1e1f 66 307 1e21 67 304",
    "1e23 68 307 1e25 68 323 1e27 68 308 1e29 68 327 1e2b 68 32e 1e2d 69 330 1e2f ef 301",
    "1e31 6b 301 1e33 6b 323 1e35 6b 331 1e37 6c 323 1e39 1e37 304 1e3b 6c 331 1e3d 6c 32d",
    "1e3f 6d 301 1e41 6d 307 1e43 6d 323 1e45 6e 307 1e47 6e 323 1e49 6e 331 1e4b 6e 32d",
    "1e4d f5 301 1e4f f5 308 1e51 14d 300 1e53 14d 301 1e55 70 301 1e57 70 307 1e59 72 307",
    "1e5b 72 323 1e5d 1e5b 304 1e5f 72 331 1e61 73 307 1e63 73 323 1e65 15b 307 1e67 161 307",
    "1e69 1e63 307 1e6b 74 307 1e6d 74 323 1e6f 74 331 1e71 74 32d 1e73 75 324 1e75 75 330",
    "1e77 75 32d 1e79 169 301 1e7b 16b 308 1e7d 76 303 1e7f 76 323 1e81 77 300 1e83 77 301",
    "1e85 77 308 1e87 77 307 1e89 77 323 1e8b 78 307 1e8d 78 308 1e8f 79 307 1e91 7a 302",
    "1e93 7a 323 1e95 7a 331 1e96 68 331 1e97 74 308 1e98 77 30a 1e99 79 30a 1ea1 61 323",
    "1ea3 61 309 1ea5 e2 301 1ea7 e2 300 1ea9 e2 309 1eab e2 303 1ead 1ea1 302 1eaf 103 301",
    "1eb1 103 300 1eb3 103 309 1eb5 103 303 1eb7 1ea1 306 1eb9 65 323 1ebb 65 309 1ebd 65 303",
    "1ebf ea 301 1ec1 ea 300 1ec3 ea 309 1ec5 ea 303 1ec7 1eb9 302 1ec9 69 309 1ecb 69 323",
    "1ecd 6f 323 1ecf 6f 309 1ed1 f4 301 1ed3 f4 300 1ed5 f4 309 1ed7 f4 303 1ed9 1ecd 302",
    "1edb 1a1 301 1edd 1a1 300 1edf 1a1 309 1ee1 1a1 303 1ee3 1a1 323 1ee5 75 323 1ee7 75 309",
    "1ee9 1b0 301 1eeb 1b0 300 1eed 1b0 309 1eef 1b0 303 1ef1 1b0 323 1ef3 79 300 1ef5 79 323",
    "1ef7 79 309 1ef9 79 303 1f00 3b1 313 1f01 3b1 314 1f02 1f00 300 1f03 1f01 300 1f04 1f00 301",
    "1f05 1f01 301 1f06 1f00 342 1f07 1f01 342 1f10 3b5 313 1f11 3b5 314 1f12 1f10 300",
    "1f13 1f11 300 1f14 1f10 301 1f15 1f11 301 1f20 3b7 313 1f21 3b7 314 1f22 1f20 300",
    "1f23 1f21 300 1f24 1f20 301 1f25 1f21 301 1f26 1f20 342 1f27 1f21 342 1f30 3b9 313",
    "1f31 3b9 314 1f32 1f30 300 1f33 1f31 300 1f34 1f30 301 1f35 1f31 301 1f36 1f30 342",
    "1f37 1f31 342 1f40 3bf 313 1f41 3bf 314 1f42 1f40 300 1f43 1f41 300 1f44 1f40 301",
    "1f45 1f41 301 1f50 3c5 313 1f51 3c5 314 1f52 1f50 300 1f53 1f51 300 1f54 1f50 301",
    "1f55 1f51 301 1f56 1f50 342 1f57 1f51 342 1f60 3c9 313 1f61 3c9 314 1f62 1f60 300",
    "1f63 1f61 300 1f64 1f60 301 1f65 1f61 301 1f66 1f60 342 1f67 1f61 342 1f70 3b1 300",
    "1f72 3b5 300 1f74 3b7 300 1f76 3b9 300 1f78 3bf 300 1f7a 3c5 300 1f7c 3c9 300 1fb0 3b1 306",
    "1fb1 3b1 304 1fb6 3b1 342 1fc6 3b7 342 1fd0 3b9 306 1fd1 3b9 304 1fd2 3ca 300 1fd6 3b9 342",
    "1fd7 3ca 342 1fe0 3c5 306 1fe1 3c5 304 1fe2 3cb 300 1fe4 3c1 313 1fe5 3c1 314 1fe6 3c5 342",
    "1fe7 3cb 342 1ff6 3c9 342 219a 2190 338 219b 2192 338 21ae 2194 338 21cd 21d0 338",
    "21ce 21d4 338 21cf 21d2 338 2204 2203 338 2209 2208 338 220c 220b 338 2224 2223 338",
    "2226 2225 338 2241 223c 338 2244 2243 338 2247 2245 338 2249 2248 338 2260 3d 338",
    "2262 2261 338 226d 224d 338 226e 3c 338 226f 3e 338 2270 2264 338 2271 2265 338",
    "2274 2272 338 2275 2273 338 2278 2276 338 2279 2277 338 2280 227a 338 2281 227b 338",
    "2284 2282 338 2285 2283 338 2288 2286 338 2289 2287 338 22ac 22a2 338 22ad 22a8 338",
    "22ae 22a9 338 22af 22ab 338 22e0 227c 338 22e1 227d 338 22e2 2291 338 22e3 2292 338",
    "22ea 22b2 338 22eb 22b3 338 22ec 22b4 338 22ed 22b5 338 304c 304b 3099 304e 304d 3099",
    "3050 304f 3099 3052 3051 3099 3054 3053 3099 3056 3055 3099 3058 3057 3099 305a 3059 3099",
    "305c 305b 3099 305e 305d 3099 3060 305f 3099 3062 3061 3099 3065 3064 3099 3067 3066 3099",
    "3069 3068 3099 3070 306f 3099 3071 306f 309a 3073 3072 3099 3074 3072 309a 3076 3075 3099",
    "3077 3075 309a 3079 3078 3099 307a 3078 309a 307c 307b 3099 307d 307b 309a 3094 3046 3099",
    "309e 309d 3099 30ac 30ab 3099 30ae 30ad 3099 30b0 30af 3099 30b2 30b1 3099 30b4 30b3 3099",
    "30b6 30b5 3099 30b8 30b7 3099 30ba 30b9 3099 30bc 30bb 3099 30be 30bd 3099 30c0 30bf 3099",
    "30c2 30c1 3099 30c5 30c4 3099 30c7 30c6 3099 30c9 30c8 3099 30d0 30cf 3099 30d1 30cf 309a",
    "30d3 30d2 3099 30d4 30d2 309a 30d6 30d5 3099 30d7 30d5 309a 30d9 30d8 3099 30da 30d8 309a",
    "30dc 30db 3099 30dd 30db 309a 30f4 30a6 3099 30f7 30ef 3099 30f8 30f0 3099 30f9 30f1 3099",
    "30fa 30f2 3099 30fe 30fd 3099 105c9 105d2 307 105e4 105da 307 1109a 11099 110ba",
    "1109c 1109b 110ba 110ab 110a5 110ba 1112e 11131 11127 1112f 11132 11127 1134b 11347 1133e",
    "1134c 11347 11357 11383 11382 113c9 11385 11384 113bb 1138e 1138b 113c2 11391 11390 113c9",
    "113c5 113c2 113c2 113c7 113c2 113b8 113c8 113c2 113c9 114bb 114b9 114ba 114bc 114b9 114b0",
    "114be 114b9 114bd 115ba 115b8 115af 115bb 115b9 115af 11938 11935 11930 16121 1611e 1611e",
    "16122 1611e 16129 16123 1611e 1611f 16124 16129 1611f 16125 1611e 16120 16126 16121 1611f",
    "16127 16122 1611f 16128 16121 16120 16d68 16d67 16d67 16d69 16d63 16d67 16d6a 16d69 16d67"]

structure Composite where
  whole : Char
  first : Char
  second : Char
deriving DecidableEq, Repr

def compositesOf : List Nat → List Composite
  | whole :: first :: second :: rest =>
      ⟨Char.ofNat whole, Char.ofNat first, Char.ofNat second⟩ :: compositesOf rest
  | _ => []

def composites : List Composite :=
  compositesOf <| compositeTable.flatMap fun line =>
    (Text.pieces ' ' line.toList).filterMap (Text.number? 16)

/-! ## Hangul syllables

A syllable is made of a leading consonant and a vowel, and after them maybe a
trailing consonant.  Their code points are counted through in that order.
-/

def leadingBase : Nat := 0x1100

def vowelBase : Nat := 0x1161

def trailingBase : Nat := 0x11a7

def syllableBase : Nat := 0xac00

def splitSyllable? (c : Char) : Option (Char × Char) :=
  if syllableBase ≤ c.toNat ∧ c.toNat < syllableBase + 11172 then
    let index := c.toNat - syllableBase
    let trailing := index % 28
    if trailing = 0 then
      some (Char.ofNat (leadingBase + index / 588), Char.ofNat (vowelBase + index % 588 / 28))
    else some (Char.ofNat (c.toNat - trailing), Char.ofNat (trailingBase + trailing))
  else none

def joinSyllable? (a b : Char) : Option Char :=
  if leadingBase ≤ a.toNat ∧ a.toNat < leadingBase + 19
      ∧ vowelBase ≤ b.toNat ∧ b.toNat < vowelBase + 21 then
    some (Char.ofNat
      (syllableBase + (a.toNat - leadingBase) * 588 + (b.toNat - vowelBase) * 28))
  else if syllableBase ≤ a.toNat ∧ a.toNat < syllableBase + 11172
      ∧ (a.toNat - syllableBase) % 28 = 0
      ∧ trailingBase < b.toNat ∧ b.toNat < trailingBase + 28 then
    some (Char.ofNat (a.toNat + (b.toNat - trailingBase)))
  else none

/-! ## Taking apart and putting together -/

def split? (c : Char) : Option (Char × Char) :=
  (splitSyllable? c).or
    ((composites.find? (fun composite => composite.whole == c)).map fun composite =>
      (composite.first, composite.second))

def join? (a b : Char) : Option Char :=
  (joinSyllable? a b).or
    ((composites.find? (fun composite => composite.first == a && composite.second == b)).map
      (·.whole))

def partsWithin : Nat → Char → List Char
  | 0, c => [c]
  | steps + 1, c =>
      match split? c with
      | some (first, second) => partsWithin steps first ++ [second]
      | none => [c]

def parts (c : Char) : List Char :=
  partsWithin 2 c

/-- Add a character to a text that stands in reverse, in front of all marks of a later class. -/
def insertInOrder (done : List Char) (c : Char) : List Char :=
  match done with
  | [] => [c]
  | d :: rest =>
      if classOf c ≠ 0 ∧ classOf c < classOf d then d :: insertInOrder rest c else c :: done

def decompose (text : List Char) : List Char :=
  ((text.flatMap parts).foldl insertInOrder []).reverse

/-- A text that is being put together: what is finished, the character that may still grow, and the
marks after it that did not join it, each list in reverse. -/
structure Composing where
  finished : List Char
  start : Option Char
  marks : List Char
deriving DecidableEq, Repr

namespace Composing

def toList (s : Composing) : List Char :=
  s.finished.reverse ++ s.start.toList ++ s.marks.reverse

def isBlocked (s : Composing) (c : Char) : Bool :=
  s.marks.head?.any (fun mark => classOf c ≤ classOf mark)

def add (s : Composing) (c : Char) : Composing :=
  match if s.isBlocked c then none else s.start.bind (join? · c) with
  | some joined => { s with start := some joined }
  | none =>
      if classOf c = 0 then ⟨s.toList.reverse, some c, []⟩
      else { s with marks := c :: s.marks }

end Composing

def compose (text : List Char) : List Char :=
  (text.foldl Composing.add ⟨[], none, []⟩).toList

def isNormal (text : List Char) : Bool :=
  compose (decompose text) == text

end NormalForm

/-! ## Joiners -/

namespace Joiner

/-- How the characters that names have join their neighbours: `L` the one after them, `R` the one
before them, `D` both, `U` none; `T` is not seen by the neighbours. -/
def joiningTable : List String :=
  ["U768T113U274T8U262T45UTUT2UT2UT9U64T11U5DUR4DRDRD5R4D13UD7RD2T21U14D2TR3U5D15R18D38RD2R9DRDR",
    "D2R2URT8UT6U2T2UT4R2U10D3U2DU16RTD3R5D4RD9RDRDRD2RT29RD11R3D15R2D4RDR2D3R2D6U38T11U25D33T9U9",
    "TU24T4UT9UT3UT7U16RD5R2DRD10RDR3T5U2DUD4URDR26U3DU2D5RD8T9D10R3URD2R2D6RD15UT57U55TUTU4T8U4T",
    "U3T15U2T2U29TU58TU4T6U6TU20T4U24T5U57T2U3T27U20T2U3TU11T2U57TU4T8U4T3U18T4U20T8U58TU2TUT6U6",
    "T10U11T4U28TU61TU12T3U48TU3TU55TUT3U5T18U10T4U27TU58TU2TU6TU5T9U13T4U26T2U57T2U4T5U7TU20T4",
    "U27TU72T5U3T6U89TU2T11U8T8U98TU2T9U11T8U72T2U27TUTUTU55T14UT5UT2U5T49U8TU102T4UT6UT2U2T2U25",
    "T2U4T3U16T4U13TU2T2U6TU15TU703T3U946T3U29T2U30T14U18T14U55T7U8TU2T11U9T3U39DU24D96U5T2D34TD6",
    "U112T3U4T2U9TU6T7U215T2U2T3U56TUT9UTU2T8U6T13U48T84U48TUT5UTU5TU40T9U12T2U32T4U2T2UT3U56TUT2",
    "U3TUT3U58T8U2T5U149T3UT13UT7U4TU6TU3T2U198T65U719T52U3051T4U140TU96T32U554T4U107T4U30162T4U",
    "T10U32T2U80T2U272TU3TU4TU25T2U5T4U16D50LU81T10U18T18U13TU38T8U25T11U46T3U48TU2T4U2T2U39TU67",
    "T6U2T2U2T11U3TU8TU47TU51TUT3U2T2U5T2UTU42T2U8T11U228TU2TU4T3U20270T148U622T37U952T131U96T",
    "U149T10U1665T15U40T8U128D5RURUR2U2LR5D4LD5RD3RU2RT6D4RU144DRDR3D3RD2RDR2DR8U16R4D2U337LD33RD",
    "T12U57T5U317T2U21RD2UD10U42T6U48D3RD17UT11D3RU27D4R2D12T4U42DUD2R3UDR2D2RD2UDR2DU4RDL21U33T",
    "U54T15U41TU2T2U10T3U49T4U2T2U7T14U48T3U36T5UT9U61TU12T2U52T9U10T4U2TU95T3U2TUT2U6TU2T63U95T",
    "U3T13U16T2U57T2U3TU37T26U59T7U12TUTUTU14T31U56T8U2T3UTU23TU84T6UTU4T2UT2U238T6U4T2UT2U27T36",
    "U51T8U2TUT2U106TUTU2T6UTU101TUTU2T4UT9U255T9UT2U256T2UTU4TU144T8U4TU32T10U40T6U2T4U8T9UT6U2",
    "T3U46T13UT2U198TUT3UTU201T14UTU82T23UT7UT2UT75U49T21UT9U64T3U2TUTU347T2U11T2U52T8U2TUTU23T86",
    "U5264TU6T25U11454T12U3T3U2496T5U59T7U1048TU63T4U81T12U19629T2U4705T80U535T3U17T8U2T7U30T4",
    "U148T3U1979T55U4T50U8TU14TU22T1125U256T256U48T7U375T18U44T4U508T4U254T2U243TU2TU7T2U5T9U466",
    "T82D34T12U84778"]

def joiningRuns : List Text.Run :=
  Text.Run.readAll joiningTable

def joiningOf (c : Char) : Char :=
  (Text.Run.letterAt? joiningRuns c.toNat).getD 'U'

def meets (ways : List Char) (cs : List Char) : Bool :=
  (cs.find? (fun c => joiningOf c != 'T')).any (fun c => ways.contains (joiningOf c))

def isJoiner (c : Char) : Bool :=
  c == '\u200c' || c == '\u200d'

/-- A joiner stands after a virama. The one that keeps its neighbours apart also stands between two
that would be joined. -/
def isPlaced (before : List Char) (c : Char) (after : List Char) : Bool :=
  before.head?.any NormalForm.isVirama
    || (c == '\u200c' && meets ['L', 'D'] before && meets ['R', 'D'] after)

def arePlaced (before : List Char) : List Char → Bool
  | [] => true
  | c :: after => (!isJoiner c || isPlaced before c after) && arePlaced (c :: before) after

end Joiner

/-! ## The characters of names -/

/-- Of version 17 of Unicode: `c` for a character, `m` for a mark, `x` for what no name has. -/
def admissionTable : List String :=
  ["c128x33c7xcxc2xcxc2x4c2x3cx3cx23cx7c33xcxcxcxcxcxcxcxcxcxcxcxcxcxcxcxcxcxcxcxcxcxcxcxcxcx3cx",
    "c2xcxcxcx3cxcxcxcx2cxcxcxcxcxcxcxcxcxcxcxcxcxcxcxcxcxcxcxcxcxcxcx2cxcxcxcx2cxcx2cx3c2x4cx2c",
    "x3c3x2cx2cxcxcx2cxc2xcx2cx3cxcx2c3xc7x10cxcxcxcxcxcxcxc2xcxcxcxcxcxcxcxcxc2x4cx3cxcxcxcxcxcx",
    "cxcxcxcxcxcxcxcxcxcxcxcxcxcxcxcxcxcxcxcxcxcxcxc7x2cx2c2xcx4cxcxcxcxc97x9c31x6c2x5c27m64x2mx3",
    "m9xm32xcxcxcxcx3c3x18cx27c35x8cxcxcxcxcxcxcxcxcxcxcxcxcx3cx2cxcx2c2x51c48xcxcxcxcxcxcxcxcxcx",
    "cxcxcxcxcxcxcxc2m7xcxcxcxcxcxcxcxcxcxcxcxcxcxcxcxcxcxcxcxcxcxcxcxcxcxcxcx2cxcxcxcxcxcxc2xcxc",
    "xcxcxcxcxcxcxcxcxcxcxcxcxcxcxcxcxcxcxcxcxcxcxcxcxcxcxcxcxcxcxcxcxcxcxcxcxcxcxcxcxcxcxcxcxcxc",
    "x41c46xc3x2c3xm45cmcm2cm2cmx8c27x4c6x17c10m11cxc46m21c16mc4x4c93m7xcm6c2m2cm4c32x2cmc30m27x2",
    "c89m11cx14c43m9c7x2mc24m4cm9cm3cm5x2c15xc25m3x2cxc11x5c32x7m9c42m24xm33c54m3cm18cm7x8c2m2c29",
    "m3xc8x2c2x2c22xc7xcx3c4x2mcm7x2m2x2m3cx8mx8c2m2x2c24mx2m3xc6x4c2x2c22xc7xcx2cx2c2x2mxm5x4m2",
    "x2m3x3mx10cx9c10m2c3mcx10m3xc9xc3xc22xc7xc2xc5x2mcm8xm3xm3x2cx15c2m2x2c12x7cm6xm3xc8x2c2x2",
    "c22xc7xc2xc5x2mcm7x2m2x2m3x7m3x7c3m2x2c18x10mcxc6x3c3xc4x3c2xcxc2x3c2x3c3x3c12x4m5x3m3xm4x2c",
    "x6mx14c21x5m5c8xc3xc23xc16x2mcm7xm3xm4x7m2xc3xc2x2c2m2x2c10x7c10m3c9xc3xc23xc10xc5x2mcm7xm3x",
    "m4x7m2x5c3xc2m2x2c10xc2mx12m4c9xc3xc41m2cm7xm3xm4c2x4c3mc10m2x2c26xm3xc18x3c24xc9xcx2c7x3mx4",
    "m6xmxm8x6c10x2m2cx12c48mcxm7x4c8m8c13x37c2xcxc5xc24xcxc10mcxm9cx2c5xcxm7xc10x4c2x32c12xc11m2",
    "c27mcmcmc4m2c3xc4xc4xc4xc4xc4xc12xc3x4m2xmx5m7xm3cm2c5m6xm4xm4xm4xm4xm4xm12xm3xc8mc6xc13x37",
    "c43m20c23m4c4m3cm3c2m7c3m4c13m12cmc10m4c2x48c44xc98x2c232xc4x2c7xcxc4x2c41xc4x2c33xc4x2c7xcx",
    "c4x2c15xc57xc4x2c67x2m3c29x3c26x6c86x10c640xc28x3c89x7c18m4x9c19m3c2x9c18m2x12c13xc3xm2x12",
    "c52x2m30c9mx2c10x6c10x6c11x5c10x6c89x7c5m2c34mcx5c70x10c31xm12x4m12x4cx3c42x2c5x11c44x4c26x6",
    "c11x3c57m5x2c55m10xm29x2mc10x6c10x6c14x2m46x2m12x20m5c47m17c8xc29m9c12m3c30m13c56m14x8c40m20",
    "x3c15x3c51x10cx53c8x8m3cm21c4mc6mc2m3cx5c44x3cx11cx18cx28c13xc34x37m64xcxcxcxcxcxcxcxcxcxcxc",
    "xcxcxcxcxcxcxcxcxcxcxcxcxcxcxcxcxcxcxcxcxcxcxcxcxcxcxcxcxcxcxcxcxcxcxcxcxcxcxcxcxcxcxcxcxcxc",
    "xcxcxcxcxcxcxcxcxcxcxcxcxcxcxcxcxcxc5x2c2xcxcxcxcxcxcxcxcxcxcxcxcxcxcxcxcxcxcxcxcxcxcxcxcxcx",
    "cxcxcxcxcxcxcxcxcxcxcxcxcxcxcxcxcxcxcxcxcxcxcxc9x8c6x10c8x8c8x8c6x10c8x8c8x8cxcxcxcxcxcxcx51",
    "c2x4cx15cx9c3x3c2x8c3xc4x14cx21c2x2cxc5xc12x3cx8c3x2cx2c4xcxc8x3c13xc7x65c8xc25x14m33x19cx3c",
    "x11cx2c2x5c2x3cxcxcxcx4cx11cx6c4x5c6x48c3xc5xc2x4c156x2cx2c248x2c255x22c11x160c1313xc103x3",
    "c101xc151x2c138x48c48xcx3c2xcxcxcx4cxc2xc6x5cxcxcxcxcxcxcxcxcxcxcxcxcxcxcxcxcxcxcxcxcxcxcxcx",
    "cxcxcxcxcxcxcxcxcxcxcxcxcxcxcxcxcxcxcxcxcxcxcxcxcxc8xcxcm3xcx5c45xcx5cx2c56x8cx14mc23x9c7xc7",
    "xc7xc7xc7xc7xc7xc7xm32c94x34c26xc4xc83x270cxc39m6c6xcx3c5xc86x2m2x2c2xc95x6c43x96c2x14c70x10",
    "c16x72c8x47cx384c28813x3c55x9c348x21cxcxcxcxcxcxcxcxcxcxcxcxcxcxcxcxcxcxcxcxcxcxc2m4cm10c2xc",
    "xcxcxcxcxcxcxcxcxcxcxcxcxcx2m2c80m2c6x8c34xcxcxcxcxcxcxc3xcxcxcxcxcxcxcxcxcxcxcxcxcxcxcxcxcx",
    "cxcxcxcxcxcxcxcxcxcxcxcxcxcxc8xcxcx2cxcxcxcxc4xcxc2xcxc3xcxcxcxcxcxcxcxcxcxcx5cx5cxcxcxcxcxc",
    "xcxcx4cxcx2cxcxcxcxcxcxcxcx26c2x2c8mc3mc4mc23m5c4mx3c10x6c56x8m2c50m18x8c12x6m18c13mc38m8c25",
    "m13x11c30x3m4c47m14c13xc11x4c7mc25xc41m14x9c3mc8m2x2c10x2c31m3c50mcm3c2m2c5m2cmcx24c16m5c5m2",
    "x10c6x2c6x2c6x9c7xc7xc44x4c9xc2x84c35m8cm2x2c10x6c11172x12c23x4c49x8722c2xcxc2x10cxcxc2x2c3",
    "x244mx147c33x363c18x64c2x54c8x45c3x32m16x21c2x44cx396c12xc26xc19xc2xc15x2c14x34c123x5c3x4c45",
    "x3c88xc13x3cx47c45mx130c29x3c49x15mc27x4c36x9c30x5c38m5x5c30xc37x4c14x82c118x2c10x46c36x4c40",
    "x8c52x11cx39c11xc15xc7xc2x3c52x12c311x9c22x10c8x24cx127c6x2cxc44xc2x3cx2c23xc72x8c9x48c19xc2",
    "x5c33x3c27x5c27x38c56x4c20x2c47m3xm2x5m4c4xc3xc29x2m3x4mc9x7c9x7c64x32c37m2x4c12x9c54x3c29x2",
    "c27x5c26x7c4x12c7x80c73x119c51x7c42m4x8c10x6c16x25m5c24x8c2x208c31xc42xm2cx2c2x16c6x8c9x33m6",
    "c40x8c22m11c9x22c18m4c4x38c28x20c23x9m3c53m15c7x4c30mc2m2cx9m4c45m11c2xc4mx13c25x7c10x6m3c36",
    "m14xc15m2cx8c35mc3x9m3c48m14c8m4cm2c16xc20x11c18xc25m12c6mc2mx62c7xcxc4xc15xc11x6c47m12x5c10",
    "x6m4xc8x2c2x2c22xc7xc2xc5xm2cm7x2m2x2m3x2cx6mx5c5m2x2m7x3m5x11c10xcx2cxc38xcm9xmx2mxm4xm5cm",
    "c3xc2x8m2x29c53m18c21xcmc3x30c48m20c4x8c10x166c47m7x2m9c27m2x34c48m17c4x11c10x6c13x19c43m13",
    "c2x6c10x6c20x28c27x2m15x4c23x185c44m15cx132c51x12c8x2cx2c8xc2xc24m6xm2x2m4cmcm2c3x9c10x70c8",
    "x2c39m7x2m7c3mx27cm10c40m7cm4c8mx8cm11c46m16c9x13c73x7c10x86m8x88c34x14c10x6c9xc37m8xm8c6x10",
    "c29x3c32x2m22xm14x73c7xc2xc38m6x3mxm2xm7cmx8c10x6c6xc2xc32m5xm2xm5cx7c10x6c44x4c10x246c19m4",
    "c2x7m2cmc13xc34m7x3m5c23mx85cx15c50x13c923x102c111xc5x11c196x2636c99x13c1072x16mc6m15x10",
    "c3995x5c583x6841c30m18c10x1734c569x7c31xc10x4c81xc10x6c30x2m5cx10c48m7c15x10c10xc7xc21x5c19",
    "x432c58x230c59x32c25x44c75x4mcm55x7m4c13x64c4mx11m2c5x9c7382x41c32x97c115x8701c4xc7xc2xc291",
    "x15cx29c3x2cx14c4x8c396x2308c107x5c13x3c9x7c10x2cm2cx3936c214x36c3x3c436x6c23x15c17x15m46x2",
    "m23x9c116x60c246x10c39x2c53x7m5c3m6x8m8c2m7c30m4c13x6c42x21c66m3cx122c20x12c20x12c87x9c25",
    "x1159c512m55c4m50c8mc14mc7x15m5xm15x1104c31x6c6x213m7xm17x2m7xm2xm5x100mx112c45x3m7c7x2c10x4",
    "c2x320c30mx17c44m4c10x5cx464c28m4c10x214c30m2c11x4cx192c31xc3mc2mc7m2c5mx8c2x224c7xc4xc2xc15",
    "xc197x2c9m7x75c34m7cx4c10x4c2x785c68x76c61x434c2x270c44x4c100x12c15x2c15xc15xc37x21c5x31cx32",
    "c26x3c35xc29x56c26x96c6x154c985x3c17x3c13x3c218x6c12x4cx15c12x4c56x8c10x6c40x8c30x2c12x4c2",
    "x14c9x39c344x8c14x2c13x3c11x3c57xcx4c16x2c12x4c10x7c147xc92x10cx1029c42720x32c4382x2c5774x2",
    "c7473x15c622x4514c4939x5c8490"]

def admissionRuns : List Text.Run :=
  Text.Run.readAll admissionTable

/-- Of ASCII this tells nothing: the signs and the capital letters pass. -/
def isAdmitted (c : Char) : Bool :=
  (Text.Run.letterAt? admissionRuns c.toNat).any (· != 'x')

def isMark (c : Char) : Bool :=
  Text.Run.letterAt? admissionRuns c.toNat == some 'm'

/-! ## Directions of writing -/

inductive Direction where
  | left
  | right
  | europeanNumber
  | arabicNumber
  | neutral
  | mark
deriving DecidableEq, Repr

namespace Direction

/-- The directions of the characters that names have: `L` and `R`, `E` and `A` for the two kinds of
numbers, `M` for marks, `N` for neutral characters. -/
def table : List String :=
  ["N48E10N7L26N6L26N100L24NL449N2L7N14L2N28LN17M113L4N2L127N2L139M8L255N7M45RMRM2RM2RM9R54N2RN2",
    "RNRN2M11R48M21A10NA2R3MR101M8NM6R2M2NM4R2E10R23MR30M29R89M11R58M9R2N4R3MR24M4RM9RM3RM7R41M5",
    "R57M9R42M57L55MLML4M8L4ML3M15L2M2L29ML58ML4M6L6ML20M4L12N2L7NL2M5L57M2L3M27L20M2L3ML11M2L57M",
    "L4M8L4M3L18M4L11N8LM8L58ML2MLM6L6M10L11M4L28ML61ML12M3L35N13ML3ML55MLM3L5M18L10M4L18N7L2ML58",
    "ML15M9L13M4L26M2L57M2L4M5L7ML20M4L27ML72M5L3M6L89ML2M11NL7M8L98ML2M9L11M8L72M2L27MLMLMN4L51",
    "M14LM5LM2L5M49L8ML102M4LM6LM2L2M2L25M2L4M3L16M4L13ML2M2L6ML15ML703M3L48N16L96NL666N5L114M3",
    "L29M2L30M14L18M14L55M7L8ML2M11L7NLM3L16N32L117M2L34ML118M3L4M2L9ML6M7N6L152N34L23M2L2M3L56ML",
    "M9LML2M8L6M13L48M84L48MLM5LML5ML40M9L12M2L32M4L2M2LM3L56MLM2L3MLM3L58M8L2M5L149M3LM13LM7L4M",
    "L6ML3M2L198M65L523N196M52N74L60N428L69N26LN790LN339L256N816L181N7L3M4L6N7L127ML96M32N517L3",
    "N25L9M4L2NL6N4L2N4L88M4L3NL90NL196N48L7120N64L22160N64L317N3L95M4NM10N3L29M2L80M2L14N35L101N",
    "L121ML3ML4ML25M2LN4M4L8N8L52N12L68M10L18M18L13ML38M8L25M11L46M3L48ML2M4L2M2L39ML67M6L2M2L2",
    "M11L3ML8ML47ML51MLM3L2M2L5M2LML42M2L8M11L105N86L37ML2ML4M3L20270M148R17N605M37N46R397L257N",
    "L62N77L3N64L45M131L96ME31L118M10L1152R287NR225M15R40M8R165M6R78N7R484M12A16R41M5NR241A32R43",
    "M2R35N42M6R70M11R49M4R122LML54M15L11N20L10ML2M2L10M3L49M4L2M2L7M14L48M3L36M5LM9L61ML12M2L52",
    "M9L10M4L2ML95M3L2MLM2L6ML2M63L95ML3M13L16M2L57M2L3ML37M26L59M7L12MLMLML14M31L56M8L2M3LML23M",
    "L84M6LML4M2LM2L238M6L4M2LM2L27M36L51M8L2MLM2L31N32L43MLML2M6LML101MLML2M4LM9L255M9LM2L256M2L",
    "ML4ML144M8L4ML32M6L2M2L40M6L2M4L8M9LM6L2M3L46M13LM2L198MLM3LML201M14L84M23LM7LM2LM75L49M21L",
    "M9L64M3L2MLML347M2L11M2L52M8L2MLML23M86L37N42L5185ML6M25L11454M12L3M3L2496M5L59M7L1048ML63M4",
    "L79NLM12L19629M2L3937N768M80L535M3L17M8L2M7L30M4L59N89M3N123L64N96L1696M55L4M50L8ML14ML22",
    "M1125L256M256L48M7L375M18L44M4L15N465L28M4L254M2L243ML2ML7M2L5M9L258R208M82R34M7R1445N608L29",
    "N3L61N57L122N3488L78970"]

def runs : List Text.Run :=
  Text.Run.readAll table

def ofChar (c : Char) : Direction :=
  match Text.Run.letterAt? runs c.toNat with
  | some 'R' => right
  | some 'E' => europeanNumber
  | some 'A' => arabicNumber
  | some 'N' => neutral
  | some 'M' => mark
  | _ => left

def isRightward (d : Direction) : Bool :=
  d == right || d == arabicNumber

def ending? (ds : List Direction) : Option Direction :=
  ds.reverse.find? (· != mark)

/-- A label keeps one direction: that of its first character, which is no number and not
neutral. It ends in that direction or in a number, and one from right to left does not mix the
kinds of numbers. -/
def isCoherent (ds : List Direction) : Bool :=
  match ds.head? with
  | none => true
  | some left =>
      ds.all (fun d => d != right && d != arabicNumber)
        && (ending? ds).any (fun d => d == left || d == europeanNumber)
  | some right =>
      ds.all (· != left)
        && (ending? ds).any (fun d => d == right || d == europeanNumber || d == arabicNumber)
        && !(ds.contains europeanNumber && ds.contains arabicNumber)
  | some _ => false

end Direction

/-! ## Labels and names -/

def codedPrefix : List Char :=
  "xn--".toList

def isCoded (label : List Char) : Bool :=
  codedPrefix.isPrefixOf label

def isCodable (text : List Char) : Bool :=
  text.length ≤ 1000
    && text.any (fun c => 0x7f < c.toNat)
    && !isCoded text
    && text.all isAdmitted
    && !text.head?.any isMark
    && NormalForm.isNormal text
    && Joiner.arePlaced [] text

def textOf? (label : List Char) : Option (List Char) :=
  if isCoded label then
    let coded := label.drop codedPrefix.length
    if 2000 < coded.length then none else (Punycode.decode? coded).filter isCodable
  else some label

/-- Either all texts are written from left to right, or each of them keeps one direction. -/
def areCoherent (texts : List (List Char)) : Bool :=
  let directions := texts.map (·.map Direction.ofChar)
  !directions.any (·.any Direction.isRightward) || directions.all Direction.isCoherent

/-- A name in lower case that can be written in the scripts of its labels. One without coded labels
is ASCII, which is written from left to right. -/
def isWritable (name : List Char) : Bool :=
  let labels := Text.pieces '.' name
  !labels.any isCoded || (labels.mapM textOf?).any areCoherent

theorem isWritable_of_plain {name : List Char}
    (h : ∀ label ∈ Text.pieces '.' name, isCoded label = false) : isWritable name = true := by
  have hplain : (Text.pieces '.' name).any isCoded = false := by
    simpa using h
  simp [isWritable, hplain]

end DomainName

end NegotiateAuth
