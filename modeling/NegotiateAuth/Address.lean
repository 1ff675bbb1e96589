import NegotiateAuth.Text

/-! # IP addresses

Addresses of either family and the text that each of them has: dotted decimal octets in their
shortest form, or groups in lower-case hexadecimal with the first of the longest runs of two or more
zero groups left out. URLs take IPv4 addresses in one to four numbers of several bases too.
-/

namespace NegotiateAuth

/-! ## IPv4 -/

namespace Address

structure Ipv4 where
  a : UInt8
  b : UInt8
  c : UInt8
  d : UInt8
deriving DecidableEq, Repr

namespace Ipv4

def ofNat (n : Nat) : Ipv4 :=
  ⟨UInt8.ofNat (n / 16777216), UInt8.ofNat (n / 65536), UInt8.ofNat (n / 256), UInt8.ofNat n⟩

def toText (ip : Ipv4) : String :=
  s!"{ip.a.toNat}.{ip.b.toNat}.{ip.c.toNat}.{ip.d.toNat}"

/-- An octet: one to three decimal digits without a leading zero. -/
def readOctet? (cs : List Char) : Option UInt8 :=
  match cs with
  | '0' :: _ :: _ => none
  | _ =>
      match Text.number? 10 cs with
      | some number => if number < 256 then some (UInt8.ofNat number) else none
      | none => none

def read? (cs : List Char) : Option Ipv4 :=
  match (Text.pieces '.' cs).map readOctet? with
  | [some a, some b, some c, some d] => some ⟨a, b, c, d⟩
  | _ => none

end Ipv4

/-! ## IPv6 -/

structure Ipv6 where
  groups : List UInt16
  eight_groups : groups.length = 8
deriving DecidableEq, Repr

namespace Ipv6

def ofGroups? (groups : List UInt16) : Option Ipv6 :=
  if h : groups.length = 8 then some ⟨groups, h⟩ else none

/-- A group: one to four hexadecimal digits. -/
def readGroup? (cs : List Char) : Option UInt16 :=
  if cs.length ≤ 4 then (Text.number? 16 cs).map UInt16.ofNat else none

def quadGroups (quad : Ipv4) : List UInt16 :=
  [UInt16.ofNat (quad.a.toNat * 256 + quad.b.toNat),
    UInt16.ofNat (quad.c.toNat * 256 + quad.d.toNat)]

/-- Groups separated by colons, the last two perhaps as an IPv4 address. -/
def readPieces? (quadAllowed : Bool) : List (List Char) → Option (List UInt16)
  | [] => some []
  | [piece] =>
      match readGroup? piece with
      | some group => some [group]
      | none => if quadAllowed then (Ipv4.read? piece).map quadGroups else none
  | piece :: rest =>
      match readGroup? piece with
      | some group => (readPieces? quadAllowed rest).map (group :: ·)
      | none => none

def readGroups? (quadAllowed : Bool) (cs : List Char) : Option (List UInt16) :=
  if cs.isEmpty then some [] else readPieces? quadAllowed (Text.pieces ':' cs)

def splitGap? : List Char → Option (List Char × List Char)
  | [] => none
  | ':' :: ':' :: rest => some ([], rest)
  | c :: rest => (splitGap? rest).map fun parts => (c :: parts.1, parts.2)

def read? (cs : List Char) : Option Ipv6 :=
  match splitGap? cs with
  | none => (readGroups? true cs).bind ofGroups?
  | some (before, after) =>
      match readGroups? false before, readGroups? true after with
      | some head, some tail =>
          let written := head.length + tail.length
          if written < 8 then ofGroups? (head ++ List.replicate (8 - written) 0 ++ tail) else none
      | _, _ => none

def zeroRun (groups : List UInt16) : Nat :=
  (groups.takeWhile (· = 0)).length

/-- Place and length of the first of the longest runs of zero groups, from `place` on. -/
def longestRun (place : Nat) : List UInt16 → Nat × Nat
  | [] => (place, 0)
  | group :: rest =>
      let here := zeroRun (group :: rest)
      let later := longestRun (place + 1) rest
      if later.2 ≤ here then (place, here) else later

def groupText (group : UInt16) : List Char :=
  Nat.toDigits 16 group.toNat

def groupsText (groups : List UInt16) : List Char :=
  [':'].intercalate (groups.map groupText)

/-- The text in groups, as it stands between the brackets of a URL. -/
def toGroupText (ip : Ipv6) : String :=
  let run := longestRun 0 ip.groups
  if run.2 < 2 then String.ofList (groupsText ip.groups)
  else
    String.ofList (groupsText (ip.groups.take run.1) ++ [':', ':'] ++
      groupsText (ip.groups.drop (run.1 + run.2)))

def mapped? (ip : Ipv6) : Option Ipv4 :=
  match ip.groups with
  | [0, 0, 0, 0, 0, 0xffff, high, low] => some (Ipv4.ofNat (high.toNat * 65536 + low.toNat))
  | _ => none

/-- The text of the address by itself; a mapped IPv4 address is dotted. -/
def toText (ip : Ipv6) : String :=
  match ip.mapped? with
  | some quad => "::ffff:" ++ quad.toText
  | none => ip.toGroupText

end Ipv6

end Address

/-! ## Either family -/

inductive IpAddress where
  | v4 (ip : Address.Ipv4)
  | v6 (ip : Address.Ipv6)
deriving DecidableEq, Repr

namespace IpAddress

def toText : IpAddress → String
  | v4 ip => ip.toText
  | v6 ip => ip.toText

def read? (text : String) : Option IpAddress :=
  match Address.Ipv4.read? text.toList with
  | some ip => some (v4 ip)
  | none => (Address.Ipv6.read? text.toList).map v6

end IpAddress

/-! ## IPv4 addresses in numbers -/

namespace Address

namespace Numeric

/-- A number: hexadecimal after `0x`, octal after `0`, decimal otherwise; `0x` alone is zero. -/
def readNumber? (cs : List Char) : Option Nat :=
  match cs with
  | [] => none
  | '0' :: 'x' :: rest => Text.numberFrom? 16 0 rest
  | '0' :: 'X' :: rest => Text.numberFrom? 16 0 rest
  | '0' :: c :: rest => Text.numberFrom? 8 0 (c :: rest)
  | _ => Text.numberFrom? 10 0 cs

/-- The parts between the points; a point at the end separates nothing. -/
def parts (cs : List Char) : List (List Char) :=
  let all := Text.pieces '.' cs
  if all.getLast? = some [] then all.dropLast else all

/-- The last part is a number, or all digits. -/
def endsInNumber (cs : List Char) : Bool :=
  match (parts cs).getLast? with
  | some last => (!last.isEmpty && last.all (Text.isDigitIn 10)) || (readNumber? last).isSome
  | none => false

/-- The address below `span` that numbers make up: each number but the last one is an octet, and the
last one fills what is left. -/
def combine? (span : Nat) : List Nat → Option Nat
  | [] => none
  | [last] => if last < span then some last else none
  | octet :: rest =>
      if octet < 256 then (combine? (span / 256) rest).map (octet * (span / 256) + ·) else none

def read? (cs : List Char) : Option Ipv4 :=
  let texts := parts cs
  if 4 < texts.length then none
  else (texts.mapM readNumber?).bind fun numbers => (combine? 4294967296 numbers).map Ipv4.ofNat

end Numeric

end Address

end NegotiateAuth
