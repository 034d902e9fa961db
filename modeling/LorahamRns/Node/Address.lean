import Mathlib

/-!
# Loopback addresses

`ipaddress.ip_address` and `is_loopback` of the standard library, on the textual
forms of IPv4 and IPv6 addresses.
-/

namespace LorahamRns.Node

/-- The value of digits in a base, most significant first. -/
def ofDigits (base : ℕ) (digits : List ℕ) : ℕ :=
  digits.foldl (fun value digit => value * base + digit) 0

/-- One octet of an IPv4 address: one to three ASCII digits, no leading zero. -/
def parseOctet (text : List Char) : Option ℕ :=
  if text = [] ∨ 3 < text.length ∨ !text.all Char.isDigit then none
  else if text ≠ ['0'] ∧ text.head? = some '0' then none
  else
    let value := ofDigits 10 (text.map fun digit => digit.toNat - '0'.toNat)
    if 255 < value then none else some value

/-- `IPv4Address(text)` as a 32-bit number. -/
def ipv4Address (text : List Char) : Option ℕ :=
  let octets := text.splitOn '.'
  if '/' ∈ text ∨ octets.length ≠ 4 then none
  else (octets.mapM parseOctet).map (ofDigits 256)

def hexDigit (digit : Char) : Option ℕ :=
  if digit.isDigit then some (digit.toNat - '0'.toNat)
  else if 'a' ≤ digit ∧ digit ≤ 'f' then some (digit.toNat - 'a'.toNat + 10)
  else if 'A' ≤ digit ∧ digit ≤ 'F' then some (digit.toNat - 'A'.toNat + 10)
  else none

/-- One group of an IPv6 address: one to four hexadecimal digits. -/
def parseHextet (text : List Char) : Option ℕ :=
  if text = [] ∨ 4 < text.length then none
  else (text.mapM hexDigit).map (ofDigits 16)

/-- The parts of an IPv6 address between its colons, an IPv4 suffix replaced by the
two groups it stands for. -/
def hextetTexts (text : List Char) : Option (List (List Char)) :=
  let parts := text.splitOn ':'
  let suffix := parts.getLast?.getD []
  if parts.length < 3 then none
  else if '.' ∈ suffix then
    (ipv4Address suffix).map fun value =>
      parts.dropLast ++ [Nat.toDigits 16 (value / 2 ^ 16), Nat.toDigits 16 (value % 2 ^ 16)]
  else some parts

/-- The places of empty parts other than the first and the last. -/
def skipPlaces (parts : List (List Char)) : List ℕ :=
  (List.range parts.length).filter fun place =>
    0 < place ∧ place + 1 < parts.length ∧ parts[place]? = some []

/-- What stands on one side of a `::`: nothing, or groups none of which is empty. -/
def sideOfSkip (parts : List (List Char)) : Option (List ℕ) :=
  if parts = [[]] then some [] else parts.mapM parseHextet

/-- The 128-bit number of an IPv6 address without a scope. -/
def ipv6Number (text : List Char) : Option ℕ := do
  let parts ← hextetTexts text
  if 9 < parts.length then none
  else match skipPlaces parts with
    | [] =>
        let groups ← parts.mapM parseHextet
        if groups.length = 8 then some (ofDigits (16 ^ 4) groups) else none
    | [place] =>
        let high ← sideOfSkip (parts.take place)
        let low ← sideOfSkip (parts.drop (place + 1))
        if high.length + low.length < 8 then
          some (ofDigits (16 ^ 4)
            (high ++ List.replicate (8 - (high.length + low.length)) 0 ++ low))
        else none
    | _ => none

/-- `IPv6Address(text)` as a 128-bit number; a scope behind `%` must not be empty. -/
def ipv6Address (text : List Char) : Option ℕ :=
  let (address, scope) := text.span (· ≠ '%')
  if '/' ∈ text then none
  else match scope with
    | [] => ipv6Number address
    | _ :: name => if name = [] ∨ '%' ∈ name then none else ipv6Number address

inductive IpAddress where
  | v4 (number : ℕ)
  | v6 (number : ℕ)

/-- `ipaddress.ip_address`; `none` where it raises. -/
def ipAddress (text : List Char) : Option IpAddress :=
  match ipv4Address text with
  | some number => some (.v4 number)
  | none => (ipv6Address text).map .v6

/-- `is_loopback`.  `mapped` tells whether the library looks through IPv4-mapped
addresses, as it does from Python 3.13 on. -/
def IpAddress.isLoopback (mapped : Bool) : IpAddress → Bool
  | .v4 number => number / 2 ^ 24 = 127
  | .v6 number =>
      if mapped ∧ number / 2 ^ 32 = 0xFFFF then number % 2 ^ 32 / 2 ^ 24 = 127 else number = 1

example : (ipAddress "127.0.1.1".toList).map (·.isLoopback false) = some true := by decide

example : (ipAddress "::1".toList).map (·.isLoopback false) = some true := by decide

example : ipAddress "127.0.0.1.evil.net".toList = none := by decide

end LorahamRns.Node
