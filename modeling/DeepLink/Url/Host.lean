import DeepLink.Decimal.Numeral
import DeepLink.Url.Encoding

/-!
# Hosts of URLs

With a special scheme a host is a domain name or an address; with any other scheme it is free text.
An IPv6 address stands in brackets in both. What brings domain names into ASCII is not said here: it
depends on the tables of a version of Unicode, and readers of URLs take it as a parameter.

Addresses are numbers: four decimal, octal or hexadecimal parts for IPv4, of which the last may
stand for several bytes, and eight groups of hexadecimal digits for IPv6, of which one run of zeros
may be left out.
-/

namespace DeepLink

/-- Why a text is no absolute URL. -/
inductive UrlError
  | relative
  | emptyHost
  | invalidPort
  | invalidIpv4
  | invalidIpv6
  | invalidHostCharacter
  | invalidDomain
  deriving DecidableEq

def UrlError.reason : UrlError → String
  | relative => "relative URL without a base"
  | emptyHost => "empty host"
  | invalidPort => "invalid port number"
  | invalidIpv4 => "invalid IPv4 address"
  | invalidIpv6 => "invalid IPv6 address"
  | invalidHostCharacter => "invalid domain character"
  | invalidDomain => "invalid international domain name"

def UrlError.message (e : UrlError) (input : String) : String :=
  "invalid url `" ++ input ++ "`: " ++ e.reason

namespace Url

/-! ## Addresses -/

open Decimal
open Hex (valueInBase)
open Form (splitOn)

namespace Ipv4

/-- A part of an address: `0x` starts a hexadecimal and `0` an octal number. -/
def number? (part : List Char) : Option Nat :=
  let octal (c : Char) : Bool := '0' ≤ c && c ≤ '7'
  match part with
  | [] => none
  | '0' :: 'x' :: digits => if digits.all Hex.isDigit then some (valueInBase 16 digits) else none
  | '0' :: 'X' :: digits => if digits.all Hex.isDigit then some (valueInBase 16 digits) else none
  | '0' :: d :: digits =>
    if (d :: digits).all octal then some (valueInBase 8 (d :: digits)) else none
  | digits => if digits.all Char.isDigit then some (valueInBase 10 digits) else none

/-- The parts of a host between dots, without an empty one at the end. -/
def parts (host : List Char) : List (List Char) :=
  let all := splitOn '.' host
  if all.length ≥ 2 ∧ all.getLast? = some [] then all.dropLast else all

/-- Whether a host has to be an address: its last part is a number. -/
def isMeant (host : List Char) : Bool :=
  match (parts host).getLast? with
  | none => false
  | some last => last ≠ [] && (last.all Char.isDigit || (number? last).isSome)

/-- The number of an address: each part is a byte, and the last fills the bytes that are left. -/
def ofNumbers? (numbers : List Nat) : Option Nat :=
  let leading := numbers.dropLast
  match numbers.getLast? with
  | none => none
  | some last =>
    let bound := Nat.pow 256 (4 - leading.length)
    if 4 < numbers.length ∨ leading.any (255 < ·) ∨ bound ≤ last then none
    else
      let high := leading.foldl (fun n part => 256 * n + part) 0
      some (high * bound + last)

def ofHost? (host : List Char) : Option Nat :=
  ((parts host).mapM number?).bind ofNumbers?

def text (address : Nat) : List Char :=
  digitsOf (address / Nat.pow 256 3 % 256) ++ '.' :: digitsOf (address / Nat.pow 256 2 % 256) ++
    '.' :: digitsOf (address / 256 % 256) ++ '.' :: digitsOf (address % 256)

end Ipv4

namespace Ipv6

/-- A byte written in decimal without a leading zero. -/
def byte? (part : List Char) : Option Nat :=
  match part with
  | [] => none
  | ['0'] => some 0
  | '0' :: _ => none
  | digits =>
    if digits.all Char.isDigit ∧ digitsValue digits ≤ 255 then some (digitsValue digits) else none

/-- The two groups of an IPv4 address at the end. -/
def embedded? (part : List Char) : Option (List Nat) := do
  match ← (splitOn '.' part).mapM byte? with
  | [a, b, c, d] => some [256 * a + b, 256 * c + d]
  | _ => none

def group? (part : List Char) : Option Nat :=
  if part ≠ [] ∧ part.length ≤ 4 ∧ part.all Hex.isDigit then some (valueInBase 16 part) else none

/-- Groups between colons; the last one may be an IPv4 address if `ends` says so. -/
def groups? (ends : Bool) : List (List Char) → Option (List Nat)
  | [] => some []
  | [part] =>
    match group? part with
    | some g => some [g]
    | none => if ends then embedded? part else none
  | part :: rest => do
    let g ← group? part
    let more ← groups? ends rest
    return g :: more

def groupsOf? (ends : Bool) (text : List Char) : Option (List Nat) :=
  if text = [] then some [] else groups? ends (splitOn ':' text)

/-- What stands before and after the first double colon. -/
def cutGap : List Char → Option (List Char × List Char)
  | ':' :: ':' :: rest => some ([], rest)
  | c :: rest => (cutGap rest).map fun (before, after) => (c :: before, after)
  | [] => none

/-- The eight groups of an address. A double colon stands for one or more groups that are zero. -/
def ofText? (text : List Char) : Option (List Nat) :=
  match cutGap text with
  | none => do
    let groups ← groups? true (splitOn ':' text)
    if groups.length = 8 then some groups else none
  | some (before, after) => do
    let left ← groupsOf? false before
    let right ← groupsOf? true after
    if left.length + right.length ≤ 7 then
      some (left ++ List.replicate (8 - left.length - right.length) 0 ++ right)
    else none

def zeroRun (groups : List Nat) : Nat := (groups.takeWhile (· == 0)).length

/-- Where the first of the longest runs of zeros starts, and how long it is. -/
def longestRun (index : Nat) : List Nat → Nat × Nat
  | [] => (index, 0)
  | g :: rest =>
    let here := zeroRun (g :: rest)
    let later := longestRun (index + 1) rest
    if later.2 ≤ here then (index, here) else later

def joinGroups : List Nat → List Char
  | [] => []
  | [g] => Nat.toDigits 16 g
  | g :: next :: rest => Nat.toDigits 16 g ++ ':' :: joinGroups (next :: rest)

/-- The groups without leading zeros; the longest run of at least two zeros is left out. -/
def text (groups : List Nat) : List Char :=
  let (start, length) := longestRun 0 groups
  if length < 2 then joinGroups groups
  else joinGroups (groups.take start) ++ ':' :: ':' :: joinGroups (groups.drop (start + length))

end Ipv6

/-! ## Hosts -/

def isForbiddenInHost (c : Char) : Bool :=
  c == '\x00' || c == '\t' || c == '\n' || c == '\r' || c == ' ' || c == '#' || c == '/' ||
    c == ':' || c == '<' || c == '>' || c == '?' || c == '@' || c == '[' || c == '\\' || c == ']' ||
    c == '^' || c == '|'

def isForbiddenInDomain (c : Char) : Bool :=
  isForbiddenInHost c || c.toNat < 0x20 || c == '%' || c == '\x7f'

/-- An IPv6 address in brackets. -/
def bracketed? (host : List Char) : Except UrlError (List Char) :=
  match host.getLast?, Ipv6.ofText? (host.tail.dropLast) with
  | some ']', some groups => .ok ('[' :: (Ipv6.text groups ++ [']']))
  | _, _ => .error .invalidIpv6

/-- A host with a scheme that is not special: free text, percent-encoded outside ASCII. -/
def freeHost? (host : List Char) : Except UrlError (List Char) :=
  if host.head? = some '[' then bracketed? host
  else if host.any isForbiddenInHost then .error .invalidHostCharacter
  else .ok (Percent.encode (fun c => 0x20 ≤ c.toNat && c.toNat < 0x7f) host)

/-- Brings a domain name into ASCII, if it is one: maps its characters, checks them, and writes
labels with other characters in Punycode. -/
abbrev ToAscii := List Char → Option (List Char)

/-- A host with a special scheme: an address, or a domain name in ASCII. -/
def domainHost? (toAscii? : ToAscii) (host : List Char) : Except UrlError (List Char) :=
  if host.head? = some '[' then bracketed? host
  else
    let decoded? := Utf8.decode? (Percent.decode (Utf8.encode host))
    match decoded?.bind fun decoded => toAscii? decoded.toList with
    | none => .error .invalidDomain
    | some domain =>
      if domain.any isForbiddenInDomain then .error .invalidDomain
      else if domain = [] then .error .emptyHost
      else if Ipv4.isMeant domain then
        match Ipv4.ofHost? domain with
        | some address => .ok (Ipv4.text address)
        | none => .error .invalidIpv4
      else .ok domain

end Url

end DeepLink
