/- Net/Address
   source: package net of the Go standard library, as internal/* uses it
   digest: Textual IP addresses under ParseIP, To4 and String. -/

import Mathlib.Data.BitVec

set_option autoImplicit false
set_option relaxedAutoImplicit false

namespace L3Firewall.Net.Address

/-- A 16-byte address. An IPv4 address is held in its IPv4-mapped form. -/
abbrev IP := BitVec 128

abbrev IPv4 := BitVec 32

def decimal (s : List Char) : Nat :=
  s.foldl (fun n c => n * 10 + (c.toNat - '0'.toNat)) 0

/-- One dotted-quad field: decimal digits, no leading zero, at most 255. -/
def octet (s : List Char) : Option Nat :=
  if s = [] ∨ ¬ s.all Char.isDigit ∨ (1 < s.length ∧ s.head? = some '0') then none
  else if decimal s ≤ 255 then some (decimal s) else none

def parseIPv4Fields (s : List Char) : Option IPv4 :=
  match (s.splitOn '.').mapM octet with
  | some [a, b, c, d] => some (BitVec.ofNat 32 (((a * 256 + b) * 256 + c) * 256 + d))
  | _ => none

def isHex (c : Char) : Bool :=
  c.isDigit || ('a' ≤ c && c ≤ 'f') || ('A' ≤ c && c ≤ 'F')

def hexDigit (c : Char) : Nat :=
  if c.isDigit then c.toNat - '0'.toNat
  else if 'a' ≤ c then c.toNat - 'a'.toNat + 10
  else c.toNat - 'A'.toNat + 10

def hexadecimal (s : List Char) : Nat :=
  s.foldl (fun n c => n * 16 + hexDigit c) 0

/-- The group loop of the IPv6 parser. The budget counts the groups that still fit
into the 16 bytes; `ellipsis` is the number of groups read before "::". -/
def parseGroups : Nat → List Char → List Nat → Option Nat → Option (List Nat × Option Nat)
  | 0, s, groups, ellipsis => if s = [] then some (groups, ellipsis) else none
  | budget + 1, s, groups, ellipsis =>
      let digits := s.takeWhile isHex
      let read := groups ++ [hexadecimal digits]
      if digits = [] ∨ 4 < digits.length then none
      else match s.dropWhile isHex with
        | [] => some (read, ellipsis)
        | '.' :: _ =>
            -- A trailing IPv4 address must replace the final two groups.
            if (ellipsis = none ∧ groups.length ≠ 6) ∨ 6 < groups.length then none
            else (parseIPv4Fields s).map fun v4 =>
              (groups ++ [(v4.extractLsb' 16 16).toNat, (v4.extractLsb' 0 16).toNat], ellipsis)
        | [':'] => none
        | ':' :: ':' :: rest =>
            if ellipsis.isSome then none
            else if rest = [] then some (read, some read.length)
            else parseGroups budget rest read (some read.length)
        | ':' :: rest => parseGroups budget rest read ellipsis
        | _ => none

/-- Expand "::" to the missing zero groups; it must stand for at least one. -/
def expandEllipsis (groups : List Nat) : Option Nat → Option (List Nat)
  | none => if groups.length = 8 then some groups else none
  | some k =>
      if groups.length < 8 then
        some (groups.take k ++ List.replicate (8 - groups.length) 0 ++ groups.drop k)
      else none

def ofGroups (groups : List Nat) : IP :=
  BitVec.ofNat 128 (groups.foldl (fun n g => n * 65536 + g) 0)

/-- A text may open with "::". -/
def parseColons : List Char → Option (List Nat × Option Nat)
  | [':', ':'] => some ([], some 0)
  | ':' :: ':' :: rest => parseGroups 8 rest [] (some 0)
  | s => parseGroups 8 s [] none

/-- Addresses with a zone are refused by `ParseIP`. -/
def parseIPv6 (s : List Char) : Option IP :=
  if '%' ∈ s then none
  else ((parseColons s).bind fun p => expandEllipsis p.1 p.2).map ofGroups

def mapped (v4 : IPv4) : IP := (0xffff : BitVec 96) ++ v4

/-- The first separator decides which of the two notations is parsed. -/
def ParseIP (s : String) : Option IP :=
  match s.toList.find? (fun c => c = '.' || c = ':' || c = '%') with
  | some '.' => (parseIPv4Fields s.toList).map mapped
  | some ':' => parseIPv6 s.toList
  | _ => none

def IP.To4 (ip : IP) : Option IPv4 :=
  if ip.extractLsb' 32 96 = (0xffff : BitVec 96) then some (ip.extractLsb' 0 32) else none

def octets (v4 : IPv4) : List Nat :=
  [24, 16, 8, 0].map fun k => (v4.extractLsb' k 8).toNat

def IPv4.String (v4 : IPv4) : String :=
  String.ofList (['.'].intercalate ((octets v4).map fun n => (Nat.repr n).toList))

/-- The eight 16-bit groups, most significant first. -/
def groups (ip : IP) : List Nat :=
  [112, 96, 80, 64, 48, 32, 16, 0].map fun k => (ip.extractLsb' k 16).toNat

def zeroRun (gs : List Nat) (i : Nat) : Nat := ((gs.drop i).takeWhile (· = 0)).length

/-- The first longest run of at least two zero groups, as start and length. -/
def longestZeroRun (gs : List Nat) : Option (Nat × Nat) :=
  (List.range 8).foldl (fun best i =>
    let l := zeroRun gs i
    if 2 ≤ l ∧ (best.map Prod.snd).getD 0 < l then some (i, l) else best) none

/-- Lower-case hexadecimal digits of a 16-bit group, without leading zeros. -/
def appendHex (x : Nat) : List Char :=
  (if 0x1000 ≤ x then [Nat.digitChar (x / 0x1000)] else []) ++
  (if 0x100 ≤ x then [Nat.digitChar (x / 0x100 % 16)] else []) ++
  (if 0x10 ≤ x then [Nat.digitChar (x / 0x10 % 16)] else []) ++
  [Nat.digitChar (x % 16)]

def colonJoin (gs : List Nat) : List Char := [':'].intercalate (gs.map appendHex)

/-- Colon-hexadecimal text with the longest zero run compressed. -/
def appendTo6 (gs : List Nat) : List Char :=
  match longestZeroRun gs with
  | none => colonJoin gs
  | some (start, l) => colonJoin (gs.take start) ++ ':' :: ':' :: colonJoin (gs.drop (start + l))

/-- IPv4-mapped addresses print in dotted notation. -/
def IP.String (ip : IP) : String :=
  match IP.To4 ip with
  | some v4 => IPv4.String v4
  | none => String.ofList (appendTo6 (groups ip))

/-- Canonical spelling of a source or destination address; a string that is no
address is its own key. The rate limiter and the ARP table use the same function. -/
def normalizeIP (ip : String) : String :=
  match ParseIP ip with
  | none => ip
  | some parsed =>
      match IP.To4 parsed with
      | some v4 => IPv4.String v4
      | none => IP.String parsed

example : normalizeIP "::ffff:10.0.0.1" = "10.0.0.1" := by decide

end L3Firewall.Net.Address
