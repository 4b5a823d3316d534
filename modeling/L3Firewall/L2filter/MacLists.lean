/- L2filter/MacLists
   source: internal/l2filter/l2filter.go
   digest: The check of source MAC addresses against the two lists. -/

import L3Firewall.Foundation.FiniteMap

set_option autoImplicit false
set_option relaxedAutoImplicit false

namespace L3Firewall.L2filter.MacLists

open Foundation.FiniteMap

structure Filter where
  allowedMACs : FMap String Unit
  blockedMACs : FMap String Unit

def isHexDigit (c : Char) : Bool :=
  ('0' ≤ c && c ≤ '9') || ('a' ≤ c && c ≤ 'f') || ('A' ≤ c && c ≤ 'F')

def lowerHex (c : Char) : Char :=
  if 'A' ≤ c && c ≤ 'F' then Char.ofNat (c.toNat + 32) else c

def isSeparator (c : Char) : Bool := c == ':' || c == '-' || c == '.' || c == ' '

/-- Characters that are neither hexadecimal digits nor separators are dropped first, and
the separators after the digits are in lower case. -/
def normalizeMAC (mac : String) : String :=
  let kept := mac.toList.filter fun c => isHexDigit c || isSeparator c
  String.ofList ((kept.map lowerHex).filter fun c => !isSeparator c)

def newFilter (allowedMACs blockedMACs : List String) : Filter where
  allowedMACs := allowedMACs.foldl (fun m mac => m.insert (normalizeMAC mac) ()) ∅
  blockedMACs := blockedMACs.foldl (fun m mac => m.insert (normalizeMAC mac) ()) ∅

/-- The reason is empty when the address is allowed. -/
def Filter.MACAllowed (f : Filter) (srcMAC : String) : Bool × String :=
  let norm := normalizeMAC srcMAC
  if norm ∈ f.blockedMACs then (false, "blocked MAC: " ++ srcMAC)
  else if len f.allowedMACs = 0 then (true, "")
  else if norm = "" then (false, "empty MAC not in allowlist")
  else if norm ∉ f.allowedMACs then (false, "MAC not in allowlist: " ++ srcMAC)
  else (true, "")

end L3Firewall.L2filter.MacLists
