/- Threatintel/Lookup
   source: internal/threatintel/threatintel.go
   digest: Lookup of an address in a blocklist of addresses and networks. -/

import L3Firewall.Foundation.FiniteMap
import L3Firewall.Net.Address

set_option autoImplicit false
set_option relaxedAutoImplicit false

namespace L3Firewall.Threatintel.Lookup

open Foundation.FiniteMap
open Net.Address

inductive IPNet
  | v4 (ip mask : IPv4)
  | v6 (ip mask : IP)
  deriving DecidableEq

/-- Networks hold addresses of their own family only. -/
def IPNet.Contains (n : IPNet) (ip : IP) : Bool :=
  match n, IP.To4 ip with
  | .v4 net mask, some ip4 => decide (net &&& mask = ip4 &&& mask)
  | .v6 net mask, none => decide (net &&& mask = ip &&& mask)
  | _, _ => false

structure Blocklist where
  ips : FMap String Unit
  nets : List IPNet

def Blocklist.Contains (bl : Blocklist) (ipStr : String) : Bool :=
  match ParseIP ipStr with
  | none => false
  | some ip => decide (IP.String ip ∈ bl.ips) || bl.nets.any fun n => n.Contains ip

end L3Firewall.Threatintel.Lookup
