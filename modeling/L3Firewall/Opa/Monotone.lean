/- Opa/Monotone
   source: opa-policies/l3.rego, internal/opa/input.go
   digest: The policy is monotone: tighter constants deny no less, and neither does more traffic. -/

import L3Firewall.Opa.Denials
import L3Firewall.Opa.Evaluator

set_option autoImplicit false
set_option relaxedAutoImplicit false

namespace L3Firewall.Opa.Monotone

open Foundation.Recover (Reply)
open Foundation.Rego
open Document (Input BuildInput GeoInfo RateInfo)
open Policy
open Decision (Denied)
open Evaluator (Evaluate decisionQuery evaluate_decisionQuery)

/-- Each constant denies at least as much. An empty list of allowed countries allows all of them,
so a list that restricts may get shorter but not empty. -/
structure Tighter (c c' : Constants) : Prop where
  subnets : c'.allowedSubnets ⊆ c.allowedSubnets
  ports : c.blockedPorts ⊆ c'.blockedPorts
  protocols : c.blockedProtocols ⊆ c'.blockedProtocols
  icmpTypes : c.blockedIcmpTypes ⊆ c'.blockedIcmpTypes
  icmpCodes : c.blockedIcmpCodes ⊆ c'.blockedIcmpCodes
  synRate : c'.synRatePerSecond ≤ c.synRatePerSecond
  icmpRate : c'.icmpRatePerSecond ≤ c.icmpRatePerSecond
  packets : c'.maxPacketsPerSecond ≤ c.maxPacketsPerSecond
  portPps : c'.maxPortPps ≤ c.maxPortPps
  newConnections : c'.maxNewConnectionsPerSecond ≤ c.maxNewConnectionsPerSecond
  ipSpoofing : c.enableIpSpoofing = true → c'.enableIpSpoofing = true
  portScan : c.enablePortScan = true → c'.enablePortScan = true
  synFlood : c.enableSynFlood = true → c'.enableSynFlood = true
  stateful : c.enableStateful = true → c'.enableStateful = true
  fragment : c.enableFragment = true → c'.enableFragment = true
  ingressEgress : c.enableIngressEgress = true → c'.enableIngressEgress = true
  scanThreshold : c'.portScanThreshold ≤ c.portScanThreshold
  blockedSources : c.blockedSrcCountries ⊆ c'.blockedSrcCountries
  allowedSources : c.allowedSrcCountries ≠ [] →
    c'.allowedSrcCountries ≠ [] ∧ c'.allowedSrcCountries ⊆ c.allowedSrcCountries
  allowedDestinations : c.allowedDstCountries ≠ [] →
    c'.allowedDstCountries ≠ [] ∧ c'.allowedDstCountries ⊆ c.allowedDstCountries
  schedule : c.timeBasedRules ⊆ c'.timeBasedRules

theorem Tighter.refl (c : Constants) : Tighter c c :=
  ⟨fun _ => id, fun _ => id, fun _ => id, fun _ => id, fun _ => id, le_rfl, le_rfl, le_rfl, le_rfl,
    le_rfl, id, id, id, id, id, id, le_rfl, fun _ => id, fun some_left => ⟨some_left, fun _ => id⟩,
    fun some_left => ⟨some_left, fun _ => id⟩, fun _ => id⟩

section Statements

variable {p p' q q' : Bool}

private theorem and_mono (first : p = true → p' = true) (second : q = true → q' = true) :
    (p && q) = true → (p' && q') = true := by
  rw [Bool.and_eq_true, Bool.and_eq_true]
  exact And.imp first second

private theorem or_mono (first : p = true → p' = true) (second : q = true → q' = true) :
    (p || q) = true → (p' || q') = true := by
  rw [Bool.or_eq_true, Bool.or_eq_true]
  exact Or.imp first second

private theorem not_mono (reverse : p' = true → p = true) : (!p) = true → (!p') = true := by
  rw [Bool.not_eq_true', Bool.not_eq_true', ← Bool.not_eq_true, ← Bool.not_eq_true]
  exact mt reverse

private theorem any_mono {α : Type} {f : α → Bool} {xs ys : List α}
    (all : List.Forall₂ (fun x y => f x = true → f y = true) xs ys) :
    xs.any f = true → ys.any f = true := by
  induction all with
  | nil => exact id
  | cons first rest ih =>
      rw [List.any_cons, List.any_cons]
      exact or_mono first ih

private theorem any_subset {α : Type} {f : α → Bool} {xs ys : List α} (subset : xs ⊆ ys)
    (holds : xs.any f = true) : ys.any f = true := by
  obtain ⟨x, member, fits⟩ := List.any_eq_true.mp holds
  exact List.any_eq_true.mpr ⟨x, subset member, fits⟩

private theorem denial_mono {name : String} {bodies bodies' : List Bool} {heads : Nat}
    {messages messages' : List (Option String)}
    (all : List.Forall₂ (fun x y => id x = true → id y = true) bodies bodies') :
    (denial name bodies heads messages).holds = true →
      (denial name bodies' heads messages').holds = true :=
  any_mono all

private theorem enabled_mono (kept : p = true → p' = true) :
    equal (some (bool p)) (some (bool true)) = true →
      equal (some (bool p')) (some (bool true)) = true := by
  rw [Denials.equal_bool, Denials.equal_bool, decide_eq_true_eq, decide_eq_true_eq]
  exact kept

private theorem greater_mono {t : Term} {limit limit' : ℚ} (lower : limit' ≤ limit)
    (holds : greater t (some (num limit)) = true) : greater t (some (num limit')) = true := by
  rcases t with _ | ⟨s⟩ | items | members | fields
  · exact holds
  · cases s with
    | null => exact holds
    | bool x => exact holds
    | num r => exact decide_eq_true (lower.trans_lt (of_decide_eq_true holds))
    | str x => exact holds
  · exact holds
  · exact holds
  · exact holds

private theorem atLeast_mono {t : Term} {limit limit' : ℚ} (lower : limit' ≤ limit)
    (holds : atLeast t (some (num limit)) = true) : atLeast t (some (num limit')) = true := by
  rcases t with _ | ⟨s⟩ | items | members | fields
  · exact holds
  · cases s with
    | null => exact holds
    | bool x => exact holds
    | num r =>
        have reached : (!decide (r < limit)) = true := holds
        have below : ¬ r < limit := by simpa using reached
        have still : ¬ r < limit' := fun less => below (less.trans_le lower)
        change (!decide (r < limit')) = true
        rw [decide_eq_false still]
        rfl
    | str x => exact holds
  · exact holds
  · exact holds
  · exact holds

end Statements

section Sets

variable {l l' : List Scalar} {t : Term}

private theorem member_mono (subset : l ⊆ l') (holds : member (some (.set l)) t = true) :
    member (some (.set l')) t = true := by
  rcases t with _ | ⟨s⟩ | items | members | fields
  · exact holds
  · exact decide_eq_true (subset (of_decide_eq_true holds))
  · exact holds
  · exact holds
  · exact holds

private theorem elements_mono (subset : l ⊆ l') {f : Value → Bool} :
    (elements (some (.set l))).any f = true → (elements (some (.set l'))).any f = true :=
  any_subset (List.map_subset _ subset)

variable {b : Builtins}

private theorem ip_in_subnets_mono {subnets subnets' : List String} (subset : subnets ⊆ subnets') :
    ip_in_subnets b t (strings subnets) = true → ip_in_subnets b t (strings subnets') = true :=
  or_mono (elements_mono (List.map_subset _ subset)) (member_mono (List.map_subset _ subset))

private theorem port_in_ranges_mono {specs specs' : List PortSpec} (subset : specs ⊆ specs') :
    port_in_ranges b t (ports specs) = true → port_in_ranges b t (ports specs') = true :=
  or_mono (elements_mono (List.map_subset _ subset)) (member_mono (List.map_subset _ subset))

private theorem listed_iff {names : List String} :
    greater (count (strings names)) (some (num 0)) = true ↔ names ≠ [] := by
  change decide ((0 : ℚ) < ((names.map Scalar.str).dedup.length : ℚ)) = true ↔ _
  rw [decide_eq_true_eq, Nat.cast_pos, List.length_pos_iff, ne_eq, List.dedup_eq_nil,
    List.map_eq_nil_iff]

private theorem not_allowed_mono {names names' : List String} {known : Bool}
    (tighter : names ≠ [] → names' ≠ [] ∧ names' ⊆ names)
    (holds : (greater (count (strings names)) (some (num 0)) && known &&
      !member (strings names) t) = true) :
    (greater (count (strings names')) (some (num 0)) && known &&
      !member (strings names') t) = true := by
  rw [Bool.and_eq_true, Bool.and_eq_true, listed_iff] at holds ⊢
  obtain ⟨⟨restricts, known⟩, absent⟩ := holds
  obtain ⟨still, subset⟩ := tighter restricts
  exact ⟨⟨still, known⟩, not_mono (member_mono (List.map_subset _ subset)) absent⟩

end Sets

section Constants

variable {b : Builtins} {c c' : Constants}

private theorem denyRules_tighter (tighter : Tighter c c') (input : Value) :
    List.Forall₂ (fun r r' => r.holds = true → r'.holds = true) (denyRules b c input)
      (denyRules b c' input) := by
  have subnets (ip : Term) := not_mono (ip_in_subnets_mono (b := b) (t := ip) tighter.subnets)
  have blocked (port : Term) := port_in_ranges_mono (b := b) (t := port) tighter.ports
  have entries : (c.timeBasedRules.map TimeRule.value) ⊆ c'.timeBasedRules.map TimeRule.value :=
    List.map_subset _ tighter.schedule
  simp only [denyRules, List.forall₂_cons, List.forall₂_nil_left_iff, and_true]
  refine ⟨?_, ?_, ?_, ?_, ?_, ?_, ?_, ?_, ?_, ?_, ?_, ?_, ?_, ?_, ?_, ?_, ?_, ?_, ?_, ?_, ?_⟩
  · exact denial_mono (.cons (and_mono (and_mono (enabled_mono tighter.ipSpoofing) id)
      (subnets _)) .nil)
  · exact denial_mono (.cons (and_mono (and_mono (and_mono (and_mono
      (enabled_mono tighter.portScan) id) id) id) (atLeast_mono tighter.scanThreshold)) .nil)
  · exact denial_mono (.cons (and_mono (and_mono (and_mono (and_mono
      (enabled_mono tighter.synFlood) id) id) id) (greater_mono tighter.synRate)) .nil)
  · exact id
  · exact denial_mono (.cons (and_mono (and_mono (enabled_mono tighter.ingressEgress) id)
      (subnets _)) .nil)
  · exact denial_mono (.cons (and_mono id (blocked _)) (.cons (and_mono id (blocked _)) .nil))
  · exact denial_mono (.cons
      (and_mono id (member_mono (List.map_subset _ tighter.icmpTypes)))
      (.cons (and_mono id (member_mono (List.map_subset _ tighter.icmpCodes))) .nil))
  · exact denial_mono (.cons (and_mono id (greater_mono tighter.icmpRate)) .nil)
  · exact denial_mono (.cons (and_mono (and_mono (and_mono (enabled_mono tighter.stateful) id) id)
      id) .nil)
  · exact denial_mono (.cons (member_mono (List.map_subset _ tighter.protocols)) .nil)
  · exact denial_mono (.cons (greater_mono tighter.packets) .nil)
  · exact denial_mono (.cons (and_mono (and_mono (enabled_mono tighter.fragment) id) id) .nil)
  · exact id
  · exact denial_mono (.cons (and_mono id (blocked _)) (.cons (and_mono id (blocked _)) .nil))
  · exact denial_mono (.cons (greater_mono tighter.newConnections) .nil)
  · exact denial_mono (.cons (greater_mono tighter.portPps) .nil)
  · refine denial_mono (.cons (and_mono (fun listed => ?_)
      (elements_mono (List.map_subset _ tighter.blockedSources))) .nil)
    obtain ⟨country, member⟩ := List.exists_mem_of_ne_nil _ (listed_iff.mp listed)
    exact listed_iff.mpr (List.ne_nil_of_mem (tighter.blockedSources member))
  · exact denial_mono (.cons (not_allowed_mono tighter.allowedSources) .nil)
  · exact denial_mono (.cons (not_allowed_mono tighter.allowedDestinations) .nil)
  · exact any_mono (f := id) (.cons (any_subset entries) .nil)
  · exact any_mono (f := id) (.cons (any_subset entries) .nil)

theorem Tighter.denied (tighter : Tighter c c') {i : Input} (denied : Denied b c i) :
    Denied b c' i :=
  List.any_eq_true.mp (any_mono (denyRules_tighter tighter i.document)
    (List.any_eq_true.mpr denied))

private theorem denied_iff_evaluate {i : Input} : Denied b c i ↔
    ∃ reason, Evaluate (some (decisionQuery b c)) i = .returned (some ⟨false, reason⟩) := by
  obtain ⟨reason, answered⟩ := evaluate_decisionQuery b c i
  rw [answered]
  constructor
  · intro denied
    exact ⟨reason, by rw [decide_eq_true denied]; rfl⟩
  · rintro ⟨other, same⟩
    have verdict := congrArg Evaluator.Result.allowed (Option.some.inj (Reply.returned.inj same))
    simpa using verdict

section Traffic

variable {i : Input} {rate : RateInfo} {tcpState : String} {recent : Option (List UInt16)}

private theorem rate_mono {r r' limit : ℚ} (more : r ≤ r')
    (holds : greater (some (num r)) (some (num limit)) = true) :
    greater (some (num r')) (some (num limit)) = true :=
  decide_eq_true ((of_decide_eq_true holds : limit < r).trans_le more)

private theorem count_mono {recent recent' : Option (List UInt16)} {threshold : ℚ}
    (more : ∀ l, recent = some l → ∃ l', recent' = some l' ∧ l.length ≤ l'.length)
    (holds : atLeast (count (some (recent.elim null fun l => .array (l.map Document.port))))
      (some (num threshold)) = true) :
    atLeast (count (some (recent'.elim null fun l => .array (l.map Document.port))))
      (some (num threshold)) = true := by
  cases recent with
  | none => cases holds
  | some l =>
      obtain ⟨l', rfl, longer⟩ := more l rfl
      simp only [Option.elim_some, count, List.length_map, atLeast, atMost, num, Scalar.lt,
        Bool.not_eq_true', decide_eq_false_iff_not, not_lt] at holds ⊢
      exact holds.trans (Nat.cast_le.mpr longer)

private theorem denyRules_heavier (pps : i.rate.srcIPpps ≤ rate.srcIPpps)
    (portPPS : i.rate.srcPortPPS ≤ rate.srcPortPPS)
    (newConns : i.rate.newConnsPerSec ≤ rate.newConnsPerSec)
    (ports : ∀ l, i.connection.recentPorts = some l →
      ∃ l', recent = some l' ∧ l.length ≤ l'.length) :
    List.Forall₂ (fun r r' => r.holds = true → r'.holds = true) (denyRules b c i.document)
      (denyRules b c { i with
        rate := rate
        connection := { i.connection with
          tcpState := tcpState
          recentPorts := recent } }.document) := by
  simp only [denyRules, List.forall₂_cons, List.forall₂_nil_left_iff, and_true]
  refine ⟨id, ?_, ?_, id, id, id, id, ?_, id, id, ?_, id, id, id, ?_, ?_, id, id, id, id, id⟩
  · refine denial_mono (.cons (and_mono id fun reached => ?_) .nil)
    rw [Denials.ref_recent_ports] at reached ⊢
    exact count_mono ports reached
  · exact denial_mono (.cons (and_mono id (rate_mono pps)) .nil)
  · exact denial_mono (.cons (and_mono id (rate_mono pps)) .nil)
  · exact denial_mono (.cons (rate_mono pps) .nil)
  · exact denial_mono (.cons (rate_mono newConns) .nil)
  · exact denial_mono (.cons (rate_mono portPPS) .nil)

end Traffic

end Constants

/-- No packet gets through by sending more. If the policy denies a packet, then it denies it also
when its source is seen with higher rates, more new connections and more recent ports, whatever
the byte rates and the name of the TCP state, under every setting of the constants. -/
theorem more_traffic_stays_denied (b : Builtins) (c : Constants) (pi : Packet.Parser.PacketInfo)
    (pps bps pps' bps' : ℚ) (established : Bool) (tcpState tcpState' : String)
    (portPPS portBPS newConnRate portPPS' portBPS' newConnRate' : ℚ)
    (recentPorts recentPorts' : List UInt16) (now : Conntrack.FlowTable.Time) (geo : GeoInfo)
    (faster : pps ≤ pps') (fasterPort : portPPS ≤ portPPS')
    (fasterOpen : newConnRate ≤ newConnRate')
    (wider : recentPorts.length ≤ recentPorts'.length)
    (denied : ∃ reason, Evaluate (some (decisionQuery b c))
      { BuildInput pi pps bps established tcpState portPPS portBPS newConnRate recentPorts now with
        geo := geo } = .returned (some ⟨false, reason⟩)) :
    ∃ reason, Evaluate (some (decisionQuery b c))
      { BuildInput pi pps' bps' established tcpState' portPPS' portBPS' newConnRate' recentPorts'
          now with
        geo := geo } = .returned (some ⟨false, reason⟩) := by
  rw [← denied_iff_evaluate] at denied ⊢
  refine List.any_eq_true.mp (any_mono ?_ (List.any_eq_true.mpr denied))
  refine @denyRules_heavier b c _ ⟨pps', bps', portPPS', portBPS', newConnRate'⟩ _ _ faster
    fasterPort fasterOpen fun l listed => ?_
  change (if 0 < recentPorts.length then some recentPorts else none) = some l at listed
  split at listed
  · next some_left =>
      obtain rfl := Option.some.inj listed
      exact ⟨recentPorts', if_pos (some_left.trans_le wider), wider⟩
  · cases listed

def datagram : Packet.Parser.PacketInfo where
  srcIP := "10.0.1.100"
  dstIP := "10.0.2.50"
  protocol := "UDP"
  srcPort := 44001
  dstPort := 53
  tcpFlags := .none
  icmpType := none
  icmpCode := none
  fragment := .none
  packetSize := 40
  srcMAC := ""
  dstMAC := ""
  ipv6ExtHeaders := []

def anyNetwork : Builtins := ⟨fun _ _ => some true, fun _ => none, fun _ => "", fun _ => ""⟩

theorem flood_stays_denied :
    ∃ reason, Evaluate (some (decisionQuery anyNetwork shipped))
      { BuildInput datagram 20002 0 false "" 0 0 0 [] 0 with geo := ⟨"", ""⟩ } =
        .returned (some ⟨false, reason⟩) := by
  refine more_traffic_stays_denied anyNetwork shipped datagram 10001 0 20002 0 false "" "" 0 0 0 0 0
    0 [] [] 0 ⟨"", ""⟩ (by norm_num) le_rfl le_rfl le_rfl (denied_iff_evaluate.mp ?_)
  decide +kernel

end L3Firewall.Opa.Monotone
