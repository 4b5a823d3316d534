/- Conntrack/Spellings
   source: internal/conntrack/table.go
   digest: Which calls of the table tell two spellings of one address apart. -/

import L3Firewall.Conntrack.Accounting

set_option autoImplicit false
set_option relaxedAutoImplicit false

namespace L3Firewall.Conntrack.Spellings

open Foundation.FiniteMap
open Net.Address (normalizeIP ParseIP)
open Net.RoundTrip (SameAddress normalizeIP_eq_iff normalizeIP_idem)
open FlowTable
open Accounting

section Calls

/-- The calls that take addresses, with their other arguments. -/
inductive Call
  | lookupOrCreate (o : FlowOrder) (clock : Clock) (protocol : String) (srcPort dstPort : UInt16)
  | updateTCPState (o : FlowOrder) (clock : Clock) (protocol : String) (srcPort dstPort : UInt16)
      (g : Flags)
  | delete (protocol : String) (srcPort dstPort : UInt16)
  | recordDestPort (dstPort : UInt16)
  | getRecentDestPorts
  | newConnectionRate (now : Time)
  | getSrcFlowCount

inductive Answer
  | flow (f : Option Flow)
  | nothing
  | ports (ports : List UInt16)
  | rate (r : ℚ)
  | count (n : Int)

/-- A call for a source and a destination. The last four do not take a destination. -/
def perform (t : Table) (srcIP dstIP : String) : Call → Answer × Table
  | .lookupOrCreate o clock protocol srcPort dstPort =>
      let r := t.lookupOrCreate o clock srcIP dstIP protocol srcPort dstPort
      (.flow r.1, r.2)
  | .updateTCPState o clock protocol srcPort dstPort g =>
      let r := t.updateTCPState o clock srcIP dstIP protocol srcPort dstPort g
      (.flow r.1, r.2)
  | .delete protocol srcPort dstPort =>
      (.nothing, t.delete srcIP dstIP protocol srcPort dstPort)
  | .recordDestPort dstPort => (.nothing, t.recordDestPort srcIP dstPort)
  | .getRecentDestPorts => (.ports (t.getRecentDestPorts srcIP), t)
  | .newConnectionRate now => (.rate (t.newConnectionRate srcIP now), t)
  | .getSrcFlowCount => (.count (t.getSrcFlowCount srcIP), t)

/-- The calls that change a table: those above, and Expire. -/
inductive Act
  | call (srcIP dstIP : String) (c : Call)
  | expire (o : FlowOrder) (now : Time)

def act (t : Table) : Act → Table
  | .call srcIP dstIP c => (perform t srcIP dstIP c).2
  | .expire o now => t.expire o now

def reached (cfg : Config) (acts : List Act) : Table := acts.foldl act (newTable cfg)

end Calls

section Reached

private theorem act_accounted {t : Table} (acc : Accounted t) (a : Act) : Accounted (act t a) := by
  cases a with
  | expire o now => exact expire_accounted acc o now
  | call srcIP dstIP c =>
      cases c with
      | lookupOrCreate o clock protocol srcPort dstPort =>
          exact apply_accounted acc (.lookupOrCreate o clock srcIP dstIP protocol srcPort dstPort)
      | updateTCPState o clock protocol srcPort dstPort g =>
          exact apply_accounted acc
            (.updateTCPState o clock srcIP dstIP protocol srcPort dstPort g)
      | delete protocol srcPort dstPort =>
          exact delete_accounted acc srcIP dstIP protocol srcPort dstPort
      | recordDestPort dstPort => exact recordDestPort_accounted acc srcIP dstPort
      | getRecentDestPorts => exact acc
      | newConnectionRate now => exact acc
      | getSrcFlowCount => exact acc

private theorem reached_accounted (cfg : Config) (acts : List Act) :
    Accounted (reached cfg acts) := by
  have run (t : Table) (acc : Accounted t) : Accounted (acts.foldl act t) := by
    induction acts generalizing t with
    | nil => exact acc
    | cons a acts ih => exact ih (act t a) (act_accounted acc a)
  exact run (newTable cfg) (newTable_accounted cfg)

end Reached

section Compare

variable {t : Table} {a b : String}

private theorem perform_eq_of_normal {c : Call} (other : c ≠ .getSrcFlowCount) {d e : String}
    (src : normalizeIP a = normalizeIP b) (dst : normalizeIP d = normalizeIP e) :
    perform t a d c = perform t b e c := by
  have key (protocol : String) (srcPort dstPort : UInt16) :
      flowKey a d protocol srcPort dstPort = flowKey b e protocol srcPort dstPort := by
    rw [flowKey, src, dst]
    rfl
  cases c with
  | lookupOrCreate o clock protocol srcPort dstPort =>
      have called : t.lookupOrCreate o clock a d protocol srcPort dstPort =
          t.lookupOrCreate o clock b e protocol srcPort dstPort := by
        unfold Table.lookupOrCreate
        rw [key]
      simp only [perform, called]
  | updateTCPState o clock protocol srcPort dstPort g =>
      have called : t.updateTCPState o clock a d protocol srcPort dstPort g =
          t.updateTCPState o clock b e protocol srcPort dstPort g := by
        unfold Table.updateTCPState
        rw [key]
      simp only [perform, called]
  | delete protocol srcPort dstPort =>
      have called : t.delete a d protocol srcPort dstPort =
          t.delete b e protocol srcPort dstPort := by
        unfold Table.delete
        rw [key]
      simp only [perform, called]
  | recordDestPort dstPort =>
      have called : t.recordDestPort a dstPort = t.recordDestPort b dstPort := by
        unfold Table.recordDestPort
        rw [src]
      simp only [perform, called]
  | getRecentDestPorts =>
      have called : t.getRecentDestPorts a = t.getRecentDestPorts b := by
        unfold Table.getRecentDestPorts
        rw [src]
      simp only [perform, called]
  | newConnectionRate now =>
      have called : t.newConnectionRate a now = t.newConnectionRate b now := by
        unfold Table.newConnectionRate
        rw [src]
      simp only [perform, called]
  | getSrcFlowCount => exact absurd rfl other

private theorem flowsFrom_of_variant (keyed : Keyed t) (variant : normalizeIP a ≠ a) :
    flowsFrom t a = 0 := by
  by_contra counted
  obtain ⟨k, member, own⟩ : ∃ k ∈ t.flows.keys, decide (k.srcIP = a) = true :=
    List.countP_pos_iff.mp (Nat.pos_of_ne_zero counted)
  obtain ⟨f, found⟩ := Option.isSome_iff_exists.mp (AList.lookup_isSome.mpr member)
  obtain ⟨rfl, src, -⟩ := keyed k f found
  exact variant (of_decide_eq_true own ▸ src)

private theorem getSrcFlowCount_eq (acc : Accounted t) (a : String) :
    t.getSrcFlowCount a =
      if normalizeIP a = a then (flowsFrom t (normalizeIP a) : Int) else 0 := by
  rw [Table.getSrcFlowCount, getD_count acc.counted]
  split
  · next canonical => rw [canonical]
  · next variant => rw [flowsFrom_of_variant acc.keyed variant]; rfl

private theorem getSrcFlowCount_eq_iff (acc : Accounted t) (same : normalizeIP a = normalizeIP b) :
    t.getSrcFlowCount a = t.getSrcFlowCount b ↔
      flowsFrom t (normalizeIP a) = 0 ∨ (normalizeIP a = a ↔ normalizeIP b = b) := by
  rw [getSrcFlowCount_eq acc, getSrcFlowCount_eq acc, ← same]
  by_cases first : normalizeIP a = a
  · rw [if_pos first, iff_true_left first]
    split
    · next second => exact iff_of_true rfl (.inr second)
    · next second => rw [or_iff_left second, Nat.cast_eq_zero]
  · rw [if_neg first, iff_false_left first]
    split
    · next second => rw [or_iff_left (not_not_intro second), eq_comm, Nat.cast_eq_zero]
    · next second => exact iff_of_true rfl (.inr second)

end Compare

/-- Spellings. In every table reached from a new one, every call gives the same answer and
leaves the same table for two spellings of one address, be it the source or the destination,
exactly when it is not GetSrcFlowCount, or the source has no flow, or both spellings are the
canonical one or neither is. -/
theorem spellings_agree_iff (cfg : Config) (acts : List Act) (a b d : String)
    (same : SameAddress a b) (c : Call) :
    perform (reached cfg acts) a d c = perform (reached cfg acts) b d c ∧
        perform (reached cfg acts) d a c = perform (reached cfg acts) d b c ↔
      (c = .getSrcFlowCount → flowsFrom (reached cfg acts) (normalizeIP a) = 0 ∨
        (normalizeIP a = a ↔ normalizeIP b = b)) := by
  have normal : normalizeIP a = normalizeIP b := (normalizeIP_eq_iff a b).mpr (.inr same)
  by_cases last : c = .getSrcFlowCount
  · subst last
    have counts := getSrcFlowCount_eq_iff (reached_accounted cfg acts) normal
    simp only [perform, Prod.mk.injEq, Answer.count.injEq, and_true, true_imp_iff]
    exact counts
  · refine ⟨fun _ count => absurd count last, fun _ => ⟨?_, ?_⟩⟩
    · exact perform_eq_of_normal last normal rfl
    · exact perform_eq_of_normal last rfl normal

def onePacket : Act :=
  .call "10.0.0.1" "10.0.0.2" (.lookupOrCreate RangeOrder.stored ⟨0, 0, 0⟩ "UDP" 1000 53)

private theorem mapped_sameAddress : SameAddress "10.0.0.1" "::ffff:10.0.0.1" :=
  ⟨Net.Address.mapped 0x0a000001, by decide, by decide⟩

theorem mapped_flow_shared :
    SameAddress "10.0.0.1" "::ffff:10.0.0.1" ∧
      perform (reached defaultConfig [onePacket]) "10.0.0.1" "10.0.0.2" (.delete "UDP" 1000 53) =
        perform (reached defaultConfig [onePacket]) "::ffff:10.0.0.1" "10.0.0.2"
          (.delete "UDP" 1000 53) :=
  ⟨mapped_sameAddress, ((spellings_agree_iff defaultConfig [onePacket] "10.0.0.1"
    "::ffff:10.0.0.1" "10.0.0.2" mapped_sameAddress (.delete "UDP" 1000 53)).mpr
      fun count => absurd count (by simp)).1⟩

/-- The one flow of 10.0.0.1 is not reported for the mapped spelling of the address. -/
theorem mapped_source_miscounted :
    SameAddress "10.0.0.1" "::ffff:10.0.0.1" ∧
      perform (reached defaultConfig [onePacket]) "10.0.0.1" "10.0.0.2" .getSrcFlowCount ≠
        perform (reached defaultConfig [onePacket]) "::ffff:10.0.0.1" "10.0.0.2"
          .getSrcFlowCount := by
  have one : (reached defaultConfig [onePacket]).getSrcFlowCount "10.0.0.1" = 1 := by decide
  have none_found : (reached defaultConfig [onePacket]).getSrcFlowCount "::ffff:10.0.0.1" = 0 := by
    decide
  refine ⟨mapped_sameAddress, fun same => ?_⟩
  simp only [perform, one, none_found, Prod.mk.injEq, Answer.count.injEq] at same
  exact absurd same.1 (by decide)

end L3Firewall.Conntrack.Spellings
