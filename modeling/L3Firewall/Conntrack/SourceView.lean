/- Conntrack/SourceView
   source: internal/conntrack/table.go
   digest: What the table holds of one source, and which calls can change it. -/

import L3Firewall.Conntrack.Accounting

set_option autoImplicit false
set_option relaxedAutoImplicit false

namespace L3Firewall.Conntrack.SourceView

open Foundation.FiniteMap
open Net.Address (normalizeIP)
open FlowTable
open Accounting

@[ext]
structure Companions where
  count : Option Int
  ports : Option (List UInt16)
  conns : Option NewConnRate

def companions (t : Table) (s : String) : Companions :=
  ⟨t.srcFlowCount.lookup s, t.srcPorts.lookup s, t.newConns.lookup s⟩

structure Alike (s : String) (t t' : Table) : Prop where
  cfg : t.cfg = t'.cfg
  flows : ∀ key : FlowKey, key.srcIP = s → t.flows.lookup key = t'.flows.lookup key
  companions : companions t s = companions t' s

def Spares (s : String) (t t' : Table) : Prop :=
  ∀ key : FlowKey, key.srcIP = s → key ∈ t.flows → key ∈ t'.flows

variable {s : String} {t t' u : Table} {key : FlowKey}

theorem Alike.refl (s : String) (t : Table) : Alike s t t := ⟨rfl, fun _ _ => rfl, rfl⟩

theorem Alike.symm (alike : Alike s t t') : Alike s t' t :=
  ⟨alike.cfg.symm, fun key own => (alike.flows key own).symm, alike.companions.symm⟩

theorem Alike.trans (first : Alike s t u) (second : Alike s u t') : Alike s t t' :=
  ⟨first.cfg.trans second.cfg, fun key own => (first.flows key own).trans (second.flows key own),
    first.companions.trans second.companions⟩

private theorem Alike.count (alike : Alike s t t') :
    t.srcFlowCount.lookup s = t'.srcFlowCount.lookup s :=
  congrArg Companions.count alike.companions

private theorem Alike.ports (alike : Alike s t t') : t.srcPorts.lookup s = t'.srcPorts.lookup s :=
  congrArg Companions.ports alike.companions

private theorem Alike.conns (alike : Alike s t t') : t.newConns.lookup s = t'.newConns.lookup s :=
  congrArg Companions.conns alike.companions

section Removal

def Companions.released (c : Companions) : Companions :=
  let n := c.count.getD 0 - 1
  if n ≤ 0 then ⟨none, none, none⟩ else { c with count := some n }

private theorem removeLocked_companions (t : Table) (key : FlowKey) (s : String) :
    companions (t.removeLocked key) s =
      if key.srcIP = s then (companions t s).released else companions t s := by
  rw [t.removeLocked_eq]
  by_cases own : key.srcIP = s
  · subst own
    rw [if_pos rfl]
    by_cases last : (t.srcFlowCount.lookup key.srcIP).getD 0 - 1 ≤ 0
    · simp [companions, Companions.released, last]
    · simp [companions, Companions.released, last]
  · have other : s ≠ key.srcIP := fun same => own same.symm
    rw [if_neg own]
    by_cases last : (t.srcFlowCount.lookup key.srcIP).getD 0 - 1 ≤ 0
    · simp [companions, last, other]
    · simp [companions, last, other]

private theorem removeLocked_alike (other : key.srcIP ≠ s) : Alike s t (t.removeLocked key) where
  cfg := (removeLocked_cfg t key).symm
  flows k own := by
    have apart : k ≠ key := fun same => other (same ▸ own)
    rw [removeLocked_flows, lookup_erase_eq, if_neg apart]
  companions := by rw [removeLocked_companions, if_neg other]

private theorem foldl_removeLocked_companions (keys : List FlowKey) (t : Table) (s : String) :
    companions (keys.foldl Table.removeLocked t) s =
      Companions.released^[keys.countP fun k => decide (k.srcIP = s)] (companions t s) := by
  induction keys generalizing t with
  | nil => rfl
  | cons key keys ih =>
      rw [List.foldl_cons, ih, removeLocked_companions, List.countP_cons]
      by_cases own : key.srcIP = s
      · simp only [own, if_true, decide_true, Function.iterate_succ_apply]
      · simp only [own, if_false, decide_false, Bool.false_eq_true, Nat.add_zero]

theorem foldl_removeLocked_flows (keys : List FlowKey) (t : Table) (k : FlowKey) :
    (keys.foldl Table.removeLocked t).flows.lookup k =
      if k ∈ keys then none else t.flows.lookup k := by
  induction keys generalizing t with
  | nil => rfl
  | cons key keys ih =>
      rw [List.foldl_cons, ih, removeLocked_flows, lookup_erase_eq]
      by_cases later : k ∈ keys
      · simp [later]
      · simp [later]

private theorem foldl_removeLocked_cfg (keys : List FlowKey) (t : Table) :
    (keys.foldl Table.removeLocked t).cfg = t.cfg := by
  induction keys generalizing t with
  | nil => rfl
  | cons key keys ih => rw [List.foldl_cons, ih, removeLocked_cfg]

theorem mem_expiredKeys_iff {o : FlowOrder} {now : Time} :
    key ∈ t.expiredKeys o now ↔ ∃ f, t.flows.lookup key = some f ∧
      t.idleTimeoutFor f.protocol < (now : Int) - f.lastSeen := by
  unfold Table.expiredKeys
  rw [List.mem_map]
  constructor
  · rintro ⟨⟨k, f⟩, member, rfl⟩
    obtain ⟨inside, late⟩ := List.mem_filter.mp member
    exact ⟨f, mem_range_iff.mp inside, of_decide_eq_true late⟩
  · rintro ⟨f, found, late⟩
    refine ⟨⟨key, f⟩, List.mem_filter.mpr ⟨mem_range_iff.mpr found, ?_⟩, rfl⟩
    exact decide_eq_true late

private theorem expired_alike (alike : Alike s t t') (o o' : FlowOrder) (now : Time)
    (own : key.srcIP = s) : key ∈ t.expiredKeys o now ↔ key ∈ t'.expiredKeys o' now := by
  rw [mem_expiredKeys_iff, mem_expiredKeys_iff, alike.flows key own]
  unfold Table.idleTimeoutFor
  rw [alike.cfg]

theorem expire_alike (alike : Alike s t t') (o o' : FlowOrder) (now : Time) :
    Alike s (t.expire o now) (t'.expire o' now) where
  cfg := by
    change ((t.expiredKeys o now).foldl Table.removeLocked t).cfg =
      ((t'.expiredKeys o' now).foldl Table.removeLocked t').cfg
    rw [foldl_removeLocked_cfg, foldl_removeLocked_cfg]
    exact alike.cfg
  flows k own := by
    change ((t.expiredKeys o now).foldl Table.removeLocked t).flows.lookup k =
      ((t'.expiredKeys o' now).foldl Table.removeLocked t').flows.lookup k
    have same := expired_alike alike o o' now own
    rw [foldl_removeLocked_flows, foldl_removeLocked_flows, alike.flows k own]
    simp only [same]
  companions := by
    change companions ((t.expiredKeys o now).foldl Table.removeLocked t) s =
      companions ((t'.expiredKeys o' now).foldl Table.removeLocked t') s
    rw [foldl_removeLocked_companions, foldl_removeLocked_companions, alike.companions]
    -- Both lists hold each expired flow of the source once, in some order.
    have permuted : ((t.expiredKeys o now).filter fun k => decide (k.srcIP = s)).Perm
        ((t'.expiredKeys o' now).filter fun k => decide (k.srcIP = s)) := by
      refine (List.perm_ext_iff_of_nodup ((expiredKeys_nodup t o now).filter _)
        ((expiredKeys_nodup t' o' now).filter _)).mpr fun k => ?_
      rw [List.mem_filter, List.mem_filter, decide_eq_true_iff]
      constructor
      · rintro ⟨member, own⟩
        exact ⟨(expired_alike alike o o' now own).mp member, own⟩
      · rintro ⟨member, own⟩
        exact ⟨(expired_alike alike o o' now own).mpr member, own⟩
    rw [List.countP_eq_length_filter, List.countP_eq_length_filter, permuted.length_eq]

end Removal

section Eviction

private theorem evictOneLocked_cases (t : Table) (o : FlowOrder) :
    t.evictOneLocked o = t ∨ ∃ key ∈ t.flows, t.evictOneLocked o = t.removeLocked key := by
  by_cases nonempty : 0 < len t.flows
  · exact .inr (evictOneLocked_spec t o nonempty)
  · left
    have nothing : range o t.flows = [] := by
      rw [← List.length_eq_zero_iff, range_length]
      omega
    unfold Table.evictOneLocked
    rw [nothing]
    rfl

private theorem evictIfFull_alike {o : FlowOrder} (spared : Spares s t (t.evictIfFull o)) :
    Alike s t (t.evictIfFull o) := by
  unfold Table.evictIfFull at spared ⊢
  split at spared
  · next full =>
      rw [if_pos full]
      rcases evictOneLocked_cases t o with same | ⟨key, present, evicted⟩
      · rw [same]
        exact ⟨rfl, fun _ _ => rfl, rfl⟩
      · rw [evicted] at spared ⊢
        have other : key.srcIP ≠ s := by
          intro own
          have left := spared key own present
          dsimp only at left
          rw [removeLocked_flows, AList.mem_erase] at left
          exact left.1 rfl
        have alike := removeLocked_alike (t := t) other
        exact ⟨alike.cfg, alike.flows, alike.companions⟩
  · next room =>
      rw [if_neg room]
      exact Alike.refl s t

private theorem evictIfFull_spares {o : FlowOrder} {clock : Clock} {f : Flow}
    (absent : t.flows.lookup key = none) (spared : Spares s t (t.createLocked o clock key f)) :
    Spares s t (t.evictIfFull o) := by
  intro k own present
  have kept : k ∈ (t.evictIfFull o).flows.insert key f := spared k own present
  rcases (AList.mem_insert _).mp kept with rfl | there
  · exact absurd present (AList.lookup_eq_none.mp absent)
  · exact there

end Eviction

section Calls

variable {o : FlowOrder} {clock : Clock} {phase : Bool → Phase → Phase}

def Companions.opened (c : Companions) (now : Time) : Companions where
  count := some (c.count.getD 0 + 1)
  ports := c.ports
  conns := some ((c.conns.getD NewConnRate.empty).record now)

private theorem createLocked_companions (t : Table) (o : FlowOrder) (clock : Clock) (key : FlowKey)
    (f : Flow) (s : String) : companions (t.createLocked o clock key f) s =
      if key.srcIP = s then (companions (t.evictIfFull o) s).opened clock.record
      else companions (t.evictIfFull o) s := by
  by_cases own : key.srcIP = s
  · subst own
    rw [if_pos rfl]
    simp [companions, Companions.opened, Table.createLocked, Table.incrFlowCountLocked,
      Table.recordNewConn]
  · have other : s ≠ key.srcIP := fun same => own same.symm
    rw [if_neg own]
    simp [companions, Table.createLocked, Table.incrFlowCountLocked, Table.recordNewConn,
      other]

private theorem createLocked_flows (t : Table) (o : FlowOrder) (clock : Clock) (key : FlowKey)
    (f : Flow)
    (k : FlowKey) : (t.createLocked o clock key f).flows.lookup k =
      if k = key then some f else (t.evictIfFull o).flows.lookup k :=
  lookup_insert_eq _ key k f

private theorem createLocked_alike (alike : Alike s t t') (own : key.srcIP = s) {f : Flow}
    (absent : t.flows.lookup key = none) (absent' : t'.flows.lookup key = none)
    (spared : Spares s t (t.createLocked o clock key f))
    (spared' : Spares s t' (t'.createLocked o clock key f)) :
    Alike s (t.createLocked o clock key f) (t'.createLocked o clock key f) := by
  have room := evictIfFull_alike (evictIfFull_spares absent spared)
  have room' := evictIfFull_alike (evictIfFull_spares absent' spared')
  have made := (room.symm.trans alike).trans room'
  refine ⟨made.cfg, fun k mine => ?_, ?_⟩
  · rw [createLocked_flows, createLocked_flows, made.flows k mine]
  · rw [createLocked_companions, createLocked_companions, if_pos own, if_pos own,
      made.companions]

theorem looked_alike (alike : Alike s t t') (own : key.srcIP = s) {r r' : Option Flow × Table}
    (looked : Looked t o clock key phase r) (looked' : Looked t' o clock key phase r')
    (spared : Spares s t r.2) (spared' : Spares s t' r'.2) :
    r.1 = r'.1 ∧ Alike s r.2 r'.2 := by
  have found_same := alike.flows key own
  have limit_same : t.reachedFlowLimitLocked key.srcIP = t'.reachedFlowLimitLocked key.srcIP := by
    unfold Table.reachedFlowLimitLocked
    rw [own, alike.cfg, alike.count]
  cases looked with
  | @hit f g found updated =>
      cases looked' with
      | @hit f' g' found' updated' =>
          obtain rfl : f = f' := Option.some.inj (found.symm.trans (found_same.trans found'))
          obtain rfl : g = g' := updated.trans updated'.symm
          refine ⟨rfl, alike.cfg, fun k mine => ?_, alike.companions⟩
          change (t.flows.insert key g).lookup k = (t'.flows.insert key g).lookup k
          rw [lookup_insert_eq, lookup_insert_eq, alike.flows k mine]
      | refused absent' => exact absurd (found.symm.trans (found_same.trans absent')) (by simp)
      | created absent' => exact absurd (found.symm.trans (found_same.trans absent')) (by simp)
  | refused absent limited =>
      cases looked' with
      | hit found' => exact absurd (absent.symm.trans (found_same.trans found')) (by simp)
      | refused absent' limited' => exact ⟨rfl, alike.cfg, alike.flows, alike.companions⟩
      | created absent' below' =>
          exact absurd (limited.symm.trans (limit_same.trans below')) (by simp)
  | @created f absent below made =>
      cases looked' with
      | hit found' => exact absurd (absent.symm.trans (found_same.trans found')) (by simp)
      | refused absent' limited' =>
          exact absurd (below.symm.trans (limit_same.trans limited')) (by simp)
      | @created f' absent' below' made' =>
          obtain rfl : f = f' := made.trans made'.symm
          exact ⟨rfl, createLocked_alike alike own absent absent' spared spared'⟩

theorem looked_other (other : key.srcIP ≠ s) {r : Option Flow × Table}
    (looked : Looked t o clock key phase r) (spared : Spares s t r.2) : Alike s t r.2 := by
  have apart {k : FlowKey} (own : k.srcIP = s) : k ≠ key := fun same => other (same ▸ own)
  cases looked with
  | @hit f g found updated =>
      refine ⟨rfl, fun k own => ?_, rfl⟩
      change t.flows.lookup k = (t.flows.insert key g).lookup k
      rw [lookup_insert_eq, if_neg (apart own)]
  | refused absent limited => exact ⟨rfl, fun _ _ => rfl, rfl⟩
  | @created f absent below made =>
      have room := evictIfFull_alike (evictIfFull_spares absent spared)
      refine ⟨room.cfg, fun k own => ?_, ?_⟩
      · rw [createLocked_flows, if_neg (apart own)]
        exact room.flows k own
      · rw [createLocked_companions, if_neg other]
        exact room.companions

theorem recordDestPort_alike (alike : Alike s t t') {srcIP : String} (own : normalizeIP srcIP = s)
    (dstPort : UInt16) :
    Alike s (t.recordDestPort srcIP dstPort) (t'.recordDestPort srcIP dstPort) := by
  unfold Table.recordDestPort
  dsimp only
  rw [own, alike.ports, alike.cfg]
  split
  · exact alike
  · split
    · exact alike
    · refine ⟨rfl, alike.flows, Companions.ext alike.count ?_ alike.conns⟩
      change (t.srcPorts.insert s _).lookup s = (t'.srcPorts.insert s _).lookup s
      rw [AList.lookup_insert, AList.lookup_insert]

theorem recordDestPort_other {srcIP : String} (other : normalizeIP srcIP ≠ s) (dstPort : UInt16) :
    Alike s t (t.recordDestPort srcIP dstPort) := by
  unfold Table.recordDestPort
  dsimp only
  split
  · exact Alike.refl s t
  · split
    · exact Alike.refl s t
    · refine ⟨rfl, fun _ _ => rfl, Companions.ext rfl ?_ rfl⟩
      change t.srcPorts.lookup s = (t.srcPorts.insert (normalizeIP srcIP) _).lookup s
      rw [lookup_insert_eq, if_neg fun same => other same.symm]

theorem getRecentDestPorts_alike (alike : Alike s t t') {srcIP : String}
    (own : normalizeIP srcIP = s) : t.getRecentDestPorts srcIP = t'.getRecentDestPorts srcIP := by
  unfold Table.getRecentDestPorts
  rw [own, alike.ports]

theorem newConnectionRate_alike (alike : Alike s t t') {srcIP : String}
    (own : normalizeIP srcIP = s) (now : Time) :
    t.newConnectionRate srcIP now = t'.newConnectionRate srcIP now := by
  unfold Table.newConnectionRate
  rw [own, alike.conns]

end Calls

end L3Firewall.Conntrack.SourceView
