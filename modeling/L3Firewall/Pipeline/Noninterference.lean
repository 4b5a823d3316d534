/- Pipeline/Noninterference
   source: internal/engine/engine.go
   digest: A source is judged by its own packets, however they are interleaved with others. -/

import L3Firewall.Conntrack.SourceView
import L3Firewall.Foundation.Unwinding
import L3Firewall.Pipeline.Counters
import L3Firewall.Pipeline.Interleaving
import L3Firewall.Ratelimit.SourceView

set_option autoImplicit false
set_option relaxedAutoImplicit false

namespace L3Firewall.Pipeline.Noninterference

open Foundation.Runs.Machine
open Foundation.Unwinding
open Net.Address (normalizeIP)
open Conntrack.FlowTable
  (Table Flow Looked flowKey tcpSwitch newFlowOverride lookupOrCreate_looked
    updateTCPState_looked)
open Conntrack.SourceView
  (looked_alike looked_other recordDestPort_alike recordDestPort_other newConnectionRate_alike
    getRecentDestPorts_alike expire_alike)
open Ratelimit.Buckets (Limiter)
open Ratelimit.Isolation (Spelling spelling_iff)
open Ratelimit.SourceView
  (belongs_ipKey belongs_portKey exceedsLimit_alike track_alike track_other cleanup_alike)
open Packet.Parser (Bytes Decoder PacketInfo ParsePacket)
open Opa.Document (Input)
open Opa.Evaluator (Text text Result)
open Handlers
open Course
open Interleaving

abbrev TableAlike := Conntrack.SourceView.Alike

abbrev FlowsSpared := Conntrack.SourceView.Spares

abbrev LimiterAlike := Ratelimit.SourceView.Alike

abbrev BucketsSpared := Ratelimit.SourceView.Spares

/-- Two engines are set up alike and hold the same for a source. -/
structure Alike (s : String) (e e' : Engine) : Prop where
  setup : settings e = settings e'
  conntrack : Option.Rel (TableAlike (normalizeIP s)) e.conntrack e'.conntrack
  ratelimit : Option.Rel (LimiterAlike s) e.ratelimit e'.ratelimit

/-- Nothing that one engine holds of the source is gone in the other. -/
structure Spared (s : String) (e e' : Engine) : Prop where
  flows : ∀ t t', e.conntrack = some t → e'.conntrack = some t' →
    FlowsSpared (normalizeIP s) t t'
  buckets : ∀ l l', e.ratelimit = some l → e'.ratelimit = some l' →
    BucketsSpared s l l'

/-- Whether the hook is working on a packet of the source. -/
def mine (s : String) (hook : Stage) : Bool :=
  match job? hook with
  | none => false
  | some job => decide (Spelling s job.pi.srcIP)

/-- The steps that concern a source: its packets from their arrival to the decision on them,
and what the other goroutines do. -/
def own (d : Decoder) (s : String) (S : System) : Label → Bool
  | .arrive _ none => false
  | .arrive _ (some raw) =>
      match ParsePacket d raw with
      | .error _ => false
      | .ok pi => decide (Spelling s pi.srcIP)
  | .advance => mine s S.hook
  | .expire _ _ | .cleanup _ | .refresh _ => true

/-- A packet is taken from the queue when the one before is done, and no access of the hook
evicts a flow or a bucket of the source. -/
def Granted (s : String) (S : System) : Label → Prop
  | .arrive _ _ => S.hook = .idle
  | .advance => Spared s S.engine (advance S).2.engine
  | .expire _ _ | .cleanup _ | .refresh _ => True

/-- Two systems are alike for a source when their engines are, and the hooks stand at the
same place of the same packet if they are at one of the source. -/
structure SystemAlike (s : String) (S S' : System) : Prop where
  engine : Alike s S.engine S'.engine
  busy : mine s S.hook = mine s S'.hook
  hook : mine s S.hook = true → S.hook = S'.hook

section Relations

variable {α : Type} {r : α → α → Prop} {x y z : Option α}

private theorem rel_refl (all : ∀ a, r a a) (x : Option α) : Option.Rel r x x := by
  cases x with
  | none => exact .none
  | some a => exact .some (all a)

private theorem rel_symm (flip : ∀ a b, r a b → r b a) (related : Option.Rel r x y) :
    Option.Rel r y x := by
  cases related with
  | none => exact .none
  | some inner => exact .some (flip _ _ inner)

private theorem rel_trans (join : ∀ a b c, r a b → r b c → r a c) (first : Option.Rel r x y)
    (second : Option.Rel r y z) : Option.Rel r x z := by
  cases first with
  | none => exact second
  | some inner =>
      cases second with
      | some outer => exact .some (join _ _ _ inner outer)

private theorem rel_cases (related : Option.Rel r x y) :
    (x = none ∧ y = none) ∨ ∃ a b, x = some a ∧ y = some b ∧ r a b := by
  cases related with
  | none => exact .inl ⟨rfl, rfl⟩
  | some inner => exact .inr ⟨_, _, rfl, rfl, inner⟩

end Relations

section Engines

variable {s : String} {e e' e'' : Engine} {env : Env} {pi : PacketInfo} {raw : Bytes}
  {ending : Ending}

private theorem Alike.of_same (setup : settings e = settings e')
    (flows : e.conntrack = e'.conntrack)
    (buckets : e.ratelimit = e'.ratelimit) : Alike s e e' where
  setup := setup
  conntrack := flows ▸ rel_refl (Conntrack.SourceView.Alike.refl _) _
  ratelimit := buckets ▸ rel_refl (Ratelimit.SourceView.Alike.refl _) _

private theorem Alike.symm (alike : Alike s e e') : Alike s e' e where
  setup := alike.setup.symm
  conntrack := rel_symm (fun _ _ => .symm) alike.conntrack
  ratelimit := rel_symm (fun _ _ => .symm) alike.ratelimit

private theorem Alike.trans (first : Alike s e e') (second : Alike s e' e'') : Alike s e e'' where
  setup := first.setup.trans second.setup
  conntrack := rel_trans (fun _ _ _ => .trans) first.conntrack second.conntrack
  ratelimit := rel_trans (fun _ _ _ => .trans) first.ratelimit second.ratelimit

private theorem Alike.withTable (alike : Alike s e e') {t t' : Table}
    (tables : TableAlike (normalizeIP s) t t') :
    Alike s { e with conntrack := some t } { e' with conntrack := some t' } :=
  ⟨alike.setup, .some tables, alike.ratelimit⟩

private theorem Alike.withLimiter (alike : Alike s e e') {l l' : Limiter}
    (limiters : LimiterAlike s l l') :
    Alike s { e with ratelimit := some l } { e' with ratelimit := some l' } :=
  ⟨alike.setup, alike.conntrack, .some limiters⟩

private theorem decision_alike_self (env : Env) (pi : PacketInfo) (raw : Bytes) (e : Engine)
    (ending : Ending) : Alike s e (decision env raw (result env pi (e, ending))).2 := by
  obtain ⟨setup, flows, buckets⟩ := decision_same env pi raw e ending
  exact .of_same setup.symm flows.symm buckets.symm

private theorem decision_congr (setup : settings e = settings e') :
    (decision env raw (result env pi (e, ending))).1 =
      (decision env raw (result env pi (e', ending))).1 := by
  have same : (result env pi (e, ending)).1 = (result env pi (e', ending)).1 := by
    unfold result
    dsimp only
    rw [answer_settings env pi e, answer_settings env pi e', setup]
    split
    · rfl
    · rfl
  unfold decision
  rw [same]
  split
  · rfl
  · rfl

end Engines

section Tables

variable {s : String} {t t' : Table} {l l' : Limiter} {pi : PacketInfo}

private theorem trackFlow_calls (env : Env) (pi : PacketInfo) : ∃ key phase,
    key.srcIP = normalizeIP pi.srcIP ∧
      ∀ t, Looked t env.flowOrder env.flowClock key phase (trackFlow env pi t) := by
  refine ⟨flowKey pi.srcIP pi.dstIP pi.protocol pi.srcPort pi.dstPort, fun isNew p =>
    if pi.protocol = "TCP" then
      newFlowOverride isNew pi.protocol (flags pi) (tcpSwitch (flags pi) p)
    else p, rfl, fun t => ?_⟩
  unfold trackFlow
  by_cases tcp : pi.protocol = "TCP"
  · simp only [if_pos tcp]
    exact updateTCPState_looked t _ _ _ _ _ _ _ _
  · simp only [if_neg tcp]
    exact lookupOrCreate_looked t _ _ _ _ _ _ _

private theorem trackFlow_alike (env : Env) (alike : TableAlike (normalizeIP s) t t')
    (spelled : Spelling s pi.srcIP)
    (spared : FlowsSpared (normalizeIP s) t (trackFlow env pi t).2)
    (spared' : FlowsSpared (normalizeIP s) t' (trackFlow env pi t').2) :
    (trackFlow env pi t).1 = (trackFlow env pi t').1 ∧
      TableAlike (normalizeIP s) (trackFlow env pi t).2 (trackFlow env pi t').2 := by
  obtain ⟨key, phase, source, looked⟩ := trackFlow_calls env pi
  have own : key.srcIP = normalizeIP s := source.trans ((spelling_iff s pi.srcIP).mp spelled)
  exact looked_alike alike own (looked t) (looked t') spared spared'

private theorem trackFlow_other (env : Env) (other : ¬ Spelling s pi.srcIP)
    (spared : FlowsSpared (normalizeIP s) t (trackFlow env pi t).2) :
    TableAlike (normalizeIP s) t (trackFlow env pi t).2 := by
  obtain ⟨key, phase, source, looked⟩ := trackFlow_calls env pi
  have apart : key.srcIP ≠ normalizeIP s := fun same =>
    other ((spelling_iff s pi.srcIP).mpr (source.symm.trans same))
  exact looked_other apart (looked t) spared

private theorem trackPort_alike (alike : TableAlike (normalizeIP s) t t')
    (spelled : Spelling s pi.srcIP) :
    TableAlike (normalizeIP s) (trackPort pi t) (trackPort pi t') := by
  unfold trackPort
  split
  · exact recordDestPort_alike alike ((spelling_iff s pi.srcIP).mp spelled) _
  · exact alike

private theorem trackPort_other (other : ¬ Spelling s pi.srcIP) :
    TableAlike (normalizeIP s) t (trackPort pi t) := by
  unfold trackPort
  split
  · exact recordDestPort_other (fun same => other ((spelling_iff s pi.srcIP).mpr same)) _
  · exact .refl _ t

end Tables

section Stages

variable {s : String} {e e' : Engine} {job : Job}

private theorem stage_alike (alike : Alike s e e') (stage : Stage) :
    SystemAlike s ⟨e, stage⟩ ⟨e', stage⟩ :=
  ⟨alike, rfl, fun _ => rfl⟩

/-- What the hook does from engines that are alike: the same, and they stay alike. -/
def Agree (s : String) (x y : Option Nat × System) : Prop := x.1 = y.1 ∧ SystemAlike s x.2 y.2

private theorem agree_stage (alike : Alike s e e') (stage : Stage) :
    Agree s (none, ⟨e, stage⟩) (none, ⟨e', stage⟩) :=
  ⟨rfl, stage_alike alike stage⟩

private theorem agree_finish (alike : Alike s e e') (env : Env) (pi : PacketInfo) (raw : Bytes)
    (ending : Ending) : Agree s (finish env pi raw e ending) (finish env pi raw e' ending) := by
  constructor
  · exact congrArg some (decision_congr alike.setup)
  · apply stage_alike
    exact (decision_alike_self env pi raw e ending).symm.trans
      (alike.trans (decision_alike_self env pi raw e' ending))

section Own

variable (spelled : Spelling s job.pi.srcIP)

include spelled

private theorem accessFlow_agree (alike : Alike s e e')
    (spared : Spared s e (accessFlow job e).2.engine)
    (spared' : Spared s e' (accessFlow job e').2.engine) :
    Agree s (accessFlow job e) (accessFlow job e') := by
  rcases rel_cases alike.conntrack with ⟨none, none'⟩ | ⟨t, t', present, present', tables⟩
  · unfold accessFlow
    rw [none, none']
    exact agree_finish alike _ _ _ _
  · obtain ⟨same, after⟩ := trackFlow_alike job.env tables spelled
      (spared.flows t _ present (accessFlow_conntrack present))
      (spared'.flows t' _ present' (accessFlow_conntrack present'))
    unfold accessFlow
    rw [present, present']
    dsimp only
    rw [same]
    cases (trackFlow job.env job.pi t').1 with
    | none => exact agree_finish (alike.withTable after) _ _ _ _
    | some flow => exact agree_stage (alike.withTable after) _

private theorem accessPort_agree (alike : Alike s e e') (flow : Flow) :
    Agree s (accessPort job flow e) (accessPort job flow e') := by
  have filter : macRefusal (settings e).l2Filter job.pi.srcMAC =
    macRefusal (settings e').l2Filter job.pi.srcMAC := by rw [alike.setup]
  change macRefusal e.l2Filter job.pi.srcMAC = macRefusal e'.l2Filter job.pi.srcMAC at filter
  unfold accessPort
  rcases rel_cases alike.conntrack with ⟨none, none'⟩ | ⟨t, t', present, present', tables⟩
  · rw [none, none']
    exact agree_finish alike _ _ _ _
  · have after := alike.withTable (trackPort_alike tables spelled)
    rw [present, present']
    dsimp only
    rw [filter]
    cases macRefusal e'.l2Filter job.pi.srcMAC with
    | some reason => exact agree_finish after _ _ _ _
    | none => exact agree_stage after _

private theorem accessRate_agree (alike : Alike s e e') (flow : Flow)
    (spared : Spared s e (accessRate job flow e).2.engine)
    (spared' : Spared s e' (accessRate job flow e').2.engine) :
    Agree s (accessRate job flow e) (accessRate job flow e') := by
  rcases rel_cases alike.ratelimit with ⟨none, none'⟩ | ⟨l, l', present, present', limiters⟩
  · unfold accessRate
    rw [none, none']
    exact agree_finish alike _ _ _ _
  · have tracked := track_alike limiters (belongs_ipKey.mpr spelled)
      (spared.buckets l _ present (accessRate_ratelimit present))
      (spared'.buckets l' _ present' (accessRate_ratelimit present'))
    have rates : (l.Allow job.env.rateOrder job.pi.srcIP job.raw.length job.env.rateTime).1 =
      (l'.Allow job.env.rateOrder job.pi.srcIP job.raw.length job.env.rateTime).1 := tracked.1
    unfold accessRate
    rw [present, present']
    dsimp only
    rw [rates]
    exact agree_stage (alike.withLimiter tracked.2) _

private theorem accessPortRate_agree (alike : Alike s e e') (flow : Flow) (pps bps : ℚ)
    (spared : Spared s e (accessPortRate job flow pps bps e).2.engine)
    (spared' : Spared s e' (accessPortRate job flow pps bps e').2.engine) :
    Agree s (accessPortRate job flow pps bps e) (accessPortRate job flow pps bps e') := by
  rcases rel_cases alike.ratelimit with ⟨none, none'⟩ | ⟨l, l', present, present', limiters⟩
  · unfold accessPortRate
    rw [none, none']
    exact agree_finish alike _ _ _ _
  · have tracked := track_alike limiters (belongs_portKey.mpr spelled)
      (spared.buckets l _ present (accessPortRate_ratelimit present))
      (spared'.buckets l' _ present' (accessPortRate_ratelimit present'))
    have rates : (l.AllowPort job.env.portOrder job.pi.srcIP job.pi.dstPort job.raw.length
        job.env.portTime).1 = (l'.AllowPort job.env.portOrder job.pi.srcIP job.pi.dstPort
        job.raw.length job.env.portTime).1 := tracked.1
    have limits : ∀ r : Rates, exceeds (r, (l.AllowPort job.env.portOrder job.pi.srcIP
        job.pi.dstPort job.raw.length job.env.portTime).2) = exceeds (r, (l'.AllowPort
        job.env.portOrder job.pi.srcIP job.pi.dstPort job.raw.length job.env.portTime).2) :=
      fun r => exceedsLimit_alike tracked.2 r.pps r.bps
    unfold accessPortRate
    rw [present, present']
    dsimp only
    rw [rates, limits]
    split
    · exact agree_finish (alike.withLimiter tracked.2) _ _ _ _
    · exact agree_stage (alike.withLimiter tracked.2) _

private theorem accessConnRate_agree (alike : Alike s e e') (flow : Flow) (rates : Rates) :
    Agree s (accessConnRate job flow rates e) (accessConnRate job flow rates e') := by
  unfold accessConnRate
  rcases rel_cases alike.conntrack with ⟨none, none'⟩ | ⟨t, t', present, present', tables⟩
  · rw [none, none']
    exact agree_finish alike _ _ _ _
  · rw [present, present']
    dsimp only
    rw [newConnectionRate_alike tables ((spelling_iff s job.pi.srcIP).mp spelled)]
    exact agree_stage alike _

private theorem accessPorts_agree (alike : Alike s e e') (flow : Flow) (rates : Rates)
    (newConnRate : ℚ) :
    Agree s (accessPorts job flow rates newConnRate e)
      (accessPorts job flow rates newConnRate e') := by
  unfold accessPorts
  rcases rel_cases alike.conntrack with ⟨none, none'⟩ | ⟨t, t', present, present', tables⟩
  · rw [none, none']
    exact agree_finish alike _ _ _ _
  · rw [present, present']
    dsimp only
    rw [getRecentDestPorts_alike tables ((spelling_iff s job.pi.srcIP).mp spelled)]
    exact agree_stage alike _

end Own

private theorem accessBlocklist_agree (alike : Alike s e e') (input : Input) :
    Agree s (accessBlocklist job input e) (accessBlocklist job input e') := by
  unfold accessBlocklist
  rw [conclusion_settings _ e, conclusion_settings _ e', alike.setup]
  exact agree_finish alike _ _ _ _

private theorem arrive_agree (d : Decoder) (alike : Alike s e e') (env : Env)
    (payload : Option Bytes) :
    Agree s (arrive d env payload e) (arrive d env payload e') := by
  have counted : Alike s e.countProcessed e'.countProcessed :=
    ⟨alike.setup, alike.conntrack, alike.ratelimit⟩
  have dropped : Alike s e.countProcessed.countBlocked e'.countProcessed.countBlocked :=
    ⟨alike.setup, alike.conntrack, alike.ratelimit⟩
  unfold arrive
  cases payload with
  | none => exact ⟨rfl, stage_alike dropped _⟩
  | some raw =>
      dsimp only
      cases ParsePacket d raw with
      | error err => exact ⟨rfl, stage_alike dropped _⟩
      | ok pi =>
          dsimp only
          cases traceID env with
          | error value => exact agree_finish counted _ _ _ _
          | ok tid => exact agree_stage counted _

private theorem advance_agree {S S' : System} (alike : SystemAlike s S S')
    (busy : mine s S.hook = true)
    (spared : Spared s S.engine (advance S).2.engine)
    (spared' : Spared s S'.engine (advance S').2.engine) : Agree s (advance S) (advance S') := by
  obtain ⟨e, hook⟩ := S
  obtain ⟨e', hook'⟩ := S'
  obtain rfl : hook = hook' := alike.hook busy
  have engines := alike.engine
  cases hook with
  | idle => exact ⟨rfl, alike⟩
  | flow job => exact accessFlow_agree (of_decide_eq_true busy) engines spared spared'
  | port job flow => exact accessPort_agree (of_decide_eq_true busy) engines flow
  | rate job flow => exact accessRate_agree (of_decide_eq_true busy) engines flow spared spared'
  | portRate job flow pps bps =>
      exact accessPortRate_agree (of_decide_eq_true busy) engines flow pps bps spared spared'
  | connRate job flow rates =>
      exact accessConnRate_agree (of_decide_eq_true busy) engines flow rates
  | ports job flow rates newConnRate =>
      exact accessPorts_agree (of_decide_eq_true busy) engines flow rates newConnRate
  | blocklist job input => exact accessBlocklist_agree engines input

end Stages

section Others

variable {s : String} {e e' : Engine} {job : Job}

/-- What the hook does leaves the engine alike, and it is still not at a packet of the
source. -/
def Passes (s : String) (e : Engine) (x : Option Nat × System) : Prop :=
  Alike s e x.2.engine ∧ mine s x.2.hook = false

private theorem Alike.refl (s : String) (e : Engine) : Alike s e e := .of_same rfl rfl rfl

private theorem passes_finish (alike : Alike s e e') (env : Env) (pi : PacketInfo) (raw : Bytes)
    (ending : Ending) : Passes s e (finish env pi raw e' ending) :=
  ⟨alike.trans (decision_alike_self env pi raw e' ending), rfl⟩

private theorem passes_stage (alike : Alike s e e') {stage : Stage} (other : mine s stage = false) :
    Passes s e (none, ⟨e', stage⟩) :=
  ⟨alike, other⟩

private theorem Alike.tableChanged {t t' : Table} (present : e.conntrack = some t)
    (tables : TableAlike (normalizeIP s) t t') : Alike s e { e with conntrack := some t' } :=
  ⟨rfl, present ▸ .some tables, rel_refl (Ratelimit.SourceView.Alike.refl s) _⟩

private theorem Alike.limiterChanged {l l' : Limiter} (present : e.ratelimit = some l)
    (limiters : LimiterAlike s l l') : Alike s e { e with ratelimit := some l' } :=
  ⟨rfl, rel_refl (Conntrack.SourceView.Alike.refl _) _, present ▸ .some limiters⟩

variable (other : ¬ Spelling s job.pi.srcIP)

include other

private theorem accessFlow_passes (spared : Spared s e (accessFlow job e).2.engine) :
    Passes s e (accessFlow job e) := by
  cases present : e.conntrack with
  | none =>
      unfold accessFlow
      rw [present]
      exact passes_finish (.refl s e) _ _ _ _
  | some t =>
      have changed := Alike.tableChanged present (trackFlow_other job.env other
        (spared.flows t _ present (accessFlow_conntrack present)))
      unfold accessFlow
      rw [present]
      dsimp only
      cases (trackFlow job.env job.pi t).1 with
      | none => exact passes_finish changed _ _ _ _
      | some flow => exact passes_stage changed (decide_eq_false other)

private theorem accessPort_passes (flow : Flow) : Passes s e (accessPort job flow e) := by
  unfold accessPort
  cases present : e.conntrack with
  | none => exact passes_finish (.refl s e) _ _ _ _
  | some t =>
      have changed := Alike.tableChanged present (trackPort_other (t := t) other)
      dsimp only
      cases macRefusal e.l2Filter job.pi.srcMAC with
      | some reason => exact passes_finish changed _ _ _ _
      | none => exact passes_stage changed (decide_eq_false other)

private theorem accessRate_passes (flow : Flow)
    (spared : Spared s e (accessRate job flow e).2.engine) :
    Passes s e (accessRate job flow e) := by
  cases present : e.ratelimit with
  | none =>
      unfold accessRate
      rw [present]
      exact passes_finish (.refl s e) _ _ _ _
  | some l =>
      have changed := Alike.limiterChanged present (track_other (mt belongs_ipKey.mp other)
        (spared.buckets l _ present (accessRate_ratelimit present)))
      unfold accessRate
      rw [present]
      exact passes_stage changed (decide_eq_false other)

private theorem accessPortRate_passes (flow : Flow) (pps bps : ℚ)
    (spared : Spared s e (accessPortRate job flow pps bps e).2.engine) :
    Passes s e (accessPortRate job flow pps bps e) := by
  cases present : e.ratelimit with
  | none =>
      unfold accessPortRate
      rw [present]
      exact passes_finish (.refl s e) _ _ _ _
  | some l =>
      have changed := Alike.limiterChanged present (track_other (mt belongs_portKey.mp other)
        (spared.buckets l _ present (accessPortRate_ratelimit present)))
      unfold accessPortRate
      rw [present]
      dsimp only
      split
      · exact passes_finish changed _ _ _ _
      · exact passes_stage changed (decide_eq_false other)

private theorem accessConnRate_passes (flow : Flow) (rates : Rates) :
    Passes s e (accessConnRate job flow rates e) := by
  unfold accessConnRate
  cases e.conntrack with
  | none => exact passes_finish (.refl s e) _ _ _ _
  | some t => exact passes_stage (.refl s e) (decide_eq_false other)

private theorem accessPorts_passes (flow : Flow) (rates : Rates) (newConnRate : ℚ) :
    Passes s e (accessPorts job flow rates newConnRate e) := by
  unfold accessPorts
  cases e.conntrack with
  | none => exact passes_finish (.refl s e) _ _ _ _
  | some t => exact passes_stage (.refl s e) (decide_eq_false other)

omit other

private theorem arrive_passes {d : Decoder} {env : Env} {payload : Option Bytes} {S : System}
    (other : own d s S (.arrive env payload) = false) : Passes s e (arrive d env payload e) := by
  have counted : Alike s e e.countProcessed := .of_same rfl rfl rfl
  have dropped : Alike s e e.countProcessed.countBlocked := .of_same rfl rfl rfl
  unfold arrive
  cases payload with
  | none => exact ⟨dropped, rfl⟩
  | some raw =>
      dsimp only
      cases parsed : ParsePacket d raw with
      | error err => exact ⟨dropped, rfl⟩
      | ok pi =>
          unfold own at other
          dsimp only at other
          rw [parsed] at other
          dsimp only
          cases traceID env with
          | error value => exact passes_finish counted _ _ _ _
          | ok tid => exact passes_stage counted other

private theorem advance_passes {S : System} (other : mine s S.hook = false)
    (spared : Spared s S.engine (advance S).2.engine) : Passes s S.engine (advance S) := by
  obtain ⟨e, hook⟩ := S
  cases hook with
  | idle => exact ⟨.refl s e, rfl⟩
  | flow job => exact accessFlow_passes (of_decide_eq_false other) spared
  | port job flow => exact accessPort_passes (of_decide_eq_false other) flow
  | rate job flow => exact accessRate_passes (of_decide_eq_false other) flow spared
  | portRate job flow pps bps =>
      exact accessPortRate_passes (of_decide_eq_false other) flow pps bps spared
  | connRate job flow rates => exact accessConnRate_passes (of_decide_eq_false other) flow rates
  | ports job flow rates newConnRate =>
      exact accessPorts_passes (of_decide_eq_false other) flow rates newConnRate
  | blocklist job input => exact passes_finish (.refl s e) _ _ _ _

end Others

section Runs

variable {d : Decoder} {s : String} {S S' : System}

private theorem SystemAlike.symm (alike : SystemAlike s S S') : SystemAlike s S' S where
  engine := alike.engine.symm
  busy := alike.busy.symm
  hook busy := (alike.hook (alike.busy.trans busy)).symm

private theorem Passes.alike {x : Option Nat × System} (passes : Passes s S.engine x)
    (other : mine s S.hook = false) (alike : SystemAlike s S S') : SystemAlike s x.2 S' where
  engine := passes.1.symm.trans alike.engine
  busy := passes.2.trans (other.symm.trans alike.busy)
  hook busy := absurd (passes.2.symm.trans busy) (by simp)

private theorem expire_rel {t t' : Option Table} (o : Conntrack.FlowTable.FlowOrder)
    (now : Conntrack.FlowTable.Time) (related : Option.Rel (TableAlike (normalizeIP s)) t t') :
    Option.Rel (TableAlike (normalizeIP s)) (t.map (·.expire o now)) (t'.map (·.expire o now)) := by
  cases related with
  | none => exact .none
  | some tables => exact .some (expire_alike tables o o now)

private theorem cleanup_rel {l l' : Option Limiter} (now : Conntrack.FlowTable.Time)
    (related : Option.Rel (LimiterAlike s) l l') :
    Option.Rel (LimiterAlike s) (l.map (·.Cleanup idleThreshold now |>.2))
      (l'.map (·.Cleanup idleThreshold now |>.2)) := by
  cases related with
  | none => exact .none
  | some limiters => exact .some (cleanup_alike limiters idleThreshold now)

private theorem settings_refresh {e e' : Engine} (setup : settings e = settings e')
    (bl : Threatintel.Lookup.Blocklist) :
    settings { e with threatIntel := e.threatIntel.map fun _ => bl } =
      settings { e' with threatIntel := e'.threatIntel.map fun _ => bl } := by
  change { settings e with threatIntel := (settings e).threatIntel.map fun _ => bl } =
    { settings e' with threatIntel := (settings e').threatIntel.map fun _ => bl }
  rw [setup]

private theorem unwinds (d : Decoder) (s : String) :
    Unwinds (step d) (own d s) (Granted s) (SystemAlike s) where
  symm _ _ alike := alike.symm
  consistent S S' label alike own own' granted granted' := by
    cases label with
    | arrive env payload =>
        rw [step_arrive granted, step_arrive granted']
        exact arrive_agree d alike.engine env payload
    | advance => exact advance_agree alike own granted granted'
    | expire o now =>
        exact ⟨rfl, ⟨alike.engine.setup, expire_rel o now alike.engine.conntrack,
          alike.engine.ratelimit⟩, alike.busy, alike.hook⟩
    | cleanup now =>
        exact ⟨rfl, ⟨alike.engine.setup, alike.engine.conntrack,
          cleanup_rel now alike.engine.ratelimit⟩, alike.busy, alike.hook⟩
    | refresh bl =>
        exact ⟨rfl, ⟨settings_refresh alike.engine.setup bl, alike.engine.conntrack,
          alike.engine.ratelimit⟩, alike.busy, alike.hook⟩
  respects S S' label alike other granted := by
    cases label with
    | arrive env payload =>
        have waiting : mine s S.hook = false := by rw [show S.hook = .idle from granted]; rfl
        rw [step_arrive granted]
        exact (arrive_passes other).alike waiting alike
    | advance => exact (advance_passes other granted).alike other alike
    | expire o now => exact absurd other (by simp [own])
    | cleanup now => exact absurd other (by simp [own])
    | refresh bl => exact absurd other (by simp [own])

/-- The decisions on the packets of a source, in the order in which they arrive. -/
def judgements (d : Decoder) (s : String) (S : System) (labels : List Label) : List Nat :=
  (observed (step d) (own d s) S labels).filterMap id

/-- A source is judged by its own packets. Take two runs of the hook, the ticker and the
refresher, interleaved access by access in any way, that contain the same steps for the source
and in which no access evicts a flow or a bucket of it. Whatever other sources send, the packets
of the source are decided alike. -/
theorem source_judged_by_own_packets (d : Decoder) (s : String) (S S' : System)
    (start : SystemAlike s S S') (labels labels' : List Label)
    (granted : (total (step d)).Along (Granted s) S labels)
    (granted' : (total (step d)).Along (Granted s) S' labels')
    (same : ownSteps (step d) (own d s) S labels = ownSteps (step d) (own d s) S' labels') :
    judgements d s S labels = judgements d s S' labels' :=
  congrArg (List.filterMap id)
    ((unwinds d s).observed_eq start labels labels' granted granted' same)

end Runs

section Checked

variable {d : Decoder} {s : String}

/-- Every flow and bucket of the first engine is in the second. -/
def nothingEvicted (e e' : Engine) : Bool :=
  (match e.conntrack, e'.conntrack with
    | some t, some t' => t.flows.keys.all fun key => decide (key ∈ t'.flows)
    | _, _ => true) &&
  match e.ratelimit, e'.ratelimit with
    | some l, some l' => l.buckets.keys.all fun key => decide (key ∈ l'.buckets)
    | _, _ => true

/-- No packet is taken too early, and nothing at all is evicted. -/
def Calm (S : System) : Label → Prop
  | .arrive _ _ => (job? S.hook).isNone = true
  | .advance => nothingEvicted S.engine (advance S).2.engine = true
  | .expire _ _ | .cleanup _ | .refresh _ => True

instance (S : System) (label : Label) : Decidable (Calm S label) := by
  unfold Calm
  split <;> infer_instance

private theorem spared_of_nothingEvicted {e e' : Engine} (kept : nothingEvicted e e' = true) :
    Spared s e e' := by
  unfold nothingEvicted at kept
  rw [Bool.and_eq_true] at kept
  constructor
  · intro t t' present present' key _ inside
    have all := kept.1
    rw [present, present'] at all
    exact of_decide_eq_true (List.all_eq_true.mp all key (AList.mem_keys.mp inside))
  · intro l l' present present' key _ inside
    have all := kept.2
    rw [present, present'] at all
    exact of_decide_eq_true (List.all_eq_true.mp all key (AList.mem_keys.mp inside))

private theorem idle_of_no_job {hook : Stage} (none : (job? hook).isNone = true) :
    hook = .idle := by
  cases hook with
  | idle => rfl
  | _ => simp [job?] at none

private theorem granted_of_calm (S : System) (label : Label) (calm : Calm S label) :
    Granted s S label := by
  cases label with
  | arrive env payload => exact idle_of_no_job calm
  | advance => exact spared_of_nothingEvicted calm
  | expire o now => exact trivial
  | cleanup now => exact trivial
  | refresh bl => exact trivial

end Checked

/-- Surroundings in which the evaluator denies every packet. -/
def denying : Env :=
  { Quiet.quietEnv Evasion.everywhere 0 with evaluate := fun _ => .returned (some ⟨false, []⟩) }

def foreignSyn : Bytes :=
  [0x45, 0, 0, 40, 0, 1, 0, 0, 64, 6, 0, 0, 10, 0, 9, 9, 10, 0, 2, 50] ++ Evasion.synToSsh

def aloneRun : List Label :=
  .expire .stored 5 :: .arrive denying (some Counters.wholeSyn) :: List.replicate accesses .advance

/-- The expiry falls into the packet of another source. -/
def crowdedRun : List Label :=
  .arrive denying (some foreignSyn) :: .advance :: .advance :: .advance :: .expire .stored 5 ::
    .advance :: .advance :: .advance :: .advance :: .arrive denying (some Counters.wholeSyn) ::
    List.replicate accesses .advance

theorem syn_judged_alike :
    judgements Packet.Parser.fixedFields "10.0.1.100" ⟨Quiet.freshEngine, .idle⟩ aloneRun = [1] ∧
      judgements Packet.Parser.fixedFields "10.0.1.100" ⟨Quiet.freshEngine, .idle⟩ aloneRun =
        judgements Packet.Parser.fixedFields "10.0.1.100" ⟨Quiet.freshEngine, .idle⟩
          crowdedRun := by
  have flags : ownFlags (step Packet.Parser.fixedFields)
      (own Packet.Parser.fixedFields "10.0.1.100") ⟨Quiet.freshEngine, .idle⟩ aloneRun =
        List.replicate 9 true := by decide +kernel
  have flags' : ownFlags (step Packet.Parser.fixedFields)
      (own Packet.Parser.fixedFields "10.0.1.100") ⟨Quiet.freshEngine, .idle⟩ crowdedRun =
        List.replicate 4 false ++ [true] ++ List.replicate 4 false ++ List.replicate 8 true := by
    decide +kernel
  refine ⟨by decide +kernel, source_judged_by_own_packets _ _ _ _ ⟨.refl _ _, rfl, fun _ => rfl⟩ _ _
    (.mono granted_of_calm (by decide +kernel)) (.mono granted_of_calm (by decide +kernel)) ?_⟩
  rw [ownSteps_eq_pick, ownSteps_eq_pick, flags, flags']
  rfl

end L3Firewall.Pipeline.Noninterference
