/- Threatintel/Entries
   source: internal/threatintel/threatintel.go
   digest: A blocklist answers as the set of entries added and not since removed. -/

import L3Firewall.Threatintel.Networks

set_option autoImplicit false
set_option relaxedAutoImplicit false

namespace L3Firewall.Threatintel.Entries

open Foundation.FiniteMap
open Net.Address
open Net.RoundTrip
open Lookup (IPNet)
open Networks

def maxBlocklistEntries : Nat := 500000

/-- Cap on networks, which a lookup scans one by one. -/
def maxCIDRNetworks : Nat := 65536

/-- What lookups read, and the printed networks that `Add` compares new ones with. -/
structure Blocklist extends Lookup.Blocklist where
  netKeys : FMap String Unit

def NewBlocklist : Blocklist where
  ips := ∅
  nets := []
  netKeys := ∅

/-- The key of an exact address: its IPv4 form where it has one. -/
def ipKey (ip : IP) : String :=
  match IP.To4 ip with
  | some ip4 => IPv4.String ip4
  | none => IP.String ip

def Blocklist.Len (bl : Blocklist) : Nat := len bl.ips + bl.nets.length

def Blocklist.Add (bl : Blocklist) (entry : String) : Blocklist :=
  if maxBlocklistEntries ≤ len bl.ips + bl.nets.length then bl
  else if '/' ∈ entry.toList then
    match ParseCIDR entry with
    | none => bl
    | some ipnet =>
        if IPNet.String ipnet ∈ bl.netKeys then bl
        else if maxCIDRNetworks ≤ bl.nets.length then bl
        else { bl with
          netKeys := bl.netKeys.insert (IPNet.String ipnet) ()
          nets := bl.nets ++ [ipnet] }
  else
    match ParseIP entry with
    | none => bl
    | some ip => { bl with ips := bl.ips.insert (ipKey ip) () }

/-- Only the first network with the printed form goes, and its key with it. -/
def Blocklist.Remove (bl : Blocklist) (entry : String) : Blocklist :=
  if '/' ∈ entry.toList then
    match ParseCIDR entry with
    | none => bl
    | some ipnet =>
        if bl.nets.any (fun n => IPNet.String n = IPNet.String ipnet) then
          { bl with
            nets := bl.nets.eraseP (fun n => IPNet.String n = IPNet.String ipnet)
            netKeys := bl.netKeys.erase (IPNet.String ipnet) }
        else bl
  else
    match ParseIP entry with
    | none => bl
    | some ip => { bl with ips := bl.ips.erase (ipKey ip) }

inductive Call
  | add (entry : String)
  | remove (entry : String)

def Blocklist.apply (bl : Blocklist) : Call → Blocklist
  | .add entry => bl.Add entry
  | .remove entry => bl.Remove entry

/-- The blocklist that a sequence of calls leaves behind. -/
def after (calls : List Call) : Blocklist := calls.foldl Blocklist.apply NewBlocklist

/-! Entries in their canonical form. -/

/-- An exact address or a network. An IPv4-mapped spelling is the IPv4 one's equal. -/
inductive Entry
  | address (ip : IP)
  | network (p : Subnet)
  deriving DecidableEq

def parseEntry (entry : String) : Option Entry :=
  if '/' ∈ entry.toList then (parseSubnet entry).map .network
  else (ParseIP entry).map .address

/-- Equal to the address, or a network that holds it. -/
def Entry.Covers : Entry → IP → Prop
  | .address a, ip => a = ip
  | .network p, ip => p.Holds ip

def Blocklist.Lists (bl : Blocklist) : Entry → Prop
  | .address ip => IP.String ip ∈ bl.ips
  | .network p => p.net ∈ bl.nets

def Blocklist.Capped (bl : Blocklist) : Entry → Prop
  | .address _ => maxBlocklistEntries ≤ bl.Len
  | .network _ => maxBlocklistEntries ≤ bl.Len ∨ maxCIDRNetworks ≤ bl.nets.length

/-- A cap keeps out an entry that the list does not have. -/
def Blocklist.Drops (bl : Blocklist) (entry : String) : Prop :=
  ∃ e, parseEntry entry = some e ∧ ¬ bl.Lists e ∧ bl.Capped e

/-- An entry that was added, with no later removal of the same canonical form. -/
def Live (calls : List Call) (e : Entry) : Prop :=
  ∃ before entry later, calls = before ++ .add entry :: later ∧ parseEntry entry = some e ∧
    ∀ removed, .remove removed ∈ later → parseEntry removed ≠ some e

/-- No call of the sequence met a cap with a new entry. -/
def NoneDropped (calls : List Call) : Prop :=
  ∀ before entry later, calls = before ++ .add entry :: later → ¬ (after before).Drops entry

private theorem ipKey_eq (ip : IP) : ipKey ip = IP.String ip := by
  unfold ipKey
  split
  · next short => rw [IP.String, short]
  · rfl

/-! The representation. -/

structure Blocklist.Sound (bl : Blocklist) : Prop where
  canonical : ∀ n ∈ bl.nets, ∃ p : Subnet, n = p.net
  distinct : (bl.nets.map IPNet.String).Nodup
  keyed : ∀ key, key ∈ bl.netKeys ↔ key ∈ bl.nets.map IPNet.String
  fewNets : bl.nets.length ≤ maxCIDRNetworks
  fewEntries : bl.Len ≤ maxBlocklistEntries

private theorem NewBlocklist_sound : NewBlocklist.Sound where
  canonical := by simp [NewBlocklist]
  distinct := by simp [NewBlocklist]
  keyed := by simp [NewBlocklist, AList.notMem_empty]
  fewNets := by simp [NewBlocklist]
  fewEntries := by simp [NewBlocklist, Blocklist.Len]

private theorem Blocklist.Sound.mem_nets_iff {bl : Blocklist} (sound : bl.Sound) (p : Subnet) :
    p.net ∈ bl.nets ↔ IPNet.String p.net ∈ bl.nets.map IPNet.String := by
  constructor
  · exact fun member => List.mem_map.mpr ⟨p.net, member, rfl⟩
  · intro member
    obtain ⟨n, inside, same⟩ := List.mem_map.mp member
    obtain ⟨q, rfl⟩ := sound.canonical n inside
    rw [← Subnet.net_String_injective same]
    exact inside

private theorem net_injective {p q : Subnet} (same : p.net = q.net) : p = q :=
  Subnet.net_String_injective (congrArg IPNet.String same)

/-! What one call does. -/

theorem Blocklist.Add_cases (bl : Blocklist) (entry : String) :
    (bl.Add entry = bl ∧
      ∀ e, parseEntry entry = some e →
        bl.Capped e ∨ ∃ p, e = .network p ∧ IPNet.String p.net ∈ bl.netKeys) ∨
    (∃ p, parseEntry entry = some (.network p) ∧ IPNet.String p.net ∉ bl.netKeys ∧
      ¬ bl.Capped (.network p) ∧
      bl.Add entry = { bl with
        netKeys := bl.netKeys.insert (IPNet.String p.net) ()
        nets := bl.nets ++ [p.net] }) ∨
    (∃ ip, parseEntry entry = some (.address ip) ∧ ¬ bl.Capped (.address ip) ∧
      bl.Add entry = { bl with ips := bl.ips.insert (IP.String ip) () }) := by
  unfold Blocklist.Add parseEntry
  by_cases full : maxBlocklistEntries ≤ len bl.ips + bl.nets.length
  · rw [if_pos full]
    refine .inl ⟨rfl, fun e _ => .inl ?_⟩
    cases e with
    | address ip => exact full
    | network p => exact .inl full
  · rw [if_neg full]
    by_cases slash : '/' ∈ entry.toList
    · rw [if_pos slash, if_pos slash, ParseCIDR_eq]
      cases parsed : parseSubnet entry with
      | none => exact .inl ⟨rfl, by simp⟩
      | some p =>
          simp only [Option.map_some]
          by_cases dup : IPNet.String p.net ∈ bl.netKeys
          · rw [if_pos dup]
            refine .inl ⟨rfl, fun e same => .inr ⟨p, ?_, dup⟩⟩
            exact (Option.some.inj same).symm
          · rw [if_neg dup]
            by_cases many : maxCIDRNetworks ≤ bl.nets.length
            · rw [if_pos many]
              refine .inl ⟨rfl, fun e same => .inl ?_⟩
              obtain rfl := Option.some.inj same
              exact .inr many
            · rw [if_neg many]
              refine .inr (.inl ⟨p, rfl, dup, ?_, rfl⟩)
              rintro (total | nets)
              · exact full total
              · exact many nets
    · rw [if_neg slash, if_neg slash]
      cases parsed : ParseIP entry with
      | none => exact .inl ⟨rfl, by simp⟩
      | some ip => exact .inr (.inr ⟨ip, rfl, full, by simp only [ipKey_eq]⟩)

private theorem Blocklist.Remove_cases (bl : Blocklist) (entry : String) :
    (bl.Remove entry = bl ∧ ∀ e, parseEntry entry = some e →
      ∃ p, e = .network p ∧ IPNet.String p.net ∉ bl.nets.map IPNet.String) ∨
    (∃ p, parseEntry entry = some (.network p) ∧ IPNet.String p.net ∈ bl.nets.map IPNet.String ∧
      bl.Remove entry = { bl with
        nets := bl.nets.eraseP (fun n => IPNet.String n = IPNet.String p.net)
        netKeys := bl.netKeys.erase (IPNet.String p.net) }) ∨
    (∃ ip, parseEntry entry = some (.address ip) ∧
      bl.Remove entry = { bl with ips := bl.ips.erase (IP.String ip) }) := by
  unfold Blocklist.Remove parseEntry
  by_cases slash : '/' ∈ entry.toList
  · rw [if_pos slash, if_pos slash, ParseCIDR_eq]
    cases parsed : parseSubnet entry with
    | none => exact .inl ⟨rfl, by simp⟩
    | some p =>
        simp only [Option.map_some]
        have found : (bl.nets.any fun n => IPNet.String n = IPNet.String p.net) = true ↔
            IPNet.String p.net ∈ bl.nets.map IPNet.String := by
          simp [List.any_eq_true, List.mem_map]
        by_cases present : IPNet.String p.net ∈ bl.nets.map IPNet.String
        · rw [if_pos (found.mpr present)]
          exact .inr (.inl ⟨p, rfl, present, rfl⟩)
        · rw [if_neg fun hit => present (found.mp hit)]
          refine .inl ⟨rfl, fun e same => ⟨p, ?_, present⟩⟩
          exact (Option.some.inj same).symm
  · rw [if_neg slash, if_neg slash]
    cases parsed : ParseIP entry with
    | none => exact .inl ⟨rfl, by simp⟩
    | some ip => exact .inr (.inr ⟨ip, rfl, by simp only [ipKey_eq]⟩)

private theorem eraseP_eq_filter {α : Type} {l : List α} {f : α → String}
    (distinct : (l.map f).Nodup) (key : String) :
    l.eraseP (fun x => f x = key) = l.filter (fun x => f x ≠ key) := by
  induction l with
  | nil => rfl
  | cons x l ih =>
      obtain ⟨fresh, rest⟩ := List.nodup_cons.mp distinct
      by_cases hit : f x = key
      · have others : ∀ y ∈ l, f y ≠ key := by
          intro y inside same
          exact fresh (List.mem_map.mpr ⟨y, inside, same.trans hit.symm⟩)
        have kept : l.filter (fun y => f y ≠ key) = l :=
          List.filter_eq_self.mpr fun y inside => by simpa using others y inside
        rw [List.eraseP_cons_of_pos (by simpa using hit),
          List.filter_cons_of_neg (by simpa using hit), kept]
      · rw [List.eraseP_cons_of_neg (by simpa using hit),
          List.filter_cons_of_pos (by simpa using hit), ih rest]

private theorem Blocklist.Sound.Add {bl : Blocklist} (sound : bl.Sound) (entry : String) :
    (bl.Add entry).Sound := by
  rcases bl.Add_cases entry with ⟨same, -⟩ | ⟨p, -, fresh, room, same⟩ | ⟨ip, -, room, same⟩
  · rw [same]
    exact sound
  · have absent : IPNet.String p.net ∉ bl.nets.map IPNet.String :=
      fun member => fresh ((sound.keyed _).mpr member)
    rw [same]
    simp only [Blocklist.Capped, not_or, Nat.not_le] at room
    refine ⟨?_, ?_, ?_, ?_, ?_⟩
    · intro n member
      rcases List.mem_append.mp member with old | new
      · exact sound.canonical n old
      · exact ⟨p, List.mem_singleton.mp new⟩
    · rw [List.map_append, List.nodup_append]
      refine ⟨sound.distinct, by simp, ?_⟩
      intro a inside b new clash
      obtain rfl : b = IPNet.String p.net := List.mem_singleton.mp new
      exact absent (clash ▸ inside)
    · intro key
      simp [AList.mem_insert, sound.keyed, or_comm]
    · simp only [List.length_append, List.length_singleton]
      omega
    · simp only [Blocklist.Len, List.length_append, List.length_singleton] at room ⊢
      omega
  · rw [same]
    simp only [Blocklist.Capped, Nat.not_le] at room
    refine ⟨sound.canonical, sound.distinct, sound.keyed, sound.fewNets, ?_⟩
    simp only [Blocklist.Len] at room ⊢
    have grown := len_insert_le bl.ips (IP.String ip) ()
    omega

private theorem Blocklist.Sound.Remove {bl : Blocklist} (sound : bl.Sound) (entry : String) :
    (bl.Remove entry).Sound := by
  rcases bl.Remove_cases entry with ⟨same, -⟩ | ⟨p, -, present, same⟩ | ⟨ip, -, same⟩
  · rw [same]
    exact sound
  · rw [same, eraseP_eq_filter sound.distinct]
    have fewer := List.length_filter_le (fun n => IPNet.String n ≠ IPNet.String p.net) bl.nets
    have nets := sound.fewNets
    have entries := sound.fewEntries
    refine ⟨?_, ?_, ?_, ?_, ?_⟩
    · exact fun n member => sound.canonical n (List.mem_of_mem_filter member)
    · exact (List.filter_sublist.map IPNet.String).nodup sound.distinct
    · intro key
      simp only [AList.mem_erase, sound.keyed, List.mem_map, List.mem_filter, decide_eq_true_eq]
      constructor
      · rintro ⟨other, n, inside, rfl⟩
        exact ⟨n, ⟨inside, other⟩, rfl⟩
      · rintro ⟨n, ⟨inside, other⟩, rfl⟩
        exact ⟨other, n, inside, rfl⟩
    · simp only at fewer ⊢
      omega
    · simp only [Blocklist.Len] at entries fewer ⊢
      omega
  · rw [same]
    have entries := sound.fewEntries
    refine ⟨sound.canonical, sound.distinct, sound.keyed, sound.fewNets, ?_⟩
    simp only [Blocklist.Len] at entries ⊢
    have fewer := len_erase_le bl.ips (IP.String ip)
    omega

private theorem Blocklist.Sound.Add_lists {bl : Blocklist} (sound : bl.Sound) (entry : String)
    (e : Entry) :
    (bl.Add entry).Lists e ↔ bl.Lists e ∨ (parseEntry entry = some e ∧ ¬ bl.Capped e) := by
  rcases bl.Add_cases entry with ⟨same, kept⟩ | ⟨p, parsed, fresh, room, same⟩ |
    ⟨ip, parsed, room, same⟩
  · rw [same]
    constructor
    · exact .inl
    · rintro (old | ⟨parsed, room⟩)
      · exact old
      · rcases kept e parsed with capped | ⟨p, rfl, dup⟩
        · exact absurd capped room
        · exact (sound.mem_nets_iff p).mpr ((sound.keyed _).mp dup)
  · rw [same, parsed]
    cases e with
    | address ip => simp [Blocklist.Lists]
    | network q =>
        simp only [Blocklist.Lists, List.mem_append, List.mem_singleton, Option.some.injEq,
          Entry.network.injEq]
        constructor
        · rintro (old | new)
          · exact .inl old
          · obtain rfl := net_injective new
            exact .inr ⟨rfl, room⟩
        · rintro (old | ⟨rfl, -⟩)
          · exact .inl old
          · exact .inr rfl
  · rw [same, parsed]
    cases e with
    | network q => simp [Blocklist.Lists]
    | address a =>
        simp only [Blocklist.Lists, AList.mem_insert, Option.some.injEq, Entry.address.injEq]
        constructor
        · rintro (new | old)
          · obtain rfl := String_injective new
            exact .inr ⟨rfl, room⟩
          · exact .inl old
        · rintro (old | ⟨rfl, -⟩)
          · exact .inr old
          · exact .inl rfl

private theorem Blocklist.Sound.Remove_lists {bl : Blocklist} (sound : bl.Sound) (entry : String)
    (e : Entry) : (bl.Remove entry).Lists e ↔ bl.Lists e ∧ parseEntry entry ≠ some e := by
  rcases bl.Remove_cases entry with ⟨same, kept⟩ | ⟨p, parsed, -, same⟩ | ⟨ip, parsed, same⟩
  · rw [same]
    constructor
    · intro listed
      refine ⟨listed, fun parsed => ?_⟩
      obtain ⟨p, rfl, absent⟩ := kept e parsed
      exact absent ((sound.mem_nets_iff p).mp listed)
    · exact fun both => both.1
  · rw [same, parsed]
    cases e with
    | address ip => simp [Blocklist.Lists]
    | network q =>
        simp only [Blocklist.Lists, eraseP_eq_filter sound.distinct, List.mem_filter,
          decide_eq_true_eq, ne_eq, Option.some.injEq, Entry.network.injEq]
        constructor
        · rintro ⟨old, other⟩
          exact ⟨old, fun equal => other (by rw [equal])⟩
        · rintro ⟨old, other⟩
          exact ⟨old, fun equal => other (Subnet.net_String_injective equal).symm⟩
  · rw [same, parsed]
    cases e with
    | network q => simp [Blocklist.Lists]
    | address a =>
        simp only [Blocklist.Lists, AList.mem_erase, ne_eq, Option.some.injEq, Entry.address.injEq]
        constructor
        · rintro ⟨other, old⟩
          exact ⟨old, fun equal => other (by rw [equal])⟩
        · rintro ⟨old, other⟩
          exact ⟨fun equal => other (String_injective equal).symm, old⟩

/-! Sequences of calls. -/

private theorem after_snoc (calls : List Call) (call : Call) :
    after (calls ++ [call]) = (after calls).apply call := by
  rw [after, List.foldl_append]
  rfl

private theorem after_sound (calls : List Call) : (after calls).Sound := by
  induction calls using List.reverseRecOn with
  | nil => exact NewBlocklist_sound
  | append_singleton calls call ih =>
      rw [after_snoc]
      cases call with
      | add entry => exact ih.Add entry
      | remove entry => exact ih.Remove entry

private theorem snoc_split {calls before later : List Call} {call : Call} {entry : String}
    (split : calls ++ [call] = before ++ .add entry :: later) :
    (later = [] ∧ call = .add entry ∧ calls = before) ∨
      ∃ rest, later = rest ++ [call] ∧ calls = before ++ .add entry :: rest := by
  induction later using List.reverseRecOn with
  | nil =>
      obtain ⟨rest, last⟩ := List.append_inj' split rfl
      exact .inl ⟨rfl, (List.cons.inj last).1, rest⟩
  | append_singleton rest last _ =>
      rw [← List.cons_append, ← List.append_assoc] at split
      obtain ⟨front, same⟩ := List.append_inj' split rfl
      obtain rfl := (List.cons.inj same).1
      exact .inr ⟨rest, rfl, front⟩

private theorem live_add (calls : List Call) (entry : String) (e : Entry) :
    Live (calls ++ [.add entry]) e ↔ Live calls e ∨ parseEntry entry = some e := by
  constructor
  · rintro ⟨before, added, later, split, parsed, kept⟩
    rcases snoc_split split with ⟨-, same, -⟩ | ⟨rest, rfl, front⟩
    · obtain rfl := Call.add.inj same
      exact .inr parsed
    · refine .inl ⟨before, added, rest, front, parsed, ?_⟩
      exact fun removed member => kept removed (List.mem_append_left _ member)
  · rintro (⟨before, added, later, rfl, parsed, kept⟩ | parsed)
    · refine ⟨before, added, later ++ [.add entry], by simp, parsed, ?_⟩
      intro removed member
      rcases List.mem_append.mp member with old | new
      · exact kept removed old
      · exact absurd (List.mem_singleton.mp new) (by simp)
    · exact ⟨calls, entry, [], rfl, parsed, by simp⟩

private theorem live_remove (calls : List Call) (entry : String) (e : Entry) :
    Live (calls ++ [.remove entry]) e ↔ Live calls e ∧ parseEntry entry ≠ some e := by
  constructor
  · rintro ⟨before, added, later, split, parsed, kept⟩
    rcases snoc_split split with ⟨-, same, -⟩ | ⟨rest, rfl, front⟩
    · exact absurd same (by simp)
    · refine ⟨⟨before, added, rest, front, parsed, ?_⟩, kept entry (by simp)⟩
      exact fun removed member => kept removed (List.mem_append_left _ member)
  · rintro ⟨⟨before, added, later, rfl, parsed, kept⟩, other⟩
    refine ⟨before, added, later ++ [.remove entry], by simp, parsed, ?_⟩
    intro removed member
    rcases List.mem_append.mp member with old | new
    · exact kept removed old
    · obtain rfl := Call.remove.inj (List.mem_singleton.mp new)
      exact other

private theorem NoneDropped.init {calls : List Call} {call : Call}
    (none : NoneDropped (calls ++ [call])) :
    NoneDropped calls := by
  rintro before entry later rfl
  exact none before entry (later ++ [call]) (by simp)

private theorem lists_iff_live {calls : List Call} (none : NoneDropped calls) (e : Entry) :
    (after calls).Lists e ↔ Live calls e := by
  induction calls using List.reverseRecOn with
  | nil =>
      constructor
      · cases e <;> simp [after, NewBlocklist, Blocklist.Lists, AList.notMem_empty]
      · rintro ⟨before, entry, later, split, -⟩
        exact absurd split (by simp)
  | append_singleton calls call ih =>
      have sound := after_sound calls
      have earlier := ih none.init
      rw [after_snoc]
      cases call with
      | remove entry =>
          rw [Blocklist.apply, sound.Remove_lists, live_remove, earlier]
      | add entry =>
          rw [Blocklist.apply, sound.Add_lists, live_add, earlier]
          constructor
          · rintro (old | ⟨parsed, -⟩)
            · exact .inl old
            · exact .inr parsed
          · rintro (old | parsed)
            · exact .inl old
            · by_cases listed : (after calls).Lists e
              · exact .inl (earlier.mp listed)
              · refine .inr ⟨parsed, fun capped => ?_⟩
                exact none calls entry [] rfl ⟨e, parsed, listed, capped⟩

private theorem Blocklist.Sound.contains_iff {bl : Blocklist} (sound : bl.Sound) (x : String) :
    bl.Contains x = true ↔ ∃ ip, ParseIP x = some ip ∧ ∃ e, bl.Lists e ∧ e.Covers ip := by
  rw [Lookup.Blocklist.Contains]
  cases parsed : ParseIP x with
  | none => simp
  | some ip =>
      simp only [Bool.or_eq_true, decide_eq_true_eq, List.any_eq_true, Option.some.injEq]
      constructor
      · rintro (exact_entry | ⟨n, inside, holds⟩)
        · exact ⟨ip, rfl, .address ip, exact_entry, rfl⟩
        · obtain ⟨p, rfl⟩ := sound.canonical n inside
          exact ⟨ip, rfl, .network p, inside, (p.net_Contains ip).mp holds⟩
      · rintro ⟨_, rfl, e, listed, covers⟩
        cases e with
        | address a =>
            obtain rfl : a = ip := covers
            exact .inl listed
        | network p => exact .inr ⟨p.net, listed, (p.net_Contains ip).mpr covers⟩

/-- The networks of a blocklist are distinct and keyed, its sizes are bounded, and while
no cap drops an entry a lookup answers for the entries added and not since removed. -/
theorem blocklist_exact (calls : List Call) :
    ((after calls).nets.map IPNet.String).Nodup ∧
    (∀ key, key ∈ (after calls).netKeys ↔ key ∈ (after calls).nets.map IPNet.String) ∧
    (after calls).nets.length ≤ maxCIDRNetworks ∧
    len (after calls).ips + (after calls).nets.length ≤ maxBlocklistEntries ∧
    (NoneDropped calls → ∀ x, (after calls).Contains x = true ↔
      ∃ ip, ParseIP x = some ip ∧ ∃ e, Live calls e ∧ e.Covers ip) := by
  have sound := after_sound calls
  refine ⟨sound.distinct, sound.keyed, sound.fewNets, sound.fewEntries, ?_⟩
  intro none x
  rw [sound.contains_iff]
  simp only [lists_iff_live none]

/-! Caps are far away for short sequences. -/

private theorem after_len_le (calls : List Call) : (after calls).Len ≤ calls.length := by
  induction calls using List.reverseRecOn with
  | nil => simp [after, NewBlocklist, Blocklist.Len]
  | append_singleton calls call ih =>
      rw [after_snoc, List.length_append, List.length_singleton]
      simp only [Blocklist.Len] at ih ⊢
      cases call with
      | add entry =>
          rw [Blocklist.apply]
          rcases (after calls).Add_cases entry with
            ⟨same, -⟩ | ⟨p, -, -, -, same⟩ | ⟨ip, -, -, same⟩
          · rw [same]
            omega
          · rw [same]
            simp only [List.length_append, List.length_singleton]
            omega
          · rw [same]
            have grown := len_insert_le (after calls).ips (IP.String ip) ()
            simp only
            omega
      | remove entry =>
          rw [Blocklist.apply]
          rcases (after calls).Remove_cases entry with ⟨same, -⟩ | ⟨p, -, -, same⟩ | ⟨ip, -, same⟩
          · rw [same]
            omega
          · rw [same]
            have fewer :
                ((after calls).nets.eraseP fun n => IPNet.String n = IPNet.String p.net).length ≤
                (after calls).nets.length := List.length_eraseP_le
            simp only
            omega
          · rw [same]
            have fewer := len_erase_le (after calls).ips (IP.String ip)
            simp only
            omega

private theorem noneDropped_of_short {calls : List Call} (short : calls.length ≤ maxCIDRNetworks) :
    NoneDropped calls := by
  rintro before entry later rfl ⟨e, -, -, capped⟩
  have size := after_len_le before
  rw [List.length_append, List.length_cons] at short
  simp only [Blocklist.Len] at size
  cases e <;> simp only [Blocklist.Capped, Blocklist.Len, maxBlocklistEntries, maxCIDRNetworks]
    at capped short <;> omega

/-- A network removed under its IPv4 spelling after being added under its mapped one. -/
def aliased : List Call :=
  [.add "::ffff:10.1.2.3/104", .add "10.9.9.9/8", .add "10.1.2.3", .remove "10.0.0.0/8"]

theorem aliased_exact :
    (NoneDropped aliased ∧ (after aliased).Contains "::ffff:10.1.2.3" = true ∧
      (after aliased).Contains "10.1.2.4" = false) ∧
    ∀ x, (after aliased).Contains x = true ↔
      ∃ ip, ParseIP x = some ip ∧ ∃ e, Live aliased e ∧ e.Covers ip := by
  have none : NoneDropped aliased := noneDropped_of_short (by decide)
  exact ⟨⟨none, by decide +kernel, by decide +kernel⟩, (blocklist_exact aliased).2.2.2.2 none⟩

end L3Firewall.Threatintel.Entries
