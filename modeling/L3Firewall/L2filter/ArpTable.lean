/- L2filter/ArpTable
   source: internal/l2filter/l2filter.go
   digest: The table of ARP bindings: learning, DHCP snooping and the check for spoofing. -/

import L3Firewall.Foundation.Runs
import L3Firewall.Foundation.Whitespace
import L3Firewall.L2filter.MacLists
import L3Firewall.Net.RoundTrip
import Mathlib.Algebra.Order.Ring.Int

set_option autoImplicit false
set_option relaxedAutoImplicit false

namespace L3Firewall.L2filter.ArpTable

open Foundation.FiniteMap
open Foundation.Runs
open Foundation.Whitespace (IsSpace)
open MacLists (isHexDigit isSeparator lowerHex normalizeMAC newFilter)
open Net.Address (ParseIP normalizeIP)
open Net.RoundTrip (SameAddress normalizeIP_eq_iff normalizeIP_idem)

def defaultMaxARPEntries : Int := 65536

structure Config where
  allowedMACs : List String
  blockedMACs : List String
  maxARPEntries : Int

/-- The table has canonical addresses as keys and normalised MAC addresses as values. -/
structure Filter extends MacLists.Filter where
  arpTable : FMap String String
  maxARP : Int

def NewFilter (cfg : Config) : Filter where
  toFilter := newFilter cfg.allowedMACs cfg.blockedMACs
  arpTable := ∅
  maxARP := if cfg.maxARPEntries ≤ 0 then defaultMaxARPEntries else cfg.maxARPEntries

def normalizeIPKey (ip : String) : String := normalizeIP ip

/-- An order in which a range loop may visit the table. -/
abbrev TableOrder := RangeOrder ((_ : String) × String)

/-- The loop deletes the first entry it meets and ends. -/
def evictOne (o : TableOrder) (table : FMap String String) : FMap String String :=
  match range o table with
  | [] => table
  | e :: _ => table.erase e.1

def Filter.RecordDHCP (f : Filter) (o : TableOrder) (ip mac : String) : Bool × Filter :=
  let norm := normalizeMAC mac
  let key := normalizeIPKey ip
  if norm = "" ∨ key = "" then (false, f)
  else
    let table := if key ∉ f.arpTable ∧ f.maxARP ≤ len f.arpTable then evictOne o f.arpTable
      else f.arpTable
    (true, { f with arpTable := table.insert key norm })

/-- The reason is empty when the binding is accepted. -/
def Filter.CheckARP (f : Filter) (o : TableOrder) (ip mac : String) : (Bool × String) × Filter :=
  let norm := normalizeMAC mac
  if norm = "" ∨ ip = "" then ((true, ""), f)
  else
    let key := normalizeIPKey ip
    match f.arpTable.lookup key with
    | none =>
        let table := if f.maxARP ≤ len f.arpTable then evictOne o f.arpTable else f.arpTable
        ((true, ""), { f with arpTable := table.insert key norm })
    | some knownMAC =>
        if knownMAC ≠ norm then
          ((false, "ARP spoofing detected: IP " ++ ip ++ " changed from " ++ knownMAC ++ " to " ++
            mac), f)
        else ((true, ""), f)

/-! MAC addresses. -/

def hexDigits (mac : String) : List Char := (mac.toList.filter isHexDigit).map lowerHex

def fields (s : List Char) : List (List Char) := (s.splitOnP IsSpace).filter (· ≠ [])

private theorem lt_of_isHexDigit {c : Char} (hex : isHexDigit c = true) : c.toNat < 103 := by
  have upto {d : Char} (small : c ≤ d) : c.toNat ≤ d.toNat := small
  simp only [isHexDigit, Bool.or_eq_true, Bool.and_eq_true, decide_eq_true_eq] at hex
  rcases hex with (⟨-, digit⟩ | ⟨-, lower⟩) | ⟨-, upper⟩
  · exact Nat.lt_of_le_of_lt (upto digit) (by decide)
  · exact Nat.lt_of_le_of_lt (upto lower) (by decide)
  · exact Nat.lt_of_le_of_lt (upto upper) (by decide)

private theorem lowerHex_plain {c : Char} (hex : isHexDigit c = true) :
    isSeparator (lowerHex c) = false ∧ IsSpace (lowerHex c) = false := by
  have table : ∀ n < 103, isHexDigit (Char.ofNat n) = true →
      isSeparator (lowerHex (Char.ofNat n)) = false ∧
        IsSpace (lowerHex (Char.ofNat n)) = false := by decide
  have found := table c.toNat (lt_of_isHexDigit hex)
  rw [Char.ofNat_toNat] at found
  exact found hex

private theorem lowerHex_separator {c : Char} (separator : isSeparator c = true) :
    lowerHex c = c := by
  simp only [isSeparator, Bool.or_eq_true, beq_iff_eq] at separator
  rcases separator with ((rfl | rfl) | rfl) | rfl <;> decide

private theorem normalizeMAC_toList (mac : String) : (normalizeMAC mac).toList = hexDigits mac := by
  rw [normalizeMAC, String.toList_ofList, hexDigits]
  induction mac.toList with
  | nil => rfl
  | cons c rest ih =>
      by_cases hex : isHexDigit c = true
      · simp [hex, (lowerHex_plain hex).1, ih]
      · by_cases separator : isSeparator c = true
        · simp [hex, separator, lowerHex_separator separator, ih]
        · simp [hex, separator, ih]

theorem fields_normalizeMAC (mac : String) :
    (fields (normalizeMAC mac).toList).flatten = (normalizeMAC mac).toList := by
  have solid : ∀ c ∈ (normalizeMAC mac).toList, IsSpace c = false := by
    intro c member
    rw [normalizeMAC_toList, hexDigits] at member
    obtain ⟨d, digit, rfl⟩ := List.mem_map.mp member
    exact (lowerHex_plain (List.mem_filter.mp digit).2).2
  rw [fields, List.splitOnP_eq_singleton solid]
  cases (normalizeMAC mac).toList with
  | nil => rfl
  | cons c rest => simp

private theorem normalizeMAC_inj {a b : String} :
    normalizeMAC a = normalizeMAC b ↔ hexDigits a = hexDigits b := by
  rw [← normalizeMAC_toList, ← normalizeMAC_toList, String.toList_inj]

private theorem normalizeMAC_eq_empty {mac : String} :
    normalizeMAC mac = "" ↔ hexDigits mac = [] := by
  rw [← normalizeMAC_toList, String.toList_eq_nil_iff]

/-! Calls. -/

/-- The calls on a filter, with the order of the loop that evicts. -/
inductive Call
  | recordDHCP (o : TableOrder) (ip mac : String)
  | checkARP (o : TableOrder) (ip mac : String)

def Filter.perform (f : Filter) : Call → Filter
  | .recordDHCP o ip mac => (f.RecordDHCP o ip mac).2
  | .checkARP o ip mac => (f.CheckARP o ip mac).2

def filtering (cfg : Config) : Machine Filter Call where
  init f := f = NewFilter cfg
  next f c := some (f.perform c)

def Keeps (f : Filter) (c : Call) : Prop := ∀ k ∈ f.arpTable, k ∈ (f.perform c).arpTable

/-- A call that has an address and a MAC address to bind it to. -/
def Usable (ip mac : String) : Prop := hexDigits mac ≠ [] ∧ ip ≠ ""

instance (ip mac : String) : Decidable (Usable ip mac) :=
  inferInstanceAs (Decidable (_ ∧ _))

/-- Another spelling of an address, or the same string. -/
def Spells (ip ip' : String) : Prop := ip' = ip ∨ SameAddress ip' ip

private theorem normalizeIPKey_inj {ip ip' : String} :
    normalizeIPKey ip' = normalizeIPKey ip ↔ Spells ip ip' := normalizeIP_eq_iff ip' ip

private theorem normalizeIPKey_ne {ip ip' : String} (other : ¬ Spells ip ip') :
    normalizeIPKey ip ≠ normalizeIPKey ip' :=
  fun same => other (normalizeIPKey_inj.mp same.symm)

instance (ip ip' : String) : Decidable (Spells ip ip') :=
  decidable_of_iff _ normalizeIPKey_inj

def Call.leased (ip : String) : Call → Option String
  | .recordDHCP _ ip' mac => if Usable ip' mac ∧ Spells ip ip' then some mac else none
  | .checkARP .. => none

def Call.seen (ip : String) : Call → Option String
  | .recordDHCP .. => none
  | .checkARP _ ip' mac => if Usable ip' mac ∧ Spells ip ip' then some mac else none

/-- The last binding from DHCP, or else the first that was learned. -/
def binding (ip : String) (calls : List Call) : Option String :=
  (calls.filterMap (Call.leased ip)).getLast?.or (calls.filterMap (Call.seen ip)).head?

private theorem binding_concat (ip : String) (calls : List Call) (c : Call) :
    binding ip (calls ++ [c]) = (c.leased ip).or ((binding ip calls).or (c.seen ip)) := by
  have last : ([c].filterMap (Call.leased ip)).getLast? = c.leased ip := by
    cases found : c.leased ip <;> simp [found]
  have first : ([c].filterMap (Call.seen ip)).head? = c.seen ip := by
    cases found : c.seen ip <;> simp [found]
  rw [binding, List.filterMap_append, List.filterMap_append, List.getLast?_append,
    List.head?_append, last, first, binding, Option.or_assoc, Option.or_assoc]

section Steps

variable {f : Filter} {o : TableOrder} {key norm ip mac : String}

private theorem normalizeIPKey_eq_empty : normalizeIPKey ip = "" ↔ ip = "" := by
  have empty : normalizeIPKey "" = "" := by decide
  constructor
  · intro none_left
    rcases normalizeIPKey_inj.mp (none_left.trans empty.symm) with same | ⟨addr, -, parsed⟩
    · exact same
    · have unread : ParseIP "" = none := by decide
      exact absurd (unread.symm.trans parsed) (by simp)
  · rintro rfl
    exact empty

/-- An entry goes into the table, in the place of another one if the table is full. -/
def Filter.learn (f : Filter) (o : TableOrder) (key norm : String) : Filter :=
  let table := if key ∉ f.arpTable ∧ f.maxARP ≤ len f.arpTable then evictOne o f.arpTable
    else f.arpTable
  { f with arpTable := table.insert key norm }

private theorem lacking_iff : normalizeMAC mac = "" ∨ ip = "" ↔ ¬ Usable ip mac := by
  rw [normalizeMAC_eq_empty, Usable, not_and_or, not_not, not_not]

private theorem RecordDHCP_eq (f : Filter) (o : TableOrder) (ip mac : String) :
    f.RecordDHCP o ip mac =
      if Usable ip mac then (true, f.learn o (normalizeIPKey ip) (normalizeMAC mac))
      else (false, f) := by
  simp only [Filter.RecordDHCP, normalizeIPKey_eq_empty, lacking_iff, ite_not]
  rfl

private theorem CheckARP_unusable (useless : ¬ Usable ip mac) :
    f.CheckARP o ip mac = ((true, ""), f) :=
  if_pos (lacking_iff.mpr useless)

private theorem CheckARP_new (usable : Usable ip mac)
    (absent : f.arpTable.lookup (normalizeIPKey ip) = none) :
    f.CheckARP o ip mac = ((true, ""), f.learn o (normalizeIPKey ip) (normalizeMAC mac)) := by
  have fresh : normalizeIPKey ip ∉ f.arpTable := AList.lookup_eq_none.mp absent
  simp only [Filter.CheckARP, lacking_iff, not_true, usable, if_false, absent, Filter.learn, fresh,
    not_false_eq_true, true_and]

private theorem CheckARP_known {known : String} (usable : Usable ip mac)
    (bound : f.arpTable.lookup (normalizeIPKey ip) = some known) :
    (f.CheckARP o ip mac).2 = f ∧
      ((f.CheckARP o ip mac).1.1 = false ↔ known ≠ normalizeMAC mac) := by
  simp only [Filter.CheckARP, lacking_iff, not_true, usable, if_false, bound]
  split
  · next other => exact ⟨rfl, by simpa using other⟩
  · next same => exact ⟨rfl, by simpa using same⟩

private theorem perform_cases (f : Filter) (c : Call) :
    f.perform c = f ∨ ∃ o ip mac, Usable ip mac ∧
      f.perform c = f.learn o (normalizeIPKey ip) (normalizeMAC mac) := by
  cases c with
  | recordDHCP o ip mac =>
      rw [Filter.perform, RecordDHCP_eq]
      split
      · next usable => exact .inr ⟨o, ip, mac, usable, rfl⟩
      · exact .inl rfl
  | checkARP o ip mac =>
      by_cases usable : Usable ip mac
      · cases bound : f.arpTable.lookup (normalizeIPKey ip) with
        | none => exact .inr ⟨o, ip, mac, usable, by rw [Filter.perform, CheckARP_new usable bound]⟩
        | some known => exact .inl (CheckARP_known usable bound).1
      · exact .inl (by rw [Filter.perform, CheckARP_unusable usable])

/-! Eviction. -/

private theorem evictOne_lookup {table : FMap String String} {k m : String}
    (left : (evictOne o table).lookup k = some m) : table.lookup k = some m := by
  unfold evictOne at left
  split at left
  · exact left
  · rw [lookup_erase_eq] at left
    split at left
    · exact absurd left (by simp)
    · exact left

private theorem len_evictOne (o : TableOrder) (table : FMap String String) :
    len (evictOne o table) = len table - 1 := by
  have count := range_length o table
  unfold evictOne
  split
  · next empty =>
      rw [empty, List.length_nil] at count
      omega
  · next e rest found =>
      have inside : e ∈ range o table := found ▸ List.mem_cons_self
      exact len_erase (mem_of_lookup (mem_range_iff.mp inside))

private theorem evictOne_kept {table : FMap String String} (fresh : key ∉ table)
    (kept : ∀ k ∈ table, k ∈ (evictOne o table).insert key norm) : evictOne o table = table := by
  unfold evictOne at kept ⊢
  split
  · rfl
  · next e rest found =>
      have inside : e.1 ∈ table := by
        have member : e ∈ range o table := found ▸ List.mem_cons_self
        exact mem_of_lookup (mem_range_iff.mp member)
      have still := kept e.1 inside
      rw [found] at still
      rcases AList.mem_insert _ |>.mp still with same | erased
      · exact absurd (same ▸ inside) fresh
      · exact absurd rfl (AList.mem_erase.mp erased).1

private theorem learn_lookup (kept : ∀ k ∈ f.arpTable, k ∈ (f.learn o key norm).arpTable)
    (k : String) :
    (f.learn o key norm).arpTable.lookup k =
      if k = key then some norm else f.arpTable.lookup k := by
  unfold Filter.learn at kept ⊢
  dsimp only at kept ⊢
  split at kept
  · next full => rw [if_pos full, evictOne_kept full.1 kept, lookup_insert_eq]
  · next room => rw [if_neg room, lookup_insert_eq]

/-! What holds of the table in every state. -/

/-- The keys are canonical, and a table that is full is not overfull. -/
structure Filter.Sound (f : Filter) : Prop where
  positive : 0 < f.maxARP
  bounded : (len f.arpTable : Int) ≤ f.maxARP
  entries : ∀ k m, f.arpTable.lookup k = some m → normalizeIPKey k = k ∧ k ≠ "" ∧ m ≠ ""

private theorem NewFilter_positive (cfg : Config) : 0 < (NewFilter cfg).maxARP := by
  unfold NewFilter
  dsimp only
  split
  · decide
  · omega

private theorem NewFilter_sound (cfg : Config) : (NewFilter cfg).Sound where
  positive := NewFilter_positive cfg
  bounded := Int.le_of_lt (NewFilter_positive cfg)
  entries k m found := absurd found (by simp [NewFilter])

private theorem learn_sound (sound : f.Sound) (usable : Usable ip mac) :
    (f.learn o (normalizeIPKey ip) (normalizeMAC mac)).Sound where
  positive := sound.positive
  bounded := by
    have positive := sound.positive
    have bounded := sound.bounded
    unfold Filter.learn
    dsimp only
    by_cases old : normalizeIPKey ip ∈ f.arpTable
    · rw [if_neg fun full => full.1 old, len_insert_old old]
      exact bounded
    · split
      · -- A full table loses an entry before it gets the new one.
        have grown := len_insert_le (evictOne o f.arpTable) (normalizeIPKey ip) (normalizeMAC mac)
        rw [len_evictOne] at grown
        omega
      · next room =>
        have space : ¬ f.maxARP ≤ len f.arpTable := fun full => room ⟨old, full⟩
        rw [len_insert_new old]
        omega
  entries k m found := by
    unfold Filter.learn at found
    dsimp only at found
    rw [lookup_insert_eq] at found
    split at found
    · next same =>
      obtain rfl := Option.some.inj found
      rw [same]
      refine ⟨normalizeIP_idem ip, fun empty => usable.2 ?_, fun empty => usable.1 ?_⟩
      · exact normalizeIPKey_eq_empty.mp empty
      · exact normalizeMAC_eq_empty.mp empty
    · split at found
      · exact sound.entries k m (evictOne_lookup found)
      · exact sound.entries k m found

private theorem perform_sound (sound : f.Sound) (c : Call) : (f.perform c).Sound := by
  rcases perform_cases f c with same | ⟨o, ip, mac, usable, learned⟩
  · rw [same]
    exact sound
  · rw [learned]
    exact learn_sound sound usable

private theorem perform_maxARP (f : Filter) (c : Call) : (f.perform c).maxARP = f.maxARP := by
  rcases perform_cases f c with same | ⟨o, ip, mac, -, learned⟩
  · rw [same]
  · rw [learned]
    rfl

private theorem Filter.Sound.one_key (sound : f.Sound) {k₁ k₂ : String} (first : k₁ ∈ f.arpTable)
    (second : k₂ ∈ f.arpTable) (same : SameAddress k₁ k₂) : k₁ = k₂ := by
  obtain ⟨m₁, found₁⟩ := Option.isSome_iff_exists.mp (AList.lookup_isSome.mpr first)
  obtain ⟨m₂, found₂⟩ := Option.isSome_iff_exists.mp (AList.lookup_isSome.mpr second)
  rw [← (sound.entries k₁ m₁ found₁).1, ← (sound.entries k₂ m₂ found₂).1]
  exact normalizeIPKey_inj.mpr (.inr same)

/-! The table as the history of the calls. -/

/-- The table has for each address the binding that the calls so far gave it. -/
def Agrees (f : Filter) (past : List Call) : Prop :=
  ∀ ip, f.arpTable.lookup (normalizeIPKey ip) = (binding ip past).map normalizeMAC

private theorem agrees_perform {past : List Call} {c : Call} (agrees : Agrees f past)
    (kept : Keeps f c) : Agrees (f.perform c) (past ++ [c]) := by
  intro ip
  have before := agrees ip
  rw [binding_concat]
  cases c with
  | recordDHCP o ip' mac =>
      unfold Keeps at kept
      rw [Filter.perform, RecordDHCP_eq] at kept ⊢
      by_cases usable : Usable ip' mac
      · rw [if_pos usable] at kept ⊢
        rw [learn_lookup kept]
        by_cases spelled : Spells ip ip'
        · simp [Call.leased, usable, spelled, normalizeIPKey_inj.mpr spelled]
        · simp [Call.leased, Call.seen, spelled, normalizeIPKey_ne spelled, before]
      · rw [if_neg usable]
        simp [Call.leased, Call.seen, usable, before]
  | checkARP o ip' mac =>
      unfold Keeps at kept
      rw [Filter.perform] at kept ⊢
      by_cases usable : Usable ip' mac
      · cases bound : f.arpTable.lookup (normalizeIPKey ip') with
        | none =>
            rw [CheckARP_new usable bound] at kept ⊢
            rw [learn_lookup kept]
            by_cases spelled : Spells ip ip'
            · have same := normalizeIPKey_inj.mpr spelled
              rw [← same, bound, eq_comm, Option.map_eq_none_iff] at before
              simp [Call.leased, Call.seen, usable, spelled, same, before]
            · simp [Call.leased, Call.seen, spelled, normalizeIPKey_ne spelled, before]
        | some known =>
            -- An address that is bound is compared and not learned again.
            rw [(CheckARP_known usable bound).1, before]
            by_cases spelled : Spells ip ip'
            · rw [← normalizeIPKey_inj.mpr spelled, bound] at before
              obtain ⟨mac', given, -⟩ := Option.map_eq_some_iff.mp before.symm
              simp [Call.leased, given]
            · simp [Call.leased, Call.seen, spelled]
      · rw [CheckARP_unusable usable]
        simp [Call.leased, Call.seen, usable, before]

private theorem agrees_run {cfg : Config} {past calls : List Call} {f' : Filter}
    (agrees : Agrees f past)
    (kept : (filtering cfg).Along Keeps f calls) (ran : (filtering cfg).run f calls = some f') :
    Agrees f' (past ++ calls) := by
  induction calls generalizing f past with
  | nil =>
      obtain rfl := Option.some.inj ran
      rw [List.append_nil]
      exact agrees
  | cons c calls ih =>
      obtain ⟨now, later⟩ := kept
      have onward := ih (agrees_perform agrees now) (later _ rfl) ran
      rwa [List.append_assoc] at onward

private theorem CheckARP_false_iff :
    (f.CheckARP o ip mac).1.1 = false ↔ Usable ip mac ∧
      ∃ known, f.arpTable.lookup (normalizeIPKey ip) = some known ∧ known ≠ normalizeMAC mac := by
  by_cases usable : Usable ip mac
  · cases bound : f.arpTable.lookup (normalizeIPKey ip) with
    | none => simp [CheckARP_new usable bound]
    | some known => simp [(CheckARP_known usable bound).2, usable]
  · simp [CheckARP_unusable usable, usable]

private theorem CheckARP_false_unchanged (refused : (f.CheckARP o ip mac).1.1 = false) :
    (f.CheckARP o ip mac).2 = f := by
  obtain ⟨usable, known, bound, -⟩ := CheckARP_false_iff.mp refused
  exact (CheckARP_known usable bound).1

end Steps

/-- In every run the table keeps within its size, has no empty key or value and no two keys for
one address. Until an entry is evicted, a binding is refused exactly if the calls so far have
given the address other digits, and a refusal changes nothing. -/
theorem arp_bindings_stable {cfg : Config} {calls : List Call} {f : Filter}
    (ran : (filtering cfg).run (NewFilter cfg) calls = some f) :
    (f.maxARP = (NewFilter cfg).maxARP ∧ (len f.arpTable : Int) ≤ f.maxARP) ∧
    (∀ k m, f.arpTable.lookup k = some m → k ≠ "" ∧ m ≠ "") ∧
    (∀ k₁ ∈ f.arpTable, ∀ k₂ ∈ f.arpTable, SameAddress k₁ k₂ → k₁ = k₂) ∧
    ((filtering cfg).Along Keeps (NewFilter cfg) calls → ∀ o ip mac,
      ((f.CheckARP o ip mac).1.1 = false ↔ hexDigits mac ≠ [] ∧ ip ≠ "" ∧
        ∃ bound, binding ip calls = some bound ∧ hexDigits bound ≠ hexDigits mac)) ∧
    ∀ o ip mac, (f.CheckARP o ip mac).1.1 = false → (f.CheckARP o ip mac).2 = f := by
  have reached : (filtering cfg).Reachable Machine.any f := .of_run (.init rfl) calls ran
  have sound : f.Sound := by
    refine reached.invariant Filter.Sound ?_ ?_
    · rintro s rfl
      exact NewFilter_sound cfg
    · intro s c s' _ sound _ taken
      obtain rfl := Option.some.inj taken
      exact perform_sound sound c
  have limit : f.maxARP = (NewFilter cfg).maxARP := by
    refine reached.invariant (fun s => s.maxARP = (NewFilter cfg).maxARP) ?_ ?_
    · rintro s rfl
      rfl
    · intro s c s' _ same _ taken
      obtain rfl := Option.some.inj taken
      rw [perform_maxARP, same]
  refine ⟨⟨limit, sound.bounded⟩, fun k m found => (sound.entries k m found).2, ?_, ?_, ?_⟩
  · exact fun k₁ first k₂ second same => sound.one_key first second same
  · intro kept o ip mac
    have start : Agrees (NewFilter cfg) [] := fun _ => rfl
    have agrees : Agrees f calls := agrees_run start kept ran
    rw [CheckARP_false_iff, agrees ip, Usable, and_assoc]
    refine and_congr_right fun _ => and_congr_right fun _ => ?_
    constructor
    · rintro ⟨known, found, other⟩
      obtain ⟨bound, given, rfl⟩ := Option.map_eq_some_iff.mp found
      exact ⟨bound, given, fun same => other (normalizeMAC_inj.mpr same)⟩
    · rintro ⟨bound, given, other⟩
      refine ⟨normalizeMAC bound, by rw [given]; rfl, fun same => ?_⟩
      exact other (normalizeMAC_inj.mp same)
  · intro o ip mac refused
    exact CheckARP_false_unchanged refused

/-- A binding that was learned for an address holds for its IPv4-mapped spelling. -/
theorem mapped_spoof_refused :
    let cfg : Config := ⟨[], [], 0⟩
    let call := Call.checkARP .stored "192.168.1.10" "AA-BB-CC-DD-EE-FF"
    let f := (NewFilter cfg).perform call
    (filtering cfg).run (NewFilter cfg) [call] = some f ∧
      (f.CheckARP .stored "::ffff:192.168.1.10" "11:22:33:44:55:66").1.1 = false ∧
      (f.CheckARP .stored "::ffff:192.168.1.10" "aa:bb:cc:dd:ee:ff").1.1 = true := by
  intro cfg call f
  have ran : (filtering cfg).run (NewFilter cfg) [call] = some f := rfl
  have kept : (filtering cfg).Along Keeps (NewFilter cfg) [call] := by
    refine ⟨fun k inside => ?_, fun _ _ => trivial⟩
    exact absurd inside (AList.notMem_empty k)
  have refused := (arp_bindings_stable ran).2.2.2.1 kept .stored "::ffff:192.168.1.10"
  have known : binding "::ffff:192.168.1.10" [call] = some "AA-BB-CC-DD-EE-FF" := by decide
  refine ⟨ran, (refused _).mpr ⟨by decide, by decide, _, known, by decide⟩, ?_⟩
  rw [← Bool.not_eq_false, refused]
  rintro ⟨-, -, bound, given, other⟩
  obtain rfl := Option.some.inj (known.symm.trans given)
  exact other (by decide)

end L3Firewall.L2filter.ArpTable
