/- Foundation/FiniteMap
   digest: Finite maps with unspecified iteration order and key counting. -/

import Mathlib.Data.List.AList
import Mathlib.Data.List.Count

set_option autoImplicit false
set_option relaxedAutoImplicit false

namespace L3Firewall.Foundation.FiniteMap

universe u v

/-- A finite map, held as an association list without duplicate keys. -/
abbrev FMap (κ : Type u) (ν : Type v) := AList (fun _ : κ => ν)

/-- One choice of iteration order. A range loop may visit the entries of a map in
any order, and in a different one each time it runs. -/
structure RangeOrder (α : Type u) where
  order : List α → List α
  perm : ∀ l, (order l).Perm l

def RangeOrder.stored {α : Type u} : RangeOrder α := ⟨id, fun l => List.Perm.refl l⟩

variable {κ : Type u} {ν : Type v}

def len (m : FMap κ ν) : Nat := m.keys.length

def countKeys (p : κ → Bool) (m : FMap κ ν) : Nat := m.keys.countP p

/-- The entries in the order a range loop visits them. -/
def range (o : RangeOrder ((_ : κ) × ν)) (m : FMap κ ν) : List ((_ : κ) × ν) :=
  o.order m.entries

@[simp] theorem len_empty : len (∅ : FMap κ ν) = 0 := rfl

theorem range_keys_nodup (o : RangeOrder ((_ : κ) × ν)) (m : FMap κ ν) :
    ((range o m).map Sigma.fst).Nodup :=
  ((o.perm m.entries).map Sigma.fst).nodup_iff.mpr m.keys_nodup

theorem range_length (o : RangeOrder ((_ : κ) × ν)) (m : FMap κ ν) :
    (range o m).length = len m := by
  rw [range, (o.perm m.entries).length_eq, len, AList.keys, List.keys, List.length_map]

theorem countKeys_pos {p : κ → Bool} {m : FMap κ ν} {k : κ} (present : k ∈ m) (hit : p k = true) :
    0 < countKeys p m :=
  List.countP_pos_iff.mpr ⟨k, AList.mem_keys.mp present, hit⟩

theorem len_eq_countKeys (m : FMap κ ν) : len m = countKeys (fun _ => true) m := by
  rw [len, countKeys, List.countP_true]

variable [DecidableEq κ]

theorem mem_range_iff {o : RangeOrder ((_ : κ) × ν)} {m : FMap κ ν} {k : κ} {v : ν} :
    ⟨k, v⟩ ∈ range o m ↔ m.lookup k = some v := by
  rw [range, (o.perm m.entries).mem_iff]
  exact AList.mem_lookup_iff.symm

theorem mem_of_lookup {m : FMap κ ν} {k : κ} {v : ν} (found : m.lookup k = some v) : k ∈ m :=
  AList.lookup_isSome.mp (by rw [found]; rfl)

theorem countKeys_erase (p : κ → Bool) {m : FMap κ ν} {k : κ} (present : k ∈ m) :
    countKeys p (m.erase k) = countKeys p m - if p k then 1 else 0 := by
  rw [countKeys, AList.keys_erase, List.countP_erase, countKeys]
  simp only [AList.mem_keys.mp present, true_and]

theorem countKeys_insert_new (p : κ → Bool) {m : FMap κ ν} {k : κ} (fresh : k ∉ m) (v : ν) :
    countKeys p (m.insert k v) = countKeys p m + if p k then 1 else 0 := by
  have absent : k ∉ m.keys := fun member => fresh (AList.mem_keys.mpr member)
  rw [countKeys, AList.keys_insert, List.countP_cons, List.erase_of_not_mem absent, countKeys]

theorem countKeys_insert_old (p : κ → Bool) {m : FMap κ ν} {k : κ} (present : k ∈ m) (v : ν) :
    countKeys p (m.insert k v) = countKeys p m := by
  rw [countKeys, AList.keys_insert]
  exact (List.perm_cons_erase (AList.mem_keys.mp present)).symm.countP_eq p

theorem len_erase {m : FMap κ ν} {k : κ} (present : k ∈ m) : len (m.erase k) = len m - 1 := by
  rw [len_eq_countKeys, countKeys_erase _ present, len_eq_countKeys, if_pos rfl]

theorem len_insert_new {m : FMap κ ν} {k : κ} (fresh : k ∉ m) (v : ν) :
    len (m.insert k v) = len m + 1 := by
  rw [len_eq_countKeys, countKeys_insert_new _ fresh, len_eq_countKeys, if_pos rfl]

theorem len_insert_old {m : FMap κ ν} {k : κ} (present : k ∈ m) (v : ν) :
    len (m.insert k v) = len m := by
  rw [len_eq_countKeys, countKeys_insert_old _ present, len_eq_countKeys]

theorem len_insert_le (m : FMap κ ν) (k : κ) (v : ν) : len (m.insert k v) ≤ len m + 1 := by
  by_cases present : k ∈ m
  · rw [len_insert_old present]
    omega
  · rw [len_insert_new present]

theorem len_erase_le (m : FMap κ ν) (k : κ) : len (m.erase k) ≤ len m := by
  rw [len, AList.keys_erase]
  exact List.length_erase_le

theorem lookup_insert_eq (m : FMap κ ν) (k j : κ) (v : ν) :
    (m.insert k v).lookup j = if j = k then some v else m.lookup j := by
  split
  · next same => rw [same, AList.lookup_insert]
  · next other => rw [AList.lookup_insert_ne other]

theorem lookup_erase_eq (m : FMap κ ν) (k j : κ) :
    (m.erase k).lookup j = if j = k then none else m.lookup j := by
  split
  · next same => rw [same, AList.lookup_erase]
  · next other => rw [AList.lookup_erase_ne other]

omit [DecidableEq κ] in
theorem len_le_of_covered {κ' : Type u} {ν' : Type v} [DecidableEq κ'] {m : FMap κ ν}
    {m' : FMap κ' ν'} (f : κ → κ') (covered : ∀ k' ∈ m', ∃ k ∈ m, f k = k') :
    len m' ≤ len m := by
  have inside : m'.keys ⊆ m.keys.map f := by
    intro k' member
    obtain ⟨k, present, image⟩ := covered k' (AList.mem_keys.mpr member)
    exact List.mem_map.mpr ⟨k, AList.mem_keys.mp present, image⟩
  have few := (List.subperm_of_subset m'.keys_nodup inside).length_le
  rw [List.length_map] at few
  exact few

def insertAll (m : FMap κ ν) (l : List (κ × ν)) : FMap κ ν :=
  l.foldl (fun m e => m.insert e.1 e.2) m

private theorem lookup_insertAll_of_notMem {m : FMap κ ν} {l : List (κ × ν)} {k : κ}
    (absent : k ∉ l.map Prod.fst) : (insertAll m l).lookup k = m.lookup k := by
  induction l generalizing m with
  | nil => rfl
  | cons e l ih =>
      have other : k ≠ e.1 := fun same => absent (same ▸ List.mem_cons_self)
      have rest : k ∉ l.map Prod.fst := fun member => absent (List.mem_cons_of_mem _ member)
      show (insertAll (m.insert e.1 e.2) l).lookup k = _
      rw [ih rest, AList.lookup_insert_ne other]

private theorem lookup_insertAll_of_mem {m : FMap κ ν} {l : List (κ × ν)} {k : κ} {v : ν}
    (nodup : (l.map Prod.fst).Nodup) (member : (k, v) ∈ l) :
    (insertAll m l).lookup k = some v := by
  induction l generalizing m with
  | nil => exact absurd member List.not_mem_nil
  | cons e l ih =>
      obtain ⟨fresh, nodup⟩ := List.nodup_cons.mp nodup
      show (insertAll (m.insert e.1 e.2) l).lookup k = _
      rcases List.mem_cons.mp member with rfl | later
      · rw [lookup_insertAll_of_notMem fresh, AList.lookup_insert]
      · exact ih nodup later

private theorem lookup_insertAll_iff {l : List (κ × ν)} {k : κ} {v : ν}
    (nodup : (l.map Prod.fst).Nodup) :
    (insertAll ∅ l).lookup k = some v ↔ (k, v) ∈ l := by
  constructor
  · intro found
    by_cases present : k ∈ l.map Prod.fst
    · obtain ⟨⟨j, w⟩, member, same⟩ := List.mem_map.mp present
      obtain rfl : j = k := same
      rw [lookup_insertAll_of_mem nodup member] at found
      rw [← Option.some.inj found]
      exact member
    · rw [lookup_insertAll_of_notMem present, AList.lookup_empty] at found
      exact absurd found (by simp)
  · exact lookup_insertAll_of_mem nodup

theorem lookup_insertAll_range {μ : Type v} (o : RangeOrder ((_ : κ) × ν)) (m : FMap κ ν)
    (f : ν → μ) (k : κ) :
    (insertAll ∅ ((range o m).map fun e => (e.1, f e.2))).lookup k = (m.lookup k).map f := by
  have keys : (((range o m).map fun e => (e.1, f e.2)).map Prod.fst).Nodup := by
    rw [List.map_map]
    exact range_keys_nodup o m
  apply Option.ext
  intro v
  rw [lookup_insertAll_iff keys, List.mem_map, Option.map_eq_some_iff]
  constructor
  · rintro ⟨e, member, same⟩
    obtain ⟨rfl, rfl⟩ := Prod.mk.inj same
    exact ⟨e.2, mem_range_iff.mp member, rfl⟩
  · rintro ⟨w, found, rfl⟩
    exact ⟨⟨k, w⟩, mem_range_iff.mpr found, rfl⟩

theorem mem_insertAll {l : List (κ × ν)} {k : κ} (present : k ∈ insertAll ∅ l) :
    k ∈ l.map Prod.fst := by
  by_contra absent
  have none := @lookup_insertAll_of_notMem κ ν _ ∅ l k absent
  rw [AList.lookup_empty] at none
  exact AList.lookup_eq_none.mp none present

private theorem len_insertAll_le (m : FMap κ ν) (l : List (κ × ν)) :
    len (insertAll m l) ≤ len m + l.length := by
  induction l generalizing m with
  | nil => exact Nat.le_refl _
  | cons e l ih =>
      have grown := len_insert_le m e.1 e.2
      have rest := ih (m.insert e.1 e.2)
      show len (insertAll (m.insert e.1 e.2) l) ≤ _
      rw [List.length_cons]
      omega

theorem len_insertAll_range_le {κ' : Type u} {ν' : Type v} [DecidableEq κ']
    (o : RangeOrder ((_ : κ') × ν')) (m : FMap κ' ν') (f : (_ : κ') × ν' → κ × ν) :
    len (insertAll ∅ ((range o m).map f)) ≤ len m := by
  have bound := len_insertAll_le ∅ ((range o m).map f)
  rw [List.length_map, range_length, len_empty, Nat.zero_add] at bound
  exact bound

end L3Firewall.Foundation.FiniteMap
