/- Foundation/Inodes
   digest: Names for numbered files, of which several may lead to one file. -/

import L3Firewall.Foundation.FiniteMap
import Mathlib.Logic.Function.Basic

set_option autoImplicit false
set_option relaxedAutoImplicit false

namespace L3Firewall.Foundation.Inodes

universe u v

open FiniteMap

/-- The files that have a name have a number below that of the next file. -/
structure Disk (ν : Type u) (α : Type v) [DecidableEq ν] where
  entries : FMap ν Nat
  file : Nat → α
  next : Nat
  below : ∀ name ino, entries.lookup name = some ino → ino < next

variable {ν : Type u} {α : Type v} [DecidableEq ν]

namespace Disk

def empty (fill : α) : Disk ν α := ⟨∅, fun _ => fill, 0, by simp⟩

def content (d : Disk ν α) (name : ν) : Option α := (d.entries.lookup name).map d.file

def modify (d : Disk ν α) (ino : Nat) (f : α → α) : Disk ν α :=
  { d with file := Function.update d.file ino (f (d.file ino)) }

/-- Opening a file, which is made if there is none. -/
def openCreate (d : Disk ν α) (name : ν) (fresh : α) : Nat × Disk ν α :=
  match d.entries.lookup name with
  | some ino => (ino, d)
  | none =>
      (d.next,
        { entries := d.entries.insert name d.next
          file := Function.update d.file d.next fresh
          next := d.next + 1
          below := by
            intro other ino found
            rw [lookup_insert_eq] at found
            split at found
            · obtain rfl := Option.some.inj found
              exact Nat.lt_succ_self _
            · exact Nat.lt_succ_of_lt (d.below other ino found) })

def remove (d : Disk ν α) (name : ν) : Disk ν α :=
  { d with
    entries := d.entries.erase name
    below := by
      intro other ino found
      rw [lookup_erase_eq] at found
      split at found
      · exact absurd found (by simp)
      · exact d.below other ino found }

/-- An entry that has the new name is replaced. Two names of one file stay as they are. -/
def rename (d : Disk ν α) (old new : ν) : Disk ν α :=
  match found : d.entries.lookup old with
  | none => d
  | some ino =>
      if d.entries.lookup new = some ino then d
      else
        { d with
          entries := (d.entries.erase old).insert new ino
          below := by
            intro other ino' found'
            rw [lookup_insert_eq] at found'
            split at found'
            · obtain rfl := Option.some.inj found'
              exact d.below old ino found
            · rw [lookup_erase_eq] at found'
              split at found'
              · exact absurd found' (by simp)
              · exact d.below other ino' found' }

theorem content_remove_self (d : Disk ν α) (name : ν) : (d.remove name).content name = none := by
  simp [content, remove]

theorem content_remove_ne (d : Disk ν α) {name other : ν} (distinct : other ≠ name) :
    (d.remove name).content other = d.content other := by
  simp only [content, remove, lookup_erase_eq, if_neg distinct]

theorem modify_modify (d : Disk ν α) (ino : Nat) (f g : α → α) :
    (d.modify ino f).modify ino g = d.modify ino fun a => g (f a) := by
  simp only [modify, Function.update_self, Function.update_idem]

section Rename

variable {d : Disk ν α} {old new : ν} {ino : Nat}

theorem content_rename (found : d.entries.lookup old = some ino) :
    (d.rename old new).content new = d.content old := by
  unfold rename content
  split
  · next none_found => exact absurd (none_found.symm.trans found) (by simp)
  · next ino' found' =>
      obtain rfl : ino = ino' := Option.some.inj (found.symm.trans found')
      split
      · next same => rw [same, found]
      · have replaced := lookup_insert_eq (d.entries.erase old) new new ino
        rw [if_pos rfl] at replaced
        simp only [replaced, found]

theorem content_rename_apart (found : d.entries.lookup old = some ino)
    (apart : d.entries.lookup new ≠ some ino) (name : ν) :
    (d.rename old new).content name =
      if name = new then d.content old else if name = old then none else d.content name := by
  unfold rename content
  split
  · next none_found => exact absurd (none_found.symm.trans found) (by simp)
  · next ino' found' =>
      obtain rfl : ino = ino' := Option.some.inj (found.symm.trans found')
      simp only [if_neg apart, lookup_insert_eq, lookup_erase_eq]
      split
      · rw [found]
      · split <;> rfl

end Rename

section Open

variable (d : Disk ν α) (name : ν) (fresh : α)

private theorem lookup_openCreate (other : ν) :
    (d.openCreate name fresh).2.entries.lookup other =
      if other = name then some (d.openCreate name fresh).1 else d.entries.lookup other := by
  cases found : d.entries.lookup name with
  | some ino =>
      simp only [openCreate, found]
      split
      · next same => rw [same, found]
      · rfl
  | none => simp only [openCreate, found, lookup_insert_eq]

private theorem file_openCreate (ino : Nat) :
    (d.openCreate name fresh).2.file ino =
      if ino = (d.openCreate name fresh).1 then (d.content name).getD fresh else d.file ino := by
  cases found : d.entries.lookup name with
  | some known =>
      simp only [openCreate, found, content]
      split
      · next same => rw [same, Option.map_some, Option.getD_some]
      · rfl
  | none =>
      simp only [openCreate, found, content, Function.update_apply]
      rfl

variable {d name}

theorem openCreate_shared {other : ν} {ino : Nat} (reached : d.entries.lookup other = some ino) :
    ino = (d.openCreate name fresh).1 ↔ d.entries.lookup name = some ino := by
  cases found : d.entries.lookup name with
  | some known => simp [openCreate, found, eq_comm]
  | none =>
      have older : ino ≠ d.next := Nat.ne_of_lt (d.below other ino reached)
      simpa [openCreate, found] using older

variable (d name)

/-- A file that is opened by name and then changed. -/
def through (f : α → α) : Disk ν α :=
  (d.openCreate name fresh).2.modify (d.openCreate name fresh).1 f

variable {d name fresh} {f : α → α}

theorem lookup_through (other : ν) :
    (d.through name fresh f).entries.lookup other =
      if other = name then some (d.openCreate name fresh).1 else d.entries.lookup other :=
  lookup_openCreate d name fresh other

theorem content_through_self :
    (d.through name fresh f).content name = some (f ((d.content name).getD fresh)) := by
  rw [content, lookup_through, if_pos rfl, Option.map_some]
  simp only [through, modify, Function.update_self, file_openCreate, if_true]

theorem content_through_ne {other : ν} (distinct : other ≠ name) :
    (d.through name fresh f).content other = (d.entries.lookup other).map fun ino =>
      if d.entries.lookup name = some ino then f (d.file ino) else d.file ino := by
  rw [content, lookup_through, if_neg distinct]
  cases reached : d.entries.lookup other with
  | none => rfl
  | some ino =>
      have shared := @openCreate_shared ν α _ d name fresh other ino reached
      simp only [Option.map_some, through, modify, Function.update_apply, file_openCreate, if_true,
        shared]
      split
      · next same => rw [content, same, Option.map_some, Option.getD_some]
      · rfl

end Open

end Disk

end L3Firewall.Foundation.Inodes
