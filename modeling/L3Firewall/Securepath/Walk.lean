/- Securepath/Walk
   source: internal/securepath/securepath.go
   digest: Pathname lookup as the kernel does it, and the check of a directory path for links. -/

import L3Firewall.Filepath.Lexical

set_option autoImplicit false
set_option relaxedAutoImplicit false

namespace L3Firewall.Securepath.Walk

open Foundation.FileTree
open Filepath.Lexical

/-! Lookup of a path. -/

/-- The file tree and the working directory of the process. -/
structure World where
  tree : FileSystem Pathname
  cwd : Place Pathname
  here : tree.entry cwd = .directory

/-- The number of links that one lookup may follow. -/
def maxSymlinks : Nat := 40

def pathMax : Nat := 4096

/-- Paths that no system call takes. -/
def getname (p : Pathname) : Option Errno :=
  if '\x00' ∈ p then some .EINVAL
  else if p = [] then some .ENOENT
  else if pathMax ≤ p.length then some .ENAMETOOLONG
  else none

def World.start (w : World) (rooted : Bool) : Place Pathname := if rooted then [] else w.cwd

/-- Where a lookup ends, and the number of links followed on the way. -/
structure Found where
  place : Place Pathname
  node : Node Pathname
  followed : Nat
  deriving DecidableEq

/-- A last component that is a name is looked up and not followed. A path that ends
otherwise, as with a slash, leads to a directory through all its components. -/
def World.namei (w : World) (p : Pathname) : Except Errno Found :=
  match getname p with
  | some err => .error err
  | none =>
      match toComp (base p) with
      | some (.into name) =>
          match w.tree.resolve maxSymlinks (w.start (IsAbs p)) (comps (dirPart p)) with
          | .error err => .error err
          | .ok (place, followed) =>
              match w.tree.entry (name :: place) with
              | .absent => .error .ENOENT
              | .refused err => .error err
              | node => .ok ⟨name :: place, node, followed⟩
      | _ =>
          match w.tree.resolve maxSymlinks (w.start (IsAbs p)) (comps p) with
          | .error err => .error err
          | .ok (place, followed) => .ok ⟨place, .directory, followed⟩

def World.Lstat (w : World) (p : Pathname) : Except Errno (Node Pathname) :=
  (w.namei p).map Found.node

/-- Opening with O_NOFOLLOW fails on a link. -/
def World.openNoFollow (w : World) (p : Pathname) : Except Errno Found :=
  match w.namei p with
  | .error err => .error err
  | .ok found =>
      match found.node with
      | .symlink _ => .error .ELOOP
      | _ => .ok found

def errnoText : Errno → String
  | .ENOENT => "no such file or directory"
  | .ENOTDIR => "not a directory"
  | .ELOOP => "too many levels of symbolic links"
  | .EACCES => "permission denied"
  | .EINVAL => "invalid argument"
  | .ENAMETOOLONG => "file name too long"

def pathError (call : String) (p : Pathname) (err : Errno) : String :=
  call ++ " " ++ String.ofList p ++ ": " ++ errnoText err

/-! The check. -/

/-- The loop over the parts: the path so far and the parts to come. -/
def walkParts (w : World) : Pathname → List Pathname → Option String
  | _, [] => none
  | cur, part :: rest =>
      if part = [] then walkParts w cur rest
      else
        match w.Lstat (Join cur part) with
        | .error .ENOENT => walkParts w (Join cur part) rest
        | .error err => some ("stating " ++ String.ofList (Join cur part) ++ ": " ++
            pathError "lstat" (Join cur part) err)
        | .ok (.symlink _) => some ("path component is a symlink: " ++
            String.ofList (Join cur part))
        | .ok _ => walkParts w (Join cur part) rest

def RejectSymlinkComponents (w : World) (dir : Pathname) : Option String :=
  if ['.', '.'] ∈ parts dir then
    some ("path component '..' not allowed: " ++ String.ofList dir)
  else if IsAbs (Clean dir) then walkParts w ['/'] (parts ((Clean dir).drop 1))
  else walkParts w ['.'] (parts (Clean dir))

/-- Neither a link nor an error other than absence. -/
def Harmless : Except Errno (Node Pathname) → Prop
  | .error err => err = .ENOENT
  | .ok (.symlink _) => False
  | .ok _ => True

private theorem walkParts_cons {w : World} {cur part : Pathname} {rest : List Pathname}
    (filled : part ≠ []) :
    walkParts w cur (part :: rest) = none ↔
      Harmless (w.Lstat (Join cur part)) ∧ walkParts w (Join cur part) rest = none := by
  rw [walkParts, if_neg filled]
  cases found : w.Lstat (Join cur part) with
  | error err => cases err <;> simp [Harmless]
  | ok node => cases node <;> simp [Harmless]

private theorem walkParts_names (w : World) (rooted : Bool) (done : List Pathname)
    {names : List Pathname}
    (valid : ∀ n ∈ done ++ names, IsName n) :
    walkParts w (spell rooted done) names = none ↔
      ∀ front back, names = front ++ back → front ≠ [] →
        Harmless (w.Lstat (spell rooted (done ++ front))) := by
  induction names generalizing done with
  | nil =>
      refine ⟨fun _ front back split proper => ?_, fun _ => rfl⟩
      exact absurd (List.append_eq_nil_iff.mp split.symm).1 proper
  | cons n names ih =>
      have name := valid n (by simp)
      have here : ∀ m ∈ done ++ [n], IsName m := by
        intro m member
        apply valid m
        simp only [List.mem_append, List.mem_cons] at member ⊢
        tauto
      have later : ∀ m ∈ (done ++ [n]) ++ names, IsName m := by simpa using valid
      rw [walkParts_cons name.ne_nil, Join_spell here, ih _ later]
      constructor
      · rintro ⟨first, rest⟩ front back split proper
        cases front with
        | nil => exact absurd rfl proper
        | cons m front =>
            obtain ⟨rfl, tail⟩ := List.cons.inj split
            by_cases last : front = []
            · rw [last]
              exact first
            · simpa using rest front back tail last
      · intro all
        refine ⟨all [n] names rfl (by simp), fun front back split proper => ?_⟩
        simpa using all (n :: front) back (by rw [split]; rfl) (by simp)

private theorem Lstat_dot (w : World) : w.Lstat ['.'] = .ok .directory := by
  have dot : comps ['.'] = [] := by decide
  have read : toComp (base ['.']) = none := by decide
  have taken : getname ['.'] = none := by decide
  have arrived : w.tree.resolve maxSymlinks (w.start (IsAbs ['.'])) [] = .ok (w.cwd, 0) := rfl
  simp only [World.Lstat, World.namei, taken, read, dot, arrived]
  rfl

theorem up_not_mem_comps {dir : Pathname} (plain : ['.', '.'] ∉ parts dir) : .up ∉ comps dir := by
  intro member
  obtain ⟨part, inside, read⟩ := List.mem_filterMap.mp member
  have dots : part = ['.', '.'] := by
    unfold toComp at read
    split at read
    · exact absurd read (by simp)
    · exact absurd read (by simp)
    · rfl
    · exact absurd read (by simp)
  exact plain (dots ▸ inside)

theorem cleaned_down {dir : Pathname} (down : .up ∉ comps dir) : .up ∉ cleaned dir := by
  intro member
  rcases foldl_push_mem member with none_kept | inside
  · exact absurd none_kept (by simp)
  · exact down inside

theorem reject_eq_none_iff {w : World} {dir : Pathname} (plain : ['.', '.'] ∉ parts dir) :
    RejectSymlinkComponents w dir = none ↔
      ∀ front back, cleanNames dir = front ++ back → front ≠ [] →
        Harmless (w.Lstat (spell (IsAbs dir) front)) := by
  have valid := cleanNames_valid dir
  have clean := Clean_eq (cleaned_down (up_not_mem_comps plain))
  rw [RejectSymlinkComponents, if_neg plain, clean, isAbs_spell _ valid, spell_eq]
  by_cases empty : cleanNames dir = []
  · rw [empty]
    have vacuous : ∀ front back : List Pathname, [] = front ++ back → front ≠ [] →
        Harmless (w.Lstat (spell (IsAbs dir) front)) := by
      intro front back split proper
      exact absurd (List.append_eq_nil_iff.mp split.symm).1 proper
    refine ⟨fun _ => vacuous, fun _ => ?_⟩
    cases IsAbs dir with
    | true => rfl
    | false =>
        have dot : Join ['.'] ['.'] = ['.'] := by decide
        have single : parts ['.'] = [['.']] := by decide
        simp only [if_true, Bool.false_eq_true, if_false, single]
        rw [walkParts_cons (by simp), dot, Lstat_dot]
        exact ⟨trivial, rfl⟩
  · have body := parts_body valid empty
    cases IsAbs dir with
    | true =>
        change walkParts w ['/'] (parts (['/'].intercalate (cleanNames dir))) = none ↔ _
        rw [body]
        exact walkParts_names w true [] valid
    | false =>
        change walkParts w ['.'] (parts (if cleanNames dir = [] then ['.'] else _)) = none ↔ _
        rw [if_neg empty, body]
        exact walkParts_names w false [] valid

theorem Lstat_spell {w : World} {rooted : Bool} {front : List Pathname} (proper : front ≠ [])
    (valid : ∀ n ∈ front, IsName n) (taken : getname (spell rooted front) = none)
    (present : w.tree.entry (front.reverse ++ w.start rooted) ≠ .absent)
    (granted : ∀ err, w.tree.entry (front.reverse ++ w.start rooted) ≠ .refused err) :
    w.Lstat (spell rooted front) = .ok (w.tree.entry (front.reverse ++ w.start rooted)) := by
  obtain ⟨names, n, rfl⟩ := (List.eq_nil_or_concat' front).resolve_left proper
  have place : (names ++ [n]).reverse ++ w.start rooted =
      n :: (names.reverse ++ w.start rooted) := by simp
  rw [place] at present granted ⊢
  have arrived : w.tree.resolve maxSymlinks (w.start rooted) (names.map .into) =
      .ok (names.reverse ++ w.start rooted, 0) := by
    apply FileSystem.resolve_arrived
    apply FileSystem.scan_names
    intro lead back split _
    apply w.tree.ancestor (n :: back.reverse) (by simp)
    have whole : n :: back.reverse ++ (lead.reverse ++ w.start rooted) =
        n :: (names.reverse ++ w.start rooted) := by
      rw [split]
      simp
    rw [whole]
    exact present
  simp only [World.Lstat, World.namei, taken, base_spell valid, (valid n (by simp)).named,
    isAbs_spell rooted valid, comps_dirPart_spell valid, arrived]
  cases found : w.tree.entry (n :: (names.reverse ++ w.start rooted)) with
  | absent => exact absurd found present
  | refused err => exact absurd found (granted err)
  | directory => rfl
  | file => rfl
  | symlink target => rfl

theorem namei_cases {w : World} {path : Pathname} {found : Found}
    (looked : w.namei path = .ok found) :
    getname path = none ∧
      ((∃ name place, toComp (base path) = some (.into name) ∧
        w.tree.resolve maxSymlinks (w.start (IsAbs path)) (comps (dirPart path)) =
          .ok (place, found.followed) ∧
        found.place = name :: place ∧ found.node = w.tree.entry found.place) ∨
      ((∀ name, toComp (base path) ≠ some (.into name)) ∧
        w.tree.resolve maxSymlinks (w.start (IsAbs path)) (comps path) =
          .ok (found.place, found.followed) ∧ found.node = .directory)) := by
  unfold World.namei at looked
  cases taken : getname path with
  | some err =>
      rw [taken] at looked
      exact absurd looked (by simp)
  | none =>
      rw [taken] at looked
      refine ⟨rfl, ?_⟩
      simp only at looked
      split at looked
      · next name last =>
        split at looked
        · exact absurd looked (by simp)
        · next place followed resolved =>
          split at looked
          · exact absurd looked (by simp)
          · exact absurd looked (by simp)
          · obtain rfl := Except.ok.inj looked
            exact .inl ⟨name, place, last, resolved, rfl, rfl⟩
      · next other =>
        split at looked
        · exact absurd looked (by simp)
        · next place followed resolved =>
          obtain rfl := Except.ok.inj looked
          exact .inr ⟨fun name same => other name same, resolved, rfl⟩

theorem visits_last {path : Pathname} (unnamed : ∀ name, toComp (base path) ≠ some (.into name))
    (place : Place Pathname) : visits place (comps path) = visits place (comps (dirPart path)) := by
  rw [comps_split, visits_append]
  cases last : toComp (base path) with
  | none => simp [visits]
  | some c =>
      cases c with
      | up => simp [visits]
      | into name => exact absurd last (unnamed name)

theorem getname_of_sublist {p r : Pathname} (fewer : r.Sublist p) (filled : r ≠ [])
    (taken : getname p = none) : getname r = none := by
  unfold getname at taken ⊢
  split_ifs at taken with nul empty long
  rw [if_neg fun inside => nul (fewer.subset inside), if_neg filled, if_neg]
  have shorter := fewer.length_le
  omega

private theorem getname_ne_ENOENT {p : Pathname} (filled : p ≠ []) : getname p ≠ some .ENOENT := by
  unfold getname
  split_ifs <;> simp

theorem plain_of_pass {w : World} {dir : Pathname} (passed : RejectSymlinkComponents w dir = none) :
    ['.', '.'] ∉ parts dir := by
  intro dots
  rw [RejectSymlinkComponents, if_pos dots] at passed
  exact absurd passed (by simp)

theorem no_link_of_pass {w : World} {dir : Pathname} (passed : RejectSymlinkComponents w dir = none)
    {front back : List Pathname} (split : cleanNames dir = front ++ back) (proper : front ≠ [])
    (target : Route Pathname) :
    w.tree.entry (front.reverse ++ w.start (IsAbs dir)) ≠ .symlink target := by
  intro linked
  have valid : ∀ n ∈ front, IsName n := fun n member =>
    cleanNames_valid dir n (split ▸ List.mem_append_left back member)
  have harmless := (reject_eq_none_iff (plain_of_pass passed)).mp passed front back split proper
  cases taken : getname (spell (IsAbs dir) front) with
  | none =>
      rw [Lstat_spell proper valid taken (by simp [linked]) (by simp [linked]), linked] at harmless
      exact harmless
  | some err =>
      have refused : w.Lstat (spell (IsAbs dir) front) = .error err := by
        simp only [World.Lstat, World.namei, taken]
        rfl
      rw [refused] at harmless
      obtain rfl : err = .ENOENT := harmless
      exact getname_ne_ENOENT (spell_ne_nil (IsAbs dir) valid) taken

end L3Firewall.Securepath.Walk
