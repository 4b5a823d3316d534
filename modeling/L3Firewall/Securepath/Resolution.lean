/- Securepath/Resolution
   source: internal/securepath/securepath.go
   digest: What the check of a directory path says about the kernel's lookup of the raw path. -/

import L3Firewall.Securepath.Walk

set_option autoImplicit false
set_option relaxedAutoImplicit false

namespace L3Firewall.Securepath.Resolution

open Foundation.FileTree
open Filepath.Lexical
open Walk

/-- The names that lead to a directory on the way to the cleaned path, or to that path. -/
def Leads (dir : Pathname) (front : List Pathname) : Prop :=
  front <+: cleanNames dir ∧ front ≠ []

/-- Where the names of a path lead, from where its lookup starts. -/
def below (w : World) (dir : Pathname) (names : List Pathname) : Place Pathname :=
  names.reverse ++ w.start (IsAbs dir)

section Plain

variable {dir : Pathname}

private theorem comps_plain (plain : ['.', '.'] ∉ parts dir) :
    comps dir = (cleanNames dir).map .into := by
  obtain ⟨names, read⟩ := names_of_down (up_not_mem_comps plain)
  rw [cleanNames, read, land_names, List.append_nil, List.reverse_reverse]

private theorem comps_dirPart_plain (plain : ['.', '.'] ∉ parts dir) {n : Pathname}
    (last : toComp (base dir) = some (.into n)) :
    ∃ names, cleanNames dir = names ++ [n] ∧ comps (dirPart dir) = names.map .into := by
  have whole := comps_split dir
  rw [comps_plain plain, last, Option.toList_some] at whole
  obtain ⟨names, rest, split, before, tail⟩ := List.map_eq_append_iff.mp whole
  obtain ⟨m, rfl, same⟩ := List.map_eq_singleton_iff.mp tail
  obtain rfl := Comp.into.inj same
  exact ⟨names, split, before.symm⟩

private theorem Clean_plain (plain : ['.', '.'] ∉ parts dir) :
    Clean dir = spell (IsAbs dir) (cleanNames dir) :=
  Clean_eq (cleaned_down (up_not_mem_comps plain))

private theorem getname_Clean (plain : ['.', '.'] ∉ parts dir) (taken : getname dir = none) :
    getname (Clean dir) = none := by
  rw [Clean_plain plain]
  by_cases empty : cleanNames dir = []
  · rw [empty]
    cases IsAbs dir <;> decide
  · have filled := spell_ne_nil (IsAbs dir) (cleanNames_valid dir)
    exact getname_of_sublist (spell_sublist empty (List.Sublist.refl _)) filled taken

end Plain

section Lookup

variable {w : World} {dir : Pathname}

private theorem namei_congr {p r name : Pathname} (taken : getname p = none)
    (taken' : getname r = none)
    (last : toComp (base p) = some (.into name)) (last' : toComp (base r) = some (.into name))
    (rooted : IsAbs p = IsAbs r) (before : comps (dirPart p) = comps (dirPart r)) :
    w.namei p = w.namei r := by
  simp only [World.namei, taken, taken', last, last', rooted, before]

def Linkless (w : World) (dir : Pathname) : Prop :=
  ∀ front, Leads dir front → ∀ target, w.tree.entry (below w dir front) ≠ .symlink target

private theorem linkless_visits (linkless : Linkless w dir) {names : List Pathname}
    (lead : names <+: cleanNames dir) :
    ∀ q ∈ visits (w.start (IsAbs dir)) (names.map .into), ∀ target,
      w.tree.entry q ≠ .symlink target := by
  intro q passed target
  obtain ⟨front, within, proper, rfl⟩ := mem_visits_names.mp passed
  exact linkless front ⟨within.trans lead, proper⟩ target

private theorem resolve_names (linkless : Linkless w dir) {names : List Pathname}
    (lead : names <+: cleanNames dir) {found : Place Pathname × Nat}
    (resolved : w.tree.resolve maxSymlinks (w.start (IsAbs dir)) (names.map .into) = .ok found) :
    found = (below w dir names, 0) := by
  rw [FileSystem.resolve_linkless (linkless_visits linkless lead) resolved, land_names]
  rfl

private theorem Lstat_ne_symlink (linkless : Linkless w dir) {front : List Pathname}
    (leads : Leads dir front) (target : Route Pathname) :
    w.Lstat (spell (IsAbs dir) front) ≠ .ok (.symlink target) := by
  obtain ⟨lead, proper⟩ := leads
  have valid : ∀ n ∈ front, IsName n := fun n member =>
    cleanNames_valid dir n (lead.subset member)
  intro shown
  cases looked : w.namei (spell (IsAbs dir) front) with
  | error err =>
      rw [World.Lstat, looked] at shown
      exact absurd shown (by simp [Except.map])
  | ok found =>
      rw [World.Lstat, looked] at shown
      have node : found.node = .symlink target := Except.ok.inj shown
      obtain ⟨-, ⟨name, place, last, resolved, here, entry⟩ | ⟨-, -, directory⟩⟩ :=
        namei_cases looked
      · obtain ⟨names, n, rfl⟩ := (List.eq_nil_or_concat' front).resolve_left proper
        rw [isAbs_spell _ valid, comps_dirPart_spell valid] at resolved
        rw [base_spell valid, (valid n (by simp)).named] at last
        obtain rfl : n = name := Comp.into.inj (Option.some.inj last)
        have before : names <+: cleanNames dir := (List.prefix_append names [n]).trans lead
        obtain ⟨rfl, -⟩ := Prod.mk.inj (resolve_names linkless before resolved)
        apply linkless (names ++ [n]) ⟨lead, proper⟩ target
        rw [← node, entry, here]
        simp [below]
      · exact absurd (directory.symm.trans node) (by simp)

private theorem reject_none_iff (w : World) (dir : Pathname) :
    RejectSymlinkComponents w dir = none ↔
      ['.', '.'] ∉ parts dir ∧ Linkless w dir ∧
        ∀ front, Leads dir front → ∀ err, w.Lstat (spell (IsAbs dir) front) = .error err →
          err = .ENOENT := by
  constructor
  · intro passed
    have plain := plain_of_pass passed
    have harmless := (reject_eq_none_iff plain).mp passed
    refine ⟨plain, fun front ⟨⟨back, split⟩, proper⟩ target => ?_, ?_⟩
    · exact no_link_of_pass passed split.symm proper target
    · rintro front ⟨⟨back, split⟩, proper⟩ err failed
      have this := harmless front back split.symm proper
      rwa [failed] at this
  · rintro ⟨plain, linkless, absent⟩
    rw [reject_eq_none_iff plain]
    intro front back split proper
    have leads : Leads dir front := ⟨⟨back, split.symm⟩, proper⟩
    cases shown : w.Lstat (spell (IsAbs dir) front) with
    | error err => exact absent front leads err shown
    | ok node =>
        cases node with
        | symlink target => exact absurd shown (Lstat_ne_symlink linkless leads target)
        | absent => trivial
        | refused err => trivial
        | directory => trivial
        | file => trivial

private theorem namei_unnamed {p : Pathname} (taken : getname p = none)
    (unnamed : toComp (base p) = none) :
    w.namei p = (w.tree.resolve maxSymlinks (w.start (IsAbs p)) (comps p)).map
      fun found => ⟨found.1, .directory, found.2⟩ := by
  simp only [World.namei, taken, unnamed]
  cases w.tree.resolve maxSymlinks (w.start (IsAbs p)) (comps p) <;> rfl

private theorem namei_start {p : Pathname} (taken : getname p = none)
    (unnamed : toComp (base p) = none)
    (none_left : comps p = []) : w.namei p = .ok ⟨w.start (IsAbs p), .directory, 0⟩ := by
  rw [namei_unnamed taken unnamed, none_left, FileSystem.resolve_arrived rfl maxSymlinks]
  rfl

private theorem namei_named {p n : Pathname} {place : Place Pathname} {followed : Nat}
    (taken : getname p = none) (named : toComp (base p) = some (.into n))
    (resolved : w.tree.resolve maxSymlinks (w.start (IsAbs p)) (comps (dirPart p)) =
      .ok (place, followed)) :
    (w.tree.entry (n :: place) = .absent → w.namei p = .error .ENOENT) ∧
    (∀ err, w.tree.entry (n :: place) = .refused err → w.namei p = .error err) ∧
    (w.tree.entry (n :: place) = .directory → w.namei p = .ok ⟨n :: place, .directory, followed⟩) ∧
    (w.tree.entry (n :: place) = .file → w.namei p = .ok ⟨n :: place, .file, followed⟩) := by
  refine ⟨fun entry => ?_, fun err entry => ?_, fun entry => ?_, fun entry => ?_⟩
  all_goals simp only [World.namei, taken, named, resolved, entry]

private theorem namei_of_names {p r : Pathname} {names : List Pathname} {n : Pathname}
    (linkless : Linkless w dir) (lead : names ++ [n] <+: cleanNames dir)
    (taken : getname p = none) (unnamed : toComp (base p) = none) (rooted : IsAbs p = IsAbs dir)
    (through : comps p = (names ++ [n]).map .into)
    (taken' : getname r = none) (named : toComp (base r) = some (.into n))
    (rooted' : IsAbs r = IsAbs dir) (before : comps (dirPart r) = names.map .into) :
    w.namei r = w.namei p ∨ w.namei p = .error .ENOTDIR ∧ w.Lstat r = .ok .file := by
  have lead' : names <+: cleanNames dir := (List.prefix_append names [n]).trans lead
  rw [namei_unnamed taken unnamed, rooted, through, List.map_append]
  -- Both lookups walk the names before the last one. Only the entry of the last name is read
  -- in two ways: as it is, and as a directory to go on from.
  cases scanned : w.tree.scan (w.start (IsAbs dir)) (names.map .into) with
  | failed err =>
      have first := FileSystem.resolve_failed scanned maxSymlinks
      have whole := FileSystem.scan_append_failed scanned ([n].map .into)
      rw [FileSystem.resolve_failed whole maxSymlinks]
      left
      simp only [World.namei, taken', named, rooted', before, first]
      rfl
  | link holder target rest =>
      obtain ⟨q, passed, linked⟩ := (w.tree.scan_lexical _ _).2 holder target rest scanned
      exact absurd linked (linkless_visits linkless lead' q passed target)
  | arrived place =>
      have first := FileSystem.resolve_arrived scanned maxSymlinks
      have whole := FileSystem.scan_append_arrived scanned ([n].map .into)
      rw [← rooted', ← before] at first
      obtain ⟨absent, refused, directory, file⟩ := namei_named taken' named first
      simp only [List.map_cons, List.map_nil, FileSystem.scan] at whole ⊢
      cases entry : w.tree.entry (n :: place) with
      | absent =>
          rw [entry] at whole
          rw [absent entry, FileSystem.resolve_failed whole maxSymlinks]
          exact .inl rfl
      | refused err =>
          rw [entry] at whole
          rw [refused err entry, FileSystem.resolve_failed whole maxSymlinks]
          exact .inl rfl
      | directory =>
          rw [entry] at whole
          rw [directory entry, FileSystem.resolve_arrived whole maxSymlinks]
          exact .inl rfl
      | file =>
          rw [entry] at whole
          rw [World.Lstat, file entry, FileSystem.resolve_failed whole maxSymlinks]
          exact .inr ⟨rfl, rfl⟩
      | symlink target =>
          rw [rooted', before] at first
          obtain ⟨rfl, -⟩ := Prod.mk.inj (resolve_names linkless lead' first)
          refine absurd ?_ (linkless (names ++ [n]) ⟨lead, by simp⟩ target)
          simpa [below] using entry

private theorem namei_Clean_cases (plain : ['.', '.'] ∉ parts dir) (linkless : Linkless w dir)
    (taken : getname dir = none) :
    w.namei (Clean dir) = w.namei dir ∨
      toComp (base dir) = none ∧ w.namei dir = .error .ENOTDIR ∧
        w.Lstat (Clean dir) = .ok .file := by
  have taken' := getname_Clean plain taken
  have valid := cleanNames_valid dir
  rw [Clean_plain plain] at taken' ⊢
  have rooted := isAbs_spell (IsAbs dir) valid
  cases last : toComp (base dir) with
  | some c =>
      cases c with
      | up =>
          have climbs : .up ∈ comps dir := by
            rw [comps_split, last]
            simp
          exact absurd climbs (up_not_mem_comps plain)
      | into n =>
          obtain ⟨names, split, before⟩ := comps_dirPart_plain plain last
          rw [split] at taken' valid rooted ⊢
          refine .inl (namei_congr taken' taken ?_ last rooted ?_)
          · rw [base_spell valid, (valid n (by simp)).named]
          · rw [comps_dirPart_spell valid, before]
  | none =>
      have through := comps_plain plain
      rcases List.eq_nil_or_concat' (cleanNames dir) with empty | ⟨names, n, split⟩
      · rw [empty] at taken' rooted through ⊢
        have unnamed : toComp (base (spell (IsAbs dir) [])) = none := by
          cases IsAbs dir <;> decide
        have none_left : comps (spell (IsAbs dir) []) = [] := comps_spell (IsAbs dir) (by simp)
        left
        rw [namei_start taken' unnamed none_left, namei_start taken last through, rooted]
      · rw [split] at taken' valid rooted through ⊢
        have found := namei_of_names (w := w) linkless (by rw [split]) taken last rfl through taken'
          (by rw [base_spell valid, (valid n (by simp)).named]) rooted (comps_dirPart_spell valid)
        exact found.imp id fun away => ⟨rfl, away⟩

private theorem namei_place (plain : ['.', '.'] ∉ parts dir) (linkless : Linkless w dir)
    {found : Found}
    (looked : w.namei dir = .ok found) :
    found.followed = 0 ∧ found.place = below w dir (cleanNames dir) := by
  obtain ⟨-, ⟨n, place, last, resolved, here, -⟩ | ⟨-, resolved, -⟩⟩ := namei_cases looked
  · obtain ⟨names, split, before⟩ := comps_dirPart_plain plain last
    rw [before] at resolved
    have lead : names <+: cleanNames dir := ⟨[n], split.symm⟩
    obtain ⟨rfl, straight⟩ := Prod.mk.inj (resolve_names linkless lead resolved)
    refine ⟨straight, ?_⟩
    rw [here, split]
    simp [below]
  · rw [comps_plain plain] at resolved
    obtain ⟨place, straight⟩ := Prod.mk.inj (resolve_names linkless List.prefix_rfl resolved)
    exact ⟨straight, place⟩

end Lookup

/-- The check passes exactly on paths without parent steps, links on the way and failures other
than absence. Then the kernel meets no link on the raw path and ends at the cleaned path, or
fails because it does not take the raw path, because the lookup of the cleaned path fails, or
because the raw path asks for a directory where there is a file. -/
theorem walk_covers_resolution (w : World) (dir : Pathname) :
    (RejectSymlinkComponents w dir = none ↔
      ['.', '.'] ∉ parts dir ∧
      (∀ front, Leads dir front → ∀ target,
        w.tree.entry (below w dir front) ≠ .symlink target) ∧
      ∀ front, Leads dir front → ∀ err,
        w.Lstat (spell (IsAbs dir) front) = .error err → err = .ENOENT) ∧
    (RejectSymlinkComponents w dir = none →
      (∀ q ∈ visits (w.start (IsAbs dir)) (comps dir), ∀ target,
        w.tree.entry q ≠ .symlink target) ∧
      (∀ found, w.namei dir = .ok found →
        found.followed = 0 ∧ found.place = below w dir (cleanNames dir) ∧
          w.namei (Clean dir) = .ok found) ∧
      ∀ err, w.namei dir = .error err →
        getname dir = some err ∨ w.namei (Clean dir) = .error err ∨
          (err = .ENOTDIR ∧ toComp (base dir) = none ∧ w.Lstat (Clean dir) = .ok .file)) := by
  refine ⟨reject_none_iff w dir, fun passed => ?_⟩
  obtain ⟨plain, linkless, -⟩ := (reject_none_iff w dir).mp passed
  refine ⟨?_, fun found looked => ?_, fun err failed => ?_⟩
  · rw [comps_plain plain]
    exact linkless_visits linkless List.prefix_rfl
  · obtain ⟨straight, place⟩ := namei_place plain linkless looked
    refine ⟨straight, place, ?_⟩
    rcases namei_Clean_cases plain linkless (namei_cases looked).1 with same | ⟨-, away, -⟩
    · rw [same, looked]
    · exact absurd (away.symm.trans looked) (by simp)
  · cases taken : getname dir with
    | some refused =>
        left
        simp only [World.namei, taken] at failed
        rw [Except.error.inj failed]
    | none =>
        right
        rcases namei_Clean_cases plain linkless taken with same | ⟨last, away, file⟩
        · exact .inl (same.trans failed)
        · exact .inr ⟨(Except.error.inj (away.symm.trans failed)).symm, last, file⟩

def fileWorld : World where
  tree := .ofList [([], .directory), ([['f']], .file)] (by decide) (by decide)
  cwd := []
  here := by decide

/-- The check passes and the cleaned path exists, while the lookup of the raw path fails. -/
theorem raw_path_not_reached :
    (RejectSymlinkComponents fileWorld ['/', 'f', '/'] = none ∧
      Clean ['/', 'f', '/'] = ['/', 'f'] ∧ fileWorld.Lstat ['/', 'f'] = .ok .file ∧
      fileWorld.namei ['/', 'f', '/'] = .error .ENOTDIR) ∧
    RejectSymlinkComponents fileWorld [] = none ∧
      Clean [] = ['.'] ∧ fileWorld.Lstat ['.'] = .ok .directory ∧
      fileWorld.namei [] = .error .ENOENT := by
  decide +kernel

end L3Firewall.Securepath.Resolution
