/- Securepath/Consumers
   source: cmd/server/main.go, internal/geoip/geoip.go, internal/persist/persist.go
   digest: Readers that check a cleaned directory path and open the raw path. -/

import L3Firewall.Securepath.Walk

set_option autoImplicit false
set_option relaxedAutoImplicit false

namespace L3Firewall.Securepath.Consumers

open Foundation.FileTree
open Filepath.Lexical
open Walk

/-! The three readers, up to the open. What follows works on the open file. -/

inductive Opening
  | skipped
  | refused (err : String)
  | opened (found : Found)
  deriving DecidableEq

def openChecked (w : World) (path : Pathname) (failed : Errno → Opening) : Opening :=
  match RejectSymlinkComponents w (Dir path) with
  | some err => .refused err
  | none =>
      match w.openNoFollow path with
      | .error err => failed err
      | .ok found => .opened found

def readPolicyFile (w : World) (path : Pathname) : Opening :=
  openChecked w path fun err => .refused ("opening policy file: " ++ pathError "open" path err)

/-- The GeoIP reader, which an empty path disables. -/
def NewReader (w : World) (path : Pathname) : Opening :=
  if path = [] then .skipped
  else openChecked w path fun err =>
    .refused ("opening GeoIP database " ++ String.ofList path ++ ": " ++ pathError "open" path err)

/-- Of the three only this one refuses ".." in the raw path. A missing file is no state. -/
def LoadState (w : World) (path : Pathname) : Opening :=
  if path = [] then .skipped
  else if ['.', '.'] <:+: path then
    .refused ("path traversal rejected: " ++ String.ofList path)
  else openChecked w path fun err =>
    if err = .ENOENT then .skipped
    else .refused ("opening state file: " ++ pathError "open" path err)

/-! Which paths the check covers. -/

/-- Every directory that the raw path looks up is on the cleaned path. -/
def Straight (path : Pathname) : Prop :=
  ∀ q ∈ visits [] (comps (dirPart path)), q <:+ land [] (comps (dirPart path))

/-- Paths that no call takes, paths whose cleaned directory keeps a "..", which the check
refuses, and straight paths. -/
def Covered (path : Pathname) : Prop :=
  getname path ≠ none ∨ .up ∈ cleaned (dirPart path) ∨ Straight path

private theorem openChecked_opened {w : World} {path : Pathname} {failed : Errno → Opening}
    {found : Found}
    (fails : ∀ err, failed err ≠ .opened found) :
    openChecked w path failed = .opened found ↔
      RejectSymlinkComponents w (Dir path) = none ∧ w.openNoFollow path = .ok found := by
  unfold openChecked
  cases RejectSymlinkComponents w (Dir path) with
  | some err => simp
  | none =>
      cases opened : w.openNoFollow path with
      | error err => simpa using fails err
      | ok other => simp

private theorem openNoFollow_ok {w : World} {path : Pathname} {found : Found}
    (opened : w.openNoFollow path = .ok found) : w.namei path = .ok found := by
  unfold World.openNoFollow at opened
  split at opened
  · exact absurd opened (by simp)
  · next other looked =>
    split at opened
    · exact absurd opened (by simp)
    · rw [looked]
      exact opened

private theorem Dir_eq {path : Pathname} (down : .up ∉ cleaned (dirPart path)) :
    Dir path = spell (IsAbs path) (cleanNames (dirPart path)) ∧
      cleanNames (Dir path) = cleanNames (dirPart path) ∧ IsAbs (Dir path) = IsAbs path ∧
      ['.', '.'] ∉ parts (Dir path) := by
  have valid := cleanNames_valid (dirPart path)
  have spelled : Dir path = spell (IsAbs path) (cleanNames (dirPart path)) := by
    rw [Dir, Clean_eq down, isAbs_dirPart]
  have read : comps (Dir path) = (cleanNames (dirPart path)).map .into := by
    rw [spelled, comps_spell _ valid]
  refine ⟨spelled, ?_, ?_, ?_⟩
  · rw [cleanNames, read, land_names, List.append_nil, List.reverse_reverse]
  · rw [spelled, isAbs_spell _ valid]
  · intro dots
    have climbs : .up ∈ comps (Dir path) := List.mem_filterMap.mpr ⟨_, dots, rfl⟩
    rw [read] at climbs
    exact absurd climbs (by simp)

private theorem visits_start {path : Pathname} (down : .up ∉ cleaned (dirPart path)) (w : World) :
    visits (w.start (IsAbs path)) (comps (dirPart path)) =
      (visits [] (comps (dirPart path))).map (· ++ w.start (IsAbs path)) := by
  cases rooted : IsAbs path with
  | true => simp [World.start]
  | false =>
      have relative : .up ∉ (comps (dirPart path)).foldl (push false) [] := by
        have same := down
        rwa [cleaned, isAbs_dirPart, rooted] at same
      exact (land_shift [] relative w.cwd).2

private theorem straight_follows_none {w : World} {path : Pathname} {found : Found}
    (straight : Straight path)
    (passed : RejectSymlinkComponents w (Dir path) = none)
    (opened : w.openNoFollow path = .ok found) : found.followed = 0 := by
  have down : .up ∉ cleaned (dirPart path) :=
    fun climbs => plain_of_pass passed (dotdot_of_up climbs)
  obtain ⟨-, names, rooted, -⟩ := Dir_eq down
  have linkless : ∀ q ∈ visits (w.start (IsAbs path)) (comps (dirPart path)),
      ∀ target, w.tree.entry q ≠ .symlink target := by
    intro q member target
    rw [visits_start down] at member
    obtain ⟨r, inside, rfl⟩ := List.mem_map.mp member
    obtain ⟨below, whole⟩ := straight r inside
    have split : cleanNames (Dir path) = r.reverse ++ below.reverse := by
      rw [names, cleanNames, ← whole, List.reverse_append]
    have proper : r.reverse ≠ [] := by simpa using visits_ne_nil inside
    have unlinked := no_link_of_pass passed split proper target
    rwa [List.reverse_reverse, rooted] at unlinked
  obtain ⟨-, ⟨name, place, -, resolved, -⟩ | ⟨unnamed, resolved, -⟩⟩ :=
    namei_cases (openNoFollow_ok opened)
  · exact (Prod.mk.inj (FileSystem.resolve_linkless linkless resolved)).2
  · rw [← visits_last unnamed] at linkless
    exact (Prod.mk.inj (FileSystem.resolve_linkless linkless resolved)).2

def another (name : Option Pathname) : Pathname := if name = some ['x'] then ['y'] else ['x']

private theorem another_ne (name : Option Pathname) : name ≠ some (another name) := by
  unfold another
  split
  · next same => rw [same]; decide
  · next other => exact other

/-- Directories everywhere, but for one link that leads far away. -/
def trap (q : Place Pathname) (inner : q ≠ []) (depth : Nat) : World where
  tree := planted q inner (detour (another q.getLast?) depth)
  cwd := []
  here := (planted q inner _).root

private theorem trap_start (q : Place Pathname) (inner : q ≠ []) (depth : Nat) (rooted : Bool) :
    (trap q inner depth).start rooted = [] := by
  cases rooted <;> rfl

private theorem trap_passes {path : Pathname} {q : Place Pathname} {inner : q ≠ []} {depth : Nat}
    (taken : getname path = none) (down : .up ∉ cleaned (dirPart path))
    (beside : ¬ q <:+ land [] (comps (dirPart path))) :
    RejectSymlinkComponents (trap q inner depth) (Dir path) = none := by
  obtain ⟨-, names, rooted, plain⟩ := Dir_eq down
  rw [reject_eq_none_iff plain, names, rooted]
  intro front back split proper
  have valid : ∀ n ∈ front, IsName n := fun n member =>
    cleanNames_valid (dirPart path) n (split ▸ List.mem_append_left back member)
  have lead : front.Sublist (cleanNames (dirPart path)) :=
    split ▸ List.sublist_append_left front back
  have shorter : (spell (IsAbs path) front).Sublist path := by
    have inside := spell_sublist proper lead
    rw [isAbs_dirPart] at inside
    refine inside.trans ?_
    have whole := dirPart_append_base path
    exact (whole ▸ List.sublist_append_left (dirPart path) (base path) :)
  have usable := getname_of_sublist shorter (spell_ne_nil _ valid) taken
  have outside : ¬ q <:+ front.reverse := by
    intro below
    apply beside
    refine below.trans ⟨back.reverse, ?_⟩
    rw [← List.reverse_append, ← split, cleanNames, List.reverse_reverse]
  have open_ : (trap q inner depth).tree.entry
      (front.reverse ++ (trap q inner depth).start (IsAbs path)) = .directory := by
    rw [trap_start, List.append_nil]
    exact planted_directory inner _ outside
  rw [Lstat_spell proper valid usable (by rw [open_]; simp) (by rw [open_]; simp), open_]
  trivial

private theorem open_named {w : World} {path name : Pathname} {place : Place Pathname}
    {followed : Nat}
    (taken : getname path = none) (last : toComp (base path) = some (.into name))
    (resolved : w.tree.resolve maxSymlinks (w.start (IsAbs path)) (comps (dirPart path)) =
      .ok (place, followed))
    (entry : w.tree.entry (name :: place) = .directory) :
    w.openNoFollow path = .ok ⟨name :: place, .directory, followed⟩ := by
  simp only [World.openNoFollow, World.namei, taken, last, resolved, entry]

private theorem open_unnamed {w : World} {path : Pathname} {place : Place Pathname} {followed : Nat}
    (taken : getname path = none) (unnamed : ∀ name, toComp (base path) ≠ some (.into name))
    (resolved : w.tree.resolve maxSymlinks (w.start (IsAbs path)) (comps path) =
      .ok (place, followed)) :
    w.openNoFollow path = .ok ⟨place, .directory, followed⟩ := by
  cases last : toComp (base path) with
  | none => simp only [World.openNoFollow, World.namei, taken, last, resolved]
  | some c =>
      cases c with
      | up => simp only [World.openNoFollow, World.namei, taken, last, resolved]
      | into name => exact absurd last (unnamed name)

private theorem trap_opens {path : Pathname} {q : Place Pathname} (inner : q ≠ [])
    (taken : getname path = none)
    (passed : q ∈ visits [] (comps (dirPart path))) :
    ∃ found, (trap q inner ((comps path).length + 1)).openNoFollow path = .ok found ∧
      found.followed = 1 := by
  have apart := another_ne q.getLast?
  have resolves {cs : List (Comp Pathname)} (passes : q ∈ visits [] cs)
      (short : cs.length < (comps path).length + 1) :
      ∃ place, (trap q inner ((comps path).length + 1)).tree.resolve maxSymlinks
          ((trap q inner ((comps path).length + 1)).start (IsAbs path)) cs = .ok (place, 1) ∧
        [another q.getLast?] <:+ place := by
    rw [trap_start]
    exact planted_resolve inner apart passes short 39
  by_cases named : ∃ name, toComp (base path) = some (.into name)
  · obtain ⟨name, last⟩ := named
    have shorter : (comps (dirPart path)).length < (comps path).length + 1 := by
      rw [comps_split path, List.length_append]
      omega
    obtain ⟨place, resolved, deep⟩ := resolves passed shorter
    have outside := not_below inner apart (deep.trans (List.suffix_cons name place))
    exact ⟨_, open_named taken last resolved (planted_directory inner _ outside), rfl⟩
  · have unnamed : ∀ name, toComp (base path) ≠ some (.into name) := by simpa using named
    rw [← visits_last unnamed] at passed
    obtain ⟨place, resolved, -⟩ := resolves passed (by omega)
    exact ⟨_, open_unnamed taken unnamed resolved, rfl⟩

private theorem checked_open_iff (path : Pathname) :
    (∀ w found, RejectSymlinkComponents w (Dir path) = none → w.openNoFollow path = .ok found →
      found.followed = 0) ↔ Covered path := by
  constructor
  · intro safe
    by_contra uncovered
    simp only [Covered, not_or, Classical.not_not] at uncovered
    obtain ⟨taken, down, crooked⟩ := uncovered
    simp only [Straight, not_forall] at crooked
    obtain ⟨q, passed, beside⟩ := crooked
    have inner := visits_ne_nil passed
    obtain ⟨found, opened, one⟩ := trap_opens inner taken passed
    have none_followed := safe _ found (trap_passes taken down beside) opened
    omega
  · rintro (refused | climbs | straight) w found passed opened
    · exact absurd (namei_cases (openNoFollow_ok opened)).1 refused
    · exact absurd (dotdot_of_up climbs) (plain_of_pass passed)
    · exact straight_follows_none straight passed opened

private theorem openChecked_safe_iff {failed : Errno → Opening}
    (fails : ∀ err found, failed err ≠ .opened found) (path : Pathname) :
    (∀ w found, openChecked w path failed = .opened found → found.followed = 0) ↔
      Covered path := by
  rw [← checked_open_iff]
  constructor
  · intro safe w found passed opened
    exact safe w found ((openChecked_opened fun err => fails err found).mpr ⟨passed, opened⟩)
  · intro safe w found opened
    obtain ⟨passed, opened⟩ := (openChecked_opened fun err => fails err found).mp opened
    exact safe w found passed opened

private theorem straight_of_no_dots {path : Pathname} (plain : ¬ ['.', '.'] <:+: path) :
    Straight path := by
  intro q passed
  refine visits_down ?_ passed
  apply up_not_mem_comps
  intro dots
  apply plain
  have whole := dirPart_append_base path
  exact (part_within dots).trans ⟨[], base path, by simpa using whole⟩

/-- The state reader never opens through a link. The policy reader and the GeoIP reader
open through none exactly on the paths that their check covers. -/
theorem opens_through_no_link_iff (path : Pathname) :
    (∀ w found, LoadState w path = .opened found → found.followed = 0) ∧
    ((∀ w found, readPolicyFile w path = .opened found → found.followed = 0) ↔ Covered path) ∧
    ((∀ w found, NewReader w path = .opened found → found.followed = 0) ↔ Covered path) := by
  refine ⟨?_, openChecked_safe_iff (fun _ _ => by simp) path, ?_⟩
  · intro w found opened
    unfold LoadState at opened
    split at opened
    · exact absurd opened (by simp)
    · split at opened
      · exact absurd opened (by simp)
      · next plain =>
        have covered : Covered path := .inr (.inr (straight_of_no_dots plain))
        refine (openChecked_safe_iff ?_ path).mpr covered w found opened
        intro err found
        split <;> simp
  · by_cases empty : path = []
    · subst empty
      have refused : Covered [] := .inl (by decide)
      simp [NewReader, refused]
    · simp only [NewReader, empty, if_false]
      exact openChecked_safe_iff (fun _ _ => by simp) path

/-- A link beside the checked directory, to a directory whose sibling has the same name as
the checked one. -/
def plantedEntries : List (Place Pathname × Node Pathname) :=
  let base := "base".toList
  let victim := "victim".toList
  let state := "state".toList
  let inner := "inner".toList
  [([], .directory), ([base], .directory), ([state, base], .directory),
    (["evil".toList, base], .symlink ⟨true, [.into victim, .into inner]⟩),
    ([victim], .directory), ([inner, victim], .directory), ([state, victim], .directory),
    (["f".toList, state, victim], .file)]

def plantedWorld : World where
  tree := .ofList plantedEntries (by decide) (by decide)
  cwd := []
  here := by decide

/-- The check is given /base/state, while the open goes through the link and reads
/victim/state/f. -/
theorem link_before_dotdot_followed :
    let path := "/base/evil/../state/f".toList
    let file : Found :=
      ⟨["f".toList, "state".toList, "victim".toList], .file, 1⟩
    Dir path = "/base/state".toList ∧ readPolicyFile plantedWorld path = .opened file ∧
      NewReader plantedWorld path = .opened file ∧
      LoadState plantedWorld path = .refused "path traversal rejected: /base/evil/../state/f" := by
  decide +kernel

end L3Firewall.Securepath.Consumers
