/- Foundation/FileTree
   digest: File trees with symbolic links, path resolution, and the places a path passes through. -/

import Mathlib.Data.List.Infix

set_option autoImplicit false
set_option relaxedAutoImplicit false

namespace L3Firewall.Foundation.FileTree

universe u

inductive Errno
  | ENOENT
  | ENOTDIR
  | ELOOP
  | EACCES
  | EINVAL
  | ENAMETOOLONG
  deriving DecidableEq

/-- One component of a path: to the parent, or to an entry of the directory. -/
inductive Comp (ν : Type u)
  | up
  | into (name : ν)
  deriving DecidableEq

/-- A place in the tree, by the names that lead to it, innermost first. -/
abbrev Place (ν : Type u) := List ν

/-- Where a link leads to, from the root or from the directory that holds it. -/
structure Route (ν : Type u) where
  absolute : Bool
  comps : List (Comp ν)
  deriving DecidableEq

inductive Node (ν : Type u)
  | absent
  | refused (err : Errno)
  | directory
  | file
  | symlink (target : Route ν)
  deriving DecidableEq

structure FileSystem (ν : Type u) where
  entry : Place ν → Node ν
  root : entry [] = .directory
  inside : ∀ name place, entry (name :: place) ≠ .absent → entry place = .directory

variable {ν : Type u}

theorem FileSystem.ancestor (t : FileSystem ν) (front : Place ν) {place : Place ν}
    (proper : front ≠ [])
    (present : t.entry (front ++ place) ≠ .absent) : t.entry place = .directory := by
  induction front with
  | nil => exact absurd rfl proper
  | cons name front ih =>
      have above := t.inside name (front ++ place) present
      cases front with
      | nil => exact above
      | cons next rest =>
          apply ih (by simp)
          rw [above]
          simp

/-- The tree of a list of entries, each after its directory. -/
def FileSystem.ofList [DecidableEq ν] (entries : List (Place ν × Node ν))
    (root : entries.lookup [] = some .directory)
    (closed : ∀ e ∈ entries, entries.lookup e.1.tail = some .directory) : FileSystem ν where
  entry place := (entries.lookup place).getD .absent
  root := by rw [root]; rfl
  inside name place present := by
    cases found : entries.lookup (name :: place) with
    | none => exact absurd (by rw [found]; rfl) present
    | some node =>
        have member : (name :: place, node) ∈ entries := by
          obtain ⟨before, after, split, -⟩ := List.lookup_eq_some_iff.mp found
          rw [split]
          simp
        have above : entries.lookup place = some .directory := closed _ member
        rw [above]
        rfl

section Resolution

inductive Outcome (ν : Type u)
  | arrived (place : Place ν)
  | failed (err : Errno)
  | link (holder : Place ν) (target : Route ν) (rest : List (Comp ν))

/-- Each component is taken in the directory reached so far. -/
def FileSystem.scan (t : FileSystem ν) : Place ν → List (Comp ν) → Outcome ν
  | place, [] => .arrived place
  | place, .up :: rest => t.scan place.tail rest
  | place, .into name :: rest =>
      match t.entry (name :: place) with
      | .absent => .failed .ENOENT
      | .refused err => .failed err
      | .file => .failed .ENOTDIR
      | .directory => t.scan (name :: place) rest
      | .symlink target => .link place target rest

/-- The directory a path leads to and how many links were followed on the way. The budget
is the number of links that may be. -/
def FileSystem.resolve (t : FileSystem ν) (budget : Nat) (place : Place ν) (comps : List (Comp ν)) :
    Except Errno (Place ν × Nat) :=
  match t.scan place comps with
  | .arrived last => .ok (last, 0)
  | .failed err => .error err
  | .link holder target rest =>
      match budget with
      | 0 => .error .ELOOP
      | budget + 1 =>
          (t.resolve budget (if target.absolute then [] else holder)
            (target.comps ++ rest)).map fun found => (found.1, found.2 + 1)

end Resolution

section Lexical

def Comp.step : Place ν → Comp ν → Place ν
  | place, .up => place.tail
  | place, .into name => name :: place

/-- Where a path leads as long as it meets no link. -/
def land (place : Place ν) (comps : List (Comp ν)) : Place ν := comps.foldl Comp.step place

def visits : Place ν → List (Comp ν) → List (Place ν)
  | _, [] => []
  | place, .up :: rest => visits place.tail rest
  | place, .into name :: rest => (name :: place) :: visits (name :: place) rest

theorem visits_append (place : Place ν) (a b : List (Comp ν)) :
    visits place (a ++ b) = visits place a ++ visits (land place a) b := by
  induction a generalizing place with
  | nil => rfl
  | cons comp rest ih =>
      cases comp with
      | up => exact ih place.tail
      | into name => exact congrArg (List.cons (name :: place)) (ih (name :: place))

theorem visits_ne_nil {place q : Place ν} {comps : List (Comp ν)}
    (passed : q ∈ visits place comps) : q ≠ [] := by
  induction comps generalizing place with
  | nil => exact absurd passed (by simp [visits])
  | cons comp rest ih =>
      cases comp with
      | up => exact ih passed
      | into name =>
          rcases List.mem_cons.mp passed with rfl | later
          · simp
          · exact ih later

theorem land_names (place : Place ν) (names : List ν) :
    land place (names.map .into) = names.reverse ++ place := by
  induction names generalizing place with
  | nil => rfl
  | cons name rest ih =>
      have onward := ih (name :: place)
      rw [List.reverse_cons, List.append_assoc]
      exact onward

private theorem suffix_land {place : Place ν} {comps : List (Comp ν)} (down : .up ∉ comps) :
    place <:+ land place comps := by
  induction comps generalizing place with
  | nil => exact List.suffix_rfl
  | cons comp rest ih =>
      cases comp with
      | up => exact absurd List.mem_cons_self down
      | into name =>
          have further : .up ∉ rest := fun later => down (List.mem_cons_of_mem _ later)
          exact (List.suffix_cons name place).trans (ih further)

theorem visits_down {place q : Place ν} {comps : List (Comp ν)} (down : .up ∉ comps)
    (passed : q ∈ visits place comps) : q <:+ land place comps := by
  induction comps generalizing place with
  | nil => exact absurd passed (by simp [visits])
  | cons comp rest ih =>
      have further : .up ∉ rest := fun later => down (List.mem_cons_of_mem _ later)
      cases comp with
      | up => exact absurd List.mem_cons_self down
      | into name =>
          rcases List.mem_cons.mp passed with rfl | later
          · exact suffix_land further
          · exact ih further later

theorem names_of_down {comps : List (Comp ν)} (down : .up ∉ comps) :
    ∃ names : List ν, comps = names.map .into := by
  induction comps with
  | nil => exact ⟨[], rfl⟩
  | cons comp rest ih =>
      obtain ⟨names, rfl⟩ := ih fun later => down (List.mem_cons_of_mem comp later)
      cases comp with
      | up => exact absurd List.mem_cons_self down
      | into name => exact ⟨name :: names, rfl⟩

theorem mem_visits_names {place q : Place ν} {names : List ν} :
    q ∈ visits place (names.map .into) ↔
      ∃ front, front <+: names ∧ front ≠ [] ∧ q = front.reverse ++ place := by
  induction names generalizing place with
  | nil =>
      refine ⟨fun passed => absurd passed (by simp [visits]), ?_⟩
      rintro ⟨front, lead, proper, -⟩
      exact absurd (List.prefix_nil.mp lead) proper
  | cons name rest ih =>
      rw [List.map_cons, visits, List.mem_cons, ih]
      constructor
      · rintro (rfl | ⟨front, lead, -, rfl⟩)
        · exact ⟨[name], by simp, by simp, rfl⟩
        · exact ⟨name :: front, by simpa using lead, by simp, by simp⟩
      · rintro ⟨front, lead, proper, rfl⟩
        cases front with
        | nil => exact absurd rfl proper
        | cons first front =>
            obtain ⟨rfl, further⟩ := List.cons_prefix_cons.mp lead
            by_cases last : front = []
            · exact .inl (by rw [last]; rfl)
            · exact .inr ⟨front, further, last, by simp⟩

theorem FileSystem.scan_lexical (t : FileSystem ν) (place : Place ν) (comps : List (Comp ν)) :
    (∀ last, t.scan place comps = .arrived last → last = land place comps) ∧
    ∀ holder target rest, t.scan place comps = .link holder target rest →
      ∃ q ∈ visits place comps, t.entry q = .symlink target := by
  induction comps generalizing place with
  | nil =>
      refine ⟨fun last arrived => ?_, fun _ _ _ link => ?_⟩
      · exact (Outcome.arrived.inj arrived).symm
      · exact absurd link (by simp [FileSystem.scan])
  | cons comp rest ih =>
      cases comp with
      | up => exact ih place.tail
      | into name =>
          cases found : t.entry (name :: place) with
          | directory =>
              obtain ⟨arrives, links⟩ := ih (name :: place)
              simp only [FileSystem.scan, found]
              refine ⟨arrives, fun holder target rest' link => ?_⟩
              obtain ⟨q, member, linked⟩ := links holder target rest' link
              exact ⟨q, List.mem_cons_of_mem _ member, linked⟩
          | symlink target =>
              simp only [FileSystem.scan, found]
              refine ⟨fun last arrived => absurd arrived (by simp), fun holder t' rest' link => ?_⟩
              obtain ⟨-, rfl, -⟩ := Outcome.link.inj link
              exact ⟨name :: place, List.mem_cons_self, found⟩
          | absent => simp [FileSystem.scan, found]
          | refused err => simp [FileSystem.scan, found]
          | file => simp [FileSystem.scan, found]

theorem FileSystem.resolve_linkless {t : FileSystem ν} {place : Place ν} {comps : List (Comp ν)}
    (linkless : ∀ q ∈ visits place comps, ∀ target, t.entry q ≠ .symlink target)
    {budget : Nat} {found : Place ν × Nat} (resolved : t.resolve budget place comps = .ok found) :
    found = (land place comps, 0) := by
  obtain ⟨arrives, links⟩ := t.scan_lexical place comps
  rw [FileSystem.resolve] at resolved
  cases scanned : t.scan place comps with
  | arrived last =>
      rw [scanned] at resolved
      rw [← arrives last scanned]
      exact (Except.ok.inj resolved).symm
  | failed err =>
      rw [scanned] at resolved
      exact absurd resolved (by simp)
  | link holder target rest =>
      obtain ⟨q, member, linked⟩ := links holder target rest scanned
      exact absurd linked (linkless q member target)

theorem FileSystem.resolve_arrived {t : FileSystem ν} {place last : Place ν} {comps : List (Comp ν)}
    (arrived : t.scan place comps = .arrived last) (budget : Nat) :
    t.resolve budget place comps = .ok (last, 0) := by
  rw [FileSystem.resolve, arrived]

theorem FileSystem.resolve_failed {t : FileSystem ν} {place : Place ν} {comps : List (Comp ν)}
    {err : Errno} (failed : t.scan place comps = .failed err) (budget : Nat) :
    t.resolve budget place comps = .error err := by
  rw [FileSystem.resolve, failed]

theorem FileSystem.scan_append_arrived {t : FileSystem ν} {place last : Place ν}
    {a : List (Comp ν)} (arrived : t.scan place a = .arrived last) (b : List (Comp ν)) :
    t.scan place (a ++ b) = t.scan last b := by
  induction a generalizing place with
  | nil =>
      obtain rfl := Outcome.arrived.inj arrived
      rfl
  | cons comp rest ih =>
      cases comp with
      | up => exact ih arrived
      | into name =>
          rw [FileSystem.scan] at arrived
          rw [List.cons_append, FileSystem.scan]
          split at arrived
          · exact absurd arrived (by simp)
          · exact absurd arrived (by simp)
          · exact absurd arrived (by simp)
          · exact ih arrived
          · exact absurd arrived (by simp)

theorem FileSystem.scan_append_failed {t : FileSystem ν} {place : Place ν} {err : Errno}
    {a : List (Comp ν)} (failed : t.scan place a = .failed err) (b : List (Comp ν)) :
    t.scan place (a ++ b) = .failed err := by
  induction a generalizing place with
  | nil => exact absurd failed (by simp [FileSystem.scan])
  | cons comp rest ih =>
      cases comp with
      | up => exact ih failed
      | into name =>
          rw [FileSystem.scan] at failed
          rw [List.cons_append, FileSystem.scan]
          split at failed
          · exact failed
          · exact failed
          · exact failed
          · exact ih failed
          · exact absurd failed (by simp)

theorem FileSystem.scan_names {t : FileSystem ν} {place : Place ν} {names : List ν}
    (open_ : ∀ front back, names = front ++ back → front ≠ [] →
      t.entry (front.reverse ++ place) = .directory) :
    t.scan place (names.map .into) = .arrived (names.reverse ++ place) := by
  induction names generalizing place with
  | nil => rfl
  | cons name rest ih =>
      have first : t.entry (name :: place) = .directory := open_ [name] rest rfl (by simp)
      simp only [List.map_cons, FileSystem.scan, first]
      rw [ih]
      · simp
      · intro front back split _
        have whole := open_ (name :: front) back (by rw [split]; rfl) (by simp)
        simpa using whole

end Lexical

section Planted

theorem not_below {q : Place ν} {z : ν} (inner : q ≠ []) (apart : q.getLast? ≠ some z) {l : Place ν}
    (deep : [z] <:+ l) : ¬ q <:+ l := by
  rintro ⟨front, rfl⟩
  obtain ⟨lead, same⟩ := deep
  have last := congrArg List.getLast? same
  rw [List.getLast?_append_of_ne_nil _ inner] at last
  exact apart (by rw [← last]; simp)

variable [DecidableEq ν]

/-- A tree of directories everywhere, but for one link. -/
def planted (q : Place ν) (inner : q ≠ []) (target : Route ν) : FileSystem ν where
  entry l := if l = q then .symlink target else if q <:+ l then .absent else .directory
  root := by
    rw [if_neg (Ne.symm inner), if_neg]
    exact fun below => inner (List.suffix_nil.mp below)
  inside name place present := by
    have outside : ¬ q <:+ place := by
      intro below
      have longer : name :: place ≠ q := by
        intro same
        have bound := below.length_le
        rw [← same, List.length_cons] at bound
        omega
      rw [if_neg longer, if_pos (below.trans (List.suffix_cons name place))] at present
      exact present rfl
    have other : place ≠ q := fun same => outside (same ▸ List.suffix_rfl)
    rw [if_neg other, if_neg outside]

variable {q : Place ν}

private theorem planted_link (inner : q ≠ []) (target : Route ν) :
    (planted q inner target).entry q = .symlink target := if_pos rfl

theorem planted_directory (inner : q ≠ []) (target : Route ν) {l : Place ν}
    (outside : ¬ q <:+ l) : (planted q inner target).entry l = .directory := by
  have other : l ≠ q := fun same => outside (same ▸ List.suffix_rfl)
  simp only [planted]
  rw [if_neg other, if_neg outside]

private theorem planted_scan_hit (inner : q ≠ []) (target : Route ν) {place : Place ν}
    {comps : List (Comp ν)} (outside : ¬ q <:+ place) (passed : q ∈ visits place comps) :
    ∃ holder rest, (planted q inner target).scan place comps = .link holder target rest ∧
      rest.length ≤ comps.length := by
  induction comps generalizing place with
  | nil => exact absurd passed (by simp [visits])
  | cons comp rest ih =>
      cases comp with
      | up =>
          obtain ⟨holder, rest', link, shorter⟩ :=
            ih (fun below => outside (below.trans (List.tail_suffix place))) passed
          exact ⟨holder, rest', link, Nat.le_succ_of_le shorter⟩
      | into name =>
          by_cases here : name :: place = q
          · refine ⟨place, rest, ?_, Nat.le_succ _⟩
            simp only [FileSystem.scan, here, planted_link]
          · have still : ¬ q <:+ name :: place := by
              rw [List.suffix_cons_iff]
              rintro (same | below)
              · exact here same.symm
              · exact outside below
            have later : q ∈ visits (name :: place) rest :=
              (List.mem_cons.mp passed).resolve_left (Ne.symm here)
            obtain ⟨holder, rest', link, shorter⟩ := ih still later
            refine ⟨holder, rest', ?_, Nat.le_succ_of_le shorter⟩
            simp only [FileSystem.scan, planted_directory inner target still, link]

private theorem planted_scan_deep (inner : q ≠ []) (target : Route ν) {z : ν}
    (apart : q.getLast? ≠ some z) {place : Place ν} {comps : List (Comp ν)}
    (deep : List.replicate (comps.length + 1) z <:+ place) :
    ∃ last, (planted q inner target).scan place comps = .arrived last ∧ [z] <:+ last := by
  induction comps generalizing place with
  | nil => exact ⟨place, rfl, deep⟩
  | cons comp rest ih =>
      have fewer : List.replicate (rest.length + 1) z <:+ place.tail := by
        obtain ⟨front, rfl⟩ := deep
        cases front with
        | nil => exact List.suffix_rfl
        | cons name front =>
            refine ⟨front ++ [z], ?_⟩
            rw [List.cons_append, List.tail_cons, List.length_cons, List.append_assoc]
            rfl
      cases comp with
      | up => exact ih fewer
      | into name =>
          have further := fewer.trans ((List.tail_suffix place).trans (List.suffix_cons name place))
          have bottom : [z] <:+ name :: place := by
            refine List.IsSuffix.trans ⟨List.replicate rest.length z, ?_⟩ further
            rw [List.replicate_succ']
          obtain ⟨last, arrived, below⟩ := ih further
          refine ⟨last, ?_, below⟩
          simp only [FileSystem.scan, planted_directory inner target (not_below inner apart bottom),
            arrived]

/-- A link to a deep place of another outermost directory. -/
def detour (z : ν) (depth : Nat) : Route ν := ⟨true, List.replicate depth (.into z)⟩

private theorem planted_scan_detour (inner : q ≠ []) (target : Route ν) {z : ν}
    (apart : q.getLast? ≠ some z) (depth count : Nat) (rest : List (Comp ν)) :
    (planted q inner target).scan (List.replicate depth z)
        (List.replicate count (.into z) ++ rest) =
      (planted q inner target).scan (List.replicate (depth + count) z) rest := by
  induction count generalizing depth with
  | zero => rfl
  | succ count ih =>
      have deeper : z :: List.replicate depth z = List.replicate (depth + 1) z := rfl
      have bottom : [z] <:+ List.replicate (depth + 1) z :=
        ⟨List.replicate depth z, by rw [List.replicate_succ']⟩
      rw [List.replicate_succ, List.cons_append, FileSystem.scan, deeper,
        planted_directory inner target (not_below inner apart bottom)]
      simp only
      rw [ih, Nat.add_assoc, Nat.add_comm 1]

theorem planted_resolve (inner : q ≠ []) {z : ν} (apart : q.getLast? ≠ some z)
    {comps : List (Comp ν)} (passed : q ∈ visits [] comps) {depth : Nat}
    (far : comps.length < depth) (budget : Nat) :
    ∃ last, (planted q inner (detour z depth)).resolve (budget + 1) [] comps = .ok (last, 1) ∧
      [z] <:+ last := by
  have start : ¬ q <:+ [] := fun below => inner (List.suffix_nil.mp below)
  obtain ⟨holder, rest, link, shorter⟩ := planted_scan_hit inner (detour z depth) start passed
  have deep : List.replicate (rest.length + 1) z <:+ List.replicate depth z := by
    refine ⟨List.replicate (depth - (rest.length + 1)) z, ?_⟩
    rw [← List.replicate_add]
    congr 1
    omega
  obtain ⟨last, arrived, below⟩ := planted_scan_deep inner (detour z depth) apart deep
  refine ⟨last, ?_, below⟩
  have around := planted_scan_detour inner (detour z depth) apart 0 depth rest
  rw [Nat.zero_add, arrived] at around
  have onward := FileSystem.resolve_arrived around budget
  rw [FileSystem.resolve, link]
  change Except.map _ (FileSystem.resolve _ budget [] (List.replicate _ _ ++ rest)) = _
  exact congrArg (Except.map fun found => (found.1, found.2 + 1)) onward

end Planted

end L3Firewall.Foundation.FileTree
