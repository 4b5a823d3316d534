/- Filepath/Lexical
   source: package path/filepath of the Go standard library, as internal/* uses it
   digest: Paths as text and as components, under Clean, Dir and Join. -/

import L3Firewall.Foundation.FileTree
import Mathlib.Data.List.TakeWhile

set_option autoImplicit false
set_option relaxedAutoImplicit false

namespace L3Firewall.Filepath.Lexical

open Foundation.FileTree

abbrev Pathname := List Char

def parts (p : Pathname) : List Pathname := p.splitOn '/'

/-- Empty parts and dots stand for the directory itself. -/
def toComp : Pathname → Option (Comp Pathname)
  | [] => none
  | ['.'] => none
  | ['.', '.'] => some .up
  | name => some (.into name)

def comps (p : Pathname) : List (Comp Pathname) := (parts p).filterMap toComp

def IsAbs (p : Pathname) : Bool := p.head? == some '/'

/-- One component on top of those kept so far, innermost first: a parent step cancels a
name, and is dropped at the root. -/
def push (rooted : Bool) : List (Comp Pathname) → Comp Pathname → List (Comp Pathname)
  | kept, .into name => .into name :: kept
  | .into _ :: kept, .up => kept
  | kept, .up => if rooted then kept else .up :: kept

def compText : Comp Pathname → Pathname
  | .up => ['.', '.']
  | .into name => name

def render (rooted : Bool) (cs : List (Comp Pathname)) : Pathname :=
  let body := ['/'].intercalate (cs.map compText)
  if rooted then '/' :: body else if cs = [] then ['.'] else body

def Clean (p : Pathname) : Pathname :=
  render (IsAbs p) ((comps p).foldl (push (IsAbs p)) []).reverse

/-- A path up to its last slash, and what comes after it. -/
def dirPart (p : Pathname) : Pathname := (p.reverse.dropWhile (· ≠ '/')).reverse

def base (p : Pathname) : Pathname := (p.reverse.takeWhile (· ≠ '/')).reverse

def Dir (p : Pathname) : Pathname := Clean (dirPart p)

/-- The last element, without the slashes that may follow it. -/
def Base (p : Pathname) : Pathname :=
  if p = [] then ['.']
  else
    let last := base (p.reverse.dropWhile (· = '/')).reverse
    if last = [] then ['/'] else last

def Join (a b : Pathname) : Pathname :=
  if a ≠ [] then Clean (a ++ '/' :: b) else if b ≠ [] then Clean b else []

example : Dir "/base/evil/../state/f".toList = "/base/state".toList := by decide

/-! Parts. -/

private theorem parts_append (a b : Pathname) : parts (a ++ '/' :: b) = parts a ++ parts b := by
  simp only [parts, List.splitOn_eq_splitOnP]
  exact List.splitOnP_append_cons a b (by simp)

private theorem parts_of_no_slash {p : Pathname} (plain : '/' ∉ p) : parts p = [p] := by
  have single : (['/'].intercalate [p]).splitOn '/' = [p] :=
    List.splitOn_intercalate '/' (by simpa using plain) (by simp)
  simpa [parts, List.intercalate] using single

private theorem parts_nil : parts [] = [[]] := parts_of_no_slash (by simp)

private theorem parts_intercalate {ws : List Pathname} (plain : ∀ w ∈ ws, '/' ∉ w)
    (some_part : ws ≠ []) :
    parts (['/'].intercalate ws) = ws :=
  List.splitOn_intercalate '/' plain some_part

private theorem intercalate_parts (p : Pathname) : ['/'].intercalate (parts p) = p :=
  List.intercalate_splitOn '/'

private theorem intercalate_cons (w : Pathname) {ws : List Pathname} (more : ws ≠ []) :
    ['/'].intercalate (w :: ws) = w ++ '/' :: ['/'].intercalate ws := by
  cases ws with
  | nil => exact absurd rfl more
  | cons v ws => simp [List.intercalate]

private theorem within_intercalate {ws : List Pathname} {w : Pathname} (member : w ∈ ws) :
    w <:+: ['/'].intercalate ws := by
  induction ws with
  | nil => exact absurd member (by simp)
  | cons v ws ih =>
      by_cases more : ws = []
      · subst more
        obtain rfl := List.mem_singleton.mp member
        exact ⟨[], [], by simp [List.intercalate]⟩
      · rw [intercalate_cons v more]
        rcases List.mem_cons.mp member with rfl | later
        · exact ⟨[], '/' :: ['/'].intercalate ws, by simp⟩
        · refine (ih later).trans ⟨v ++ ['/'], [], by simp⟩

theorem part_within {p w : Pathname} (member : w ∈ parts p) : w <:+: p := by
  have whole := within_intercalate member
  rwa [intercalate_parts] at whole

/-! The last slash. -/

theorem dirPart_append_base (p : Pathname) : dirPart p ++ base p = p := by
  rw [dirPart, base, ← List.reverse_append, List.takeWhile_append_dropWhile, List.reverse_reverse]

private theorem dirPart_of_slash (a : Pathname) {b : Pathname} (plain : '/' ∉ b) :
    dirPart (a ++ '/' :: b) = a ++ ['/'] ∧ base (a ++ '/' :: b) = b := by
  have pass : ∀ c ∈ b.reverse, decide (c ≠ '/') = true := by
    intro c member
    simpa using fun same : c = '/' => plain (same ▸ List.mem_reverse.mp member)
  have flipped : (a ++ '/' :: b).reverse = b.reverse ++ '/' :: a.reverse := by simp
  constructor
  · rw [dirPart, flipped, List.dropWhile_append_of_pos pass]
    simp
  · rw [base, flipped, List.takeWhile_append_of_pos pass]
    simp

private theorem dirPart_of_plain {p : Pathname} (plain : '/' ∉ p) :
    dirPart p = [] ∧ base p = p := by
  have pass : ∀ c ∈ p.reverse, decide (c ≠ '/') = true := by
    intro c member
    simpa using fun same : c = '/' => plain (same ▸ List.mem_reverse.mp member)
  constructor
  · rw [dirPart, List.dropWhile_eq_nil_iff.mpr pass]
    rfl
  · rw [base, List.takeWhile_eq_self_iff.mpr pass, List.reverse_reverse]

private theorem slash_cases (p : Pathname) : '/' ∉ p ∨ ∃ a b, p = a ++ '/' :: b ∧ '/' ∉ b := by
  by_cases member : '/' ∈ p
  · obtain ⟨b, a, flipped, plain⟩ := List.eq_append_cons_of_mem (List.mem_reverse.mpr member)
    refine .inr ⟨a.reverse, b.reverse, ?_, by simpa using plain⟩
    rw [← List.reverse_reverse p, flipped]
    simp
  · exact .inl member

private theorem slash_not_mem_part {p w : Pathname} (member : w ∈ parts p) : '/' ∉ w := by
  induction size : p.length using Nat.strong_induction_on generalizing p with
  | h n ih =>
      rcases slash_cases p with plain | ⟨a, b, rfl, plain⟩
      · rw [parts_of_no_slash plain] at member
        obtain rfl := List.mem_singleton.mp member
        exact plain
      · rw [parts_append, parts_of_no_slash plain] at member
        rcases List.mem_append.mp member with earlier | last
        · refine ih a.length ?_ earlier rfl
          rw [← size, List.length_append, List.length_cons]
          omega
        · obtain rfl := List.mem_singleton.mp last
          exact plain

private theorem comps_append (a b : Pathname) : comps (a ++ '/' :: b) = comps a ++ comps b := by
  rw [comps, parts_append, List.filterMap_append]
  rfl

private theorem comps_nil : comps [] = [] := by
  rw [comps, parts_nil]
  rfl

private theorem comps_of_no_slash {p : Pathname} (plain : '/' ∉ p) :
    comps p = (toComp p).toList := by
  rw [comps, parts_of_no_slash plain]
  cases found : toComp p with
  | none => simp [found]
  | some c => simp [found]

theorem comps_split (p : Pathname) : comps p = comps (dirPart p) ++ (toComp (base p)).toList := by
  rcases slash_cases p with plain | ⟨a, b, rfl, plain⟩
  · obtain ⟨dir, last⟩ := dirPart_of_plain plain
    rw [dir, last, comps_nil, comps_of_no_slash plain, List.nil_append]
  · obtain ⟨dir, last⟩ := dirPart_of_slash a plain
    rw [dir, last, comps_append, comps_append, comps_nil, comps_of_no_slash plain,
      List.append_nil]

theorem isAbs_dirPart (p : Pathname) : IsAbs (dirPart p) = IsAbs p := by
  rcases slash_cases p with plain | ⟨a, b, rfl, plain⟩
  · rw [(dirPart_of_plain plain).1]
    cases p with
    | nil => rfl
    | cons c rest =>
        have other : c ≠ '/' := fun same => plain (same ▸ List.mem_cons_self)
        simp [IsAbs, other]
  · rw [(dirPart_of_slash a plain).1]
    cases a <;> simp [IsAbs]

/-! Names. -/

structure IsName (n : Pathname) : Prop where
  plain : '/' ∉ n
  named : toComp n = some (.into n)

private theorem toComp_into {w n : Pathname} (read : toComp w = some (.into n)) : n = w := by
  unfold toComp at read
  split at read
  · exact absurd read (by simp)
  · exact absurd read (by simp)
  · exact absurd read (by simp)
  · simpa using read.symm

private theorem isName_of_comps {p n : Pathname} (member : .into n ∈ comps p) : IsName n := by
  obtain ⟨w, inside, read⟩ := List.mem_filterMap.mp member
  obtain rfl := toComp_into read
  exact ⟨slash_not_mem_part inside, read⟩

theorem IsName.ne_nil {n : Pathname} (name : IsName n) : n ≠ [] := by
  rintro rfl
  exact absurd name.named (by decide)

def spell (rooted : Bool) (names : List Pathname) : Pathname := render rooted (names.map .into)

theorem spell_eq (rooted : Bool) (names : List Pathname) :
    spell rooted names = if rooted then '/' :: ['/'].intercalate names
      else if names = [] then ['.'] else ['/'].intercalate names := by
  have texts : (names.map Comp.into).map compText = names := by
    simp [Function.comp_def, compText]
  simp [spell, render, texts]

private theorem comps_names {names : List Pathname} (valid : ∀ n ∈ names, IsName n) :
    names.filterMap toComp = names.map .into := by
  induction names with
  | nil => rfl
  | cons n names ih =>
      rw [List.filterMap_cons, (valid n List.mem_cons_self).named, List.map_cons,
        ih fun m later => valid m (List.mem_cons_of_mem n later)]

theorem parts_body {names : List Pathname} (valid : ∀ n ∈ names, IsName n)
    (some_name : names ≠ []) :
    parts (['/'].intercalate names) = names :=
  parts_intercalate (fun n member => (valid n member).plain) some_name

theorem comps_spell (rooted : Bool) {names : List Pathname} (valid : ∀ n ∈ names, IsName n) :
    comps (spell rooted names) = names.map .into := by
  rw [spell_eq]
  by_cases empty : names = []
  · subst empty
    cases rooted <;> decide
  · have body : comps (['/'].intercalate names) = names.map .into := by
      rw [comps, parts_body valid empty, comps_names valid]
    cases rooted with
    | false => simpa [empty] using body
    | true =>
        have slash := comps_append [] (['/'].intercalate names)
        rw [comps_nil, List.nil_append, List.nil_append, body] at slash
        simpa using slash

theorem isAbs_spell (rooted : Bool) {names : List Pathname} (valid : ∀ n ∈ names, IsName n) :
    IsAbs (spell rooted names) = rooted := by
  rw [spell_eq]
  cases rooted with
  | true => simp [IsAbs]
  | false =>
      cases names with
      | nil => decide
      | cons n names =>
          have name := valid n List.mem_cons_self
          have lead : (['/'].intercalate (n :: names)).head? = n.head? := by
            cases names with
            | nil => simp [List.intercalate]
            | cons m names =>
                rw [intercalate_cons n (by simp), List.head?_append_of_ne_nil _ name.ne_nil]
          have other : n.head? ≠ some '/' := by
            intro slash
            exact name.plain (List.mem_of_head? slash)
          simp [IsAbs, lead, other]

theorem spell_ne_nil (rooted : Bool) {names : List Pathname} (valid : ∀ n ∈ names, IsName n) :
    spell rooted names ≠ [] := by
  intro empty
  have read := comps_spell rooted valid
  rw [empty, comps_nil] at read
  obtain rfl : names = [] := List.map_eq_nil_iff.mp read.symm
  rw [spell_eq] at empty
  cases rooted <;> simp at empty

private theorem base_eq_last (p : Pathname) : (parts p).getLast? = some (base p) := by
  rcases slash_cases p with plain | ⟨a, b, rfl, plain⟩
  · rw [parts_of_no_slash plain, (dirPart_of_plain plain).2]
    rfl
  · rw [parts_append, parts_of_no_slash plain, (dirPart_of_slash a plain).2]
    simp

private theorem parts_render {rooted : Bool} {cs : List (Comp Pathname)} (some_comp : cs ≠ [])
    (plain : ∀ c ∈ cs, '/' ∉ compText c) :
    parts (render rooted cs) = (if rooted then [[]] else []) ++ cs.map compText := by
  have body : parts (['/'].intercalate (cs.map compText)) = cs.map compText := by
    apply parts_intercalate
    · intro w member
      obtain ⟨c, inside, rfl⟩ := List.mem_map.mp member
      exact plain c inside
    · simpa using some_comp
  cases rooted with
  | false => simpa [render, some_comp] using body
  | true =>
      have slash := parts_append [] (['/'].intercalate (cs.map compText))
      rw [List.nil_append, parts_nil, body] at slash
      simpa [render] using slash

theorem base_spell {rooted : Bool} {names : List Pathname} {n : Pathname}
    (valid : ∀ m ∈ names ++ [n], IsName m) : base (spell rooted (names ++ [n])) = n := by
  have last := base_eq_last (spell rooted (names ++ [n]))
  have plain : ∀ c ∈ (names ++ [n]).map Comp.into, '/' ∉ compText c := by
    intro c member
    obtain ⟨m, inside, rfl⟩ := List.mem_map.mp member
    exact (valid m inside).plain
  rw [spell, parts_render (by simp) plain] at last
  simpa [spell, compText, eq_comm] using last

theorem comps_dirPart_spell {rooted : Bool} {names : List Pathname} {n : Pathname}
    (valid : ∀ m ∈ names ++ [n], IsName m) :
    comps (dirPart (spell rooted (names ++ [n]))) = names.map .into := by
  have whole := comps_split (spell rooted (names ++ [n]))
  rw [comps_spell rooted valid, base_spell valid, (valid n (by simp)).named,
    List.map_append] at whole
  exact (List.append_cancel_right whole).symm

/-! Cleaning. -/

private theorem foldl_push_names (rooted : Bool) (kept : List (Comp Pathname))
    (names : List Pathname) :
    (names.map .into).foldl (push rooted) kept = names.reverse.map .into ++ kept := by
  induction names generalizing kept with
  | nil => rfl
  | cons n names ih =>
      rw [List.map_cons, List.foldl_cons, ih]
      simp [push]

private theorem Clean_names {p : Pathname} {names : List Pathname}
    (read : comps p = names.map .into) :
    Clean p = spell (IsAbs p) names := by
  rw [Clean, read, foldl_push_names, List.append_nil, spell, ← List.map_reverse,
    List.reverse_reverse]

theorem Join_spell {rooted : Bool} {names : List Pathname} {n : Pathname}
    (valid : ∀ m ∈ names ++ [n], IsName m) :
    Join (spell rooted names) n = spell rooted (names ++ [n]) := by
  have before : ∀ m ∈ names, IsName m := fun m member => valid m (List.mem_append_left _ member)
  have name := valid n (by simp)
  have filled := spell_ne_nil rooted before
  have read : comps (spell rooted names ++ '/' :: n) = (names ++ [n]).map .into := by
    rw [comps_append, comps_spell rooted before, comps_of_no_slash name.plain, name.named,
      List.map_append]
    rfl
  have same : IsAbs (spell rooted names ++ '/' :: n) = rooted := by
    rw [IsAbs, List.head?_append_of_ne_nil _ filled]
    exact isAbs_spell rooted before
  rw [Join, if_pos filled, Clean_names read, same]

private theorem push_mem {rooted : Bool} {kept : List (Comp Pathname)} {c d : Comp Pathname}
    (member : c ∈ push rooted kept d) : c ∈ kept ∨ c = d := by
  unfold push at member
  split at member
  · rcases List.mem_cons.mp member with same | old
    · exact .inr same
    · exact .inl old
  · exact .inl (List.mem_cons_of_mem _ member)
  · split at member
    · exact .inl member
    · rcases List.mem_cons.mp member with same | old
      · exact .inr same
      · exact .inl old

theorem foldl_push_mem {rooted : Bool} {kept cs : List (Comp Pathname)} {c : Comp Pathname}
    (member : c ∈ cs.foldl (push rooted) kept) : c ∈ kept ∨ c ∈ cs := by
  induction cs generalizing kept with
  | nil => exact .inl member
  | cons d cs ih =>
      rcases ih member with pushed | later
      · rcases push_mem pushed with old | rfl
        · exact .inl old
        · exact .inr List.mem_cons_self
      · exact .inr (List.mem_cons_of_mem d later)

private theorem up_stays {kept cs : List (Comp Pathname)} (member : .up ∈ kept) :
    .up ∈ cs.foldl (push false) kept := by
  induction cs generalizing kept with
  | nil => exact member
  | cons c cs ih =>
      apply ih
      cases c with
      | into n => exact List.mem_cons_of_mem _ member
      | up =>
          cases kept with
          | nil => exact absurd member (by simp)
          | cons d kept =>
              cases d with
              | up => exact List.mem_cons_self
              | into n => exact (List.mem_cons.mp member).resolve_left (by simp)

/-- The components that Clean keeps, innermost first. -/
def cleaned (p : Pathname) : List (Comp Pathname) := (comps p).foldl (push (IsAbs p)) []

private theorem push_land {rooted : Bool} (place : Place Pathname) {cs : List (Comp Pathname)}
    (down : .up ∉ cs.foldl (push rooted) (place.map .into)) :
    cs.foldl (push rooted) (place.map .into) = (land place cs).map .into := by
  induction cs generalizing place with
  | nil => rfl
  | cons c cs ih =>
      cases c with
      | into n => exact ih (n :: place) down
      | up =>
          cases place with
          | cons n place => exact ih place down
          | nil =>
              cases rooted with
              | true => exact ih [] down
              | false =>
                  have first : Comp.up ∈ push false [] .up := List.mem_cons_self
                  exact absurd (up_stays first) down

theorem land_shift (place : Place Pathname) {cs : List (Comp Pathname)}
    (down : .up ∉ cs.foldl (push false) (place.map .into)) (start : Place Pathname) :
    land (place ++ start) cs = land place cs ++ start ∧
      visits (place ++ start) cs = (visits place cs).map (· ++ start) := by
  induction cs generalizing place with
  | nil => exact ⟨rfl, rfl⟩
  | cons c cs ih =>
      cases c with
      | into n =>
          obtain ⟨lands, passes⟩ := ih (n :: place) down
          exact ⟨lands, congrArg (List.cons (n :: (place ++ start))) passes⟩
      | up =>
          cases place with
          | cons n place => exact ih place down
          | nil =>
              have first : Comp.up ∈ push false [] .up := List.mem_cons_self
              exact absurd (up_stays first) down

private theorem mem_land {place : Place Pathname} {cs : List (Comp Pathname)} {n : Pathname}
    (member : n ∈ land place cs) : n ∈ place ∨ .into n ∈ cs := by
  induction cs generalizing place with
  | nil => exact .inl member
  | cons c cs ih =>
      rcases ih member with stepped | later
      · cases c with
        | up => exact .inl (List.mem_of_mem_tail stepped)
        | into m =>
            rcases List.mem_cons.mp stepped with rfl | old
            · exact .inr List.mem_cons_self
            · exact .inl old
      · exact .inr (List.mem_cons_of_mem c later)

/-- The names on the cleaned path, outermost first. -/
def cleanNames (p : Pathname) : List Pathname := (land [] (comps p)).reverse

theorem cleanNames_valid (p : Pathname) : ∀ n ∈ cleanNames p, IsName n := by
  intro n member
  rcases mem_land (List.mem_reverse.mp member) with start | inside
  · exact absurd start (by simp)
  · exact isName_of_comps inside

theorem Clean_eq {p : Pathname} (down : .up ∉ cleaned p) :
    Clean p = spell (IsAbs p) (cleanNames p) := by
  have kept : cleaned p = (land [] (comps p)).map .into := push_land [] down
  rw [Clean, show (comps p).foldl (push (IsAbs p)) [] = cleaned p from rfl, kept,
    ← List.map_reverse]
  rfl

theorem dotdot_of_up {p : Pathname} (climbs : .up ∈ cleaned p) : ['.', '.'] ∈ parts (Clean p) := by
  have plain : ∀ c ∈ (cleaned p).reverse, '/' ∉ compText c := by
    intro c member
    rcases foldl_push_mem (List.mem_reverse.mp member) with none_kept | inside
    · exact absurd none_kept (by simp)
    · cases c with
      | up => decide
      | into n => exact (isName_of_comps inside).plain
  have some_comp : (cleaned p).reverse ≠ [] := by
    intro empty
    rw [List.reverse_eq_nil_iff.mp empty] at climbs
    exact absurd climbs (by simp)
  rw [Clean, show (comps p).foldl (push (IsAbs p)) [] = cleaned p from rfl,
    parts_render some_comp plain]
  apply List.mem_append_right
  exact List.mem_map.mpr ⟨.up, List.mem_reverse.mpr climbs, rfl⟩

/-! Cleaning only drops characters. -/

private theorem land_sublist (place : Place Pathname) (ws : List Pathname) :
    (land place (ws.filterMap toComp)).reverse.Sublist (place.reverse ++ ws) := by
  induction ws generalizing place with
  | nil => simp [land]
  | cons w ws ih =>
      have more : (place.reverse ++ ws).Sublist (place.reverse ++ w :: ws) :=
        (List.sublist_cons_self w ws).append_left _
      cases read : toComp w with
      | none =>
          rw [List.filterMap_cons_none read]
          exact (ih place).trans more
      | some c =>
          rw [List.filterMap_cons_some read]
          cases c with
          | up =>
              have shorter : place.tail.reverse.Sublist place.reverse :=
                (List.tail_sublist place).reverse
              exact (ih place.tail).trans ((shorter.append_right ws).trans more)
          | into n =>
              obtain rfl := toComp_into read
              have grown := ih (n :: place)
              simp only [List.reverse_cons, List.append_assoc, List.singleton_append] at grown
              exact grown

private theorem cleanNames_sublist (p : Pathname) : (cleanNames p).Sublist (parts p) :=
  land_sublist [] (parts p)

private theorem intercalate_sublist {ws vs : List Pathname} (fewer : ws.Sublist vs)
    (some_part : ws ≠ []) :
    (['/'].intercalate ws).Sublist (['/'].intercalate vs) := by
  induction fewer with
  | slnil => exact absurd rfl some_part
  | @cons ws vs v fewer ih =>
      have more : vs ≠ [] := by
        rintro rfl
        exact some_part (List.sublist_nil.mp fewer)
      rw [intercalate_cons v more]
      exact (ih some_part).trans
        ((List.sublist_cons_self _ _).trans (List.sublist_append_right v _))
  | @cons_cons ws vs v fewer ih =>
      by_cases last : ws = []
      · subst last
        have alone : ['/'].intercalate [v] = v := by simp [List.intercalate]
        rw [alone]
        by_cases more : vs = []
        · rw [more, alone]
        · rw [intercalate_cons v more]
          exact List.sublist_append_left v _
      · have more : vs ≠ [] := by
          rintro rfl
          exact last (List.sublist_nil.mp fewer)
        rw [intercalate_cons v last, intercalate_cons v more]
        exact ((ih last).cons_cons '/').append_left v

theorem spell_sublist {p : Pathname} {names : List Pathname} (some_name : names ≠ [])
    (lead : names.Sublist (cleanNames p)) : (spell (IsAbs p) names).Sublist p := by
  rw [spell_eq]
  cases rooted : IsAbs p with
  | false =>
      have whole := intercalate_sublist (lead.trans (cleanNames_sublist p)) some_name
      rw [intercalate_parts] at whole
      simpa [some_name] using whole
  | true =>
      cases p with
      | nil => exact absurd rooted (by decide)
      | cons c rest =>
          obtain rfl : c = '/' := by simpa [IsAbs] using rooted
          have same : cleanNames ('/' :: rest) = cleanNames rest := by
            have slash := comps_append [] rest
            rw [List.nil_append, comps_nil, List.nil_append] at slash
            rw [cleanNames, slash]
            rfl
          rw [same] at lead
          have whole := intercalate_sublist (lead.trans (cleanNames_sublist rest)) some_name
          rw [intercalate_parts] at whole
          simpa using whole.cons_cons '/'

end L3Firewall.Filepath.Lexical
