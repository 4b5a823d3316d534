/- Foundation/Rego
   digest: The part of Rego that a deny-override policy uses: documents, terms that may be
   undefined, complete rules with their conflicts, and the decision of such a policy. -/

import Mathlib.Data.List.Dedup
import Mathlib.Data.List.Infix
import Mathlib.Data.List.Sort
import Mathlib.Data.Rat.Defs
import Mathlib.Data.String.Basic

set_option autoImplicit false
set_option relaxedAutoImplicit false

namespace L3Firewall.Foundation.Rego

inductive Scalar
  | null
  | bool (b : Bool)
  | num (q : ℚ)
  | str (s : String)
  deriving DecidableEq

/-- Documents. Sets hold scalars only. -/
inductive Value
  | scalar (s : Scalar)
  | array (items : List Value)
  | set (members : List Scalar)
  | object (fields : List (String × Value))

/-- A term is undefined when a reference leads nowhere or a built-in fails. -/
abbrev Term := Option Value

section Terms

def null : Value := .scalar .null

def bool (b : Bool) : Value := .scalar (.bool b)

def num (q : ℚ) : Value := .scalar (.num q)

def str (s : String) : Value := .scalar (.str s)

/-- The value of a reference of one step, `v.k`. -/
def Value.field (v : Value) (k : String) : Term :=
  match v with
  | .object fields => fields.lookup k
  | _ => none

def Value.ref (v : Value) : List String → Term
  | [] => some v
  | k :: path => (v.field k).bind fun w => w.ref path

/-- A statement fails when it is false and when it is undefined. -/
def equal : Term → Term → Bool
  | some (.scalar a), some (.scalar b) => decide (a = b)
  | _, _ => false

def unequal : Term → Term → Bool
  | some (.scalar a), some (.scalar b) => decide (a ≠ b)
  | _, _ => false

/-- Values of different types are ordered by their types. -/
def Scalar.lt : Scalar → Scalar → Bool
  | .null, .null => false
  | .null, _ => true
  | .bool _, .null => false
  | .bool a, .bool b => !a && b
  | .bool _, _ => true
  | .num p, .num q => decide (p < q)
  | .num _, .str _ => true
  | .num _, _ => false
  | .str s, .str t => decide (s < t)
  | .str _, _ => false

def less : Term → Term → Bool
  | some (.scalar a), some (.scalar b) => a.lt b
  | _, _ => false

def greater (a b : Term) : Bool := less b a

def atMost : Term → Term → Bool
  | some (.scalar a), some (.scalar b) => !b.lt a
  | _, _ => false

def atLeast (a b : Term) : Bool := atMost b a

/-- The statement `xs[x]` for a set. -/
def member : Term → Term → Bool
  | some (.set members), some (.scalar a) => decide (a ∈ members)
  | _, _ => false

def count : Term → Term
  | some (.array items) => some (num items.length)
  | some (.set members) => some (num members.dedup.length)
  | some (.object fields) => some (num fields.length)
  | some (.scalar (.str s)) => some (num s.length)
  | _ => none

/-- The elements that `some x in xs` runs through. -/
def elements : Term → List Value
  | some (.array items) => items
  | some (.set members) => members.map Value.scalar
  | some (.object fields) => fields.map Prod.snd
  | _ => []

def contains : Term → String → Bool
  | some (.scalar (.str s)), sub => decide (sub.toList <:+: s.toList)
  | _, _ => false

/-- Built-in split, by a separator of one character. -/
def split : Term → Char → Term
  | some (.scalar (.str s)), sep =>
      some (.array ((s.toList.splitOn sep).map fun part => str (String.ofList part)))
  | _, _ => none

/-- The value of `xs[i]` for an array. -/
def item : Term → Nat → Term
  | some (.array items), i => items[i]?
  | _, _ => none

end Terms

/-- Built-ins whose meaning is not fixed here; `none` is a failed call. -/
structure Builtins where
  cidrContains : String → String → Option Bool
  toNumber : String → Option ℚ
  numberText : ℚ → String
  termText : Value → String

namespace Builtins

variable (b : Builtins)

def net_cidr_contains : Term → Term → Bool
  | some (.scalar (.str cidr)), some (.scalar (.str ip)) => b.cidrContains cidr ip = some true
  | _, _ => false

def to_number : Term → Term
  | some (.scalar (.num q)) => some (num q)
  | some (.scalar (.str s)) => (b.toNumber s).map num
  | _ => none

/-- The text of an argument under `%v` and `%s`. -/
def text : Value → String
  | .scalar .null => "null"
  | .scalar (.bool true) => "true"
  | .scalar (.bool false) => "false"
  | .scalar (.num q) => b.numberText q
  | .scalar (.str s) => s
  | v => b.termText v

/-- The verbs are replaced one by one. A template has as many as it gets arguments. -/
def format : List Char → List Value → List Char
  | '%' :: 'v' :: rest, arg :: args => (b.text arg).toList ++ format rest args
  | '%' :: 's' :: rest, arg :: args => (b.text arg).toList ++ format rest args
  | c :: rest, args => c :: format rest args
  | [], _ => []

/-- Undefined when an argument is. -/
def sprintf (template : String) (args : List Term) : Option String :=
  (args.mapM id).map fun values => String.ofList (b.format template.toList values)

private theorem format_cons {c : Char} (letter : c ≠ '%') (rest : List Char) (args : List Value) :
    b.format (c :: rest) args = c :: b.format rest args := by
  rw [format.eq_def]
  split
  · next same => exact absurd (List.cons.inj same).1 letter
  · next same => exact absurd (List.cons.inj same).1 letter
  · next same _ _ =>
    obtain ⟨rfl, rfl⟩ := List.cons.inj same
    rfl
  · next same => exact absurd same nofun

theorem sprintf_of_defined (template : String) (values : List Value) :
    b.sprintf template (values.map some) =
      some (String.ofList (b.format template.toList values)) := by
  have all : (values.map some).mapM id = some values := by
    induction values with
    | nil => rfl
    | cons v values ih => simp [List.mapM_cons, ih]
  rw [sprintf, all]
  rfl

private theorem format_append {l : List Char} (plain : '%' ∉ l) (rest : List Char)
    (args : List Value) :
    b.format (l ++ rest) args = l ++ b.format rest args := by
  induction l with
  | nil => rfl
  | cons c l ih =>
      rw [List.mem_cons, not_or] at plain
      rw [List.cons_append, b.format_cons (Ne.symm plain.1), ih plain.2, List.cons_append]

theorem sprintf_opens {template s : String} {l rest : List Char} {args : List Term}
    (starts : template.toList = l ++ rest) (plain : '%' ∉ l)
    (said : b.sprintf template args = some s) : l <+: s.toList := by
  obtain ⟨values, -, rfl⟩ := Option.map_eq_some_iff.mp said
  rw [starts, b.format_append plain, String.toList_ofList]
  exact List.prefix_append _ _

theorem sprintf_verb {template : String} (l rest : List Char)
    (starts : template.toList = l ++ '%' :: 'v' :: rest) (plain : '%' ∉ l) (plain' : '%' ∉ rest)
    (arg : Value) :
    b.sprintf template [some arg] = some (String.ofList (l ++ (b.text arg).toList ++ rest)) := by
  have said : b.sprintf template [some arg] = _ := b.sprintf_of_defined template [arg]
  have kept := b.format_append plain' [] []
  rw [List.append_nil] at kept
  rw [said, starts, b.format_append plain, format, kept, format, List.append_nil,
    List.append_assoc]

theorem sprintf_spoken {template : String} {c : Char} {rest : List Char}
    (starts : template.toList = c :: rest) (letter : c ≠ '%') {args : List Term}
    (defined : ∃ values : List Value, args = values.map some) :
    ∃ s, b.sprintf template args = some s ∧ s ≠ "" := by
  obtain ⟨values, rfl⟩ := defined
  refine ⟨_, b.sprintf_of_defined template values, fun empty => ?_⟩
  have chars := congrArg String.toList empty
  rw [starts, b.format_cons letter, String.toList_ofList] at chars
  exact absurd chars nofun

end Builtins

section Rules

inductive Outcome
  | undefined
  | value (s : Scalar)
  | conflict
  deriving DecidableEq

/-- From the values its bodies assign. Two distinct ones are a conflict. -/
def complete : List Scalar → Outcome
  | [] => .undefined
  | v :: vs => if vs.all (fun w => decide (w = v)) then .value v else .conflict

def completeOr (default : Scalar) : List Scalar → Outcome
  | [] => .value default
  | v :: vs => complete (v :: vs)

private theorem complete_of_forall {values : List Scalar} {v : Scalar} (some_left : values ≠ [])
    (same : ∀ w ∈ values, w = v) : complete values = .value v := by
  cases values with
  | nil => exact absurd rfl some_left
  | cons w ws =>
      obtain rfl := same w List.mem_cons_self
      have rest : ws.all (fun u => decide (u = w)) = true := by
        rw [List.all_eq_true]
        intro u member
        exact decide_eq_true (same u (List.mem_cons_of_mem _ member))
      rw [complete, if_pos rest]

private theorem completeOr_of_forall {default v : Scalar} {values : List Scalar}
    (some_left : values ≠ [])
    (same : ∀ w ∈ values, w = v) : completeOr default values = .value v := by
  cases values with
  | nil => exact absurd rfl some_left
  | cons w ws => exact complete_of_forall some_left same

def sort (strings : List String) : List String := strings.dedup.insertionSort (· ≤ ·)

private theorem mem_sort {strings : List String} {s : String} : s ∈ sort strings ↔ s ∈ strings := by
  rw [sort, List.mem_insertionSort, List.mem_dedup]

private theorem sort_head_least {strings rest : List String} {first : String}
    (sorted : sort strings = first :: rest) :
    first ∈ strings ∧ ∀ s ∈ strings, first ≤ s := by
  have ordered : (sort strings).Pairwise (· ≤ ·) := List.pairwise_insertionSort (· ≤ ·) _
  rw [sorted, List.pairwise_cons] at ordered
  refine ⟨mem_sort.mp (sorted ▸ List.mem_cons_self), fun s member => ?_⟩
  have inside : s ∈ first :: rest := sorted ▸ mem_sort.mpr member
  rcases List.mem_cons.mp inside with rfl | later
  · exact le_rfl
  · exact ordered.1 s later

end Rules

section DenyOverride

/-- One denial of a deny-override policy, evaluated on an input: the bodies of its rule,
the number of heads `allow := false` that name the rule, and the strings it adds to the
set of reasons. -/
structure DenyRule where
  name : String
  bodies : List Bool
  heads : Nat
  reasons : List String

def DenyRule.holds (r : DenyRule) : Bool := r.bodies.any id

/-- Every body of the rule that holds assigns true. -/
def DenyRule.outcome (r : DenyRule) : Outcome :=
  complete ((r.bodies.filter id).map fun _ => .bool true)

/-- The document of a policy, as far as its decision goes. -/
structure Document where
  denials : List (String × Outcome)
  allow : Outcome
  denyReasons : List String
  denyReason : Outcome
  reason : Outcome
  deriving DecidableEq

def allowValues (rules : List DenyRule) : List Scalar :=
  rules.flatMap fun r => if r.holds then List.replicate r.heads (.bool false) else []

def denyReasonValues (denyReasons : List String) : List String := (sort denyReasons).take 1

def reasonValues (denyReasons : List String) : List String :=
  (denyReasonValues denyReasons).filter fun s => decide (s ≠ "")

def document (rules : List DenyRule) : Document :=
  let denyReasons := rules.flatMap DenyRule.reasons
  { denials := rules.map fun r => (r.name, r.outcome)
    allow := completeOr (.bool true) (allowValues rules)
    denyReasons := denyReasons
    denyReason := complete ((denyReasonValues denyReasons).map Scalar.str)
    reason := complete ((reasonValues denyReasons).map Scalar.str) }

/-- No complete rule of the document has two values. -/
def Document.conflictFree (d : Document) : Bool :=
  d.denials.all (fun e => decide (e.2 ≠ .conflict)) && decide (d.allow ≠ .conflict) &&
    decide (d.denyReason ≠ .conflict) && decide (d.reason ≠ .conflict)

/-- A conflict in any rule fails the whole query. -/
def evaluate (rules : List DenyRule) : Except String Document :=
  if (document rules).conflictFree then .ok (document rules)
  else .error "eval_conflict_error: complete rules must not produce multiple outputs"

/-- A denial that some head reports and that explains itself exactly when it holds. -/
structure Explained (r : DenyRule) : Prop where
  headed : 0 < r.heads
  explained : r.holds = true ↔ r.reasons ≠ []
  spoken : ∀ s ∈ r.reasons, s ≠ ""

private theorem DenyRule.outcome_eq (r : DenyRule) :
    r.outcome = if r.holds then .value (.bool true) else .undefined := by
  unfold DenyRule.outcome
  split
  · next holds =>
    obtain ⟨b, member, true_⟩ := List.any_eq_true.mp holds
    refine complete_of_forall ?_ ?_
    · intro none_left
      have empty := List.map_eq_nil_iff.mp none_left
      exact List.not_mem_nil (empty ▸ List.mem_filter.mpr ⟨member, true_⟩)
    · intro w assigned
      obtain ⟨-, -, rfl⟩ := List.mem_map.mp assigned
      rfl
  · next fails =>
    have empty : r.bodies.filter id = [] := by
      rw [List.filter_eq_nil_iff]
      intro b member holds
      exact fails (List.any_eq_true.mpr ⟨b, member, holds⟩)
    rw [empty]
    rfl

section Decision

variable {rules : List DenyRule}

theorem allow_of_denied (all : ∀ r ∈ rules, Explained r) (denied : ∃ r ∈ rules, r.holds = true) :
    (document rules).allow = .value (.bool false) := by
  obtain ⟨r, member, holds⟩ := denied
  have assigned : Scalar.bool false ∈ allowValues rules := by
    refine List.mem_flatMap.mpr ⟨r, member, ?_⟩
    rw [if_pos holds]
    exact List.mem_replicate.mpr ⟨(all r member).headed.ne', rfl⟩
  refine completeOr_of_forall (List.ne_nil_of_mem assigned) fun w assigned => ?_
  obtain ⟨q, -, head⟩ := List.mem_flatMap.mp assigned
  split at head
  · exact (List.mem_replicate.mp head).2
  · exact absurd head List.not_mem_nil

theorem allow_of_not_denied (passed : ∀ r ∈ rules, r.holds = false) :
    (document rules).allow = .value (.bool true) := by
  have empty : allowValues rules = [] := by
    rw [allowValues, List.flatMap_eq_nil_iff]
    intro r member
    rw [passed r member]
    rfl
  change completeOr (.bool true) (allowValues rules) = _
  rw [empty]
  rfl

theorem denied_iff_reasons (all : ∀ r ∈ rules, Explained r) :
    (∃ r ∈ rules, r.holds = true) ↔ (document rules).denyReasons ≠ [] := by
  constructor
  · rintro ⟨r, member, holds⟩
    obtain ⟨s, given⟩ := List.exists_mem_of_ne_nil _ ((all r member).explained.mp holds)
    exact List.ne_nil_of_mem (List.mem_flatMap.mpr ⟨r, member, given⟩)
  · intro given
    obtain ⟨s, member⟩ := List.exists_mem_of_ne_nil _ given
    obtain ⟨r, inside, own⟩ := List.mem_flatMap.mp member
    exact ⟨r, inside, (all r inside).explained.mpr (List.ne_nil_of_mem own)⟩

theorem reason_least (all : ∀ r ∈ rules, Explained r) (given : (document rules).denyReasons ≠ []) :
    ∃ s ∈ (document rules).denyReasons, (∀ t ∈ (document rules).denyReasons, s ≤ t) ∧
      (document rules).denyReason = .value (.str s) ∧
      (document rules).reason = .value (.str s) := by
  obtain ⟨any, member⟩ := List.exists_mem_of_ne_nil _ given
  cases sorted : sort (document rules).denyReasons with
  | nil => exact absurd (mem_sort.mpr member) (by rw [sorted]; exact List.not_mem_nil)
  | cons first rest =>
      obtain ⟨inside, least⟩ := sort_head_least sorted
      have first_only : denyReasonValues (document rules).denyReasons = [first] := by
        rw [denyReasonValues, sorted]
        rfl
      have spoken : first ≠ "" := by
        obtain ⟨r, member, own⟩ := List.mem_flatMap.mp inside
        exact (all r member).spoken first own
      refine ⟨first, inside, least, ?_, ?_⟩
      · change complete ((denyReasonValues (document rules).denyReasons).map Scalar.str) = _
        rw [first_only]
        rfl
      · change complete ((reasonValues (document rules).denyReasons).map Scalar.str) = _
        have kept : reasonValues (document rules).denyReasons = [first] := by
          rw [reasonValues, first_only]
          exact List.filter_cons_of_pos (p := fun s => decide (s ≠ "")) (decide_eq_true spoken)
        rw [kept]
        rfl

theorem reason_undefined (none_given : (document rules).denyReasons = []) :
    (document rules).denyReason = .undefined ∧ (document rules).reason = .undefined := by
  have empty : denyReasonValues (document rules).denyReasons = [] := by
    rw [none_given]
    rfl
  constructor
  · change complete ((denyReasonValues (document rules).denyReasons).map Scalar.str) = _
    rw [empty]
    rfl
  · change complete ((reasonValues (document rules).denyReasons).map Scalar.str) = _
    rw [reasonValues, empty]
    rfl

theorem evaluate_ok (all : ∀ r ∈ rules, Explained r) :
    evaluate rules = .ok (document rules) := by
  have denials : ∀ e ∈ (document rules).denials, decide (e.2 ≠ Outcome.conflict) = true := by
    intro e member
    obtain ⟨r, -, rfl⟩ := List.mem_map.mp member
    dsimp only
    rw [r.outcome_eq]
    split <;> rfl
  have allow : (document rules).allow ≠ .conflict := by
    by_cases denied : ∃ r ∈ rules, r.holds = true
    · rw [allow_of_denied all denied]
      exact nofun
    · rw [allow_of_not_denied fun r member =>
        Bool.eq_false_iff.mpr fun holds => denied ⟨r, member, holds⟩]
      exact nofun
  have reasons : (document rules).denyReason ≠ .conflict ∧ (document rules).reason ≠ .conflict := by
    by_cases given : (document rules).denyReasons = []
    · obtain ⟨first, second⟩ := reason_undefined given
      rw [first, second]
      exact ⟨nofun, nofun⟩
    · obtain ⟨s, -, -, first, second⟩ := reason_least all given
      rw [first, second]
      exact ⟨nofun, nofun⟩
  unfold evaluate
  rw [if_pos]
  unfold Document.conflictFree
  rw [List.all_eq_true.mpr denials, decide_eq_true allow, decide_eq_true reasons.1,
    decide_eq_true reasons.2]
  rfl

end Decision

end DenyOverride

end L3Firewall.Foundation.Rego
