/- Hotreload/Sources
   source: cmd/server/main.go, internal/syncer/syncer.go, internal/opa/embed.go
   digest: The policy file and etcd load into one evaluator; when the update issued last governs. -/

import L3Firewall.Hotreload.Record
import L3Firewall.Opa.Loading
import L3Firewall.Sync.Steps

set_option autoImplicit false
set_option relaxedAutoImplicit false

namespace L3Firewall.Hotreload.Sources

open Foundation.Runs
open Opa.Evaluator (Text)
open Opa.Loading (Toolchain EmbeddedEvaluator NewEmbedded newEmbedded_passes load_passes)
open Sync.Core (Watcher Syncer Flush Outcome GetResponse elapsed maxPolicySize)
open Sync.Steps (loadCurrent_cases)
open Poll
open Record (Replaces)

universe u v

variable {κ : Type u} {ρ : Type v}

/-- The watch loop of the syncer, the poll of the policy file, and the evaluator that both
load into. `issued` is the content of the update made last. -/
structure State (κ : Type u) (ρ : Type v) where
  watcher : Watcher
  disk : Disk
  lastMod : Int
  evaluator : EmbeddedEvaluator κ ρ
  issued : Text

structure Clock where
  now : Nat
  after : Nat

/-- An update is a PUT, delivered in a watch response, or an edit of the file. In between,
the timer of the watch loop fires and the file is polled. -/
inductive Act
  | put (policy : Text) (first last : Clock)
  | timer (clock : Clock)
  | edit (disk : Disk)
  | poll (faults : Faults)

section Model

variable (tc : Toolchain κ ρ) (path : String)

def outcome : Option String → Outcome
  | none => .ok
  | some err => .error err

/-- The callback of the syncer is Load. -/
def State.flush (s : State κ ρ) (clock : Clock) : State κ ρ :=
  let loaded := s.evaluator.Load tc s.watcher.pendingPolicy
  { s with
    watcher := s.watcher.flushPending ⟨clock.now, clock.after, outcome loaded.1⟩
    evaluator :=
      if s.watcher.pendingSet && elapsed s.watcher.lastReload clock.now then loaded.2
      else s.evaluator }

def State.deliver (s : State κ ρ) (policy : Text) : State κ ρ :=
  { s with watcher := s.watcher.processEvent (.put policy), issued := policy }

def State.put (s : State κ ρ) (policy : Text) (first last : Clock) : State κ ρ :=
  ((s.flush tc first).deliver policy).flush tc last

def fileContent (disk : Disk) : Text :=
  (disk.stat.map Inode.content).getD []

def State.poll (s : State κ ρ) (faults : Faults) : State κ ρ :=
  let polled := pollPolicyFile (EmbeddedEvaluator.Load tc) path faults s.disk s.evaluator s.lastMod
  { s with lastMod := polled.lastMod, evaluator := polled.eval }

def next (s : State κ ρ) : Act → Option (State κ ρ)
  | .put policy first last => some (s.put tc policy first last)
  | .timer clock => if s.watcher.pendingSet then some (s.flush tc clock) else none
  | .edit disk => some { s with disk := disk, issued := fileContent disk }
  | .poll faults => some (s.poll tc path faults)

def Valid (policy : Text) : Prop :=
  policy ≠ [] ∧ ∃ query, tc.Passes policy query

/-- Main has read the file and made the evaluator from it, and the first Get of the syncer
has come back. -/
def Started (s : State κ ρ) : Prop :=
  ∃ e ino resp, s.disk.entry = .file ino ∧ NewEmbedded tc (s.disk.inode ino).content = .ok e ∧
    s.lastMod = (s.disk.inode ino).modTime ∧ (∀ bytes, resp = .value bytes → Valid tc bytes) ∧
    s.watcher = ⟨((⟨[], []⟩ : Syncer).loadCurrent resp .ok).2, none, [], false⟩ ∧
    s.evaluator = s.watcher.syncer.calls.foldl (fun e call => (e.Load tc call.policy).2) e ∧
    s.issued = s.evaluator.policy

def sources : Machine (State κ ρ) Act := ⟨Started tc, next tc path⟩

end Model

section Settling

variable (tc : Toolchain κ ρ) (path : String)

/-- Nothing waits in the slot of the syncer, and the file at the path is the one recorded. -/
def Settled (s : State κ ρ) : Prop :=
  s.watcher.pendingSet = false ∧ ∀ node, s.disk.stat = some node → s.lastMod = node.modTime

/-- The text is that of the evaluator, and its query is what Evaluate runs. -/
def Governs (e : EmbeddedEvaluator κ ρ) (policy : Text) : Prop :=
  e.policy = policy ∧ ∃ query, e.prepared = some query ∧ tc.Passes policy query

/-- Updates are valid policies, each issued once the one before has been processed; the file
is replaced by newer ones. -/
def Premises (s : State κ ρ) : Act → Prop
  | .put policy _ _ => Settled s ∧ Valid tc policy
  | .edit disk => Settled s ∧ Replaces s.disk disk ∧ Valid tc (fileContent disk)
  | .timer _ => True
  | .poll _ => True

/-- A PUT repeats what governs, or is within the limit and differs from what etcd delivered
last. A poll under a zero record, with nothing to process, reads what governs. -/
def Effective (s : State κ ρ) : Act → Prop
  | .put policy _ _ =>
      policy = s.evaluator.policy ∨
        policy.length ≤ maxPolicySize ∧ policy ≠ s.watcher.syncer.lastPolicy
  | .poll faults => s.lastMod = 0 → Settled s →
      ∀ data t, readPolicyFile path faults s.disk = .ok (data, t) → data = s.evaluator.policy
  | .edit _ => True
  | .timer _ => True

def UpToDate (s : State κ ρ) : Prop :=
  Settled s → Governs tc s.evaluator s.issued

end Settling

section Loads

variable {tc : Toolchain κ ρ}

private theorem Valid.governs {policy : Text} (valid : Valid tc policy)
    (e : EmbeddedEvaluator κ ρ) :
    (e.Load tc policy).1 = none ∧ Governs tc (e.Load tc policy).2 policy := by
  obtain ⟨given, query, passes⟩ := valid
  obtain ⟨succeeds, prepared, text⟩ := load_passes tc given passes e
  exact ⟨succeeds, text, query, prepared, passes⟩

private theorem Governs.iff_policy {e : EmbeddedEvaluator κ ρ} {text policy : Text}
    (governs : Governs tc e text) : Governs tc e policy ↔ policy = text := by
  refine ⟨fun other => other.1.symm.trans governs.1, fun same => ?_⟩
  rw [same]
  exact governs

end Loads

section Cases

variable {tc : Toolchain κ ρ} {path : String} {s : State κ ρ}

private theorem flush_idle (idle : s.watcher.pendingSet = false) (clock : Clock) :
    s.flush tc clock = s := by
  simp [State.flush, Watcher.flushPending, idle]

private theorem flush_cases (tc : Toolchain κ ρ) (s : State κ ρ) (clock : Clock) :
    s.flush tc clock = s ∨
    s.watcher.pendingSet = true ∧ ∃ w : Watcher, w.pendingSet = false ∧
      s.flush tc clock =
        { s with watcher := w, evaluator := (s.evaluator.Load tc s.watcher.pendingPolicy).2 } := by
  cases pending : s.watcher.pendingSet with
  | false => exact .inl (flush_idle pending clock)
  | true =>
      cases due : elapsed s.watcher.lastReload clock.now with
      | false => exact .inl (by simp [State.flush, Watcher.flushPending, pending, due])
      | true =>
          refine .inr ⟨rfl, _, ?_, by simp only [State.flush, pending, due]; rfl⟩
          simp [Watcher.flushPending, pending, due]

private theorem put_cases (tc : Toolchain κ ρ) (idle : s.watcher.pendingSet = false) (policy : Text)
    (first last : Clock) :
    (maxPolicySize < policy.length ∨ policy = s.watcher.syncer.lastPolicy) ∧
      s.put tc policy first last = { s with issued := policy } ∨
    (policy.length ≤ maxPolicySize ∧ policy ≠ s.watcher.syncer.lastPolicy) ∧
      ∃ w : Watcher,
        (w.pendingSet = true ∧ w.pendingPolicy = policy ∧
          s.put tc policy first last = { s with watcher := w, issued := policy }) ∨
        w.pendingSet = false ∧ s.put tc policy first last = { s with
          watcher := w, issued := policy, evaluator := (s.evaluator.Load tc policy).2 } := by
  unfold State.put
  rw [flush_idle idle]
  by_cases dropped : maxPolicySize < policy.length ∨ policy = s.watcher.syncer.lastPolicy
  · refine .inl ⟨dropped, ?_⟩
    have same : s.watcher.processEvent (.put policy) = s.watcher := by
      rcases dropped with large | repeated
      · simp [Watcher.processEvent, large]
      · simp [Watcher.processEvent, Syncer.applyPolicy, repeated]
    have delivered : s.deliver policy = { s with issued := policy } := by
      unfold State.deliver
      rw [same]
    rw [delivered]
    exact flush_idle (s := { s with issued := policy }) idle last
  · obtain ⟨fits, fresh⟩ := not_or.mp dropped
    refine .inr ⟨⟨by omega, fresh⟩, ?_⟩
    have queued : (s.deliver policy).watcher.pendingSet = true ∧
        (s.deliver policy).watcher.pendingPolicy = policy := by
      simp [State.deliver, Watcher.processEvent, Syncer.applyPolicy, fits, fresh]
    rcases flush_cases tc (s.deliver policy) last with same | ⟨-, w, flushed, same⟩
    · exact ⟨_, .inl ⟨queued.1, queued.2, same⟩⟩
    · rw [queued.2] at same
      exact ⟨w, .inr ⟨flushed, same⟩⟩

private theorem poll_cases (path : String) {node : Inode} (found : s.disk.stat = some node)
    (valid : Valid tc node.content) (faults : Faults) :
    s.poll tc path faults = s ∧
      (∀ data t, readPolicyFile path faults s.disk = .ok (data, t) →
        s.lastMod ≠ 0 ∧ node.modTime ≤ s.lastMod) ∨
    (s.lastMod = 0 ∨ s.lastMod < node.modTime) ∧
      readPolicyFile path faults s.disk = .ok (node.content, node.modTime) ∧
      s.poll tc path faults = { s with
        lastMod := node.modTime, evaluator := (s.evaluator.Load tc node.content).2 } := by
  unfold State.poll pollPolicyFile
  rw [found]
  dsimp only
  by_cases seen : s.lastMod = 0 ∨ s.lastMod < node.modTime
  · have differs : changed s.lastMod node.modTime = true := decide_eq_true seen
    rw [if_pos differs]
    cases read : readPolicyFile path faults s.disk with
    | error err => exact .inl ⟨rfl, nofun⟩
    | ok result =>
        obtain ⟨data, t⟩ := result
        obtain ⟨-, ino, entry, -, rfl, rfl⟩ := readPolicyFile_ok read
        have same : s.disk.inode ino = node := by
          simpa [Disk.stat, entry] using found
        subst same
        refine .inr ⟨seen, rfl, ?_⟩
        obtain ⟨succeeds, -⟩ := valid.governs s.evaluator
        dsimp only
        split
        · next err e failed =>
          rw [failed] at succeeds
          exact absurd succeeds nofun
        · next e loaded => rw [loaded]
  · rw [if_neg (by simpa [changed] using seen)]
    exact .inl ⟨rfl, fun _ _ _ => by omega⟩

end Cases

section Invariant

variable {tc : Toolchain κ ρ} {path : String} {s s' : State κ ρ} {node : Inode}

/-- What holds whether or not updates take effect: `node` is the file at the path, the record
is not ahead of it, and what waits to be processed is the update issued last. -/
structure Consistent (tc : Toolchain κ ρ) (s : State κ ρ) (node : Inode) : Prop where
  found : s.disk.stat = some node
  content : Valid tc node.content
  recorded : s.lastMod ≤ node.modTime
  governed : Governs tc s.evaluator s.evaluator.policy
  waiting : s.watcher.pendingSet = true → Valid tc s.watcher.pendingPolicy ∧
    s.watcher.pendingPolicy = s.issued ∧ s.lastMod = node.modTime
  edited : s.lastMod < node.modTime → node.content = s.issued

private theorem Valid.governed {policy : Text} (valid : Valid tc policy)
    (e : EmbeddedEvaluator κ ρ) :
    Governs tc (e.Load tc policy).2 (e.Load tc policy).2.policy := by
  have governs := (valid.governs e).2
  rwa [governs.1]

private theorem Consistent.settled_iff (consistent : Consistent tc s node) :
    Settled s ↔ s.watcher.pendingSet = false ∧ s.lastMod = node.modTime := by
  refine ⟨fun settled => ⟨settled.1, settled.2 node consistent.found⟩, fun both => ⟨both.1, ?_⟩⟩
  intro other found
  obtain rfl := Option.some.inj (consistent.found.symm.trans found)
  exact both.2

private theorem Consistent.put (consistent : Consistent tc s node) {policy : Text}
    {first last : Clock}
    (settled : Settled s) (valid : Valid tc policy) :
    Consistent tc (s.put tc policy first last) node ∧
      (UpToDate tc (s.put tc policy first last) ↔
        Effective path s (.put policy first last)) := by
  obtain ⟨idle, recorded⟩ := consistent.settled_iff.mp settled
  rcases put_cases tc idle policy first last with
    ⟨dropped, same⟩ | ⟨fresh, w, ⟨queued, slot, same⟩ | ⟨flushed, same⟩⟩
  · rw [same]
    have still : Settled ({ s with issued := policy } : State κ ρ) := settled
    refine ⟨⟨consistent.found, consistent.content, consistent.recorded, consistent.governed,
      fun pending => ?_, fun late => ?_⟩, ?_⟩
    · exact absurd (idle.symm.trans pending) nofun
    · exact absurd recorded (by dsimp only at late; omega)
    · have missed : ¬ (policy.length ≤ maxPolicySize ∧ policy ≠ s.watcher.syncer.lastPolicy) :=
        fun fresh => dropped.elim (fun large => by omega) fresh.2
      rw [show UpToDate tc { s with issued := policy } ↔ Governs tc s.evaluator policy from
        ⟨fun upToDate => upToDate still, fun governs _ => governs⟩, consistent.governed.iff_policy]
      exact (or_iff_left missed).symm
  · rw [same]
    refine ⟨⟨consistent.found, consistent.content, consistent.recorded, consistent.governed,
      fun _ => ⟨slot ▸ valid, slot, recorded⟩, fun late => ?_⟩, ?_⟩
    · exact absurd recorded (by dsimp only at late; omega)
    · exact iff_of_true (fun settled => absurd (queued.symm.trans settled.1) nofun) (.inr fresh)
  · rw [same]
    refine ⟨⟨consistent.found, consistent.content, consistent.recorded,
      valid.governed s.evaluator, fun pending => ?_, fun late => ?_⟩, ?_⟩
    · exact absurd (flushed.symm.trans pending) nofun
    · exact absurd recorded (by dsimp only at late; omega)
    · exact iff_of_true (fun _ => (valid.governs s.evaluator).2) (.inr fresh)

private theorem Consistent.timer (consistent : Consistent tc s node) (clock : Clock) :
    Consistent tc (s.flush tc clock) node ∧
      (UpToDate tc s → UpToDate tc (s.flush tc clock)) := by
  rcases flush_cases tc s clock with same | ⟨pending, w, flushed, same⟩
  · rw [same]
    exact ⟨consistent, id⟩
  · obtain ⟨valid, slot, recorded⟩ := consistent.waiting pending
    rw [same]
    refine ⟨⟨consistent.found, consistent.content, consistent.recorded,
      valid.governed s.evaluator, fun pending => ?_, consistent.edited⟩, fun _ _ => ?_⟩
    · exact absurd (flushed.symm.trans pending) nofun
    · exact slot ▸ (valid.governs s.evaluator).2

private theorem Consistent.edit (consistent : Consistent tc s node) {disk : Disk}
    (settled : Settled s)
    (replaces : Replaces s.disk disk) (valid : Valid tc (fileContent disk)) :
    ∃ newer, Consistent tc { s with disk := disk, issued := fileContent disk } newer ∧
      s.lastMod < newer.modTime := by
  obtain ⟨idle, recorded⟩ := consistent.settled_iff.mp settled
  obtain ⟨ino, newer, entry, inode, -, forward⟩ := replaces
  have later := forward node consistent.found
  have found : disk.stat = some newer := by
    simp [Disk.stat, entry, inode]
  have content : fileContent disk = newer.content := by
    simp [fileContent, found]
  refine ⟨newer, ⟨found, content ▸ valid, by dsimp only; omega, consistent.governed,
    fun pending => ?_, fun _ => content.symm⟩, by omega⟩
  exact absurd (idle.symm.trans pending) nofun

/-- The state after a poll that has loaded the file at the path. -/
def State.reloaded (tc : Toolchain κ ρ) (s : State κ ρ) (node : Inode) : State κ ρ :=
  { s with lastMod := node.modTime, evaluator := (s.evaluator.Load tc node.content).2 }

private theorem Consistent.overruled_iff (consistent : Consistent tc s node) (settled : Settled s)
    (upToDate : UpToDate tc s) :
    UpToDate tc (s.reloaded tc node) ↔ node.content = s.evaluator.policy := by
  obtain ⟨idle, recorded⟩ := consistent.settled_iff.mp settled
  have governs := (consistent.content.governs s.evaluator).2
  have issued : s.evaluator.policy = s.issued := (upToDate settled).1
  have after : Settled (s.reloaded tc node) :=
    ⟨idle, fun other found => recorded.symm.trans (settled.2 other found)⟩
  rw [issued]
  constructor
  · intro still
    exact (governs.iff_policy.mp (still after)).symm
  · intro same _
    exact governs.iff_policy.mpr same.symm

private theorem Consistent.poll (consistent : Consistent tc s node) (faults : Faults) :
    Consistent tc (s.poll tc path faults) node ∧
      (UpToDate tc s →
        (UpToDate tc (s.poll tc path faults) ↔ Effective path s (.poll faults))) := by
  have recorded := consistent.recorded
  rcases poll_cases path consistent.found consistent.content faults with
    ⟨same, unread⟩ | ⟨seen, read, same⟩
  · rw [same]
    refine ⟨consistent, fun upToDate => iff_of_true upToDate fun zero _ data t read => ?_⟩
    exact absurd zero (unread data t read).1
  · rw [same]
    have governs := (consistent.content.governs s.evaluator).2
    refine ⟨⟨consistent.found, consistent.content, le_refl _,
      consistent.content.governed s.evaluator, fun pending => ?_,
      fun late => absurd late (lt_irrefl _)⟩, fun upToDate => ?_⟩
    · obtain ⟨valid, slot, -⟩ := consistent.waiting pending
      exact ⟨valid, slot, rfl⟩
    · by_cases settled : Settled s
      · refine (consistent.overruled_iff settled upToDate).trans ⟨?_, fun effective => ?_⟩
        · intro same _ _ data t found
          rw [read] at found
          obtain ⟨rfl, -⟩ := Prod.mk.inj (Except.ok.inj found)
          exact same
        · have still := (consistent.settled_iff.mp settled).2
          exact effective (seen.resolve_right (by omega)) settled _ _ read
      · -- an update waits: it is the file, or it will go through the slot
        refine iff_of_true (fun after => ?_) fun _ both => absurd both settled
        have idle : s.watcher.pendingSet = false := after.1
        have due : s.lastMod < node.modTime :=
          lt_of_le_of_ne recorded fun still => settled (consistent.settled_iff.mpr ⟨idle, still⟩)
        exact consistent.edited due ▸ governs

private theorem sources_step {a : Act} (consistent : Consistent tc s node)
    (premises : Premises tc s a)
    (taken : next tc path s a = some s') :
    (∃ newer, Consistent tc s' newer) ∧
      (UpToDate tc s → (UpToDate tc s' ↔ Effective path s a)) := by
  cases a with
  | put policy first last =>
      obtain rfl := Option.some.inj taken
      obtain ⟨kept, effect⟩ := consistent.put premises.1 premises.2
      exact ⟨⟨node, kept⟩, fun _ => effect⟩
  | timer clock =>
      simp only [next] at taken
      split at taken
      · obtain rfl := Option.some.inj taken
        obtain ⟨kept, upToDate⟩ := consistent.timer clock
        exact ⟨⟨node, kept⟩, fun before => iff_of_true (upToDate before) trivial⟩
      · exact absurd taken nofun
  | edit disk =>
      obtain rfl := Option.some.inj taken
      obtain ⟨newer, kept, late⟩ := consistent.edit premises.1 premises.2.1 premises.2.2
      refine ⟨⟨newer, kept⟩, fun _ => iff_of_true (fun settled => ?_) trivial⟩
      have recorded : s.lastMod = newer.modTime := (kept.settled_iff.mp settled).2
      omega
  | poll faults =>
      obtain rfl := Option.some.inj taken
      obtain ⟨kept, effect⟩ := consistent.poll faults
      exact ⟨⟨node, kept⟩, effect⟩

private theorem started_consistent (started : Started tc s) :
    (∃ node, Consistent tc s node) ∧ UpToDate tc s := by
  obtain ⟨e, ino, resp, entry, made, recorded, valid, watcher, evaluator, issued⟩ := started
  obtain ⟨given, text, query, prepared, passes⟩ := newEmbedded_passes tc made
  have governed : Governs tc s.evaluator s.evaluator.policy := by
    have base : Governs tc e e.policy := ⟨rfl, query, prepared, text.symm ▸ passes⟩
    rw [evaluator, watcher]
    rcases loadCurrent_cases ⟨[], []⟩ resp .ok with ⟨-, same⟩ | ⟨bytes, -, -, same⟩ |
      ⟨bytes, found, -, same⟩
    · rw [same]
      exact base
    · rw [same]
      exact base
    · rw [same]
      exact (valid bytes found).governed e
  have idle : s.watcher.pendingSet = false := by rw [watcher]
  refine ⟨⟨s.disk.inode ino, ?_, ⟨given, query, passes⟩, le_of_eq recorded, governed, ?_, ?_⟩,
    fun _ => issued ▸ governed⟩
  · simp [Disk.stat, entry]
  · exact fun pending => absurd (idle.symm.trans pending) nofun
  · exact fun late => absurd recorded (by omega)

private theorem reachable_consistent {ok : State κ ρ → Act → Prop}
    (within : ∀ s a, ok s a → Premises tc s a) (reached : (sources tc path).Reachable ok s) :
    ∃ node, Consistent tc s node := by
  refine reached.invariant (fun s => ∃ node, Consistent tc s node) ?_ ?_
  · exact fun s started => (started_consistent started).1
  · rintro s a s' - ⟨node, consistent⟩ meets taken
    exact (sources_step consistent (within s a meets) taken).1

end Invariant

/-- The update issued last. In every run of valid updates, each issued after the one before
was processed, in which every step is effective, the content of the update governs once it
has been processed. In any such run, a step that is not effective is where this fails. -/
theorem issued_governs_iff_effective {κ : Type u} {ρ : Type v} (tc : Toolchain κ ρ) (path : String)
    (s : State κ ρ) :
    ((sources tc path).Reachable (fun s a => Premises tc s a ∧ Effective path s a) s →
      UpToDate tc s) ∧
    ((sources tc path).Reachable (Premises tc) s → UpToDate tc s →
      ∀ a s', Premises tc s a → next tc path s a = some s' →
        (UpToDate tc s' ↔ Effective path s a)) := by
  refine ⟨fun reached => ?_, fun reached upToDate a s' premises taken => ?_⟩
  · refine reached.invariant (UpToDate tc) ?_ ?_
    · exact fun s started => (started_consistent started).2
    · rintro s a s' before upToDate ⟨premises, effective⟩ taken
      obtain ⟨node, consistent⟩ := reachable_consistent (fun _ _ meets => meets.1) before
      exact ((sources_step consistent premises taken).2 upToDate).mpr effective
  · obtain ⟨node, consistent⟩ := reachable_consistent (fun _ _ meets => meets) reached
    exact (sources_step consistent premises taken).2 upToDate

section Example

/-- Every text compiles, and its query is the text. -/
def anyText : Toolchain Text Text := ⟨.ok, fun _ => .ok (), .ok⟩

private theorem anyText_valid (policy : Text) (given : policy ≠ []) : Valid anyText policy :=
  ⟨given, policy, policy, rfl, rfl, rfl⟩

def bootFile : Disk := ⟨.file 0, fun _ => ⟨true, [1], 10⟩, none⟩

def editedFile : Disk := ⟨.file 0, Function.update bootFile.inode 0 ⟨true, [66], 20⟩, none⟩

def bootState : State Text Text where
  watcher := ⟨⟨[], []⟩, none, [], false⟩
  disk := bootFile
  lastMod := 10
  evaluator := ⟨some [1], [1], [1], false⟩
  issued := [1]

/-- etcd delivers a policy, an edit of the file replaces it, and etcd delivers it again. -/
theorem repeated_put_leaves_file_policy :
    ∃ s, (sources anyText "").Reachable (Premises anyText) s ∧ Settled s ∧ s.issued = [65] ∧
      s.evaluator.policy = [66] ∧ s.evaluator.prepared = some [66] := by
  have settled (s : State Text Text) (idle : s.watcher.pendingSet = false)
      (recorded : s.disk.stat.map Inode.modTime = some s.lastMod) : Settled s :=
    ⟨idle, fun node found => by simpa [found] using recorded.symm⟩
  have started : (sources anyText "").Reachable (Premises anyText) bootState :=
    .init ⟨⟨some [1], [1], [1], false⟩, 0, .missing, rfl, rfl, rfl, nofun, rfl, rfl, rfl⟩
  have delivered := started.step (a := .put [65] ⟨0, 0⟩ ⟨0, 0⟩)
    (by exact ⟨settled _ rfl rfl, anyText_valid _ nofun⟩) rfl
  have replaces : Replaces bootFile editedFile :=
    ⟨0, ⟨true, [66], 20⟩, rfl, rfl, rfl, fun old found => by cases found; decide⟩
  have edited := delivered.step (a := .edit editedFile)
    (by exact ⟨settled _ rfl rfl, replaces, anyText_valid _ nofun⟩) rfl
  have polled := edited.step (a := .poll ⟨none, none⟩) (by trivial) rfl
  have repeated := polled.step (a := .put [65] ⟨1000000000, 1000000000⟩ ⟨1000000000, 1000000000⟩)
    (by exact ⟨settled _ rfl rfl, anyText_valid _ nofun⟩) rfl
  exact ⟨_, repeated, settled _ rfl rfl, rfl, rfl, rfl⟩

end Example

end L3Firewall.Hotreload.Sources
