/- Threatintel/Feed
   source: internal/threatintel/threatintel.go
   digest: Feeds are read line by line, however they arrive and however long their lines are. -/

import L3Firewall.Foundation.ByteReader
import L3Firewall.Foundation.Whitespace
import L3Firewall.Threatintel.Entries

set_option autoImplicit false
set_option relaxedAutoImplicit false

namespace L3Firewall.Threatintel.Feed

open Foundation.ByteReader
open Foundation.Utf8 (Bytes encode)
open Foundation.Whitespace
open Entries (Blocklist)

def maxFeedResponseSize : Nat := 50 * 1024 * 1024

def maxFeedLineSize : Nat := 1024 * 1024

def newline : UInt8 := 0x0A

def hash : UInt8 := 0x23

section Parsing

private theorem ReadSlice_left {b b' : Reader} {line : Bytes} {stop : Option Stop}
    (read : b.ReadSlice newline = ((line, stop), b')) (further : ∀ f, stop ≠ some (.fault f)) :
    b'.stream.data.length < b.stream.data.length := by
  have sliced := ReadSlice_sliced b newline
  have sized := b.sized
  rw [read] at sliced
  generalize b'.stream = s' at sliced
  cases sliced with
  | line split clear short =>
      rw [split, List.length_append, List.length_cons]
      dsimp only
      omega
  | bufferFull split clear full more =>
      rw [split, List.length_append]
      dsimp only
      omega
  | fault clear short => exact absurd rfl (further _)

/-- The rest of an overlong line is read in chunks and dropped. -/
def drain (b : Reader) : Option Fault × Reader :=
  match read : b.ReadSlice newline with
  | ((_, some .bufferFull), b') =>
      have := ReadSlice_left read (by simp)
      drain b'
  | ((_, some (.fault f)), b') => (some f, b')
  | ((_, none), b') => (none, b')
termination_by b.stream.data.length

/-- The entry in a line, which may be blank or a comment. -/
def entryOf (line : Bytes) : Option Bytes :=
  let lineStr := TrimSpace line
  if lineStr = [] ∨ lineStr.head? = some hash then none else some lineStr

variable {σ : Type} (add : σ → Bytes → σ)

/-- One line of the right size: its entry is added and counted. -/
def accept (acc : Nat × σ) (line : Bytes) : Nat × σ :=
  match entryOf line with
  | none => acc
  | some lineStr => (acc.1 + 1, add acc.2 lineStr)

/-- Reading ends without an error at the end of the stream. -/
def returned : Fault → Option Fault
  | .eof => none
  | .failed text => some (.failed text)

/-- What is left of a stream after the rest of a line, unless the stream ends before it. -/
inductive Drained (s : Stream) : Option Fault → Stream → Prop
  | line {l rest : Bytes} (split : s.data = l ++ newline :: rest) (clear : newline ∉ l) :
      Drained s none { s with data := rest }
  | ended (clear : newline ∉ s.data) (s' : Stream) : Drained s (some s.fault) s'

private theorem drain_drained (b : Reader) : Drained b.stream (drain b).1 (drain b).2.stream := by
  fun_induction drain b with
  | case1 b line b' read shorter ih =>
      have sliced := ReadSlice_sliced b newline
      rw [read] at sliced
      generalize same : b'.stream = s' at sliced ih
      cases sliced with
      | bufferFull split clear full more =>
          generalize drain b' = out at ih ⊢
          obtain ⟨fault, b''⟩ := out
          generalize b''.stream = s'' at ih ⊢
          cases ih with
          | @line l' rest' split' clear' =>
              refine .line (l := line ++ l') ?_ ?_
              · rw [split, List.append_assoc]
                exact congrArg (line ++ ·) split'
              · exact fun inside => (List.mem_append.mp inside).elim clear clear'
          | ended clear' =>
              refine .ended ?_ _
              rw [split]
              exact fun inside => (List.mem_append.mp inside).elim clear clear'
  | case2 b line f b' read =>
      have sliced := ReadSlice_sliced b newline
      rw [read] at sliced
      obtain ⟨-, same, clear, -⟩ := sliced.of_fault
      rw [same]
      exact .ended clear _
  | case3 b line b' read =>
      have sliced := ReadSlice_sliced b newline
      rw [read] at sliced
      generalize b'.stream = s' at sliced ⊢
      cases sliced with
      | line split clear short => exact .line split clear

private theorem drain_size (b : Reader) : (drain b).2.size = b.size := by
  fun_induction drain b with
  | case1 b line b' read shorter ih =>
      have same := ReadSlice_size b newline
      rw [read] at same
      exact ih.trans same
  | case2 b line f b' read =>
      have same := ReadSlice_size b newline
      rw [read] at same
      exact same
  | case3 b line b' read =>
      have same := ReadSlice_size b newline
      rw [read] at same
      exact same

private theorem drain_left {b b' : Reader} (read : drain b = (none, b')) :
    b'.stream.data.length < b.stream.data.length := by
  have drained := drain_drained b
  rw [read] at drained
  generalize b'.stream = s' at drained
  cases drained with
  | line split clear =>
      rw [split, List.length_append, List.length_cons]
      dsimp only
      omega

/-- The loop over the lines. A line that fills the buffer is dropped with its rest. -/
def parseLoop (b : Reader) (acc : Nat × σ) : (Nat × σ) × Option Fault :=
  match read : b.ReadSlice newline with
  | ((_, some .bufferFull), b₁) =>
      have := ReadSlice_left read (by simp)
      match rest : drain b₁ with
      | (some f, _) => (acc, returned f)
      | (none, b₂) =>
          have := drain_left rest
          parseLoop b₂ acc
  | ((line, some (.fault f)), _) =>
      if f = .eof then (accept add acc line, none) else (acc, some f)
  | ((line, none), b₁) =>
      have := ReadSlice_left read (by simp)
      parseLoop b₁ (accept add acc line)
termination_by b.stream.data.length

def parseReader (r : Source) (bl : σ) : (Nat × σ) × Option Fault :=
  parseLoop add (NewReaderSize r maxFeedLineSize) (0, bl)

end Parsing

section Lines

/-- The lines of a text: what stands between its newlines. -/
def lines (d : Bytes) : List Bytes := d.splitOn newline

def completeLines (d : Bytes) : List Bytes := (lines d).dropLast

def lastLine (d : Bytes) : Bytes := (lines d).getLast (List.splitOn_ne_nil _ _)

/-- A last line that fits the buffer: it is shorter, or it just fills the buffer and the end of
the stream came with its last byte. -/
def lastFits (size : Nat) (joined : Bool) (l : Bytes) : Bool :=
  l.length < size || (l.length = size && joined)

/-- The lines of a stream that are looked at. The last one needs the stream to end well. -/
def readLines (size : Nat) (s : Stream) : List Bytes :=
  (completeLines s.data).filter (fun l => l.length < size) ++
    if s.fault = .eof then [lastLine s.data].filter (lastFits size s.joined) else []

variable {l rest d : Bytes}

theorem lines_cons (clear : newline ∉ l) :
    lines (l ++ newline :: rest) = l :: lines rest :=
  List.splitOn_append_cons_self_of_not_mem clear rest

theorem lines_single (clear : newline ∉ d) : lines d = [d] := List.splitOn_eq_singleton clear

theorem completeLines_cons (clear : newline ∉ l) :
    completeLines (l ++ newline :: rest) = l :: completeLines rest := by
  rw [completeLines, lines_cons clear]
  exact List.dropLast_cons_of_ne_nil (List.splitOn_ne_nil _ _)

theorem lastLine_cons (clear : newline ∉ l) :
    lastLine (l ++ newline :: rest) = lastLine rest := by
  unfold lastLine
  simp only [lines_cons clear]
  exact List.getLast_cons (List.splitOn_ne_nil _ _)

theorem completeLines_single (clear : newline ∉ d) : completeLines d = [] := by
  rw [completeLines, lines_single clear]
  rfl

theorem lastLine_single (clear : newline ∉ d) : lastLine d = d := by
  unfold lastLine
  simp only [lines_single clear]
  rfl

private theorem readLines_cons {size : Nat} {s : Stream} (split : s.data = l ++ newline :: rest)
    (clear : newline ∉ l) :
    readLines size s =
      if l.length < size then l :: readLines size { s with data := rest }
      else readLines size { s with data := rest } := by
  unfold readLines
  rw [split, completeLines_cons clear, lastLine_cons clear, List.filter_cons]
  by_cases short : l.length < size
  · simp only [short, decide_true, if_true, List.cons_append]
  · simp only [short, decide_false, if_false, Bool.false_eq_true]

private theorem readLines_single {size : Nat} {s : Stream} (clear : newline ∉ s.data) :
    readLines size s =
      if s.fault = .eof then [s.data].filter (lastFits size s.joined) else [] := by
  unfold readLines
  rw [completeLines_single clear, lastLine_single clear]
  rfl

end Lines

section Spec

variable {σ : Type} (add : σ → Bytes → σ)

private theorem accept_newline (acc : Nat × σ) (line : Bytes) :
    accept add acc (line ++ [newline]) = accept add acc line := by
  have trimmed : TrimSpace (line ++ [newline]) = TrimSpace line :=
    @TrimSpace_snoc (Char.ofNat 10) newline (by decide) (by decide) (by decide) line
  unfold accept entryOf
  rw [trimmed]

private theorem readLines_overlong {size : Nat} {s : Stream} {l rest : Bytes}
    (split : s.data = l ++ rest)
    (clear : newline ∉ s.data) (full : l.length = size) (further : rest ≠ [] ∨ s.joined = false) :
    readLines size s = [] := by
  have long : lastFits size s.joined s.data = false := by
    have length : s.data.length = size + rest.length := by
      rw [split, List.length_append, full]
    have overlong : ¬ s.data.length < size := by omega
    unfold lastFits
    rcases further with more | apart
    · have some_left := List.length_pos_iff.mpr more
      have other : s.data.length ≠ size := by omega
      simp [overlong, other]
    · simp [overlong, apart]
  rw [readLines_single clear, List.filter_cons, long]
  split <;> rfl

private theorem readLines_dropped_ended {size : Nat} {s s₁ s₂ : Stream} {line : Bytes} {f : Fault}
    (sliced : Sliced size newline s (line, some .bufferFull) s₁)
    (drained : Drained s₁ (some f) s₂) : readLines size s = [] ∧ f = s.fault := by
  cases sliced with
  | bufferFull split clear full further =>
      cases drained with
      | ended clear' =>
          have none_left : newline ∉ s.data := by
            rw [split]
            exact fun inside => (List.mem_append.mp inside).elim clear clear'
          exact ⟨readLines_overlong split none_left full further, rfl⟩

private theorem readLines_dropped_line {size : Nat} {s s₁ s₂ : Stream} {line : Bytes}
    (sliced : Sliced size newline s (line, some .bufferFull) s₁)
    (drained : Drained s₁ none s₂) :
    readLines size s = readLines size s₂ ∧ s₂.fault = s.fault := by
  cases sliced with
  | bufferFull split clear full further =>
      cases drained with
      | @line l' rest' split' clear' =>
          have whole : s.data = (line ++ l') ++ newline :: rest' := by
            rw [split, List.append_assoc]
            exact congrArg (line ++ ·) split'
          have none_before : newline ∉ line ++ l' :=
            fun inside => (List.mem_append.mp inside).elim clear clear'
          have long : ¬ (line ++ l').length < size := by
            rw [List.length_append]
            omega
          rw [readLines_cons whole none_before, if_neg long]
          exact ⟨rfl, rfl⟩

private theorem parseLoop_eq (b : Reader) (acc : Nat × σ) :
    parseLoop add b acc =
      ((readLines b.size b.stream).foldl (accept add) acc, returned b.stream.fault) := by
  fun_induction parseLoop add b acc with
  | case1 b acc line b₁ read shorter f b₂ rest =>
      have sliced := ReadSlice_sliced b newline
      have drained := drain_drained b₁
      rw [read] at sliced
      rw [rest] at drained
      obtain ⟨skipped, rfl⟩ := readLines_dropped_ended sliced drained
      rw [skipped]
      rfl
  | case2 b acc line b₁ read shorter b₂ rest further ih =>
      have sliced := ReadSlice_sliced b newline
      have drained := drain_drained b₁
      have size₁ := ReadSlice_size b newline
      have size₂ := drain_size b₁
      rw [read] at sliced size₁
      rw [rest] at drained size₂
      obtain ⟨skipped, fault⟩ := readLines_dropped_line sliced drained
      rw [ih, skipped, fault, size₂, size₁]
  | case3 b acc line b₁ read =>
      have sliced := ReadSlice_sliced b newline
      rw [read] at sliced
      obtain ⟨all, finished, clear, short⟩ := sliced.of_fault
      have fits : lastFits b.size b.stream.joined b.stream.data = true := by
        simpa [lastFits] using short
      rw [readLines_single clear, ← finished, if_pos rfl, List.filter_cons, if_pos fits, all]
      rfl
  | case4 b acc line f b₁ read other =>
      have sliced := ReadSlice_sliced b newline
      rw [read] at sliced
      obtain ⟨-, same, clear, -⟩ := sliced.of_fault
      rw [readLines_single clear, ← same, if_neg other]
      cases f with
      | eof => exact absurd rfl other
      | failed text => rfl
  | case5 b acc line b₁ read shorter ih =>
      have sliced := ReadSlice_sliced b newline
      have size₁ := ReadSlice_size b newline
      rw [read] at sliced size₁
      rw [ih, size₁]
      generalize b₁.stream = s₁ at sliced
      cases sliced with
      | line split clear short =>
          rw [readLines_cons split clear, if_pos short, List.foldl_cons, accept_newline]

private theorem foldl_accept (ls : List Bytes) (acc : Nat × σ) :
    ls.foldl (accept add) acc =
      (acc.1 + (ls.filterMap entryOf).length, (ls.filterMap entryOf).foldl add acc.2) := by
  induction ls generalizing acc with
  | nil => rfl
  | cons l ls ih =>
      rw [List.foldl_cons, ih, List.filterMap_cons]
      unfold accept
      cases entryOf l with
      | none => rfl
      | some e =>
          simp only [List.length_cons, List.foldl_cons, Prod.mk.injEq, and_true]
          omega

theorem parseReader_eq (r : Source) (bl : σ) :
    parseReader add r bl =
      ((((readLines maxFeedLineSize (stream maxConsecutiveEmptyReads r)).filterMap entryOf).length,
        ((readLines maxFeedLineSize (stream maxConsecutiveEmptyReads r)).filterMap entryOf).foldl
          add bl),
        returned (stream maxConsecutiveEmptyReads r).fault) := by
  have size : (NewReaderSize r maxFeedLineSize).size = maxFeedLineSize :=
    Nat.max_eq_left (by decide)
  have unread : (NewReaderSize r maxFeedLineSize).stream = stream maxConsecutiveEmptyReads r := rfl
  rw [parseReader, parseLoop_eq, size, unread, foldl_accept, Nat.zero_add]

end Spec

/-- Parsing. However a feed arrives, if it ends with the end of file the entries added are those
of its lines, in order, that have an entry and fewer bytes than the buffer, or for the last line
just as many if the end of file came with its last byte. If it fails, those of the complete
lines before the failure are added and the error is returned. -/
theorem feed_parsed_by_lines {σ : Type} (add : σ → Bytes → σ) (r : Source) (bl : σ) :
    let s := stream maxConsecutiveEmptyReads r
    let complete := (completeLines s.data).filter fun l => l.length < maxFeedLineSize
    (s.fault = .eof →
      let entries := (complete ++
        [lastLine s.data].filter (lastFits maxFeedLineSize s.joined)).filterMap entryOf
      parseReader add r bl = ((entries.length, entries.foldl add bl), none)) ∧
    ∀ text, s.fault = .failed text →
      let entries := complete.filterMap entryOf
      parseReader add r bl = ((entries.length, entries.foldl add bl), some (.failed text)) := by
  refine ⟨fun finished => ?_, fun text failed => ?_⟩
  · rw [parseReader_eq, finished]
    unfold readLines
    rw [if_pos finished]
    rfl
  · rw [parseReader_eq, failed]
    unfold readLines
    rw [if_neg (by rw [failed]; simp), List.append_nil]
    rfl

section Example

def record (log : List Bytes) (entry : Bytes) : List Bytes := log ++ [entry]

def address : List Char := ['1', '0', '.', '0', '.', '0', '.', '1']

def threeReads : Source :=
  [(encode ['1', '0', '.', '0'], none), (encode ['.', '0', '.', '1', '\n', '#'], none),
    (encode ['x', '\n'], some .eof)]

theorem entryOf_encode (cs : List Char) :
    entryOf (encode cs) =
      let text := encode ((cs.dropWhile IsSpace).rdropWhile IsSpace)
      if text = [] ∨ text.head? = some hash then none else some text := by
  rw [entryOf, TrimSpace_encode]

theorem threeReads_parsed :
    (stream maxConsecutiveEmptyReads threeReads).fault = .eof ∧
      parseReader record threeReads [] = ((1, [encode address]), none) := by
  have finished : (stream maxConsecutiveEmptyReads threeReads).fault = .eof := by decide
  have complete : completeLines (stream maxConsecutiveEmptyReads threeReads).data =
      [encode address, encode ['#', 'x']] := by decide
  have last : lastLine (stream maxConsecutiveEmptyReads threeReads).data = encode [] := by decide
  have first : entryOf (encode address) = some (encode address) := by
    rw [entryOf_encode]
    decide
  have comment : entryOf (encode ['#', 'x']) = none := by
    rw [entryOf_encode]
    decide
  have blank : entryOf (encode []) = none := by
    rw [entryOf_encode]
    decide
  have short : [encode address, encode ['#', 'x']].filter (fun l => l.length < maxFeedLineSize) =
      [encode address, encode ['#', 'x']] := by decide
  have fits : [encode []].filter (lastFits maxFeedLineSize
      (stream maxConsecutiveEmptyReads threeReads).joined) = [encode []] := by decide
  refine ⟨finished, ?_⟩
  rw [(feed_parsed_by_lines record threeReads []).1 finished, complete, last, short, fits]
  simp only [List.cons_append, List.nil_append, List.filterMap_cons, List.filterMap_nil, first,
    comment, blank, record, List.length_cons, List.length_nil, List.foldl_cons, List.foldl_nil]

/-- A feed of one line, an address and spaces, that just fills the buffer. -/
def fullLine : Bytes := encode address ++ List.replicate (maxFeedLineSize - 8) 0x20

private theorem length_fullLine : fullLine.length = maxFeedLineSize := by
  have front : (encode address).length = 8 := by decide
  have large : 8 ≤ maxFeedLineSize := by decide
  rw [fullLine, List.length_append, List.length_replicate, front]
  omega

private theorem newline_not_mem_fullLine : newline ∉ fullLine := by
  have front : newline ∉ encode address := by decide
  intro inside
  rcases List.mem_append.mp inside with early | late
  · exact front early
  · exact absurd (List.mem_replicate.mp late).2 (by decide)

private theorem entryOf_fullLine : entryOf fullLine = some (encode address) := by
  have trimmed : entryOf fullLine = entryOf (encode address) := by
    unfold entryOf fullLine
    rw [TrimSpace_spaces]
  rw [trimmed, entryOf_encode]
  decide

private theorem stream_fullLine :
    stream maxConsecutiveEmptyReads [(fullLine, some .eof)] = ⟨fullLine, .eof, true⟩ := by
  have filled : fullLine ≠ [] := by
    intro nothing
    have size := length_fullLine
    rw [nothing] at size
    exact absurd size (by decide)
  have whole : stream maxConsecutiveEmptyReads [(fullLine, some .eof)] =
      ⟨fullLine, .eof, decide (fullLine ≠ [])⟩ := rfl
  rw [whole, decide_eq_true filled]

/-- The line comes in one read with the end of file. It is added, although it has as many bytes
as the limit. -/
theorem full_last_line_added :
    let s := stream maxConsecutiveEmptyReads [(fullLine, some .eof)]
    s.fault = .eof ∧
      parseReader record [(fullLine, some .eof)] [] = ((1, [encode address]), none) ∧
      ((lines s.data).filter fun l => l.length < maxFeedLineSize).filterMap entryOf = [] := by
  have fits : lastFits maxFeedLineSize true fullLine = true := by
    simp [lastFits, length_fullLine]
  have looked : readLines maxFeedLineSize ⟨fullLine, .eof, true⟩ = [fullLine] := by
    rw [@readLines_single maxFeedLineSize ⟨fullLine, .eof, true⟩ newline_not_mem_fullLine,
      if_pos rfl, List.filter_cons, if_pos fits, List.filter_nil]
  have entries : [fullLine].filterMap entryOf = [encode address] := by
    rw [List.filterMap_cons, entryOf_fullLine, List.filterMap_nil]
  have parsed : parseReader record [(fullLine, some .eof)] [] = ((1, [encode address]), none) := by
    rw [parseReader_eq record, stream_fullLine, looked, entries]
    rfl
  have short : ((lines fullLine).filter fun l => l.length < maxFeedLineSize) = [] := by
    rw [lines_single newline_not_mem_fullLine, List.filter_cons, length_fullLine]
    simp
  rw [stream_fullLine]
  refine ⟨rfl, parsed, ?_⟩
  dsimp only
  rw [short, List.filterMap_nil]

end Example

end L3Firewall.Threatintel.Feed
