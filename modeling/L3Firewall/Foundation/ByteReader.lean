/- Foundation/ByteReader
   digest: A buffered reader sees one stream, however its source splits it into reads. -/

import L3Firewall.Foundation.Utf8

set_option autoImplicit false
set_option relaxedAutoImplicit false

namespace L3Firewall.Foundation.ByteReader

open Utf8 (Bytes)

/-! Sources. -/

/-- What ends the reading of a source: its end, or an error. -/
inductive Fault
  | eof
  | failed (text : String)
  deriving DecidableEq

/-- What the reads of a source return, one after the other, if they are given the room.
Beyond them the source is at its end. -/
abbrev Source := List (Bytes × Option Fault)

/-- One read. What there is no room for is left to the next one. -/
def read (room : Nat) : Source → (Bytes × Option Fault) × Source
  | [] => (([], some .eof), [])
  | (c, e) :: rest =>
      if c.length ≤ room then ((c, e), rest)
      else ((c.take room, none), (c.drop room, e) :: rest)

/-- A source that is at its end after a number of bytes. -/
def LimitReader : Source → Nat → Source
  | [], _ => []
  | (c, e) :: rest, n =>
      if n = 0 then []
      else if c.length ≤ n then (c, e) :: LimitReader rest (n - c.length)
      else [(c.take n, none)]

private theorem length_read_le (room : Nat) (s : Source) : (read room s).1.1.length ≤ room := by
  unfold read
  split
  · exact Nat.zero_le _
  · split
    · next fits => exact fits
    · exact List.length_take_le _ _

/-! Streams. -/

/-- The bytes of a source and the fault after them. -/
@[ext] structure Stream where
  data : Bytes
  fault : Fault
  /-- The read that returned the last byte returned the fault. -/
  joined : Bool

def Stream.after (c : Bytes) (s : Stream) : Stream := { s with data := c ++ s.data }

def maxConsecutiveEmptyReads : Nat := 100

def errNoProgress : Fault := .failed "multiple Read calls return no data or error"

/-- The stream of a source, for a reader that gives up after so many empty reads. -/
def stream : Nat → Source → Stream
  | 0, _ => ⟨[], errNoProgress, false⟩
  | _ + 1, [] => ⟨[], .eof, false⟩
  | _ + 1, (c, some f) :: _ => ⟨c, f, decide (c ≠ [])⟩
  | tries + 1, (c, none) :: rest =>
      if c = [] then stream tries rest else (stream maxConsecutiveEmptyReads rest).after c

theorem stream_single {c : Bytes} (filled : c ≠ []) :
    stream maxConsecutiveEmptyReads [(c, none)] = ⟨c, .eof, false⟩ := by
  simp [stream, maxConsecutiveEmptyReads, filled, Stream.after]

private theorem joined_of_nil {tries : Nat} {s : Source} (nothing : (stream tries s).data = []) :
    (stream tries s).joined = false := by
  fun_induction stream tries s with
  | case1 s => rfl
  | case2 tries => rfl
  | case3 tries c f rest =>
      subst nothing
      rfl
  | case4 tries rest ih => exact ih nothing
  | case5 tries c rest filled ih => exact absurd (List.append_eq_nil_iff.mp nothing).1 filled

inductive Taken (tries : Nat) (s : Stream) : Bytes × Option Fault → Source → Prop
  | last {c : Bytes} {f : Fault} {rest : Source} (all : s = ⟨c, f, decide (c ≠ [])⟩) :
      Taken tries s (c, some f) rest
  | empty {rest : Source} (same : s = stream tries rest) : Taken tries s ([], none) rest
  | some_bytes {c : Bytes} {rest : Source} (filled : c ≠ [])
      (split : s = (stream maxConsecutiveEmptyReads rest).after c) : Taken tries s (c, none) rest

private theorem read_taken {room : Nat} (roomy : 0 < room) (tries : Nat) (s : Source) :
    Taken tries (stream (tries + 1) s) (read room s).1 (read room s).2 := by
  cases s with
  | nil => exact .last rfl
  | cons entry rest =>
      obtain ⟨c, e⟩ := entry
      rw [read]
      by_cases fits : c.length ≤ room
      · rw [if_pos fits]
        cases e with
        | some f => exact .last rfl
        | none =>
            unfold stream
            by_cases nothing : c = []
            · subst nothing
              exact .empty rfl
            · rw [if_neg nothing]
              exact .some_bytes nothing rfl
      · rw [if_neg fits]
        have front : c.take room ≠ [] := by
          intro nothing
          have size := congrArg List.length nothing
          rw [List.length_take, List.length_nil] at size
          omega
        have left : c.drop room ≠ [] := by
          intro nothing
          have size := congrArg List.length nothing
          rw [List.length_drop, List.length_nil] at size
          omega
        have whole : c ≠ [] := by
          rintro rfl
          exact fits (Nat.zero_le _)
        refine .some_bytes front ?_
        cases e with
        | some f => simp [stream, maxConsecutiveEmptyReads, Stream.after, left, whole]
        | none =>
            simp [stream, maxConsecutiveEmptyReads, Stream.after, left, whole,
              ← List.append_assoc]

def Stream.limit (s : Stream) (n : Nat) : Stream :=
  if s.data.length ≤ n then s else ⟨s.data.take n, .eof, false⟩

private theorem limit_after (c : Bytes) (s : Stream) {n : Nat} (fits : c.length ≤ n) :
    (s.after c).limit n = (s.limit (n - c.length)).after c := by
  have size : (s.after c).data.length = c.length + s.data.length := List.length_append
  unfold Stream.limit
  by_cases short : s.data.length ≤ n - c.length
  · rw [if_pos short, if_pos (by omega)]
  · rw [if_neg short, if_neg (by omega)]
    simp only [Stream.after, List.take_append, List.take_of_length_le fits]

private theorem limit_long {c : Bytes} (s : Stream) {n : Nat} (long : n < c.length) :
    (s.after c).limit n = ⟨c.take n, .eof, false⟩ := by
  have size : (s.after c).data.length = c.length + s.data.length := List.length_append
  unfold Stream.limit
  rw [if_neg (by omega)]
  simp only [Stream.after, List.take_append_of_le_length (Nat.le_of_lt long)]

private theorem stream_LimitReader_zero {tries : Nat} {s : Source}
    (ends : (stream tries s).fault = .eof) :
    stream tries (LimitReader s 0) = (stream tries s).limit 0 := by
  have closed : LimitReader s 0 = [] := by
    cases s with
    | nil => rfl
    | cons entry rest => rfl
  rw [closed]
  cases tries with
  | zero => exact absurd ends (by simp [stream, errNoProgress])
  | succ tries =>
      unfold Stream.limit
      split
      · next short =>
        have nothing := List.eq_nil_of_length_eq_zero (Nat.le_zero.mp short)
        exact Stream.ext nothing.symm ends.symm (joined_of_nil nothing).symm
      · rfl

theorem stream_LimitReader {tries : Nat} {s : Source} (ends : (stream tries s).fault = .eof)
    (n : Nat) : stream tries (LimitReader s n) = (stream tries s).limit n := by
  induction s generalizing tries n with
  | nil =>
      cases tries with
      | zero => exact absurd ends (by simp [stream, errNoProgress])
      | succ tries => exact (if_pos (Nat.zero_le n)).symm
  | cons entry rest ih =>
      obtain ⟨c, e⟩ := entry
      rcases Nat.eq_zero_or_pos n with rfl | some_left
      · exact stream_LimitReader_zero ends
      rw [LimitReader, if_neg (Nat.ne_of_gt some_left)]
      cases tries with
      | zero => exact absurd ends (by simp [stream, errNoProgress])
      | succ tries =>
          have front (long : ¬ c.length ≤ n) : stream (tries + 1) [(c.take n, none)] =
              ⟨c.take n, .eof, false⟩ := by
            have filled : c.take n ≠ [] := by
              intro nothing
              have size := congrArg List.length nothing
              rw [List.length_take, List.length_nil] at size
              omega
            simp [stream, filled, maxConsecutiveEmptyReads, Stream.after]
          cases e with
          | some f =>
              have finished : f = .eof := ends
              subst finished
              split
              · next fits => exact (if_pos fits).symm
              · next long =>
                rw [front long]
                exact (if_neg long).symm
          | none =>
              by_cases nothing : c = []
              · subst nothing
                have rest_ends : (stream tries rest).fault = .eof := ends
                exact (ih rest_ends n)
              · have split : stream (tries + 1) ((c, none) :: rest) =
                    (stream maxConsecutiveEmptyReads rest).after c := by
                  rw [stream, if_neg nothing]
                rw [split] at ends ⊢
                by_cases fits : c.length ≤ n
                · rw [if_pos fits, stream, if_neg nothing, ih ends, limit_after c _ fits]
                · rw [if_neg fits, front fits, limit_long _ (Nat.lt_of_not_le fits)]

/-! The buffered reader. -/

/-- A reader with a buffer: the bytes read and not yet returned, and the fault that came with
the last of them. -/
structure Reader where
  source : Source
  buf : Bytes
  err : Option Fault
  size : Nat
  sized : 0 < size
  fits : buf.length ≤ size

def minReadBufferSize : Nat := 16

def NewReaderSize (source : Source) (size : Nat) : Reader where
  source := source
  buf := []
  err := none
  size := max size minReadBufferSize
  sized := Nat.lt_of_lt_of_le (by decide) (Nat.le_max_right _ _)
  fits := Nat.zero_le _

def Reader.stream (b : Reader) : Stream :=
  match b.err with
  | some f => ⟨b.buf, f, true⟩
  | none => (ByteReader.stream maxConsecutiveEmptyReads b.source).after b.buf

def Reader.readMore (b : Reader) : Reader where
  source := (read (b.size - b.buf.length) b.source).2
  buf := b.buf ++ (read (b.size - b.buf.length) b.source).1.1
  err := (read (b.size - b.buf.length) b.source).1.2
  size := b.size
  sized := b.sized
  fits := by
    have fits := b.fits
    have taken := length_read_le (b.size - b.buf.length) b.source
    rw [List.length_append]
    omega

def Reader.fillLoop : Nat → Reader → Reader
  | 0, b => { b with err := some errNoProgress }
  | tries + 1, b =>
      if b.readMore.err ≠ none ∨ b.buf.length < b.readMore.buf.length then b.readMore
      else fillLoop tries b.readMore

def Reader.fill (b : Reader) : Reader := b.fillLoop maxConsecutiveEmptyReads

/-- What filling does to a reader without a fault: bytes arrive, with or without a fault, or
a fault arrives alone. -/
inductive Filled (s : Stream) (buf : Bytes) : Reader → Prop
  | bytes {b : Reader} (calm : b.err = none) (more : buf.length < b.buf.length)
      (front : buf <+: b.buf) (same : b.stream = s) : Filled s buf b
  | joined {b : Reader} {f : Fault} (ended : b.err = some f) (more : buf.length < b.buf.length)
      (front : buf <+: b.buf) (all : s = ⟨b.buf, f, true⟩) : Filled s buf b
  | alone {b : Reader} {f : Fault} (ended : b.err = some f) (same : b.buf = buf)
      (all : s = ⟨buf, f, false⟩) : Filled s buf b

private theorem fillLoop_size (tries : Nat) (b : Reader) : (b.fillLoop tries).size = b.size := by
  induction tries generalizing b with
  | zero => rfl
  | succ tries ih =>
      unfold Reader.fillLoop
      split
      · rfl
      · exact ih b.readMore

private theorem fillLoop_filled (tries : Nat) (b : Reader) (room : b.buf.length < b.size) :
    Filled ((ByteReader.stream tries b.source).after b.buf) b.buf (b.fillLoop tries) := by
  induction tries generalizing b with
  | zero => exact .alone rfl rfl (by simp [ByteReader.stream, Stream.after])
  | succ tries ih =>
      have taken := read_taken (Nat.sub_pos_of_lt room) tries b.source
      have buffer : b.readMore.buf = b.buf ++ (read (b.size - b.buf.length) b.source).1.1 := rfl
      have fault : b.readMore.err = (read (b.size - b.buf.length) b.source).1.2 := rfl
      have later : b.readMore.source = (read (b.size - b.buf.length) b.source).2 := rfl
      generalize read (b.size - b.buf.length) b.source = out at taken buffer fault later
      obtain ⟨⟨c, e⟩, rest⟩ := out
      dsimp only at taken buffer fault later
      have grown : b.readMore.buf.length = b.buf.length + c.length := by
        rw [buffer, List.length_append]
      unfold Reader.fillLoop
      generalize ByteReader.stream (tries + 1) b.source = whole at taken
      cases taken with
      | last all =>
          rw [if_pos (.inl (by rw [fault]; simp))]
          by_cases nothing : c = []
          · subst nothing
            refine .alone fault (by rw [buffer, List.append_nil]) ?_
            simp [all, Stream.after]
          · have some_byte := List.length_pos_iff.mpr nothing
            refine .joined fault (by omega) (buffer ▸ List.prefix_append _ _) ?_
            simp [all, Stream.after, buffer, nothing]
      | empty same =>
          rw [if_neg (by rw [fault, grown]; simp)]
          have further := ih b.readMore (by rw [grown]; exact room)
          rw [buffer, later, List.append_nil, ← same] at further
          exact further
      | some_bytes filled split =>
          have some_byte := List.length_pos_iff.mpr filled
          rw [if_pos (.inr (by omega))]
          refine .bytes fault (by omega) (buffer ▸ List.prefix_append _ _) ?_
          simp [Reader.stream, fault, later, buffer, split, Stream.after]

private theorem fill_filled {b : Reader} (calm : b.err = none) (room : b.buf.length < b.size) :
    Filled b.stream b.buf b.fill := by
  have filled := fillLoop_filled maxConsecutiveEmptyReads b room
  unfold Reader.stream
  rw [calm]
  exact filled

private theorem fill_size (b : Reader) : b.fill.size = b.size := fillLoop_size _ b

/-! Slices. -/

/-- Why a slice does not end in the delimiter: the buffer is full, or the stream has ended. -/
inductive Stop
  | bufferFull
  | fault (f : Fault)
  deriving DecidableEq

/-- A reader that has returned the first bytes of its buffer. -/
def Reader.advance (b : Reader) (n : Nat) : Reader :=
  { b with
    buf := b.buf.drop n
    fits := by
      have fits := b.fits
      rw [List.length_drop]
      omega }

/-- How long a reader can go on filling its buffer. -/
def Reader.patience (b : Reader) : Nat :=
  match b.err with
  | some _ => 0
  | none => b.size - b.buf.length + 1

private theorem fill_patience {b : Reader} (calm : b.err = none) (room : b.buf.length < b.size) :
    b.fill.patience < b.patience := by
  have before : b.patience = b.size - b.buf.length + 1 := by
    rw [Reader.patience, calm]
  have filled := fill_filled calm room
  have size := fill_size b
  generalize b.fill = b' at filled size
  have after : b'.patience ≤ b'.size - b'.buf.length + 1 ∧
      (b'.err ≠ none → b'.patience = 0) := by
    unfold Reader.patience
    cases b'.err with
    | none => simp
    | some f => simp
  cases filled with
  | bytes still more front same => omega
  | joined ended more front all =>
      have spent := after.2 (by simp [ended])
      omega
  | alone ended same all =>
      have spent := after.2 (by simp [ended])
      omega

/-- The bytes up to the first delimiter. A fault that is pending comes before a full buffer. -/
def Reader.ReadSlice (b : Reader) (delim : UInt8) : (Bytes × Option Stop) × Reader :=
  if delim ∈ b.buf then
    ((b.buf.take (b.buf.idxOf delim + 1), none), b.advance (b.buf.idxOf delim + 1))
  else
    match calm : b.err with
    | some f => ((b.buf, some (.fault f)), { b.advance b.buf.length with err := none })
    | none =>
        if full : b.size ≤ b.buf.length then
          ((b.buf, some .bufferFull), b.advance b.buf.length)
        else
          have := fill_patience calm (Nat.lt_of_not_le full)
          b.fill.ReadSlice delim
termination_by b.patience

/-- What a slice of a stream is, for a buffer of a size. Where the buffer is just large enough
for the rest of the stream, it is whether the fault came with the last byte that counts. -/
inductive Sliced (size : Nat) (delim : UInt8) (s : Stream) :
    Bytes × Option Stop → Stream → Prop
  | line {l rest : Bytes} (split : s.data = l ++ delim :: rest) (clear : delim ∉ l)
      (short : l.length < size) : Sliced size delim s (l ++ [delim], none) { s with data := rest }
  | bufferFull {l rest : Bytes} (split : s.data = l ++ rest) (clear : delim ∉ l)
      (full : l.length = size) (further : rest ≠ [] ∨ s.joined = false) :
      Sliced size delim s (l, some .bufferFull) { s with data := rest }
  | fault (clear : delim ∉ s.data)
      (short : s.data.length < size ∨ s.data.length = size ∧ s.joined = true) (s' : Stream) :
      Sliced size delim s (s.data, some (.fault s.fault)) s'

theorem Sliced.of_fault {size : Nat} {delim : UInt8} {s s' : Stream} {line : Bytes} {f : Fault}
    (sliced : Sliced size delim s (line, some (.fault f)) s') :
    line = s.data ∧ f = s.fault ∧ delim ∉ s.data ∧
      (s.data.length < size ∨ s.data.length = size ∧ s.joined = true) := by
  generalize result : (line, some (Stop.fault f)) = out at sliced
  cases sliced with
  | line split clear short => simp at result
  | bufferFull split clear full further => simp at result
  | fault clear short =>
      simp only [Prod.mk.injEq, Option.some.injEq, Stop.fault.injEq] at result
      exact ⟨result.1, result.2, clear, short⟩

private theorem stream_split (b : Reader) :
    ∃ more, b.stream.data = b.buf ++ more ∧
      ∀ n, (b.advance n).stream = { b.stream with data := b.buf.drop n ++ more } := by
  unfold Reader.stream Reader.advance
  cases b.err with
  | some f => exact ⟨[], (List.append_nil _).symm, fun n => by simp⟩
  | none => exact ⟨_, rfl, fun n => rfl⟩

private theorem sliced_found {b : Reader} {delim : UInt8} (found : delim ∈ b.buf) :
    Sliced b.size delim b.stream (b.buf.take (b.buf.idxOf delim + 1), none)
      (b.advance (b.buf.idxOf delim + 1)).stream := by
  obtain ⟨l, rest, split, clear⟩ := List.eq_append_cons_of_mem found
  obtain ⟨more, whole, advanced⟩ := stream_split b
  have fits := b.fits
  have size : b.buf.length = l.length + (rest.length + 1) := by
    rw [split, List.length_append, List.length_cons]
  have place : b.buf.idxOf delim + 1 = (l ++ [delim]).length := by
    rw [split, List.idxOf_append_of_notMem clear, List.idxOf_cons_self, List.length_append]
    rfl
  have cut : b.buf = (l ++ [delim]) ++ rest := by
    rw [split, List.append_assoc]
    rfl
  have taken : b.buf.take (b.buf.idxOf delim + 1) = l ++ [delim] := by
    rw [place, cut, List.take_left]
  have dropped : b.buf.drop (b.buf.idxOf delim + 1) = rest := by
    rw [place, cut, List.drop_left]
  rw [taken, advanced, dropped]
  refine .line ?_ clear (by omega)
  rw [whole, split, List.append_assoc]
  rfl

private theorem sliced_full {b : Reader} {delim : UInt8} (absent : delim ∉ b.buf)
    (calm : b.err = none)
    (full : b.size ≤ b.buf.length) :
    Sliced b.size delim b.stream (b.buf, some .bufferFull) (b.advance b.buf.length).stream := by
  obtain ⟨more, whole, advanced⟩ := stream_split b
  have fits := b.fits
  rw [advanced, List.drop_length, List.nil_append]
  refine .bufferFull whole absent (by omega) ?_
  have unread : b.stream = (ByteReader.stream maxConsecutiveEmptyReads b.source).after b.buf := by
    rw [Reader.stream, calm]
  rw [unread] at whole ⊢
  obtain rfl := List.append_cancel_left whole
  by_cases nothing : (ByteReader.stream maxConsecutiveEmptyReads b.source).data = []
  · exact .inr (joined_of_nil nothing)
  · exact .inl nothing

theorem ReadSlice_sliced (b : Reader) (delim : UInt8) :
    Sliced b.size delim b.stream (b.ReadSlice delim).1 (b.ReadSlice delim).2.stream := by
  fun_induction Reader.ReadSlice b delim with
  | case1 b found => exact sliced_found found
  | case2 b absent f pending =>
      have ended : b.stream = ⟨b.buf, f, true⟩ := by
        rw [Reader.stream, pending]
      have short := Nat.lt_or_eq_of_le b.fits
      rw [ended]
      exact .fault absent (short.imp_right fun same => ⟨same, rfl⟩) _
  | case3 b absent calm full => exact sliced_full absent calm full
  | case4 b absent calm room shrinks ih =>
      have filled := fill_filled calm (Nat.lt_of_not_le room)
      rw [fill_size] at ih
      cases filled with
      | bytes still more front same =>
          rw [same] at ih
          exact ih
      | joined ended more front all =>
          have same : b.fill.stream = b.stream := by
            rw [all, Reader.stream, ended]
          rw [same] at ih
          exact ih
      | @alone f ended same all =>
          -- The fault is found pending at once, with the buffer as it was.
          have pending : b.fill.stream = ⟨b.buf, f, true⟩ := by
            rw [Reader.stream, ended, same]
          rw [pending] at ih
          rw [all]
          generalize b.fill.ReadSlice delim = out at ih ⊢
          obtain ⟨⟨line, stop⟩, next⟩ := out
          generalize next.stream = after at ih ⊢
          cases ih with
          | line split clear short =>
              dsimp only at split
              exact absurd (split ▸ List.mem_append_right _ List.mem_cons_self) absent
          | bufferFull split clear full further =>
              have size := congrArg List.length split
              rw [List.length_append] at size
              dsimp only at size
              omega
          | fault clear short => exact .fault absent (.inl (Nat.lt_of_not_le room)) _

theorem ReadSlice_size (b : Reader) (delim : UInt8) : (b.ReadSlice delim).2.size = b.size := by
  fun_induction Reader.ReadSlice b delim with
  | case1 b found => rfl
  | case2 b absent f pending => rfl
  | case3 b absent calm full => rfl
  | case4 b absent calm room shrinks ih => rw [ih, fill_size]

end L3Firewall.Foundation.ByteReader