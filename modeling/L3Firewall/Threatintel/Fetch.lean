/- Threatintel/Fetch
   source: internal/threatintel/threatintel.go
   digest: What fetching a feed adds when the response is cut, and what it counts. -/

import L3Firewall.Threatintel.Feed

set_option autoImplicit false
set_option relaxedAutoImplicit false

namespace L3Firewall.Threatintel.Fetch

open Foundation.ByteReader
open Foundation.FiniteMap
open Foundation.Utf8 (Bytes encode)
open Foundation.Whitespace
open Net.Address (IP)
open Entries
open Networks
open Feed

section Fetching

structure Response where
  status : Int
  body : Source

def faultText : Fault → String
  | .eof => "EOF"
  | .failed text => text

variable {σ : Type} (add : σ → Bytes → σ)

/-- `get` is what the client returns for the URL. -/
def FetchFromURL (url : String) (get : Except String Response) (bl : σ) :
    (Nat × σ) × Option String :=
  match get with
  | .error err => ((0, bl), some ("fetching blocklist " ++ url ++ ": " ++ err))
  | .ok resp =>
      if resp.status < 200 ∨ 300 ≤ resp.status then
        ((0, bl), some ("blocklist " ++ url ++ " returned status " ++ toString resp.status))
      else
        let out := parseReader add (LimitReader resp.body maxFeedResponseSize) bl
        (out.1, out.2.map faultText)

def limited (body : Source) : Stream :=
  stream maxConsecutiveEmptyReads (LimitReader body maxFeedResponseSize)

/-- The entries of a response, in the order of their lines. -/
def fetched : Except String Response → List Bytes
  | .error _ => []
  | .ok resp =>
      if resp.status < 200 ∨ 300 ≤ resp.status then []
      else (readLines maxFeedLineSize (limited resp.body)).filterMap entryOf

private theorem FetchFromURL_eq (url : String) (get : Except String Response) (bl : σ) :
    (FetchFromURL add url get bl).1 = ((fetched get).length, (fetched get).foldl add bl) := by
  unfold FetchFromURL fetched
  cases get with
  | error err => rfl
  | ok resp =>
      dsimp only
      split
      · rfl
      · rw [parseReader_eq]
        rfl

end Fetching

section Cut

private theorem foldl_record (es log : List Bytes) : es.foldl record log = log ++ es := by
  induction es generalizing log with
  | nil => exact (List.append_nil log).symm
  | cons e es ih =>
      rw [List.foldl_cons, ih, record, List.append_assoc]
      rfl

/-- The lines that are looked at, each with its number. The limit leaves the newlines before it
alone, so that a line has the same number in the body. -/
def numbered (size : Nat) (s : Stream) : List (Bytes × Nat) :=
  (completeLines s.data).zipIdx.filter (fun x => x.1.length < size) ++
    if s.fault = .eof then
      [(lastLine s.data, (completeLines s.data).length)].filter fun x => lastFits size s.joined x.1
    else []

/-- The strings passed to Add, each with the number of the line that it was read from. -/
def passedFrom (body : Source) : List (Bytes × Nat) :=
  (numbered maxFeedLineSize (limited body)).filterMap fun x =>
    (entryOf x.1).map fun e => (e, x.2)

/-- What the limit leaves of the line that it falls into. -/
def cutLine (d : Bytes) : Bytes := lastLine (d.take maxFeedResponseSize)

def wholeLine (d : Bytes) : Bytes :=
  cutLine d ++ (d.drop maxFeedResponseSize).takeWhile (· ≠ newline)

/-- The body is short enough, or what is left of the line that the limit falls into is too long
or no entry, or it is trimmed to the same text as the whole line. -/
def CutHarmless (d : Bytes) : Prop :=
  d.length ≤ maxFeedResponseSize ∨ maxFeedLineSize ≤ (cutLine d).length ∨
    ∀ e, entryOf (cutLine d) = some e → e = TrimSpace (wholeLine d)

/-- The string is the trimmed text of the line that it was read from. -/
def Whole (d : Bytes) (x : Bytes × Nat) : Prop :=
  ∃ l, (lines d)[x.2]? = some l ∧ x.1 = TrimSpace l

private theorem numbered_lines (size : Nat) (s : Stream) :
    (numbered size s).map Prod.fst = readLines size s := by
  have complete : ((completeLines s.data).zipIdx.filter fun x => x.1.length < size).map Prod.fst =
      (completeLines s.data).filter fun l => l.length < size := by
    conv_rhs => rw [← List.zipIdx_map_fst 0 (completeLines s.data), List.filter_map]
    rfl
  unfold numbered readLines
  rw [List.map_append, complete]
  congr 1
  split
  · simp only [List.filter_cons, List.filter_nil]
    split
    · rfl
    · rfl
  · rfl

private theorem passedFrom_fst (body : Source) : (passedFrom body).map Prod.fst =
    (readLines maxFeedLineSize (limited body)).filterMap entryOf := by
  unfold passedFrom
  rw [← numbered_lines, List.map_filterMap, List.filterMap_map]
  congr 1
  funext x
  simp [Option.map_map, Function.comp_def]

private theorem lines_append (front back : Bytes) : ∃ rest, lines (front ++ back) =
    completeLines front ++ (lastLine front ++ back.takeWhile (· ≠ newline)) :: rest := by
  induction size : front.length using Nat.strongRecOn generalizing front with
  | _ n ih =>
      subst size
      by_cases found : newline ∈ front
      · obtain ⟨first, later, rfl, clear⟩ := List.eq_append_cons_of_mem found
        have shorter : later.length < (first ++ newline :: later).length := by
          rw [List.length_append, List.length_cons]
          omega
        obtain ⟨rest, split⟩ := ih later.length shorter later rfl
        refine ⟨rest, ?_⟩
        rw [List.append_assoc, List.cons_append, lines_cons clear, split, completeLines_cons clear,
          lastLine_cons clear, List.cons_append]
      · rw [completeLines_single found, lastLine_single found]
        simp only [List.nil_append]
        by_cases ends : newline ∈ back
        · obtain ⟨first, later, rfl, clear⟩ := List.eq_append_cons_of_mem ends
          have taken : (first ++ newline :: later).takeWhile (· ≠ newline) = first := by
            have kept (b : UInt8) (member : b ∈ first) : decide (b ≠ newline) = true :=
              decide_eq_true (ne_of_mem_of_not_mem member clear)
            rw [List.takeWhile_append_of_pos kept, List.takeWhile_cons_of_neg (by simp),
              List.append_nil]
          have joined : newline ∉ front ++ first := by simp [found, clear]
          refine ⟨lines later, ?_⟩
          rw [taken, ← List.append_assoc, lines_cons joined]
        · have taken : back.takeWhile (· ≠ newline) = back :=
            List.takeWhile_eq_self_iff.mpr fun b member =>
              decide_eq_true (ne_of_mem_of_not_mem member ends)
          have joined : newline ∉ front ++ back := by simp [found, ends]
          exact ⟨[], by rw [taken, lines_single joined]⟩

private theorem entryOf_some {l e : Bytes} (found : entryOf l = some e) : e = TrimSpace l := by
  unfold entryOf at found
  dsimp only at found
  split at found
  · exact absurd found (by simp)
  · exact (Option.some.inj found).symm

private theorem whole_of_complete {front back : Bytes} {x : Bytes × Nat} {e : Bytes}
    (member : x ∈ (completeLines front).zipIdx) (found : entryOf x.1 = some e) :
    Whole (front ++ back) (e, x.2) := by
  obtain ⟨rest, split⟩ := lines_append front back
  have here := List.mem_zipIdx_iff_getElem?.mp member
  have inside := (List.getElem?_eq_some_iff.mp here).1
  refine ⟨x.1, ?_, entryOf_some found⟩
  rw [split, List.getElem?_append_left inside]
  exact here

private theorem line_at (front back : Bytes) :
    (lines (front ++ back))[(completeLines front).length]? =
      some (lastLine front ++ back.takeWhile (· ≠ newline)) := by
  obtain ⟨rest, split⟩ := lines_append front back
  rw [split, List.getElem?_append_right (Nat.le_refl _), Nat.sub_self]
  rfl

private theorem whole_last_iff {front back e : Bytes} :
    Whole (front ++ back) (e, (completeLines front).length) ↔
      e = TrimSpace (lastLine front ++ back.takeWhile (· ≠ newline)) := by
  unfold Whole
  simp only [line_at, Option.some.injEq, exists_eq_left']

private theorem mem_numbered {size : Nat} {front : Bytes} {joined : Bool} {x : Bytes × Nat} :
    x ∈ numbered size ⟨front, .eof, joined⟩ ↔
      (x ∈ (completeLines front).zipIdx ∧ x.1.length < size) ∨
        (x = (lastLine front, (completeLines front).length) ∧
          lastFits size joined x.1 = true) := by
  unfold numbered
  rw [if_pos rfl, List.mem_append, List.mem_filter, List.mem_filter, List.mem_singleton,
    decide_eq_true_iff]

-- Only the line at the end can be torn: a newline in front of the limit completes its line.
private theorem whole_numbered_iff (size : Nat) (front back : Bytes) (joined : Bool) :
    (∀ x ∈ numbered size ⟨front, .eof, joined⟩, ∀ e, entryOf x.1 = some e →
        Whole (front ++ back) (e, x.2)) ↔
      (lastFits size joined (lastLine front) = true → ∀ e, entryOf (lastLine front) = some e →
        e = TrimSpace (lastLine front ++ back.takeWhile (· ≠ newline))) := by
  constructor
  · intro whole fits e found
    exact whole_last_iff.mp (whole _ (mem_numbered.mpr (.inr ⟨rfl, fits⟩)) e found)
  · intro harmless x member e found
    rcases mem_numbered.mp member with ⟨complete, -⟩ | ⟨rfl, fits⟩
    · exact whole_of_complete complete found
    · exact whole_last_iff.mpr (harmless fits e found)

private theorem forall_passedFrom {body : Source} {P : Bytes × Nat → Prop} :
    (∀ x ∈ passedFrom body, P x) ↔
      ∀ x ∈ numbered maxFeedLineSize (limited body), ∀ e, entryOf x.1 = some e → P (e, x.2) := by
  unfold passedFrom
  constructor
  · intro all x member e found
    exact all _ (List.mem_filterMap.mpr ⟨x, member, by rw [found]; rfl⟩)
  · intro all x member
    obtain ⟨y, present, shown⟩ := List.mem_filterMap.mp member
    obtain ⟨e, found, rfl⟩ := Option.map_eq_some_iff.mp shown
    exact all y present e found

private theorem passedFrom_whole_iff {body : Source} (d : Bytes) (joined : Bool)
    (all : stream maxConsecutiveEmptyReads body = ⟨d, .eof, joined⟩) :
    (∀ x ∈ passedFrom body, Whole d x) ↔ CutHarmless d := by
  have ends : (stream maxConsecutiveEmptyReads body).fault = .eof := congrArg Stream.fault all
  rw [forall_passedFrom, limited, stream_LimitReader ends, all, Stream.limit]
  dsimp only
  by_cases short : d.length ≤ maxFeedResponseSize
  · rw [if_pos short]
    have whole := (whole_numbered_iff maxFeedLineSize d [] joined).mpr fun _ e found => by
      rw [List.takeWhile_nil, List.append_nil]
      exact entryOf_some found
    rw [List.append_nil] at whole
    exact iff_of_true whole (.inl short)
  · rw [if_neg short]
    have torn := whole_numbered_iff maxFeedLineSize (d.take maxFeedResponseSize)
      (d.drop maxFeedResponseSize) false
    -- The reader reports the end after the bytes, so a last line has to leave room in the buffer.
    have fits : lastFits maxFeedLineSize false (cutLine d) = true ↔
        ¬ maxFeedLineSize ≤ (cutLine d).length := by
      simp [lastFits]
    rw [List.take_append_drop] at torn
    rw [torn, CutHarmless, or_iff_right short, or_iff_not_imp_left]
    exact imp_congr_left fits

private theorem passed_eq (url : String) {status : Int} (good : 200 ≤ status ∧ status < 300)
    (body : Source) : (FetchFromURL record url (.ok ⟨status, body⟩) []).1.2 =
      (readLines maxFeedLineSize (limited body)).filterMap entryOf := by
  have accepted : ¬ (status < 200 ∨ 300 ≤ status) := by omega
  rw [FetchFromURL_eq, foldl_record, List.nil_append, fetched, if_neg accepted]

/-- Whole lines. Of every response with a good status and a body without a read error, each
string passed to Add is the trimmed text of the very line of the body that it was read from,
exactly when the cut is harmless. -/
theorem whole_lines_iff (url : String) (status : Int) (good : 200 ≤ status ∧ status < 300)
    (body : Source) (unfailing : (stream maxConsecutiveEmptyReads body).fault = .eof) :
    (FetchFromURL record url (.ok ⟨status, body⟩) []).1.2 = (passedFrom body).map Prod.fst ∧
      ((∀ x ∈ passedFrom body, Whole (stream maxConsecutiveEmptyReads body).data x) ↔
        CutHarmless (stream maxConsecutiveEmptyReads body).data) := by
  rw [passed_eq url good body, passedFrom_fst]
  exact ⟨rfl, passedFrom_whole_iff _ _ (Stream.ext rfl unfailing rfl)⟩

def shortBody : Source := [(encode (address ++ ['\n']), some .eof)]

theorem shortBody_whole_lines :
    (stream maxConsecutiveEmptyReads shortBody).fault = .eof ∧
      (FetchFromURL record "" (.ok ⟨200, shortBody⟩) []).1.2 = [encode address] ∧
      ∀ x ∈ passedFrom shortBody, Whole (stream maxConsecutiveEmptyReads shortBody).data x := by
  have finished : (stream maxConsecutiveEmptyReads shortBody).fault = .eof := by decide
  have short : (stream maxConsecutiveEmptyReads shortBody).data.length ≤ maxFeedResponseSize := by
    decide
  have looked : readLines maxFeedLineSize (limited shortBody) = [encode address, encode []] := by
    decide
  have found : entryOf (encode address) = some (encode address) := by
    rw [entryOf_encode]
    decide
  have blank : entryOf (encode []) = none := by
    rw [entryOf_encode]
    decide
  obtain ⟨-, whole⟩ := whole_lines_iff "" 200 (by decide) shortBody finished
  refine ⟨finished, ?_, whole.mpr (.inl short)⟩
  rw [passed_eq "" (by decide), looked]
  simp only [List.filterMap_cons, List.filterMap_nil, found, blank]

private theorem lines_newlines (n : Nat) (d : Bytes) :
    lines (List.replicate n newline ++ d) = List.replicate n [] ++ lines d := by
  induction n with
  | zero => rfl
  | succ n ih =>
      rw [List.replicate_succ, List.replicate_succ, List.cons_append, List.cons_append, ← ih]
      exact @lines_cons [] _ List.not_mem_nil

/-- Another address, which begins with the first one. -/
def longerAddress : List Char := address ++ ['2']

/-- Empty lines and an address, one byte of which is beyond the limit. -/
def longBody : Bytes := List.replicate (maxFeedResponseSize - 8) newline ++ encode longerAddress

private theorem length_longBody : maxFeedResponseSize < longBody.length := by
  have tail : (encode longerAddress).length = 9 := by decide
  rw [longBody, List.length_append, List.length_replicate, tail]
  omega

private theorem cutLine_longBody : cutLine longBody = encode address := by
  have large : 8 ≤ maxFeedResponseSize := by decide
  have kept : (encode longerAddress).take 8 = encode address := by decide
  have front : longBody.take maxFeedResponseSize =
      List.replicate (maxFeedResponseSize - 8) newline ++ encode address := by
    rw [longBody, List.take_append, List.length_replicate, List.take_of_length_le,
      Nat.sub_sub_self large, kept]
    rw [List.length_replicate]
    omega
  have single : lines (encode address) = [encode address] := by decide
  unfold cutLine lastLine
  simp only [front, lines_newlines, single]
  exact List.getLast_concat

private theorem address_no_line : encode address ∉ (lines longBody).map TrimSpace := by
  have single : lines (encode longerAddress) = [encode longerAddress] := by decide
  rw [longBody, lines_newlines, single]
  intro listed
  obtain ⟨l, member, text⟩ := List.mem_map.mp listed
  rcases List.mem_append.mp member with empty | last
  · rw [(List.mem_replicate.mp empty).2] at text
    have blank : TrimSpace [] = encode [] := TrimSpace_encode []
    rw [blank] at text
    exact absurd text (by decide)
  · rw [List.mem_singleton.mp last, TrimSpace_encode] at text
    exact absurd text (by decide)

/-- The body is cut inside its last line, and the address that is left is added. No line of the
body is this address. -/
theorem shortened_address_added :
    (stream maxConsecutiveEmptyReads [(longBody, none)]).fault = .eof ∧
      encode address ∈ (FetchFromURL record "" (.ok ⟨200, [(longBody, none)]⟩) []).1.2 ∧
      encode address ∉ (lines (stream maxConsecutiveEmptyReads [(longBody, none)]).data).map
        TrimSpace := by
  have filled : longBody ≠ [] := by
    intro nothing
    have size := length_longBody
    rw [nothing] at size
    exact absurd size (Nat.not_lt_zero _)
  have all := stream_single filled
  have cut := stream_LimitReader (n := maxFeedResponseSize)
    (congrArg Stream.fault all :
      (stream maxConsecutiveEmptyReads [(longBody, none)]).fault = .eof)
  have found : entryOf (encode address) = some (encode address) := by
    rw [entryOf_encode]
    decide
  have short : lastFits maxFeedLineSize false (encode address) = true := by decide
  have last := cutLine_longBody
  rw [all, Stream.limit, if_neg (Nat.not_le_of_lt length_longBody)] at cut
  rw [all, passed_eq "" (by decide)]
  refine ⟨rfl, List.mem_filterMap.mpr ⟨encode address, ?_, found⟩, address_no_line⟩
  rw [limited, cut, readLines, if_pos rfl]
  refine List.mem_append_right _ (List.mem_filter.mpr ⟨List.mem_singleton.mpr ?_, short⟩)
  exact last.symm

end Cut

section Count

/-- The string of a line, with one character for each byte. -/
def text (e : Bytes) : String := String.ofList (e.map fun b => Char.ofNat b.toNat)

def addLine (bl : Blocklist) (e : Bytes) : Blocklist := bl.Add (text e)

/-- An entry that the list has, by the keys that Add compares. -/
def Has (bl : Blocklist) : Entry → Prop
  | .address ip => IP.String ip ∈ bl.ips
  | .network p => IPNet.String p.net ∈ bl.netKeys

/-- A string that is an entry, which the list has not and has room for. -/
def New (bl : Blocklist) (entry : String) : Prop :=
  ∃ e, parseEntry entry = some e ∧ ¬ Has bl e ∧ ¬ bl.Capped e

/-- Every line brings an entry that the list and the lines before it have not brought. -/
def AllNew : Blocklist → List Bytes → Prop
  | _, [] => True
  | bl, e :: es => New bl (text e) ∧ AllNew (addLine bl e) es

private theorem New.entry {bl : Blocklist} {entry : String} {e : Entry} (fresh : New bl entry)
    (parsed : parseEntry entry = some e) : ¬ Has bl e ∧ ¬ bl.Capped e := by
  obtain ⟨e', parsed', outside, room⟩ := fresh
  obtain rfl := Option.some.inj (parsed.symm.trans parsed')
  exact ⟨outside, room⟩

private theorem Add_Len (bl : Blocklist) (entry : String) :
    New bl entry ∧ (bl.Add entry).Len = bl.Len + 1 ∨
      ¬ New bl entry ∧ (bl.Add entry).Len = bl.Len := by
  rcases bl.Add_cases entry with ⟨same, kept⟩ | ⟨p, parsed, outside, room, added⟩ |
    ⟨ip, parsed, room, added⟩
  · refine .inr ⟨?_, by rw [same]⟩
    rintro ⟨e, parsed, outside, room⟩
    rcases kept e parsed with capped | ⟨p, rfl, listed⟩
    · exact room capped
    · exact outside listed
  · refine .inl ⟨⟨_, parsed, outside, room⟩, ?_⟩
    rw [added, Blocklist.Len, Blocklist.Len]
    simp only [List.length_append, List.length_singleton]
    omega
  · by_cases listed : IP.String ip ∈ bl.ips
    · refine .inr ⟨fun fresh => (fresh.entry parsed).1 listed, ?_⟩
      rw [added, Blocklist.Len, Blocklist.Len]
      dsimp only
      rw [len_insert_old listed]
    · refine .inl ⟨⟨_, parsed, listed, room⟩, ?_⟩
      rw [added, Blocklist.Len, Blocklist.Len]
      dsimp only
      rw [len_insert_new listed]
      omega

private theorem foldl_addLine_Len (es : List Bytes) (bl : Blocklist) :
    (es.foldl addLine bl).Len ≤ bl.Len + es.length ∧
      ((es.foldl addLine bl).Len = bl.Len + es.length ↔ AllNew bl es) := by
  induction es generalizing bl with
  | nil => exact ⟨Nat.le_refl _, iff_of_true rfl trivial⟩
  | cons e es ih =>
      obtain ⟨bounded, exact_iff⟩ := ih (addLine bl e)
      rw [List.foldl_cons, List.length_cons]
      rcases Add_Len bl (text e) with ⟨fresh, grown⟩ | ⟨known, same⟩
      · change (addLine bl e).Len = bl.Len + 1 at grown
        refine ⟨by omega, ?_⟩
        rw [AllNew, and_iff_right fresh, ← exact_iff]
        omega
      · change (addLine bl e).Len = bl.Len at same
        refine ⟨by omega, ?_⟩
        rw [AllNew, iff_false_right fun all => known all.1]
        omega

/-- New entries. Whatever the list and the response, the count that fetching returns is the
growth of the list exactly when every line counted brought a new entry. -/
theorem new_entries_counted_iff (bl : Blocklist) (url : String) (get : Except String Response) :
    ((FetchFromURL addLine url get bl).1.1 : Int) =
        ((FetchFromURL addLine url get bl).1.2.Len : Int) - bl.Len ↔
      AllNew bl (fetched get) := by
  obtain ⟨-, exact_iff⟩ := foldl_addLine_Len (fetched get) bl
  rw [FetchFromURL_eq, ← exact_iff]
  dsimp only
  omega

def twice : Except String Response :=
  .ok ⟨200, [(encode (address ++ '\n' :: address), some .eof)]⟩

private theorem fetched_twice : fetched twice = [encode address, encode address] := by
  have found : entryOf (encode address) = some (encode address) := by
    rw [entryOf_encode]
    decide
  have looked : readLines maxFeedLineSize
      (limited [(encode (address ++ '\n' :: address), some .eof)]) =
        [encode address, encode address] := by
    decide
  have accepted : ¬ ((200 : Int) < 200 ∨ (300 : Int) ≤ 200) := by decide
  rw [twice, fetched, if_neg accepted, looked]
  simp only [List.filterMap_cons, List.filterMap_nil, found]

/-- Two entries are reported, and the list has one. -/
theorem duplicate_counted :
    (FetchFromURL addLine "" twice NewBlocklist).1.1 = 2 ∧
      (FetchFromURL addLine "" twice NewBlocklist).1.2.Len = 1 ∧ NewBlocklist.Len = 0 := by
  have one : ([encode address, encode address].foldl addLine NewBlocklist).Len = 1 := by decide
  rw [FetchFromURL_eq, fetched_twice]
  exact ⟨rfl, one, rfl⟩

end Count

end L3Firewall.Threatintel.Fetch
