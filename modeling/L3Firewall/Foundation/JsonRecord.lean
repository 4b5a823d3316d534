/- Foundation/JsonRecord
   digest: Flat records as JSON objects, one on a line: empty fields may be left out, and a
   reader of lines gets every field back, also from a file that was cut off. -/

import L3Firewall.Foundation.Json

set_option autoImplicit false
set_option relaxedAutoImplicit false

namespace L3Firewall.Foundation.JsonRecord

open Utf8
open JsonText
open Json

/-! Writing. -/

inductive Content
  | text (s : Bytes)
  | count (n : Int)

def Content.written : Content → Bytes
  | .text s => writeString s
  | .count n => decimal n

def Content.isEmpty : Content → Bool
  | .text s => s.isEmpty
  | .count n => n == 0

/-- A field, and whether it is left out when it is empty. -/
structure Field where
  name : Bytes
  content : Content
  omitEmpty : Bool

def Field.shown (f : Field) : Bool := !(f.omitEmpty && f.content.isEmpty)

def writeRecord (fields : List Field) : Bytes :=
  writeObject ((fields.filter Field.shown).map fun f => (f.name, f.content.written))

def newline : UInt8 := 0x0A

def writeLines (texts : List Bytes) : Bytes := texts.flatMap fun text => text ++ [newline]

/-! Reading. -/

def Content.value : Content → Value
  | .text s => .string (sanitize s)
  | .count n => .number (decimal n)

/-- The lines that are complete, and what follows the last of them. -/
def readLines (sofar : Bytes) : Bytes → List Bytes × Bytes
  | [] => ([], sofar)
  | b :: s =>
      if b = newline then (sofar :: (readLines [] s).1, (readLines [] s).2)
      else readLines (sofar ++ [b]) s

def find (name : Bytes) (members : List (Bytes × Value)) : Option Value :=
  (members.find? fun m => m.1 == name).map Prod.snd

/-- A text field, which is empty when it is left out. -/
def textOf (name : Bytes) (members : List (Bytes × Value)) : Option Bytes :=
  match find name members with
  | none => some []
  | some (.string s) => some s
  | some _ => none

def countOf (name : Bytes) (members : List (Bytes × Value)) : Option Int :=
  match find name members with
  | none => some 0
  | some (.number text) => intValue text
  | some _ => none

/-- The members of the object that a line holds, when it holds one and nothing else. -/
def readRecord (line : Bytes) : Option (List (Bytes × Value)) :=
  match value 1 line with
  | some (.object members, []) => some members
  | _ => none

section Values

variable {t : Bytes} {b : UInt8}

private theorem value_writeString (depth : Nat) (s t : Bytes) :
    value depth (writeString s ++ t) = some (.string (sanitize s), t) := by
  have text : writeString s ++ t = quoteMark :: (quoted s ++ quoteMark :: t) := by
    simp [writeString]
  have enough : (quoted s).length < (quoteMark :: (quoted s ++ quoteMark :: t)).length := by
    rw [List.length_cons, List.length_append]
    omega
  have plain : scalar (quoteMark :: (quoted s ++ quoteMark :: t)) =
      some (.string (sanitize s), t) := by
    rw [scalar, List.head?_cons, if_pos rfl, List.tail_cons, stringBody_quoted enough]
    rfl
  rw [text]
  cases depth with
  | zero => rw [value, skipSpace_cons (by decide), plain]
  | succ depth =>
      rw [value, skipSpace_cons (by decide), List.head?_cons, if_neg (by decide),
        if_neg (by decide), plain]

private theorem value_written (depth : Nat) (c : Content) (delimits : b = comma ∨ b = closeBrace) :
    value depth (c.written ++ b :: t) = some (c.value, b :: t) := by
  cases c with
  | text s => exact value_writeString depth s (b :: t)
  | count n =>
      apply value_decimal
      rcases delimits with rfl | rfl <;> decide

private theorem value_writeRecord (depth : Nat) (fields : List Field) (t : Bytes) :
    value (depth + 1) (writeRecord fields ++ t) = some (.object
      ((fields.filter Field.shown).map fun f => (sanitize f.name, f.content.value)), t) := by
  let read (text : Bytes) : Value := ((value depth (text ++ [comma])).map Prod.fst).getD .null
  have reads (c : Content) : read c.written = c.value := by
    show ((value depth (c.written ++ comma :: [])).map Prod.fst).getD .null = _
    rw [value_written depth c (.inl rfl)]
    rfl
  rw [writeRecord, value_writeObject read, List.map_map]
  · simp only [Function.comp_def, reads]
  · intro m member b t delimits
    obtain ⟨f, -, rfl⟩ := List.mem_map.mp member
    dsimp only
    rw [reads]
    exact value_written depth f.content delimits

theorem readRecord_writeRecord (fields : List Field) : readRecord (writeRecord fields) =
    some ((fields.filter Field.shown).map fun f => (sanitize f.name, f.content.value)) := by
  have whole := value_writeRecord 0 fields []
  rw [List.append_nil] at whole
  rw [readRecord, whole]

end Values

section Fields

variable {fields : List Field} {f : Field}

private theorem find_record (nodup : (fields.map Field.name).Nodup)
    (names : ∀ f ∈ fields, sanitize f.name = f.name) (member : f ∈ fields) :
    find f.name ((fields.filter Field.shown).map fun f => (sanitize f.name, f.content.value)) =
      if f.shown then some f.content.value else none := by
  induction fields with
  | nil => exact absurd member List.not_mem_nil
  | cons g rest ih =>
      have distinct := List.nodup_cons.mp nodup
      have later := ih distinct.2 fun h present => names h (List.mem_cons_of_mem g present)
      have own := names g List.mem_cons_self
      rcases List.mem_cons.mp member with rfl | present
      · cases shown : f.shown with
        | true =>
            rw [List.filter_cons_of_pos shown, List.map_cons, find,
              List.find?_cons_of_pos (by simp [own])]
            rfl
        | false =>
            rw [List.filter_cons_of_neg (by simp [shown]), find]
            have absent : ((rest.filter Field.shown).map
                fun f => (sanitize f.name, f.content.value)).find? (fun m => m.1 == f.name) =
                  none := by
              rw [List.find?_eq_none]
              intro m found same
              obtain ⟨h, kept, rfl⟩ := List.mem_map.mp found
              have inside := (List.mem_filter.mp kept).1
              have equal : h.name = f.name := by
                rw [← names h (List.mem_cons_of_mem f inside)]
                exact eq_of_beq same
              exact distinct.1 (equal ▸ List.mem_map_of_mem inside)
            rw [absent]
            rfl
      · have apart : g.name ≠ f.name := fun same =>
          distinct.1 (same ▸ List.mem_map_of_mem present)
        cases shown : g.shown with
        | true =>
            rw [List.filter_cons_of_pos shown, List.map_cons, find,
              List.find?_cons_of_neg (by simp [own, apart])]
            exact later present
        | false =>
            rw [List.filter_cons_of_neg (by simp [shown])]
            exact later present

theorem textOf_record (nodup : (fields.map Field.name).Nodup)
    (names : ∀ f ∈ fields, sanitize f.name = f.name) {name s : Bytes} {omitEmpty : Bool}
    (member : ⟨name, .text s, omitEmpty⟩ ∈ fields) :
    textOf name ((fields.filter Field.shown).map fun f => (sanitize f.name, f.content.value)) =
      some (sanitize s) := by
  have found := find_record nodup names member
  dsimp only at found
  rw [textOf, found]
  cases shown : Field.shown ⟨name, .text s, omitEmpty⟩ with
  | true => rfl
  | false =>
      have empty : s = [] := by simp_all [Field.shown, Content.isEmpty]
      subst empty
      exact congrArg some (sanitize_encode []).symm

theorem countOf_record (nodup : (fields.map Field.name).Nodup)
    (names : ∀ f ∈ fields, sanitize f.name = f.name) {name : Bytes} {n : Int} {omitEmpty : Bool}
    (member : ⟨name, .count n, omitEmpty⟩ ∈ fields) :
    countOf name ((fields.filter Field.shown).map fun f => (sanitize f.name, f.content.value)) =
      some n := by
  have found := find_record nodup names member
  dsimp only at found
  rw [countOf, found]
  cases shown : Field.shown ⟨name, .count n, omitEmpty⟩ with
  | true => exact intValue_decimal n
  | false =>
      have zero : n = 0 := by simp_all [Field.shown, Content.isEmpty]
      exact congrArg some zero.symm

end Fields

section Lines

variable {texts : List Bytes} {s text : Bytes}

private theorem newline_notMem_encode {c : Char} (plain : escapeText c = none) :
    newline ∉ String.utf8EncodeChar c := by
  have large : 0x20 ≤ c.toNat := by
    rcases escapeText_cases c with ⟨-, facts⟩ | ⟨b, letter, -⟩ | ⟨code, -⟩
    · exact facts.2.2
    · exact absurd (letter.symm.trans plain) (by simp)
    · exact absurd (code.symm.trans plain) (by simp)
  intro found
  have value : c.val.toNat = c.toNat := rfl
  have low {n : Nat} (same : newline = UInt8.ofNat n) : n % 256 = 10 := by
    have code := congrArg UInt8.toNat same
    rw [UInt8.toNat_ofNat'] at code
    exact code.symm
  unfold String.utf8EncodeChar at found
  rw [value] at found
  dsimp only at found
  split at found
  · next one =>
      have code := low (List.mem_singleton.mp found)
      omega
  · split at found
    · next two =>
        simp only [List.mem_cons, List.not_mem_nil, or_false] at found
        rcases found with same | same <;> have code := low same <;> omega
    · split at found
      · next three =>
          simp only [List.mem_cons, List.not_mem_nil, or_false] at found
          rcases found with same | same | same <;> have code := low same <;> omega
      · next four =>
          simp only [List.mem_cons, List.not_mem_nil, or_false] at found
          rcases found with same | same | same | same <;> have code := low same <;> omega

private theorem newline_notMem_hexEscape (n : Nat) : newline ∉ hexEscape n := by
  have digit (n : Nat) : newline ≠ hexDigit (n % 16) := by
    have all : ∀ m : Fin 16, newline ≠ hexDigit m.val := by decide
    exact all ⟨n % 16, Nat.mod_lt _ (by decide)⟩
  intro found
  simp only [hexEscape, List.mem_append, List.mem_cons, List.not_mem_nil, or_false] at found
  rcases found with found | same | same | same | same
  · exact absurd found (by decide)
  all_goals exact digit _ same

private theorem newline_notMem_quotePiece (p : Piece) : newline ∉ quotePiece p := by
  have escape {text : Bytes} (inside : newline ∉ text) : newline ∉ backslash :: text := by
    intro found
    rcases List.mem_cons.mp found with same | found
    · exact absurd same (by decide)
    · exact inside found
  cases p with
  | bad b => exact escape (newline_notMem_hexEscape _)
  | char c =>
      rw [quotePiece]
      rcases escapeText_cases c with ⟨plain, -⟩ | ⟨b, letter, meaning⟩ | ⟨code, -⟩
      · rw [plain]
        exact newline_notMem_encode plain
      · rw [letter]
        refine escape fun found => ?_
        rw [← List.mem_singleton.mp found] at meaning
        have none : unescape newline = none := by decide
        exact Option.some_ne_none _ (meaning.2.symm.trans none)
      · rw [code]
        exact escape (newline_notMem_hexEscape _)

private theorem newline_notMem_writeString (s : Bytes) : newline ∉ writeString s := by
  intro found
  rcases List.mem_cons.mp found with same | found
  · exact absurd same (by decide)
  rcases List.mem_append.mp found with found | found
  · obtain ⟨p, -, inside⟩ := List.mem_flatMap.mp found
    exact newline_notMem_quotePiece p inside
  · exact absurd found (by decide)

private theorem newline_notMem_decimal (n : Int) : newline ∉ decimal n := by
  have digits_ (m : Nat) : newline ∉ digits m := fun found =>
    absurd (digit_of_mem_digits found) (by decide)
  unfold decimal
  split
  · intro found
    rcases List.mem_cons.mp found with same | found
    · exact absurd same (by decide)
    · exact digits_ _ found
  · exact digits_ _

private theorem newline_notMem_joined (inside : ∀ text ∈ texts, newline ∉ text) :
    newline ∉ joined texts := by
  induction texts with
  | nil => exact List.not_mem_nil
  | cons text rest ih =>
      have first := inside text List.mem_cons_self
      by_cases last : rest = []
      · subst last
        have single : joined [text] = text := List.intercalate_singleton
        rw [single]
        exact first
      · rw [joined_cons text last]
        intro found
        rcases List.mem_append.mp found with found | found
        · exact first found
        rcases List.mem_cons.mp found with same | found
        · exact absurd same (by decide)
        · exact ih (fun text later => inside text (List.mem_cons_of_mem _ later)) found

theorem newline_notMem_writeRecord (fields : List Field) : newline ∉ writeRecord fields := by
  have written (c : Content) : newline ∉ c.written := by
    cases c with
    | text s => exact newline_notMem_writeString s
    | count n => exact newline_notMem_decimal n
  intro found
  rcases List.mem_cons.mp found with same | found
  · exact absurd same (by decide)
  rcases List.mem_append.mp found with found | found
  · refine newline_notMem_joined (fun text member => ?_) found
    obtain ⟨m, listed, rfl⟩ := List.mem_map.mp member
    obtain ⟨f, -, rfl⟩ := List.mem_map.mp listed
    intro found
    rcases List.mem_append.mp found with found | found
    · exact newline_notMem_writeString f.name found
    rcases List.mem_cons.mp found with same | found
    · exact absurd same (by decide)
    · exact written f.content found
  · exact absurd found (by decide)

private theorem readLines_append (sofar : Bytes) (inside : newline ∉ text) (s : Bytes) :
    readLines sofar (text ++ s) = readLines (sofar ++ text) s := by
  induction text generalizing sofar with
  | nil => rw [List.nil_append, List.append_nil]
  | cons b rest ih =>
      have other : b ≠ newline := fun same => inside (same ▸ List.mem_cons_self)
      have later : newline ∉ rest := fun found => inside (List.mem_cons_of_mem b found)
      rw [List.cons_append, readLines, if_neg other, ih _ later, List.append_assoc]
      rfl

private theorem readLines_line (inside : newline ∉ text) (s : Bytes) :
    readLines [] (text ++ newline :: s) =
      (text :: (readLines [] s).1, (readLines [] s).2) := by
  rw [readLines_append [] inside, List.nil_append, readLines, if_pos rfl]

/-- The lines of a file come back, and of a file that was cut off so many as were complete. What
comes after the last newline is no line. -/
theorem readLines_take (inside : ∀ text ∈ texts, newline ∉ text) {torn : Bytes}
    (unfinished : newline ∉ torn) (n : Nat) :
    ∃ k, (readLines [] ((writeLines texts ++ torn).take n)).1 = texts.take k ∧
      ((writeLines texts).length ≤ n → texts.length ≤ k) := by
  have part {text : Bytes} (none : newline ∉ text) (n : Nat) :
      (readLines [] (text.take n)).1 = [] := by
    have fewer : newline ∉ text.take n := fun found => none (List.mem_of_mem_take found)
    rw [← List.append_nil (text.take n), readLines_append [] fewer]
    rfl
  induction texts generalizing n with
  | nil => exact ⟨0, part unfinished n, fun _ => Nat.le_refl 0⟩
  | cons text rest ih =>
      have first := inside text List.mem_cons_self
      have whole : writeLines (text :: rest) = text ++ newline :: writeLines rest := by
        rw [writeLines, List.flatMap_cons, List.append_assoc]
        rfl
      rw [whole, List.append_assoc, List.cons_append, List.length_append, List.length_cons]
      by_cases reached : text.length < n
      · obtain ⟨m, rfl⟩ : ∃ m, n = text.length + (m + 1) := ⟨n - text.length - 1, by omega⟩
        obtain ⟨k, read, all⟩ := ih (fun text later => inside text (List.mem_cons_of_mem _ later)) m
        refine ⟨k + 1, ?_, fun long => ?_⟩
        · rw [List.take_length_add_append, List.take_succ_cons, readLines_line first, read,
            List.take_succ_cons]
        · have enough := all (by omega)
          rw [List.length_cons]
          omega
      · refine ⟨0, ?_, fun long => by omega⟩
        rw [List.take_append_of_le_length (by omega)]
        exact part first n

end Lines

end L3Firewall.Foundation.JsonRecord
