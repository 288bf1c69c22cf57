import Mathlib.Data.List.Basic
import Mathlib.Data.List.Forall2

/-!
# Markup

A text with tags, read one character at a time (`run`): text and the five character
references stand for characters, `<` opens a tag, and a quoted value inside of a tag may
hold any character but its quote. A text that is read from the text mode back to it
(`Reads`) may stand in a row with others, and an escaped text is read as its own
characters, whatever they are. `Nested` are the readings whose tags close in order.
-/

set_option autoImplicit false

namespace Markup

/-- What a reader comes across. -/
inductive Event where
  | char (c : Char)
  | tag (text : List Char)
  deriving DecidableEq, Repr

/-- Where the reader is, with what it has read of a reference or of a tag, last character first. -/
inductive Mode where
  | text
  | reference (name : List Char)
  | tag (text : List Char)
  | quoted (quote : Char) (text : List Char)
  deriving DecidableEq, Repr

/-- The character of a reference. -/
def referenced (name : List Char) : Option Char :=
  if name = ['a', 'm', 'p'] then some '&'
  else if name = ['l', 't'] then some '<'
  else if name = ['g', 't'] then some '>'
  else if name = ['q', 'u', 'o', 't'] then some '"'
  else if name = ['#', '3', '9'] then some '\''
  else none

/-- What was read behind an `&` and is no reference. -/
def literal (name : List Char) : List Event :=
  ('&' :: name).map .char

def Mode.step : Mode → Char → Mode × List Event
  | text, c =>
    if c = '<' then (tag [], [])
    else if c = '&' then (reference [], [])
    else (text, [.char c])
  | reference name, c =>
    if c = '<' then (tag [], literal name.reverse)
    else if c = '&' then (reference [], literal name.reverse)
    else if c = ';' then
      (text, match referenced name.reverse with
        | some c => [.char c]
        | none => literal (name.reverse ++ [';']))
    else (reference (c :: name), [])
  | tag t, c =>
    if c = '>' then (text, [.tag t.reverse])
    else if c = '"' ∨ c = '\'' then (quoted c (c :: t), [])
    else (tag (c :: t), [])
  | quoted q t, c => if c = q then (tag (c :: t), []) else (quoted q (c :: t), [])

/-- The mode behind a text, and the events in it. -/
def run : Mode → List Char → Mode × List Event
  | m, [] => (m, [])
  | m, c :: cs => ((run (m.step c).1 cs).1, (m.step c).2 ++ (run (m.step c).1 cs).2)

/-- The events of a whole text; there are none in a text that ends inside of a tag. -/
def read (cs : List Char) : Option (List Event) :=
  match run .text cs with
  | (.text, es) => some es
  | (.reference name, es) => some (es ++ literal name.reverse)
  | _ => none

theorem run_append (m : Mode) (cs ds : List Char) :
    run m (cs ++ ds) = ((run (run m cs).1 ds).1, (run m cs).2 ++ (run (run m cs).1 ds).2) := by
  induction cs generalizing m with
  | nil => simp [run]
  | cons c cs ih => simp [run, ih]

/-! ## Texts that leave the reader in the text -/

/-- The text is read as these events, and whatever follows it is read as it would be without it. -/
def Reads (cs : List Char) (es : List Event) : Prop :=
  run .text cs = (.text, es)

instance (cs : List Char) (es : List Event) : Decidable (Reads cs es) :=
  inferInstanceAs (Decidable (_ = _))

theorem Reads.read {cs : List Char} {es : List Event} (h : Reads cs es) : read cs = some es := by
  simp only [Markup.read, show run .text cs = (.text, es) from h]

theorem Reads.nil : Reads [] [] := rfl

theorem Reads.append {cs ds : List Char} {es fs : List Event} (hc : Reads cs es) (hd : Reads ds fs) :
    Reads (cs ++ ds) (es ++ fs) := by
  show run .text (cs ++ ds) = _
  rw [run_append, show run .text cs = _ from hc, show run .text ds = _ from hd]

theorem Reads.append_string {s t : String} {es fs : List Event} (hs : Reads s.toList es)
    (ht : Reads t.toList fs) : Reads (s ++ t).toList (es ++ fs) := by
  rw [String.toList_append]
  exact hs.append ht

theorem Reads.flatMap {α : Type} {f : α → List Char} {g : α → List Event}
    (h : ∀ a, Reads (f a) (g a)) (as : List α) : Reads (as.flatMap f) (as.flatMap g) := by
  induction as with
  | nil => exact Reads.nil
  | cons a as ih => exact (h a).append ih

theorem Reads.join {ss : List String} {ess : List (List Event)}
    (h : List.Forall₂ (fun s es => Reads s.toList es) ss ess) :
    Reads (String.join ss).toList ess.flatten := by
  induction h with
  | nil => exact Reads.nil
  | cons hs _ ih =>
    rw [String.join_cons]
    exact hs.append_string ih

/-- A text is read in one way. -/
theorem Reads.unique {cs : List Char} {es fs : List Event} (he : Reads cs es) (hf : Reads cs fs) :
    es = fs := by
  have h : (Mode.text, es) = (Mode.text, fs) := he.symm.trans hf
  cases h
  rfl

/-! ## Escaping -/

/-- What stands for a character in a text. -/
def escapeChar (c : Char) : List Char :=
  if c = '&' then ['&', 'a', 'm', 'p', ';']
  else if c = '<' then ['&', 'l', 't', ';']
  else if c = '>' then ['&', 'g', 't', ';']
  else if c = '"' then ['&', 'q', 'u', 'o', 't', ';']
  else if c = '\'' then ['&', '#', '3', '9', ';']
  else [c]

def escape (cs : List Char) : List Char :=
  cs.flatMap escapeChar

theorem reads_escapeChar (c : Char) : Reads (escapeChar c) [.char c] := by
  unfold escapeChar
  split
  · rename_i h
    subst h
    decide
  split
  · rename_i h
    subst h
    decide
  split
  · rename_i h
    subst h
    decide
  split
  · rename_i h
    subst h
    decide
  split
  · rename_i h
    subst h
    decide
  · rename_i hamp hlt _ _ _
    simp [Reads, run, Mode.step, hlt, hamp]

theorem reads_escape (cs : List Char) : Reads (escape cs) (cs.map .char) := by
  have h := Reads.flatMap reads_escapeChar cs
  rwa [← List.map_eq_flatMap] at h

theorem escape_injective {cs ds : List Char} (h : escape cs = escape ds) : cs = ds := by
  have hcs := reads_escape cs
  rw [h] at hcs
  exact (List.map_injective_iff.2 fun _ _ he => Event.char.inj he) (hcs.unique (reads_escape ds))

theorem newline_escapeChar (c : Char) : '\n' ∈ escapeChar c ↔ c = '\n' := by
  unfold escapeChar
  grind

/-! ## Line breaks -/

/-- The newlines of a text as tags. -/
def breakLines (cs : List Char) : List Char :=
  cs.flatMap fun c => if c = '\n' then ['<', 'b', 'r', ' ', '/', '>'] else [c]

/-- The events of a text whose newlines are tags. -/
def lines (cs : List Char) : List Event :=
  cs.map fun c => if c = '\n' then .tag ['b', 'r', ' ', '/'] else .char c

theorem breakLines_of_not_mem {cs : List Char} (h : '\n' ∉ cs) : breakLines cs = cs := by
  induction cs with
  | nil => rfl
  | cons c cs ih =>
    have hc : c ≠ '\n' := by grind
    have ht := ih (by grind)
    simp only [breakLines, List.flatMap_cons, hc, if_false] at ht ⊢
    rw [ht]
    rfl

theorem breakLines_append (cs ds : List Char) :
    breakLines (cs ++ ds) = breakLines cs ++ breakLines ds :=
  List.flatMap_append

/-- The newlines of an escaped text are those of the text. -/
theorem reads_breakLines_escape (cs : List Char) : Reads (breakLines (escape cs)) (lines cs) := by
  induction cs with
  | nil => exact Reads.nil
  | cons c cs ih =>
    have hcons : breakLines (escape (c :: cs)) = breakLines (escapeChar c) ++ breakLines (escape cs) :=
      breakLines_append _ _
    rw [hcons, show lines (c :: cs) = lines [c] ++ lines cs from rfl]
    apply Reads.append _ ih
    by_cases hc : c = '\n'
    · subst hc
      decide
    · rw [breakLines_of_not_mem (mt (newline_escapeChar c).1 hc)]
      simpa [lines, hc] using reads_escapeChar c

/-! ## Readings whose tags close in order -/

/-- The name of a tag. -/
def tagName (text : List Char) : List Char :=
  text.takeWhile (· ≠ ' ')

/-- A tag, what stands in it, and the tag that closes it. -/
def element (text : List Char) (es : List Event) : List Event :=
  .tag text :: es ++ [.tag ('/' :: tagName text)]

inductive Nested : List Event → Prop
  | nil : Nested []
  | char (c : Char) : Nested [.char c]
  | void {text : List Char} (h : text.getLast? = some '/') : Nested [.tag text]
  | element (text : List Char) {es : List Event} (h : Nested es) : Nested (element text es)
  | append {es fs : List Event} (he : Nested es) (hf : Nested fs) : Nested (es ++ fs)

theorem Nested.flatMap {α : Type} {f : α → List Event} (h : ∀ a, Nested (f a)) (as : List α) :
    Nested (as.flatMap f) := by
  induction as with
  | nil => exact .nil
  | cons a as ih => exact (h a).append ih

theorem nested_chars (cs : List Char) : Nested (cs.map .char) := by
  rw [List.map_eq_flatMap]
  exact Nested.flatMap (fun c => .char c) cs

theorem nested_lines (cs : List Char) : Nested (lines cs) := by
  rw [lines, List.map_eq_flatMap]
  apply Nested.flatMap
  intro c
  split
  · exact .void rfl
  · exact .char c

/-! ## What a reading tells of the texts in it -/

/-- Characters up to a tag are told from what is behind it. -/
theorem chars_append_tag {cs ds t u : List Char} {es fs : List Event}
    (h : cs.map .char ++ .tag t :: es = ds.map .char ++ .tag u :: fs) : cs = ds ∧ t = u ∧ es = fs := by
  induction cs generalizing ds with
  | nil =>
    cases ds with
    | nil => simpa using h
    | cons d ds => simp at h
  | cons c cs ih =>
    cases ds with
    | nil => simp at h
    | cons d ds =>
      simp only [List.map_cons, List.cons_append, List.cons.injEq, Event.char.injEq] at h
      obtain ⟨rfl, h⟩ := h
      obtain ⟨rfl, rest⟩ := ih h
      exact ⟨rfl, rest⟩

/-- So are lines, up to a tag that is no break. -/
theorem lines_append_tag {cs ds t u : List Char} {es fs : List Event}
    (ht : t ≠ ['b', 'r', ' ', '/']) (hu : u ≠ ['b', 'r', ' ', '/'])
    (h : lines cs ++ .tag t :: es = lines ds ++ .tag u :: fs) : cs = ds ∧ t = u ∧ es = fs := by
  induction cs generalizing ds with
  | nil =>
    cases ds with
    | nil => simpa [lines] using h
    | cons d ds =>
      simp only [lines, List.map_nil, List.nil_append, List.map_cons, List.cons_append] at h
      grind
  | cons c cs ih =>
    cases ds with
    | nil =>
      simp only [lines, List.map_nil, List.nil_append, List.map_cons, List.cons_append] at h
      grind
    | cons d ds =>
      simp only [lines, List.map_cons, List.cons_append, List.cons.injEq] at h
      obtain ⟨hcd, h⟩ := h
      obtain ⟨rfl, rest⟩ := ih h
      exact ⟨by grind, rest⟩

end Markup
