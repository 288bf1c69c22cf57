import Mathlib.Data.List.Basic
import Mathlib.Data.List.Forall2
import Mathlib.Data.List.Nodup

/-!
# Comma-separated values (RFC 4180)

Records of fields over any alphabet with four marks: the separator, the quote and the
two characters of a line break. Every other character is text. A field that holds a
mark stands in quotes, and a quote inside of it is doubled. The grammar (`File`) and a
parser that reads one character at a time (`parse`) are told apart: the parser accepts
just the texts of the grammar, and reads each of them in its one way.
-/

set_option autoImplicit false

namespace Rfc4180

structure Marks (α : Type) where
  separator : α
  quote : α
  cr : α
  lf : α
  distinct : [separator, quote, cr, lf].Nodup

section Grammar

variable {α : Type} [DecidableEq α] (marks : Marks α)

/-- The characters that are no marks. -/
def Marks.IsText (c : α) : Prop :=
  c ∉ [marks.separator, marks.quote, marks.cr, marks.lf]

instance (c : α) : Decidable (marks.IsText c) := inferInstanceAs (Decidable (c ∉ _))

/-- The text with its quotes doubled. -/
def Marks.escape (value : List α) : List α :=
  value.flatMap fun c => if c = marks.quote then [marks.quote, marks.quote] else [c]

/-- The text of a field. -/
inductive Field : List α → List α → Prop
  | plain {value : List α} (h : ∀ c ∈ value, marks.IsText c) : Field value value
  | escaped (value : List α) : Field value (marks.quote :: marks.escape value ++ [marks.quote])

/-- The text of fields that are all followed by a separator. -/
inductive Begun : List (List α) → List α → Prop
  | nil : Begun [] []
  | snoc {row : List (List α)} {text value written : List α} (hrow : Begun row text)
      (hfield : Field marks value written) : Begun (row ++ [value]) (text ++ written ++ [marks.separator])

/-- The text of a record, of one field at least. -/
inductive Record : List (List α) → List α → Prop
  | last {row : List (List α)} {text value written : List α} (hrow : Begun marks row text)
      (hfield : Field marks value written) : Record (row ++ [value]) (text ++ written)

/-- The text of records that all end in a line break. -/
inductive Lines : List (List (List α)) → List α → Prop
  | nil : Lines [] []
  | snoc {rows : List (List (List α))} {row : List (List α)} {text line : List α} (hrows : Lines rows text)
      (hrow : Record marks row line) : Lines (rows ++ [row]) (text ++ line ++ [marks.cr, marks.lf])

/-- The text of a file: the last record may go without its line break, unless it is empty. -/
inductive File : List (List (List α)) → List α → Prop
  | lines {rows : List (List (List α))} {text : List α} (h : Lines marks rows text) : File rows text
  | last {rows : List (List (List α))} {row : List (List α)} {text line : List α} (hrows : Lines marks rows text)
      (hrow : Record marks row line) (hline : line ≠ []) : File (rows ++ [row]) (text ++ line)

/-! ## The parser -/

/-- Where the parser is: before a field, in a plain one, in quotes, behind a quote, or behind the
first character of a line break. -/
inductive Mode where
  | start
  | plain
  | quoted
  | closed
  | carriage
  deriving DecidableEq

/-- The records that are done, the fields of the record at hand, and the characters of its last one. -/
structure State (α : Type) where
  rows : List (List (List α))
  row : List (List α)
  cell : List α
  mode : Mode

def State.initial : State α where
  rows := []
  row := []
  cell := []
  mode := .start

def State.put (s : State α) (c : α) (mode : Mode) : State α :=
  { s with cell := s.cell ++ [c], mode := mode }

def State.endField (s : State α) : State α :=
  { s with row := s.row ++ [s.cell], cell := [], mode := .start }

def State.endRecord (s : State α) : State α where
  rows := s.rows ++ [s.row ++ [s.cell]]
  row := []
  cell := []
  mode := .start

/-- A mark behind a field. -/
def State.leave (s : State α) (c : α) : Option (State α) :=
  if c = marks.separator then some s.endField
  else if c = marks.cr then some { s with mode := .carriage }
  else none

def State.step (s : State α) (c : α) : Option (State α) :=
  match s.mode with
  | .start =>
    if c = marks.quote then some { s with mode := .quoted }
    else if marks.IsText c then some (s.put c .plain)
    else s.leave marks c
  | .plain => if marks.IsText c then some (s.put c .plain) else s.leave marks c
  | .quoted => if c = marks.quote then some { s with mode := .closed } else some (s.put c .quoted)
  | .closed => if c = marks.quote then some (s.put c .quoted) else s.leave marks c
  | .carriage => if c = marks.lf then some s.endRecord else none

def State.run (s : State α) (text : List α) : Option (State α) :=
  text.foldlM (State.step marks) s

/-- The end of the text. -/
def State.finish (s : State α) : Option (List (List (List α))) :=
  match s.mode with
  | .start => if s.row = [] then some s.rows else some s.endRecord.rows
  | .plain => some s.endRecord.rows
  | .closed => some s.endRecord.rows
  | .quoted => none
  | .carriage => none

def parse (text : List α) : Option (List (List (List α))) :=
  (State.initial.run marks text).bind State.finish

end Grammar

section Marks

variable {α : Type} {marks : Marks α}

theorem Marks.notText_quote : ¬ marks.IsText marks.quote := by simp [Marks.IsText]

theorem Marks.notText_separator : ¬ marks.IsText marks.separator := by simp [Marks.IsText]

theorem Marks.notText_cr : ¬ marks.IsText marks.cr := by simp [Marks.IsText]

theorem Marks.separator_ne_quote : marks.separator ≠ marks.quote := by
  have h := marks.distinct
  simp only [List.nodup_cons, List.mem_cons, not_or] at h
  exact h.1.1

theorem Marks.cr_ne_separator : marks.cr ≠ marks.separator := by
  have h := marks.distinct
  simp only [List.nodup_cons, List.mem_cons, not_or] at h
  exact fun heq => h.1.2.1 heq.symm

theorem Marks.cr_ne_quote : marks.cr ≠ marks.quote := by
  have h := marks.distinct
  simp only [List.nodup_cons, List.mem_cons, not_or] at h
  exact fun heq => h.2.1.1 heq.symm

end Marks

/-! ## Writing by the grammar -/

section Writing

variable {α : Type} [DecidableEq α] {marks : Marks α}

theorem record_append {row fields : List (List α)} {text : List α} {written : List (List α)}
    (hrow : Begun marks row text) (hfields : List.Forall₂ (Field marks) fields written) (hne : fields ≠ []) :
    Record marks (row ++ fields) (text ++ List.intercalate [marks.separator] written) := by
  induction hfields generalizing row text with
  | nil => exact absurd rfl hne
  | cons hfield hrest ih =>
    cases hrest with
    | nil =>
      rw [List.intercalate_singleton]
      exact .last hrow hfield
    | cons hnext hrest =>
      have hmore := ih (.snoc hrow hfield) (List.cons_ne_nil _ _)
      rw [List.intercalate_cons_cons]
      simpa using hmore

/-- The texts of fields with separators between them are a record. -/
theorem record_intercalate {fields written : List (List α)} (hfields : List.Forall₂ (Field marks) fields written)
    (hne : fields ≠ []) : Record marks fields (List.intercalate [marks.separator] written) :=
  record_append .nil hfields hne

theorem lines_append {rows more : List (List (List α))} {text : List α} {written : List (List α)}
    (hrows : Lines marks rows text) (hmore : List.Forall₂ (Record marks) more written) :
    Lines marks (rows ++ more) (text ++ written.flatMap fun line => line ++ [marks.cr, marks.lf]) := by
  induction hmore generalizing rows text with
  | nil => simpa using hrows
  | cons hrow hrest ih =>
    have hnext := ih (.snoc hrows hrow)
    simpa using hnext

/-- The texts of records, each with its line break, are a file. -/
theorem file_flatMap {rows : List (List (List α))} {written : List (List α)}
    (hrows : List.Forall₂ (Record marks) rows written) :
    File marks rows (written.flatMap fun line => line ++ [marks.cr, marks.lf]) :=
  .lines (lines_append .nil hrows)

end Writing

/-! ## What the grammar allows is read -/

section Reading

variable {α : Type} [DecidableEq α] {marks : Marks α} {s : State α}

theorem run_append (text rest : List α) :
    s.run marks (text ++ rest) = (s.run marks text).bind fun s' => s'.run marks rest :=
  List.foldlM_append ..

theorem run_singleton (c : α) : s.run marks [c] = s.step marks c := by
  simp [State.run]

theorem run_cons (c : α) (text : List α) :
    s.run marks (c :: text) = (s.step marks c).bind fun s' => s'.run marks text :=
  List.foldlM_cons ..

/-- Text before and inside of a plain field belongs to it. -/
theorem run_text {value : List α} (h : ∀ c ∈ value, marks.IsText c) (hmode : s.mode = .plain) :
    s.run marks value = some { s with cell := s.cell ++ value } := by
  induction value generalizing s with
  | nil => simp [State.run]
  | cons c rest ih =>
    have hc : marks.IsText c := h c (List.mem_cons_self ..)
    have hstep : s.step marks c = some (s.put c .plain) := by
      rw [State.step, hmode]
      exact if_pos hc
    rw [run_cons, hstep, Option.bind_some, ih (fun d hd => h d (List.mem_cons_of_mem _ hd)) rfl]
    simp [State.put, hmode]

/-- Doubled quotes and all else inside of quotes belong to the field. -/
theorem run_escape (value : List α) (hmode : s.mode = .quoted) :
    s.run marks (marks.escape value) = some { s with cell := s.cell ++ value } := by
  induction value generalizing s with
  | nil => simp [State.run, Marks.escape]
  | cons c rest ih =>
    rw [Marks.escape, List.flatMap_cons, ← Marks.escape, run_append]
    have hchar : s.run marks (if c = marks.quote then [marks.quote, marks.quote] else [c]) =
        some (s.put c .quoted) := by
      split
      · next hc =>
        subst hc
        have hclose : s.step marks marks.quote = some { s with mode := .closed } := by
          rw [State.step, hmode]
          exact if_pos rfl
        rw [run_cons, hclose, Option.bind_some, run_singleton]
        exact if_pos rfl
      · next hc =>
        rw [run_singleton, State.step, hmode]
        exact if_neg hc
    rw [hchar, Option.bind_some, ih rfl]
    simp [State.put, hmode]

/-- A field has been read, and a mark may follow: nothing was read, or the field has an end. -/
def Ended (mode : Mode) (written : List α) : Prop :=
  mode = .start ∧ written = [] ∨ (mode = .plain ∨ mode = .closed) ∧ written ≠ []

theorem run_field {value written : List α} (h : Field marks value written) (hmode : s.mode = .start)
    (hcell : s.cell = []) :
    ∃ mode, s.run marks written = some { s with cell := value, mode := mode } ∧ Ended mode written := by
  cases h with
  | plain h =>
    cases value with
    | nil =>
      refine ⟨.start, ?_, .inl ⟨rfl, rfl⟩⟩
      have hsame : s = { s with cell := [], mode := .start } := by rw [← hmode, ← hcell]
      exact congrArg some hsame
    | cons c rest =>
      refine ⟨.plain, ?_, .inr ⟨.inl rfl, List.cons_ne_nil _ _⟩⟩
      have hc := h c (List.mem_cons_self ..)
      have hquote : c ≠ marks.quote := fun heq => Marks.notText_quote (heq ▸ hc)
      have hstep : s.step marks c = some (s.put c .plain) := by
        rw [State.step, hmode]
        simp only [if_neg hquote, if_pos hc]
      rw [run_cons, hstep, Option.bind_some, run_text (fun d hd => h d (List.mem_cons_of_mem _ hd)) rfl]
      simp [State.put, hcell]
  | escaped =>
    refine ⟨.closed, ?_, .inr ⟨.inr rfl, List.cons_ne_nil _ _⟩⟩
    have hopen : s.step marks marks.quote = some { s with mode := .quoted } := by
      rw [State.step, hmode]
      exact if_pos rfl
    rw [List.cons_append, run_cons, hopen, Option.bind_some, run_append, run_escape _ rfl, Option.bind_some,
      run_singleton, State.step]
    simp [hcell]

/-- A mark that is no quote leaves a field that has ended. -/
theorem step_ended {written : List α} {c : α} (h : Ended s.mode written) (htext : ¬ marks.IsText c)
    (hquote : c ≠ marks.quote) : s.step marks c = s.leave marks c := by
  rw [State.step]
  rcases h with ⟨hmode, -⟩ | ⟨hmode | hmode, -⟩
  · rw [hmode]
    simp only [if_neg hquote, if_neg htext]
  · rw [hmode]
    exact if_neg htext
  · rw [hmode]
    exact if_neg hquote

theorem leave_separator : s.leave marks marks.separator = some s.endField :=
  if_pos rfl

theorem leave_cr : s.leave marks marks.cr = some { s with mode := .carriage } := by
  rw [State.leave, if_neg Marks.cr_ne_separator, if_pos rfl]

theorem run_begun {row : List (List α)} {text : List α} (h : Begun marks row text) (hmode : s.mode = .start)
    (hcell : s.cell = []) : s.run marks text = some { s with row := s.row ++ row } := by
  induction h with
  | nil => simp [State.run]
  | snoc hrow hfield ih =>
    rw [run_append, run_append, ih, Option.bind_some]
    obtain ⟨mode, hrun, hended⟩ := run_field hfield (s := { s with row := s.row ++ _ }) hmode hcell
    rw [hrun, Option.bind_some, run_singleton, step_ended hended Marks.notText_separator Marks.separator_ne_quote,
      leave_separator]
    simp [State.endField, hmode, hcell]

theorem begun_nil {text : List α} (h : Begun marks [] text) : text = [] := by
  generalize hrow : ([] : List (List α)) = row at h
  cases h with
  | nil => rfl
  | snoc => exact absurd hrow.symm (List.append_ne_nil_of_right_ne_nil _ (List.cons_ne_nil _ _))

theorem run_record {row : List (List α)} {line : List α} (h : Record marks row line) (hmode : s.mode = .start)
    (hrow : s.row = []) (hcell : s.cell = []) :
    ∃ s', s.run marks line = some s' ∧ s'.endRecord.rows = s.rows ++ [row] ∧
      ∃ written, Ended s'.mode written ∧ (s'.row = [] → line = written) := by
  cases h with
  | @last row text value written hbegun hfield =>
    obtain ⟨mode, hrun, hended⟩ := run_field hfield (s := { s with row := s.row ++ row }) hmode hcell
    refine ⟨{ s with row := s.row ++ row, cell := value, mode := mode }, ?_, ?_, written, hended, ?_⟩
    · rw [run_append, run_begun hbegun hmode hcell, Option.bind_some, hrun]
    · simp [State.endRecord, hrow]
    · intro hnil
      rw [(List.append_eq_nil_iff.mp hnil).2] at hbegun
      rw [begun_nil hbegun, List.nil_append]

theorem run_lines {rows : List (List (List α))} {text : List α} (h : Lines marks rows text) :
    State.initial.run marks text = some { State.initial with rows := rows } := by
  induction h with
  | nil => rfl
  | snoc hrows hrow ih =>
    rw [run_append, run_append, ih, Option.bind_some]
    obtain ⟨s', hrun, hend, written, hended, -⟩ := run_record hrow (s := { State.initial with rows := _ }) rfl rfl rfl
    rw [hrun, Option.bind_some, run_cons, step_ended hended Marks.notText_cr Marks.cr_ne_quote, leave_cr,
      Option.bind_some, run_singleton]
    refine Eq.trans (if_pos rfl) (congrArg some ?_)
    show s'.endRecord = _
    rw [← hend]
    rfl

/-- The texts of the grammar are read. -/
theorem parse_of_file {rows : List (List (List α))} {text : List α} (h : File marks rows text) :
    parse marks text = some rows := by
  cases h with
  | lines h =>
    rw [parse, run_lines h]
    rfl
  | last hrows hrow hline =>
    obtain ⟨s', hrun, hend, written, hended, hwritten⟩ :=
      run_record hrow (s := { State.initial with rows := _ }) rfl rfl rfl
    rw [parse, run_append, run_lines hrows, Option.bind_some, hrun, Option.bind_some, State.finish, ← hend]
    rcases hended with ⟨hmode, hnil⟩ | ⟨hmode | hmode, -⟩
    · rw [hmode]
      exact if_neg fun hempty => hline ((hwritten hempty).trans hnil)
    · rw [hmode]
    · rw [hmode]

end Reading

/-! ## What is read is of the grammar -/

section Grammar

variable {α : Type} [DecidableEq α] {marks : Marks α} {s s' : State α}

/-- The text of the field at hand. -/
inductive Part (marks : Marks α) : Mode → List α → List α → Prop
  | start : Part marks .start [] []
  | plain {value : List α} (h : ∀ c ∈ value, marks.IsText c) (hne : value ≠ []) : Part marks .plain value value
  | quoted (value : List α) : Part marks .quoted value (marks.quote :: marks.escape value)
  | closed (value : List α) : Part marks .closed value (marks.quote :: marks.escape value ++ [marks.quote])
  | carriage {value written : List α} (h : Field marks value written) : Part marks .carriage value (written ++ [marks.cr])

/-- The text that has been read when the parser is in a state. -/
structure Reads (marks : Marks α) (s : State α) (text : List α) : Prop where
  split : ∃ lines begun part, text = lines ++ (begun ++ part) ∧ Lines marks s.rows lines ∧ Begun marks s.row begun ∧
    Part marks s.mode s.cell part

/-- The field at hand is one of the grammar where it may end. -/
theorem Part.field {mode : Mode} {value part : List α} (h : Part marks mode value part)
    (hmode : mode = .start ∨ mode = .plain ∨ mode = .closed) : Field marks value part := by
  cases h with
  | start => exact .plain fun c hc => absurd hc List.not_mem_nil
  | plain h => exact .plain h
  | closed => exact .escaped _
  | quoted => simp at hmode
  | carriage => simp at hmode

theorem escape_append (value : List α) (c : α) :
    marks.escape (value ++ [c]) =
      marks.escape value ++ if c = marks.quote then [marks.quote, marks.quote] else [c] := by
  simp [Marks.escape]

theorem reads_leave {text : List α} {c : α} (h : Reads marks s text)
    (hmode : s.mode = .start ∨ s.mode = .plain ∨ s.mode = .closed) (hstep : s.leave marks c = some s') :
    Reads marks s' (text ++ [c]) := by
  obtain ⟨lines, begun, part, rfl, hlines, hbegun, hpart⟩ := h
  have hfield := hpart.field hmode
  unfold State.leave at hstep
  split at hstep
  · next hc =>
    subst hc
    obtain rfl := Option.some.inj hstep
    refine ⟨lines, begun ++ part ++ [marks.separator], [], ?_, hlines, .snoc hbegun hfield, .start⟩
    simp
  · split at hstep
    · next hc =>
      subst hc
      obtain rfl := Option.some.inj hstep
      refine ⟨lines, begun, part ++ [marks.cr], ?_, hlines, hbegun, .carriage hfield⟩
      simp
    · cases hstep

/-- One more character. -/
theorem reads_step {text : List α} {c : α} (h : Reads marks s text) (hstep : s.step marks c = some s') :
    Reads marks s' (text ++ [c]) := by
  obtain ⟨lines, begun, part, htext, hlines, hbegun, hpart⟩ := id h
  have hnext : ∀ cell mode, Part marks mode cell (part ++ [c]) →
      Reads marks { s with cell := cell, mode := mode } (text ++ [c]) := by
    intro cell mode hpart'
    exact ⟨lines, begun, part ++ [c], by simp [htext], hlines, hbegun, hpart'⟩
  have hleave : ∀ hmode, State.leave marks s c = some s' → Reads marks s' (text ++ [c]) :=
    fun hmode => reads_leave h hmode
  rcases s with ⟨rows, row, cell, mode⟩
  unfold State.step at hstep
  cases hpart with
  | start =>
    dsimp only at hstep
    split at hstep
    · next hc =>
      subst hc
      obtain rfl := Option.some.inj hstep
      exact hnext [] .quoted (.quoted [])
    · split at hstep
      · next hc =>
        obtain rfl := Option.some.inj hstep
        exact hnext [c] .plain (.plain (List.forall_mem_singleton.mpr hc) (List.cons_ne_nil _ _))
      · exact hleave (.inl rfl) hstep
  | plain hvalue hne =>
    dsimp only at hstep
    split at hstep
    · next hc =>
      obtain rfl := Option.some.inj hstep
      have hmore : ∀ d ∈ cell ++ [c], marks.IsText d :=
        List.forall_mem_append.mpr ⟨hvalue, List.forall_mem_singleton.mpr hc⟩
      exact hnext _ .plain (.plain hmore (List.append_ne_nil_of_right_ne_nil _ (List.cons_ne_nil _ _)))
    · exact hleave (.inr (.inl rfl)) hstep
  | quoted =>
    dsimp only at hstep
    split at hstep
    · next hc =>
      subst hc
      obtain rfl := Option.some.inj hstep
      exact hnext cell .closed (.closed cell)
    · next hc =>
      obtain rfl := Option.some.inj hstep
      have hmore : Part marks .quoted _ _ := .quoted (cell ++ [c])
      rw [escape_append, if_neg hc] at hmore
      exact hnext _ .quoted hmore
  | closed =>
    dsimp only at hstep
    split at hstep
    · next hc =>
      subst hc
      obtain rfl := Option.some.inj hstep
      have hmore : Part marks .quoted _ _ := .quoted (cell ++ [marks.quote])
      rw [escape_append, if_pos rfl] at hmore
      apply hnext _ .quoted
      simpa using hmore
    · exact hleave (.inr (.inr rfl)) hstep
  | carriage hfield =>
    dsimp only at hstep
    split at hstep
    · next hc =>
      subst hc
      obtain rfl := Option.some.inj hstep
      have hmore := Lines.snoc hlines (.last hbegun hfield)
      refine ⟨_, [], [], ?_, hmore, .nil, .start⟩
      simp [htext]
    · cases hstep

theorem reads_run {text rest : List α} (h : Reads marks s text) (hrun : s.run marks rest = some s') :
    Reads marks s' (text ++ rest) := by
  induction rest generalizing s text with
  | nil =>
    obtain rfl := Option.some.inj hrun
    rwa [List.append_nil]
  | cons c rest ih =>
    rw [run_cons] at hrun
    obtain ⟨next, hstep, hrun⟩ := Option.bind_eq_some_iff.mp hrun
    have hmore := ih (reads_step h hstep) hrun
    rwa [List.append_assoc] at hmore

theorem reads_initial : Reads marks State.initial [] :=
  ⟨[], [], [], rfl, .nil, .nil, .start⟩

/-- What the state has read is a file when the text may end. -/
theorem file_of_finish {text : List α} {rows : List (List (List α))} (h : Reads marks s text)
    (hfinish : s.finish = some rows) : File marks rows text := by
  obtain ⟨lines, begun, part, rfl, hlines, hbegun, hpart⟩ := h
  rcases s with ⟨rows', row, cell, mode⟩
  have hlast : ∀ {written : List α}, Field marks cell written → begun ++ written ≠ [] →
      File marks (rows' ++ [row ++ [cell]]) (lines ++ (begun ++ written)) :=
    fun hfield hne => .last hlines (.last hbegun hfield) hne
  unfold State.finish at hfinish
  cases hpart with
  | start =>
    dsimp only at hfinish
    split at hfinish
    · next hrow =>
      obtain rfl := Option.some.inj hfinish
      rw [hrow] at hbegun
      rw [begun_nil hbegun]
      simpa using File.lines hlines
    · next hrow =>
      obtain rfl := Option.some.inj hfinish
      apply hlast (Part.field .start (.inl rfl))
      cases hbegun with
      | nil => exact absurd rfl hrow
      | snoc => simp
  | plain hvalue hne =>
    obtain rfl := Option.some.inj hfinish
    exact hlast (.plain hvalue) (List.append_ne_nil_of_right_ne_nil _ hne)
  | closed =>
    obtain rfl := Option.some.inj hfinish
    exact hlast (.escaped cell) (List.append_ne_nil_of_right_ne_nil _ (List.cons_ne_nil _ _))
  | quoted => cases hfinish
  | carriage => cases hfinish

/-- The parser reads the texts of the grammar, each in its one way, and no other text. -/
theorem parse_eq_some_iff {text : List α} {rows : List (List (List α))} :
    parse marks text = some rows ↔ File marks rows text := by
  constructor
  · intro h
    obtain ⟨s, hrun, hfinish⟩ := Option.bind_eq_some_iff.mp h
    exact file_of_finish (reads_run reads_initial hrun) hfinish
  · exact parse_of_file

end Grammar

end Rfc4180
