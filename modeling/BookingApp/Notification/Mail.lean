import BookingApp.Encoding.Markup
import BookingApp.Notification.Sending

/-!
# The text and the HTML of a mail (`notification-templates/src/layout.ts`, `format.ts`, `index.ts`)

A template answers with blocks of text, some of them typed by a customer. The layout puts
them into a page of tables, escaped and with their newlines as breaks. Whatever the blocks
hold, the page is read as its own tags around just these texts, its tags close in order,
and two mails of the same HTML say the same.
-/

set_option autoImplicit false

namespace BookingApp.Mail

open Markup Sending

namespace COLOURS

def paper : String := "#f5f0e6"

def ink : String := "#1c1c1c"

def accent : String := "#d2691e"

def muted : String := "#6b6b6b"

def rule : String := "#e0d8c8"

end COLOURS

/-- Fields every message carries. -/
structure CommonData where
  businessName : String
  businessPhone : String
  addressLine : String
  businessEmail : String

/-- The body a template returns, before the layout wraps it. -/
structure TemplateOutput where
  subject : String
  blocks : List String
  sms : Option String := none

/-- `HTML_ESCAPES`, as the library's references. -/
def escapeHtml (value : String) : String :=
  String.ofList (escape value.toList)

/-- `.replace(/\n/g, '<br />')` -/
def withBreaks (value : String) : String :=
  String.ofList (breakLines value.toList)

def FOOTER (locale : Locale) (data : CommonData) : String :=
  match locale with
  | .de =>
    data.businessName ++ " · " ++ data.addressLine ++ " · " ++ data.businessPhone ++ "\n" ++
      "Diese Nachricht wurde automatisch versendet. Antworten erreichen uns unter " ++
      data.businessEmail ++ "."
  | .en =>
    data.businessName ++ " · " ++ data.addressLine ++ " · " ++ data.businessPhone ++ "\n" ++
      "This message was sent automatically. Replies reach us at " ++ data.businessEmail ++ "."

def paragraph (block : String) : String :=
  "<p style=\"margin:0 0 16px;font-size:16px;line-height:1.5;color:" ++ COLOURS.ink ++ ";\">" ++
    withBreaks (escapeHtml block) ++ "</p>"

def htmlShell (blocks : List String) (footer businessName : String) : String :=
  String.join [
    "<table role=\"presentation\" width=\"100%\" cellpadding=\"0\" cellspacing=\"0\" style=\"background:" ++
      COLOURS.paper ++ ";margin:0;padding:24px 0;\">",
    "<tr><td align=\"center\">",
    "<table role=\"presentation\" width=\"600\" cellpadding=\"0\" cellspacing=\"0\" style=\"width:600px;max-width:100%;background:#ffffff;border-radius:8px;\">",
    "<tr><td style=\"padding:24px 32px;border-bottom:3px solid " ++ COLOURS.accent ++ ";\">",
    "<span style=\"font-size:20px;font-weight:700;color:" ++ COLOURS.ink ++ ";letter-spacing:0.02em;\">" ++
      escapeHtml businessName ++ "</span>",
    "</td></tr>",
    "<tr><td style=\"padding:32px;\">" ++ String.join (blocks.map paragraph) ++ "</td></tr>",
    "<tr><td style=\"padding:16px 32px 24px;border-top:1px solid " ++ COLOURS.rule ++ ";\">",
    "<span style=\"font-size:12px;line-height:1.5;color:" ++ COLOURS.muted ++ ";\">" ++
      withBreaks (escapeHtml footer) ++ "</span>",
    "</td></tr>",
    "</table>",
    "</td></tr>",
    "</table>"]

/-- `renderLayout`: the text and the HTML. -/
def renderLayout (blocks : List String) (data : CommonData) (locale : Locale) : String × String :=
  let footer := FOOTER locale data
  (String.intercalate "\n\n" blocks ++ "\n\n—\n" ++ footer, htmlShell blocks footer data.businessName)

section Render

variable {Data : Type} (TEMPLATES : Locale → NotificationKind → Data → Locale → TemplateOutput)
  (common : Data → CommonData)

def render (kind : NotificationKind) (channel : NotificationChannel) (locale : Locale) (data : Data) :
    Rendered :=
  let output := TEMPLATES locale kind data locale
  match channel with
  | .SMS =>
    { text := output.sms.getD (output.blocks.head?.getD "")
      subject := none
      html := none }
  | .EMAIL =>
    { subject := some output.subject
      text := (renderLayout output.blocks (common data) locale).1
      html := some (renderLayout output.blocks (common data) locale).2 }

end Render

/-! ## The page -/

namespace Tags

def outer : String :=
  "table role=\"presentation\" width=\"100%\" cellpadding=\"0\" cellspacing=\"0\" style=\"background:#f5f0e6;margin:0;padding:24px 0;\""

def center : String := "td align=\"center\""

def inner : String :=
  "table role=\"presentation\" width=\"600\" cellpadding=\"0\" cellspacing=\"0\" style=\"width:600px;max-width:100%;background:#ffffff;border-radius:8px;\""

def header : String := "td style=\"padding:24px 32px;border-bottom:3px solid #d2691e;\""

def name : String := "span style=\"font-size:20px;font-weight:700;color:#1c1c1c;letter-spacing:0.02em;\""

def body : String := "td style=\"padding:32px;\""

def paragraph : String := "p style=\"margin:0 0 16px;font-size:16px;line-height:1.5;color:#1c1c1c;\""

def footer : String := "td style=\"padding:16px 32px 24px;border-top:1px solid #e0d8c8;\""

def small : String := "span style=\"font-size:12px;line-height:1.5;color:#6b6b6b;\""

theorem tagName_outer : tagName outer.toList = ['t', 'a', 'b', 'l', 'e'] := by
  rw [outer, String.toList_ofList]
  rfl

theorem tagName_center : tagName center.toList = ['t', 'd'] := by
  rw [center, String.toList_ofList]
  rfl

theorem tagName_inner : tagName inner.toList = ['t', 'a', 'b', 'l', 'e'] := by
  rw [inner, String.toList_ofList]
  rfl

theorem tagName_header : tagName header.toList = ['t', 'd'] := by
  rw [header, String.toList_ofList]
  rfl

theorem tagName_name : tagName name.toList = ['s', 'p', 'a', 'n'] := by
  rw [name, String.toList_ofList]
  rfl

theorem tagName_body : tagName body.toList = ['t', 'd'] := by
  rw [body, String.toList_ofList]
  rfl

theorem tagName_paragraph : tagName paragraph.toList = ['p'] := by
  rw [paragraph, String.toList_ofList]
  rfl

theorem tagName_footer : tagName footer.toList = ['t', 'd'] := by
  rw [footer, String.toList_ofList]
  rfl

theorem tagName_small : tagName small.toList = ['s', 'p', 'a', 'n'] := by
  rw [small, String.toList_ofList]
  rfl

end Tags

/-- A row of one cell. -/
def row (cell : String) (es : List Event) : List Event :=
  element "tr".toList (element cell.toList es)

/-- What a mail is read as: the header with the name, the paragraphs, and the footer. -/
def page (blocks : List String) (footer businessName : String) : List Event :=
  element Tags.outer.toList (row Tags.center (element Tags.inner.toList
    (row Tags.header (element Tags.name.toList (businessName.toList.map .char)) ++
      row Tags.body (blocks.flatMap fun block => element Tags.paragraph.toList (lines block.toList)) ++
      row Tags.footer (element Tags.small.toList (lines footer.toList)))))

theorem nested_row (cell : String) {es : List Event} (h : Nested es) : Nested (row cell es) :=
  (h.element cell.toList).element _

theorem nested_page (blocks : List String) (footer businessName : String) :
    Nested (page blocks footer businessName) := by
  apply Nested.element
  apply nested_row
  apply Nested.element
  have hname := (nested_chars businessName.toList).element Tags.name.toList
  have hblocks := Nested.flatMap
    (fun b : String => (nested_lines b.toList).element Tags.paragraph.toList) blocks
  have hfooter := (nested_lines footer.toList).element Tags.small.toList
  exact ((nested_row _ hname).append (nested_row _ hblocks)).append (nested_row _ hfooter)

theorem reads_escapeHtml (value : String) :
    Reads (escapeHtml value).toList (value.toList.map .char) := by
  rw [escapeHtml, String.toList_ofList]
  exact reads_escape value.toList

theorem reads_withBreaks (value : String) :
    Reads (withBreaks (escapeHtml value)).toList (lines value.toList) := by
  rw [withBreaks, escapeHtml, String.toList_ofList, String.toList_ofList]
  exact reads_breakLines_escape value.toList

/-- Tags with a colour in them. -/
theorem reads_coloured {before colour after : List Char} {es : List Event}
    (h : Reads (before ++ colour ++ after) es) :
    Reads (String.ofList before ++ String.ofList colour ++ String.ofList after).toList es := by
  simp only [String.toList_append, String.toList_ofList]
  exact h

theorem reads_paragraph (block : String) :
    Reads (paragraph block).toList (element Tags.paragraph.toList (lines block.toList)) := by
  have hopen : Reads ("<p style=\"margin:0 0 16px;font-size:16px;line-height:1.5;color:" ++ COLOURS.ink ++
      ";\">").toList [.tag Tags.paragraph.toList] := by
    apply reads_coloured
    rw [Tags.paragraph, String.toList_ofList]
    decide
  have hclose : Reads "</p>".toList [.tag ('/' :: tagName Tags.paragraph.toList)] := by
    rw [Tags.tagName_paragraph, String.toList_ofList]
    decide
  exact (hopen.append_string (reads_withBreaks block)).append_string hclose

theorem reads_cellEnd (cell : String) (h : tagName cell.toList = ['t', 'd']) :
    Reads "</td></tr>".toList [.tag ('/' :: tagName cell.toList), .tag ('/' :: tagName "tr".toList)] := by
  rw [h, String.toList_ofList, String.toList_ofList]
  decide

theorem reads_tableEnd (table : String) (h : tagName table.toList = ['t', 'a', 'b', 'l', 'e']) :
    Reads "</table>".toList [.tag ('/' :: tagName table.toList)] := by
  rw [h, String.toList_ofList]
  decide

theorem reads_spanEnd (span : String) (h : tagName span.toList = ['s', 'p', 'a', 'n']) :
    Reads "</span>".toList [.tag ('/' :: tagName span.toList)] := by
  rw [h, String.toList_ofList]
  decide

set_option maxRecDepth 1000 in
theorem reads_outer :
    Reads ("<table role=\"presentation\" width=\"100%\" cellpadding=\"0\" cellspacing=\"0\" style=\"background:" ++
      COLOURS.paper ++ ";margin:0;padding:24px 0;\">").toList [.tag Tags.outer.toList] := by
  apply reads_coloured
  rw [Tags.outer, String.toList_ofList]
  decide

theorem reads_center :
    Reads "<tr><td align=\"center\">".toList [.tag "tr".toList, .tag Tags.center.toList] := by
  rw [Tags.center, String.toList_ofList, String.toList_ofList, String.toList_ofList]
  decide

set_option maxRecDepth 1000 in
theorem reads_inner :
    Reads "<table role=\"presentation\" width=\"600\" cellpadding=\"0\" cellspacing=\"0\" style=\"width:600px;max-width:100%;background:#ffffff;border-radius:8px;\">".toList
      [.tag Tags.inner.toList] := by
  rw [Tags.inner, String.toList_ofList, String.toList_ofList]
  decide

theorem reads_header :
    Reads ("<tr><td style=\"padding:24px 32px;border-bottom:3px solid " ++ COLOURS.accent ++ ";\">").toList
      [.tag "tr".toList, .tag Tags.header.toList] := by
  apply reads_coloured
  rw [Tags.header, String.toList_ofList, String.toList_ofList]
  decide

set_option maxRecDepth 1000 in
theorem reads_name (businessName : String) :
    Reads ("<span style=\"font-size:20px;font-weight:700;color:" ++ COLOURS.ink ++ ";letter-spacing:0.02em;\">" ++
      escapeHtml businessName ++ "</span>").toList
      (element Tags.name.toList (businessName.toList.map .char)) := by
  have hopen : Reads ("<span style=\"font-size:20px;font-weight:700;color:" ++ COLOURS.ink ++
      ";letter-spacing:0.02em;\">").toList [.tag Tags.name.toList] := by
    apply reads_coloured
    rw [Tags.name, String.toList_ofList]
    decide
  exact (hopen.append_string (reads_escapeHtml businessName)).append_string
    (reads_spanEnd Tags.name Tags.tagName_name)

theorem reads_body (blocks : List String) :
    Reads ("<tr><td style=\"padding:32px;\">" ++ String.join (blocks.map paragraph) ++ "</td></tr>").toList
      (row Tags.body (blocks.flatMap fun block => element Tags.paragraph.toList (lines block.toList))) := by
  have hopen : Reads "<tr><td style=\"padding:32px;\">".toList [.tag "tr".toList, .tag Tags.body.toList] := by
    rw [Tags.body, String.toList_ofList, String.toList_ofList, String.toList_ofList]
    decide
  have hblocks : Reads (String.join (blocks.map paragraph)).toList
      (blocks.flatMap fun block => element Tags.paragraph.toList (lines block.toList)) := by
    rw [String.toList_join, List.flatMap_map]
    exact Reads.flatMap reads_paragraph blocks
  have h := (hopen.append_string hblocks).append_string (reads_cellEnd Tags.body Tags.tagName_body)
  simpa only [row, element, List.cons_append, List.nil_append, List.append_assoc] using h

theorem reads_footer :
    Reads ("<tr><td style=\"padding:16px 32px 24px;border-top:1px solid " ++ COLOURS.rule ++ ";\">").toList
      [.tag "tr".toList, .tag Tags.footer.toList] := by
  apply reads_coloured
  rw [Tags.footer, String.toList_ofList, String.toList_ofList]
  decide

theorem reads_small (footer : String) :
    Reads ("<span style=\"font-size:12px;line-height:1.5;color:" ++ COLOURS.muted ++ ";\">" ++
      withBreaks (escapeHtml footer) ++ "</span>").toList
      (element Tags.small.toList (lines footer.toList)) := by
  have hopen : Reads ("<span style=\"font-size:12px;line-height:1.5;color:" ++ COLOURS.muted ++
      ";\">").toList [.tag Tags.small.toList] := by
    apply reads_coloured
    rw [Tags.small, String.toList_ofList]
    decide
  exact (hopen.append_string (reads_withBreaks footer)).append_string
    (reads_spanEnd Tags.small Tags.tagName_small)

theorem reads_htmlShell (blocks : List String) (footer businessName : String) :
    Reads (htmlShell blocks footer businessName).toList (page blocks footer businessName) := by
  have hheader := reads_cellEnd Tags.header Tags.tagName_header
  have hfooter := reads_cellEnd Tags.footer Tags.tagName_footer
  have hinner := reads_tableEnd Tags.inner Tags.tagName_inner
  have hcenter := reads_cellEnd Tags.center Tags.tagName_center
  have houter := reads_tableEnd Tags.outer Tags.tagName_outer
  have h := Reads.join (.cons reads_outer (.cons reads_center (.cons reads_inner (.cons reads_header
    (.cons (reads_name businessName) (.cons hheader (.cons (reads_body blocks) (.cons reads_footer
    (.cons (reads_small footer) (.cons hfooter (.cons hinner (.cons hcenter (.cons houter .nil)))))))))))))
  simpa only [htmlShell, List.flatten_cons, List.flatten_nil, page, row, element, List.cons_append, List.nil_append,
    List.append_assoc, List.append_nil] using h

/-! ## What the page says -/

theorem paragraphs_inj {blocks blocks' : List String} {t : List Char} {es fs : List Event}
    (ht : t ≠ Tags.paragraph.toList)
    (h : (blocks.flatMap fun block => element Tags.paragraph.toList (lines block.toList)) ++ .tag t :: es =
      (blocks'.flatMap fun block => element Tags.paragraph.toList (lines block.toList)) ++ .tag t :: fs) :
    blocks = blocks' ∧ es = fs := by
  have hp : '/' :: tagName Tags.paragraph.toList ≠ ['b', 'r', ' ', '/'] := by simp
  induction blocks generalizing blocks' with
  | nil =>
    cases blocks' with
    | nil => simpa using h
    | cons b bs =>
      simp only [List.flatMap_nil, List.nil_append, List.flatMap_cons, element, List.cons_append,
        List.cons.injEq, Event.tag.injEq] at h
      exact absurd h.1 ht
  | cons a as ih =>
    cases blocks' with
    | nil =>
      simp only [List.flatMap_nil, List.nil_append, List.flatMap_cons, element, List.cons_append,
        List.cons.injEq, Event.tag.injEq] at h
      exact absurd h.1.symm ht
    | cons b bs =>
      simp only [List.flatMap_cons, element, List.cons_append, List.append_assoc, List.cons.injEq,
        List.nil_append] at h
      obtain ⟨-, h⟩ := h
      obtain ⟨hab, -, h⟩ := lines_append_tag hp hp h
      obtain ⟨rfl, rest⟩ := ih h
      rw [String.toList_inj.1 hab]
      exact ⟨rfl, rest⟩

/-- A page is that of one name, one list of blocks and one footer. -/
theorem page_inj {blocks blocks' : List String} {footer footer' name name' : String}
    (h : page blocks footer name = page blocks' footer' name') :
    name = name' ∧ blocks = blocks' ∧ footer = footer' := by
  simp only [page, row, element, List.cons_append, List.nil_append, List.append_assoc, List.cons.injEq,
    true_and] at h
  obtain ⟨hname, -, h⟩ := chars_append_tag h
  simp only [List.cons.injEq, true_and] at h
  have hbody : '/' :: tagName Tags.body.toList ≠ Tags.paragraph.toList := by
    rw [Tags.paragraph, String.toList_ofList]
    simp
  obtain ⟨hblocks, h⟩ := paragraphs_inj hbody h
  simp only [List.cons.injEq, true_and] at h
  have hsmall : '/' :: tagName Tags.small.toList ≠ ['b', 'r', ' ', '/'] := by simp
  obtain ⟨hfooter, -⟩ := lines_append_tag hsmall hsmall h
  exact ⟨String.toList_inj.1 hname, hblocks, String.toList_inj.1 hfooter⟩

section Mails

variable {Data : Type} (TEMPLATES : Locale → NotificationKind → Data → Locale → TemplateOutput)
  (common : Data → CommonData)

/-- What the HTML of a mail is read as. -/
def pageOf (kind : NotificationKind) (locale : Locale) (data : Data) : List Event :=
  page (TEMPLATES locale kind data locale).blocks (FOOTER locale (common data)) (common data).businessName

theorem read_html (kind : NotificationKind) (locale : Locale) (data : Data) :
    (render TEMPLATES common kind .EMAIL locale data).html.bind (fun html => read html.toList) =
      some (pageOf TEMPLATES common kind locale data) := by
  simp only [render, renderLayout, Option.bind_some]
  exact (reads_htmlShell _ _ _).read

/-- The HTML of a mail is read as its page, whose tags close in order, and the text part can be told
from it. -/
theorem mail_shows (kind : NotificationKind) (locale : Locale) (data : Data) :
    (render TEMPLATES common kind .EMAIL locale data).html.bind (fun html => read html.toList) =
        some (pageOf TEMPLATES common kind locale data) ∧
      Nested (pageOf TEMPLATES common kind locale data) ∧
      ∀ (kind' : NotificationKind) (locale' : Locale) (data' : Data),
        (render TEMPLATES common kind' .EMAIL locale' data').html =
            (render TEMPLATES common kind .EMAIL locale data).html →
          (render TEMPLATES common kind' .EMAIL locale' data').text =
            (render TEMPLATES common kind .EMAIL locale data).text := by
  refine ⟨read_html TEMPLATES common kind locale data, nested_page _ _ _, ?_⟩
  intro kind' locale' data' hsame
  have h := read_html TEMPLATES common kind' locale' data'
  rw [hsame, read_html] at h
  obtain ⟨-, hblocks, hfooter⟩ := page_inj (Option.some.inj h)
  simp only [render, renderLayout]
  rw [hblocks, hfooter]

end Mails

end BookingApp.Mail
