/-
# `TemplateRenderer` — subjects and bodies

`app/template_renderer.py`.  Jinja itself is a parameter: given the autoescape flag, a
template and a context it answers with a text or raises.  What the module adds is here:
the context each mode renders with, the HTML table of a summary, and the translation of
template errors into `TemplateRenderError`.
-/
import EarlyWarning.SqlClient

namespace EarlyWarning

open Lib

/-- What a template may find in its context. -/
inductive ContextValue
  | text (s : String)
  | rows (rows : List Row)
  | count (n : Nat)
  /-- a `Markup`, which autoescape leaves alone -/
  | markup (s : String)
  | cell (value : SqlValue)
deriving DecidableEq

abbrev Context := OrderedDict String ContextValue

/-- `environment.from_string(template_text).render(**context)`, by the autoescape flag. -/
abbrev Jinja := Bool → String → Context → Except PyExc String

structure RenderedMessage where
  subject : String
  htmlBody : String
deriving DecidableEq

def templateRenderError (message : String) : PyExc :=
  ⟨.exception, "TemplateRenderError", message, some message, by decide, exception_text_ne message⟩

def render (jinja : Jinja) (templateText : String) (context : Context) (autoescape : Bool) :
    Except PyExc String :=
  match jinja autoescape templateText context with
  | .ok text => .ok text
  | .error exc =>
      if exc.cls = .templateError then .error (templateRenderError exc.text) else .error exc

/-- `html.escape` on one character. -/
def escapeChar (c : Char) : List Char :=
  match c with
  | '&' => "&amp;".toList
  | '<' => "&lt;".toList
  | '>' => "&gt;".toList
  | '"' => "&quot;".toList
  | '\'' => "&#x27;".toList
  | _ => [c]

def escape (s : String) : String := String.ofList (s.toList.flatMap escapeChar)

/-- One table row: a cell for each column, empty where the row has no such column. -/
def tableRow (columns : List String) (row : Row) : String :=
  let cells := columns.map fun column =>
    "<td>" ++ escape ((row.get? column).elim "" SqlValue.pyStr) ++ "</td>"
  "<tr>" ++ String.join cells ++ "</tr>"

/-- `_table` -/
def table (rows : List Row) : String :=
  match rows with
  | [] => "<table></table>"
  | first :: _ =>
      let columns := first.keys
      let header := String.join (columns.map fun column => "<th>" ++ escape column ++ "</th>")
      let body := String.join (rows.map (tableRow columns))
      "<table><thead><tr>" ++ header ++ "</tr></thead><tbody>" ++ body ++ "</tbody></table>"

def renderSummary (jinja : Jinja) (subjectTemplate bodyTemplate : String) (rows : List Row)
    (context : Context) : Except PyExc RenderedMessage := do
  let bodyContext := context.set "table" (.markup (table rows))
  let subject ← render jinja subjectTemplate context false
  let htmlBody ← render jinja bodyTemplate bodyContext true
  return { subject, htmlBody }

/-- `{**context, **row}` -/
def mergeRow (context : Context) (row : Row) : Context :=
  row.entries.foldl (fun merged e => merged.set e.1 (.cell e.2)) context

def renderPerRow (jinja : Jinja) (subjectTemplate bodyTemplate : String) (row : Row)
    (context : Context) : Except PyExc RenderedMessage := do
  let merged := mergeRow context row
  let subject ← render jinja subjectTemplate merged false
  let htmlBody ← render jinja bodyTemplate merged true
  return { subject, htmlBody }

end EarlyWarning
