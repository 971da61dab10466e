/-
  File:      SchemaCompiler/Diagnostic/Report.lean
  Subject:   Diagnostics as text for a terminal.

  A report has the name of the file, a row for each diagnostic, an empty line and a summary:

      schema.json
        2:17-2:19  error    "multipleOf" requires a number > 0, got -1  normalize:shape-violation

      ✖ 1 error

  The positions of all rows are padded to one width, the labels to seven characters.
-/
import SchemaCompiler.Diagnostic.Basic

namespace SchemaCompiler

namespace Report

/-! ## 1. Styles -/

/-- How a piece of a report is drawn. -/
inductive Style where
  | underline | dimmed | red | green | yellow
  deriving DecidableEq, Repr

/-- The number of a style in a terminal's control sequence. -/
def Style.code : Style → String
  | .underline => "4"
  | .dimmed => "2"
  | .red => "31"
  | .green => "32"
  | .yellow => "33"

/-- The control sequence with a number. -/
def control (code : String) : String := "\x1b[" ++ code ++ "m"

/-- The control sequence that ends every style. -/
def reset : String := control "0"

/-- Draws a piece in a style, if styles are drawn at all. The style starts again after each reset
    inside the piece. -/
def paint (styled : Bool) (style : Style) (piece : String) : String :=
  if styled then
    let start := control style.code
    start ++ piece.replace reset (reset ++ start) ++ reset
  else piece

/-! ## 2. Rows -/

/-- Fills a text with blanks at its end up to a width. -/
def padRight (width : Nat) (text : String) : String :=
  text ++ String.ofList (List.replicate (width - text.length) ' ')

/-- The positions of the two ends of a span. -/
def rangeText (source : List Char) (span : Span) : String :=
  let first := Position.ofOffset source span.start
  let last := Position.ofOffset source span.stop
  s!"{first.line}:{first.column}-{last.line}:{last.column}"

def label (styled : Bool) : Severity → String
  | .fatal => paint styled .red (padRight 7 "error")
  | .warning => paint styled .yellow (padRight 7 "warning")

/-- The line of one diagnostic. -/
def row (styled : Bool) (width : Nat) (range : String) (d : Diagnostic) : String :=
  "  " ++ padRight width range ++ "  " ++ label styled d.severity ++ "  " ++ d.message ++ "  " ++
    paint styled .dimmed d.origin ++ "\n"

/-! ## 3. Summary -/

/-- A number of things. -/
def plural (n : Nat) (word : String) : String :=
  s!"{n} {word}" ++ if n = 1 then "" else "s"

/-- The last line of a report. -/
def summary (styled : Bool) (errors warnings : Nat) : String :=
  match errors, warnings with
  | 0, 0 => paint styled .green "✔" ++ " no issues found"
  | 0, w => paint styled .yellow "⚠" ++ " " ++ plural w "warning"
  | e, 0 => paint styled .red "✖" ++ " " ++ plural e "error"
  | e, w => paint styled .red "✖" ++ " " ++ plural e "error" ++ ", " ++ plural w "warning"

end Report

/-- The report on a file with the text `source`. -/
def report (styled : Bool) (file : String) (source : String) (ds : List Diagnostic) : String :=
  let ranges := ds.map fun d => Report.rangeText source.toList d.span
  let width := (ranges.map String.length).foldl max 0
  let rows := (ranges.zip ds).map fun (range, d) => Report.row styled width range d
  let warnings := Diagnostic.warnings ds
  Report.paint styled .underline file ++ "\n" ++ String.join rows ++ "\n" ++
    Report.summary styled (ds.length - warnings.length) warnings.length ++ "\n"

end SchemaCompiler
