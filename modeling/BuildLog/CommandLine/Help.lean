import BuildLog.Text.Paragraph

/-! Help pages: a line of usage, a summary, and tables of two columns. -/
namespace BuildLog.CommandLine

/-- A table under a title; each row has a term and a text, which may be empty. -/
structure HelpTable where
  title : Text
  rows : List (Text × Text)

structure HelpPage where
  usage : Text
  summary : Text
  tables : List HelpTable

def pageWidth : Nat := 80

namespace HelpTable

def column (table : HelpTable) : Nat :=
  (table.rows.map fun row => row.1.length).foldl max 0 + 2

def rowLines (column : Nat) (row : Text × Text) : List Text :=
  let (term, text) := row
  if text = [] then [Text.spaces 2 ++ term]
  else
    let lines := Text.layOut (max (pageWidth - column - 2) 10) text
    (Text.spaces 2 ++ term ++ Text.spaces (column - term.length) ++ lines.headD []) ::
      lines.tail.map fun line => Text.spaces (column + 2) ++ line

def lines (table : HelpTable) : List Text :=
  (table.title ++ [':']) :: table.rows.flatMap (rowLines table.column)

end HelpTable

def HelpPage.lines (page : HelpPage) : List Text :=
  let summary := if page.summary = [] then [] else [[], Text.spaces 2 ++ page.summary]
  ("Usage: ".toList ++ page.usage) :: summary ++ page.tables.flatMap fun table => [] :: table.lines

def HelpPage.text (page : HelpPage) : Text := Text.join ['\n'] page.lines

end BuildLog.CommandLine
