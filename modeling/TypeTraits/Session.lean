import TypeTraits.Query.Evaluation
import TypeTraits.Report
import TypeTraits.Text.Blank

/-!
# `TypeTraits.Session`: many queries, one after the other

Queries are answered in one of two ways. `Session.batch` takes a list and stops
at the first query that has no value. `Session.interactive` takes lines, each a
query or a command, and goes on after a failure; only values and the answers of
commands are written.

In both, a query is evaluated in the same scope, whatever came before it.
-/

set_option autoImplicit false

namespace TypeTraits.Session

/-! ### Batches -/

/-- What was written, and whether all went well. -/
structure Outcome where
  text : String
  succeeded : Bool
deriving DecidableEq, Repr

/-- The line for a query's value; the query stands in front of it if `labelled`. -/
def valueLine (labelled : Bool) (query : String) (v : Value) : String :=
  if labelled then query ++ " = " ++ v.text ++ "\n" else v.text ++ "\n"

/-- The lines for queries up to the first that has no value. -/
def answers (s : Scope) (labelled : Bool) : List String → Outcome
  | [] => ⟨"", true⟩
  | q :: qs =>
    match s.evaluateText q with
    | .error _ => ⟨"", false⟩
    | .ok v =>
      let rest := answers s labelled qs
      ⟨valueLine labelled q v ++ rest.text, rest.succeeded⟩

/-- The answers to a list of queries. -/
def batch (s : Scope) (queries : List String) : Outcome := answers s (queries.length > 1) queries

/-! ### Lines -/

/-- A line of an interactive session. -/
inductive Line where
  | blank
  | quit
  | help
  | declared
  | classify (text : String)
  | query (text : String)
deriving DecidableEq, Repr

/-- The word that asks for a classification, with the blank behind it. -/
def classifyCommand : String := ":classify "

/-- What the user wants with a line. -/
def Line.ofText (line : String) : Line :=
  let text := Text.trim line
  if text == "" then blank
  else if text == ":quit" || text == ":q" then quit
  else if text == ":help" || text == ":h" then help
  else if text == ":universe" then declared
  -- Without a type behind it the command is a query like any other text.
  else if classifyCommand.toList.isPrefixOf text.toList then
    classify (String.ofList (text.toList.drop classifyCommand.length))
  else query text

/-- The list of commands. -/
def helpText : String :=
  "Commands:\n" ++
    "  :help, :h         Show this help\n" ++
    "  :quit, :q         Exit the REPL\n" ++
    "  :classify <type>  Show every predicate for a type\n" ++
    "  :universe         List declared types\n" ++
    "  <query>           Evaluate, e.g. decay<int[3]>\n\n"

/-- What is written for a line. Nothing is written for what has no value. -/
def answer (s : Scope) : Line → String
  | .blank | .quit => ""
  | .help => helpText
  | .declared =>
    String.join (s.types.entries.map fun (name, t) => "  " ++ name ++ " = " ++ t.spelling ++ "\n")
  | .classify text =>
    match s.types.parseType text with
    | .ok t => (Report.ofType s.catalog t).text
    | .error _ => ""
  | .query text =>
    match s.evaluateText text with
    | .ok v => v.text ++ "\n"
    | .error _ => ""

/-- What is written for lines up to the one that quits. -/
def dialogue (s : Scope) : List String → String
  | [] => ""
  | line :: rest =>
    match Line.ofText line with
    -- Nothing behind this line is read.
    | .quit => ""
    | l => answer s l ++ dialogue s rest

/-- The release that the program names. -/
def version : String := "0.4.0"

/-- What opens an interactive session. -/
def banner : String :=
  "tyq REPL v" ++ version ++ "\nType :help for help, :quit to exit\n\n"

/-- What closes an interactive session. -/
def farewell : String := "Goodbye!\n"

/-- What is written in an interactive session with the lines of a user. -/
def interactive (s : Scope) (lines : List String) : String :=
  banner ++ dialogue s lines ++ farewell

end TypeTraits.Session
