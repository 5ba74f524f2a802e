import TypeTraits.CommandLine

/-!
# `TypeTraits.Main`: the command

Reads the file of the universe and the standard input where the command asks
for them, and hands everything to `TypeTraits.CommandLine`.
-/

set_option autoImplicit false

namespace TypeTraits

/-- The text of a file, if it can be read. -/
def readFile? (path : String) : IO (Option String) := do
  try
    return some (← IO.FS.readFile path)
  catch _ =>
    return none

/-- What the command writes for its arguments, with its files and input read. -/
def respond (args : List String) : IO Output := do
  match CommandLine.parse args with
  | .error stop => return stop.output
  | .ok invocation =>
    let manifest ← match invocation.universe? with
      | some path => readFile? path
      | none => pure none
    let input ← match invocation.command with
      | .repl => (← IO.getStdin).readToEnd
      | _ => pure ""
    return invocation.run manifest input

end TypeTraits

/-- Runs the command and gives its exit code. -/
def main (args : List String) : IO UInt32 := do
  let output ← TypeTraits.respond args
  IO.print output.text
  return output.exitCode.toUInt32
