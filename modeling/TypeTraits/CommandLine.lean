import TypeTraits.Manifest
import TypeTraits.Session
import TypeTraits.Text.Typed

/-!
# `TypeTraits.CommandLine`: arguments and what they ask for

`CommandLine.parse` reads the arguments of the command: options, the name of a
subcommand, and its own options and operands. The options for the universe and
for more messages are understood before and behind the name; of two universes
the one behind it counts. `Invocation.run` gives what the command writes and
its exit code.

Arguments are read from the left, and the first that is wrong, or that asks for
the version or for help, decides.
-/

set_option autoImplicit false

namespace TypeTraits

/-- What a subcommand is asked to do. -/
inductive Command where
  | eval (queries : List String)
  | classify (text : String) (asJson : Bool)
  | predicates
  | repl
  | info
deriving DecidableEq, Repr

/-- A command and the file of its universe. -/
structure Invocation where
  command : Command
  universe? : Option String
deriving DecidableEq, Repr

/-- What the program writes, and its exit code. -/
structure Output where
  text : String
  exitCode : Nat
deriving DecidableEq, Repr

namespace CommandLine

/-- Why no command is run. -/
inductive Stop where
  | usage
  | help
  | version
deriving DecidableEq, Repr

/-- Where an argument stands. -/
inductive Level where
  /-- In front of the subcommand. -/
  | top
  /-- Behind a subcommand that takes so many operands, if that is limited, and perhaps
  the option for JSON. -/
  | command (operands : Option Nat) (takesJson : Bool)
deriving DecidableEq, Repr

/-- The options seen so far at one level. -/
structure Options where
  universe? : Option String
  verbose : Bool
  json : Bool
deriving DecidableEq, Repr

/-- No options. -/
def Options.none : Options := ⟨Option.none, false, false⟩

namespace Options

/-- The options with the file of a universe, which has a name and is given once. -/
def setUniverse (o : Options) (file : String) : Except Stop Options :=
  if file == "" || o.universe?.isSome then .error .usage else .ok { o with universe? := some file }

/-- The options with the wish for more messages, given once. -/
def setVerbose (o : Options) : Except Stop Options :=
  if o.verbose then .error .usage else .ok { o with verbose := true }

/-- The options with the wish for JSON, given once. -/
def setJson (o : Options) : Except Stop Options :=
  if o.json then .error .usage else .ok { o with json := true }

end Options

/-- Reads the letters of an argument with one dash. The boolean says whether the next
argument is the file of the universe. -/
def readShort (level : Level) (o : Options) : List Char → Except Stop (Options × Bool)
  | [] => .ok (o, false)
  | 'v' :: cs => do readShort level (← o.setVerbose) cs
  | 'u' :: [] => .ok (o, true)
  | 'u' :: '=' :: cs | 'u' :: cs => do return (← o.setUniverse (String.ofList cs), false)
  | 'h' :: _ => .error .help
  | 'V' :: _ => .error (if level = .top then .version else .usage)
  | _ => .error .usage

/-- Reads an argument with two dashes, without them. The boolean says whether the next
argument is the file of the universe. -/
def readLong (level : Level) (o : Options) (name : String) : Except Stop (Options × Bool) :=
  let assigned := "universe=".toList
  match name with
  | "verbose" => return (← o.setVerbose, false)
  -- The file is in the next argument.
  | "universe" => .ok (o, true)
  | "help" => .error .help
  | "version" => .error (if level = .top then .version else .usage)
  | "json" =>
    match level with
    | .command _ true => return (← o.setJson, false)
    | _ => .error .usage
  | _ =>
    -- Or it is in the same one, behind the sign.
    if assigned.isPrefixOf name.toList then
      return (← o.setUniverse (String.ofList (name.toList.drop assigned.length)), false)
    else .error .usage

/-- Whether the argument looks like an option: a dash and more. -/
def isOption (arg : String) : Bool :=
  match arg.toList with
  | '-' :: _ :: _ => true
  | _ => false

/-- The operands with one more, where so many are taken. -/
def addOperand (limit : Option Nat) (operands : List String) (arg : String) :
    Except Stop (List String) :=
  match limit with
  | some n => if operands.length < n then .ok (operands ++ [arg]) else .error .usage
  | none => .ok (operands ++ [arg])

/-- Reads arguments behind a subcommand. `awaitsFile` says whether the next is the file of
the universe. -/
def readOperands (operandLimit : Option Nat) (takesJson : Bool) (o : Options)
    (operands : List String) (awaitsFile : Bool) :
    List String → Except Stop (Options × List String)
  | [] => if awaitsFile then .error .usage else .ok (o, operands)
  | arg :: rest =>
    if awaitsFile then
      -- An option is not taken for the missing file.
      if isOption arg then .error .usage
      else do readOperands operandLimit takesJson (← o.setUniverse arg) operands false rest
    else
      match arg.toList with
      -- Behind `--` there are only operands, whatever they look like.
      | '-' :: '-' :: [] => do
        return (o, ← rest.foldlM (addOperand operandLimit) operands)
      | '-' :: '-' :: name => do
        let (o, awaitsFile) ← readLong (.command operandLimit takesJson) o (String.ofList name)
        readOperands operandLimit takesJson o operands awaitsFile rest
      | '-' :: c :: cs => do
        let (o, awaitsFile) ← readShort (.command operandLimit takesJson) o (c :: cs)
        readOperands operandLimit takesJson o operands awaitsFile rest
      | _ => do
        readOperands operandLimit takesJson o (← addOperand operandLimit operands arg)
          awaitsFile rest

/-- The names of the subcommands. -/
def subcommands : List String := ["eval", "classify", "predicates", "repl", "info", "help"]

/-- What follows the subcommand for help: nothing, or the one subcommand it is wanted for. -/
def readHelp : List String → Stop
  | [] => .help
  | [name] => if subcommands.contains name then .help else .usage
  | _ => .usage

/-- Reads a subcommand's arguments. -/
def readCommand (name : String) (args : List String) : Except Stop (Options × Command) := do
  match name with
  | "eval" =>
    match ← readOperands none false .none [] false args with
    | (_, []) => .error .usage
    | (o, queries) => return (o, .eval queries)
  | "classify" =>
    match ← readOperands (some 1) true .none [] false args with
    | (o, [text]) => return (o, .classify text o.json)
    | _ => .error .usage
  | "predicates" => return ((← readOperands (some 0) false .none [] false args).1, .predicates)
  | "repl" => return ((← readOperands (some 0) false .none [] false args).1, .repl)
  | "info" => return ((← readOperands (some 0) false .none [] false args).1, .info)
  | "help" => .error (readHelp args)
  | _ => .error .usage

/-- Reads all arguments from the top. `awaitsFile` says whether the next is the file of the
universe. -/
def readTop (o : Options) (awaitsFile : Bool) : List String → Except Stop Invocation
  | [] => .error .usage
  | arg :: rest =>
    if awaitsFile then
      if isOption arg then .error .usage else do readTop (← o.setUniverse arg) false rest
    else
      match arg.toList with
      | '-' :: '-' :: [] => .error .usage
      | '-' :: '-' :: name => do
        let (o, awaitsFile) ← readLong .top o (String.ofList name)
        readTop o awaitsFile rest
      | '-' :: c :: cs => do
        let (o, awaitsFile) ← readShort .top o (c :: cs)
        readTop o awaitsFile rest
      | _ => do
        let (inner, command) ← readCommand arg rest
        -- A file that is given behind the command goes before one in front of it.
        return ⟨command, inner.universe?.or o.universe?⟩

/-- The command of the arguments. -/
def parse (args : List String) : Except Stop Invocation := readTop .none false args

end CommandLine

/-- What is written where no command is run. Texts about usage go elsewhere. -/
def CommandLine.Stop.output : CommandLine.Stop → Output
  | usage => ⟨"", 2⟩
  | help => ⟨"", 0⟩
  | version => ⟨"tyq " ++ Session.version ++ "\n", 0⟩

namespace Command

/-- The catalog by layers, each predicate with those that it uses. -/
def listing (c : Catalog) : String :=
  let line (p : Predicate) : String :=
    if p.uses.isEmpty then "  " ++ p.name ++ "\n"
    else "  " ++ p.name ++ " <- " ++ ", ".intercalate p.uses ++ "\n"
  String.join (c.layers.mapIdx fun i ps =>
    "layer " ++ toString i ++ ":\n" ++ String.join (ps.map line))

/-- What there is: predicates, transformations and declared types. -/
def summary (s : Scope) : String :=
  "tyq - type classification and transformation\n" ++
    "Version: " ++ Session.version ++ "\n\n" ++
    "Predicates: " ++ toString s.catalog.size ++ "\n" ++
    "Layers: " ++ toString s.catalog.layers.length ++ "\n" ++
    "Transformations: " ++ toString Transformation.all.length ++ "\n" ++
    "Declared types: " ++ toString s.types.size ++ "\n"

/-- What a command writes in a scope, where the user types the lines. -/
def run (s : Scope) (lines : List String) : Command → Output
  | eval queries =>
    let o := Session.batch s queries
    ⟨o.text, if o.succeeded then 0 else 1⟩
  | classify text asJson =>
    match s.types.parseType text with
    | .error _ => ⟨"", 1⟩
    | .ok t =>
      let report := Report.ofType s.catalog t
      ⟨if asJson then report.json.pretty ++ "\n" else report.text, 0⟩
  | predicates => ⟨listing s.catalog, 0⟩
  | repl => ⟨Session.interactive s lines, 0⟩
  | info => ⟨summary s, 0⟩

end Command

/-- What the program writes. `manifest` is what the file of the universe holds, if there is
such a file, and `input` the text in which lines are typed. -/
def Invocation.run (i : Invocation) (manifest : Option String) (input : String) : Output :=
  let loaded := match i.universe?, manifest with
    | none, _ => some Universe.empty
    | some _, none => none
    | some _, some text => (Universe.ofManifest text).toOption
  match loaded with
  | some u => i.command.run (.ofUniverse u) (Text.typedLines input)
  | none => ⟨"", 1⟩

end TypeTraits
