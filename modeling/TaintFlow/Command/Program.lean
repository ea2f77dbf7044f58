import TaintFlow.Command.Analyze
import TaintFlow.Command.Help
import TaintFlow.Discovery.Listing
import TaintFlow.Schema.Code.Generate
import TaintFlow.Schema.Definition

/-!
# The programs

Two programs: one that analyses fact stores and shows the rules and the schema it works with, and
one that only writes the code for the schema.

## Main definitions

* `Action` — what the commands do.
* `analyzer`, `generator` — the commands of the two programs.
* `runAnalyzer`, `runGenerator` — run a program on a command line.
-/

namespace TaintFlow.Command

/-- What the commands do. -/
inductive Action where
  | analyze
  | rules
  | generate
  | definition
  | version
  | help
  | completion (shell : String)
  deriving DecidableEq, Repr

/-! ### Commands -/

/-- The flag that names the settings file. -/
def configFlag : Flag :=
  { name := "config", letter := some 'c', usage := "config file (default is ./config.yaml)" }

/-- The flag that names a rule file. -/
def rulesFlag : Flag :=
  { name := "rules", usage := "YAML rule file replacing the built-in rules" }

/-- The command that analyses. -/
def analyzeCommand : Spec Action where
  name := "analyze"
  argsUsage := "[database]"
  short := "Runs taint analysis over a fact database and writes a report."
  long := "Loads the fact database, discovers sources and sinks, tracks taint between\n"
    ++ "them and writes the findings. The database is a SQLite file, a PostgreSQL URL\n"
    ++ "or a JSON fixture; it defaults to database.url from the configuration."
  flags :=
    [{ name := "max-hops", letter := some 'm', kind := .int, initial := "5",
       usage := "maximum call depth followed from a source" },
     { name := "timeout", kind := .duration, initial := "5m0s",
       usage := "overall analysis deadline, 0 disables it" },
     { name := "concurrency", letter := some 'j', kind := .int, initial := "4",
       usage := "functions analyzed in parallel" },
     { name := "format", letter := some 'f', initial := "json",
       usage := "report format: json, sarif or text" },
     { name := "output", letter := some 'o', initial := "-",
       usage := "report file, - for stdout" },
     rulesFlag,
     { name := "persist", kind := .switch,
       usage := "store the report in the PostgreSQL fact database" }]
  arity := .atMost 1
  action := some .analyze

/-- The command that lists the rules. -/
def rulesCommand : Spec Action where
  name := "rules"
  short := "Prints the effective source and sink rule table."
  long := "Prints the rules an analysis would run with: the configured rules file, or\n"
    ++ "the built-in rules when none is set. The yaml format can be edited and passed\n"
    ++ "back with --rules."
  flags :=
    [rulesFlag,
     { name := "format", letter := some 'f', initial := "table",
       usage := "output format: table or yaml" }]
  arity := .none
  action := some .rules

/-- The flags of a command that writes code, with what they say about the output file. -/
def generateFlags (outUsage : String) : List Flag :=
  [{ name := "out", letter := some 'o', initial := "facts_gen.go", usage := outUsage },
   { name := "package", initial := "facts", usage := "package name of the generated file" },
   { name := "check", kind := .switch,
     usage := "fail if the output file differs from what would be generated" }]

/-- The command that writes code for the schema. -/
def generateCommand : Spec Action where
  name := "generate"
  short := "Generates the typed fact tables and cache loader."
  flags := generateFlags "output file, - for stdout"
  arity := .none
  action := some .generate

/-- The command that prints the definition of the schema. -/
def definitionCommand : Spec Action where
  name := "ddl"
  argsUsage := "[table...]"
  short := "Prints CREATE TABLE statements for the fact schema."
  flags := [{ name := "dialect", initial := "sqlite", usage := "SQL dialect: sqlite or postgres" }]
  action := some .definition

/-- The command that prints the version. -/
def versionCommand : Spec Action where
  name := "version"
  short := "Prints the version."
  arity := .none
  action := some .version

/-- The name of the program that analyses. -/
def analyzerName : String := "scalpel-taint"

/-- The command that shows help. -/
def helpCommand : Spec Action where
  name := helpName
  argsUsage := "[command]"
  short := "Help about any command"
  long := "Help provides help for any command in the application.\nSimply type " ++ analyzerName
    ++ " help [path to command] for full details."
  action := some .help

/-- The command for the completions of a shell. -/
def completionCommand (shell : String) : Tree Action :=
  .node { name := shell, short := "Generate the autocompletion script for " ++ shell,
          arity := .none, action := some (.completion shell) } []

/-- The command that groups the completions. -/
def completionCommands : Tree Action :=
  .node { name := "completion",
          short := "Generate the autocompletion script for the specified shell",
          long := "Generate the autocompletion script for " ++ analyzerName
            ++ " for the specified shell.\nSee each sub-command's help for details on how to use "
            ++ "the generated script.",
          arity := .none } (["bash", "fish", "powershell", "zsh"].map completionCommand)

/-- The commands of the program that analyses. -/
def analyzer : Tree Action :=
  .node { name := analyzerName,
          short := "Static taint analysis over a relational code fact database.",
          sharedFlags := [configFlag], version := programVersion }
    [.node analyzeCommand [],
     .node { name := "schema", short := "Works with the declared fact schema." }
       [.node generateCommand [], .node definitionCommand []],
     .node rulesCommand [], .node versionCommand [], .node helpCommand [], completionCommands]

/-- The name of the program that writes code. -/
def generatorName : String := "schemagen"

/-- The flag that asks for a line on what was written. -/
def verboseFlag : Flag :=
  { name := "verbose", letter := some 'v', kind := .switch, usage := "report what was written" }

/-- The program that writes code for the schema. -/
def generator : Tree Action :=
  .node { name := generatorName,
          short := "Generate typed fact tables and the cache loader from the schema descriptors",
          flags := generateFlags "output file" ++ [verboseFlag],
          action := some .generate } []

/-! ### What the commands do -/

variable {m : Type → Type} [Monad m]

/-- Lists the rules that an analysis would run with. -/
def listRules (host : Host m) (s : Settings) (format : String) : m Outcome := do
  match ← Run.Plan.prepare host.disk host.home s with
  | .error f => return .failed f
  | .ok plan =>
    match format with
    | "table" => return .written (Discovery.ruleTable plan.engine.rules)
    | "yaml" => return .written (Discovery.ruleFile plan.engine.rules)
    | _ => return .failed (.because ("unsupported rules format: " ++ format))

/-- The options of a command that writes code. -/
def codeOptions (line : Parsed) : Schema.Code.Options :=
  .make (line.textOr "package" "facts") "" ""

/-- The file that a command writes code to. -/
def codeFile (line : Parsed) : String :=
  line.textOr "out" "facts_gen.go"

/-- Writes code for the schema to a file, or checks the file. -/
def writeCode (host : Host m) (line : Parsed) : m (Except Failure Unit) :=
  Schema.Code.writeFile host.disk (codeFile line) Schema.factTables (codeOptions line)
    (line.isOn "check")

/-- Writes code for the schema to a file or to standard output. -/
def generateCode (host : Host m) (line : Parsed) : m Outcome := do
  if codeFile line == "-" then
    return .ofExcept (Schema.Code.generate Schema.factTables (codeOptions line))
  else return .ofExcept ((← writeCode host line).map fun () => "")

/-- The tables that a list of names asks for, each once; all tables when there are no names. -/
def chosenTables (names : List String) : Except Failure (List Schema.Table) :=
  if names.isEmpty then .ok Schema.factTables
  else names.foldlM (fun chosen name =>
    match Schema.lookup? Schema.factTables name with
    | none => failBecause ("unknown table: " ++ name)
    | some t => .ok (if chosen.any (·.name == t.name) then chosen else chosen ++ [t])) []

/-- The definition of the tables that a command line asks for. -/
def definition (line : Parsed) : Except Failure String := do
  let dialect := line.textOr "dialect" "sqlite"
  if dialect ∉ ["sqlite", "postgres"] then
    failBecause ("unsupported dialect: " ++ dialect)
  return Schema.definitionText (← chosenTables line.args) (.ofName dialect)

/-- The help that a list of names asks for. -/
def helpOn (names : List String) : String :=
  match analyzer.locate [helpName] names with
  | .ok (p, _) => p.helpText
  | .error _ =>
    "Unknown help topic [" ++ Text.join " " (names.map fun n => "\x60" ++ n ++ "\x60") ++ "]\n"
      ++ Place.usageText ⟨[], analyzer⟩

/-- The flags of a command that set settings. -/
def Action.bound : Action → List String
  | .analyze => boundFlags.map (·.1)
  | .rules => ["rules"]
  | _ => []

/-- Does what a command does, with its settings. -/
def perform (host : Host m) (s : Settings) (line : Parsed) : Action → m Outcome
  | .analyze => analyze host s line
  | .rules => listRules host s (line.textOr "format" "table")
  | .generate => generateCode host line
  | .definition => return .ofExcept (definition line)
  | .version => return .written (analyzerName ++ " " ++ programVersion ++ "\n")
  | .help => return .written (helpOn line.args)
  | .completion shell => return .failed (.because ("no completion script for " ++ shell))

/-- Runs the program that analyses on a command line. -/
def runAnalyzer (host : Host m) (args : List String) : m Outcome := do
  match analyzer.read args with
  | .error f => return .failed f
  | .ok (.help p) => return .written p.helpText
  | .ok (.version v) => return .written (v ++ "\n")
  | .ok (.run _ action line) =>
    match ← configure host line action.bound with
    | .error f => return .failed f
    | .ok s => perform host s line action

/-- Runs the program that writes code on a command line. -/
def runGenerator (host : Host m) (args : List String) : m Outcome := do
  match generator.read args with
  | .error f => return .failed f
  | .ok (.help p) => return .written p.helpText
  | .ok (.version v) => return .written (v ++ "\n")
  | .ok (.run _ _ line) =>
    match ← writeCode host line with
    | .error f => return .failed f
    | .ok () =>
      let file := codeFile line
      let count := Schema.factTables.length
      if line.isOn "verbose" && !line.isOn "check" then
        return .written s!"wrote {file} ({count} tables)\n"
      else return .written ""

end TaintFlow.Command
