import TaintFlow.Json.Writer
import TaintFlow.Report.Encode
import TaintFlow.Text.Blank
import TaintFlow.Text.Case

/-!
# Reports as SARIF logs

A SARIF 2.1.0 log has one run per report and one result per finding, with the path as a code flow.
Findings of a category share one rule.

## Main definitions

* `Sarif.ruleId`, `Sarif.Rule`, `Sarif.rules` — the rules of a run in order of first use.
* `Sarif.result` — a finding.
* `Sarif.log` — the log of a list of reports.
-/

namespace TaintFlow.Sarif

/-- The name of the tool in a log. -/
def toolName : String := "scalpel-taint"

/-- Where to read about the tool. -/
def toolUri : String := "https://github.com/xkilldash9x/scalpel-taint"

/-- Where the schema of logs is found. -/
def schemaUri : String :=
  "https://raw.githubusercontent.com/oasis-tcs/sarif-spec/main/sarif-2.1/schema/sarif-schema-2.1.0.json"

/-- The category of findings that have no other one. -/
def otherCategory : String := "tainted_flow"

/-- What a category of findings is about. -/
def description : String → String
  | "sql_injection" => "Untrusted data reaches a SQL query."
  | "command_injection" => "Untrusted data reaches a shell command."
  | "code_injection" => "Untrusted data reaches dynamic code evaluation."
  | "path_traversal" => "Untrusted data reaches a filesystem path."
  | "ssrf" => "Untrusted data reaches an outbound request target."
  | "xss" => "Untrusted data reaches HTML output."
  | "ldap_injection" => "Untrusted data reaches an LDAP query."
  | "nosql_injection" => "Untrusted data reaches a NoSQL query."
  | _ => "Untrusted data reaches a sensitive operation."

/-- The identifier of the rule of a category. -/
def ruleId (category : String) : String :=
  let c := if category.isEmpty then otherCategory else category
  "TAINT-" ++ Text.upper (c.map fun x => if x == '_' then '-' else x)

/-- A rule: its identifier and the category it describes. -/
structure Rule where
  id : String
  category : String
  deriving DecidableEq, Repr

/-- Adds the rule of a category.  Categories with one identifier share a rule, which describes the
last of them. -/
def addRule (rules : List Rule) (category : String) : List Rule :=
  let id := ruleId category
  if rules.any (·.id == id) then
    rules.map fun r => if r.id == id then { r with category } else r
  else rules ++ [⟨id, category⟩]

/-- The rules of findings in order of first use. -/
def rules (findings : List Finding) : List Rule :=
  (findings.map Finding.category).foldl addRule []

/-- A rule as JSON. -/
def Rule.toJson (r : Rule) : Json :=
  .obj [("id", .str r.id), ("shortDescription", .obj [("text", .str (description r.category))]),
    ("properties", .obj [("tags", .strs ["security", "taint", r.category])])]

/-- The level of a severity. -/
def level : Severity → String
  | .critical => "error"
  | .high => "error"
  | .medium => "warning"
  | _ => "note"

/-- A place with a remark. -/
def place (file : String) (line : Int) (remark : String) : Json :=
  .obj [("physicalLocation", .obj ([("artifactLocation", .obj [("uri", .str file)])]
      ++ Json.opt (decide (0 < line)) "region" (.obj [("startLine", .ofInt line)]))),
    ("message", .obj [("text", .str (Text.trim remark))])]

/-- The remark of a step. -/
def stepRemark (s : PathStep) : String :=
  s.kind.name ++ (if s.detail.isEmpty then "" else " " ++ s.detail)
    ++ (if s.function.isEmpty then "" else " in " ++ s.function)

/-- The path of a finding as a code flow. -/
def codeFlow (path : List PathStep) : Json :=
  .obj [("threadFlows", .arr [.obj [("locations",
    .arr (path.map fun s => .obj [("location", place s.file s.line (stepRemark s))]))]])]

/-- The message of a finding. -/
def message (f : Finding) : String :=
  s!"{f.category} from {f.source.category} ({f.source.location.file}:{f.source.location.line}) "
    ++ s!"reaches {f.sink.category} ({f.sink.location.file}:{f.sink.location.line})"
    ++ (if f.truncated then "; path truncated at the hop limit" else "")

/-- A finding as a result. -/
def result (rules : List Rule) (f : Finding) : Json :=
  let id := ruleId f.category
  .obj [("properties", .obj [("hop_depth", .ofInt f.hopDepth), ("id", .str f.id),
      ("severity", .str f.severity.name), ("truncated", .bool f.truncated)]),
    ("ruleId", .str id), ("ruleIndex", .ofInt (rules.findIdx (·.id == id))),
    ("level", .str (level f.severity)), ("message", .obj [("text", .str (message f))]),
    ("locations",
      .arr [place f.sink.location.file f.sink.location.line ("sink: " ++ f.sink.name)]),
    ("codeFlows", .arr [codeFlow (f.path.getD [])]),
    ("relatedLocations",
      .arr [place f.source.location.file f.source.location.line ("source: " ++ f.source.name)])]

/-- A run with its findings. -/
def run (version : String) (findings : List Finding) (properties : List (String × Json)) : Json :=
  let rs := rules findings
  .obj ([("tool", .obj [("driver", .obj ([("informationUri", .str toolUri), ("name", .str toolName),
      ("rules", .arr (rs.map Rule.toJson))] ++ Json.optText "version" version))]),
    ("results", .arr (findings.map (result rs)))] ++ properties)

/-- The run of a report. -/
def reportRun (version : String) (r : Report) : Json :=
  run version (r.findings.getD [])
    [("properties", .obj [("incomplete", .bool r.incomplete), ("run_id", .str r.runId)])]

/-- The log of a list of reports; without any there is one empty run. -/
def log (version : String) (reports : List Report) : Json :=
  .obj [("version", .str "2.1.0"), ("$schema", .str schemaUri),
    ("runs", .arr (if reports.isEmpty then [run version [] []]
      else reports.map (reportRun version)))]

/-- The text of a log. -/
def text (version : String) (reports : List Report) : String :=
  (log version reports).indented .embedded 0

end TaintFlow.Sarif
