import TaintFlow.Discovery.Rule

/-!
# The built-in rules

The rules that are in force when none are given: sources in requests, arguments, standard input,
the environment and query results, and sinks that run queries, commands or code, open files or
connections, or write markup.
-/

namespace TaintFlow.Discovery

/-- The id of the rule for properties of request objects. -/
def requestRuleId : String := "source.symbol.request"

/-- How the names of request properties begin in the common web frameworks. -/
def requestPrefixes : List String :=
  ["req.", "request.", "ctx.request.", "ctx.query", "ctx.params", "ctx.req.", "event.body",
   "event.queryStringParameters", "event.pathParameters", "event.headers", "$_GET", "$_POST",
   "$_REQUEST", "$_COOKIE", "r.URL.", "r.Form", "r.PostForm"]

/-- The calls that run query text; other calls on a query's line do not feed it. -/
def queryCallees : List String :=
  ["query", "execute", "exec", "executemany", "executescript", "raw", "run", "all", "get",
   "each", "prepare", "Query", "QueryContext", "QueryRow", "QueryRowContext", "Exec",
   "ExecContext", "Prepare", "PrepareContext", "Raw", "$queryRaw", "$queryRawUnsafe",
   "$executeRaw", "$executeRawUnsafe", "literal", "extra", "text", "sql", "none", "mysqli_query",
   "pg_query", "executeQuery", "executeUpdate"]

/-- The rule for properties of request objects whose names begin in one of the given ways. -/
def requestRule (prefixes : List String) : Rule :=
  { id := requestRuleId, kind := .source, table := "symbols", category := "http_request",
    conditions :=
     [{ column := "type", op := .oneOf, values := ["property", "variable"] },
      { column := "name", op := .startsWith, values := prefixes }],
    risk := { kind := .fixed, level := .high }, symbol := "name" }

/-- The built-in rules in the order in which they are tried. -/
def builtinRules : List Rule :=
  [{ id := "source.endpoint", kind := .source, table := "api_endpoints", category := "http_request",
      risk := { kind := .auth, column := "has_auth" },
      function := "handler_function" },
   requestRule requestPrefixes,
   { id := "source.symbol.argv", kind := .source, table := "symbols", category := "positional_param",
      conditions :=
       [{ column := "name", op := .startsWith,
          values := ["process.argv", "sys.argv", "os.Args"] }],
      risk := { kind := .fixed, level := .medium },
      symbol := "name" },
   { id := "source.call.stdin", kind := .source, table := "function_call_args", category := "stdin",
      conditions :=
       [{ column := "callee_function", op := .lastSegmentIn,
          values := ["input", "raw_input", "readline", "readLine", "question"] }],
      risk := { kind := .fixed, level := .medium },
      assignTargets := true },
   { id := "source.call.stdin_stream", kind := .source, table := "function_call_args", category := "stdin",
      conditions :=
       [{ column := "callee_function", op := .startsWith,
          values := ["sys.stdin", "process.stdin", "os.Stdin", "bufio.NewReader(os.Stdin"] }],
      risk := { kind := .fixed, level := .medium },
      assignTargets := true },
   { id := "source.env", kind := .source, table := "env_var_usage", category := "env",
      risk := { kind := .fixed, level := .low },
      symbol := "property_access", symbolFallback := "var_name" },
   { id := "source.sql.select", kind := .source, table := "sql_queries", category := "database_read",
      conditions :=
       [{ column := "command", op := .eq,
          value := "SELECT", ignoreCase := true }],
      risk := { kind := .fixed, level := .low },
      assignTargets := true },
   { id := "sink.sql.query", kind := .sink, table := "sql_queries", category := "sql",
      risk := { kind := .structural, column := "query_text" },
      name := "command", args := { column := "query_text", sameLineCalls := true, callees := queryCallees } },
   { id := "sink.orm.raw", kind := .sink, table := "orm_queries", category := "sql",
      conditions :=
       [{ column := "query_type", op := .matchesPattern,
          value := "(^|\\.)(raw|query|\\$queryRaw|\\$queryRawUnsafe|\\$executeRaw|\\$executeRawUnsafe|literal|extra|execute)$", ignoreCase := true }],
      risk := { kind := .fixed, level := .medium },
      name := "query_type", args := { sameLineCalls := true, callees := queryCallees } },
   { id := "sink.call.command", kind := .sink, table := "function_call_args", category := "command",
      conditions :=
       [{ column := "callee_function", op := .lastSegmentIn,
          values := ["exec", "execSync", "spawn", "spawnSync", "execFile", "execFileSync",
                    "system", "popen", "shell_exec", "passthru"] }],
      risk := { kind := .structural, column := "argument_expr", level := .high },
      name := "callee_function", args := { column := "argument_expr" } },
   { id := "sink.call.subprocess", kind := .sink, table := "function_call_args", category := "command",
      conditions :=
       [{ column := "callee_function", op := .startsWith,
          values := ["subprocess.", "os.system", "os.popen", "exec.Command"] }],
      risk := { kind := .structural, column := "argument_expr", level := .high },
      name := "callee_function", args := { column := "argument_expr" } },
   { id := "sink.call.eval", kind := .sink, table := "function_call_args", category := "eval",
      conditions :=
       [{ column := "callee_function", op := .lastSegmentIn,
          values := ["eval", "Function", "execScript", "compile", "runInNewContext",
                    "runInThisContext"] }],
      risk := { kind := .structural, column := "argument_expr", level := .high },
      name := "callee_function", args := { column := "argument_expr" } },
   { id := "sink.call.eval_timer", kind := .sink, table := "function_call_args", category := "eval",
      conditions :=
       [{ column := "callee_function", op := .lastSegmentIn,
          values := ["setTimeout", "setInterval"] },
        { column := "argument_index", op := .eq,
          value := "0" },
        { column := "argument_expr", op := .matchesPattern,
          value := "^\\s*([\"'\x60]|[^=]*\\+)" }],
      risk := { kind := .structural, column := "argument_expr", level := .high },
      name := "callee_function", args := { column := "argument_expr" } },
   { id := "sink.call.filesystem", kind := .sink, table := "function_call_args", category := "filesystem",
      conditions :=
       [{ column := "callee_function", op := .lastSegmentIn,
          values := ["readFile", "readFileSync", "writeFile", "writeFileSync", "appendFile",
                    "appendFileSync", "createReadStream", "createWriteStream", "unlink",
                    "unlinkSync", "rmdir", "mkdir", "access", "sendFile", "open", "ReadFile",
                    "WriteFile", "Open", "OpenFile", "Remove"] },
        { column := "argument_expr", op := .notLiteral }],
      risk := { kind := .structural, column := "argument_expr" },
      name := "callee_function", args := { column := "argument_expr" } },
   { id := "sink.call.network", kind := .sink, table := "function_call_args", category := "network",
      conditions :=
       [{ column := "callee_function", op := .matchesPattern,
          value := "^(fetch|axios(\\.(get|post|put|delete|patch|request))?|http\\.(get|request|Get|Post|NewRequest)|https\\.(get|request)|requests\\.(get|post|put|delete|patch|request)|urllib\\.request\\.urlopen|urlopen|got|superagent\\.(get|post))$" },
        { column := "argument_index", op := .eq,
          value := "0" },
        { column := "argument_expr", op := .notLiteral }],
      risk := { kind := .structural, column := "argument_expr" },
      name := "callee_function", args := { column := "argument_expr" } },
   { id := "sink.assign.html", kind := .sink, table := "assignments", category := "xss",
      conditions :=
       [{ column := "target_var", op := .endsWith,
          values := ["innerHTML", "outerHTML"] }],
      risk := { kind := .fixed, level := .high },
      name := "target_var", args := { column := "source_expr" } },
   { id := "sink.call.document_write", kind := .sink, table := "function_call_args", category := "xss",
      conditions :=
       [{ column := "callee_function", op := .oneOf,
          values := ["document.write", "document.writeln"] }],
      risk := { kind := .fixed, level := .high },
      name := "callee_function", args := { column := "argument_expr" } },
   { id := "sink.call.ldap", kind := .sink, table := "function_call_args", category := "ldap",
      conditions :=
       [{ column := "callee_function", op := .contains,
          value := "ldap", ignoreCase := true },
        { column := "callee_function", op := .lastSegmentIn,
          values := ["search", "search_s", "bind", "add", "modify", "delete", "Search"] }],
      risk := { kind := .fixed, level := .medium },
      name := "callee_function", args := { column := "argument_expr" } }]

end TaintFlow.Discovery
