import TaintFlow.Schema.Basic

/-!
# The fact tables

The tables that discovery and the taint analysis read, in the order in which they are loaded.
-/

namespace TaintFlow.Schema

/-- A column that is always set and has no index. -/
def plain (name : String) (type : ColumnType) : Column :=
  { name, type }

/-- A column that may be NULL. -/
def optional (name : String) (type : ColumnType) : Column :=
  { name, type, nullable := true }

/-- A column that is always set and has an index. -/
def indexed (name : String) (type : ColumnType) : Column :=
  { name, type, indexed := true }

/-- The symbols of the code base and where they occur. -/
def symbols : Table where
  name := "symbols"
  columns :=
    [indexed "path" .text,
     indexed "name" .text,
     indexed "type" .text,
     plain "line" .integer,
     plain "col" .integer,
     optional "end_line" .integer,
     optional "type_annotation" .text,
     optional "parameters" .text,
     plain "is_typed" .boolean]
  primaryKey := ["path", "name", "line", "type", "col"]
  location := { file := "path", line := "line", column := "col" }

/-- Assignments: a target slot, the expression stored in it and the function they stand in. -/
def assignments : Table where
  name := "assignments"
  columns :=
    [indexed "file" .text,
     plain "line" .integer,
     indexed "target_var" .text,
     plain "source_expr" .text,
     indexed "in_function" .text,
     optional "property_path" .text]
  primaryKey := ["file", "line", "target_var"]
  location := { file := "file", line := "line" }

/-- The names that the right-hand side of an assignment reads. -/
def assignmentSources : Table where
  name := "assignment_sources"
  columns :=
    [plain "id" .integer,
     indexed "assignment_file" .text,
     plain "assignment_line" .integer,
     plain "assignment_target" .text,
     plain "source_var_name" .text]
  primaryKey := ["id"]
  location := { file := "assignment_file", line := "assignment_line" }

/-- Call arguments, one row per argument, with the parameter each is bound to. -/
def functionCallArgs : Table where
  name := "function_call_args"
  columns :=
    [indexed "file" .text,
     plain "line" .integer,
     indexed "caller_function" .text,
     indexed "callee_function" .text,
     optional "argument_index" .integer,
     optional "argument_expr" .text,
     optional "param_name" .text,
     optional "callee_file_path" .text]
  location := { file := "file", line := "line" }

/-- The parameters of functions. -/
def funcParams : Table where
  name := "func_params"
  columns :=
    [indexed "file" .text,
     indexed "function_name" .text,
     plain "param_index" .integer,
     plain "param_name" .text]
  primaryKey := ["file", "function_name", "param_index"]
  location := { file := "file" }

/-- Return statements. -/
def functionReturns : Table where
  name := "function_returns"
  columns :=
    [indexed "file" .text,
     plain "line" .integer,
     indexed "function_name" .text,
     plain "return_expr" .text,
     plain "has_jsx" .boolean,
     plain "returns_component" .boolean,
     optional "cleanup_operations" .text]
  primaryKey := ["file", "line", "function_name"]
  location := { file := "file", line := "line" }

/-- The names that a returned expression reads. -/
def functionReturnSources : Table where
  name := "function_return_sources"
  columns :=
    [plain "id" .integer,
     indexed "return_file" .text,
     plain "return_line" .integer,
     indexed "return_function" .text,
     plain "return_var_name" .text]
  primaryKey := ["id"]
  location := { file := "return_file", line := "return_line" }

/-- The basic blocks of the control-flow graphs. -/
def cfgBlocks : Table where
  name := "cfg_blocks"
  columns :=
    [indexed "id" .integer,
     indexed "file" .text,
     indexed "function_name" .text,
     plain "block_type" .text,
     plain "start_line" .integer,
     plain "end_line" .integer,
     optional "condition_expr" .text]
  primaryKey := ["id"]
  location := { file := "file", line := "start_line" }

/-- The edges of the control-flow graphs. -/
def cfgEdges : Table where
  name := "cfg_edges"
  columns :=
    [plain "id" .integer,
     indexed "file" .text,
     indexed "function_name" .text,
     indexed "source_block_id" .integer,
     indexed "target_block_id" .integer,
     plain "edge_type" .text]
  primaryKey := ["id"]
  location := { file := "file" }

/-- The statements of basic blocks. -/
def cfgBlockStatements : Table where
  name := "cfg_block_statements"
  columns :=
    [indexed "block_id" .integer,
     plain "statement_type" .text,
     plain "line" .integer,
     optional "statement_text" .text]

/-- HTTP endpoints and the functions that handle them. -/
def apiEndpoints : Table where
  name := "api_endpoints"
  columns :=
    [indexed "file" .text,
     optional "line" .integer,
     plain "method" .text,
     plain "pattern" .text,
     optional "path" .text,
     optional "has_auth" .boolean,
     { name := "handler_function", type := .text, nullable := true, indexed := true }]
  location := { file := "file", line := "line" }

/-- SQL queries found in the code. -/
def sqlQueries : Table where
  name := "sql_queries"
  columns :=
    [indexed "file_path" .text,
     plain "line_number" .integer,
     plain "query_text" .text,
     indexed "command" .text,
     plain "extraction_source" .text]
  primaryKey := ["file_path", "line_number"]
  location := { file := "file_path", line := "line_number" }

/-- Queries made through an object-relational mapper. -/
def ormQueries : Table where
  name := "orm_queries"
  columns :=
    [indexed "file" .text,
     plain "line" .integer,
     plain "query_type" .text,
     optional "includes" .text,
     optional "has_limit" .boolean,
     optional "has_transaction" .boolean]
  primaryKey := ["file", "line", "query_type"]
  location := { file := "file", line := "line" }

/-- Calls of validation frameworks. -/
def validationFrameworkUsage : Table where
  name := "validation_framework_usage"
  columns :=
    [indexed "file_path" .text,
     plain "line" .integer,
     plain "framework" .text,
     plain "method" .text,
     optional "variable_name" .text,
     plain "is_validator" .boolean,
     optional "argument_expr" .text]
  location := { file := "file_path", line := "line" }

/-- Reads and writes of environment variables. -/
def envVarUsage : Table where
  name := "env_var_usage"
  columns :=
    [indexed "file" .text,
     plain "line" .integer,
     indexed "var_name" .text,
     plain "access_type" .text,
     optional "in_function" .text,
     optional "property_access" .text]
  primaryKey := ["file", "line", "var_name", "access_type"]
  location := { file := "file", line := "line" }

/-- All fact tables in the order in which they are loaded. -/
def factTables : List Table :=
  [symbols, assignments, assignmentSources, functionCallArgs, funcParams,
   functionReturns, functionReturnSources, cfgBlocks, cfgEdges,
   cfgBlockStatements, apiEndpoints, sqlQueries, ormQueries,
   validationFrameworkUsage, envVarUsage]

end TaintFlow.Schema
