import ReportSql.Settings.Variables
import ReportSql.Statement.Compiled
import ReportSql.Toml.Document

/-!
# Settings

What is set once for all reports: the dialect and the limits of statements, where the catalog is,
and hints for the database side. Settings that are left out have standard values.
-/

namespace ReportSql.Settings

open ReportSql.Json (Value Reader RecordReader)
open ReportSql.Sql (Dialect)

/-- How statements are made. -/
structure CompilerSettings where
  dialect : Dialect
  defaultLimit : UInt64
  maxLimit : UInt64
  inferEncodings : Bool
  deriving DecidableEq

namespace CompilerSettings

def standard : CompilerSettings :=
  ⟨.postgres, 1000, 10000, true⟩

def reader : Reader CompilerSettings :=
  RecordReader.reader
    (mk <$> .fieldOr "dialect" standard.dialect Dialect.reader
      <*> .fieldOr "default_limit" standard.defaultLimit .uint64
      <*> .fieldOr "max_limit" standard.maxLimit .uint64
      <*> .fieldOr "infer_encodings" standard.inferEncodings .bool)

def toValue (s : CompilerSettings) : Value :=
  .object [("dialect", s.dialect.toValue),
    ("default_limit", .ofUInt64 s.defaultLimit),
    ("max_limit", .ofUInt64 s.maxLimit),
    ("infer_encodings", .bool s.inferEncodings)]

end CompilerSettings

/-- Where the catalog is; the built-in one unless a path is set. -/
structure CatalogSettings where
  path : Option String
  deriving DecidableEq

namespace CatalogSettings

def standard : CatalogSettings :=
  ⟨none⟩

def reader : Reader CatalogSettings :=
  RecordReader.reader (mk <$> .optional "path" .string)

def toValue (s : CatalogSettings) : Value :=
  .object [("path", s.path.elim .null .string)]

end CatalogSettings

/-- Hints for the database side. -/
structure ExecutionSettings where
  statementTimeoutMs : UInt64
  lockTimeoutMs : UInt64
  maxRows : UInt64
  deriving DecidableEq

namespace ExecutionSettings

def standard : ExecutionSettings :=
  ⟨300000, 5000, 10000⟩

def reader : Reader ExecutionSettings :=
  RecordReader.reader
    (mk <$> .fieldOr "statement_timeout_ms" standard.statementTimeoutMs .uint64
      <*> .fieldOr "lock_timeout_ms" standard.lockTimeoutMs .uint64
      <*> .fieldOr "max_rows" standard.maxRows .uint64)

def toValue (s : ExecutionSettings) : Value :=
  .object [("statement_timeout_ms", .ofUInt64 s.statementTimeoutMs),
    ("lock_timeout_ms", .ofUInt64 s.lockTimeoutMs),
    ("max_rows", .ofUInt64 s.maxRows)]

end ExecutionSettings

/-- Which settings cannot be used. -/
inductive SettingsError where
  /-- The text is no settings document. -/
  | unreadable
  | noMaxLimit
  | noDefaultLimit
  deriving DecidableEq

namespace SettingsError

def message : SettingsError → String
  | unreadable => "Failed to parse config file: not a settings document"
  | noMaxLimit => "Invalid configuration: compiler.max_limit must be at least 1"
  | noDefaultLimit => "Invalid configuration: compiler.default_limit must be at least 1"

end SettingsError

end ReportSql.Settings

namespace ReportSql

open ReportSql.Json (Value Reader RecordReader)
open ReportSql.Settings (CompilerSettings CatalogSettings ExecutionSettings)
open ReportSql.Statement (Options)

/-- All settings. -/
structure Settings where
  compiler : CompilerSettings
  catalog : CatalogSettings
  execution : ExecutionSettings
  deriving DecidableEq

namespace Settings

def standard : Settings :=
  ⟨.standard, .standard, .standard⟩

def reader : Reader Settings :=
  RecordReader.reader
    (mk <$> .fieldOr "compiler" .standard CompilerSettings.reader
      <*> .fieldOr "catalog" .standard CatalogSettings.reader
      <*> .fieldOr "execution" .standard ExecutionSettings.reader)

def toValue (s : Settings) : Value :=
  .object [("compiler", s.compiler.toValue),
    ("catalog", s.catalog.toValue),
    ("execution", s.execution.toValue)]

/-- Refuses settings under which no row could be shown. -/
def checked (s : Settings) : Except SettingsError Settings :=
  if s.compiler.maxLimit = 0 then .error .noMaxLimit
  else if s.compiler.defaultLimit = 0 then .error .noDefaultLimit
  else .ok s

/-- The settings that a text holds. -/
def ofText (text : String) : Except SettingsError Settings :=
  match Toml.read? reader text with
  | none => .error .unreadable
  | some s => s.checked

/-- How reports are compiled under the settings. -/
def options (s : Settings) (now : Time.Instant) : Options where
  dialect := s.compiler.dialect
  limits := ⟨s.compiler.defaultLimit, s.compiler.maxLimit⟩
  inferEncodings := s.compiler.inferEncodings
  now := now

/-- The path of the catalog with the variables in it put in, if a path is set. -/
def catalogPath (s : Settings) (env : Environment) : Except MissingVariable (Option String) :=
  match s.catalog.path with
  | none => .ok none
  | some path => (expand env path).map some

end Settings

end ReportSql
