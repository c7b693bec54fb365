import ReportSql.Catalog.Source
import ReportSql.Catalog.Telematics
import ReportSql.CommandLine.Invocation
import ReportSql.Execution.Exchange
import ReportSql.Gate.Verdict
import ReportSql.Report.Saved
import ReportSql.Settings.Basic
import ReportSql.Statement.Literal

/-!
# Running commands

What a command prints, given the files and variables around it. Settings are loaded first, then the
catalog, and then the command is carried out.
-/

namespace ReportSql.CommandLine

open ReportSql.Catalog (Registry)
open ReportSql.Report (Config)
open ReportSql.Settings (Environment)
open ReportSql.Statement (Compiled Options)

/-- Why a file cannot be read. -/
inductive FileFault where
  | missing
  | notDirectory
  | isDirectory
  | denied
  | notText
  deriving DecidableEq

namespace FileFault

def message : FileFault → String
  | missing => "No such file or directory (os error 2)"
  | notDirectory => "Not a directory (os error 20)"
  | isDirectory => "Is a directory (os error 21)"
  | denied => "Permission denied (os error 13)"
  | notText => "stream did not contain valid UTF-8"

end FileFault

/-- What a command can see: the texts of files, the variables that are set, and the time. Looking at
files and variables is an effect of `m`. -/
structure World (m : Type → Type) where
  file : String → m (Except FileFault String)
  lookup : String → m (Option String)
  now : Time.Instant

/-- What a command answers. -/
structure Outcome where
  exit : Nat
  stdout : String
  stderr : String
  deriving DecidableEq

namespace Outcome

/-- Success, with lines to print. -/
def ok (lines : List String) : Outcome :=
  ⟨0, .join (lines.map (· ++ "\n")), ""⟩

/-- Failure, with a line that says why. -/
def failed (line : String) : Outcome :=
  ⟨1, "", line ++ "\n"⟩

/-- A command line that asks for nothing known. -/
def misused : Outcome :=
  ⟨2, "", "error: unknown command or flag\n"⟩

end Outcome

variable {m : Type → Type} [Monad m]

/-- A step of a command, which may end the command with an outcome. -/
abbrev Step (m : Type → Type) :=
  ExceptT Outcome m

/-- Ends the command with the outcome that belongs to an error. -/
def orFail {ε α : Type} (describe : ε → String) (result : Except ε α) : Step m α :=
  match result with
  | .ok a => pure a
  | .error e => throw (.failed (describe e))

namespace World

/-- The text of a file. -/
def read (w : World m) (path : String) (describe : FileFault → String) : Step m String := do
  orFail describe (← w.file path)

/-- Is there anything under the path? -/
def isThere (w : World m) (path : String) : Step m Bool := do
  match (← w.file path) with
  | .error .missing | .error .notDirectory => return false
  | _ => return true

/-- The first of the paths that there is anything under. -/
def firstThere? (w : World m) : List String → Step m (Option String)
  | [] => return none
  | path :: rest => do
    if (← w.isThere path) then return some path else firstThere? w rest

/-- The given variables with their values. -/
def environment (w : World m) : List String → Step m Environment
  | [] => return fun _ => none
  | name :: rest => do
    let value ← w.lookup name
    let env ← environment w rest
    return fun n => if n = name then value else env n

end World

/-! ## Settings and catalog -/

/-- The words before what is wrong with the settings. -/
def settingsFailure (what : String) : String :=
  "Error loading settings: " ++ what

/-- The words before what is wrong with the catalog. -/
def catalogFailure (what : String) : String :=
  "Error loading catalog: " ++ what

/-- The settings in a file. -/
def settingsIn (w : World m) (path : String) : Step m Settings := do
  if (← w.isThere path) then
    let text ← w.read path fun fault =>
      settingsFailure ("Failed to read config file: " ++ fault.message)
    orFail (fun e => settingsFailure e.message) (Settings.ofText text)
  else throw (.failed (settingsFailure ("Config file not found: " ++ path)))

/-- The directory of the settings of a user. -/
def userDirectory? (xdg home : Option String) : Option String :=
  match xdg.filter fun d => d.toList.head? == some '/' with
  | some d => some d
  | none => (home.filter fun d => !d.isEmpty).map (· ++ "/.config")

/-- The files that may hold settings when none is named, the first one there being taken. -/
def settingsFiles (xdg home : Option String) : List String :=
  "query-probe.toml" ::
    ((userDirectory? xdg home).map (· ++ "/query-probe/config.toml")).toList

/-- The settings in force: those of the named file, or of the file that a variable names, or of the
first file found; else the standard ones. -/
def loadSettings (w : World m) (config : Option String) : Step m Settings := do
  match config with
  | some path => settingsIn w path
  | none =>
    match (← w.lookup "QUERY_PROBE_CONFIG") with
    | some path => settingsIn w path
    | none =>
      let xdg ← w.lookup "XDG_CONFIG_HOME"
      let home ← w.lookup "HOME"
      match (← w.firstThere? (settingsFiles xdg home)) with
      | some path => settingsIn w path
      | none => return .standard

/-- The catalog in a file. -/
def catalogIn (w : World m) (path : String) : Step m Registry := do
  let text ← w.read path fun fault =>
    catalogFailure ("Failed to read catalog " ++ path ++ ": " ++ fault.message)
  orFail (fun e => catalogFailure e.message) (Registry.ofText text)

/-- The catalog in force: that of the named file, or of the file that the settings name; else the
built-in one. -/
def loadCatalog (w : World m) (s : Settings) (catalog : Option String) : Step m Registry := do
  match catalog with
  | some path => catalogIn w path
  | none =>
    let env ← w.environment (s.catalog.path.elim [] Settings.variablesIn)
    match (← orFail (fun e => catalogFailure e.message) (s.catalogPath env)) with
    | some path => catalogIn w path
    | none => return .telematics

/-! ## Commands -/

/-- The text of a file that a command names. -/
def readFile (w : World m) (path : String) : Step m String :=
  w.read path fun fault => "Error reading file '" ++ path ++ "': " ++ fault.message

/-- The report in a file. -/
def readReport (w : World m) (path : String) : Step m Config := do
  let text ← readFile w path
  orFail (fun e => "Error parsing report '" ++ path ++ "': " ++ e.message) (Config.ofText text)

/-- Comments that list values by their positions, the first at `position`. -/
def parameterLines (position : Nat) : List Json.Value → List String
  | [] => []
  | v :: rest =>
    ("-- param " ++ .ofList (Decimal.natText position) ++ " = " ++ v.compactText)
      :: parameterLines (position + 1) rest

/-- Comments that describe a compiled report. -/
def headerLines (name path : String) (c : Compiled) : List String :=
  ["-- Report: " ++ name,
   "-- Source: " ++ path,
   "-- Dialect: " ++ c.dialect.name,
   "-- Joins: " ++ c.plan.text]
    ++ parameterLines 1 c.parameters
    ++ c.columns.map (fun column =>
      "-- column " ++ column.name ++ " (" ++ column.type.name ++ ")")
    ++ c.clamp.toList.map fun clamp =>
      "-- limit " ++ .ofList (Decimal.intText clamp.requested.toInt) ++ " clamped to "
        ++ .ofList (Decimal.natText clamp.applied.toNat)

/-- What is printed of a compiled report. -/
def compiledLines (mode : Mode) (path : String) (config : Config) (c : Compiled) : List String :=
  match mode with
  | .sql => [c.sql]
  | .inlined => [c.preview]
  | .preview => [(Execution.previewValue c).prettyText]
  | .execute => [(Execution.requestValue c).prettyText]
  | .json => [c.toValue.prettyText]
  | .verbose => headerLines (config.name.getD "(unnamed)") path c ++ ["", c.sql]

def runCompile (w : World m) (r : Registry) (o : Options) (path : String) (mode : Mode) :
    Step m Outcome := do
  let config ← readReport w path
  let compiled ← orFail (fun e => e.message) (Statement.compile r config o)
  return .ok (compiledLines mode path config compiled)

def runValidate (w : World m) (r : Registry) (path : String) : Step m Outcome := do
  let config ← readReport w path
  let _ ← orFail (fun e => e.message) (Statement.resolve r config)
  return .ok ["OK: " ++ path ++ " is valid"]

/-- The text of a statement to check. -/
def readSource (w : World m) : SqlSource → Step m String
  | .text s => pure s
  | .file path => readFile w path

def runCheck (w : World m) (source : SqlSource) : Step m Outcome := do
  let text ← readSource w source
  let accepted ← orFail (fun e => "Rejected: " ++ e.message) (Gate.check text.toList)
  return .ok [.ofList accepted]

/-- The line of an entity in a listing. -/
def entityLine (r : Registry) (id : String) : String :=
  match r.entity? id with
  | some e =>
    "  - " ++ e.id ++ " (" ++ e.schema ++ "." ++ e.table ++ ", "
      ++ .ofList (Decimal.natText e.fields.length) ++ " fields)"
  | none => "  - " ++ id

def runEntities (r : Registry) : Outcome :=
  .ok (r.listings.flatMap fun l =>
    (l.category.name ++ ":") :: l.entities.map (entityLine r) ++ [""])

def runPath (r : Registry) (start target : String) : Outcome :=
  match [start, target].find? fun id => (r.entity? id).isNone with
  | some id => .failed ("Unknown entity: " ++ id)
  | none =>
    match r.graph.path? start target with
    | none => .failed ("No join path from " ++ start ++ " to " ++ target)
    | some path =>
      if path.edges.isEmpty then .ok [start ++ " (no joins needed)"] else .ok [path.text]

/-- How a report is compiled under the settings and the flags of the command. -/
def compileOptions (w : World m) (s : Settings) (dialect : Option Sql.Dialect)
    (maxLimit : Option UInt64) : Step m Options := do
  let o := s.options w.now
  let o := { o with dialect := dialect.getD o.dialect }
  match maxLimit with
  | none => return o
  | some n =>
    if n = 0 then throw (.failed "--max-limit must be at least 1")
    else return { o with limits := { o.limits with cap := n } }

/-- Carries out a command. -/
def runCommand (w : World m) (s : Settings) (r : Registry) : Command → Step m Outcome
  | .compile path dialect mode maxLimit => do
    let o ← compileOptions w s dialect maxLimit
    runCompile w r o path mode
  | .validate path => runValidate w r path
  | .checkSql source => runCheck w source
  | .entities => return runEntities r
  | .path start target => return runPath r start target

/-- Loads settings and catalog, and carries out the command. -/
def runInvocation (w : World m) (i : Invocation) : Step m Outcome := do
  let s ← loadSettings w i.config
  let r ← loadCatalog w s i.catalog
  runCommand w s r i.command

/-- What the program answers to a command line. -/
def run (w : World m) (args : List String) : m Outcome :=
  match Invocation.ofArgs args with
  | none => return .misused
  | some i => do
    match (← (runInvocation w i).run) with
    | .ok outcome | .error outcome => return outcome

end ReportSql.CommandLine
