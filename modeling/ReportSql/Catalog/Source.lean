import ReportSql.Catalog.Registry
import ReportSql.Toml.Document

/-!
# Catalogs as text

A registry is read from a document that lists categories and entities.
-/

namespace ReportSql.Catalog

/-- Why a text gives no registry. -/
inductive SourceError where
  /-- The text is no catalog document. -/
  | unreadable
  | defect (e : CatalogError)
  deriving DecidableEq

namespace SourceError

def message : SourceError → String
  | unreadable => "Failed to parse catalog: not a catalog document"
  | defect e => e.message

end SourceError

/-- The registry of the catalog that a text holds. -/
def Registry.ofText (text : String) : Except SourceError Registry :=
  match Toml.read? CatalogFile.reader text with
  | none => .error .unreadable
  | some file =>
    match build file.entities file.categories with
    | .ok r => .ok r
    | .error e => .error (.defect e)

end ReportSql.Catalog
