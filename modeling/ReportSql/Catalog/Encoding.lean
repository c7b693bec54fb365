import ReportSql.Catalog.Entity

/-!
# Encoded numbers

Some columns hold a fixed-point form of their numbers. A field may declare its encoding; if it does
not, a number field with a well-known column name may be taken to be encoded. An encoded column is
read divided by the scale of its encoding, in statements and in stored values alike.
-/

namespace ReportSql.Catalog

open ReportSql.Json (Value)
open ReportSql.Sql (Expr)

/-- Column names that are taken for coordinates. -/
def coordinateColumns : List String :=
  ["lat", "latitude", "lon", "lng", "longitude"]

/-- Column names that are taken for speeds. -/
def speedColumns : List String :=
  ["speed"]

/-- The encoding that a column name suggests, in any case of ASCII letters. -/
def NumericEncoding.suggestedBy? (column : String) : Option NumericEncoding :=
  let lower := column.map Char.toLower
  if coordinateColumns.contains lower then some .geocoordinate
  else if speedColumns.contains lower then some .speed
  else none

namespace Field

/-- The encoding of the numbers of a field: the declared one, or else, for a number field and if
names may be taken as hints, the one that the column name suggests. -/
def resolvedEncoding? (f : Field) (infer : Bool) : Option NumericEncoding :=
  match f.encoding with
  | some e => some e
  | none =>
    if infer && f.type == .number then NumericEncoding.suggestedBy? f.columnName else none

end Field

namespace NumericEncoding

/-- The decoded form of an expression that reads an encoded column. -/
def decodeExpr (e : NumericEncoding) (raw : Expr) : Expr :=
  .binary .div raw (.number e.divisor)

/-- The quotient of a number and the scale. -/
def decode (e : NumericEncoding) (x : Decimal.Double) : Decimal.Double :=
  match x, e.divisor with
  | .finite x, .finite d => .div x d
  | _, _ => .nan

/-- The decoded form of a stored value. What is no number stays as it is, and a quotient that no
document can hold becomes `null`. -/
def decodeValue (e : NumericEncoding) (raw : Value) : Value :=
  match raw.double? with
  | some x =>
    match (e.decode x).finite? with
    | some q => .number (.real q)
    | none => .null
  | none => raw

end NumericEncoding

/-- The decoded form of a value stored for the field. -/
def Field.decodeValue (f : Field) (infer : Bool) (raw : Value) : Value :=
  match f.resolvedEncoding? infer with
  | some e => e.decodeValue raw
  | none => raw

end ReportSql.Catalog
