/-
# `SqlClient` — rows and what a query may raise

`app/sql_client.py`, as far as an execution sees it: a row is a dictionary from column
names to values, a query answers with rows or raises, and `odbc_sqlstate` reads the
SQLSTATE off an exception of the ODBC driver.

A value is kept with the type that decides its `str()`; of the types that are neither
`None`, integers nor strings only the name and that text are kept.
-/
import EarlyWarning.Models

namespace EarlyWarning

open Lib

inductive SqlValue
  | none
  | int (n : Int)
  | str (s : String)
  /-- any other Python value, by its type's name and its `str()` -/
  | other (typeName text : String)
deriving DecidableEq, Repr

/-- `str(value)` -/
def SqlValue.pyStr : SqlValue → String
  | .none => "None"
  | .int n => toString n
  | .str s => s
  | .other _ text => text

abbrev Row := OrderedDict String SqlValue

/-- `row.get(field_name)`: a missing column reads as `None`. -/
def Row.value (row : Row) (fieldName : String) : SqlValue :=
  (row.get? fieldName).getD .none

structure QueryResult where
  rows : List Row
deriving DecidableEq

/-- `dict(zip(columns, row, strict=True))` -/
def zipRow (columns : List String) (values : List SqlValue) : Except PyExc Row :=
  if values.length < columns.length then
    .error (valueError "zip() argument 2 is shorter than argument 1")
  else if columns.length < values.length then
    .error (valueError "zip() argument 2 is longer than argument 1")
  else
    .ok (OrderedDict.ofPairs (columns.zip values))

/-- `rows_from_cursor_limited`, of a cursor with these column names and the rows of its result
still to be fetched. -/
def rowsFromCursorLimited (columns : List String) (result : List (List SqlValue))
    (maxRows : Nat) : Except PyExc QueryResult := do
  let rows ← (result.take maxRows).mapM (zipRow columns)
  return { rows }

/-- `SqlClient.query(sql, timeout_seconds, max_rows)` -/
abbrev SqlClient := String → Int → Int → Except PyExc QueryResult

/-- `re.fullmatch(r"[A-Z0-9]{5}", state)` -/
def isSqlstate (state : String) : Bool :=
  state.toList.length == 5 && state.toList.all fun c => c.isUpper || c.isDigit

def odbcSqlstate (exc : PyExc) : String :=
  match exc.cls, exc.arg0 with
  | .pyodbcError, some state => if isSqlstate state then state else ""
  | _, _ => ""

end EarlyWarning
