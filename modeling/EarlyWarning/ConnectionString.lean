/-
# `ConnectionString` — what the client of a data source connects with

`PyodbcSqlServerClient.__init__` of `app/sql_client.py`, and `build_sql_client`, which gives it a
data source.  The driver, the server, the database, the user and the password are written in
braces, so each of them is one attribute of the connection string whatever it contains
(`attributes_connectionString`); the rest is written as it is, and comes after them.
-/
import EarlyWarning.Models
import EarlyWarning.Lib.Odbc

namespace EarlyWarning

open Lib

/-- What the client is made of. -/
structure PyodbcSqlServerClient where
  host : String
  port : Int
  database : String
  username : String
  password : String
  connectTimeoutSeconds : Int
  odbcDriver : String := "ODBC Driver 18 for SQL Server"
  serverOverride : String := ""
  encrypt : String := "yes"
  trustServerCertificate : String := "no"
  extraParams : String := ""
deriving DecidableEq

/-- `odbc_brace_escape` -/
def odbcBraceEscape (value : String) : String :=
  "\x7b" ++ String.ofList (value.toList.flatMap fun c => if c = '}' then ['}', '}'] else [c]) ++
    "\x7d"

/-- `normalize_extra_params` -/
def normalizeExtraParams (extraParams : String) : String :=
  let parts := ((PyStr.splitClass (· == ';') extraParams).map PyStr.strip).filter (· ≠ "")
  String.join (parts.map fun part => part ++ ";")

namespace PyodbcSqlServerClient

def serverFragment (client : PyodbcSqlServerClient) : String :=
  if PyStr.strip client.serverOverride ≠ "" then
    "SERVER=" ++ odbcBraceEscape (PyStr.strip client.serverOverride) ++ ";"
  else
    "SERVER=" ++ odbcBraceEscape (client.host ++ "," ++ toString client.port) ++ ";"

/-- The attributes after the password. -/
def plainFragment (client : PyodbcSqlServerClient) : String :=
  "Encrypt=" ++ client.encrypt ++ ";" ++
  "TrustServerCertificate=" ++ client.trustServerCertificate ++ ";" ++
  "Connection Timeout=" ++ toString client.connectTimeoutSeconds ++ ";" ++
  normalizeExtraParams client.extraParams

/-- `connection_string` -/
def connectionString (client : PyodbcSqlServerClient) : String :=
  ("DRIVER=" ++ odbcBraceEscape client.odbcDriver ++ ";") ++
    (client.serverFragment ++
      (("DATABASE=" ++ odbcBraceEscape client.database ++ ";") ++
        (("UID=" ++ odbcBraceEscape client.username ++ ";") ++
          (("PWD=" ++ odbcBraceEscape client.password ++ ";") ++ client.plainFragment))))

/-- `build_sql_client`, with the password as it is decrypted. -/
def ofDataSource (source : SqlDataSource) (password : String) : PyodbcSqlServerClient where
  host := source.host
  port := source.port
  database := source.database
  username := source.username
  password
  connectTimeoutSeconds := source.connectTimeoutSeconds
  odbcDriver := source.odbcDriver
  serverOverride := source.serverOverride
  encrypt := source.encrypt
  trustServerCertificate := source.trustServerCertificate
  extraParams := source.extraParams

/-! ## The values that are written in braces -/

/-- The server that is connected to. -/
def server (client : PyodbcSqlServerClient) : String :=
  if PyStr.strip client.serverOverride ≠ "" then PyStr.strip client.serverOverride
  else client.host ++ "," ++ toString client.port

inductive Input
  | driver
  | host
  | serverOverride
  | database
  | username
  | password
deriving DecidableEq

/-- The attribute in which an input stands. -/
def Input.attribute : Input → String
  | .driver => "DRIVER"
  | .host | .serverOverride => "SERVER"
  | .database => "DATABASE"
  | .username => "UID"
  | .password => "PWD"

def set (client : PyodbcSqlServerClient) (input : Input) (text : String) : PyodbcSqlServerClient :=
  match input with
  | .driver => { client with odbcDriver := text }
  | .host => { client with host := text }
  | .serverOverride => { client with serverOverride := text }
  | .database => { client with database := text }
  | .username => { client with username := text }
  | .password => { client with password := text }

variable (client : PyodbcSqlServerClient)

/-- What an ODBC driver reads of the connection string. -/
def attributes : List Odbc.Attribute := Odbc.attributes client.connectionString.toList

def value? (key : String) : Option (List Char) := Odbc.value? key.toList client.attributes

theorem toList_odbcBraceEscape (value : String) :
    (odbcBraceEscape value).toList = Odbc.quote value.toList := by
  simp [odbcBraceEscape, Odbc.quote, Odbc.escape]

/-- An attribute with a value in braces. -/
theorem toList_attribute (name key value : String)
    (hname : name.toList = key.toList ++ ['=']) :
    (name ++ odbcBraceEscape value ++ ";").toList =
      key.toList ++ '=' :: (Odbc.quote value.toList ++ [';']) := by
  have hsemicolon : ";".toList = [';'] := rfl
  rw [String.toList_append, String.toList_append, hname, toList_odbcBraceEscape, hsemicolon]
  simp only [List.append_assoc, List.cons_append, List.nil_append]

theorem toList_serverFragment : client.serverFragment.toList =
    "SERVER".toList ++ '=' :: (Odbc.quote client.server.toList ++ [';']) := by
  rw [serverFragment, server]
  split
  case isTrue => exact toList_attribute "SERVER=" "SERVER" _ rfl
  case isFalse => exact toList_attribute "SERVER=" "SERVER" _ rfl

/-- The connection string, attribute by attribute. -/
theorem toList_connectionString : client.connectionString.toList =
    "DRIVER".toList ++ '=' :: (Odbc.quote client.odbcDriver.toList ++ ';' ::
      ("SERVER".toList ++ '=' :: (Odbc.quote client.server.toList ++ ';' ::
        ("DATABASE".toList ++ '=' :: (Odbc.quote client.database.toList ++ ';' ::
          ("UID".toList ++ '=' :: (Odbc.quote client.username.toList ++ ';' ::
            ("PWD".toList ++ '=' :: (Odbc.quote client.password.toList ++ ';' ::
              client.plainFragment.toList))))))))) := by
  rw [connectionString, String.toList_append, toList_attribute "DRIVER=" "DRIVER" _ rfl,
    String.toList_append, toList_serverFragment, String.toList_append,
    toList_attribute "DATABASE=" "DATABASE" _ rfl, String.toList_append,
    toList_attribute "UID=" "UID" _ rfl, String.toList_append,
    toList_attribute "PWD=" "PWD" _ rfl]
  simp only [List.append_assoc, List.cons_append, List.nil_append]

/-- **The connection string is these attributes, and those of the rest.** -/
theorem attributes_connectionString : client.attributes =
    [("DRIVER".toList, client.odbcDriver.toList), ("SERVER".toList, client.server.toList),
      ("DATABASE".toList, client.database.toList), ("UID".toList, client.username.toList),
      ("PWD".toList, client.password.toList)] ++ Odbc.attributes client.plainFragment.toList := by
  rw [attributes, toList_connectionString, Odbc.attributes_append (by decide),
    Odbc.attributes_append (by decide), Odbc.attributes_append (by decide),
    Odbc.attributes_append (by decide), Odbc.attributes_append (by decide)]
  simp only [List.cons_append, List.nil_append]

/-- What the connection string gives for the five keys is what was put in; and another text for
one of the six inputs makes another value of its own attribute, and nothing else. -/
theorem connectionString_parsed :
    (client.value? "DRIVER" = some client.odbcDriver.toList ∧
      client.value? "SERVER" = some client.server.toList ∧
      client.value? "DATABASE" = some client.database.toList ∧
      client.value? "UID" = some client.username.toList ∧
      client.value? "PWD" = some client.password.toList) ∧
    ∀ (input : Input) (text : String), ∃ before rest old new,
      client.attributes = before ++ (input.attribute.toList, old) :: rest ∧
      (client.set input text).attributes = before ++ (input.attribute.toList, new) :: rest := by
  refine ⟨?_, fun input text => ?_⟩
  · simp only [value?, attributes_connectionString, List.cons_append]
    refine ⟨?_, ?_, ?_, ?_, ?_⟩
    · exact Odbc.value?_cons_of_same (by decide)
    · rw [Odbc.value?_cons_of_other (by decide), Odbc.value?_cons_of_same (by decide)]
    · rw [Odbc.value?_cons_of_other (by decide), Odbc.value?_cons_of_other (by decide),
        Odbc.value?_cons_of_same (by decide)]
    · rw [Odbc.value?_cons_of_other (by decide), Odbc.value?_cons_of_other (by decide),
        Odbc.value?_cons_of_other (by decide), Odbc.value?_cons_of_same (by decide)]
    · rw [Odbc.value?_cons_of_other (by decide), Odbc.value?_cons_of_other (by decide),
        Odbc.value?_cons_of_other (by decide), Odbc.value?_cons_of_other (by decide),
        Odbc.value?_cons_of_same (by decide)]
  · simp only [attributes_connectionString]
    cases input with
    | driver => exact ⟨[], _, _, _, rfl, rfl⟩
    | host => exact ⟨[_], _, _, _, rfl, rfl⟩
    | serverOverride => exact ⟨[_], _, _, _, rfl, rfl⟩
    | database => exact ⟨[_, _], _, _, _, rfl, rfl⟩
    | username => exact ⟨[_, _, _], _, _, _, rfl, rfl⟩
    | password => exact ⟨[_, _, _, _], _, _, _, rfl, rfl⟩

end PyodbcSqlServerClient

end EarlyWarning
