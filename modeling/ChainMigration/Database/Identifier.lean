/-! # Identifiers

Names of tables as delimited identifiers of statements. A name may hold dots, which part the names
of schemas and tables; each part stands between double quotes, and a double quote inside is doubled.
-/

namespace ChainMigration

/-- The rest of a delimited identifier whose first quote is written. -/
def delimitedRest : List Char → List Char
  | [] => ['"']
  | '.' :: cs => '"' :: '.' :: '"' :: delimitedRest cs
  | '"' :: cs => '"' :: '"' :: delimitedRest cs
  | c :: cs => c :: delimitedRest cs

/-- A name as a delimited identifier, part by part. -/
def delimited (name : String) : String := .ofList ('"' :: delimitedRest name.toList)

end ChainMigration
