import SeoPlatform.Foundation.SqlTransaction

namespace SeoPlatform.Shared.Exceptions

open SeoPlatform.Foundation.SqlTransaction

/-- The exceptions the modelled code raises or meets, with their texts. -/
inductive Exn where
  | noWorkToDo (reason : String)
  | contractError (text : String)
  | unknownGoal (text : String)
  | valueError (text : String)
  | typeError (text : String)
  | attributeError (text : String)
  | keyError (text : String)
  | unknownTenant (text : String)
  | targetNotAllowed (text : String)
  /-- An exception of a library, by its class. -/
  | library (className text : String)
  /-- An error of the driver or the server, by its class. -/
  | database (className text : String)
  deriving DecidableEq, Repr

def Exn.typeName : Exn → String
  | .noWorkToDo _ => "NoWorkToDo"
  | .contractError _ => "ContractError"
  | .unknownGoal _ => "UnknownGoal"
  | .valueError _ => "ValueError"
  | .typeError _ => "TypeError"
  | .attributeError _ => "AttributeError"
  | .keyError _ => "KeyError"
  | .unknownTenant _ => "UnknownTenant"
  | .targetNotAllowed _ => "TargetNotAllowed"
  | .library className _ => className
  | .database className _ => className

def Exn.text : Exn → String
  | .noWorkToDo text | .contractError text | .unknownGoal text | .valueError text
  | .typeError text | .attributeError text | .keyError text | .unknownTenant text
  | .targetNotAllowed text | .library _ text | .database _ text => text

/-- `type(exc).__name__`, a colon and the text. -/
def Exn.described (e : Exn) : String := e.typeName ++ ": " ++ e.text

/-- An exception that the engine raises nowhere itself. -/
def Exn.Ordinary : Exn → Prop
  | .noWorkToDo _ | .contractError _ => False
  | .unknownGoal _ | .valueError _ | .typeError _ | .attributeError _ | .keyError _
  | .unknownTenant _ | .targetNotAllowed _ | .library _ _ | .database _ _ => True

instance : SqlError Exn where
  inFailedTransaction := .database "InFailedSqlTransaction"
    "current transaction is aborted, commands ignored until end of transaction block"

def uniqueViolation (constraint : String) : Exn :=
  .database "UniqueViolation"
    ("duplicate key value violates unique constraint \"" ++ constraint ++ "\"")

end SeoPlatform.Shared.Exceptions
