/-!
# TOML values

A TOML document is a table of named values. Numbers with a fraction and moments in time are kept as
they are written, since nothing here computes with them.
-/

namespace ScriptLint

inductive Toml where
  | integer (value : Int)
  | float (literal : String)
  | boolean (value : Bool)
  | moment (literal : String)
  | string (text : String)
  | array (items : List Toml)
  | table (entries : List (String × Toml))
  deriving Repr

end ScriptLint
