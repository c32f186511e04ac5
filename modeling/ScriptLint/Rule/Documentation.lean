import ScriptLint.Rule.Basic
import ScriptLint.Rule.Declaration

/-!
# Missing documentation

A declaration is documented by a comment on the first line after it that is not blank. Classes and
public functions need one; a name with a leading underscore is private or belongs to the engine.
-/

namespace ScriptLint.Documentation

/-- Whether the first line that is not blank is a comment. -/
def startsWithComment (following : List Line) : Bool :=
  match following.find? fun line => !line.isBlankLine with
  | some line => line.isComment
  | none => false

/-- The hits for declarations that no comment follows; `declared` recognises them. -/
def scanFrom (declared : Line → Option (List Char)) (kind : String) (number : Nat) :
    List Line → List Hit
  | [] => []
  | line :: rest =>
      match declared line with
      | none => scanFrom declared kind (number + 1) rest
      | some name =>
          if startsWithComment rest then
            scanFrom declared kind (number + 1) rest
          else
            { line := number
              message := s!"{kind} '" ++ String.ofList name ++ "' is missing a docstring"
              snippet := String.ofList line.trim } :: scanFrom declared kind (number + 1) rest

/-- The public function that a line declares. -/
def publicFunction? (line : Line) : Option (List Char) :=
  (declaredFunction? line.trimStart).filter fun name => name.head? != some '_'

/-- Classes should be documented. -/
def classRule : Rule where
  id := "R002"
  name := "Missing Class Docstring"
  description := "Classes should have docstrings"
  severity := .info
  category := .readability
  scan := scanFrom (fun line => declaredClass? line.trimStart) "Class" 1

/-- Public functions should be documented. -/
def functionRule : Rule where
  id := "R003"
  name := "Missing Function Docstring"
  description := "Public functions should have docstrings"
  severity := .info
  category := .readability
  scan := scanFrom publicFunction? "Function" 1

end ScriptLint.Documentation
