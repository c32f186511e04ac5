import ScriptLint.Rule.Basic

/-!
# Hardcoded passwords

A line assigns a literal to a password when a password keyword, an equals sign and a quotation mark
follow each other. The literal reaches to the last quotation mark of the line, and it is a secret
unless it is one of the usual placeholders.
-/

namespace ScriptLint.Password

def keywords : List String :=
  ["password", "passwd", "pwd"]

/-- Literals that nobody uses as a password, in lowercase. -/
def placeholders : List String :=
  ["password", "your_password", "your_password_here", "changeme"]

/-- The keyword, the equals sign and the opening quotation mark. -/
def opening (keyword : String) : Pattern :=
  [.letters keyword, .gap, .exactly "=", .gap, .one isQuote]

/-- The text before the last quotation mark, if it is not empty. -/
def upToLastQuote (text : List Char) : Option (List Char) :=
  match text.reverse.dropWhile fun c => !isQuote c with
  | _ :: c :: before => some (c :: before).reverse
  | _ => none

/-- The literal that the leftmost assignment to the keyword gives it. -/
def literal? (keyword : String) (line : Line) : Option (List Char) :=
  firstSuffix? (fun text => ((opening keyword).strip text).bind upToLastQuote) line

def isSecret (literal : List Char) : Bool :=
  !placeholders.contains (String.ofList (lowered literal))

/-- Whether the line assigns a secret to some keyword. -/
def assignsSecret (line : Line) : Bool :=
  keywords.any fun keyword => (literal? keyword line).any isSecret

/-- Passwords do not belong in a script. -/
def rule : Rule where
  id := "S001"
  name := "Hardcoded Password"
  description := "Avoid hardcoding passwords in the code"
  severity := .error
  category := .security
  scan := scanEachLine assignsSecret
    "Hardcoded password detected. Use environment variables or secure storage instead"

end ScriptLint.Password
