import ScriptLint.IgnoreFile
import ScriptLint.Text.Pattern

/-!
# The ignore file of the user

Version control knows one ignore file for all directories of a user. Its path is what a
configuration file of the user sets `excludesfile` to, and there is a default for it. Configuration
files are read byte by byte, and only the path in them must be text.
-/

namespace ScriptLint

namespace UserIgnore

/-- The blanks of a configuration file, line ends included. -/
def isSpace (c : Char) : Bool :=
  [' ', '\t', '\n', '\x0b', '\x0c', '\r'].contains c

/-- Whether nothing but blanks is left on a line, or blanks around one closing quote. -/
def endsValue (line : List Char) : Bool :=
  match line.dropWhile isSpace with
  | [] => true
  | '\x22' :: rest => rest.all isSpace
  | _ => false

/-- The value at the front of a text: one word, without the quote at its end if it has one. -/
def word? (text : List Char) : Option (List Char) :=
  let text := text.dropWhile isSpace
  let word := text.takeWhile fun c => !isSpace c
  let line := (text.drop word.length).takeWhile (· != '\n')
  match word.reverse with
  | [] => none
  | '\x22' :: c :: start =>
      if line.all isSpace then some (c :: start).reverse
      else if endsValue line then some word else none
  | _ => if endsValue line then some word else none

/-- The value after an equals sign. A quote in front is left out if a value follows it. -/
def value? (text : List Char) : Option (List Char) :=
  match text.dropWhile isSpace with
  | '\x22' :: rest => (word? rest).or (word? ('\x22' :: rest))
  | rest => word? rest

/-- The value that the line at the front of a text sets `excludesfile` to. -/
def setting? (text : List Char) : Option (List Char) :=
  match stripWord (fun w c => w == c.toLower) "excludesfile".toList (text.dropWhile isSpace) with
  | none => none
  | some rest =>
      match rest.dropWhile isSpace with
      | '=' :: rest => value? rest
      | _ => none

/-- The first value that `excludesfile` is set to; `atLineStart` tells whether the text starts at
the start of a line. -/
def firstSetting? (atLineStart : Bool) : List Char → Option (List Char)
  | [] => none
  | c :: rest =>
      (if atLineStart then setting? (c :: rest) else none).or (firstSetting? (c == '\n') rest)

/-- A path with the home directory in place of tildes. -/
def withHome (home : String) (path : List Char) : String :=
  String.ofList (path.flatMap fun c => if c = '~' then home.toList else [c])

/-- The text that bytes spell, given one character for each byte. -/
def decoded? (bytes : List Char) : Option String :=
  String.fromUTF8? ⟨(bytes.map Char.toUInt8).toArray⟩

/-- The path that a configuration file names. -/
def namedIn? (files : FileSystem) (home config : String) : Option String :=
  match files.readBytes config with
  | .error _ => none
  | .ok bytes =>
      ((firstSetting? true (bytes.toList.map Char.ofUInt8)).bind decoded?).map fun path =>
        withHome home path.toList

/-- Where the ignore file of the user is. -/
def path (files : FileSystem) (home : String) : String :=
  ((namedIn? files home (Path.join home ".gitconfig")).or
    (namedIn? files home (Path.join home ".config/git/config"))).getD
      (Path.join home ".config/git/ignore")

end UserIgnore

namespace IgnoreScope

/-- The scope outside of all directories. -/
def outermost (files : FileSystem) : IgnoreScope where
  user :=
    match files.homeDir with
    | none => {}
    | some home => IgnoreFile.read files "" (UserIgnore.path files home)

end IgnoreScope

end ScriptLint
