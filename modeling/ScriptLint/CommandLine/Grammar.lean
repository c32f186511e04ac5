import ScriptLint.CommandLine.Basic

/-!
# Reading arguments

The arguments of one command are options, at most one free word, and possibly the name of a further
command, which ends the level. An option is stored when the next argument is taken up, so an
argument that nobody knows is complained about before the value that precedes it.
-/

namespace ScriptLint

/-- What an argument looks like. -/
inductive Argument where
  /-- Two dashes, after which everything is a word. -/
  | separator
  | long (name : String) (value : Option String)
  | short (letters : List Char)
  | word
  deriving DecidableEq, Repr

namespace Argument

def ofText (text : String) : Argument :=
  match text.toList with
  | ['-', '-'] => .separator
  | '-' :: '-' :: rest =>
      let name := rest.takeWhile (· != '=')
      .long (String.ofList name)
        (match rest.drop name.length with
        | _ :: value => some (String.ofList value)
        | [] => none)
  | '-' :: letter :: rest => .short (letter :: rest)
  | _ => .word

end Argument

/-- How a value changes what has been read so far. -/
abbrev Store (α : Type) := String → α → Except UsageError α

structure OptionSpec (α : Type) where
  long : String
  short : Option Char := none
  takesValue : Bool := false
  /-- Stores the value of the option, or an empty one if the option takes none. -/
  store : Store α

/-- What can stand on one level of a command line. -/
structure Grammar (α : Type) where
  options : List (OptionSpec α)
  /-- What becomes of a free word, if there may be one. -/
  word : Option (Store α) := none
  /-- The names that end the level. -/
  commands : List String := []

/-- An argument that has not been stored yet. -/
inductive Pending (α : Type) where
  | nothing
  /-- An option whose value is to come. -/
  | awaited (store : Store α)
  | given (store : Store α) (value : String)

/-- What is known in the middle of a level. -/
structure Reading (α : Type) where
  draft : α
  pending : Pending α := .nothing
  wordTaken : Bool := false
  /-- Whether everything that follows is a word. -/
  literal : Bool := false

namespace Reading

variable {α : Type}

def isAwaiting (reading : Reading α) : Bool :=
  match reading.pending with
  | .awaited _ => true
  | _ => false

/-- Stores what is pending. -/
def settle (reading : Reading α) : Except UsageError (Reading α) :=
  match reading.pending with
  | .nothing => .ok reading
  | .awaited _ => .error .invalidValue
  | .given store value =>
      (store value reading.draft).map fun draft => { reading with draft, pending := .nothing }

/-- Stores what is pending and then a value. -/
def storeNow (reading : Reading α) (store : Store α) (value : String) :
    Except UsageError (Reading α) :=
  reading.settle.bind fun reading =>
    (store value reading.draft).map fun draft => { reading with draft }

/-- Stores what is pending and leaves something else pending. -/
def putOff (reading : Reading α) (pending : Pending α) : Except UsageError (Reading α) :=
  reading.settle.map fun reading => { reading with pending }

end Reading

/-- Where the reading of a level stops. -/
inductive Reached (α : Type) where
  | finish (draft : α)
  /-- A command with the arguments after it, and what is known of the level before it. -/
  | command (name : String) (rest : List String) (reading : Reading α)

namespace Grammar

variable {α : Type}

/-- Takes up the name of an option, with the value attached to it. -/
def takeOption (reading : Reading α) (option : OptionSpec α) (attached : Option String) :
    Except UsageError (Reading α) :=
  match option.takesValue, attached with
  | true, some value => reading.storeNow option.store value
  | true, none => reading.putOff (.awaited option.store)
  | false, none => reading.storeNow option.store ""
  | false, some _ => .error .unexpectedValue

def takeLong (grammar : Grammar α) (reading : Reading α) (name : String)
    (attached : Option String) : Except UsageError (Reading α) :=
  match grammar.options.find? fun option => option.long == name with
  | none => .error .unknownArgument
  | some option => takeOption reading option attached

/-- The value that letters after an option stand for. An equals sign in front does not belong to
it. -/
def attachedValue? : List Char → Option String
  | [] => none
  | '=' :: value => some (String.ofList value)
  | value => some (String.ofList value)

/-- Takes up letters one by one. An option with a value takes all letters that follow it. -/
def takeShort (grammar : Grammar α) (reading : Reading α) :
    List Char → Except UsageError (Reading α)
  | [] => .ok reading
  | letter :: rest =>
      match grammar.options.find? fun option => option.short == some letter with
      | none => .error .unknownArgument
      | some option =>
          if option.takesValue then takeOption reading option (attachedValue? rest)
          else
            match takeOption reading option none with
            | .error error => .error error
            | .ok reading => takeShort grammar reading rest

/-- What is said of a word for which there is no place. -/
def surplus (grammar : Grammar α) (reading : Reading α) (word : String) : UsageError :=
  if grammar.commands.isEmpty || (reading.literal && grammar.commands.contains word) then
    .unknownArgument
  else .unknownCommand

def takeWord (grammar : Grammar α) (reading : Reading α) (word : String) :
    Except UsageError (Reading α) :=
  match grammar.word, reading.wordTaken with
  | some store, false =>
      (reading.putOff (.given store word)).map fun reading => { reading with wordTaken := true }
  | _, _ => .error (grammar.surplus reading word)

/-- Takes up an argument that is not a command. -/
def take (grammar : Grammar α) (reading : Reading α) (text : String) :
    Except UsageError (Reading α) :=
  if reading.literal then grammar.takeWord reading text
  else
    match Argument.ofText text with
    | .separator => .ok { reading with literal := true }
    | .long name value => grammar.takeLong reading name value
    | .short letters => grammar.takeShort reading letters
    | .word =>
        match reading.pending with
        | .awaited store => .ok { reading with pending := .given store text }
        | _ => grammar.takeWord reading text

/-- Whether an argument is a command. A word that an option waits for is none. -/
def startsCommand (grammar : Grammar α) (reading : Reading α) (text : String) : Bool :=
  !reading.literal && !reading.isAwaiting && grammar.commands.contains text

/-- Reads a level to its end. -/
def read (grammar : Grammar α) (reading : Reading α) :
    List String → Except UsageError (Reached α)
  | [] => reading.settle.map fun reading => .finish reading.draft
  | text :: rest =>
      if grammar.startsCommand reading text then .ok (.command text rest reading)
      else
        match grammar.take reading text with
        | .error error => .error error
        | .ok reading => read grammar reading rest

end Grammar

end ScriptLint
