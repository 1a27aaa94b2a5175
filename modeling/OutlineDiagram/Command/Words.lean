/-
This file sorts the words of a command line into options and arguments. A word that
starts with a dash is an option, but for the lone dash; a word of two dashes ends
the options. A long option takes its value after an equals sign or from the next
word; a short one takes the rest of its word or the next word.
-/

namespace OutlineDiagram

/-- An option that can be given. -/
structure OptionName where
  /-- The long name with its dashes. -/
  long : String
  /-- The letter that stands for it, if there is one. -/
  short : Option Char := none
  /-- The option has a value. -/
  takesValue : Bool := false
  deriving DecidableEq, Repr, Inhabited

/-- The reason why the words of a command line make no sense. -/
inductive UsageError where
  /-- There is no such option. -/
  | unknownOption (word : String)
  /-- The value of an option is missing. -/
  | missingValue (name : String)
  /-- A value is given to an option that has none. -/
  | surplusValue (name : String)
  /-- There is no such command. -/
  | unknownCommand (word : String)
  /-- No command is given. -/
  | missingCommand
  /-- Arguments are missing. -/
  | missingArgument
  /-- There are more arguments than the command takes. -/
  | surplusArgument
  /-- There is no file at the path. -/
  | noFile (path : String)
  /-- There is a folder at the path. -/
  | folder (path : String)
  /-- The text is not the number of a line. -/
  | noLineNumber (text : String)
  deriving DecidableEq, Repr, Inhabited

namespace UsageError

/-- What is reported of an error. -/
def message : UsageError → String
  | unknownOption word => "No such option: " ++ word
  | missingValue name => "Option " ++ name ++ " requires an argument."
  | surplusValue name => "Option " ++ name ++ " does not take a value."
  | unknownCommand word => "No such command " ++ word ++ "."
  | missingCommand => "Missing command."
  | missingArgument => "Missing argument."
  | surplusArgument => "Got unexpected extra argument."
  | noFile path => "File " ++ path ++ " does not exist."
  | folder path => "File " ++ path ++ " is a directory."
  | noLineNumber text => text ++ " is not a line number."

end UsageError

/-- The words of a command line, sorted. -/
structure Words where
  /-- The options by their long names, with their values, in order. -/
  options : List (String × Option String) := []
  /-- All other words. -/
  arguments : List String := []
  deriving DecidableEq, Repr, Inhabited

namespace Words

/-- The word is an option. -/
def isOption (word : String) : Bool :=
  match word.toList with
  | '-' :: _ :: _ => true
  | _ => false

/-- What an option word holds: whole options, or also one whose value is the next word. -/
inductive OptionWord where
  /-- Whole options. -/
  | whole (options : List (String × Option String))
  /-- Whole options, and an option whose value is still to come. -/
  | awaiting (options : List (String × Option String)) (name : String)
  deriving DecidableEq, Repr

/-- The options in the letters of a word. -/
def readLetters (names : List OptionName) : List Char → Except UsageError OptionWord
  | [] => .ok (.whole [])
  | letter :: rest =>
    match names.find? fun name => name.short == some letter with
    | none => .error (.unknownOption (String.ofList ['-', letter]))
    | some name =>
      if name.takesValue then
        .ok (if rest.isEmpty then .awaiting [] name.long
          else .whole [(name.long, some (String.ofList rest))])
      else
        match readLetters names rest with
        | .error error => .error error
        | .ok (.whole options) => .ok (.whole ((name.long, none) :: options))
        | .ok (.awaiting options last) => .ok (.awaiting ((name.long, none) :: options) last)

/-- The part of a word before an equals sign, and the part after it if there is one. -/
def cutValue (word : List Char) : String × Option String :=
  match word.dropWhile (· ≠ '=') with
  | [] => (String.ofList word, none)
  | _ :: value => (String.ofList (word.takeWhile (· ≠ '=')), some (String.ofList value))

/-- The options in a word. -/
def readOption (names : List OptionName) (word : String) : Except UsageError OptionWord :=
  let cut := cutValue word.toList
  match names.find? fun name => name.long == cut.1 with
  | some name =>
    match name.takesValue, cut.2 with
    | true, some value => .ok (.whole [(name.long, some value)])
    | true, none => .ok (.awaiting [] name.long)
    | false, none => .ok (.whole [(name.long, none)])
    | false, some _ => .error (.surplusValue name.long)
  | none =>
    match word.toList with
    | '-' :: '-' :: _ => .error (.unknownOption cut.1)
    | letters => readLetters names (letters.drop 1)

/-- The words with options in front. -/
def after (options : List (String × Option String)) (words : Words) : Words :=
  { words with options := options ++ words.options }

/-- Sorts words. Unless options may follow arguments, the first argument ends the options. -/
def sort (names : List OptionName) (mixed : Bool) : List String → Except UsageError Words
  | [] => .ok {}
  | word :: rest =>
    if word = "--" then .ok { arguments := rest }
    else if isOption word then
      match readOption names word with
      | .error error => .error error
      | .ok (.whole options) => (sort names mixed rest).map (after options)
      | .ok (.awaiting options name) =>
        match rest with
        | [] => .error (.missingValue name)
        | value :: others =>
          (sort names mixed others).map (after (options ++ [(name, some value)]))
    else if mixed then
      (sort names mixed rest).map fun words => { words with arguments := word :: words.arguments }
    else .ok { arguments := word :: rest }

/-- The option is given. -/
def has (words : Words) (name : String) : Bool := words.options.any fun option => option.1 == name

/-- The value that is given last to an option. -/
def value? (words : Words) (name : String) : Option String :=
  (words.options.reverse.find? fun option => option.1 == name).bind Prod.snd

end Words

end OutlineDiagram
