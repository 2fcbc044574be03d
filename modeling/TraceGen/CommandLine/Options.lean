/-!
# Options on a command line

An `OptionTable` lists the options of a command, the words that it takes in order, and the names of
the commands that may follow. `OptionTable.scan` goes through arguments and fills in a draft of what
the command is asked for, up to the name of a command.

An option that takes a value is settled late: the next argument may be its value, and the value is
put into the draft when the next option or word is met, or at the end. So of two mistakes the one in
the earlier option is reported, unless the later argument is no option at all.
-/

namespace TraceGen.CommandLine

/-- Why a command line is refused, or is answered without running a command. -/
inductive UsageError where
  /-- Help is asked for. -/
  | help
  /-- The version is asked for. -/
  | version
  /-- Nothing is given, so that help is shown. -/
  | nothingGiven
  /-- A command is missing. -/
  | missingCommand
  /-- A required option or word is missing. -/
  | missingRequired
  /-- An argument is not known. -/
  | unknownArgument
  /-- A word is not the name of a command. -/
  | unknownCommand
  /-- A value is missing or is empty. -/
  | missingValue
  /-- A value is not of the form that the option asks for. -/
  | unreadableValue
  /-- A value is given to an option that takes none. -/
  | unneededValue
  /-- An option that may be given once is given twice. -/
  | givenTwice
deriving DecidableEq

/-- The text of an error. -/
def UsageError.message : UsageError → String
  | .help => "help is asked for"
  | .version => "the version is asked for"
  | .nothingGiven => "nothing is given"
  | .missingCommand => "a command is missing"
  | .missingRequired => "a required argument is missing"
  | .unknownArgument => "an argument is not known"
  | .unknownCommand => "a command is not known"
  | .missingValue => "a value is missing"
  | .unreadableValue => "a value cannot be read"
  | .unneededValue => "a value is given to an option that takes none"
  | .givenTwice => "an option is given twice"

/-- What an argument looks like. -/
inductive Argument where
  /-- Two hyphens alone, after which there are only words. -/
  | onlyWords
  /-- Two hyphens with a name, and a value after an equals sign. -/
  | long (name : List Char) (value : Option (List Char))
  /-- One hyphen with letters. -/
  | short (letters : List Char)
  /-- Anything else. -/
  | word
deriving DecidableEq

/-- The look of an argument. -/
def Argument.ofChars : List Char → Argument
  | ['-', '-'] => .onlyWords
  | '-' :: '-' :: cs =>
    let value := cs.dropWhile (· ≠ '=')
    .long (cs.takeWhile (· ≠ '=')) (if value.isEmpty then none else some (value.drop 1))
  | '-' :: c :: cs => .short (c :: cs)
  | _ => .word

variable {σ : Type}

/-- Puts a value into a draft. -/
abbrev Setter (σ : Type) := String → σ → Except UsageError σ

/-- What an option does. -/
inductive OptionAction (σ : Type) where
  /-- It takes a value. -/
  | value (set : Setter σ)
  /-- It takes none. -/
  | switch (set : σ → Except UsageError σ)

/-- An option. -/
structure CommandOption (σ : Type) where
  /-- Its names after two hyphens. -/
  names : List String
  /-- Its letter after one hyphen. -/
  letter : Option Char
  /-- What it does. -/
  action : OptionAction σ

/-- What a command takes. -/
structure OptionTable (σ : Type) where
  /-- The options. -/
  options : List (CommandOption σ)
  /-- What the words are for, in order. -/
  words : List (Setter σ)
  /-- The names of the commands that may follow. -/
  commands : List String

/-- How far arguments have been read. -/
structure Scan (σ : Type) where
  /-- The draft without the option or word that is not settled. -/
  draft : σ
  /-- The option or word that is not settled, with its value if it has been met. -/
  pending : Option (Setter σ × Option String)
  /-- What further words are for. -/
  words : List (Setter σ)
  /-- Whether all further arguments are words. -/
  onlyWords : Bool

namespace Scan

/-- Whether the next argument can be the value of an option. -/
def isAwaiting (s : Scan σ) : Bool :=
  match s.pending with
  | some (_, none) => !s.onlyWords
  | _ => false

/-- The draft with everything settled. -/
def settle (s : Scan σ) : Except UsageError σ :=
  match s.pending with
  | none => .ok s.draft
  | some (_, none) => .error .missingValue
  | some (set, some value) => set value s.draft

/-- Goes on with a new draft. -/
def resume (s : Scan σ) (draft : σ) : Scan σ :=
  { s with draft := draft, pending := none }

/-- Meets an option that takes a value, with the value if it is in the same argument. -/
def meetValue (s : Scan σ) (set : Setter σ) (value : Option (List Char)) :
    Except UsageError (Scan σ) := do
  let draft ← s.settle
  match value with
  | none => return { s with draft := draft, pending := some (set, none) }
  | some value => return s.resume (← set (String.ofList value) draft)

/-- Meets an option that takes no value. -/
def meetSwitch (s : Scan σ) (set : σ → Except UsageError σ) : Except UsageError (Scan σ) := do
  return s.resume (← set (← s.settle))

end Scan

namespace OptionTable

/-- The option with a name. -/
def named? (t : OptionTable σ) (name : List Char) : Option (CommandOption σ) :=
  t.options.find? (·.names.contains (String.ofList name))

/-- The option with a letter. -/
def lettered? (t : OptionTable σ) (c : Char) : Option (CommandOption σ) :=
  t.options.find? (·.letter == some c)

/-- Meets an option by its name. -/
def meetLong (t : OptionTable σ) (s : Scan σ) (name : List Char) (value : Option (List Char)) :
    Except UsageError (Scan σ) :=
  match t.named? name with
  | none => .error .unknownArgument
  | some o =>
    match o.action, value with
    | .value set, value => s.meetValue set value
    | .switch set, none => s.meetSwitch set
    | .switch _, some _ => .error .unneededValue

/-- Meets options by their letters. What follows the letter of an option that takes a value is its
value; an equals sign may stand between them. -/
def meetShort (t : OptionTable σ) (s : Scan σ) : List Char → Except UsageError (Scan σ)
  | [] => .ok s
  | c :: cs =>
    match t.lettered? c with
    | none => .error .unknownArgument
    | some o =>
      match o.action, cs with
      | .switch set, cs => do t.meetShort (← s.meetSwitch set) cs
      | .value set, [] => s.meetValue set none
      | .value set, '=' :: value => s.meetValue set (some value)
      | .value set, value => s.meetValue set (some value)

/-- The mistake in a word that the command has no use for. -/
def extraWord (t : OptionTable σ) (s : Scan σ) (word : String) : UsageError :=
  if t.commands.isEmpty || s.onlyWords && t.commands.contains word then .unknownArgument
  else .unknownCommand

/-- Meets a word. -/
def meetWord (t : OptionTable σ) (s : Scan σ) (word : String) : Except UsageError (Scan σ) :=
  match s.words with
  | [] => .error (t.extraWord s word)
  | set :: words => do
    return { s with draft := ← s.settle, pending := some (set, some word), words := words }

/-- Meets an argument that is not the name of a command. -/
def meet (t : OptionTable σ) (s : Scan σ) (argument : String) : Except UsageError (Scan σ) :=
  if s.onlyWords then t.meetWord s argument
  else match Argument.ofChars argument.toList with
    | .onlyWords => .ok { s with onlyWords := true }
    | .long name value => t.meetLong s name value
    | .short letters => t.meetShort s letters
    | .word =>
      match s.pending with
      | some (set, none) => .ok { s with pending := some (set, some argument) }
      | _ => t.meetWord s argument

/-- Whether an argument is taken for the name of a command. -/
def startsCommand (t : OptionTable σ) (s : Scan σ) (argument : String) : Bool :=
  !s.onlyWords && !s.isAwaiting && t.commands.contains argument

/-- Goes through arguments up to the name of a command; what begins with this name is left. -/
def scanFrom (t : OptionTable σ) : List String → Scan σ → Except UsageError (Scan σ × List String)
  | [], s => .ok (s, [])
  | argument :: arguments, s =>
    if t.startsCommand s argument then .ok (s, argument :: arguments)
    else do t.scanFrom arguments (← t.meet s argument)

/-- Goes through the arguments of a command. -/
def scan (t : OptionTable σ) (draft : σ) (arguments : List String) :
    Except UsageError (Scan σ × List String) :=
  t.scanFrom arguments ⟨draft, none, t.words, false⟩

/-- The draft after the arguments of a command that no other command follows. -/
def fill (t : OptionTable σ) (draft : σ) (arguments : List String) : Except UsageError σ := do
  (← t.scan draft arguments).1.settle

end OptionTable

end TraceGen.CommandLine
