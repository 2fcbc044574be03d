import TraceGen.CommandLine.Options
import TraceGen.Decimal.Reader
import TraceGen.Settings.Run

/-!
# The commands of the program

`CommandLine.parse` reads the arguments of the program: `generate`, or `gen` for short, asks for
traces of a corpus and `inspect` for a report on a file of records. The level of logging can be
given before the name of a command and after it; what is given after it counts. The commands and
their options are those of §6 and §10.1 of `SPEC_FULL.md`.
-/

namespace TraceGen.CommandLine

/-- What the command `generate` can be asked for besides its corpus. -/
structure GenerateOptions where
  /-- The policy; an empty text is no policy. -/
  policyPath : Option String
  /-- The file for training records. -/
  outputPath : Option Path
  /-- The file for baselines. -/
  performancePath : Option Path
  /-- The number of workers; zero is no number. -/
  numWorkers : Option Nat
  /-- The share of the corpus that is sampled. -/
  samplingRate : Option Float
  /-- The pattern of the modules. -/
  moduleFilter : Option String
  /-- The pattern of the keys. -/
  keyFilter : Option String
  /-- The files with settings. -/
  configFiles : List Path
  /-- The settings that are given directly. -/
  bindings : List String

/-- A command. -/
inductive Command where
  /-- To generate traces of the corpus in a folder. -/
  | generate (dataPath : Path) (options : GenerateOptions)
  /-- To report on a file of records, in JSON or as a line of text. -/
  | inspect (path : Path) (json : Bool)

/-- A command line. -/
structure Request where
  /-- The command. -/
  command : Command
  /-- The level of logging. -/
  logLevel : String

/-- What the arguments have given so far. -/
structure Draft (α : Type) where
  /-- What the command is asked for. -/
  asked : α
  /-- The level of logging. -/
  logLevel : Option String

/-- What the arguments of `generate` have given so far. -/
structure GenerateDraft where
  /-- The folder of the corpus. -/
  dataPath : Option Path
  /-- The other options. -/
  options : GenerateOptions

/-- What the arguments of `inspect` have given so far. -/
structure InspectDraft where
  /-- The file. -/
  path : Option Path
  /-- Whether the report is in JSON. -/
  json : Bool

variable {α β σ : Type}

/-! ## Values -/

/-- Any text. -/
def readText (text : String) : Except UsageError String :=
  .ok text

/-- A path, which is not empty. -/
def readPath (text : String) : Except UsageError Path :=
  if text = "" then .error .missingValue else .ok text

/-- A natural number of 64 bits, which may have a plus sign. -/
def readCount (text : String) : Except UsageError Nat :=
  let digits := match text.toList with
    | '+' :: cs => cs
    | cs => cs
  let n := Text.natOfDigits digits
  if digits ≠ [] ∧ digits.all Char.isDigit ∧ n < UInt64.size then .ok n else .error .unreadableValue

/-- A number. -/
def readNumber (text : String) : Except UsageError Float :=
  match Decimal.parse? text.toList with
  | some x => .ok x
  | none => .error .unreadableValue

/-- Sets what can be given once. -/
def once (get : σ → Option β) (put : β → σ → σ) (read : String → Except UsageError β) :
    Setter σ := fun text draft =>
  if (get draft).isSome then .error .givenTwice else (read text).map (put · draft)

/-- Adds to what can be given again and again. -/
def more (put : β → σ → σ) (read : String → Except UsageError β) : Setter σ := fun text draft =>
  (read text).map (put · draft)

/-! ## Options -/

/-- Asks for help. -/
def helpOption : CommandOption σ :=
  ⟨["help"], some 'h', .switch fun _ => .error .help⟩

/-- Asks for the version. -/
def versionOption : CommandOption σ :=
  ⟨["version"], some 'V', .switch fun _ => .error .version⟩

/-- Sets the level of logging. -/
def logLevelOption : CommandOption (Draft α) :=
  ⟨["log-level"], some 'l',
    .value (once Draft.logLevel (fun v d => { d with logLevel := some v }) readText)⟩

/-- An option of `generate` that can be given once. Its name may be spelled with underscores. -/
def generateOption (name : String) (letter : Option Char) (get : GenerateOptions → Option β)
    (put : β → GenerateOptions → GenerateOptions) (read : String → Except UsageError β) :
    CommandOption (Draft GenerateDraft) :=
  ⟨[name, name.map fun c => if c = '-' then '_' else c], letter,
    .value (once (get ·.asked.options)
      (fun v d => { d with asked.options := put v d.asked.options }) read)⟩

/-- What the command `generate` takes. -/
def generateTable : OptionTable (Draft GenerateDraft) where
  options :=
    [⟨["data-path", "data_path"], none, .value (once (·.asked.dataPath)
        (fun v d => { d with asked.dataPath := some v }) readPath)⟩,
      generateOption "policy-path" none (·.policyPath)
        (fun v o => { o with policyPath := some v }) readText,
      generateOption "output-path" (some 'o') (·.outputPath)
        (fun v o => { o with outputPath := some v }) readPath,
      generateOption "output-performance-path" none (·.performancePath)
        (fun v o => { o with performancePath := some v }) readPath,
      generateOption "num-workers" (some 'w') (·.numWorkers)
        (fun v o => { o with numWorkers := some v }) readCount,
      generateOption "sampling-rate" none (·.samplingRate)
        (fun v o => { o with samplingRate := some v }) readNumber,
      generateOption "module-filter" none (·.moduleFilter)
        (fun v o => { o with moduleFilter := some v }) readText,
      generateOption "key-filter" none (·.keyFilter)
        (fun v o => { o with keyFilter := some v }) readText,
      ⟨["config-file", "config_file"], some 'c', .value (more
        (fun v d => { d with asked.options.configFiles := d.asked.options.configFiles ++ [v] })
        readPath)⟩,
      ⟨["binding"], some 'b', .value (more
        (fun v d => { d with asked.options.bindings := d.asked.options.bindings ++ [v] })
        readText)⟩,
      logLevelOption, helpOption]
  words := []
  commands := []

/-- What the command `inspect` takes. -/
def inspectTable : OptionTable (Draft InspectDraft) where
  options :=
    [⟨["json"], some 'j', .switch fun d =>
        if d.asked.json then .error .givenTwice else .ok { d with asked.json := true }⟩,
      logLevelOption, helpOption]
  words := [once (·.asked.path) (fun v d => { d with asked.path := some v }) readPath]
  commands := []

/-- What the program takes in front of a command. -/
def programTable : OptionTable (Draft Unit) where
  options := [logLevelOption, helpOption, versionOption]
  words := []
  commands := ["generate", "gen", "inspect", "help"]

/-! ## Commands -/

/-- The answer to a request for help on a command; no command has commands of its own. -/
def helpOn : List String → UsageError
  | [] => .help
  | [name] => if programTable.commands.contains name then .help else .unknownCommand
  | _ => .unknownCommand

/-- Reads the arguments of `generate`. -/
def parseGenerate (arguments : List String) : Except UsageError (Draft Command) := do
  let nothing : GenerateOptions := ⟨none, none, none, none, none, none, none, [], []⟩
  let draft ← generateTable.fill ⟨⟨none, nothing⟩, none⟩ arguments
  match draft.asked.dataPath with
  | none => .error .missingRequired
  | some path => return ⟨.generate path draft.asked.options, draft.logLevel⟩

/-- Reads the arguments of `inspect`. -/
def parseInspect (arguments : List String) : Except UsageError (Draft Command) := do
  let draft ← inspectTable.fill ⟨⟨none, false⟩, none⟩ arguments
  match draft.asked.path with
  | none => .error .missingRequired
  | some path => return ⟨.inspect path draft.asked.json, draft.logLevel⟩

/-- Reads a command with its arguments. -/
def parseCommand (name : String) (arguments : List String) : Except UsageError (Draft Command) :=
  match name with
  | "help" => .error (helpOn arguments)
  | "inspect" => parseInspect arguments
  | _ => parseGenerate arguments

/-- The level of logging where none is given. -/
def standardLogLevel : String := "info"

/-- Reads the arguments of the program. -/
def parse (arguments : List String) : Except UsageError Request := do
  let (scan, rest) ← programTable.scan ⟨(), none⟩ arguments
  match rest with
  | [] =>
    let draft ← scan.settle
    .error (if draft.logLevel.isSome then .missingCommand else .nothingGiven)
  | name :: arguments =>
    let command ← parseCommand name arguments
    let draft ← scan.settle
    return ⟨command.asked, (command.logLevel.or draft.logLevel).getD standardLogLevel⟩

/-! ## Plans -/

/-- What a run is asked for. Of several mistakes in the options the first in this order is reported:
the settings, the problem, the sampling rate, the filter of modules, the filter of keys. -/
def GenerateOptions.plan (o : GenerateOptions) (dataPath : Path) (d : Disk) :
    Except SettingsError RunPlan := do
  let settings ← Settings.load d o.configFiles o.bindings
  let problem ← settings.resolve .standard
  let rate ← RunPlan.checkSamplingRate (o.samplingRate.getD 1)
  let moduleFilter ← RunPlan.readFilter "module_filter" o.moduleFilter
  let keyFilter ← RunPlan.readFilter "key_filter" o.keyFilter
  return {
    dataPath := dataPath
    policyPath := o.policyPath.filter (· ≠ "")
    outputPath := o.outputPath
    performancePath := o.performancePath
    numWorkers := o.numWorkers.filter (0 < ·)
    samplingRate := rate
    moduleFilter := moduleFilter
    keyFilter := keyFilter
    settings := settings
    problem := problem }

end TraceGen.CommandLine
