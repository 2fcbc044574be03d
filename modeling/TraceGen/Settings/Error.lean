import TraceGen.Files.Path

/-!
# What can be wrong with settings

`SettingsError.message` is the text of each cause.
-/

namespace TraceGen

/-- Why there are no settings. -/
inductive SettingsError where
  /-- A file cannot be read as a text. -/
  | io (path : Path)
  /-- A file is not a YAML document. -/
  | parse (path : Path)
  /-- A file holds something else than a mapping. -/
  | notAMapping (path : Path)
  /-- A binding is not of the form `key=value`, or its key leads through a tagged mapping. -/
  | invalidBinding (binding : String)
  /-- The document as a whole does not describe settings. -/
  | invalid
  /-- The problem is not registered. -/
  | unknownProblem (name known : String)
  /-- An option has a value that it cannot have. -/
  | invalidValue (key reason : String)
  /-- The pattern of a filter cannot be read. -/
  | badPattern (key : String)
deriving DecidableEq

/-- The text of an error. -/
def SettingsError.message : SettingsError → String
  | .io path => s!"Failed to read config file '{path}'"
  | .parse path => s!"Failed to parse config file '{path}'"
  | .notAMapping path => s!"Config file '{path}' must contain a mapping"
  | .invalidBinding binding => s!"Invalid binding '{binding}': expected KEY=VALUE"
  | .invalid => "Invalid configuration"
  | .unknownProblem name known => s!"Unknown problem '{name}' (known: {known})"
  | .invalidValue key reason => s!"Invalid value for {key}: {reason}"
  | .badPattern key => s!"Invalid value for {key}: the pattern cannot be read"

end TraceGen
