import TraceGen.Json.Record
import TraceGen.Text.Blank

/-!
# Training logs

A compiler writes a training log with one JSON record on each line: a key, the measurement for it
and the trajectory of its decisions. Blank lines are passed over, and of several entries with one
key the last counts. The first bad line makes the whole log bad; lines are counted from 1. The
format of a line is that of §10.2 of `SPEC_FULL.md`.
-/

namespace TraceGen

/-- What was logged for a key. -/
structure Measurement where
  /-- The decisions of the compiler and what they rested on. -/
  trajectory : Json.Value
  /-- The raw number that was measured. -/
  reward : Float

/-- A line of a training log. -/
structure LogEntry where
  /-- The part of the module that was measured. -/
  key : String
  /-- What was logged for it. -/
  measurement : Measurement

/-- Reads an entry. Inside its brackets values may nest one less deep than on their own. -/
def LogEntry.ofText? (text : String) : Option LogEntry := do
  let document ← Json.Document.parse? text
  match ← document.record? ["key", "reward", "example"] with
  | [some key, some reward, some trajectory] =>
    let key ← key.text?
    let reward ← reward.float?
    let trajectory ← Json.Value.ofDocument? (Json.Value.maxDepth - 1) trajectory
    return ⟨key, trajectory, reward⟩
  | _ => none

/-- Why a training log cannot be used. -/
inductive LogError where
  /-- A line is not an entry. -/
  | badEntry (line : Nat)
  /-- The trajectory of an entry is not an object. -/
  | notObject (line : Nat) (key : String)
  /-- The log is missing or not a text. -/
  | unreadable
deriving DecidableEq

/-- The text of an error. -/
def LogError.message : LogError → String
  | .badEntry line => s!"line {line}"
  | .notObject line key => s!"line {line}: example for '{key}' is not an object"
  | .unreadable => "training log not readable"

namespace TrainingLog

/-- Reads the line with a number; a blank one holds no entry. -/
def readLine (number : Nat) (line : List Char) : Except LogError (Option LogEntry) :=
  let line := Text.trim line
  if line.isEmpty then .ok none
  else match LogEntry.ofText? (String.ofList line) with
    | none => .error (.badEntry number)
    | some entry =>
      if entry.measurement.trajectory.isObject then .ok (some entry)
      else .error (.notObject number entry.key)

/-- Reads lines, of which the first has the given number, after the entries already read. -/
def readLines : Nat → KeyMap Measurement → List (List Char) → Except LogError (KeyMap Measurement)
  | _, entries, [] => .ok entries
  | number, entries, line :: lines => do
    match ← readLine number line with
    | none => readLines (number + 1) entries lines
    | some entry => readLines (number + 1) (entries.insert entry.key entry.measurement) lines

/-- Reads a training log. -/
def parse (text : String) : Except LogError (KeyMap Measurement) :=
  readLines 1 KeyMap.empty (Text.lines text.toList)

end TrainingLog

end TraceGen
