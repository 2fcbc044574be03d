import TraceGen.Corpus.Error
import TraceGen.KeyMap
import TraceGen.Text.Substitute

/-!
# Rules for changing a command line

`FlagRules` say which options of a command line go, which get another value and which are added. A
flag stands for every option that begins with it. An option without an equals sign takes the option
behind it along as its value, whatever that is. Deleting comes before replacing; of several replace
flags that fit an option the least one counts. Each replace flag must be used exactly once. These
are the rules of §10.2 of `SPEC_FULL.md`.
-/

namespace TraceGen

/-- Which options are added, deleted and replaced. -/
structure FlagRules where
  /-- Options that are written behind all others. -/
  add : List String
  /-- The beginnings of options that are dropped. -/
  delete : List String
  /-- The beginnings of options that get a value. -/
  replace : KeyMap String
deriving DecidableEq

namespace FlagRules

/-- Rules that change nothing. -/
def empty : FlagRules := ⟨[], [], KeyMap.empty⟩

/-- Whether rules change nothing. -/
def isEmpty (rules : FlagRules) : Bool :=
  rules.add.isEmpty && rules.delete.isEmpty && rules.replace.isEmpty

/-- Whether an option carries its value behind an equals sign. -/
def carriesValue (option : String) : Bool :=
  option.toList.contains '='

/-- Whether an option is to be dropped. -/
def deletes (rules : FlagRules) (option : String) : Bool :=
  rules.delete.any (Text.startsWith · option)

/-- The replace flag that counts for an option, with its value. -/
def replacement? (rules : FlagRules) (option : String) : Option (String × String) :=
  rules.replace.entries.find? (fun e => Text.startsWith e.1 option)

/-- What is written for an option that a replace flag fits. -/
def replaced (option flag value : String) : List String :=
  if carriesValue option then [flag ++ "=" ++ value] else [flag, value]

/-- Changes options from the left. `used` are the replace flags that were used before, and `skip`
says that the next option is a value that goes with the option before it. Beside the options
after the change stand all flags used in the end. -/
def edit (rules : FlagRules) (used : List String) :
    Bool → List String → Except CorpusError (List String × List String)
  | _, [] => .ok ([], used)
  | true, _ :: options => edit rules used false options
  | false, option :: options =>
    if rules.deletes option then
      edit rules used (!carriesValue option) options
    else match rules.replacement? option with
    | none => do
      let (written, used) ← edit rules used false options
      return (option :: written, used)
    | some (flag, value) =>
      if used.contains flag then .error (.replaceFlagMatchedTwice flag)
      else do
        let (written, used) ← edit rules (flag :: used) (!carriesValue option) options
        return (replaced option flag value ++ written, used)

/-- Changes a command line. -/
def apply (rules : FlagRules) (options : List String) : Except CorpusError (List String) := do
  let (written, used) ← edit rules [] false options
  let missing := rules.replace.keys.filter (fun flag => !used.contains flag)
  if missing.isEmpty then return written ++ rules.add
  else throw (.replaceFlagsNotFound missing)

end FlagRules

end TraceGen
