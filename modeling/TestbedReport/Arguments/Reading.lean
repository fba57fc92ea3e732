import TestbedReport.Arguments.Basic
import TestbedReport.Arguments.Level

/-!
# Reading a Command Line

A command line is read level by level, and what was found is then put into its
types. The options that go with every command can stand on either level, and
what is behind the command wins. The key and the base URL can come from the
environment as well, where a variable that is set but empty is a value like any
other.

What is wrong behind the command is found before what is wrong in front of it
with the last option there, whose value is looked at last.

## Main definitions

* `commonRules`, `CommandWord.rules`: The options.
* `Arguments.read`: The command line of a list of arguments.
-/

namespace TestbedReport

/-- The bounds of a signed number of 64 bits. -/
def signedForm : ValueForm :=
  .within (-0x8000000000000000) 0x7fffffffffffffff

/-- The bounds of an unsigned number of 32 bits. -/
def countForm : ValueForm :=
  .within 0 0xffffffff

/-- The options that go with every command. -/
def commonRules : List OptionRule :=
  [⟨"api-key", .text⟩, ⟨"base-url", .text⟩, ⟨"config", .path⟩, ⟨"output-dir", .text⟩,
    ⟨"verbose", .flag⟩, ⟨"log-format", .oneOf ["compact", "json"]⟩]

/-- The value that every command about one job has. -/
def jobIdRule : OptionRule :=
  ⟨"<job-id>", .jobId⟩

/-- The words for commands. -/
inductive CommandWord where
  | results
  | jobs
  | description
  | queue
  | delete
deriving DecidableEq

namespace CommandWord

/-- The commands by their words. -/
def table : List (String × CommandWord) :=
  [("results", .results), ("jobs", .jobs), ("description", .description), ("queue", .queue),
    ("delete", .delete)]

/-- The options of a command. -/
def rules : CommandWord → List OptionRule
  | .results =>
    [⟨"append", .flag⟩, ⟨"headers", .flag⟩, ⟨"days", countForm⟩, ⟨"name", .text⟩]
  | .jobs =>
    [⟨"days", countForm⟩, ⟨"name", .text⟩, ⟨"last", countForm⟩, ⟨"detailed", .flag⟩,
      ⟨"id-list", .flag⟩]
  | .description | .delete => []
  | .queue =>
    [⟨"protocol", signedForm⟩, ⟨"layout", .text⟩, ⟨"periodicity", signedForm⟩,
      ⟨"message-length", signedForm⟩, ⟨"patching", signedForm⟩, ⟨"name", .text⟩,
      ⟨"description", .text⟩, ⟨"duration", signedForm⟩, ⟨"logs", signedForm⟩,
      ⟨"jamming", signedForm⟩, ⟨"priority", .flag⟩, ⟨"firmware", .path⟩,
      ⟨"temp-profile", .text⟩, ⟨"override-start", signedForm⟩, ⟨"override-delta", signedForm⟩]

/-- The level behind a command. -/
def level (word : CommandWord) : Level where
  rules := word.rules ++ commonRules
  place := match word with
    | .results | .description | .delete => some jobIdRule
    | .jobs | .queue => none
  commands := []

end CommandWord

/-- The level in front of the command. -/
def firstLevel : Level where
  rules := commonRules
  place := none
  commands := CommandWord.table.map (·.1) ++ [helpWord]

/-- What was given on a level. -/
abbrev Given := List (String × OptionValue)

namespace Given

/-- The text of an option, if it was given. -/
def text? (given : Given) (name : String) : Option String :=
  match given.lookup name with
  | some (.text value) => some value
  | _ => none

/-- The number of an option, if it was given. -/
def number? (given : Given) (name : String) : Option Int :=
  match given.lookup name with
  | some (.number value) => some value
  | _ => none

/-- Whether an option is there. -/
def has (given : Given) (name : String) : Bool :=
  (given.lookup name).isSome

/-- A value that has to be there. -/
def need {α : Type} : Option α → Except UsageFault α
  | some value => .ok value
  | none => .error .argumentMissing

/-- A count, if it was given. -/
def count? (given : Given) (name : String) : Option UInt32 :=
  (given.number? name).map fun n => UInt32.ofNat n.toNat

/-- A signed number, if it was given. -/
def signed? (given : Given) (name : String) : Option Int64 :=
  (given.number? name).map Int64.ofInt

/-- The filter by age and name. -/
def filter (given : Given) : JobFilter :=
  ⟨given.count? "days", given.text? "name"⟩

/-- The job a command is about. -/
def jobId (given : Given) : Except UsageFault UInt64 := do
  let n ← need (given.number? jobIdRule.name)
  return UInt64.ofNat n.toNat

/-- The job to be queued. -/
def queueOptions (given : Given) : Except UsageFault QueueOptions := do
  let job : JobRequest := {
    protocol := ← need (given.signed? "protocol")
    layout := ← need (given.text? "layout")
    periodicity := (given.signed? "periodicity").getD 0
    messageLength := ← need (given.signed? "message-length")
    patching := (given.signed? "patching").getD 0
    name := ← need (given.text? "name")
    description := (given.text? "description").getD ""
    duration := ← need (given.signed? "duration")
    logs := (given.signed? "logs").getD 0
    jamming := (given.signed? "jamming").getD 0
    priority := given.has "priority"
    firmware := []
    tempProfile := given.text? "temp-profile"
    overrideStart := given.signed? "override-start"
    overrideDelta := given.signed? "override-delta" }
  return ⟨job, ← need (given.text? "firmware")⟩

/-- The command of a word. A listing is either in full or in pairs. -/
def command (given : Given) : CommandWord → Except UsageFault Command
  | .results => do
    let jobId ← given.jobId
    return .results ⟨jobId, given.filter, given.has "append", given.has "headers"⟩
  | .jobs =>
    if given.has "detailed" ∧ given.has "id-list" then .error .conflict
    else .ok (.jobs ⟨⟨given.filter, given.count? "last"⟩, given.has "detailed",
      given.has "id-list"⟩)
  | .description => return .description (← given.jobId)
  | .delete => return .delete (← given.jobId)
  | .queue => return .queue (← given.queueOptions)

end Given

namespace Arguments

/-- The environment variables that stand in for options. -/
def keyVariable : String := "DCUBE_API_KEY"

@[inherit_doc keyVariable]
def baseUrlVariable : String := "DCUBE_BASE_URL"

/-- The command line from what was given in front of the command and behind it. -/
def ofGiven (environment : Environment) (front behind : Given) (command : Command) : Arguments :=
  let text? (name : String) := behind.text? name <|> front.text? name
  { apiKey := text? "api-key" <|> environment keyVariable
    baseUrl := text? "base-url" <|> environment baseUrlVariable
    config := text? "config"
    outputDir := text? "output-dir"
    verbose := behind.has "verbose" || front.has "verbose"
    logFormat := if text? "log-format" = some "json" then .json else .compact
    command := command }

/-- What is wrong with a command line without a command. It matters whether
    anything was said at all. -/
def withoutCommand (environment : Environment) (front : Given) : UsageFault :=
  if front.isEmpty ∧ (environment keyVariable).isNone ∧ (environment baseUrlVariable).isNone then
    .nothingGiven
  else .commandMissing

/-- The end of a command line that asks for help by the word: commands to be
    explained, of which there is only one level. -/
def helpFault : List String → UsageFault
  | [] => .help
  | [word] => if firstLevel.commands.contains word then .help else .unknownCommand
  | _ => .unknownCommand

/-- The command line of a list of arguments. -/
def read (environment : Environment) (arguments : List String) : Except UsageFault Arguments := do
  let (front, next) ← firstLevel.read .start arguments
  match next with
  | none => .error (withoutCommand environment (← front.settle).given)
  | some (word, rest) =>
    match CommandWord.table.lookup word with
    | none => .error (helpFault rest)
    | some word =>
      let (behind, _) ← word.level.read .start rest
      let behind ← behind.settle
      let command ← Given.command behind.given word
      -- Only now the last option in front of the command gets its value.
      let front ← front.settle
      return ofGiven environment front.given behind.given command

end Arguments

end TestbedReport
