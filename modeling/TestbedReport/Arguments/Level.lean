import TestbedReport.Arguments.Option

/-!
# Reading One Level of a Command Line

A command line has two levels. The options in front of the command are read on
the first, and everything behind it on the second; each level knows its own
options and its own place for a value without a name.

The value of an option can be attached to it with an equals sign or be the next
argument. In the second case the option waits, and a command word is then a
value like any other, but an argument with dashes is not: it is read as an option
itself, and the one that waits ends up without a value. Its value is looked at
only when the next option comes or the level ends, so a mistake further on can
be found first.

## Main definitions

* `Level`: What is known on a level.
* `Progress`: What has been read of a level.
* `Level.step`, `Level.read`: One argument, and all of them.
-/

namespace TestbedReport

/-- What is known on a level: the options, the name for a value without a name,
    and the words that lead to the next level. -/
structure Level where
  rules : List OptionRule
  place : Option OptionRule
  commands : List String
deriving DecidableEq

/-- The word that asks for help on the first level. -/
def helpWord : String := "help"

/-- The option that asks for help on every level. -/
def helpRule : OptionRule :=
  ⟨"help", .flag⟩

/-- The options that can be shortened, with the letters for them. -/
def shortNames : List (Char × String) :=
  [('h', "help"), ('v', "verbose")]

/-- An option whose value is not settled yet, with the value if it has come. -/
structure Waiting where
  rule : OptionRule
  value : Option String
deriving DecidableEq

/-- What has been read of a level: the settled values, the option that waits,
    whether the value without a name has come, and whether two dashes have ended
    the options. -/
structure Progress where
  given : List (String × OptionValue)
  waiting : Option Waiting
  placed : Bool
  onlyValues : Bool
deriving DecidableEq

namespace Progress

/-- Before the first argument. -/
def start : Progress :=
  ⟨[], none, false, false⟩

/-- Whether an option waits for its value to come. -/
def awaits (p : Progress) : Bool :=
  match p.waiting with
  | some waiting => waiting.value.isNone
  | none => false

/-- Gives an option its value. No option is given twice. -/
def give (p : Progress) (rule : OptionRule) (value : String) : Except UsageFault Progress :=
  if (p.given.lookup rule.name).isSome then .error .conflict
  else do
    let value ← rule.form.read value
    return { p with given := p.given ++ [(rule.name, value)] }

/-- Settles the option that waits. It must have got a value by now. -/
def settle (p : Progress) : Except UsageFault Progress :=
  match p.waiting with
  | none => .ok p
  | some ⟨_, none⟩ => .error .badValue
  | some ⟨rule, some value⟩ => { p with waiting := none }.give rule value

/-- An option that only has to be there. -/
def raise (p : Progress) (rule : OptionRule) : Except UsageFault Progress := do
  let p ← p.settle
  if rule = helpRule then .error .help else p.give rule ""

end Progress

namespace Level

/-- The option of a name. Help can be asked for on every level. -/
def rule? (level : Level) (name : String) : Option OptionRule :=
  (helpRule :: level.rules).find? (·.name = name)

/-- An option by its name, with a value attached to it or not. -/
def long (level : Level) (p : Progress) (name : String) (attached : Option String) :
    Except UsageFault Progress :=
  match level.rule? name with
  | none => .error .unknownArgument
  | some rule =>
    match rule.form, attached with
    | .flag, none => p.raise rule
    | .flag, some _ => .error .valueForFlag
    | _, some value => do (← p.settle).give rule value
    | _, none => do return { (← p.settle) with waiting := some ⟨rule, none⟩ }

/-- Options by their letters, one after the other. None of them has a value. -/
def short (level : Level) (p : Progress) : List Char → Except UsageFault Progress
  | [] => .ok p
  | letter :: rest =>
    match (shortNames.lookup letter).bind level.rule? with
    | none => .error .unknownArgument
    | some rule => do level.short (← p.raise rule) rest

/-- A value without a name. Where there is no place for it, the first level takes
    it for a command that it does not know, unless it is one that it knows. -/
def value (level : Level) (p : Progress) (argument : String) : Except UsageFault Progress :=
  match level.place, p.placed with
  | some rule, false => do
    return { (← p.settle) with waiting := some ⟨rule, some argument⟩, placed := true }
  | _, _ =>
    if level.commands.isEmpty ∨ p.onlyValues ∧ level.commands.contains argument then
      .error .unknownArgument
    else .error .unknownCommand

/-- The name of an option and the value attached to it at the first equals
    sign. -/
def splitAttached (cs : List Char) : String × Option String :=
  let name := cs.takeWhile (· ≠ '=')
  (String.ofList name, (cs.drop name.length).tail?.map String.ofList)

/-- An argument that leads to no other level. -/
def step (level : Level) (p : Progress) (argument : String) : Except UsageFault Progress :=
  if p.onlyValues then level.value p argument
  else match argument.toList with
    | ['-', '-'] => .ok { p with onlyValues := true }
    | '-' :: '-' :: cs =>
      let (name, attached) := splitAttached cs
      level.long p name attached
    | '-' :: letter :: letters => level.short p (letter :: letters)
    | _ =>
      -- A word without dashes is a value of whatever waits for one.
      match p.waiting with
      | some ⟨rule, none⟩ => .ok { p with waiting := some ⟨rule, some argument⟩ }
      | _ => level.value p argument

/-- All arguments up to the one that leads to the next level, which is returned
    with those behind it. -/
def read (level : Level) (p : Progress) :
    List String → Except UsageFault (Progress × Option (String × List String))
  | [] => .ok (p, none)
  | argument :: rest =>
    if !p.onlyValues && !p.awaits && level.commands.contains argument then
      .ok (p, some (argument, rest))
    else do level.read (← level.step p argument) rest

end Level

end TestbedReport
