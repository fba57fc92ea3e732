/-!
# Placeholders for Environment Variables

A settings file can name an environment variable instead of holding a secret
itself: a dollar sign and the name in braces stand for the value of the
variable. A name is everything up to the closing brace, at least one character,
so it can hold blanks, line breaks and even another opening.

Placeholders are filled in one pass over the characters, and a value that was
put in is not looked at again. A variable that is not set leaves its placeholder
as it is, and so does an opening that nothing closes.

The pass is a small machine. `Filled` says the same without any machine, as the
relation between a text and what becomes of it.

## Main definitions

* `Environment`: The values of environment variables.
* `Placeholder.fill`: A text with its placeholders filled.
* `Placeholder.Filled`: What becomes of a text, as a relation.
-/

namespace TestbedReport

/-- The values of environment variables. -/
abbrev Environment := String → Option String

namespace Placeholder

/-- A placeholder as it is written. -/
def written (name : List Char) : List Char :=
  '$' :: '\x7b' :: name ++ ['\x7d']

/-- What stands for a name: the value of the variable, or else the placeholder
    as it is written. -/
def valueOf (environment : Environment) (name : List Char) : List Char :=
  match environment (String.ofList name) with
  | some value => value.toList
  | none => written name

/-- Where the pass is: outside of a placeholder, behind a dollar sign, or in a
    name, of which the characters so far are kept last first. -/
inductive Place where
  | outside
  | dollar
  | inName (reversed : List Char)
deriving DecidableEq

/-- The pass over the characters. -/
def pass (environment : Environment) : Place → List Char → List Char
  | .outside, [] => []
  | .dollar, [] => ['$']
  | .inName reversed, [] => '$' :: '\x7b' :: reversed.reverse
  | .outside, c :: rest =>
    if c = '$' then pass environment .dollar rest else c :: pass environment .outside rest
  | .dollar, c :: rest =>
    if c = '\x7b' then pass environment (.inName []) rest
    else if c = '$' then '$' :: pass environment .dollar rest
    else '$' :: c :: pass environment .outside rest
  | .inName reversed, c :: rest =>
    if c = '\x7d' then
      -- Braces with nothing between them are no placeholder.
      let filled := if reversed.isEmpty then written [] else valueOf environment reversed.reverse
      filled ++ pass environment .outside rest
    else pass environment (.inName (c :: reversed)) rest

/-- A text with its placeholders filled. -/
def fill (environment : Environment) (text : String) : String :=
  String.ofList (pass environment .outside text.toList)

/-- Whether characters begin with a placeholder. -/
def Begins (cs : List Char) : Prop :=
  ∃ name rest, name ≠ [] ∧ '\x7d' ∉ name ∧ cs = written name ++ rest

/-- What becomes of a text: from left to right, a placeholder is replaced and
    left behind, and any other character is copied. -/
inductive Filled (environment : Environment) : List Char → List Char → Prop where
  | done : Filled environment [] []
  | copy {c : Char} {rest out : List Char} (h : ¬Begins (c :: rest))
      (tail : Filled environment rest out) : Filled environment (c :: rest) (c :: out)
  | replace {name rest out : List Char} (nonempty : name ≠ []) (closed : '\x7d' ∉ name)
      (tail : Filled environment rest out) :
      Filled environment (written name ++ rest) (valueOf environment name ++ out)

end Placeholder

end TestbedReport
