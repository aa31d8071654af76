import BlockPool.Word
import BlockPool.Text.Quoted

/-!
# BlockPool — settings

A tunable is a variable of the environment: a name and, where it is set, a text. The text may have
white space around it; a number is an optional plus sign and decimal digits, a switch one of two
words.

* `Setting.word?`, `Setting.switch?` — the grammar of a number and of a switch.
* `Setting.lookup` — a variable of the environment, read by one of the two.
* `ConfigError` — a text that is not in the grammar, or a value outside its range.
-/

namespace BlockPool

/-- A tunable that could not be read or lies outside its range; `key` is its variable. -/
inductive ConfigError where
  | parse (key value : String)
  | outOfRange (key : String) (value : Nat) (reason : String)
deriving DecidableEq, Repr

/-- The text of the error. The rejected text is quoted as it was given. -/
def ConfigError.message : ConfigError → String
  | .parse key value => s!"{key}: cannot parse " ++ Text.quote value
  | .outOfRange key value reason => s!"{key} = {value}: {reason}"

/-- The kind of the error. -/
def ConfigError.kind : ConfigError → String
  | .parse _ _ => "Parse"
  | .outOfRange _ _ _ => "OutOfRange"

/-- The variables that are set, with their texts. -/
abbrev Environment := String → Option String

namespace Setting

/-- The value of a decimal digit; the other digits of the world are none here. -/
def digit? (c : Char) : Option Nat :=
  if '0' ≤ c ∧ c ≤ '9' then some (c.toNat - '0'.toNat) else none

/-- The number that a list of digits denotes, most significant first, read after `value`. -/
def decimalFrom? (value : Nat) : List Char → Option Nat
  | [] => some value
  | c :: rest => do
    let d ← digit? c
    decimalFrom? (10 * value + d) rest

/-- One or more digits. -/
def decimal? : List Char → Option Nat
  | [] => none
  | digits => decimalFrom? 0 digits

/-- A number as it may be written: an optional plus sign and one or more digits, with a value that
fits a word. -/
def word? (text : List Char) : Option Nat :=
  let digits := match text with
    | '+' :: rest => rest
    | _ => text
  (decimal? digits).filter (· < Word.limit)

/-- A switch as it may be written. -/
def switch? (text : List Char) : Option Bool :=
  if text = "true".toList then some true
  else if text = "false".toList then some false
  else none

/-- Reads the variable `key`, trimmed of white space. A variable that is not set is no error. -/
def lookup {α : Type} (read? : List Char → Option α) (env : Environment) (key : String) :
    Except ConfigError (Option α) :=
  match env key with
  | none => .ok none
  | some raw =>
    match read? (Text.trim raw.toList) with
    | some value => .ok (some value)
    | none => .error (.parse key raw)

/-- Reads a number, with a value to use where the variable is not set. -/
def wordOr (env : Environment) (key : String) (default : Nat) : Except ConfigError Nat := do
  return (← lookup word? env key).getD default

/-- Reads a switch, with a value to use where the variable is not set. -/
def switchOr (env : Environment) (key : String) (default : Bool) : Except ConfigError Bool := do
  return (← lookup switch? env key).getD default

end Setting

end BlockPool
