import SegmentFit.Text.DecimalDigit

/-!
# Command lines — words, options and a path

A command has options with long names, some of them with a value, and it may take one
path. The name of an option may be cut short as long as no other one starts like that.
A value is the next word, or it follows a `=`. After the word `--` no word is an option;
neither is a single dash, a negative number, or an unknown option with a blank in it.
The text `--` is no value, so `--name=--` leaves an option without one.
Every command has the options `--help` and `-h`.

Each word is told apart by itself (`CommandForm.word?`); then the words are gathered
from left to right. A call for help counts if nothing before it is refused; words left
over are refused at the end.
-/

namespace SegmentFit

structure CommandOption where
  name : String
  takesValue : Bool
  deriving DecidableEq, Repr

/-- What the words of a command may be. -/
structure CommandForm where
  options : List CommandOption
  takesPath : Bool
  deriving DecidableEq, Repr

/-- What one word stands for. -/
inductive CommandWord where
  -- a path or a value
  | plain (text : String)
  -- the end of the options
  | separator
  -- a call for help, which is refused if something is attached to it
  | help (valid : Bool)
  -- an option without a value, which is refused if something is attached to it
  | flag (name : String) (valid : Bool)
  -- an option with a value, which may be attached to it
  | setting (name : String) (attached : Option String)
  | unknown
  deriving DecidableEq, Repr

structure CommandWords where
  flags : List String
  /-- The options with their values, the last one first; some have none. -/
  settings : List (String × Option String)
  path : Option String
  deriving DecidableEq, Repr

inductive CommandCall where
  | run (words : CommandWords)
  | help
  | rejected
  deriving DecidableEq, Repr

def helpOption : CommandOption := ⟨"help", false⟩

/-- The parts of a text before and after its first `=`. -/
def splitAttached (text : List Char) : List Char × Option (List Char) :=
  let name := text.takeWhile (· != '=')
  match text.drop name.length with
  | [] => (name, none)
  | _ :: attached => (name, some attached)

/-- Whether a text after a dash makes up a negative number, with an optional line feed
behind it. -/
def isNumber (text : List Char) : Bool :=
  let text := if text.getLast? = some '\n' then text.dropLast else text
  let isDigit (c : Char) : Bool := (Text.digitValue? c).isSome
  match text.dropWhile isDigit with
  | [] => !text.isEmpty
  | '.' :: fraction => !fraction.isEmpty && fraction.all isDigit
  | _ => false

/-- Whether what follows `-h` in a word leaves it a call for help: it may say so again, as
in `-hh`, and an `=` may stand in front of that. -/
def allowsHelp : List Char → Bool
  | [] => true
  | '=' :: rest => !rest.isEmpty && rest.all (· == 'h')
  | rest => rest.all (· == 'h')

example : isNumber ['5'] ∧ isNumber ['.', '5'] ∧ ¬isNumber ['5', '.'] := by decide +kernel
example : allowsHelp ['h'] ∧ allowsHelp ['=', 'h'] ∧ ¬allowsHelp ['='] := by decide +kernel

namespace CommandForm

/-- The options that a name may stand for. -/
def candidates (form : CommandForm) (name : List Char) : List CommandOption :=
  let options := helpOption :: form.options
  match options.find? fun o => o.name.toList = name with
  | some o => [o]
  | none => options.filter fun o => name.isPrefixOf o.name.toList

def otherWord (word : List Char) : CommandWord :=
  if word.contains ' ' then .plain (String.ofList word) else .unknown

def optionWord (o : CommandOption) (attached : Option (List Char)) : CommandWord :=
  if o = helpOption then .help attached.isNone
  else if o.takesValue then .setting o.name (attached.map String.ofList)
  else .flag o.name attached.isNone

/-- What a word stands for, unless it may be more than one option. -/
def word? (form : CommandForm) (word : List Char) : Option CommandWord :=
  match word with
  | ['-', '-'] => some .separator
  | '-' :: '-' :: body =>
    let (name, attached) := splitAttached body
    match form.candidates name with
    | [] => some (otherWord word)
    | [o] => some (optionWord o attached)
    | _ => none
  | '-' :: 'h' :: rest => some (.help (allowsHelp rest))
  | '-' :: c :: rest =>
    some (if isNumber (c :: rest) then .plain (String.ofList word) else otherWord word)
  | _ => some (.plain (String.ofList word))

def words? (form : CommandForm) : List String → Option (List CommandWord)
  | [] => some []
  | text :: rest => do
    match ← form.word? text.toList with
    | .separator => return .separator :: rest.map .plain
    | word => return word :: (← form.words? rest)

end CommandForm

/-- The value in a text attached to an option, which is none if it ends the options. -/
def attachedValue? (text : String) : Option String :=
  if text = "--" then none else some text

/-- Gather words. `takesPath` tells whether a path may still come, and `extra` whether a
word was left over. -/
def gather (takesPath extra : Bool) (found : CommandWords) : List CommandWord → CommandCall
  | [] => if extra then .rejected else .run found
  | .help valid :: _ => if valid then .help else .rejected
  | .flag name valid :: rest =>
    if valid then gather takesPath extra { found with flags := name :: found.flags } rest
    else .rejected
  | .setting name (some text) :: rest =>
    let setting := (name, attachedValue? text)
    gather takesPath extra { found with settings := setting :: found.settings } rest
  | .setting name none :: .plain text :: rest =>
    let setting := (name, some text)
    gather takesPath extra { found with settings := setting :: found.settings } rest
  | .setting _ none :: _ => .rejected
  | .unknown :: rest => gather takesPath true found rest
  | .separator :: .plain text :: rest =>
    if takesPath then gather false extra { found with path := some text } rest
    else gather takesPath true found rest
  | .separator :: rest => gather false (extra || !takesPath) found rest
  | .plain text :: .separator :: rest =>
    if takesPath then gather false extra { found with path := some text } rest
    else gather takesPath true found rest
  | .plain text :: rest =>
    if takesPath then gather false extra { found with path := some text } rest
    else gather takesPath true found rest

namespace CommandForm

def parse (form : CommandForm) (line : List String) : CommandCall :=
  match form.words? line with
  | none => .rejected
  | some words => gather form.takesPath false ⟨[], [], none⟩ words

end CommandForm

end SegmentFit
