import SchemaBaseline.Decimal.Reader
import SchemaBaseline.Text.Blank
import SchemaBaseline.Text.Digits
import SchemaBaseline.Text.Pattern
import SchemaBaseline.Text.Quoted

/-!
# Flags on a command line

The words of a command line are told apart by `classify`: a flag may be shortened as long as only
one flag begins so, and its value may follow behind an equals sign or as the next word.
`readWords` reads words of which none stands for itself, `readUntilCommand` reads up to the first
that does. What is wrong with a command line is a `UsageProblem`.
-/

namespace SchemaBaseline.CommandLine

open Text (quoted)

/-- What a flag is for. -/
inductive Role
  /-- Asks for help instead of anything else. -/
  | help
  /-- Is there or not. -/
  | switch
  /-- Has a text as its value. -/
  | text
  /-- Has an integer as its value. -/
  | integer
deriving Repr, DecidableEq

/-- A flag: its letter, if it has one, and its word. A flag with a value has no letter. -/
structure Flag where
  letter : Option Char
  word : String
  role : Role
deriving Repr, DecidableEq

namespace Flag

/-- The ways to write a flag. -/
def names (f : Flag) : List String :=
  f.letter.toList.map (fun c => String.ofList ['-', c]) ++ ["--" ++ f.word]

def takesValue (f : Flag) : Bool :=
  f.role == .text || f.role == .integer

end Flag

/-- What is wrong with a command line. -/
inductive UsageProblem
  | ambiguous (word : String) (candidates : List String)
  | unwantedValue (flag : Flag) (value : String)
  | missingValue (flag : Flag)
  | notAnInteger (flag : Flag) (value : String)
  | unknownCommand (word : String) (commands : List String)
  | missingCommand
  | unrecognized (words : List String)
deriving Repr, DecidableEq

/-- A flag in messages: all ways to write it. -/
def Flag.title (f : Flag) : String :=
  "/".intercalate f.names

def UsageProblem.message : UsageProblem → String
  | .ambiguous word candidates =>
    s!"ambiguous option: {word} could match " ++ ", ".intercalate candidates
  | .unwantedValue flag value =>
    s!"argument {flag.title}: ignored explicit argument " ++ quoted value
  | .missingValue flag => s!"argument {flag.title}: expected one argument"
  | .notAnInteger flag value => s!"argument {flag.title}: invalid int value: " ++ quoted value
  | .unknownCommand word commands =>
    "argument command: invalid choice: " ++ quoted word ++ " (choose from " ++
      ", ".intercalate (commands.map quoted) ++ ")"
  | .missingCommand => "the following arguments are required: command"
  | .unrecognized words => "unrecognized arguments: " ++ " ".intercalate words

/-- Why a command line is not carried out. -/
inductive Halt
  | helpAsked
  | problem (p : UsageProblem)
deriving Repr, DecidableEq

/-! ## Telling words apart -/

/-- A value that is joined to its flag, with an equals sign or without. -/
structure JoinedValue where
  equals : Bool
  text : String
deriving Repr, DecidableEq

/-- A word of a command line. -/
inductive Word
  /-- A word that stands for itself. -/
  | plain (s : String)
  /-- The word behind which all words stand for themselves. -/
  | divider
  /-- A word that looks like a flag and is none. -/
  | unknown (s : String)
  /-- A flag as it is written, and the name that it is short for. -/
  | flag (written : String) (flag : Flag) (name : String) (value : Option JoinedValue)
deriving Repr, DecidableEq

def Word.written : Word → String
  | .plain s => s
  | .divider => "--"
  | .unknown s => s
  | .flag written .. => written

def flagOf? (flags : List Flag) (name : String) : Option Flag :=
  flags.find? fun f => f.names.contains name

/-- All names of flags, each with its flag. -/
def namedFlags (flags : List Flag) : List (String × Flag) :=
  flags.flatMap fun f => f.names.map fun name => (name, f)

/-- A word before its first equals sign, and what is behind it. -/
def splitEquals (s : String) : String × Option JoinedValue :=
  let cs := s.toList
  match cs.dropWhile (· != '=') with
  | [] => (s, none)
  | _ :: rest => (String.ofList (cs.takeWhile (· != '=')), some ⟨true, String.ofList rest⟩)

/-- The flags that a word may be short for. Behind two minus signs the beginning of a name will
do; behind one, a value may follow the letter at once. -/
def candidates (flags : List Flag) (s : String) : List Word :=
  match s.toList with
  | '-' :: '-' :: _ =>
    let (start, value) := splitEquals s
    ((namedFlags flags).filter fun entry => start.toList.isPrefixOf entry.1.toList).map
      fun entry => .flag s entry.2 entry.1 value
  | '-' :: letter :: rest =>
    (namedFlags flags).filterMap fun entry =>
      if entry.1.toList = ['-', letter] then
        some (.flag s entry.2 entry.1 (some ⟨false, String.ofList rest⟩))
      else if s.toList.isPrefixOf entry.1.toList then some (.flag s entry.2 entry.1 none)
      else none
  | _ => []

def negativeNumber : Text.Pattern :=
  let digits := Text.Pattern.many .digit
  .next (.char '-') (.either (.next .digit digits)
    (.sequence [digits, .char '.', .digit, digits]))

/-- Whether a word is a negative number; a line feed at its end does not matter. -/
def isNegativeNumber (s : String) : Bool :=
  let cs := s.toList.map Text.plainDigit
  negativeNumber.accepts (if cs.getLast? = some '\n' then cs.dropLast else cs)

def classify (flags : List Flag) (s : String) : Except Halt Word :=
  match s.toList with
  | '-' :: _ :: _ =>
    let (name, value) := splitEquals s
    match flagOf? flags s, flagOf? flags name with
    | some f, _ => .ok (.flag s f s none)
    | none, some f => .ok (.flag s f name value)
    | none, none =>
      match candidates flags s with
      | [] => .ok (if isNegativeNumber s || s.contains ' ' then .plain s else .unknown s)
      | [word] => .ok word
      | words =>
        .error (.problem (.ambiguous s (words.filterMap fun word =>
          match word with
          | .flag _ _ name _ => some name
          | _ => none)))
  | _ => .ok (.plain s)

def classifyAll (flags : List Flag) : List String → Except Halt (List Word)
  | [] => .ok []
  | "--" :: rest => .ok (.divider :: rest.map .plain)
  | s :: rest => do
    let word ← classify flags s
    let words ← classifyAll flags rest
    .ok (word :: words)

/-! ## Reading words -/

/-- The value of a flag that is there. -/
inductive Setting
  | on
  | text (s : String)
  | number (n : Int)
deriving Repr, DecidableEq

/-- Flags with their values, in the order in which they are written. -/
abbrev Given := List (Flag × Setting)

/-- What has been read: the flags, and the words that mean nothing. -/
structure Reading where
  given : Given
  extras : List String

/-- Two readings, one after the other. -/
def Reading.append (first second : Reading) : Reading :=
  ⟨first.given ++ second.given, first.extras ++ second.extras⟩

instance : Append Reading := ⟨Reading.append⟩

/-- A word that means nothing. -/
def extra (s : String) : Reading :=
  ⟨[], [s]⟩

/-- A flag without a value. -/
def raised (f : Flag) : Except Halt Reading :=
  if f.role = .help then .error .helpAsked else .ok ⟨[(f, .on)], []⟩

def valued (f : Flag) (value : String) : Except Halt Reading :=
  if f.role = .integer then
    match Decimal.readInteger ((Text.stripChars value.toList).map Text.plainDigit) with
    | some n => .ok ⟨[(f, .number n)], []⟩
    | none => .error (.problem (.notAnInteger f value))
  else .ok ⟨[(f, .text value)], []⟩

/-- Flags by their letters, one behind the other, and the rest of the word from the first letter
on that is no flag. `isLetter` says that the flag before is written by its letter, `equals` that
an equals sign is between. Nothing is raised before the whole word is read. -/
def cluster (flags : List Flag) (f : Flag) (isLetter equals : Bool) :
    List Char → Except Halt (List Flag × List String)
  | [] => .error (.problem (.unwantedValue f ""))
  | c :: rest =>
    if !isLetter || equals || c = '-' then
      .error (.problem (.unwantedValue f (String.ofList (c :: rest))))
    else match flagOf? flags (String.ofList ['-', c]) with
      | none => .ok ([f], [String.ofList ('-' :: c :: rest)])
      | some other =>
        match rest with
        | [] => .ok ([f, other], [])
        | '=' :: value =>
          (cluster flags other true true value).map fun found => (f :: found.1, found.2)
        | d :: more =>
          (cluster flags other true false (d :: more)).map fun found => (f :: found.1, found.2)

/-- Raises flags one after the other. -/
def raisedAll : List Flag → Except Halt Reading
  | [] => .ok ⟨[], []⟩
  | f :: rest => do
    let first ← raised f
    let others ← raisedAll rest
    .ok (first ++ others)

/-- A flag without a value that is written with one: perhaps further letters. -/
def joinedFlag (flags : List Flag) (f : Flag) (name : String) (value : JoinedValue) :
    Except Halt Reading := do
  let isLetter := name.length == 2
  let (found, extras) ← cluster flags f isLetter value.equals value.text.toList
  let reading ← raisedAll found
  .ok (reading ++ ⟨[], extras⟩)

/-- Reads words of which none stands for itself. -/
def readWords (flags : List Flag) : List Word → Except Halt Reading
  | [] => .ok ⟨[], []⟩
  | .flag _ f name (some value) :: rest => do
    let first ← if f.takesValue then valued f value.text else joinedFlag flags f name value
    let others ← readWords flags rest
    .ok (first ++ others)
  | .flag _ f _ none :: rest =>
    if f.takesValue then
      match rest with
      | .plain value :: rest => do
        let first ← valued f value
        let others ← readWords flags rest
        .ok (first ++ others)
      | _ => .error (.problem (.missingValue f))
    else do
      let first ← raised f
      let others ← readWords flags rest
      .ok (first ++ others)
  | word :: rest => do
    let others ← readWords flags rest
    .ok (extra word.written ++ others)

/-- Reads the flags before the first word that stands for itself; that word and those behind it
are left. A divider directly before it counts as that word. -/
def readUntilCommand (flags : List Flag) : List Word → Except Halt (Reading × List Word)
  | [] => .ok (⟨[], []⟩, [])
  | .plain s :: rest => .ok (⟨[], []⟩, .plain s :: rest)
  | .divider :: .plain s :: rest => .ok (⟨[], []⟩, .divider :: .plain s :: rest)
  | word :: rest => do
    let first ← readWords flags [word]
    let (others, left) ← readUntilCommand flags rest
    .ok (first ++ others, left)

/-- The last value of a flag. -/
def Reading.last? (r : Reading) (word : String) : Option Setting :=
  (r.given.reverse.find? fun entry => entry.1.word == word).map Prod.snd

def Reading.has (r : Reading) (word : String) : Bool :=
  (r.last? word).isSome

/-- The last text of a flag. -/
def Reading.text? (r : Reading) (word : String) : Option String :=
  match r.last? word with
  | some (.text s) => some s
  | _ => none

/-- The last number of a flag. -/
def Reading.number? (r : Reading) (word : String) : Option Int :=
  match r.last? word with
  | some (.number n) => some n
  | _ => none

end SchemaBaseline.CommandLine
