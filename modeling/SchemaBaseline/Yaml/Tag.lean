import SchemaBaseline.Text.Pattern

/-!
# Tags

A `Tag` says what kind of value a node stands for. A plain scalar without a tag has the one that
the first fitting form of `forms` gives it, and is a text if no form fits (`Tag.ofPlain`).
-/

namespace SchemaBaseline.Yaml

open Text (Pattern)

/-- The kinds of values, and the tags that name none of them. -/
inductive Tag
  | null
  | bool
  | int
  | float
  | binary
  | timestamp
  | orderedMap
  | pairs
  | set
  | text
  | sequence
  | mapping
  | merge
  | value
  | other (name : String)
deriving Repr, DecidableEq

/-- What the names of the common tags begin with. -/
def commonTags : String := "tag:yaml.org,2002:"

/-- The common tags by the last part of their names. -/
def commonNames : List (String × Tag) := [
  ("null", .null), ("bool", .bool), ("int", .int), ("float", .float), ("binary", .binary),
  ("timestamp", .timestamp), ("omap", .orderedMap), ("pairs", .pairs), ("set", .set),
  ("str", .text), ("seq", .sequence), ("map", .mapping), ("merge", .merge), ("value", .value)]

def Tag.ofName (name : String) : Tag :=
  match commonNames.find? fun entry => commonTags ++ entry.1 == name with
  | some (_, tag) => tag
  | none => .other name

def Tag.name : Tag → String
  | .other name => name
  | tag =>
    match commonNames.find? fun entry => entry.2 == tag with
    | some (name, _) => commonTags ++ name
    | none => ""

namespace Plain

open Text.Pattern

def sign : Pattern := optional (among "+-")

/-- A decimal digit or an underscore. -/
def digitOrGap : Pattern := among "0123456789_"

/-- A colon and a number below sixty, at least once. -/
def sixtieths : Pattern :=
  repeated (sequence [char ':', optional (among "012345"), digit])

/-- A signed exponent or none. -/
def exponent : Pattern :=
  optional (sequence [among "eE", among "+-", repeated digit])

/-- The words for yes and no. -/
def bool : Pattern :=
  words ["yes", "Yes", "YES", "no", "No", "NO", "true", "True", "TRUE", "false", "False", "FALSE",
    "on", "On", "ON", "off", "Off", "OFF"]

/-- A number with a point, in the base ten or sixty, an infinity or what is no number. -/
def float : Pattern :=
  choice [
    sequence [sign, digit, many digitOrGap, char '.', many digitOrGap, exponent],
    sequence [char '.', digit, many digitOrGap, exponent],
    sequence [sign, digit, many digitOrGap, sixtieths, char '.', many digitOrGap],
    sequence [sign, char '.', words ["inf", "Inf", "INF"]],
    sequence [char '.', words ["nan", "NaN", "NAN"]]]

/-- An integer in the base two, eight, ten, sixteen or sixty. -/
def int : Pattern :=
  choice [
    sequence [sign, word "0b", repeated (among "01_")],
    sequence [sign, char '0', repeated (among "01234567_")],
    sequence [sign, either (char '0') (next (among "123456789") (many digitOrGap))],
    sequence [sign, word "0x", repeated (among "0123456789abcdefABCDEF_")],
    sequence [sign, among "123456789", many digitOrGap, sixtieths]]

def null : Pattern := words ["~", "null", "Null", "NULL"]

def shortNumber : Pattern := next digit (optional digit)

def twoDigits : Pattern := next digit digit

def fourDigits : Pattern := next twoDigits twoDigits

/-- Blanks and tabs. -/
def gap : Pattern := many (among " \t")

/-- Year, month and day, the latter two perhaps short. -/
def looseDate : Pattern :=
  sequence [fourDigits, char '-', shortNumber, char '-', shortNumber]

/-- What stands between a date and a time of day. -/
def dateTimeGap : Pattern :=
  either (among "Tt") (repeated (among " \t"))

/-- A time of day with seconds, perhaps a fraction, and perhaps an offset. -/
def timeOfDay : Pattern :=
  sequence [shortNumber, char ':', twoDigits, char ':', twoDigits,
    optional (next (char '.') (many digit)),
    optional (next gap (either (char 'Z')
      (sequence [among "+-", shortNumber, optional (next (char ':') twoDigits)])))]

/-- A date, or a date and a time of day. -/
def timestamp : Pattern :=
  either (sequence [fourDigits, char '-', twoDigits, char '-', twoDigits])
    (sequence [looseDate, dateTimeGap, timeOfDay])

/-- The same with a date whose month and day are perhaps short, as it may stand behind a written
tag. -/
def looseStamp : Pattern :=
  next looseDate (optional (next dateTimeGap timeOfDay))

end Plain

/-- The forms of plain scalars that are no texts, with their tags. -/
def forms : List (Pattern × Tag) := [
  (Plain.bool, .bool), (Plain.float, .float), (Plain.int, .int), (Pattern.word "<<", .merge),
  (Plain.null, .null), (Plain.timestamp, .timestamp), (Pattern.char '=', .value),
  (Pattern.among "!&*", .other (commonTags ++ "yaml"))]

/-- A text without the line feed at its end, if there is one. -/
def withoutLastFeed (cs : List Char) : List Char :=
  if cs.getLast? = some '\n' then cs.dropLast else cs

/-- The tag of a plain scalar. Nothing at all is null; a line feed at the end does not matter. -/
def Tag.ofPlain (cs : List Char) : Tag :=
  if cs.isEmpty then .null
  else match forms.find? fun form => form.1.accepts (withoutLastFeed cs) with
    | some (_, tag) => tag
    | none => .text

end SchemaBaseline.Yaml
