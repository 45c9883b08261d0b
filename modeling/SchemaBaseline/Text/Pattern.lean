/-!
# Patterns

Regular patterns over characters. `Pattern.accepts` decides whether a pattern covers a whole text,
by taking the derivative of the pattern after each character.
-/

namespace SchemaBaseline.Text

/-- A regular pattern. -/
inductive Pattern
  /-- No text at all. -/
  | never
  /-- The empty text. -/
  | done
  /-- One character of a class. -/
  | one (allowed : Char → Bool)
  /-- One pattern, then another. -/
  | next (first second : Pattern)
  /-- One of two patterns. -/
  | either (left right : Pattern)
  /-- A pattern any number of times. -/
  | many (body : Pattern)

namespace Pattern

/-! ## Building patterns -/

def char (c : Char) : Pattern := one (· == c)

/-- One of the given characters. -/
def among (s : String) : Pattern := one fun c => s.toList.contains c

def digit : Pattern := one Char.isDigit

def sequence (parts : List Pattern) : Pattern :=
  parts.foldr next done

def choice (options : List Pattern) : Pattern :=
  options.foldr either never

def word (s : String) : Pattern := sequence (s.toList.map char)

/-- One of the given texts. -/
def words (texts : List String) : Pattern := choice (texts.map word)

/-- A pattern or nothing. -/
def optional (p : Pattern) : Pattern := either p done

/-- A pattern at least once. -/
def repeated (p : Pattern) : Pattern := next p (many p)

/-! ## Deciding -/

/-- Whether a pattern covers the empty text. -/
def coversEmpty : Pattern → Bool
  | never => false
  | done => true
  | one _ => false
  | next p q => p.coversEmpty && q.coversEmpty
  | either p q => p.coversEmpty || q.coversEmpty
  | many _ => true

/-- One pattern, then another; nothing follows `never`. -/
def andThen (p q : Pattern) : Pattern :=
  match p with
  | never => never
  | done => q
  | p => next p q

/-- One of two patterns; `never` is left out. -/
def orElse (p q : Pattern) : Pattern :=
  match p, q with
  | never, q => q
  | p, never => p
  | p, q => either p q

/-- What remains to be covered after a character. -/
def after (c : Char) : Pattern → Pattern
  | never => never
  | done => never
  | one allowed => if allowed c then done else never
  | next p q =>
    if p.coversEmpty then orElse (andThen (p.after c) q) (q.after c) else andThen (p.after c) q
  | either p q => orElse (p.after c) (q.after c)
  | many p => andThen (p.after c) (many p)

/-- Whether a pattern covers a whole text. -/
def accepts (p : Pattern) (cs : List Char) : Bool :=
  (cs.foldl (fun left c => left.after c) p).coversEmpty

end Pattern

end SchemaBaseline.Text
