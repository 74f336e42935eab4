/-!
The commands of shell scripts. A word is made of parts: text, and things that stand for text, each
between quotes or not; only what stands outside of quotes is split into fields or taken as a pattern.
-/

namespace DecodePipeline.Shell

inductive Cut where
  | shortestFront
  | longestFront
  | shortestBack
  | longestBack
  deriving DecidableEq, Repr

inductive Fallback where
  | use
  | assign
  | fail
  /-- The other way round: the word counts when the variable does have a value. -/
  | instead
  deriving DecidableEq, Repr

inductive Direction where
  | read
  | write
  | append
  | duplicate
  /-- The target itself is what is read. -/
  | document
  deriving DecidableEq, Repr

mutual

inductive Part where
  | text (content : String) (quoted : Bool)
  | parameter (name : String) (use : Use) (quoted : Bool)
  | arithmetic (expression : List Part) (quoted : Bool)
  | output (script : List Command) (quoted : Bool)
  /-- A value that is known by now; outside of quotes it is split as that of a variable. -/
  | given (value : String) (quoted : Bool)

inductive Use where
  | value
  | length
  | fallback (kind : Fallback) (emptyToo : Bool) (word : List Part)
  | without (cut : Cut) (pattern : List Part)

inductive Redirection where
  | mk (descriptor : Nat) (direction : Direction) (target : List Part)

inductive Command where
  | simple (line : Nat) (assignments : List (String × List Part)) (words : List (List Part))
    (redirections : List Redirection)
  | redirected (line : Nat) (body : Command) (redirections : List Redirection)
  | group (body : List Command)
  | subshell (body : List Command)
  | pipeline (stages : List Command)
  | negated (body : Command)
  | both (first second : Command)
  | either (first second : Command)
  | background (body : Command)
  | choice (test body otherwise : List Command)
  | repeated (untilTrue : Bool) (test body : List Command)
  | each (name : String) (words : Option (List (List Part))) (body : List Command)
  | select (word : List Part) (branches : List (List (List Part) × List Command))
  | define (name : String) (body : Command)
  /-- Stands for text that cannot be read. -/
  | malformed (line : Nat) (message : String)

end

instance : Inhabited Command := ⟨.group []⟩

abbrev Word := List Part

def Redirection.descriptor : Redirection → Nat
  | .mk d _ _ => d

def Redirection.direction : Redirection → Direction
  | .mk _ d _ => d

def Redirection.target : Redirection → Word
  | .mk _ _ w => w

end DecodePipeline.Shell
