/-!
Patterns for one name. A question mark stands for any character, an asterisk for any characters, brackets
for one character out of some spans or, with an exclamation mark in front, for one outside of them. A name
matches as a whole, and case counts.
-/

namespace DecodePipeline.Glob

/-- All characters from one to another, both included. -/
structure Span where
  first : Char
  last : Char
  deriving DecidableEq, Repr

inductive Token where
  | char (c : Char)
  | anyChar
  | within (spans : List Span)
  | outside (spans : List Span)
  | anyChars
  deriving DecidableEq, Repr

abbrev Pattern := List Token

namespace Span

def contains (s : Span) (c : Char) : Bool := s.first ≤ c && c ≤ s.last

def single (c : Char) : Span := ⟨c, c⟩

/-- The spans between two brackets: a dash between two characters joins them. -/
def list : List Char → List Span
  | a :: '-' :: b :: rest => ⟨a, b⟩ :: list rest
  | a :: rest => single a :: list rest
  | [] => []

end Span

/-- Whether a token stands for a character. -/
def Token.takes (c : Char) : Token → Bool
  | .char d => c = d
  | .anyChar | .anyChars => true
  | .within spans => spans.any (·.contains c)
  | .outside spans => !spans.any (·.contains c)

def Token.char? : Token → Option Char
  | .char c => some c
  | _ => none

namespace Pattern

def accepts : Pattern → List Char → Bool
  | [], name => name.isEmpty
  | .anyChars :: p, [] => accepts p []
  | .anyChars :: p, c :: name => accepts p (c :: name) || accepts (.anyChars :: p) name
  | _ :: _, [] => false
  | t :: p, c :: name => t.takes c && accepts p name
termination_by p name => p.length + name.length

/-- What brackets enclose, up to the first closing one behind at least one character: that, and what
follows. -/
def enclosed? : List Char → Option (List Char × List Char)
  | [] => none
  | c :: rest =>
    match rest.dropWhile (· ≠ ']') with
    | [] => none
    | _ :: after => some (c :: rest.takeWhile (· ≠ ']'), after)

theorem enclosed?_length {cs inside after : List Char} (h : enclosed? cs = some (inside, after)) :
    after.length < cs.length := by
  cases cs with
  | nil => simp [enclosed?] at h
  | cons c rest =>
    have hle := (List.dropWhile_sublist (l := rest) (· ≠ ']')).length_le
    simp only [enclosed?] at h
    split at h
    · simp at h
    · next d => simp_all; omega

/-- Reads a pattern. Brackets that are not closed and two asterisks side by side are errors. -/
def read? : List Char → Option Pattern
  | [] => some []
  | '?' :: rest => (read? rest).map (.anyChar :: ·)
  | '*' :: '*' :: _ => none
  | '*' :: rest => (read? rest).map (.anyChars :: ·)
  | '[' :: '!' :: rest =>
    match _h : enclosed? rest with
    | none => none
    | some (inside, after) => (read? after).map (.outside (Span.list inside) :: ·)
  | '[' :: rest =>
    match _h : enclosed? rest with
    | none => none
    | some (inside, after) => (read? after).map (.within (Span.list inside) :: ·)
  | c :: rest => (read? rest).map (.char c :: ·)
termination_by cs => cs.length
decreasing_by
  all_goals simp only [List.length_cons]
  all_goals try omega
  all_goals have := enclosed?_length _h; omega

/-- The name that a pattern without special characters stands for. -/
def literal? (p : Pattern) : Option String :=
  (p.mapM Token.char?).map String.ofList

end Pattern

def escape (text : String) : String :=
  String.ofList <| text.toList.flatMap fun c =>
    if c = '?' ∨ c = '*' ∨ c = '[' ∨ c = ']' then ['[', c, ']'] else [c]

end DecodePipeline.Glob
