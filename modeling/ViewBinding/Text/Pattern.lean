/-!
# Patterns

A `ViewBinding.Text.Pattern` is a regular expression over characters. It is matched by
derivatives: `ViewBinding.Text.Pattern.after c` is the pattern of what may follow once `c` has
been read, and `ViewBinding.Text.Pattern.longest?` follows a text as long as anything may follow
and gives the length of the longest part from its start that matches.
-/

namespace ViewBinding.Text

/-- A regular expression over characters. -/
inductive Pattern
  /-- Matches nothing. -/
  | none
  /-- Matches the empty text. -/
  | empty
  /-- Matches one character of a class. -/
  | one (accepts : Char → Bool)
  /-- Matches a text of the first followed by one of the second. -/
  | seq (first second : Pattern)
  /-- Matches what either matches. -/
  | alt (left right : Pattern)
  /-- Matches any number of texts of the pattern, one after the other. -/
  | star (each : Pattern)

namespace Pattern

/-- One given character. -/
def char (c : Char) : Pattern :=
  one (· == c)

/-- One of the given characters. -/
def oneOf (cs : List Char) : Pattern :=
  one fun c => cs.contains c

/-- All patterns in turn. -/
def chain (ps : List Pattern) : Pattern :=
  ps.foldr seq empty

/-- Any of the patterns. -/
def choice (ps : List Pattern) : Pattern :=
  ps.foldr alt none

/-- The pattern or nothing. -/
def optional (p : Pattern) : Pattern :=
  alt p empty

/-- The pattern at least once. -/
def plus (p : Pattern) : Pattern :=
  seq p (star p)

/-- The pattern at least once, with the second one between each two occurrences. -/
def separated (p separator : Pattern) : Pattern :=
  seq p (star (seq separator p))

/-- Whether the empty text matches. -/
def nullable : Pattern → Bool
  | none => false
  | empty => true
  | one _ => false
  | seq p q => p.nullable && q.nullable
  | alt p q => p.nullable || q.nullable
  | star _ => true

/-- The sequence of two patterns, without parts that match nothing or only the empty text. -/
def joined : Pattern → Pattern → Pattern
  | none, _ => none
  | empty, q => q
  | p, q => seq p q

/-- The choice of two patterns, without parts that match nothing. -/
def merged : Pattern → Pattern → Pattern
  | none, q => q
  | p, none => p
  | p, q => alt p q

/-- What may follow `c` in a text that matches. -/
def after (c : Char) : Pattern → Pattern
  | none => none
  | empty => none
  | one accepts => if accepts c then empty else none
  | seq p q =>
    if p.nullable then merged (joined (p.after c) q) (q.after c) else joined (p.after c) q
  | alt p q => merged (p.after c) (q.after c)
  | star p => joined (p.after c) (star p)

/-- Whether the pattern is the one that matches nothing. -/
def isNone : Pattern → Bool
  | none => true
  | _ => false

/-- The length of the longest part from the start that matches, when `length` characters were
read and `best` is the longest match among them. -/
def longestFrom (p : Pattern) (length : Nat) (best : Option Nat) : List Char → Option Nat
  | [] => if p.nullable then some length else best
  | c :: cs =>
    let best := if p.nullable then some length else best
    let next := p.after c
    if next.isNone then best else longestFrom next (length + 1) best cs

/-- The number of characters of the longest part from the start that matches. -/
def longest? (p : Pattern) (cs : List Char) : Option Nat :=
  p.longestFrom 0 Option.none cs

end Pattern

end ViewBinding.Text
