import IoSource.Comment
import IoSource.Highlight.Category

/-!
# Highlighted spans

Each category matches on its own over the whole text. A character belongs to the first category, in
order of precedence, that matches it; a span is a maximal run of characters that belong to one match
of one category. A match can thus fall into several spans, where earlier categories cut it.
-/

namespace IoSource

def isWordChar (c : Char) : Bool := c.isAlphanum || c = '_'

namespace Category

/-- The longest of the literals that start a text. -/
def longestLiteral (literals : List Text) : Pattern := fun _ rest =>
  ((literals.filter (·.isPrefixOf rest)).map List.length).max?

/-- A whole identifier that is one of the words. -/
def wholeWord (words : List Text) : Pattern := fun before rest =>
  if before.any isWordChar then none
  else
    let word := rest.takeWhile isWordChar
    if words.contains word then some word.length else none

def literals (category : Category) : List Text := category.words.map String.toList

def pattern : Category → Pattern
  | comment => Comment.pattern
  | operator => longestLiteral operator.literals
  | category => wholeWord category.literals

/-- The first category that covers a whole text: by its grammar for comments, by its list for the
others. -/
def ofWord? (word : Text) : Option Category :=
  all.find? fun
    | comment => Comment.isWhole word
    | category => category.literals.contains word

end Category

/-- A category and the place inside its match: what owns a character of a highlighted text. -/
abbrev Claim := Category × Nat

/-- For each character the first of the categories that matches it. -/
def claims (t : Text) : List Category → List (Option Claim)
  | [] => t.map fun _ => none
  | category :: categories =>
    (category.pattern.marks t).zipWith (fun mark later => (mark.map (category, ·)).or later)
      (claims t categories)

/-- A region of a text and its category; `stop` is the offset behind the last character. -/
structure Span where
  start : Nat
  stop : Nat
  text : Text
  category : Category
  deriving DecidableEq, Repr

namespace Span

/-- Whether a character owned by `next` goes on with the match of the one before it. -/
def continues (claim : Claim) : (next : Option Claim) → Bool
  | some next => next = (claim.1, claim.2 + 1)
  | none => false

/-- The spans of owned characters, the first of which stands at the offset `start`. -/
def collect : (start : Nat) → List (Char × Option Claim) → List Span
  | _, [] => []
  | start, (_, none) :: rest => collect (start + 1) rest
  | start, (c, some claim) :: rest =>
    match continues claim (rest.head?.bind Prod.snd), collect (start + 1) rest with
    | true, span :: spans => { span with start, text := c :: span.text } :: spans
    | _, spans => ⟨start, start + 1, [c], claim.1⟩ :: spans

end Span

/-- The spans of a text in the order of their offsets. -/
def highlight (t : Text) : List Span := Span.collect 0 (t.zip (claims t Category.all))

end IoSource
