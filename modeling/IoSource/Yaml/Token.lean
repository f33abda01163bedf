import IoSource.Yaml.Spot

/-!
# Tokens of YAML

The blocks that indentation opens and closes have tokens of their own, so that what is made of
tokens needs no columns any more. What goes wrong in a document is the last of its tokens: whoever
does not get that far does not notice it.
-/

namespace IoSource.Yaml

inductive Directive
  | version (major : Nat)
  /-- A short form for the start of tags. -/
  | handle (name start : Text)
  | other
  deriving DecidableEq, Repr

inductive Token
  | directive (d : Directive)
  | documentStart
  | documentEnd
  | blockList
  | blockMapping
  | blockEnd
  | openList
  | closeList
  | openMapping
  | closeMapping
  | comma
  /-- The dash of an item. -/
  | item
  | key
  | value
  | anchor (name : Text)
  /-- An alias: the name of an anchor that is meant. -/
  | reference (name : Text)
  /-- A tag as it is written: the rest of one that starts with a handle, or a whole one. -/
  | tag (handle? : Option Text) (rest : Text)
  | scalar (text : WideText) (plain : Bool)
  | streamEnd
  /-- The place where reading fails. -/
  | fault (cause : Error)
  deriving DecidableEq, Repr

end IoSource.Yaml
