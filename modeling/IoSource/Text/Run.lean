import IoSource.Text.Basic

/-!
# Replacing runs

A run is a maximal block of characters of one class. `replaceRuns` replaces every run on its own,
knowing the character before it and the text after it, and keeps everything else.
-/

namespace IoSource.Text

/-- Replace each run of `p` by `f before run after`; `before` is the character just passed. -/
def replaceRuns (p : Char → Bool) (f : Option Char → Text → Text → Text) :
    (before : Option Char) → Text → Text
  | _, [] => []
  | before, c :: rest =>
    if p c then
      if before.any p then replaceRuns p f (some c) rest
      else f before (c :: rest.takeWhile p) (rest.dropWhile p) ++ replaceRuns p f (some c) rest
    else c :: replaceRuns p f (some c) rest

end IoSource.Text
