import LineShell.Text.NameSet

/-!
# What completion may enumerate

The names known to the shell at the moment of one completion request.  They are looked at and
never written back.
-/

namespace LineShell

/-- The marker before the name of a function where it is kept among the variables. -/
def functionMarker : String := "fn-"

/-- The names that completion may offer. -/
structure Snapshot where
  /-- The variables, functions under their marked names among them. -/
  globals : NameSet
  externals : NameSet
  specials : NameSet

end LineShell
