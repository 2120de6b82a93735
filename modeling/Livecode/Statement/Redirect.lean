import Livecode.Text.Search

/-!
# Redirects

Visual code names local resources by a path that starts with a *marker*. A redirect replaces the
marker by the address of the static file server that serves those resources.
-/

namespace Livecode

/-- Replaces a marker, wherever it occurs in a line, by a replacement. -/
structure Redirect where
  marker : Text
  replacement : Text
  deriving DecidableEq, Repr

namespace Redirect

/-- The local file area, served on port 3000 of this machine. -/
def localFiles : Redirect := ⟨"local/files/", "http://localhost:3000/files/"⟩

instance : Inhabited Redirect := ⟨localFiles⟩

/-- The line with every occurrence of the marker replaced; an empty marker replaces nothing. -/
def apply (r : Redirect) (line : Text) : Text := Text.replaceAll r.marker r.replacement line

end Redirect
end Livecode
