import EntryPoints.Code.Symbol

/-!
# The method around a place

Of the methods whose location contains a place, the one that encloses it is the
narrowest; of equally narrow ones the first that is listed.
-/

namespace EntryPoints

/-- The location of a method, if it contains a place. -/
def Method.spanAround (place : Location) (m : Method) : Option Location :=
  m.location.filter (·.contains place)

/-- Keeps a method or puts a narrower one in its place. -/
def Method.narrower (place : Location) (best : Option (Method × Int)) (m : Method) :
    Option (Method × Int) :=
  match m.spanAround place with
  | none => best
  | some span =>
    match best with
    | none => some (m, span.width)
    | some (_, width) => if span.width < width then some (m, span.width) else best

def narrowestAround (place : Location) (methods : List Method) : Option Method :=
  (methods.foldl (Method.narrower place) none).map (·.1)

end EntryPoints
