/-!
# Lists with keys

A table is a list whose entries have a key. An entry that is put into it takes the place of the
one with its key, or comes last. The methods of a class by signature and the headers of a manifest
are such tables.
-/

namespace ClassInspect.Keyed

/-- Puts an entry in the place of the one with its key, or at the end. -/
def put {α κ : Type} [DecidableEq κ] (key : α → κ) (entry : α) : List α → List α
  | [] => [entry]
  | other :: others =>
    if key other = key entry then entry :: others else other :: put key entry others

end ClassInspect.Keyed
