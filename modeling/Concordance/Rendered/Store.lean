import Concordance.Rendered.Basic

/-! # Stores of references

What is shown of the targets of links, once for each identifier. The first
reference stored under an identifier stays.
-/

namespace Concordance.Rendered

abbrev References := Assoc String Reference

namespace References

/-- Store a reference unless its identifier has one. The reference that is stored then is given
back. -/
def insert (s : References) (reference : Reference) : Reference × References :=
  match s.get? reference.identifier with
  | some stored => (stored, s)
  | none => (reference, s.put reference.identifier reference)

/-- The reference stored under an identifier. If there is none, the given one is stored under its
own identifier. -/
def getOrInsert (s : References) (identifier : String) (reference : Option Reference) :
    Option Reference × References :=
  match s.get? identifier, reference with
  | some stored, _ => (some stored, s)
  | none, some reference =>
      let (stored, s) := s.insert reference
      (some stored, s)
  | none, none => (none, s)

end References

end Concordance.Rendered
