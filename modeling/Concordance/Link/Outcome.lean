import Concordance.Link.Address

/-! # Outcomes of resolution

A link leads to one address, or fails for a stated reason. Failures are reports:
pages are rendered with a placeholder in the link's place.
-/

namespace Concordance

/-- Why a link leads nowhere. -/
inductive FailureKind where
  /-- Several pages fit at the same level. -/
  | ambiguous (candidates : List Address)
  /-- Resolving the link asks for the link itself. -/
  | cyclic
  /-- Another bundle, which was asked for it, does not have it. -/
  | external (bundle : String)
  /-- No page fits. -/
  | unresolved
  deriving Repr, DecidableEq

/-- A link that leads nowhere, with what a reader is told about it. -/
structure Failure where
  kind : FailureKind
  message : String
  /-- A remark on modules that are not documented here on purpose. -/
  note : Option String := none
  link : String
  /-- A known path that resembles the one written. -/
  suggestion : Option String := none
  deriving Repr, DecidableEq

namespace Failure

def unresolved (link message : String) : Failure where
  kind := .unresolved
  message := message
  link := link

/-- Several pages fit; they are listed in order. -/
def ambiguous (link : String) (candidates : List Address) : Failure :=
  let sorted := candidates.mergeSort Address.le
  { kind := .ambiguous sorted
    message := s!"`{link}` is ambiguous, candidates: "
      ++ ", ".intercalate (sorted.map Address.pathText)
    link }

def cyclic (link : String) : Failure where
  kind := .cyclic
  message := s!"cyclic resolution of `{link}`"
  link := link

end Failure

abbrev Resolution := Except Failure Address

instance Resolution.decidableEq : DecidableEq Resolution
  | .ok a, .ok b => decidable_of_iff (a = b) ⟨congrArg _, Except.ok.inj⟩
  | .error f, .error g => decidable_of_iff (f = g) ⟨congrArg _, Except.error.inj⟩
  | .ok _, .error _ => isFalse nofun
  | .error _, .ok _ => isFalse nofun

end Concordance
