import Concordance.Rendered.Codec

/-! # Variants of rendered pages

A page in another language is published as the changes that make it out of the
page in the primary language.
-/

namespace Concordance.Rendered

/-- Why a patch makes no page out of a page. -/
inductive VariantFlaw where
  /-- A change cannot be made. -/
  | patch (failure : PatchFailure)
  /-- What the changes make is no page. -/
  | notPage
  deriving Repr, DecidableEq

namespace Page

/-- A page as a value that patches apply to. -/
def value (p : Page) : Json := p.json.canonical

def delta (base variant : Page) : Patch := Patch.delta base.value variant.value

/-- The page that a patch makes. -/
def patched (p : Page) (patch : Patch) : Except VariantFlaw Page :=
  match Patch.apply p.value patch with
  | .error failure => .error (.patch failure)
  | .ok value =>
      match ofJson? value with
      | none => .error .notPage
      | some variant => .ok variant

/-- A section with a symbol's declarations replaced by its declaration in another language. -/
def presentSection (v : Presentation) : Section → Section
  | .declarations _ => .declarations [{ languages := [v.language], text := v.declaration }]
  | .content blocks => .content blocks

/-- The page of a symbol in another language: its title and its declarations are those of that
language. -/
def present (p : Page) (v : Presentation) : Page :=
  { p with
    language := v.language
    metadata := { p.metadata with title := v.title }
    sections := p.sections.map (presentSection v) }

/-- The changes that make the page of a symbol in another language. -/
def overrideFor (p : Page) (v : Presentation) : Override where
  patch := p.delta (p.present v)
  languages := [v.language]

/-- The changes for all other languages of a symbol. -/
def overridesFor (p : Page) (variants : List Presentation) : List Override :=
  variants.map p.overrideFor

end Page

end Concordance.Rendered
