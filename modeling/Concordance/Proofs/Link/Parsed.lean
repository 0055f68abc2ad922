import Mathlib
import Concordance.Link.Written

/-! # Links that were read from a text

A link that was read is determined by its text, so that what is remembered under
the text is remembered of the link. One that names a bundle is read from the roots.
-/

namespace Concordance.WrittenLink

/-- Links that reading some text gives. -/
def Parsed (link : WrittenLink) : Prop :=
  ∃ raw, parse raw = .ok link

theorem text_ofIdentifierBody {text : String} {body : List Char} {link : WrittenLink}
    (h : ofIdentifierBody text body = .ok link) :
    link.text = text ∧ link.absolute = true := by
  simp only [ofIdentifierBody] at h
  split at h
  · cases h
  · cases h
    exact ⟨rfl, rfl⟩

theorem text_ofTopicBody {raw text : String} {body : List Char} {link : WrittenLink}
    (h : ofTopicBody raw text body = .ok link) : link.text = text ∧ link.bundle = none := by
  simp only [ofTopicBody] at h
  split at h
  · cases h
  · cases h
    exact ⟨rfl, rfl⟩

theorem text_ofPath {raw text : String} {body : List Char} {link : WrittenLink}
    (h : ofPath raw text body = .ok link) : link.text = text ∧ link.bundle = none := by
  simp only [ofPath] at h
  split at h
  · cases h
  · cases h
    exact ⟨rfl, rfl⟩

/-- The blanks around a text matter for nothing but the report of a malformed link. -/
theorem parse_eq_of_trimmed {raw other : String} {link : WrittenLink}
    (same : Text.trimChars raw.toList = Text.trimChars other.toList)
    (h : parse raw = .ok link) : parse other = .ok link := by
  simp only [parse, same] at h ⊢
  split at h
  · cases h
  · rename_i written
    rw [if_neg written]
    split at h
    · exact h
    · split at h
      · simp only [ofTopicBody] at h ⊢
        split at h
        · cases h
        · rename_i named
          rw [if_neg named]
          exact h
      · split at h
        · rename_i web
          rw [if_pos web]
          exact h
        · rename_i notWeb
          rw [if_neg notWeb]
          simp only [ofPath] at h ⊢
          split at h
          · cases h
          · rename_i named
            rw [if_neg named]
            exact h

theorem parse_facts {raw : String} {link : WrittenLink} (h : parse raw = .ok link) :
    link.text = String.ofList (Text.trimChars raw.toList) ∧
      (link.bundle.isSome = true → link.absolute = true) := by
  simp only [parse] at h
  split at h
  · cases h
  · split at h
    · obtain ⟨text, absolute⟩ := text_ofIdentifierBody h
      exact ⟨text, fun _ => absolute⟩
    · split at h
      · obtain ⟨text, none⟩ := text_ofTopicBody h
        exact ⟨text, fun some => by rw [none] at some; cases some⟩
      · split at h
        · cases h
          exact ⟨rfl, fun some => rfl⟩
        · obtain ⟨text, none⟩ := text_ofPath h
          exact ⟨text, fun some => by rw [none] at some; cases some⟩

theorem Parsed.eq_of_text {a b : WrittenLink} (ha : a.Parsed) (hb : b.Parsed)
    (same : a.text = b.text) : a = b := by
  obtain ⟨raw, readA⟩ := ha
  obtain ⟨other, readB⟩ := hb
  have trimmed : Text.trimChars raw.toList = Text.trimChars other.toList := by
    rw [(parse_facts readA).1, (parse_facts readB).1] at same
    exact String.ofList_injective same
  have again := parse_eq_of_trimmed trimmed readA
  rw [readB] at again
  exact (Except.ok.inj again).symm

theorem Parsed.absolute {link : WrittenLink} (h : link.Parsed) (bundle : link.bundle.isSome = true) :
    link.absolute = true := by
  obtain ⟨raw, read⟩ := h
  exact (parse_facts read).2 bundle

end Concordance.WrittenLink
