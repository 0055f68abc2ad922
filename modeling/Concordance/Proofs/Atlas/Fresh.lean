import Mathlib
import Concordance.Atlas.Build
import Concordance.Proofs.Atlas.Gathered
import Concordance.Proofs.Atlas.Insert

/-! # Symbols that have no page yet

Symbols are placed one after the other, and none of those left to be placed has a page
under its unique identifier. Inserting the page of one leaves this so for the others,
and editing pages never changes which symbols have one.
-/

namespace Concordance

def Page.precise? (p : Page) : Option String := p.content.symbol?.map SymbolContent.precise

theorem Content.symbol?_eq_some {content : Content} {s : SymbolContent} :
    content.symbol? = some s ↔ content = .symbol s := by
  cases content <;> simp [symbol?]

/-- Editing that leaves the unique identifier of a symbol as it is. -/
def Atlas.PreciseEdit (f : Content → Content) : Prop :=
  ∀ content : Content,
    (f content).symbol?.map SymbolContent.precise = content.symbol?.map SymbolContent.precise

theorem Atlas.addRelation_preciseEdit (relation : Relation) :
    PreciseEdit (AtlasBuild.addRelation relation) := by
  intro content
  cases content <;> rfl

theorem Atlas.addDocs_preciseEdit (docs : Markup) : PreciseEdit (AtlasBuild.addDocs docs) := by
  intro content
  cases content <;> rfl

namespace Atlas

variable {a b : Atlas} {p : Page} {precise : String}

/-- Whether the symbol of a unique identifier has its page. -/
def Describes (a : Atlas) (precise : String) : Prop :=
  ∃ address page, a.pages.get? address = some page ∧ page.kind = .symbol ∧
    page.precise? = some precise

theorem not_describes_empty (bundle : String) : ¬ Describes { bundle } precise := by
  rintro ⟨address, page, found, _⟩
  cases found

theorem describes_insert? (inserted : a.insert? p = some b) :
    b.Describes precise ↔ a.Describes precise ∨ p.kind = .symbol ∧ p.precise? = some precise := by
  constructor
  · rintro ⟨address, page, found, kind, same⟩
    rcases (get?_insert?_iff inserted).mp found with ⟨_, rfl⟩ | before
    · exact .inr ⟨kind, same⟩
    · exact .inl ⟨address, page, before, kind, same⟩
  · rintro (⟨address, page, before, kind, same⟩ | ⟨kind, same⟩)
    · exact ⟨address, page, (get?_insert?_iff inserted).mpr (.inr before), kind, same⟩
    · exact ⟨p.address, p, (get?_insert?_iff inserted).mpr (.inl ⟨rfl, rfl⟩), kind, same⟩

theorem describes_editContent {f : Content → Content} (kept : PreciseEdit f) {address : Address}
    (described : (a.editContent address f).Describes precise) : a.Describes precise := by
  obtain ⟨k, page, found, kind, same⟩ := described
  obtain ⟨before, present, rfl | rfl⟩ := page_editContent found
  · exact ⟨k, page, present, kind, same⟩
  · exact ⟨k, before, present, kind, (kept before.content).symm.trans same⟩

/-- Symbols to be placed: each of an identifier of its own, and none of them with a page. -/
structure Fresh (a : Atlas) (symbols : List GatheredSymbol) : Prop where
  distinct : (symbols.map GatheredSymbol.precise).Nodup
  unused : ∀ s ∈ symbols, ¬ a.Describes s.precise
  plain : ∀ s ∈ symbols, s.Plain

variable {symbols rest : List GatheredSymbol} {s : GatheredSymbol}

theorem Fresh.subperm (fresh : a.Fresh symbols) (fewer : rest.Subperm symbols) : a.Fresh rest where
  distinct := by
    obtain ⟨l, same, sub⟩ := fewer
    exact (same.map _).nodup_iff.mp (fresh.distinct.sublist (sub.map _))
  unused s member := fresh.unused s (fewer.subset member)
  plain s member := fresh.plain s (fewer.subset member)

theorem Fresh.insert (fresh : a.Fresh (s :: rest)) {parent : Address} {component : String}
    (inserted : a.insert? (AtlasBuild.symbolPage parent component s) = some b) : b.Fresh rest where
  distinct := (List.nodup_cons.mp fresh.distinct).2
  unused t member described := by
    rcases (describes_insert? inserted).mp described with before | ⟨_, same⟩
    · exact fresh.unused t (List.mem_cons_of_mem _ member) before
    · have twin : s.precise = t.precise := Option.some.inj same
      have once := (List.nodup_cons.mp fresh.distinct).1
      exact once (twin ▸ List.mem_map_of_mem member)
  plain t member := fresh.plain t (List.mem_cons_of_mem _ member)

theorem fresh_inOrder {g : Gathering} (sound : g.Sound) (early : ∀ precise, ¬ a.Describes precise) :
    a.Fresh g.inOrder where
  distinct := sound.nodup
  unused s _ := early s.precise
  plain _ member := sound.plain member

end Atlas

end Concordance
