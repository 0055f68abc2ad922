import Mathlib
import Concordance.Project
import Concordance.Proofs.Renderer.SelfContained

/-! # Links that lead somewhere and look dead

Pages, web addresses and the texts of links that lead nowhere share one space of identifiers,
and on each page the first reference under an identifier stays. So a page agrees with its
references at an identifier if all that can stand under it leads the same way, and does not if
a dead link in its text is written as the identifier of a page that the text links to or that
is listed.
-/

namespace Concordance

open Rendered (Lead Mention References)

namespace Renderer

variable {r : Renderer} {store : References} {page : Page} {content : Content} {id : String}

/-- Two things can stand under the identifier, and do not lead the same way. -/
def Contested (r : Renderer) (store : References) (page : Page) (content : Content)
    (id : String) : Prop :=
  ∃ one ∈ r.leads store page content, ∃ other ∈ r.leads store page content,
    one.2 = id ∧ other.2 = id ∧ one.1 ≠ other.1

/-- A link in running text leads nowhere and is written as the identifier of something that another
link in running text leads to, or of a page that is listed. -/
def Clashes (r : Renderer) (store : References) (page : Page) (content : Content)
    (id : String) : Prop :=
  (∃ l ∈ content.running, l.dead? = some id) ∧
    ((∃ l ∈ content.running, (r.leadOf store l).2 = id ∧ (r.leadOf store l).1.isLive = true) ∨
      ∃ address ∈ r.listed page content,
        address.identifier = id ∧ r.lead store address = .page)

instance : Decidable (r.Contested store page content id) :=
  inferInstanceAs (Decidable (∃ one ∈ r.leads store page content,
    ∃ other ∈ r.leads store page content, one.2 = id ∧ other.2 = id ∧ one.1 ≠ other.1))

instance : Decidable (r.Clashes store page content id) :=
  inferInstanceAs (Decidable (_ ∧ _))

theorem leadOf_dead {l : Link} (dead : l.dead? = some id) : r.leadOf store l = (.nowhere, id) := by
  obtain ⟨destination, title⟩ := l
  cases destination <;> cases dead <;> rfl

/-- A page agrees with its references where all that can stand under an identifier leads the same
way, in whatever order it is used. -/
theorem render_agreesAt (reached : Reached store)
    (uncontested : ¬ r.Contested store page content id) :
    (r.render page content store).1.AgreesAt id := by
  obtain ⟨d, sound, _, same, accounts⟩ :=
    render_accounts r page content (fun lead id => (lead, id) ∈ r.leads store page content)
      reached.shown fun _ listed => listed
  have alike {one other : Lead} (first : (one, id) ∈ r.leads store page content)
      (second : (other, id) ∈ r.leads store page content) : one = other := by
    by_contra different
    exact uncontested ⟨_, first, _, second, rfl, rfl, different⟩
  rintro m member rfl
  have backed := accounts.backed m member
  obtain ⟨reference, found⟩ := Option.isSome_iff_exists.mp backed.used
  have leads := sound.leads _ (Assoc.mem_of_get? found)
  rw [← same]
  cases m with
  | entry id => exact ⟨reference, found, alike leads backed.2⟩
  | name id => trivial
  | link id isActive =>
      obtain ⟨_, lead, there, rfl⟩ := backed
      rw [alike there leads]
      refine ⟨fun live => ⟨reference, found, live⟩, fun ⟨other, found', live⟩ => ?_⟩
      obtain rfl : reference = other := Option.some.inj (found.symm.trans found')
      exact live

theorem render_not_agreesAt (reached : Reached store)
    (clashes : r.Clashes store page content id) :
    ¬ (r.render page content store).1.AgreesAt id := by
  obtain ⟨d, sound, _, same, accounts⟩ :=
    render_accounts r page content (fun _ _ => True) reached.shown fun _ _ => trivial
  intro agrees
  obtain ⟨⟨l, inside, dead⟩, live⟩ := clashes
  obtain ⟨isActive, mentioned, _, inactive⟩ := accounts.tells l inside
  rw [leadOf_dead dead] at mentioned
  have inactive : isActive = false := inactive (by rw [dead]; rfl)
  have nothing := agrees _ mentioned rfl
  simp only [Mention.Fits, inactive, Bool.false_eq_true, false_iff] at nothing
  rcases live with ⟨l', inside', rfl, live⟩ | ⟨address, listed, rfl, page⟩
  · obtain ⟨isActive', mentioned', active, _⟩ := accounts.tells l' inside'
    exact nothing ((agrees _ mentioned' rfl).mp (active live))
  · obtain ⟨reference, found, lead⟩ := agrees _ (accounts.lists address listed page) rfl
    exact nothing ⟨reference, found, by rw [lead]; rfl⟩

end Renderer

namespace Project

variable {p : Project} {shared : Shared}

/-- What a page is rendered with, and what it holds, when its links are resolved after others. -/
def prepared (p : Project) (page : Page) (shared : Shared) : Renderer × Content :=
  let (content, progress) := p.resolver.resolveContent page.address page.content shared.memory
  (p.renderer progress.memory.inquiries, content)

/-- Two things can stand under the identifier on the page, and do not lead the same way. -/
def Contested (p : Project) (page : Page) (shared : Shared) (id : String) : Prop :=
  (p.prepared page shared).1.Contested shared.store page (p.prepared page shared).2 id

/-- A dead link on the page is written as the identifier of something that the page has a link to,
or of a page that it lists. -/
def Clashes (p : Project) (page : Page) (shared : Shared) (id : String) : Prop :=
  (p.prepared page shared).1.Clashes shared.store page (p.prepared page shared).2 id

instance (page : Page) (id : String) : Decidable (p.Contested page shared id) :=
  inferInstanceAs (Decidable (Renderer.Contested _ _ _ _ _))

instance (page : Page) (id : String) : Decidable (p.Clashes page shared id) :=
  inferInstanceAs (Decidable (Renderer.Clashes _ _ _ _ _))

/-- What is shared when a number of pages have been published. -/
def after (p : Project) (count : Nat) : Shared := (p.publishPages (p.atlas.shown.take count) {}).2

theorem publishPages_getElem? (pages : List Page) (i : Nat) :
    (p.publishPages pages shared).1[i]? = pages[i]?.map fun page =>
      (p.publishPage page (p.publishPages (pages.take i) shared).2).1 := by
  induction pages generalizing i shared with
  | nil => rfl
  | cons page rest ih =>
      cases i with
      | zero => rfl
      | succ i => exact ih i

theorem publishPages_reached {pages : List Page} (reached : Renderer.Reached shared.store) :
    Renderer.Reached (p.publishPages pages shared).2.store := by
  induction pages generalizing shared with
  | nil => exact reached
  | cons page rest ih => exact ih (.render _ _ _ reached)

/-- Every page of a publication agrees with its references, at all identifiers but those that are
contested on the page. Where a dead link clashes with a live one or with a page that is listed, it
does not agree. -/
theorem publish_agreesAt (p : Project) {i : Nat} {published : PublishedPage}
    (listed : p.publish.pages[i]? = some published) :
    ∃ page, p.atlas.shown[i]? = some page ∧
      published = (p.publishPage page (p.after i)).1.page ∧ ∀ id,
        (¬ p.Contested page (p.after i) id → published.rendered.AgreesAt id) ∧
        (p.Clashes page (p.after i) id → ¬ published.rendered.AgreesAt id) := by
  have reached : Renderer.Reached (p.after i).store := publishPages_reached .empty
  obtain ⟨result, found, rfl⟩ := Option.map_eq_some_iff.mp (List.getElem?_map.symm.trans listed)
  obtain ⟨page, there, rfl⟩ := Option.map_eq_some_iff.mp
    ((publishPages_getElem? _ i).symm.trans found)
  exact ⟨page, there, rfl, fun id =>
    ⟨Renderer.render_agreesAt reached, Renderer.render_not_agreesAt reached⟩⟩

/-- A link that is written as the identifier of an article below the page, but is read as a heading
without a name on another page. -/
theorem publish_agreesAt_hash :
    let link : WrittenLink := {
      absolute := true, bundle := some "com.example.kit", components := ["Kit", "C"]
      fragment := none, text := "doc://com.example.kit/documentation/Kit/C#", form := .topic }
    let home : Page := {
      address := ⟨"com.example.kit", ["Kit"], none⟩, kind := .module, name := "Kit"
      humanPath := ["Kit"], parent := none
      content := .article "Kit" { summary := [.link (.written link)] } }
    let article : Page := {
      address := ⟨"com.example.kit", ["Kit", "C#"], none⟩, kind := .article, name := "C#"
      humanPath := ["Kit", "C#"], parent := some home.address, content := .article "C#" {} }
    let p : Project := {
      settings := {}
      atlas := ((({ atlas := { bundle := "com.example.kit" } } : AtlasBuild).insert home).insert
        article).atlas }
    WrittenLink.parse article.address.identifier = .ok link ∧
      (∃ published, p.publish.pages[0]? = some published ∧
        ¬ published.rendered.AgreesAt article.address.identifier) ∧
      ∃ published, p.publish.pages[1]? = some published ∧
        published.rendered.AgreesAt home.address.identifier := by
  intro link home article p
  have read : WrittenLink.parse article.address.identifier = .ok link := by
    decide +kernel +revert
  have facts : (p.publish.pages.length = 2 ∧ p.atlas.shown = [home, article]) ∧
      p.Clashes home (p.after 0) article.address.identifier ∧
        ¬ p.Contested article (p.after 1) home.address.identifier := by
    decide +kernel
  obtain ⟨⟨count, shown⟩, clashes, uncontested⟩ := facts
  have first := List.getElem?_eq_getElem (l := p.publish.pages) (i := 0) (by omega)
  have second := List.getElem?_eq_getElem (l := p.publish.pages) (i := 1) (by omega)
  obtain ⟨page, there, _, agrees⟩ := publish_agreesAt p first
  obtain ⟨page', there', _, agrees'⟩ := publish_agreesAt p second
  rw [shown] at there there'
  cases there
  cases there'
  exact ⟨read, ⟨_, first, (agrees _).2 clashes⟩, ⟨_, second, (agrees' _).1 uncontested⟩⟩

end Project

end Concordance
