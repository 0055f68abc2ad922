import Mathlib
import Concordance.Proofs.Renderer.Mentions

/-! # Pages are self-contained

Whatever was rendered before with a store, what is stored are pages under their own
identifiers. So a page that is rendered with the store holds a reference for everything
that it mentions.
-/

namespace Concordance.Renderer

open Rendered (References)

variable {r : Renderer} {page : Page} {content : Content} {store : References}

/-- What rendering leaves in the store, whatever pages are rendered, and with whatever renderers. -/
inductive Reached : References → Prop
  | empty : Reached []
  | render (r : Renderer) (page : Page) (content : Content) {store : References} :
      Reached store → Reached (r.render page content store).2

theorem Draft.Sound.start {S : Rendered.Lead → String → Prop}
    (shown : ∀ entry ∈ store, Shown entry) : Draft.Sound S store { store } where
  shown := shown
  grown _ := id
  stored _ := .inl
  own _ member := by cases member
  plain _ member := by cases member
  leads _ member := by cases member

variable (r page content) in
theorem render_accounts (S : Rendered.Lead → String → Prop)
    (shown : ∀ entry ∈ store, Shown entry)
    (admitted : ∀ lead ∈ r.leads store page content, S lead.1 lead.2) :
    ∃ d, Draft.Sound S store d ∧ d.store = (r.render page content store).2 ∧
      d.used = (r.render page content store).1.references ∧
      r.Accounts S store page content (r.render page content store).1 d := by
  obtain ⟨sound, _, made⟩ := page_yields admitted _ (.start shown)
  obtain ⟨backed, tells, lists⟩ := made _ (le_refl _)
  exact ⟨_, sound, rfl, rfl, backed, tells, lists⟩

theorem Reached.shown (reached : Reached store) : ∀ entry ∈ store, Shown entry := by
  induction reached with
  | empty => exact List.forall_mem_nil _
  | render r page content _ ih =>
      obtain ⟨d, sound, same, _⟩ :=
        render_accounts r page content (fun _ _ => True) ih fun _ _ => trivial
      exact same ▸ sound.shown

/-- A page holds a reference for every identifier that it mentions, under this identifier, whatever
it holds, whatever is known of other bundles and whatever was rendered before. -/
theorem render_selfContained (reached : Reached store) :
    (r.render page content store).1.SelfContained := by
  obtain ⟨d, sound, _, same, accounts⟩ :=
    render_accounts r page content (fun _ _ => True) reached.shown fun _ _ => trivial
  refine ⟨fun m member => ?_, fun entry member m inside => ?_, fun entry member => ?_⟩
  · exact same ▸ (accounts.backed m member).used
  · rw [sound.plain entry (same ▸ member)] at inside
    cases inside
  · exact sound.own entry (same ▸ member)

/-- An article that is rendered a second time, without the other bundle that knew its target. -/
theorem render_selfContained_again :
    let other : Informant := {
      bundle := "com.example.other"
      entity? := fun address => some {
        kind := "symbol", reference := address, title := "Thing", url := "/thing" } }
    let thing : Link :=
      { destination := .resolved ⟨"com.example.other", ["Other", "Thing"], some "usage"⟩ }
    let gone : Link := { destination := .failed (.unresolved "Gone" "There is no such page.") }
    let site : Link := { destination := .url "https://swift.org" }
    let page : Page := {
      address := ⟨"com.example.kit", ["Kit", "Start"], none⟩, kind := .article, name := "Start"
      humanPath := ["Kit", "Start"], parent := none, content := .article "Start" {} }
    let content : Content := .article "Start" {
      summary := [.link gone]
      discussion := [.list false [[.link thing], [.link site]]]
      seeAlso := [⟨"More", [thing, gone]⟩] }
    let first : Renderer :=
      { atlas := { bundle := "com.example.kit" }, externals := [other], language := "swift" }
    let second : Renderer := { first with externals := [] }
    let store := (first.render page content []).2
    store.keys = ["doc://com.example.other/documentation/Other/Thing#usage"] ∧
      (second.render page content store).1.mentions.length = 4 ∧
      (second.render page content store).1.SelfContained := by
  intro other thing gone site page content first second store
  have facts : store.keys = ["doc://com.example.other/documentation/Other/Thing#usage"] ∧
      (second.render page content store).1.mentions.length = 4 := by decide +kernel
  exact ⟨facts.1, facts.2, render_selfContained (.render first page content .empty)⟩

end Concordance.Renderer
