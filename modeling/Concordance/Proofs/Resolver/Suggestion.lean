import Mathlib
import Concordance.Proofs.Atlas.Indexes
import Concordance.Proofs.Resolver.Session
import Concordance.Proofs.Text.Distance
import Concordance.Proofs.Text.Pieces

/-! # Suggestions

A link that fits nothing, or whose way through pages that forward ends at such a link, is reported
with the nearest of the known paths. Of each path as many of the last pieces are offered as the link
has components. These are the names on the way to a page, unless there is a slash in one of them.
-/

namespace Concordance

/-- The failure says that there is nothing on a path. -/
def Failure.IsAbsence (failure : Failure) : Prop :=
  failure.kind = .unresolved ∧ ∃ path : String, failure.message = s!"`{path}` doesn't exist"

namespace Resolver

variable {r : Resolver} {link last : WrittenLink} {referrer : Option Address} {m : Memory}
  {outcome : Resolution} {failure : Failure}

/-- A link's way ends at a link, itself or the last that a page forwards to, which fits nothing and
which no bundle claims. -/
inductive Unmatched (r : Resolver) : WrittenLink → Option Address → WrittenLink → Prop where
  | here {link : WrittenLink} {referrer : Option Address} (page : link.isUrl = false)
      (absent : r.lookupLocally link referrer = .notFound) (unclaimed : r.claimant? link = none) :
      Unmatched r link referrer link
  | forwards {link target last : WrittenLink} {referrer : Option Address} {page : Page}
      (stub : r.stub? link referrer = some (page, target))
      (rest : Unmatched r target (some page.address) last) : Unmatched r link referrer last

theorem Unmatched.leads (unmatched : r.Unmatched link referrer last) :
    r.Leads link referrer (.error (r.notFound last)) := by
  induction unmatched with
  | @here link referrer page absent unclaimed =>
      have ends : r.stub? link referrer = none := by simp [stub?, page, absent]
      have failed : r.direct link referrer = .error (r.notFound link) := by
        simp [direct, page, absent, unclaimed]
      exact failed ▸ .ends ends
  | forwards stub _ ih => exact .forwards stub ih

section Reports

theorem getLast?_of_absence (absent : failure.IsAbsence) :
    failure.message.toList.getLast? = some 't' := by
  obtain ⟨_, path, message⟩ := absent
  rw [message, String.toList_append, List.getLast?_append]
  rfl

theorem notFound_report (r : Resolver) (link : WrittenLink) :
    (r.notFound link).link = link.text ∧
      (r.notFound link).message = s!"`{link.displayPath}` doesn't exist" := by
  rw [notFound]
  split <;> exact ⟨rfl, rfl⟩

theorem notFound_absence (r : Resolver) (link : WrittenLink) : (r.notFound link).IsAbsence :=
  ⟨r.notFound_kind link, link.displayPath, (r.notFound_report link).2⟩

theorem withFragment_not_absence {target : Address}
    (failed : r.withFragment link target = .error failure) : ¬ failure.IsAbsence := by
  intro absent
  have ends := getLast?_of_absence absent
  simp only [withFragment] at failed
  split at failed
  · cases failed
  · split_ifs at failed
    cases failed
    rw [Failure.unresolved, String.toList_append, List.getLast?_append] at ends
    cases ends

theorem urlFailure_not_absence (link : WrittenLink) : ¬ (urlFailure link).IsAbsence := by
  intro absent
  have ends := getLast?_of_absence absent
  rw [urlFailure, Failure.unresolved, String.toList_append, List.getLast?_append] at ends
  cases ends

theorem answer_not_absence (e : External) (failed : e.answer link = .error failure) :
    ¬ failure.IsAbsence := by
  intro absent
  rw [External.answer] at failed
  split at failed
  · cases failed
  · cases failed
    cases absent.1

/-- A link is reported to be absent only where its way ends at one that fits nothing. -/
theorem Leads.unmatched
    (answers : ∀ responder ∈ r.responders, ∀ link failure,
      responder.answer link = .error failure → ¬ failure.IsAbsence)
    (leads : r.Leads link referrer outcome) (failed : outcome = .error failure)
    (absent : failure.IsAbsence) : ∃ last, r.Unmatched link referrer last := by
  -- Whatever else a way can end at is told from this by its kind or the end of its message.
  induction leads with
  | @ends link referrer last =>
      rw [direct] at failed
      split at failed
      · cases failed
        exact absurd absent (urlFailure_not_absence link)
      · rename_i notUrl
        split at failed
        · exact absurd absent (withFragment_not_absence failed)
        · cases failed
          cases absent.1
        · rename_i nothing
          split at failed
          · rename_i responder place claimed
            exact absurd absent (answers responder (claimant?_mem claimed) link _ failed)
          · rename_i unclaimed
            exact ⟨link, .here (by simpa using notUrl) nothing unclaimed⟩
  | @forwards link target referrer page outcome stub rest ih =>
      cases outcome with
      | ok address => exact absurd absent (withFragment_not_absence failed)
      | error =>
          obtain ⟨last, unmatched⟩ := ih failed
          exact ⟨last, .forwards stub unmatched⟩

end Reports

/-- What is offered of a path is made of the names on the way to the page if no slash stands in the
last of them, or if there are no more pieces than the link has components. -/
theorem tail_humanText (depth : Nat) (page : Page) :
    tail depth page.humanText = "/".intercalate (page.humanPath.rtake depth) ↔
      (∀ name ∈ page.humanPath.rtake depth, '/' ∉ name.toList) ∨
        (Text.pieces '/' page.humanText).length ≤ depth := by
  have whole : page.humanText.toList = ['/'].intercalate (page.humanPath.map String.toList) := by
    rw [Page.humanText, String.toList_intercalate]
    rfl
  have offered : (tail depth page.humanText).toList =
      ['/'].intercalate
        (((['/'].intercalate (page.humanPath.map String.toList)).splitOn '/').rtake depth) := by
    rw [tail, String.toList_intercalate, Text.pieces, whole, List.length_map, ← List.map_drop,
      List.map_map]
    simp [List.rtake, Function.comp_def]
  have names : ("/".intercalate (page.humanPath.rtake depth)).toList =
      ['/'].intercalate ((page.humanPath.map String.toList).rtake depth) := by
    rw [String.toList_intercalate, List.rtake, List.rtake, List.map_drop, List.length_map]
    rfl
  rw [← String.toList_inj, offered, names, Text.intercalate_rtake_splitOn, Text.pieces, whole,
    List.length_map]
  simp [List.rtake, ← List.map_drop]

/-- The texts that are offered for a link of so many components. -/
def offers (r : Resolver) (depth : Nat) : Set String :=
  {text | ∃ page ∈ r.atlas.pageList, tail depth page.humanText = text}

theorem notFound_suggestion (made : r.atlas.Made)
    (unlisted : ∀ first ∈ link.components.head?, first ∉ r.unresolvable) :
    (r.notFound link).note = none ∧
      Text.Nearest link.displayPath (r.offers link.components.length)
        (r.notFound link).suggestion := by
  have unexpected : link.components.head?.filter r.unresolvable.contains = none := by
    simpa [Option.filter_eq_none_iff] using unlisted
  have offered : {text | text ∈ r.atlas.humanPaths.map (tail link.components.length)} =
      r.offers link.components.length := by
    ext text
    simp only [offers, Set.mem_ofPred_eq, List.mem_map, made.mem_humanPaths]
    constructor
    · rintro ⟨_, ⟨page, member, rfl⟩, same⟩
      exact ⟨page, member, same⟩
    · rintro ⟨page, member, same⟩
      exact ⟨_, ⟨page, member, rfl⟩, same⟩
  simp only [notFound, unexpected]
  exact ⟨rfl, offered ▸ Text.nearest_head? _ _⟩

/-- A link is reported to be absent if its way ends at one that fits nothing, and only then unless
another bundle says so. Then the report is on that link, and if it is not expected to fail its
suggestion is the nearest of the texts that are offered of the paths of pages. -/
theorem resolve_suggestion (made : r.atlas.Made) (apart : r.Apart) (reached : r.Reached m)
    (parsed : link.Parsed) (referrer : Option Address) :
    ((∀ responder ∈ r.responders, ∀ link failure,
        responder.answer link = .error failure → ¬ failure.IsAbsence) →
      ((∃ failure, (r.resolve link referrer m).1 = .error failure ∧ failure.IsAbsence) ↔
        ∃ last, r.Unmatched link (referrer.map Address.page) last)) ∧
    ∀ last, r.Unmatched link (referrer.map Address.page) last →
      ∃ failure, (r.resolve link referrer m).1 = .error failure ∧ failure.link = last.text ∧
        failure.kind = .unresolved ∧ failure.message = s!"`{last.displayPath}` doesn't exist" ∧
        ((∀ first ∈ last.components.head?, first ∉ r.unresolvable) →
          failure.note = none ∧
          Text.Nearest last.displayPath (r.offers last.components.length) failure.suggestion) ∧
        ∀ page ∈ r.atlas.pageList,
          tail last.components.length page.humanText =
              "/".intercalate (page.humanPath.rtake last.components.length) ↔
            (∀ name ∈ page.humanPath.rtake last.components.length, '/' ∉ name.toList) ∨
              (Text.pieces '/' page.humanText).length ≤ last.components.length := by
  have right := ((reached.settled made apart).meets made apart parsed referrer).right
  have reports {last : WrittenLink} (unmatched : r.Unmatched link (referrer.map Address.page) last) :
      (r.resolve link referrer m).1 = .error (r.notFound last) := by
    rcases right with leads | ⟨endless, _⟩
    · exact leads.unique unmatched.leads
    · exact absurd endless unmatched.leads.not_endless
  refine ⟨fun answers => ⟨?_, ?_⟩, ?_⟩
  · rintro ⟨failure, failed, absent⟩
    rcases right with leads | ⟨_, text, cyclic⟩
    · exact leads.unmatched answers failed absent
    · rw [cyclic] at failed
      cases failed
      cases absent.1
  · rintro ⟨last, unmatched⟩
    exact ⟨_, reports unmatched, r.notFound_absence last⟩
  · intro last unmatched
    obtain ⟨text, message⟩ := r.notFound_report last
    exact ⟨_, reports unmatched, text, r.notFound_kind last, message, notFound_suggestion made,
      fun page _ => tail_humanText _ page⟩

theorem resolve_suggestion_operator :
    let inputs : Inputs := { symbolGraphs := [⟨"MyKit.symbols.json", {
      module := "MyKit"
      symbols := [{
        language := "swift", precise := "s:D", kindName := "Operator"
        kindIdentifier := "swift.func.op", title := "/(_:_:)", path := ["/(_:_:)"] }] }⟩] }
    let r : Resolver := {
      atlas := (Atlas.build { bundle := "com.example.MyKit" } inputs).1
      responders := [External.responder { bundle := "com.example.other", modules := ["Other"] }] }
    let link : WrittenLink := ⟨false, none, ["MyKti", "/(_:_:)"], none, "MyKti//(_:_:)", .path⟩
    r.Unmatched link none link ∧
      (∃ failure, (r.resolve link none {}).1 = .error failure ∧ failure.IsAbsence) ∧
      Text.Nearest link.displayPath (r.offers 2) (some "/(_:_:)") ∧
      (∀ page ∈ r.atlas.pageList, "/".intercalate (page.humanPath.rtake 2) ≠ "/(_:_:)") ∧
      ∃ page ∈ r.atlas.pageList, "/".intercalate (page.humanPath.rtake 2) = "MyKit//(_:_:)" := by
  intro inputs r link
  have torn : (∀ page ∈ r.atlas.pageList, "/".intercalate (page.humanPath.rtake 2) ≠ "/(_:_:)") ∧
      ∃ page ∈ r.atlas.pageList, "/".intercalate (page.humanPath.rtake 2) = "MyKit//(_:_:)" := by
    decide +kernel +revert
  have absent : r.lookupLocally link none = .notFound := by decide +kernel +revert
  have unclaimed : (r.claimant? link).isNone = true := by decide +kernel +revert
  have given : (r.resolve link none {}).1 = .error {
      kind := .unresolved
      message := "`MyKti//(_:_:)` doesn't exist"
      link := "MyKti//(_:_:)"
      suggestion := some "/(_:_:)" } := by decide +kernel +revert
  have apart : r.Apart := apart_of_built rfl fun responder member => by
    rw [List.mem_singleton.mp member]
    decide
  have parsed : link.Parsed := ⟨"MyKti//(_:_:)", by decide⟩
  have unmatched : r.Unmatched link none link :=
    .here rfl absent (Option.isNone_iff_eq_none.mp unclaimed)
  have answers : ∀ responder ∈ r.responders, ∀ link failure,
      responder.answer link = .error failure → ¬ failure.IsAbsence := by
    intro responder member link failure failed
    obtain rfl := List.mem_singleton.mp member
    exact answer_not_absence { bundle := "com.example.other", modules := ["Other"] } failed
  obtain ⟨reports, suggestions⟩ := resolve_suggestion (.built _ _) apart .start parsed none
  obtain ⟨failure, failed, _, _, _, suggested, _⟩ := suggestions link unmatched
  obtain rfl := Except.error.inj (given.symm.trans failed)
  exact ⟨unmatched, (reports answers).mpr ⟨link, unmatched⟩, (suggested nofun).2, torn⟩

end Resolver

end Concordance
