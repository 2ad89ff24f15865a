import Addressing.Proofs.Separator
import Addressing.Report.Basic
import Mathlib.Data.List.Basic

/-!
# Reports of reports

Reports are put together two at a time (`merge`) or many at a time (`join`), and what was put
together is a report again. A `Nesting` is a way of doing so, to any depth. Which way it is does not
matter: the outcome has the reasons of the reports at the bottom, in order
(`Nesting.value_eq_join`).

* `join_filter`: reports that say nothing do not count, wherever they stand.
* `message_join`: the message of joined reports is made of their messages as each of these is made
  of its reasons.
* `join_nesting`: cutting a list of reports into parts, merging in any order, and reports that say
  nothing, all with one outcome.
-/

namespace Addressing.Report

/-! ## Reports that say nothing -/

/-- Reports that say nothing are those that have no reasons. -/
theorem filter_map_reasons (es : List Report) :
    (es.map (·.reasons)).filter (· ≠ []) = (es.filter (!·.isEmpty)).map (·.reasons) := by
  rw [List.filter_map]
  refine congrArg (List.map _) (List.filter_congr fun e _ => ?_)
  rw [isEmpty]
  cases h : e.reasons <;> simp [h]

/-- Reports that say nothing can be left out before reports are joined. -/
theorem join_filter (es : List Report) : join (es.filter (!·.isEmpty)) = join es := by
  apply ext_reasons
  rw [reasons_join, reasons_join, List.flatMap_def, List.flatMap_def, ← filter_map_reasons,
    List.flatten_filter_ne_nil]

/-- The message of joined reports is their messages with separators between them, the empty ones
    left out. -/
theorem message_join (es : List Report) :
    (join es).message = separator.intercalate ((es.filter (!·.isEmpty)).map message) := by
  rw [message, reasons_join, List.flatMap_def, Text.join_flatten, filter_map_reasons, List.map_map]
  rfl

/-! ## Nestings -/

/-- A way of putting reports together. -/
inductive Nesting
  /-- A report as it is. -/
  | report (e : Report)
  /-- The second merged into the first. -/
  | merge (ahead behind : Nesting)
  /-- Any number of them joined. -/
  | join (parts : List Nesting)

namespace Nesting

/-- The reports that are put together, in order. -/
def reports : Nesting → List Report
  | report e => [e]
  | merge ahead behind => ahead.reports ++ behind.reports
  | join parts => parts.flatMap reports

/-- The report that they are put together into. -/
def value : Nesting → Report
  | report e => e
  | merge ahead behind => ahead.value.merge behind.value
  | join parts => Report.join (parts.map value)

/-- All reasons are kept, in order. -/
theorem reasons_value (n : Nesting) : n.value.reasons = n.reports.flatMap (·.reasons) := by
  fun_induction value n with
  | case1 e => rw [reports, List.flatMap_singleton]
  | case2 ahead behind ihahead ihbehind =>
    rw [reasons_merge, ihahead, ihbehind, reports, List.flatMap_append]
  | case3 parts ih =>
    rw [reasons_join, List.flatMap_map, reports, List.flatMap_assoc]
    exact List.flatMap_congr ih

/-- Reports that are put together in any way are as good as joined at once. -/
theorem value_eq_join (n : Nesting) : n.value = Report.join n.reports := by
  apply ext_reasons
  rw [reasons_value, reasons_join]

end Nesting

/-- Reports can be joined part by part, and what was joined be joined after that. -/
theorem join_map_join (ess : List (List Report)) : join (ess.map join) = join ess.flatten := by
  apply ext_reasons
  rw [reasons_join, reasons_join, List.flatMap_map, List.flatten_eq_flatMap, List.flatMap_assoc]
  exact List.flatMap_congr fun es _ => reasons_join es

/-- The message of joined reports is the messages of those that are not empty, with `, ` between
    them. The reports can be cut into lists in any way and these be joined first; they can be merged
    into the empty report in any order of the merges that keeps theirs; and empty ones can be put in
    or taken out anywhere: what is joined is the same. -/
theorem join_nesting (es : List Report) :
    (join es).message = (Text.ofString ", ").intercalate ((es.filter (!·.isEmpty)).map message) ∧
    (∀ ess : List (List Report), ess.flatten = es → join (ess.map join) = join es) ∧
    (∀ n : Nesting, n.reports = empty :: es → n.value = join es) ∧
    ∀ es' : List Report, es'.filter (!·.isEmpty) = es.filter (!·.isEmpty) → join es' = join es := by
  refine ⟨message_join es, fun ess h => ?_, fun n h => ?_, fun es' h => ?_⟩
  · rw [join_map_join, h]
  · rw [n.value_eq_join, h, ← join_filter, ← join_filter es]
    rfl
  · rw [← join_filter es', h, join_filter]

/-- Two reports with an empty one between them, cut, merged and with the empty one moved. -/
theorem join_nesting_two_reports :
    let a := ofReason (Text.ofString "a")
    let b := ofReason (Text.ofString "b")
    let es := [a, empty, b]
    let ess := [[a], [], [empty, b]]
    let n := Nesting.merge (.report empty) (.merge (.report a) (.join [.report empty, .report b]))
    let es' := [empty, a, b]
    (join es).message = (Text.ofString ", ").intercalate ((es.filter (!·.isEmpty)).map message) ∧
      (ess.flatten = es ∧ join (ess.map join) = join es) ∧
      (n.reports = empty :: es ∧ n.value = join es) ∧
      es'.filter (!·.isEmpty) = es.filter (!·.isEmpty) ∧ join es' = join es := by
  intro a b es ess n es'
  obtain ⟨hmessage, hcut, hmerge, hempty⟩ := join_nesting es
  have hn : n.reports = empty :: es := by simp [n, es, Nesting.reports]
  have hes' : es'.filter (!·.isEmpty) = es.filter (!·.isEmpty) := by decide
  exact ⟨hmessage, ⟨rfl, hcut ess rfl⟩, ⟨hn, hmerge n hn⟩, hes', hempty es' hes'⟩

end Addressing.Report
