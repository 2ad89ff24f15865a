import Addressing.Proofs.Report.Message
import Addressing.Report.Stored

/-!
# Reports that are merged into themselves

Where reports are stored does not matter as long as none is merged into itself in place: what is
built of them then has the reasons of a report (`Built.reasons_report`), and its message is that of
the report.

A report that has reasons and is merged into itself never has room for them a second time
(`Built.tight`), so that it reads what they have left behind. None of them is added, but as many
empty ones are. The message then ends with a separator that no reason has.

* `report_add`, `report_merge`, `report_join`: the operations on what is stored are those on
  reports, the empty reasons left out. `report_mergeSelf` is the exception.
* `Built`: what can be built, with reports merged into themselves or without.
* `Tight.message_eq_nil_iff`, `Tight.begins_iff`, `Tight.ends_iff`: how the messages of all of this
  begin and end.
* `noBareSeparator_iff`: what has a separator at an end of its message only where a reason has it.
-/

namespace Addressing.Report.Stored

variable {own : Prop} {s t : Stored}

/-! ## Reports -/

/-- The report of the reasons that are stored, the empty ones left out. -/
def report (s : Stored) : Report := Report.empty.addAll s.reasons

theorem reasons_report (s : Stored) : s.report.reasons = s.reasons.filter (· ≠ []) := by
  rw [report, reasons_addAll, Report.reasons_empty, List.nil_append]

/-- A reason is added to the report. -/
theorem report_add (s : Stored) (r : Text) : (s.add r).report = s.report.add r := by
  apply ext_reasons
  rw [reasons_report, reasons_add, Report.reasons_add, reasons_report, List.filter_append,
    List.filter_filter]
  simp only [Bool.and_self]

/-- Another report is merged into the report. -/
theorem report_merge (s t : Stored) : (s.merge t).report = s.report.merge t.report := by
  apply ext_reasons
  rw [reasons_report, reasons_merge, Report.reasons_merge, reasons_report, reasons_report,
    List.filter_append]

/-- The reports are joined. -/
theorem report_join (ss : List Stored) : (join ss).report = Report.join (ss.map report) := by
  apply ext_reasons
  rw [reasons_report, reasons_join, Report.reasons_join, List.flatMap_map, List.filter_flatMap]
  exact List.flatMap_congr fun s _ => (reasons_report s).symm

/-- Without room for the reasons a second time, none of them is added to the report. -/
theorem report_mergeSelf (h : s.room < s.reasons.length + s.reasons.length) :
    s.mergeSelf.report = s.report := by
  apply ext_reasons
  rw [reasons_report, reasons_report, reasons_mergeSelf_of_lt h, List.filter_append,
    List.filter_map]
  simp [Function.comp_def]

/-! ## What can be built -/

/-- What can be built from nothing. Whether reports may be merged into themselves on the way is told
    by `own`. -/
inductive Built (own : Prop) : Stored → Prop
  | empty : Built own .empty
  | copy {s : Stored} : Built own s → Built own s.copy
  | add {s : Stored} (r : Text) : Built own s → Built own (s.add r)
  | merge {s t : Stored} : Built own s → Built own t → Built own (s.merge t)
  | mergeSelf {s : Stored} : own → Built own s → Built own s.mergeSelf
  | join {ss : List Stored} : (∀ s ∈ ss, Built own s) → Built own (.join ss)

/-- Without merging anything into itself, what is built is a report and has no empty reasons. -/
theorem Built.reasons_report (h : Built own s) (hown : ¬ own) : s.report.reasons = s.reasons := by
  induction h with
  | empty => rfl
  | copy _ ih => exact ih
  | add r _ ih => rw [report_add, Report.reasons_add, ih, reasons_add]
  | merge _ _ ihs iht => rw [report_merge, Report.reasons_merge, ihs, iht, reasons_merge]
  | mergeSelf h => exact absurd h hown
  | join _ ih =>
    rw [report_join, Report.reasons_join, List.flatMap_map, reasons_join]
    exact List.flatMap_congr ih

/-- What is built in any way has a first reason that is not empty, if it has reasons, and no room
    for all of them a second time. -/
structure Tight (s : Stored) : Prop where
  head_ne_nil : ∀ h : s.reasons ≠ [], s.reasons.head h ≠ []
  room_lt : s.room = 0 ∨ s.room < s.reasons.length + s.reasons.length

namespace Tight

theorem empty : Tight .empty := ⟨fun h => absurd rfl h, .inl rfl⟩

/-- Reasons can be put at the end, if those that are put behind no others begin with one that is not
    empty. -/
theorem extend (h : Tight s) {rs : List Text}
    (hrs : s.reasons = [] → ∀ hne : rs ≠ [], rs.head hne ≠ []) : Tight (s.extend rs) where
  head_ne_nil hne := by
    by_cases hs : s.reasons = []
    · simpa [Stored.extend, hs] using hrs hs (by simpa [Stored.extend, hs] using hne)
    · simpa [Stored.extend, List.head_append_of_ne_nil hs] using h.head_ne_nil hs
  room_lt := by
    -- More room is made only where it is needed, and then for twice the reasons that there were.
    have hroom := h.room_lt
    have hlen := s.length_le
    simp only [Stored.extend, List.length_append]
    split <;> omega

theorem copy (h : Tight s) : Tight s.copy where
  head_ne_nil := h.head_ne_nil
  room_lt := by
    simp only [Stored.copy]
    omega

theorem add (h : Tight s) (r : Text) : Tight (s.add r) := by
  unfold Stored.add
  split
  · exact h
  · next hr => exact h.extend fun _ _ => hr

theorem merge (h : Tight s) (ht : Tight t) : Tight (s.merge t) := h.extend fun _ => ht.head_ne_nil

/-- Whatever a report reads where its own reasons are, it is put behind these. -/
theorem mergeSelf (h : Tight s) : Tight s.mergeSelf := by
  refine h.extend fun hs hne => absurd ?_ hne
  simp [ownReasons, hs]

theorem join {ss : List Stored} (h : ∀ s ∈ ss, Tight s) : Tight (.join ss) :=
  List.foldlRecOn ss Stored.merge empty fun _ hs t ht => hs.merge (h t ht)

end Tight

/-- All that can be built is tight. -/
theorem Built.tight (h : Built own s) : Tight s := by
  induction h with
  | empty => exact .empty
  | copy _ ih => exact ih.copy
  | add r _ ih => exact ih.add r
  | merge _ _ ihs iht => exact ihs.merge iht
  | mergeSelf _ _ ih => exact ih.mergeSelf
  | join _ ih => exact .join ih

/-! ## The ends of a message -/

namespace Tight

/-- The empty message says that nothing is wrong. -/
theorem message_eq_nil_iff (h : Tight s) : s.message = [] ↔ s.reasons = [] :=
  Text.join_eq_nil_iff h.head_ne_nil

/-- A message begins with the separator exactly if the first reason does. -/
theorem begins_iff (h : Tight s) (hne : s.reasons ≠ []) :
    separator <+: s.message ↔ separator <+: s.reasons.head hne :=
  unbordered_separator.prefix_join_iff hne (h.head_ne_nil hne)

/-- A message ends with the separator exactly if the last reason does or is empty. -/
theorem ends_iff (h : Tight s) (hne : s.reasons ≠ []) :
    separator <:+ s.message ↔
      separator <:+ s.reasons.getLast hne ∨ s.reasons.getLast hne = [] := by
  by_cases hlast : s.reasons.getLast hne = []
  · refine iff_of_true ?_ (.inr hlast)
    -- The first reason is not empty, and so the last one has a separator ahead of it.
    obtain ⟨rs, r, hrs⟩ := (List.eq_nil_or_concat' s.reasons).resolve_left hne
    have hhead := h.head_ne_nil hne
    simp only [hrs, List.getLast_concat] at hlast hhead
    subst hlast
    rw [message, hrs]
    refine Text.suffix_join_concat_nil ?_
    rintro rfl
    exact hhead rfl
  · rw [message, unbordered_separator.suffix_join_iff hne hlast, or_iff_left hlast]

end Tight

/-- The message is empty exactly if there are no reasons, and begins and ends with a comma and a
    space exactly if the first and the last reason do. -/
structure NoBareSeparator (s : Stored) : Prop where
  empty : s.message = [] ↔ s.reasons = []
  begins : ∀ h : s.reasons ≠ [],
    Text.ofString ", " <+: s.message ↔ Text.ofString ", " <+: s.reasons.head h
  ends : ∀ h : s.reasons ≠ [],
    Text.ofString ", " <:+ s.message ↔ Text.ofString ", " <:+ s.reasons.getLast h

/-- No separator is bare exactly if the last reason is not empty. -/
theorem Tight.noBareSeparator_iff_getLast (h : Tight s) :
    s.NoBareSeparator ↔ ∀ hne : s.reasons ≠ [], s.reasons.getLast hne ≠ [] := by
  constructor
  · intro hbare hne hlast
    have hends := (hbare.ends hne).1 ((h.ends_iff hne).2 (.inr hlast))
    rw [hlast, List.suffix_nil] at hends
    exact unbordered_separator.1 hends
  · intro hlast
    exact ⟨h.message_eq_nil_iff, h.begins_iff, fun hne =>
      (h.ends_iff hne).trans (or_iff_left (hlast hne))⟩

/-- What is merged into itself ends with an empty reason, if it has reasons. -/
theorem Tight.getLast_mergeSelf (h : Tight s) (hs : s.reasons ≠ []) :
    ∃ hne, s.mergeSelf.reasons.getLast hne = [] := by
  have hpos : 0 < s.reasons.length := List.length_pos_iff.2 hs
  have hroom : s.room < s.reasons.length + s.reasons.length := by
    have := h.room_lt
    omega
  rw [reasons_mergeSelf_of_lt hroom]
  exact ⟨List.append_ne_nil_of_left_ne_nil hs _, by
    rw [List.getLast_append_of_ne_nil _ (mt List.map_eq_nil_iff.1 hs), List.getLast_map]⟩

/-- The last reason of what is built without merging a report into itself is not empty. -/
theorem Built.getLast_ne_nil (h : Built own s) (hown : ¬ own) (hne : s.reasons ≠ []) :
    s.reasons.getLast hne ≠ [] := by
  refine s.report.ne_nil _ ?_
  rw [h.reasons_report hown]
  exact List.getLast_mem hne

/-- No separator is bare in what is built exactly if the last reason is not empty. It never is if no
    report may be merged into itself on the way; if one may, it is as soon as that is done with a
    report that has reasons. -/
theorem noBareSeparator_iff (h : Built own s) :
    (s.NoBareSeparator ↔ ∀ hne : s.reasons ≠ [], s.reasons.getLast hne ≠ []) ∧
    (¬ own → s.NoBareSeparator) ∧
    (own → s.reasons ≠ [] → Built own s.mergeSelf ∧ ¬ s.mergeSelf.NoBareSeparator) := by
  have hiff := h.tight.noBareSeparator_iff_getLast
  refine ⟨hiff, fun hown => hiff.2 (h.getLast_ne_nil hown), fun hown hs => ?_⟩
  have hself : Built own s.mergeSelf := .mergeSelf hown h
  obtain ⟨hne, hlast⟩ := h.tight.getLast_mergeSelf hs
  exact ⟨hself, fun hbare => hself.tight.noBareSeparator_iff_getLast.1 hbare hne hlast⟩

/-- Two reports merged, one with a comma at its end and one with a space at its beginning. -/
theorem noBareSeparator_iff_comma_space :
    let s := (ofReason (Text.ofString "a,")).merge (ofReason (Text.ofString " b"))
    Built False s ∧ Built True s ∧ s.reasons ≠ [] ∧
      (s.NoBareSeparator ↔ ∀ hne : s.reasons ≠ [], s.reasons.getLast hne ≠ []) ∧
      s.NoBareSeparator ∧ Built True s.mergeSelf ∧ ¬ s.mergeSelf.NoBareSeparator := by
  intro s
  have hs : ∀ own, Built own s := fun _ => .merge (.add _ .empty) (.add _ .empty)
  have hne : s.reasons ≠ [] := by decide
  obtain ⟨hiff, hother, _⟩ := noBareSeparator_iff (hs False)
  obtain ⟨_, _, hself⟩ := noBareSeparator_iff (hs True)
  exact ⟨hs False, hs True, hne, hiff, hother id, hself trivial hne⟩

/-- The report of the reason `a`, merged into itself. -/
theorem bare_separator_mergeSelf :
    let s := (ofReason (Text.ofString "a")).mergeSelf
    Built True s ∧ s.reasons = [Text.ofString "a", []] ∧ s.message = Text.ofString "a, " ∧
      ¬ s.NoBareSeparator := by
  intro s
  have hs : Built True s := .mergeSelf trivial (.add _ .empty)
  refine ⟨hs, by decide, by decide, fun hbare => ?_⟩
  exact hs.tight.noBareSeparator_iff_getLast.1 hbare (by decide) (by decide)

/-! ## The pieces of a message -/

/-- The pieces of a message are those of its reasons, the empty ones included. -/
theorem pieces_message_of_ne_nil (h : s.reasons ≠ []) :
    Text.pieces separator s.message = s.reasons.flatMap (Text.pieces separator) :=
  Text.pieces_join unbordered_separator h

/-- Reasons without a separator in them can be read back from the message of all that can be
    built. -/
theorem Tight.reasons_eq_of_message_eq (hs : Tight s) (ht : Tight t)
    (hfree : ∀ r ∈ s.reasons, ¬ separator <:+: r) (hfree' : ∀ r ∈ t.reasons, ¬ separator <:+: r)
    (h : s.message = t.message) : s.reasons = t.reasons := by
  have hnil : s.reasons = [] ↔ t.reasons = [] := by
    rw [← hs.message_eq_nil_iff, h, ht.message_eq_nil_iff]
  exact Text.eq_of_join_eq unbordered_separator hnil hfree hfree' h

end Addressing.Report.Stored
