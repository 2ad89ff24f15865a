import Addressing.Text.Basic

/-!
# Cutting a text at a separator

A separator may be several bytes long, and its occurrences may overlap (`:::` holds `::` twice).
A cut is always made at the first occurrence.

* `Text.cut`: what stands ahead of the first occurrence, and what stands behind it.
* `eq_of_cut`: the two parts with the separator between them are the text.
-/

namespace Addressing.Text

/-- Cuts a text at the first occurrence of a separator, which neither part keeps; `none` if there
    is no occurrence. -/
def cut (separator : Text) : Text → Option (Text × Text)
  | [] => if separator = [] then some ([], []) else none
  | c :: t =>
    if separator.isPrefixOf (c :: t) then some ([], (c :: t).drop separator.length)
    else (cut separator t).map fun (ahead, behind) => (c :: ahead, behind)

/-- A text is what is ahead of the cut, the separator, and what is behind. -/
theorem eq_of_cut {separator t ahead behind : Text} (h : cut separator t = some (ahead, behind)) :
    t = ahead ++ separator ++ behind := by
  induction t generalizing ahead with
  | nil => simp_all [cut]
  | cons c t ih =>
    rw [cut] at h
    split at h
    · next hp =>
      obtain ⟨rest, hr⟩ := List.isPrefixOf_iff_prefix.1 hp
      simp only [Option.some.injEq, Prod.mk.injEq] at h
      obtain ⟨rfl, rfl⟩ := h
      simp [← hr]
    · obtain ⟨⟨l, r⟩, hc, he⟩ := Option.map_eq_some_iff.1 h
      simp only [Prod.mk.injEq] at he
      obtain ⟨rfl, rfl⟩ := he
      simp [ih hc]

end Addressing.Text
