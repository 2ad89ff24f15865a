import Addressing.Proofs.Separator
import Mathlib.Data.List.Infix

/-!
# Pieces of a text

The *pieces* of a text are what is left of it between the occurrences of a separator, taken from
left to right and never overlapping (`pieces`). Joining texts with the separator may bring about
occurrences that were not meant, some bytes of which are of a text and some of the separator beside
it. No such occurrence can be if the separator is *unbordered*: what it begins with is not what it
ends with, however long that is taken to be (`Unbordered`).

* `pieces_eq_iff`: the pieces are the texts without the separator that the text is joined of.
* `pieces_append`, `pieces_join`: the pieces of a joined text are those of its parts.
* `eq_of_join_eq`: texts without the separator are read back from what they are joined to.
* `Unbordered.prefix_join_iff`, `Unbordered.suffix_join_iff`: a joined text begins and ends with
  the separator exactly if its first and its last part do, unless these are empty.
-/

namespace Addressing.Text

/-! ## Unbordered separators -/

/-- A text that is not empty, and that begins with nothing it also ends with but the empty text and
    all of it. -/
def Unbordered (s : Text) : Prop := s ≠ [] ∧ ∀ b ∈ s.inits, b <:+ s → b = [] ∨ b = s

instance (s : Text) : Decidable (Unbordered s) := inferInstanceAs (Decidable (_ ∧ _))

namespace Unbordered

variable {s t u : Text} {ts : List Text}

theorem eq_nil_or_eq (h : Unbordered s) {b : Text} (hp : b <+: s) (hs : b <:+ s) :
    b = [] ∨ b = s :=
  h.2 b ((List.mem_inits b s).2 hp) hs

/-- An occurrence that ends before the last byte of the separator behind a text ends in the text. -/
theorem infix_of_infix_append (h : Unbordered s) (hi : s <:+: t ++ s.dropLast) : s <:+: t := by
  rcases List.infix_append_iff.1 hi with hi | hi | ⟨x, y, hxy, hx, hy⟩
  · exact hi
  · exact absurd hi (not_infix_dropLast h.1)
  · -- What is behind the text is a beginning of the separator, and the end of this occurrence.
    have hp : y <+: s := hy.trans (List.dropLast_prefix s)
    have hs : y <:+ s := hxy ▸ List.suffix_append x y
    rcases h.eq_nil_or_eq hp hs with rfl | rfl
    · rw [List.append_nil] at hxy
      exact hxy ▸ hx.isInfix
    · exact absurd hy.isInfix (not_infix_dropLast h.1)

/-- The separator behind a text does not make it begin with the separator. -/
theorem prefix_append_iff (h : Unbordered s) (ht : t ≠ []) : s <+: t ++ s ++ u ↔ s <+: t := by
  rw [List.append_assoc]
  refine ⟨fun hp => ?_, fun hp => hp.trans (List.prefix_append _ _)⟩
  rcases List.prefix_or_prefix_of_prefix hp (List.prefix_append t (s ++ u)) with hp' | ⟨b, rfl⟩
  · exact hp'
  · -- A shorter text would be a beginning of the separator, and the rest of it a border.
    have hb : b <+: t ++ b :=
      List.prefix_of_prefix_length_le ((List.prefix_append_right_inj t).1 hp)
        (List.prefix_append _ _) (by simp)
    rcases h.eq_nil_or_eq hb (List.suffix_append t b) with rfl | hb
    · simp
    · exact absurd (List.self_eq_append_left.1 hb) ht

/-- The separator ahead of a text does not make it end with the separator. -/
theorem suffix_append_iff (h : Unbordered s) (ht : t ≠ []) : s <:+ u ++ s ++ t ↔ s <:+ t := by
  refine ⟨fun hs => ?_, fun hs => hs.trans (List.suffix_append _ _)⟩
  rcases List.suffix_or_suffix_of_suffix hs (List.suffix_append (u ++ s) t) with hs' | ⟨b, rfl⟩
  · exact hs'
  · obtain ⟨w, hw⟩ := hs
    have hb : b <:+ u ++ (b ++ t) :=
      ⟨w, List.append_cancel_right ((List.append_assoc w b t).trans hw)⟩
    have hb : b <:+ b ++ t :=
      List.suffix_of_suffix_length_le hb (List.suffix_append _ _) (by simp)
    rcases h.eq_nil_or_eq (List.prefix_append b t) hb with rfl | hb
    · exact List.suffix_rfl
    · exact absurd (List.self_eq_append_right.1 hb) ht

/-- Joined texts begin with the separator exactly if the first one does, unless that is empty. -/
theorem prefix_join_iff (h : Unbordered s) (hts : ts ≠ []) (hhead : ts.head hts ≠ []) :
    s <+: s.intercalate ts ↔ s <+: ts.head hts := by
  obtain ⟨t, us, rfl⟩ := List.exists_cons_of_ne_nil hts
  rw [List.head_cons] at hhead ⊢
  rcases eq_or_ne us [] with rfl | hus
  · rw [List.intercalate_singleton]
  · rw [List.intercalate_cons_of_ne_nil hus, h.prefix_append_iff hhead]

/-- Joined texts end with the separator exactly if the last one does, unless that is empty. -/
theorem suffix_join_iff (h : Unbordered s) (hts : ts ≠ []) (hlast : ts.getLast hts ≠ []) :
    s <:+ s.intercalate ts ↔ s <:+ ts.getLast hts := by
  obtain ⟨us, t, rfl⟩ := (List.eq_nil_or_concat' ts).resolve_left hts
  rw [List.getLast_concat] at hlast ⊢
  rcases eq_or_ne us [] with rfl | hus
  · rw [List.nil_append, List.intercalate_singleton]
  · rw [join_append hus (List.cons_ne_nil t []), List.intercalate_singleton,
      h.suffix_append_iff hlast]

end Unbordered

/-! ## Pieces -/

variable {s t : Text}

/-- What is behind a cut is shorter than the text. -/
theorem length_lt_of_cut {ahead behind : Text} (hs : s ≠ [])
    (h : cut s t = some (ahead, behind)) : behind.length < t.length := by
  have hpos := List.length_pos_iff.2 hs
  rw [eq_of_cut h, List.length_append, List.length_append]
  omega

/-- The pieces of a text between the occurrences of a separator. The first occurrence is found, and
    the search goes on behind it. Nothing is separated by the empty text. -/
def pieces (separator t : Text) : List Text :=
  match h : cut separator t with
  | none => [t]
  | some (ahead, behind) =>
    if hs : separator = [] then [t]
    else
      have := length_lt_of_cut hs h
      ahead :: pieces separator behind
termination_by t.length

/-- A text without the separator is one piece. -/
theorem pieces_of_not_infix (h : ¬ s <:+: t) : pieces s t = [t] := by
  rw [pieces]
  split
  · rfl
  · next ahead behind hcut =>
    rw [cut_eq_none_iff.2 h] at hcut
    cases hcut

/-- The first piece is what is ahead of the cut, and the others are the pieces of what is behind. -/
theorem pieces_of_cut {ahead behind : Text} (hs : s ≠ []) (h : cut s t = some (ahead, behind)) :
    pieces s t = ahead :: pieces s behind := by
  rw [pieces]
  split
  · next hcut =>
    rw [h] at hcut
    cases hcut
  · next hcut =>
    rw [h] at hcut
    obtain ⟨rfl, rfl⟩ := Prod.mk.inj (Option.some.inj hcut)
    rw [dif_neg hs]

/-- With the separator between two texts, the pieces of both are the pieces. -/
theorem pieces_append (h : Unbordered s) (t u : Text) :
    pieces s (t ++ s ++ u) = pieces s t ++ pieces s u := by
  fun_induction pieces s t with
  | case1 t hcut =>
    -- The first occurrence is the one between the texts.
    have hfirst : ¬ s <:+: t ++ s.dropLast := mt h.infix_of_infix_append (cut_eq_none_iff.1 hcut)
    exact pieces_of_cut h.1 (cut_append h.1 hfirst)
  | case2 t ahead behind hcut hs => exact absurd hs h.1
  | case3 t ahead behind hcut _ _ ih =>
    -- The first occurrence is the one in the first text, whatever comes behind that.
    obtain ⟨rfl, hfirst⟩ := (cut_eq_some_iff h.1).1 hcut
    rw [show ahead ++ s ++ behind ++ s ++ u = ahead ++ s ++ (behind ++ s ++ u) by simp,
      pieces_of_cut h.1 (cut_append h.1 hfirst), ih]
    rfl

/-- The pieces of a joined text are those of the texts that it was joined of, in order. -/
theorem pieces_join (h : Unbordered s) {ts : List Text} (hts : ts ≠ []) :
    pieces s (s.intercalate ts) = ts.flatMap (pieces s) := by
  induction ts with
  | nil => exact absurd rfl hts
  | cons t ts ih =>
    rcases eq_or_ne ts [] with rfl | hne
    · rw [List.intercalate_singleton, List.flatMap_singleton]
    · rw [List.intercalate_cons_of_ne_nil hne, pieces_append h, ih hne, List.flatMap_cons]

theorem pieces_ne_nil (s t : Text) : pieces s t ≠ [] := by
  fun_cases pieces s t <;> exact List.cons_ne_nil _ _

/-- The pieces make up the text, with a separator between each two of them. -/
theorem join_pieces (s t : Text) : s.intercalate (pieces s t) = t := by
  fun_induction pieces s t with
  | case1 t _ => exact List.intercalate_singleton
  | case2 t _ _ _ _ => exact List.intercalate_singleton
  | case3 t ahead behind hcut _ _ ih =>
    rw [List.intercalate_cons_of_ne_nil (pieces_ne_nil s behind), ih, ← eq_of_cut hcut]

/-- No separator is left in a piece. -/
theorem not_infix_of_mem_pieces (hs : s ≠ []) : ∀ p ∈ pieces s t, ¬ s <:+: p := by
  fun_induction pieces s t with
  | case1 t hcut =>
    intro p hp
    rw [List.mem_singleton.1 hp]
    exact cut_eq_none_iff.1 hcut
  | case2 t _ _ _ hnil => exact absurd hnil hs
  | case3 t ahead behind hcut _ _ ih =>
    intro p hp
    rcases List.mem_cons.1 hp with rfl | hp
    · exact fun hi => not_infix_of_cut hs hcut (hi.trans (List.prefix_append _ _).isInfix)
    · exact ih p hp

/-- The pieces are the only texts without the separator that the text is joined of. -/
theorem pieces_eq_iff (h : Unbordered s) {ts : List Text} (hts : ts ≠ []) :
    pieces s t = ts ↔ t = s.intercalate ts ∧ ∀ p ∈ ts, ¬ s <:+: p := by
  refine ⟨fun hp => ?_, fun ⟨ht, hfree⟩ => ?_⟩
  · rw [← hp]
    exact ⟨(join_pieces s t).symm, not_infix_of_mem_pieces h.1⟩
  · rw [ht, pieces_join h hts, List.flatMap_congr fun p hp => pieces_of_not_infix (hfree p hp),
      List.flatMap_singleton']

/-- Texts without the separator can be read back from what they are joined to, unless no texts and
    the empty one are to be told apart. -/
theorem eq_of_join_eq (h : Unbordered s) {ts us : List Text} (hnil : ts = [] ↔ us = [])
    (htfree : ∀ p ∈ ts, ¬ s <:+: p) (hufree : ∀ p ∈ us, ¬ s <:+: p)
    (he : s.intercalate ts = s.intercalate us) : ts = us := by
  by_cases hts : ts = []
  · rw [hts, hnil.1 hts]
  · calc
      ts = pieces s (s.intercalate ts) := ((pieces_eq_iff h hts).2 ⟨rfl, htfree⟩).symm
      _ = us := (pieces_eq_iff h (mt hnil.2 hts)).2 ⟨he, hufree⟩

end Addressing.Text
