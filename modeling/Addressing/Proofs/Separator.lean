import Addressing.Text.Cut
import Mathlib.Tactic.Common

/-!
# Separators

What a cut and a split find in a text, told by the text alone: a cut is made at an occurrence that
no other one comes before, and splitting at a byte finds an empty part between two such bytes that
stand side by side.

* `cut_eq_some_iff`, `cut_eq_none_iff`: where a text is cut, and when it cannot be.
* `mem_of_mem_join`, `length_join`: the bytes of a text that is joined of parts.
* `join_append`, `join_flatten`: lists of parts, joined at once or one after the other.
* `join_eq_nil_iff`, `head_prefix_join`, `suffix_join_concat_nil`: when a joined text is empty, how
  it begins and how it ends.
* `append_cons_inj`: what is ahead of the last separator of a text, and what is behind it.
* `not_pair_infix_join`: parts that are not empty, joined by a byte, never have two of that byte
  side by side.
-/

namespace Addressing.Text

/-! ## Cutting -/

/-- A text is cut at a separator if no other occurrence begins ahead of it. Such an occurrence
    would end before the last byte of the separator. -/
theorem cut_append {separator ahead behind : Text} (hs : separator ≠ [])
    (h : ¬ separator <:+: ahead ++ separator.dropLast) :
    cut separator (ahead ++ separator ++ behind) = some (ahead, behind) := by
  induction ahead with
  | nil =>
    obtain ⟨c, s, rfl⟩ := List.exists_cons_of_ne_nil hs
    simp [cut]
  | cons a ahead ih =>
    -- The separator does not begin at `a`: it would be over before its own last byte.
    have hp : ¬ separator <+: a :: (ahead ++ separator ++ behind) := by
      intro hp
      have hlong : a :: (ahead ++ separator.dropLast) <+: a :: (ahead ++ separator ++ behind) := by
        rw [List.append_assoc, List.prefix_cons_inj, List.prefix_append_right_inj]
        exact (List.dropLast_prefix _).trans (List.prefix_append _ _)
      have hlen : separator.length ≤ (a :: (ahead ++ separator.dropLast)).length := by
        rw [List.length_cons, List.length_append, List.length_dropLast]
        omega
      exact h (List.prefix_of_prefix_length_le hp hlong hlen).isInfix
    have ht : ¬ separator <:+: ahead ++ separator.dropLast := fun hi =>
      h (List.infix_cons hi)
    rw [List.cons_append, List.cons_append, cut, if_neg (mt List.isPrefixOf_iff_prefix.1 hp), ih ht]
    rfl

/-- A text is not found in itself without its last byte. -/
theorem not_infix_dropLast {s : Text} (hs : s ≠ []) : ¬ s <:+: s.dropLast := by
  intro hi
  have hlen := hi.length_le
  have hpos := List.length_pos_iff.2 hs
  rw [List.length_dropLast] at hlen
  omega

/-- No occurrence of the separator begins ahead of the cut. -/
theorem not_infix_of_cut {separator t ahead behind : Text} (hs : separator ≠ [])
    (h : cut separator t = some (ahead, behind)) :
    ¬ separator <:+: ahead ++ separator.dropLast := by
  induction t generalizing ahead with
  | nil => simp [cut, hs] at h
  | cons c t ih =>
    rw [cut] at h
    split at h
    · obtain ⟨rfl, _⟩ := Prod.mk.inj (Option.some.inj h)
      exact not_infix_dropLast hs
    · next hp =>
      obtain ⟨⟨a, b⟩, hcut, he⟩ := Option.map_eq_some_iff.1 h
      obtain ⟨rfl, rfl⟩ := Prod.mk.inj he
      rw [List.cons_append, List.infix_cons_iff, not_or]
      refine ⟨fun hpre => hp (List.isPrefixOf_iff_prefix.2 (hpre.trans ?_)), ih hcut⟩
      -- The text goes on with the separator, and so with all of it but its last byte.
      rw [eq_of_cut hcut, List.append_assoc, List.prefix_cons_inj, List.prefix_append_right_inj]
      exact (List.dropLast_prefix _).trans (List.prefix_append _ _)

/-- A text is cut where the separator occurs and no other occurrence begins ahead of it. -/
theorem cut_eq_some_iff {separator t ahead behind : Text} (hs : separator ≠ []) :
    cut separator t = some (ahead, behind) ↔
      t = ahead ++ separator ++ behind ∧ ¬ separator <:+: ahead ++ separator.dropLast := by
  refine ⟨fun h => ⟨eq_of_cut h, not_infix_of_cut hs h⟩, fun ⟨ht, h⟩ => ?_⟩
  rw [ht, cut_append hs h]

/-- A text cannot be cut exactly if it does not hold the separator. -/
theorem cut_eq_none_iff {separator t : Text} : cut separator t = none ↔ ¬ separator <:+: t := by
  induction t with
  | nil => simp [cut, List.infix_nil]
  | cons c t ih =>
    rw [cut, List.infix_cons_iff, not_or, ← ih, ← List.isPrefixOf_iff_prefix]
    split <;> simp_all

/-! ## Joining -/

/-- All bytes of a joined text are of its parts, or join them. -/
theorem mem_of_mem_join {x c : UInt8} {fields : List Text} (h : x ∈ [c].intercalate fields) :
    x = c ∨ ∃ f ∈ fields, x ∈ f := by
  induction fields with
  | nil => exact absurd h List.not_mem_nil
  | cons f fields ih =>
    rcases eq_or_ne fields [] with rfl | hf
    · rw [List.intercalate_singleton] at h
      exact .inr ⟨f, List.mem_singleton_self f, h⟩
    · rw [List.intercalate_cons_of_ne_nil hf, List.append_assoc, List.mem_append, List.mem_append,
        List.mem_singleton] at h
      rcases h with h | h | h
      · exact .inr ⟨f, List.mem_cons_self, h⟩
      · exact .inl h
      · exact (ih h).imp_right fun ⟨g, hg, hx⟩ => ⟨g, List.mem_cons_of_mem _ hg, hx⟩

/-- A byte that does not join the parts and is in none of them is not in the joined text. -/
theorem not_mem_join {x c : UInt8} {fields : List Text} (hx : x ≠ c)
    (hf : ∀ f ∈ fields, x ∉ f) : x ∉ [c].intercalate fields := by
  intro h
  rcases mem_of_mem_join h with rfl | ⟨f, hmem, h⟩
  · exact hx rfl
  · exact hf f hmem h

/-- The bytes of a part are bytes of the joined text. -/
theorem mem_join_of_mem {x c : UInt8} {f : Text} {fields : List Text} (hf : f ∈ fields)
    (hx : x ∈ f) : x ∈ [c].intercalate fields := by
  induction fields with
  | nil => exact absurd hf List.not_mem_nil
  | cons g fields ih =>
    rcases eq_or_ne fields [] with rfl | hne
    · rwa [List.intercalate_singleton, ← List.mem_singleton.1 hf]
    · rw [List.intercalate_cons_of_ne_nil hne, List.append_assoc, List.mem_append]
      rcases List.mem_cons.1 hf with rfl | hf
      · exact .inl hx
      · exact .inr (List.mem_append_right _ (ih hf))

/-- A joined text has the bytes of its parts, and one byte between each two of them. -/
theorem length_join (c : UInt8) (fields : List Text) :
    ([c].intercalate fields).length = fields.flatten.length + (fields.length - 1) := by
  induction fields with
  | nil => rfl
  | cons f fields ih =>
    rcases eq_or_ne fields [] with rfl | hf
    · rw [List.intercalate_singleton, List.flatten_singleton]
      rfl
    · have hpos : 0 < fields.length := List.length_pos_iff.2 hf
      rw [List.intercalate_cons_of_ne_nil hf, List.length_append, List.length_append, ih,
        List.flatten_cons, List.length_append, List.length_singleton, List.length_cons]
      omega

/-- Where two lists of parts meet, they are joined as any two parts are. -/
theorem join_append {separator : Text} {ts us : List Text} (hts : ts ≠ []) (hus : us ≠ []) :
    separator.intercalate (ts ++ us) =
      separator.intercalate ts ++ separator ++ separator.intercalate us := by
  induction ts with
  | nil => exact absurd rfl hts
  | cons t ts ih =>
    rcases eq_or_ne ts [] with rfl | hne
    · rw [List.singleton_append, List.intercalate_cons_of_ne_nil hus, List.intercalate_singleton]
    · have hparts : ts ++ us ≠ [] := List.append_ne_nil_of_left_ne_nil hne us
      rw [List.cons_append, List.intercalate_cons_of_ne_nil hparts, ih hne,
        List.intercalate_cons_of_ne_nil hne]
      simp only [List.append_assoc]

/-- A joined text begins with its first part. -/
theorem head_prefix_join {separator : Text} {ts : List Text} (hts : ts ≠ []) :
    ts.head hts <+: separator.intercalate ts := by
  obtain ⟨t, us, rfl⟩ := List.exists_cons_of_ne_nil hts
  rw [List.head_cons]
  rcases eq_or_ne us [] with rfl | hus
  · exact List.intercalate_singleton.symm ▸ List.prefix_rfl
  · rw [List.intercalate_cons_of_ne_nil hus, List.append_assoc]
    exact List.prefix_append _ _

/-- A joined text is empty exactly if it has no parts, unless its first part is empty. -/
theorem join_eq_nil_iff {separator : Text} {ts : List Text}
    (hhead : ∀ hts : ts ≠ [], ts.head hts ≠ []) : separator.intercalate ts = [] ↔ ts = [] := by
  refine ⟨fun h => ?_, fun h => h ▸ List.intercalate_nil⟩
  by_contra hts
  exact (head_prefix_join hts).ne_nil (hhead hts) h

/-- With an empty part at its end, a joined text ends with the separator ahead of that part. -/
theorem suffix_join_concat_nil {separator : Text} {ts : List Text} (hts : ts ≠ []) :
    separator <:+ separator.intercalate (ts ++ [[]]) := by
  rw [join_append hts (List.cons_ne_nil _ _), List.intercalate_singleton, List.append_nil]
  exact List.suffix_append _ _

/-- Lists of parts can be joined one by one and their texts after that. The lists without parts are
    left out, since they would be joined as parts themselves. -/
theorem join_flatten (separator : Text) (tss : List (List Text)) :
    separator.intercalate tss.flatten =
      separator.intercalate ((tss.filter (· ≠ [])).map separator.intercalate) := by
  suffices ∀ tss : List (List Text), (∀ ts ∈ tss, ts ≠ []) →
      separator.intercalate tss.flatten = separator.intercalate (tss.map separator.intercalate) by
    rw [← List.flatten_filter_ne_nil]
    exact this _ fun ts hts => of_decide_eq_true (List.mem_filter.1 hts).2
  intro tss hne
  induction tss with
  | nil => rfl
  | cons ts tss ih =>
    obtain ⟨hts, htss⟩ := List.forall_mem_cons.1 hne
    rcases eq_or_ne tss [] with rfl | hnil
    · rw [List.flatten_singleton, List.map_singleton, List.intercalate_singleton]
    · have hflat : tss.flatten ≠ [] := fun h => by
        obtain ⟨us, hus⟩ := List.exists_mem_of_ne_nil tss hnil
        exact htss us hus (List.flatten_eq_nil_iff.1 h us hus)
      rw [List.flatten_cons, join_append hts hflat, ih htss, List.map_cons,
        List.intercalate_cons_of_ne_nil (mt List.map_eq_nil_iff.1 hnil)]

/-! ## Splitting -/

/-- The parts that a text splits into are the parts that it joins, if none of them holds the byte
    that joins them. -/
theorem splitOn_eq_iff {c : UInt8} {t : Text} {fields : List Text} (hf : fields ≠ [])
    (hc : ∀ f ∈ fields, c ∉ f) : t.splitOn c = fields ↔ t = [c].intercalate fields := by
  constructor
  · rintro rfl
    exact (List.intercalate_splitOn c).symm
  · rintro rfl
    exact List.splitOn_intercalate c hc hf

/-- All bytes of a text are of the parts that it splits into, or separate them. -/
theorem mem_iff_splitOn {x c : UInt8} {t : Text} (hx : x ≠ c) :
    x ∈ t ↔ ∃ f ∈ t.splitOn c, x ∈ f := by
  have ht : [c].intercalate (t.splitOn c) = t := List.intercalate_splitOn c
  constructor
  · intro h
    rw [← ht] at h
    exact (mem_of_mem_join h).resolve_left hx
  · rintro ⟨f, hf, h⟩
    rw [← ht]
    exact mem_join_of_mem hf h

/-- What stands behind a separator and does not hold it is the last part. -/
theorem splitOn_append_cons {c : UInt8} {t : Text} (ht : c ∉ t) (s : Text) :
    (s ++ c :: t).splitOn c = s.splitOn c ++ [t] := by
  rw [List.splitOn_append_cons_self, List.splitOn_eq_singleton ht]

/-- Texts with a separator are equal exactly if they are equal ahead of its last occurrence and
    behind it. -/
theorem append_cons_inj {c : UInt8} {s s' t t' : Text} (ht : c ∉ t) (ht' : c ∉ t') :
    s ++ c :: t = s' ++ c :: t' ↔ s = s' ∧ t = t' := by
  constructor
  · intro h
    have hparts := congrArg (List.splitOn c) h
    rw [splitOn_append_cons ht, splitOn_append_cons ht', List.append_singleton_inj] at hparts
    obtain ⟨_, rfl⟩ := hparts
    exact ⟨List.append_cancel_right h, rfl⟩
  · rintro ⟨rfl, rfl⟩
    rfl

/-- Two separators that stand side by side have an empty part between them. -/
theorem splitOn_append_pair (c : UInt8) (p q : Text) :
    (p ++ [c, c] ++ q).splitOn c = p.splitOn c ++ [] :: q.splitOn c := by
  rw [List.append_assoc, List.cons_append, List.singleton_append, List.splitOn_append_cons_self]
  exact congrArg (p.splitOn c ++ ·) (List.splitOn_append_cons_self [] q)

/-- The empty part between two separators is not the last one. -/
theorem nil_mem_dropLast_splitOn {c : UInt8} {t : Text} (h : [c, c] <:+: t) :
    [] ∈ (t.splitOn c).dropLast := by
  obtain ⟨p, q, rfl⟩ := h
  rw [splitOn_append_pair, List.dropLast_append_of_ne_nil (List.cons_ne_nil _ _),
    List.dropLast_cons_of_ne_nil (List.splitOn_ne_nil c q)]
  exact List.mem_append_right _ List.mem_cons_self

/-- Parts that are not empty, joined by a byte that none of them holds, do not have that byte twice
    in a row, not even with one more of it at the end. -/
theorem not_pair_infix_join {c : UInt8} {fields : List Text} (hne : ∀ f ∈ fields, f ≠ [])
    (hc : ∀ f ∈ fields, c ∉ f) : ¬ [c, c] <:+: [c].intercalate fields ++ [c] := by
  rcases eq_or_ne fields [] with rfl | hf
  · intro h
    simpa using h.length_le
  · intro h
    have hsplit : ([c].intercalate fields ++ [c]).splitOn c = fields ++ [[]] := by
      rw [List.splitOn_append_cons_self, List.splitOn_intercalate c hc hf, List.splitOn_nil]
    have hmem := nil_mem_dropLast_splitOn h
    rw [hsplit, List.dropLast_concat] at hmem
    exact hne [] hmem rfl

end Addressing.Text
