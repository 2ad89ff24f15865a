import Addressing.Ip.Address
import Addressing.Proofs.Ip.V4
import Mathlib.Data.Option.Basic

/-!
# Reading a spelling

A spelling has one text, and that text is read as this spelling and as no other
(`Spelling.ofText?_eq_some_iff`). The parts of a chain are never empty and hold no colon, so that
the colons between them are where it splits, and `::` is found where the gap is. A part with a dot
in it is four octets, and one without is a hextet.

* `Chain.ofFields?_eq_some_iff`, `Chain.ofText?_eq_some_iff`: reading a chain.
* `Chain.splitOn_text`, `Chain.not_gap_infix_text`: where a chain splits, and that no gap is in it.
-/

namespace Addressing.Ip

/-- Groups are an address if they are eight. -/
theorem V6.ofGroups?_eq_some_iff {gs : List Group} {a : V6} :
    ofGroups? gs = some a ↔ a.groups = gs := by
  refine ⟨fun h => ?_, fun h => h ▸ ofGroups?_groups a⟩
  rw [ofGroups?] at h
  split_ifs at h
  rw [← Option.some.inj h]

/-! ## Hextets -/

namespace Hextet

/-- The digits of a hextet stand for its group. -/
theorem standsFor (x : Hextet) : Numeral.StandsFor 16 x.digits x.group.toNat :=
  Numeral.read?_eq_some_iff.1 x.read_digits

theorem digits_ne_nil (x : Hextet) : x.digits ≠ [] :=
  List.length_pos_iff.1 x.length_mem.1

/-- A hextet is no address of four octets, having no dot. -/
theorem v4_ofText?_digits (x : Hextet) : V4.ofText? x.digits = none := by
  rw [Option.eq_none_iff_forall_ne_some]
  intro a h
  have hdot : Text.dot ∉ x.digits := x.standsFor.not_mem rfl
  exact hdot (V4.ofText?_eq_some_iff.1 h ▸ a.dot_mem_text)

end Hextet

/-! ## Chains -/

namespace Chain

theorem fields_cons (x : Hextet) (hs : List Hextet) (o : Option V4) :
    (Chain.mk (x :: hs) o).fields = x.digits :: (Chain.mk hs o).fields := rfl

/-- Without octets, the parts are the hextets. -/
@[simp] theorem fields_none (xs : List Hextet) :
    (Chain.mk xs none).fields = xs.map (·.digits) := List.append_nil _

/-- Without octets, the groups are those of the hextets. -/
@[simp] theorem groups_none (xs : List Hextet) :
    (Chain.mk xs none).groups = xs.map (·.group) := List.append_nil _

/-- The parts of a chain are hextets, and octets in the last place. -/
theorem mem_fields {c : Chain} {f : Text} :
    f ∈ c.fields ↔ (∃ x ∈ c.hextets, x.digits = f) ∨ ∃ a ∈ c.octets, a.text = f := by
  rw [fields, List.mem_append, List.mem_map, List.mem_map]
  simp only [Option.mem_toList, Option.mem_def]

/-- No part of a chain is empty. -/
theorem field_ne_nil {c : Chain} : ∀ f ∈ c.fields, f ≠ [] := by
  intro f hf
  rcases mem_fields.1 hf with ⟨x, _, rfl⟩ | ⟨a, _, rfl⟩
  · exact x.digits_ne_nil
  · exact List.ne_nil_of_mem a.dot_mem_text

/-- Other than dots, all bytes of a part of a chain are digits. -/
theorem not_mem_field {c : Chain} {b : UInt8} (hb : Digit.value? b = none) (hdot : b ≠ Text.dot) :
    ∀ f ∈ c.fields, b ∉ f := by
  intro f hf
  rcases mem_fields.1 hf with ⟨x, _, rfl⟩ | ⟨a, _, rfl⟩
  · exact x.standsFor.not_mem hb
  · exact V4.not_mem_text hb hdot

/-- Parts are read as the chain that has them. -/
theorem ofFields?_fields (c : Chain) : ofFields? c.fields = some c := by
  obtain ⟨hs, o⟩ := c
  induction hs with
  | nil =>
    cases o with
    | none => rfl
    | some a =>
      show ofFields? [a.text] = _
      rw [ofFields?, V4.ofText?_eq_some_iff.2 rfl]
  | cons x hs ih =>
    have hx : Hextet.ofText? x.digits = some x := Hextet.ofText?_eq_some_iff.2 rfl
    rw [fields_cons]
    -- The last part may be octets, and a hextet in that place must not be read as such.
    rcases hf : (Chain.mk hs o).fields with _ | ⟨g, gs⟩
    · rw [hf] at ih
      obtain ⟨rfl, rfl⟩ := Chain.mk.inj (Option.some.inj ih)
      rw [ofFields?, x.v4_ofText?_digits, hx]
      rfl
    · rw [hf] at ih
      rw [ofFields?, hx, ih]
      · rfl
      · simp

/-- Parts are read as a chain exactly if they are its parts. -/
theorem ofFields?_eq_some_iff {fs : List Text} {c : Chain} :
    ofFields? fs = some c ↔ fs = c.fields := by
  refine ⟨fun h => ?_, fun h => h ▸ ofFields?_fields c⟩
  fun_induction ofFields? fs generalizing c with
  | case1 =>
    obtain rfl := Option.some.inj h
    rfl
  | case2 f a ha =>
    obtain rfl := Option.some.inj h
    rw [V4.ofText?_eq_some_iff.1 ha]
    rfl
  | case3 f _ =>
    obtain ⟨x, hx, rfl⟩ := Option.map_eq_some_iff.1 h
    rw [Hextet.ofText?_eq_some_iff.1 hx]
    rfl
  | case4 f fs _ ih =>
    obtain ⟨x, hx, h⟩ := Option.bind_eq_some_iff.1 h
    obtain ⟨c', hc, h⟩ := Option.bind_eq_some_iff.1 h
    obtain rfl := Option.some.inj h
    rw [fields_cons, Hextet.ofText?_eq_some_iff.1 hx, ih hc]

/-- A chain that is not empty splits at its colons into its parts. -/
theorem splitOn_text {c : Chain} (h : c.fields ≠ []) : c.text.splitOn Text.colon = c.fields :=
  List.splitOn_intercalate Text.colon (not_mem_field rfl (by decide)) h

/-- A chain has the empty text exactly if it is empty. -/
theorem text_eq_nil_iff {c : Chain} : c.text = [] ↔ c.fields = [] := by
  constructor
  · intro h
    by_contra hf
    -- The empty text would split into an empty part.
    have hs := splitOn_text hf
    rw [h, List.splitOn_nil] at hs
    exact field_ne_nil [] (hs ▸ List.mem_singleton_self _) rfl
  · intro h
    rw [text, h, List.intercalate_nil]

/-- A chain is read from its own text and from no other. -/
theorem ofText?_eq_some_iff {t : Text} {c : Chain} : ofText? t = some c ↔ t = c.text := by
  rw [ofText?]
  split_ifs with ht
  · rw [ofFields?_eq_some_iff, ht, eq_comm, ← text_eq_nil_iff, eq_comm]
  · rw [ofFields?_eq_some_iff]
    rcases eq_or_ne c.fields [] with hf | hf
    -- The empty chain has the empty text only, which was read before it was split.
    · rw [hf, text_eq_nil_iff.2 hf]
      exact iff_of_false (List.splitOn_ne_nil _ _) ht
    · exact Text.splitOn_eq_iff hf (not_mem_field rfl (by decide))

/-- No chain holds the text of a gap, not even if a colon is added at its end. -/
theorem not_gap_infix_text_concat (c : Chain) : ¬ Spelling.gap <:+: c.text ++ [Text.colon] :=
  Text.not_pair_infix_join field_ne_nil (not_mem_field rfl (by decide))

/-- No chain holds the text of a gap. -/
theorem not_gap_infix_text (c : Chain) : ¬ Spelling.gap <:+: c.text := fun h =>
  c.not_gap_infix_text_concat (h.trans (List.prefix_append _ _).isInfix)

/-- Other than dots and colons, all bytes of the text are digits. -/
theorem not_mem_text {c : Chain} {b : UInt8} (hb : Digit.value? b = none) (hdot : b ≠ Text.dot)
    (hcolon : b ≠ Text.colon) : b ∉ c.text :=
  Text.not_mem_join hcolon (not_mem_field hb hdot)

/-- Each hextet has four digits at most, with a colon behind it, and the octets are last. -/
theorem length_text_le (c : Chain) :
    c.text.length ≤ 5 * c.hextets.length + 16 * c.octets.toList.length - 1 := by
  have hhextets : (c.hextets.map (·.digits)).flatten.length ≤ 4 * c.hextets.length := by
    induction c.hextets with
    | nil => exact Nat.le_refl _
    | cons x hs ih =>
      have hx := x.length_mem.2
      rw [List.map_cons, List.flatten_cons, List.length_append, List.length_cons]
      omega
  have hoctets : (c.octets.toList.map V4.text).flatten.length ≤ 15 * c.octets.toList.length := by
    cases c.octets with
    | none => exact Nat.le_refl _
    | some a =>
      rw [Option.toList_some, List.map_singleton, List.flatten_singleton]
      exact a.length_text_le
  rw [text, Text.length_join, fields, List.flatten_append, List.length_append, List.length_append,
    List.length_map, List.length_map]
  omega

/-- The octets are two groups. -/
theorem length_groups (c : Chain) :
    c.groups.length = c.hextets.length + 2 * c.octets.toList.length := by
  rw [groups, List.length_append, List.length_map]
  cases c.octets <;> rfl

/-- Two parts or more have a colon between them. -/
theorem colon_mem_text {c : Chain} (h : 2 ≤ c.fields.length) : Text.colon ∈ c.text := by
  by_contra hcolon
  have hsplit := splitOn_text (List.length_pos_iff.1 (Nat.lt_of_succ_le (Nat.le_of_succ_le h)))
  rw [List.splitOn_eq_singleton hcolon] at hsplit
  rw [← hsplit, List.length_singleton] at h
  omega

end Chain

/-! ## Spellings -/

namespace Spelling

/-- The text of a spelling is read as that spelling. -/
theorem ofText?_text (s : Spelling) : ofText? s.text = some s := by
  cases s with
  | full chain =>
    have hcut : Text.cut gap chain.text = none :=
      Text.cut_eq_none_iff.2 chain.not_gap_infix_text
    rw [text, ofText?, hcut]
    exact congrArg (Option.map full) (Chain.ofText?_eq_some_iff.2 rfl)
  | gapped ahead behind =>
    have hcut : Text.cut gap (text (gapped ahead behind)) =
        some ((Chain.mk ahead none).text, behind.text) :=
      Text.cut_append (by decide) (Chain.mk ahead none).not_gap_infix_text_concat
    have hahead := Chain.ofText?_eq_some_iff.2 (rfl : (Chain.mk ahead none).text = _)
    have hbehind := Chain.ofText?_eq_some_iff.2 (rfl : behind.text = _)
    simp only [ofText?, hcut, hahead, hbehind]
    rfl

/-- A spelling is read from its own text and from no other. -/
theorem ofText?_eq_some_iff {t : Text} {s : Spelling} : ofText? t = some s ↔ t = s.text := by
  refine ⟨fun h => ?_, fun h => h ▸ ofText?_text s⟩
  rw [ofText?] at h
  split at h
  · obtain ⟨chain, hc, rfl⟩ := Option.map_eq_some_iff.1 h
    exact Chain.ofText?_eq_some_iff.1 hc
  · next ahead behind hcut =>
    obtain ⟨⟨hs, o⟩, ha, hrest⟩ := Option.bind_eq_some_iff.1 h
    obtain ⟨_, ho, hrest⟩ := Option.bind_eq_some_iff.1 hrest
    obtain ⟨c, hc, hrest⟩ := Option.bind_eq_some_iff.1 hrest
    obtain rfl := Option.some.inj hrest
    -- What is read ahead of the gap has no octets, so that its hextets are all of it.
    obtain rfl : o = none := (Option.guard_eq_some' _).1 ho
    rw [Text.eq_of_cut hcut, Chain.ofText?_eq_some_iff.1 ha, Chain.ofText?_eq_some_iff.1 hc]
    rfl

/-- A chain without a gap spells the address of its groups, which are eight. -/
theorem address?_full_eq_some_iff {chain : Chain} {a : V6} :
    (full chain).address? = some a ↔ a.groups = chain.groups := by
  rw [address?, V6.ofGroups?_eq_some_iff]

/-- The groups of a gap are zeros, of which there is one at least. -/
theorem address?_gapped_eq_some_iff {ahead : List Hextet} {behind : Chain} {a : V6} :
    (gapped ahead behind).address? = some a ↔
      ∃ n, a.groups = ahead.map (·.group) ++ List.replicate (n + 1) 0 ++ behind.groups := by
  rw [address?]
  constructor
  · intro h
    split_ifs at h with hlt
    obtain ⟨n, hn⟩ := Nat.exists_eq_add_of_lt hlt
    refine ⟨n, ?_⟩
    rw [V6.ofGroups?_eq_some_iff.1 h, hn]
    congr 3
    omega
  · rintro ⟨n, h⟩
    have hlen := congrArg List.length h
    simp only [a.length_groups, List.length_append, List.length_map, List.length_replicate] at hlen
    rw [if_pos (by omega), V6.ofGroups?_eq_some_iff, h]
    congr 3
    omega

/-- Other than dots and colons, all bytes of the text are digits. -/
theorem not_mem_text {s : Spelling} {b : UInt8} (hb : Digit.value? b = none)
    (hdot : b ≠ Text.dot) (hcolon : b ≠ Text.colon) : b ∉ s.text := by
  cases s with
  | full chain => exact chain.not_mem_text hb hdot hcolon
  | gapped ahead behind =>
    have hgap : b ∉ gap := by simpa [gap] using hcolon
    rw [text, List.mem_append, List.mem_append, not_or, not_or]
    exact ⟨⟨Chain.not_mem_text hb hdot hcolon, hgap⟩, Chain.not_mem_text hb hdot hcolon⟩

/-- A spelling of an address holds a colon. -/
theorem colon_mem_text {s : Spelling} {a : V6} (h : s.address? = some a) : Text.colon ∈ s.text := by
  cases s with
  | full chain =>
    have hlen := congrArg List.length (address?_full_eq_some_iff.1 h)
    rw [a.length_groups, chain.length_groups] at hlen
    apply Chain.colon_mem_text
    rw [Chain.fields, List.length_append, List.length_map, List.length_map]
    omega
  | gapped ahead behind => simp [text, gap]

/-- The longest spelling of an address has six hextets of four digits, with a colon behind each,
    and the longest octets. -/
theorem length_text_le {s : Spelling} {a : V6} (h : s.address? = some a) :
    s.text.length ≤ Address.maxTextLength := by
  cases s with
  | full chain =>
    have hlen := congrArg List.length (address?_full_eq_some_iff.1 h)
    have htext := chain.length_text_le
    rw [a.length_groups, chain.length_groups] at hlen
    have hoctets : chain.octets.toList.length ≤ 1 := Option.length_toList_le
    rw [text, Address.maxTextLength]
    omega
  | gapped ahead behind =>
    obtain ⟨n, hn⟩ := address?_gapped_eq_some_iff.1 h
    have hlen := congrArg List.length hn
    have hahead := (Chain.mk ahead none).length_text_le
    have hbehind := behind.length_text_le
    have hoctets : behind.octets.toList.length ≤ 1 := Option.length_toList_le
    simp only [a.length_groups, List.length_append, List.length_map, List.length_replicate,
      behind.length_groups] at hlen
    simp only [text, gap, List.length_append, List.length_cons, List.length_nil, Option.toList_none,
      Address.maxTextLength] at hahead ⊢
    omega

end Spelling

end Addressing.Ip
