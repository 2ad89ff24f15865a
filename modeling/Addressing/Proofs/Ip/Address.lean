import Addressing.Proofs.Ip.Spelling
import Addressing.Proofs.Ip.ZeroRun

/-!
# Addresses, their bytes and their texts

Four bytes and sixteen bytes are addresses, each of one address, and no others are. A text is the
address of the one spelling that it has; the guards that refuse a text before it is looked at
refuse no spelling of an address.

* `V6.ofText?_eq_some_iff`, `V6.address?_spelling`: an IPv6 address is read from all its spellings,
  one of which is the one to write.
* `Address.ofText?_eq_v4_iff`, `Address.ofText?_eq_v6_iff`: the family of a text, and reading it.
* `parse_eq_ok_iff`, `render_eq_ok_iff`: what the bytes and the text of an address are.
* `parse_of_render`: the address of some bytes is read back from the text that is written for them.
-/

namespace Addressing.Ip

/-! ## The spelling to write -/

theorem map_group_shortest (gs : List Group) : (gs.map Hextet.shortest).map (·.group) = gs := by
  rw [List.map_map]
  exact List.map_id gs

/-- The chain behind a gap has the groups behind it. -/
theorem Chain.groups_behind (start : Nat) (gs : List Group) :
    (Chain.behind start gs).groups = gs := by
  fun_cases Chain.behind start gs with
  | case1 g g' => exact V4.groups_ofGroups g g'
  | case2 g g' => exact congrArg (0xffff :: ·) (V4.groups_ofGroups g g')
  | case3 => rw [groups_none, map_group_shortest]

namespace V6

variable {a : V6}

/-- Without two zeros in a row, every group is written. -/
theorem spelling_of_lt (h : (ZeroRun.longest a.groups).length < 2) :
    a.spelling = .full ⟨a.groups.map .shortest, none⟩ := by
  rw [spelling, if_pos h]

/-- The longest run of zeros is left out, if it is two groups or more. -/
theorem spelling_of_le {start length : Nat} (h : ZeroRun.longest a.groups = ⟨start, length⟩)
    (hle : 2 ≤ length) :
    a.spelling = .gapped ((a.groups.take start).map .shortest)
      (.behind start (a.groups.drop (start + length))) := by
  rw [spelling, h, if_neg (Nat.not_lt.2 hle)]

/-- The spelling to write is a spelling of the address, since its gap is a run of zeros. -/
theorem address?_spelling (a : V6) : a.spelling.address? = some a := by
  rcases Nat.lt_or_ge (ZeroRun.longest a.groups).length 2 with hlt | hle
  · rw [spelling_of_lt hlt, Spelling.address?_full_eq_some_iff, Chain.groups_none,
      map_group_shortest]
  · have hrun := (ZeroRun.isFirstLongest_longest a.groups).isRun.eq_append
    obtain ⟨n, hn⟩ := Nat.exists_eq_add_of_le' (Nat.le_of_succ_le hle)
    rw [spelling_of_le rfl hle, Spelling.address?_gapped_eq_some_iff, map_group_shortest,
      Chain.groups_behind]
    -- The groups of the gap are those of the run, since all others are written.
    exact ⟨n, hn ▸ hrun⟩

/-- An address is read from its spellings, and from nothing else. -/
theorem ofText?_eq_some_iff {t : Text} :
    ofText? t = some a ↔ ∃ s : Spelling, s.address? = some a ∧ t = s.text := by
  rw [ofText?, Option.bind_eq_some_iff]
  constructor
  · rintro ⟨s, hs, ha⟩
    exact ⟨s, ha, Spelling.ofText?_eq_some_iff.1 hs⟩
  · rintro ⟨s, ha, hs⟩
    exact ⟨s, Spelling.ofText?_eq_some_iff.2 hs, ha⟩

end V6

/-! ## Bytes -/

/-- Two bytes are a group. -/
theorem Group.length_ofAllBytes (b : Bytes) : (ofAllBytes b).length = b.length / 2 := by
  fun_induction ofAllBytes b with
  | case1 high low rest ih =>
    rw [List.length_cons, List.length_cons, List.length_cons, ih]
    omega
  | case2 b h =>
    rcases b with _ | ⟨x, _ | ⟨y, rest⟩⟩
    · rfl
    · simp
    · exact absurd rfl (h x y rest)

/-- An even number of bytes is made of groups. -/
theorem Group.flatMap_bytes_ofAllBytes {b : Bytes} (h : b.length % 2 = 0) :
    (ofAllBytes b).flatMap bytes = b := by
  fun_induction ofAllBytes b with
  | case1 high low rest ih =>
    rw [List.length_cons, List.length_cons] at h
    rw [List.flatMap_cons, ih (by omega), bytes, high_ofBytes, low_ofBytes]
    rfl
  | case2 b hb =>
    rcases b with _ | ⟨x, _ | ⟨y, rest⟩⟩
    · rfl
    · exact absurd h (by simp)
    · exact absurd rfl (hb x y rest)

/-- Sixteen bytes are those of one address. -/
theorem V6.ofBytes?_eq_some_iff {b : Bytes} {a : V6} : ofBytes? b = some a ↔ a.bytes = b := by
  refine ⟨fun h => ?_, fun h => h ▸ ofBytes?_bytes a⟩
  rw [ofBytes?] at h
  split_ifs at h with hlen
  rw [bytes, ofGroups?_eq_some_iff.1 h, Group.flatMap_bytes_ofAllBytes (by omega)]

namespace Address

variable {b : Bytes} {t : Text}

/-- Bytes are those of one address at most. -/
theorem ofBytes?_eq_some_iff {a : Address} : ofBytes? b = some a ↔ a.bytes = b := by
  refine ⟨fun h => ?_, fun h => h ▸ ofBytes?_bytes a⟩
  rw [ofBytes?.eq_def] at h
  split at h
  · rw [← Option.some.inj h]
    rfl
  · obtain ⟨a', ha, rfl⟩ := Option.map_eq_some_iff.1 h
    exact V6.ofBytes?_eq_some_iff.1 ha

/-- Four bytes and sixteen bytes are addresses, and no others. -/
theorem exists_bytes_iff : (∃ a : Address, a.bytes = b) ↔ b.length = 4 ∨ b.length = 16 := by
  constructor
  · rintro ⟨a | a, rfl⟩
    · exact .inl rfl
    · exact .inr a.length_bytes
  · rintro (h | h)
    · obtain ⟨w, x, y, z, rfl⟩ := List.length_eq_four.1 h
      exact ⟨v4 ⟨w, x, y, z⟩, rfl⟩
    · refine ⟨v6 ⟨Group.ofAllBytes b, by rw [Group.length_ofAllBytes, h]⟩, ?_⟩
      exact Group.flatMap_bytes_ofAllBytes (by omega)

/-! ## Texts -/

/-- A text is an IPv4 address exactly if it is the text of that address. -/
theorem ofText?_eq_v4_iff {a : V4} : ofText? t = some (v4 a) ↔ t = a.text := by
  rw [ofText?]
  constructor
  · intro h
    split_ifs at h
    · obtain ⟨_, _, h⟩ := Option.map_eq_some_iff.1 h
      cases h
    · obtain ⟨a', ha, hv⟩ := Option.map_eq_some_iff.1 h
      obtain rfl : a' = a := v4.inj hv
      exact V4.ofText?_eq_some_iff.1 ha
  · rintro rfl
    -- No guard refuses the text, and without a colon it is not taken for the other family.
    have hlen : ¬ maxTextLength < a.text.length := Nat.not_lt.2 (a.length_text_le.trans (by decide))
    have hnul : 0 ∉ a.text := V4.not_mem_text rfl (by decide)
    rw [if_neg (not_or.2 ⟨hlen, hnul⟩), if_neg a.colon_not_mem_text, V4.ofText?_eq_some_iff.2 rfl]
    rfl

/-- A text is an IPv6 address exactly if it is a spelling of that address. No spelling is too long,
    and none holds a zero byte. -/
theorem ofText?_eq_v6_iff {a : V6} :
    ofText? t = some (v6 a) ↔ ∃ s : Spelling, s.address? = some a ∧ t = s.text := by
  rw [← V6.ofText?_eq_some_iff, ofText?]
  constructor
  · intro h
    split_ifs at h
    · obtain ⟨a', ha, hv⟩ := Option.map_eq_some_iff.1 h
      obtain rfl : a' = a := v6.inj hv
      exact ha
    · obtain ⟨_, _, h⟩ := Option.map_eq_some_iff.1 h
      cases h
  · intro h
    obtain ⟨s, ha, rfl⟩ := V6.ofText?_eq_some_iff.1 h
    have hlen : ¬ maxTextLength < s.text.length := Nat.not_lt.2 (Spelling.length_text_le ha)
    have hnul : 0 ∉ s.text := Spelling.not_mem_text rfl (by decide) (by decide)
    rw [if_neg (not_or.2 ⟨hlen, hnul⟩), if_pos (Spelling.colon_mem_text ha), h]
    rfl

/-- The text of an address is read as that address. -/
theorem ofText?_text (a : Address) : ofText? a.text = some a := by
  cases a with
  | v4 a => exact ofText?_eq_v4_iff.2 rfl
  | v6 a => exact ofText?_eq_v6_iff.2 ⟨a.spelling, a.address?_spelling, rfl⟩

/-- No two addresses have the same text. -/
theorem text_injective : Function.Injective text := fun a a' h =>
  Option.some.inj ((ofText?_text a).symm.trans (h ▸ ofText?_text a'))

/-- A text of an address has a dot or a colon, in whichever way it is spelled. -/
theorem dot_or_colon_mem {a : Address} (h : ofText? t = some a) :
    Text.dot ∈ t ∨ Text.colon ∈ t := by
  cases a with
  | v4 a =>
    rw [ofText?_eq_v4_iff.1 h]
    exact .inl a.dot_mem_text
  | v6 a =>
    obtain ⟨s, hs, rfl⟩ := ofText?_eq_v6_iff.1 h
    exact .inr (Spelling.colon_mem_text hs)

/-- The text of an address is not too long to be one. -/
theorem length_text_le (a : Address) : a.text.length ≤ maxTextLength := by
  cases a with
  | v4 a => exact a.length_text_le.trans (by decide)
  | v6 a => exact Spelling.length_text_le a.address?_spelling

end Address

variable {b : Bytes} {t : Text}

/-- Parsing gives the bytes of the address that a text is. -/
theorem parse_eq_ok_iff : parse t = .ok b ↔ ∃ a, Address.ofText? t = some a ∧ a.bytes = b := by
  rw [parse]
  split
  · next a h => simp [h]
  · next h => simp [h]

/-- Parsing refuses the texts that are no address, all with one fault. -/
theorem parse_eq_error_iff : parse t = .error .invalidAddress ↔ Address.ofText? t = none := by
  rw [parse]
  split
  · next a h => simp [h]
  · next h => simp [h]

/-- A text is refused if no bytes are read from it. -/
theorem parse_eq_error_iff_forall : parse t = .error .invalidAddress ↔ ∀ b, parse t ≠ .ok b := by
  rw [parse]
  split <;> simp

/-- The bytes of an address are rendered as its text, which always fits. -/
theorem render_bytes (a : Address) : render a.bytes = .ok a.text := by
  rw [render, Address.ofBytes?_bytes]
  exact if_pos a.length_text_le

/-- Rendering gives the text of the address that the bytes are. -/
theorem render_eq_ok_iff : render b = .ok t ↔ ∃ a : Address, a.bytes = b ∧ a.text = t := by
  constructor
  · intro h
    rw [render] at h
    split at h
    · next a ha =>
      rw [if_pos a.length_text_le] at h
      exact ⟨a, Address.ofBytes?_eq_some_iff.1 ha, Except.ok.inj h⟩
    · contradiction
  · rintro ⟨a, rfl, rfl⟩
    exact render_bytes a

/-- Rendering refuses the bytes that are no address, all with one fault. -/
theorem render_eq_error_iff {f : Fault} :
    render b = .error f ↔ f = .invalidAddressLength ∧ ¬ ∃ a : Address, a.bytes = b := by
  rw [render]
  split
  · next a ha =>
    rw [if_pos a.length_text_le]
    exact iff_of_false (by simp) fun h => h.2 ⟨a, Address.ofBytes?_eq_some_iff.1 ha⟩
  · next hnone =>
    have hbytes : ¬ ∃ a : Address, a.bytes = b := fun ⟨a, ha⟩ => by
      rw [Address.ofBytes?_eq_some_iff.2 ha] at hnone
      exact Option.some_ne_none a hnone
    rw [Except.error.injEq, eq_comm, and_iff_left hbytes]

/-- Bytes are read back from the text that is written for them. -/
theorem parse_of_render (h : render b = .ok t) : parse t = .ok b := by
  obtain ⟨a, rfl, rfl⟩ := render_eq_ok_iff.1 h
  exact parse_eq_ok_iff.2 ⟨a, a.ofText?_text, rfl⟩

end Addressing.Ip
