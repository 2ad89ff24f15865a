import Addressing.Proofs.Ip.Canonical
import Addressing.Proofs.Ip.Dotted

/-!
# IPv4 addresses among the IPv6 addresses

An IPv4 address can be the last four bytes of an IPv6 address, in two ways: it is *mapped* with a
group `ffff` ahead of it and zeros ahead of that, and *compatible* with nothing but zeros ahead of
it.

* `V4.text_mapped`: a mapped address is always written with its octets, since the five zeros ahead
  of `ffff` are the longest run whatever the octets are.
* `V4.text_compatible_iff`: a compatible address is written so only if its first two octets are not
  both zero. If they are, the group that they fill belongs to the run that is left out.
* `parse_mapped`: octets are read behind `::ffff:` exactly as they are read alone.

Both families agree on mapped addresses, in writing and in reading (`render_parse_mapped`).
-/

namespace Addressing.Ip

/-! ## Bytes -/

/-- The bytes of the address that four bytes are mapped to. -/
def mappedBytes (v : Bytes) : Bytes := List.replicate 10 0 ++ [0xff, 0xff] ++ v

/-- The bytes of the address that four bytes are compatible with. -/
def compatibleBytes (v : Bytes) : Bytes := List.replicate 12 0 ++ v

/-- A group is zero if both of its bytes are. -/
theorem Group.ofBytes_eq_zero_iff {high low : UInt8} :
    ofBytes high low = 0 ↔ high = 0 ∧ low = 0 := by
  refine ⟨fun h => ⟨?_, ?_⟩, fun ⟨hhigh, hlow⟩ => by rw [hhigh, hlow]; rfl⟩
  · rw [← high_ofBytes high low, h]
    rfl
  · rw [← low_ofBytes high low, h]
    rfl

/-! ## Addresses -/

/-- Octets alone are written as they are without colons. -/
theorem Chain.text_octets (a : V4) : (Chain.mk [] (some a)).text = a.text :=
  List.intercalate_singleton

/-- A colon stands between a group and the octets behind it. -/
theorem Chain.text_hextet_octets (x : Hextet) (a : V4) :
    (Chain.mk [x] (some a)).text = x.digits ++ [Text.colon] ++ a.text := by
  rw [← text_octets a]
  exact List.intercalate_cons_of_ne_nil (List.cons_ne_nil _ _)

/-- An address that begins with the run to leave out is written with the gap ahead of the rest. -/
theorem V6.text_of_leading {a : V6} {n : Nat} {g : Group} {rest : List Group}
    (hgroups : a.groups = List.replicate n 0 ++ g :: rest) (hn : 2 ≤ n) (hg : g ≠ 0)
    (hrest : rest.length ≤ n) :
    a.text = Spelling.gap ++ (Chain.behind 0 (g :: rest)).text := by
  have hrun : ZeroRun.longest a.groups = ⟨0, n⟩ :=
    hgroups ▸ ZeroRun.isFirstLongest_iff.1 (ZeroRun.isFirstLongest_replicate hg hrest)
  rw [text, spelling_of_le hrun hn, hgroups, Nat.zero_add, List.drop_left' List.length_replicate]
  rfl

namespace V4

/-- The IPv6 address that an IPv4 address is mapped to. -/
def mapped (a : V4) : V6 := ⟨List.replicate 5 0 ++ 0xffff :: a.groups, rfl⟩

/-- The IPv6 address that an IPv4 address is compatible with. -/
def compatible (a : V4) : V6 := ⟨List.replicate 6 0 ++ a.groups, rfl⟩

/-- The octets are made of their groups. -/
theorem ofGroups_groups (a : V4) :
    ofGroups (.ofBytes a.first a.second) (.ofBytes a.third a.fourth) = a := by
  simp [ofGroups]

theorem flatMap_bytes_groups (a : V4) : a.groups.flatMap Group.bytes = a.octets := by
  simp [groups, Group.bytes, octets]

theorem bytes_mapped (a : V4) : a.mapped.bytes = mappedBytes a.octets := by
  rw [V6.bytes, mapped, List.flatMap_append, List.flatMap_cons, flatMap_bytes_groups]
  rfl

theorem bytes_compatible (a : V4) : a.compatible.bytes = compatibleBytes a.octets := by
  rw [V6.bytes, compatible, List.flatMap_append, flatMap_bytes_groups]
  rfl

/-- A mapped address is written with its octets. -/
theorem text_mapped (a : V4) : a.mapped.text = Text.ofString "::ffff:" ++ a.text := by
  -- Behind `ffff` there are two groups, which cannot be a longer run than the five zeros.
  have hrest : a.groups.length ≤ 5 := by
    show 2 ≤ 5
    omega
  have hbehind : Chain.behind 0 (0xffff :: a.groups) = ⟨[.shortest 0xffff], some a⟩ := by
    rw [groups, Chain.behind, ofGroups_groups]
  rw [V6.text_of_leading (a := a.mapped) rfl (by omega) (by decide) hrest, hbehind,
    Chain.text_hextet_octets, ← List.append_assoc]
  rfl

/-- A compatible address is written with its octets if the first group that they fill is not zero,
    which is where the run of zeros ends. -/
theorem text_compatible {a : V4} (h : Group.ofBytes a.first a.second ≠ 0) :
    a.compatible.text = Text.ofString "::" ++ a.text := by
  have hrest : [Group.ofBytes a.third a.fourth].length ≤ 6 := by
    show 1 ≤ 6
    omega
  have hbehind : Chain.behind 0 a.groups = ⟨[], some a⟩ := by
    rw [groups, Chain.behind, ofGroups_groups]
  rw [V6.text_of_leading (a := a.compatible) rfl (by omega) h hrest, ← groups, hbehind,
    Chain.text_octets]
  rfl

/-- A compatible address is written without octets if the first group that they fill is zero: the
    run of zeros takes seven groups at least. -/
theorem dot_not_mem_text_compatible {a : V4} (h : Group.ofBytes a.first a.second = 0) :
    Text.dot ∉ a.compatible.text := by
  have hgroups : a.compatible.groups = List.replicate 7 0 ++ [.ofBytes a.third a.fourth] := by
    show List.replicate 6 0 ++ [Group.ofBytes a.first a.second, _] = _
    rw [h]
    rfl
  have hrun : ZeroRun.IsRun a.compatible.groups 0 7 := ⟨[], _, rfl, hgroups⟩
  intro hdot
  rcases V6.dot_mem_text_iff.1 hdot with hlongest | ⟨hlongest, _⟩
  · exact absurd (hlongest.longest 0 7 hrun) (by omega)
  · exact absurd (hlongest.longest 0 7 hrun) (by omega)

/-- A compatible address is written with its octets exactly if the first two are not both zero. -/
theorem text_compatible_iff {a : V4} :
    a.compatible.text = Text.ofString "::" ++ a.text ↔ ¬ (a.first = 0 ∧ a.second = 0) := by
  rw [← Group.ofBytes_eq_zero_iff]
  refine ⟨fun htext h => dot_not_mem_text_compatible h ?_, text_compatible⟩
  rw [htext]
  exact List.mem_append_right _ a.dot_mem_text

end V4

/-! ## Texts -/

variable {t : Text}

/-- Between the colons of a spelling, what holds a dot is the text of an IPv4 address. -/
theorem Spelling.exists_v4_of_mem_splitOn {s : Spelling} {f : Text}
    (hf : f ∈ s.text.splitOn Text.colon) (hdot : Text.dot ∈ f) : ∃ a : V4, a.text = f := by
  have hfield := (mem_splitOn_text_iff (List.ne_nil_of_mem hdot)).1 hf
  rcases Chain.mem_fields.1 hfield with ⟨x, _, rfl⟩ | ⟨a, _, ha⟩
  · exact absurd hdot (x.standsFor.not_mem rfl)
  · exact ⟨a, ha⟩

/-- What is read with a dot in it behind `::ffff:` is the text of an IPv4 address. -/
theorem exists_text_of_ofText? (hdot : Text.dot ∈ t) (hcolon : Text.colon ∉ t) {a : Address}
    (h : Address.ofText? (Text.ofString "::ffff:" ++ t) = some a) : ∃ v : V4, v.text = t := by
  cases a with
  | v4 a =>
    refine absurd ?_ a.colon_not_mem_text
    rw [← Address.ofText?_eq_v4_iff.1 h]
    exact List.mem_append_left _ (by decide)
  | v6 a =>
    obtain ⟨s, _, hs⟩ := Address.ofText?_eq_v6_iff.1 h
    apply Spelling.exists_v4_of_mem_splitOn (s := s) _ hdot
    -- The last colon ahead of the text is where it is split off, having none itself.
    have htext : Text.ofString "::ffff:" ++ t = Text.ofString "::ffff" ++ Text.colon :: t := rfl
    rw [← hs, htext, Text.splitOn_append_cons hcolon]
    exact List.mem_append_right _ (List.mem_singleton_self t)

/-- Octets are read behind `::ffff:` exactly as they are read alone. -/
theorem parse_mapped (hdot : Text.dot ∈ t) (hcolon : Text.colon ∉ t) :
    parse (Text.ofString "::ffff:" ++ t) = (parse t).map mappedBytes := by
  by_cases hv : ∃ v : V4, v.text = t
  · obtain ⟨v, rfl⟩ := hv
    have halone : parse v.text = .ok v.octets := parse_of_render (render_bytes (.v4 v))
    have hmapped : parse v.mapped.text = .ok v.mapped.bytes :=
      parse_of_render (render_bytes (.v6 v.mapped))
    rw [halone, ← v.text_mapped, hmapped, v.bytes_mapped]
    rfl
  · have halone : Address.ofText? t = none := Option.eq_none_iff_forall_ne_some.2 fun a ha =>
      hv ((exists_v4_of_ofText? hcolon ha).imp fun _ h => h.2)
    have hbehind : Address.ofText? (Text.ofString "::ffff:" ++ t) = none :=
      Option.eq_none_iff_forall_ne_some.2 fun _ ha => hv (exists_text_of_ofText? hdot hcolon ha)
    rw [parse_eq_error_iff.2 halone, parse_eq_error_iff.2 hbehind]
    rfl

/-- A mapped address is written as its four bytes are, with `::ffff:` ahead, and a compatible one
    with `::` ahead unless its first two bytes are zeros. Behind `::ffff:`, a text with a dot and
    without a colon is read as the address that its own four bytes are mapped to, and refused if it
    is refused alone. -/
theorem render_parse_mapped :
    (∀ v : Bytes, v.length = 4 → ∃ t, render v = .ok t ∧
      render (mappedBytes v) = .ok (Text.ofString "::ffff:" ++ t) ∧
      (render (compatibleBytes v) = .ok (Text.ofString "::" ++ t) ↔ v.take 2 ≠ [0, 0])) ∧
    ∀ t, Text.dot ∈ t → Text.colon ∉ t →
      parse (Text.ofString "::ffff:" ++ t) = (parse t).map mappedBytes := by
  refine ⟨fun v hv => ?_, fun t => parse_mapped⟩
  obtain ⟨w, x, y, z, rfl⟩ := List.length_eq_four.1 hv
  let a : V4 := ⟨w, x, y, z⟩
  refine ⟨a.text, render_bytes (.v4 a), ?_, ?_⟩
  · have hmapped := render_bytes (.v6 a.mapped)
    rwa [Address.bytes, V4.bytes_mapped, Address.text, V4.text_mapped] at hmapped
  · have hcompatible := render_bytes (.v6 a.compatible)
    rw [Address.bytes, V4.bytes_compatible, Address.text] at hcompatible
    rw [show compatibleBytes [w, x, y, z] = compatibleBytes a.octets from rfl, hcompatible,
      Except.ok.injEq, V4.text_compatible_iff]
    simp [a]

/-- Octets that begin with zeros, which make the run of a compatible address longer. -/
theorem render_parse_mapped_leading_zeros :
    let v : Bytes := [0, 0, 0, 9]
    let t := Text.ofString "0.0.0.9"
    v.length = 4 ∧
      (∃ u, render v = .ok u ∧ render (mappedBytes v) = .ok (Text.ofString "::ffff:" ++ u) ∧
        (render (compatibleBytes v) = .ok (Text.ofString "::" ++ u) ↔ v.take 2 ≠ [0, 0])) ∧
      Text.dot ∈ t ∧ Text.colon ∉ t ∧
      parse (Text.ofString "::ffff:" ++ t) = (parse t).map mappedBytes :=
  ⟨rfl, render_parse_mapped.1 _ rfl, by decide, by decide,
    render_parse_mapped.2 _ (by decide) (by decide)⟩

/-- A zero to spare is refused behind `::ffff:` too. -/
example : parse (Text.ofString "::ffff:192.0.2.010") = .error .invalidAddress := by decide

end Addressing.Ip
