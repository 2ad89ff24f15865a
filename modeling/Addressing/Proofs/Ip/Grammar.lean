import Addressing.Proofs.Ip.Address
import Mathlib.Data.List.Forall2

/-!
# The grammar of IPv6 addresses

Which texts are spellings of eight groups, as a grammar, without a word on how a text is read:

* a group is one to four digits, with letters in either case (`IsHextet`);
* groups are joined by colons, and the last two may be four decimal numbers joined by dots
  (`Parts`);
* one run of zeros, of one group at least, may be left out, with `::` in its place (`IsSpelling`).

The texts with a colon that are read as an address are the spellings of this grammar and no
others, and no text is a spelling of two addresses (`parse_eq_ok_iff_isSpelling`). The grammar
sets no limit to the length of a text.
-/

namespace Addressing.Ip

/-! ## The grammar -/

/-- The digits of a group. -/
def IsHextet (g : Group) (f : Text) : Prop :=
  1 ≤ f.length ∧ f.length ≤ 4 ∧ Numeral.StandsFor 16 f g.toNat

/-- The decimal number of an octet, without a zero to spare. -/
def IsOctet (o : UInt8) (f : Text) : Prop :=
  f ≠ [] ∧ Numeral.Plain f ∧ Numeral.StandsFor 10 f o.toNat

/-- Groups and the parts that are written for them, one for each group or one for the last two. -/
inductive Parts : List Group → List Text → Prop
  | nil : Parts [] []
  | hextet {g : Group} {gs : List Group} {f : Text} {fs : List Text} :
      IsHextet g f → Parts gs fs → Parts (g :: gs) (f :: fs)
  | octets {o₁ o₂ o₃ o₄ : UInt8} {f₁ f₂ f₃ f₄ : Text} :
      IsOctet o₁ f₁ → IsOctet o₂ f₂ → IsOctet o₃ f₃ → IsOctet o₄ f₄ →
      Parts [.ofBytes o₁ o₂, .ofBytes o₃ o₄]
        [f₁ ++ [Text.dot] ++ f₂ ++ [Text.dot] ++ f₃ ++ [Text.dot] ++ f₄]

/-- Eight groups and a text that spells them: all of them joined by colons, or those ahead of a run
    of zeros and those behind it, with two colons for the run. -/
inductive IsSpelling : List Group → Text → Prop
  | full {gs : List Group} {fs : List Text} :
      gs.length = 8 → Parts gs fs → IsSpelling gs ([Text.colon].intercalate fs)
  | gapped {ahead behind : List Group} {fs fs' : List Text} {n : Nat} :
      1 ≤ n → ahead.length + n + behind.length = 8 →
      List.Forall₂ IsHextet ahead fs → Parts behind fs' →
      IsSpelling (ahead ++ List.replicate n 0 ++ behind)
        ([Text.colon].intercalate fs ++ [Text.colon, Text.colon] ++ [Text.colon].intercalate fs')

/-! ## Reading by the grammar -/

theorem isHextet_iff {g : Group} {f : Text} :
    IsHextet g f ↔ ∃ x : Hextet, x.group = g ∧ x.digits = f := by
  constructor
  · rintro ⟨hpos, hle, h⟩
    exact ⟨⟨f, g, ⟨hpos, hle⟩, Numeral.read?_eq_some_iff.2 h⟩, rfl, rfl⟩
  · rintro ⟨x, rfl, rfl⟩
    exact ⟨x.length_mem.1, x.length_mem.2, x.standsFor⟩

theorem isOctet_iff {o : UInt8} {f : Text} : IsOctet o f ↔ f = Numeral.write 10 o.toNat := by
  rw [Numeral.eq_write_ten_iff, IsOctet]
  tauto

theorem forall₂_isHextet_iff {gs : List Group} {fs : List Text} :
    List.Forall₂ IsHextet gs fs ↔
      ∃ xs : List Hextet, xs.map (·.group) = gs ∧ xs.map (·.digits) = fs := by
  constructor
  · intro h
    induction h with
    | nil => exact ⟨[], rfl, rfl⟩
    | cons hx _ ih =>
      obtain ⟨x, rfl, rfl⟩ := isHextet_iff.1 hx
      obtain ⟨xs, rfl, rfl⟩ := ih
      exact ⟨x :: xs, rfl, rfl⟩
  · rintro ⟨xs, rfl, rfl⟩
    rw [List.forall₂_map_left_iff, List.forall₂_map_right_iff, List.forall₂_same]
    exact fun x _ => isHextet_iff.2 ⟨x, rfl, rfl⟩

/-- Parts of the grammar are the parts of a chain. -/
theorem parts_iff {gs : List Group} {fs : List Text} :
    Parts gs fs ↔ ∃ c : Chain, c.groups = gs ∧ c.fields = fs := by
  constructor
  · intro h
    induction h with
    | nil => exact ⟨⟨[], none⟩, rfl, rfl⟩
    | hextet hx _ ih =>
      obtain ⟨x, rfl, rfl⟩ := isHextet_iff.1 hx
      obtain ⟨c, rfl, rfl⟩ := ih
      exact ⟨⟨x :: c.hextets, c.octets⟩, rfl, rfl⟩
    | @octets o₁ o₂ o₃ o₄ _ _ _ _ h₁ h₂ h₃ h₄ =>
      rw [isOctet_iff.1 h₁, isOctet_iff.1 h₂, isOctet_iff.1 h₃, isOctet_iff.1 h₄]
      exact ⟨⟨[], some ⟨o₁, o₂, o₃, o₄⟩⟩, rfl, congrArg (fun t => [t]) (V4.text_eq_append _)⟩
  · rintro ⟨⟨xs, o⟩, rfl, rfl⟩
    induction xs with
    | nil =>
      cases o with
      | none => exact .nil
      | some a =>
        have h : ∀ o, IsOctet o (Numeral.write 10 o.toNat) := fun o => isOctet_iff.2 rfl
        show Parts a.groups [a.text]
        rw [a.text_eq_append]
        exact .octets (h _) (h _) (h _) (h _)
    | cons x xs ih => exact .hextet (isHextet_iff.2 ⟨x, rfl, rfl⟩) ih

/-- Spellings of the grammar are spellings of an address. -/
theorem isSpelling_iff {gs : List Group} {t : Text} :
    IsSpelling gs t ↔ ∃ a, Address.ofText? t = some (.v6 a) ∧ a.groups = gs := by
  simp only [Address.ofText?_eq_v6_iff]
  constructor
  · intro h
    rcases h with ⟨hlen, hparts⟩ | ⟨hn, hlen, hahead, hbehind⟩
    · obtain ⟨c, hgroups, rfl⟩ := parts_iff.1 hparts
      exact ⟨⟨gs, hlen⟩, ⟨.full c, Spelling.address?_full_eq_some_iff.2 hgroups.symm, rfl⟩, rfl⟩
    · obtain ⟨xs, rfl, rfl⟩ := forall₂_isHextet_iff.1 hahead
      obtain ⟨c, rfl, rfl⟩ := parts_iff.1 hbehind
      obtain ⟨n, rfl⟩ := Nat.exists_eq_add_of_le' hn
      refine ⟨⟨_, ?_⟩, ⟨.gapped xs c, Spelling.address?_gapped_eq_some_iff.2 ⟨n, rfl⟩, ?_⟩, rfl⟩
      · rw [List.length_append, List.length_append, List.length_replicate, hlen]
      · rw [Spelling.text, Chain.text, Chain.fields_none]
        rfl
  · rintro ⟨a, ⟨s, ha, rfl⟩, rfl⟩
    cases s with
    | full c =>
      exact .full a.length_groups
        (parts_iff.2 ⟨c, (Spelling.address?_full_eq_some_iff.1 ha).symm, rfl⟩)
    | gapped ahead behind =>
      obtain ⟨n, hn⟩ := Spelling.address?_gapped_eq_some_iff.1 ha
      have hlen := congrArg List.length hn
      rw [a.length_groups, List.length_append, List.length_append, List.length_replicate] at hlen
      rw [hn, Spelling.text, Chain.text, Chain.fields_none]
      exact .gapped (Nat.le_add_left 1 n) hlen.symm (forall₂_isHextet_iff.2 ⟨ahead, rfl, rfl⟩)
        (parts_iff.2 ⟨behind, rfl, rfl⟩)

/-- No text spells two addresses. -/
theorem IsSpelling.unique {gs gs' : List Group} {t : Text} (h : IsSpelling gs t)
    (h' : IsSpelling gs' t) : gs = gs' := by
  obtain ⟨a, ha, rfl⟩ := isSpelling_iff.1 h
  obtain ⟨a', ha', rfl⟩ := isSpelling_iff.1 h'
  rw [ha] at ha'
  rw [Address.v6.inj (Option.some.inj ha')]

/-- Sixteen bytes are parsed from the spellings of their groups. -/
theorem parse_eq_ok_of_isSpelling {b : Bytes} {t : Text} (hb : b.length = 16)
    (h : IsSpelling (Group.ofAllBytes b) t) : parse t = .ok b := by
  obtain ⟨a, ha, hgroups⟩ := isSpelling_iff.1 h
  refine parse_eq_ok_iff.2 ⟨.v6 a, ha, ?_⟩
  rw [Address.bytes, V6.bytes, hgroups, Group.flatMap_bytes_ofAllBytes (by omega)]

/-- What is parsed from a text with a colon are the bytes of the groups that it spells. -/
theorem isSpelling_of_parse {b : Bytes} {t : Text} (ht : Text.colon ∈ t) (h : parse t = .ok b) :
    b.length = 16 ∧ IsSpelling (Group.ofAllBytes b) t := by
  obtain ⟨a | a, ha, rfl⟩ := parse_eq_ok_iff.1 h
  · rw [Address.ofText?_eq_v4_iff.1 ha] at ht
    exact absurd ht a.colon_not_mem_text
  · refine ⟨a.length_bytes, isSpelling_iff.2 ⟨a, ha, ?_⟩⟩
    exact (Group.ofAllBytes_flatMap_bytes a.groups).symm

/-- A text with a colon is read as the sixteen bytes that it spells; it spells one address at most,
    and if it spells none it is refused. -/
theorem parse_eq_ok_iff_isSpelling {t : Text} (ht : Text.colon ∈ t) :
    (∀ b, parse t = .ok b ↔ b.length = 16 ∧ IsSpelling (Group.ofAllBytes b) t) ∧
      (∀ gs gs', IsSpelling gs t → IsSpelling gs' t → gs = gs') ∧
      (parse t = .error .invalidAddress ↔ ∀ gs, ¬ IsSpelling gs t) := by
  refine ⟨fun b => ⟨isSpelling_of_parse ht, fun h => parse_eq_ok_of_isSpelling h.1 h.2⟩,
    fun gs gs' h h' => h.unique h', ?_⟩
  rw [parse_eq_error_iff]
  constructor
  · intro h gs hs
    obtain ⟨a, ha, _⟩ := isSpelling_iff.1 hs
    rw [h] at ha
    cases ha
  · intro h
    rw [Option.eq_none_iff_forall_ne_some]
    rintro (a | a) ha
    · rw [Address.ofText?_eq_v4_iff.1 ha] at ht
      exact V4.not_mem_text rfl (by decide) ht
    · exact h a.groups (isSpelling_iff.2 ⟨a, ha, rfl⟩)

/-- A text with a gap, with digits to spare, and with octets at its end. -/
theorem parse_eq_ok_iff_isSpelling_octets :
    let t := Text.ofString "00aB::fFFf:10.0.255.0"
    Text.colon ∈ t ∧
      (∀ b, parse t = .ok b ↔ b.length = 16 ∧ IsSpelling (Group.ofAllBytes b) t) ∧
      (∀ gs gs', IsSpelling gs t → IsSpelling gs' t → gs = gs') ∧
      (parse t = .error .invalidAddress ↔ ∀ gs, ¬ IsSpelling gs t) :=
  ⟨by decide, parse_eq_ok_iff_isSpelling (by decide)⟩

/-- Eight groups leave nothing for a gap to stand for. -/
example : parse (Text.ofString "1:2:3:4:5:6:7::8") = .error .invalidAddress := by decide

end Addressing.Ip
