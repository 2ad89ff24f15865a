import Addressing.Proofs.Ip.Grammar

/-!
# The canonical spelling

Of the many spellings of an address one is canonical (`IsCanonical`):

* its letters are small, and no group has a zero to spare;
* it has a gap exactly if two groups in a row are zeros, and the gap is the longest run of zeros,
  the first of those that are equally long;
* its last two groups are octets exactly if that run is all groups ahead of them, or all but a
  group `ffff`, and begins with the first group.

All of this is said of the text alone. The canonical spelling is the one that is written
(`render_eq_ok_iff_isCanonical`), so that there is one for each address.

* `Spelling.written`: what a spelling writes, the gap aside, and `Spelling.mem_splitOn_text_iff`,
  how it shows in the text.
* `IsCanonical.unique`: an address has one canonical spelling at most.
* `V6.isCanonical_text`: the spelling that is written is canonical.
-/

namespace Addressing.Ip

/-! ## What a text shows of its spelling -/

/-- The hextet that spends no digit is the one in small letters without a zero to spare. -/
theorem Hextet.eq_shortest_iff {x : Hextet} :
    x = shortest x.group ↔ x.digits.lower = x.digits ∧ Numeral.Plain x.digits := by
  have hdigits : x = shortest x.group ↔ x.digits = Numeral.write 16 x.group.toNat :=
    ⟨fun h => congrArg digits h, fun h => ext_digits (x := x) (y := shortest x.group) h⟩
  rw [hdigits, Numeral.eq_write_iff (by omega) (by omega)]
  exact ⟨fun h => h.2.2, fun h => ⟨x.standsFor, x.digits_ne_nil, h⟩⟩

/-- Hextets that are written for groups spend no digit. -/
theorem Hextet.eq_shortest_of_mem {gs : List Group} :
    ∀ x ∈ gs.map Hextet.shortest, x = shortest x.group := by
  intro x hx
  obtain ⟨g, _, rfl⟩ := List.mem_map.1 hx
  rfl

namespace Spelling

variable {s : Spelling}

/-- What is written of an address, the gap aside. -/
def written : Spelling → Chain
  | full chain => chain
  | gapped ahead behind => ⟨ahead ++ behind.hextets, behind.octets⟩

theorem fields_written_gapped (ahead : List Hextet) (behind : Chain) :
    (gapped ahead behind).written.fields = ahead.map (·.digits) ++ behind.fields := by
  rw [written, Chain.fields, List.map_append, List.append_assoc, ← Chain.fields]

/-- A text splits at its colons into the parts that are written, and empty ones beside a gap. -/
theorem mem_splitOn_text_iff {f : Text} (hf : f ≠ []) :
    f ∈ s.text.splitOn Text.colon ↔ f ∈ s.written.fields := by
  have hchain : ∀ c : Chain, f ∈ c.text.splitOn Text.colon ↔ f ∈ c.fields := by
    intro c
    rcases eq_or_ne c.fields [] with hc | hc
    · rw [Chain.text_eq_nil_iff.2 hc, hc, List.splitOn_nil, List.mem_singleton]
      exact iff_of_false hf List.not_mem_nil
    · rw [Chain.splitOn_text hc]
  cases s with
  | full chain => exact hchain chain
  | gapped ahead behind =>
    have hgap : (gapped ahead behind).text =
        (Chain.mk ahead none).text ++ [Text.colon, Text.colon] ++ behind.text := rfl
    rw [hgap, Text.splitOn_append_pair, List.mem_append, List.mem_cons, hchain, hchain,
      Chain.fields_none, fields_written_gapped, List.mem_append]
    -- Between the colons of the gap there is an empty part, which is not written.
    exact or_congr_right (or_iff_right hf)

/-- Other than colons, all bytes of a text are of the parts that are written. -/
theorem mem_text_iff {b : UInt8} (hb : b ≠ Text.colon) :
    b ∈ s.text ↔ ∃ f ∈ s.written.fields, b ∈ f := by
  rw [Text.mem_iff_splitOn hb]
  constructor
  · rintro ⟨f, hf, hmem⟩
    exact ⟨f, (mem_splitOn_text_iff (List.ne_nil_of_mem hmem)).1 hf, hmem⟩
  · rintro ⟨f, hf, hmem⟩
    exact ⟨f, (mem_splitOn_text_iff (List.ne_nil_of_mem hmem)).2 hf, hmem⟩

/-- A text has a dot exactly if octets are written. -/
theorem dot_mem_text_iff : Text.dot ∈ s.text ↔ s.written.octets ≠ none := by
  rw [mem_text_iff (by decide), Option.ne_none_iff_exists']
  constructor
  · rintro ⟨f, hf, hdot⟩
    rcases Chain.mem_fields.1 hf with ⟨x, _, rfl⟩ | ⟨a, ha, rfl⟩
    · exact absurd hdot (x.standsFor.not_mem rfl)
    · exact ⟨a, ha⟩
  · rintro ⟨a, ha⟩
    exact ⟨a.text, Chain.mem_fields.2 (.inr ⟨a, ha, rfl⟩), a.dot_mem_text⟩

/-- The parts without a dot are the hextets. -/
theorem plain_text_iff :
    (∀ f ∈ s.text.splitOn Text.colon, Text.dot ∉ f → Numeral.Plain f) ↔
      ∀ x ∈ s.written.hextets, Numeral.Plain x.digits := by
  constructor
  · intro h x hx
    have hf : x.digits ∈ s.written.fields := Chain.mem_fields.2 (.inl ⟨x, hx, rfl⟩)
    exact h _ ((mem_splitOn_text_iff x.digits_ne_nil).2 hf) (x.standsFor.not_mem rfl)
  · intro h f hf hdot
    rcases eq_or_ne f [] with rfl | hne
    · exact fun hzero => absurd hzero (by simp)
    · rcases Chain.mem_fields.1 ((mem_splitOn_text_iff hne).1 hf) with ⟨x, hx, rfl⟩ | ⟨a, _, rfl⟩
      · exact h x hx
      · exact absurd a.dot_mem_text hdot

/-- The letters of a text are those of its hextets. -/
theorem lower_text_iff :
    s.text.lower = s.text ↔ ∀ x ∈ s.written.hextets, x.digits.lower = x.digits := by
  simp only [Text.lower_eq_iff]
  constructor
  · intro h x hx b hb
    have hf : x.digits ∈ s.written.fields := Chain.mem_fields.2 (.inl ⟨x, hx, rfl⟩)
    have hcolon : b ≠ Text.colon := fun hc => x.standsFor.not_mem rfl (hc ▸ hb)
    exact h b ((mem_text_iff hcolon).2 ⟨_, hf, hb⟩)
  · intro h b hb
    rcases eq_or_ne b Text.colon with rfl | hcolon
    · rfl
    · obtain ⟨f, hf, hb⟩ := (mem_text_iff hcolon).1 hb
      rcases Chain.mem_fields.1 hf with ⟨x, hx, rfl⟩ | ⟨a, _, rfl⟩
      · exact h x hx b hb
      · exact Text.lower_eq_iff.1 a.lower_text b hb

/-- A text holds `::` exactly if there is a gap. -/
theorem gap_infix_text_iff : gap <:+: s.text ↔ ∃ ahead behind, s = gapped ahead behind := by
  cases s with
  | full chain => exact iff_of_false chain.not_gap_infix_text (by simp)
  | gapped ahead behind =>
    exact iff_of_true (List.infix_append _ _ _) ⟨ahead, behind, rfl⟩

end Spelling

/-! ## Canonical texts -/

/-- A text writes all of some groups: their parts are joined by colons. -/
def Writes (gs : List Group) (t : Text) : Prop :=
  ∃ fs, Parts gs fs ∧ t = [Text.colon].intercalate fs

/-- The spelling `t` of the groups `gs` is the canonical one. -/
structure IsCanonical (gs : List Group) (t : Text) : Prop where
  /-- Letters are small. -/
  lower : t.lower = t
  /-- Groups have no zero to spare. -/
  plain : ∀ f ∈ t.splitOn Text.colon, Text.dot ∉ f → Numeral.Plain f
  /-- There is a gap exactly if there are two zeros in a row. -/
  gap_iff : Spelling.gap <:+: t ↔ ∃ i, ZeroRun.IsRun gs i 2
  /-- The gap is the whole of the first of the longest runs: what is ahead of it writes the groups
      ahead of that run, and what is behind it writes those behind. -/
  gap_run : ∀ i n, 2 ≤ n → ZeroRun.IsFirstLongest gs i n →
    ∃ ahead behind, t = ahead ++ Spelling.gap ++ behind ∧
      Writes (gs.take i) ahead ∧ Writes (gs.drop (i + n)) behind
  /-- Octets are written exactly if the run is all that is ahead of them, or all but a group
      `ffff`. -/
  dot_iff : Text.dot ∈ t ↔ ZeroRun.IsFirstLongest gs 0 6 ∨
    ZeroRun.IsFirstLongest gs 0 5 ∧ gs[5]? = some 0xffff

theorem writes_iff {gs : List Group} {t : Text} :
    Writes gs t ↔ ∃ c : Chain, c.groups = gs ∧ c.text = t := by
  constructor
  · rintro ⟨fs, hfs, rfl⟩
    obtain ⟨c, hgroups, rfl⟩ := parts_iff.1 hfs
    exact ⟨c, hgroups, rfl⟩
  · rintro ⟨c, rfl, rfl⟩
    exact ⟨c.fields, parts_iff.2 ⟨c, rfl, rfl⟩, rfl⟩

/-- A text writes the groups of one chain at most. -/
theorem Chain.writes_text_iff {c : Chain} {gs : List Group} : Writes gs c.text ↔ c.groups = gs := by
  rw [writes_iff]
  constructor
  · rintro ⟨c', rfl, htext⟩
    have hc := ofText?_eq_some_iff.2 htext.symm
    rw [ofText?_eq_some_iff.2 rfl] at hc
    rw [Option.some.inj hc]
  · exact fun h => ⟨c, h, rfl⟩

/-- The two sides of a gap are told apart by the text. -/
theorem Spelling.exists_sides_iff {ahead : List Hextet} {behind : Chain} {gs gs' : List Group} :
    (∃ p q, (gapped ahead behind).text = p ++ gap ++ q ∧ Writes gs p ∧ Writes gs' q) ↔
      ahead.map (·.group) = gs ∧ behind.groups = gs' := by
  have hcut : ∀ (c : Chain) (q : Text), Text.cut gap (c.text ++ gap ++ q) = some (c.text, q) :=
    fun c q => Text.cut_append (by decide) c.not_gap_infix_text_concat
  constructor
  · rintro ⟨p, q, htext, hp, hq⟩
    obtain ⟨c, rfl, rfl⟩ := writes_iff.1 hp
    -- Both ways of writing the text are cut at their gap, and the text is cut in one way.
    have h := hcut ⟨ahead, none⟩ behind.text
    rw [show (Chain.mk ahead none).text ++ gap ++ behind.text = _ from htext, hcut] at h
    obtain ⟨hc, rfl⟩ := Prod.mk.inj (Option.some.inj h)
    rw [hc] at hp
    rw [← Chain.writes_text_iff.1 hp, Chain.writes_text_iff.1 hq, Chain.groups_none]
    exact ⟨rfl, rfl⟩
  · rintro ⟨rfl, rfl⟩
    refine ⟨(Chain.mk ahead none).text, behind.text, rfl, ?_, Chain.writes_text_iff.2 rfl⟩
    exact Chain.writes_text_iff.2 (Chain.groups_none ahead)

/-! ## One canonical spelling at most -/

/-- Hextets that spend no digit are told by their groups. -/
theorem eq_map_shortest {xs : List Hextet} (h : ∀ x ∈ xs, x = .shortest x.group) :
    xs = (xs.map (·.group)).map .shortest := by
  rw [List.map_map]
  exact (List.map_id xs).symm.trans (List.map_congr_left h)

/-- Chains that spend no digit are told by their groups, and by whether they have octets. -/
theorem Chain.eq_of_shortest {c c' : Chain} (hc : ∀ x ∈ c.hextets, x = .shortest x.group)
    (hc' : ∀ x ∈ c'.hextets, x = .shortest x.group) (hgroups : c.groups = c'.groups)
    (hoctets : c.octets ≠ none ↔ c'.octets ≠ none) : c = c' := by
  obtain ⟨xs, o⟩ := c
  obtain ⟨xs', o'⟩ := c'
  have hxs : xs = (xs.map (·.group)).map .shortest := eq_map_shortest hc
  have hxs' : xs' = (xs'.map (·.group)).map .shortest := eq_map_shortest hc'
  have heq : xs.map (·.group) = xs'.map (·.group) → xs = xs' := fun h => by
    rw [hxs, h, ← hxs']
  -- Without octets the groups are all of the hextets; with them, the last two are of the octets.
  rcases o with _ | a <;> rcases o' with _ | a'
  · rw [heq (by simpa using hgroups)]
  · simp at hoctets
  · simp at hoctets
  · obtain ⟨hxs, hv⟩ := List.append_inj' hgroups rfl
    have ha : a = a' := V4.groups_injective (by simpa using hv)
    rw [heq hxs, ha]

namespace IsCanonical

variable {a : V6} {s s' : Spelling}

/-- A canonical text spends no digit. -/
theorem shortest {gs : List Group} (h : IsCanonical gs s.text) :
    ∀ x ∈ s.written.hextets, x = .shortest x.group := fun x hx =>
  Hextet.eq_shortest_iff.2
    ⟨Spelling.lower_text_iff.1 h.lower x hx, Spelling.plain_text_iff.1 h.plain x hx⟩

/-- An address has one canonical spelling at most. -/
theorem unique (hs : s.address? = some a) (hs' : s'.address? = some a)
    (h : IsCanonical a.groups s.text) (h' : IsCanonical a.groups s'.text) : s = s' := by
  have hoctets : s.written.octets ≠ none ↔ s'.written.octets ≠ none := by
    rw [← Spelling.dot_mem_text_iff, ← Spelling.dot_mem_text_iff, h.dot_iff, h'.dot_iff]
  have hgap : (∃ ahead behind, s = .gapped ahead behind) ↔
      ∃ ahead behind, s' = .gapped ahead behind := by
    rw [← Spelling.gap_infix_text_iff, ← Spelling.gap_infix_text_iff, h.gap_iff, h'.gap_iff]
  cases s with
  | full c => cases s' with
    | full c' =>
      have hgroups : c.groups = c'.groups := by
        rw [← Spelling.address?_full_eq_some_iff.1 hs, Spelling.address?_full_eq_some_iff.1 hs']
      exact congrArg Spelling.full (Chain.eq_of_shortest h.shortest h'.shortest hgroups hoctets)
    | gapped ahead' behind' => simp at hgap
  | gapped ahead behind => cases s' with
    | full c' => simp at hgap
    | gapped ahead' behind' =>
      -- Both gaps are the first of the longest runs, so that both have the same sides.
      have hrun := ZeroRun.isFirstLongest_longest a.groups
      have hle := ZeroRun.exists_isRun_iff.1
        (h.gap_iff.1 (Spelling.gap_infix_text_iff.2 ⟨ahead, behind, rfl⟩))
      obtain ⟨hahead, hbehind⟩ := Spelling.exists_sides_iff.1 (h.gap_run _ _ hle hrun)
      obtain ⟨hahead', hbehind'⟩ := Spelling.exists_sides_iff.1 (h'.gap_run _ _ hle hrun)
      have hshort : ∀ x ∈ ahead, x = .shortest x.group := fun x hx =>
        h.shortest x (List.mem_append_left _ hx)
      have hshort' : ∀ x ∈ ahead', x = .shortest x.group := fun x hx =>
        h'.shortest x (List.mem_append_left _ hx)
      have ha : ahead = ahead' := by
        rw [eq_map_shortest hshort, hahead, ← hahead', ← eq_map_shortest hshort']
      have hb : behind = behind' :=
        Chain.eq_of_shortest (fun x hx => h.shortest x (List.mem_append_right _ hx))
          (fun x hx => h'.shortest x (List.mem_append_right _ hx)) (hbehind.trans hbehind'.symm)
          hoctets
      rw [ha, hb]

end IsCanonical

/-! ## The spelling that is written -/

/-- Behind a gap, no digit is spent. -/
theorem Chain.shortest_behind (start : Nat) (gs : List Group) :
    ∀ x ∈ (behind start gs).hextets, x = .shortest x.group := by
  fun_cases behind start gs with
  | case1 => simp
  | case2 => simp [Hextet.shortest]
  | case3 => exact Hextet.eq_shortest_of_mem

/-- Octets are written behind a gap at the start, if two groups are left, or three with the first
    one `ffff`. -/
theorem Chain.octets_behind_ne_none_iff {start : Nat} {gs : List Group} :
    (behind start gs).octets ≠ none ↔
      start = 0 ∧ (gs.length = 2 ∨ gs.length = 3 ∧ gs.head? = some 0xffff) := by
  fun_cases behind start gs with
  | case1 => simp
  | case2 => simp
  | case3 _ _ h₂ h₃ =>
    refine iff_of_false (by simp) ?_
    rintro ⟨rfl, h | ⟨h, hhead⟩⟩
    · obtain ⟨g, g', rfl⟩ := List.length_eq_two.1 h
      exact h₂ g g' rfl rfl
    · obtain ⟨f, g, g', rfl⟩ := List.length_eq_three.1 h
      obtain rfl : f = 0xffff := Option.some.inj hhead
      exact h₃ g g' rfl rfl

namespace V6

/-- The spelling that is written spends no digit. -/
theorem shortest_spelling (a : V6) : ∀ x ∈ a.spelling.written.hextets, x = .shortest x.group := by
  rcases Nat.lt_or_ge (ZeroRun.longest a.groups).length 2 with hlt | hle
  · rw [spelling_of_lt hlt]
    exact Hextet.eq_shortest_of_mem
  · rw [spelling_of_le rfl hle]
    intro x hx
    rcases List.mem_append.1 hx with hx | hx
    · exact Hextet.eq_shortest_of_mem x hx
    · exact Chain.shortest_behind _ _ x hx

/-- There is a gap exactly if the longest run is two groups or more. -/
theorem gap_infix_text_iff {a : V6} :
    Spelling.gap <:+: a.text ↔ 2 ≤ (ZeroRun.longest a.groups).length := by
  rw [text, Spelling.gap_infix_text_iff]
  rcases Nat.lt_or_ge (ZeroRun.longest a.groups).length 2 with hlt | hle
  · rw [spelling_of_lt hlt]
    exact iff_of_false (by simp) (by omega)
  · rw [spelling_of_le rfl hle]
    exact iff_of_true ⟨_, _, rfl⟩ hle

/-- The text has a dot exactly if the run that is left out starts at the first group, and all but
    two groups are in it, or all but a group `ffff` and two more. -/
theorem dot_mem_text_iff {a : V6} :
    Text.dot ∈ a.text ↔ ZeroRun.IsFirstLongest a.groups 0 6 ∨
      ZeroRun.IsFirstLongest a.groups 0 5 ∧ a.groups[5]? = some 0xffff := by
  rw [text, Spelling.dot_mem_text_iff, ZeroRun.isFirstLongest_iff, ZeroRun.isFirstLongest_iff]
  rcases Nat.lt_or_ge (ZeroRun.longest a.groups).length 2 with hlt | hle
  · rw [spelling_of_lt hlt]
    refine iff_of_false (by simp [Spelling.written]) ?_
    rintro (h | ⟨h, _⟩) <;> simp [h] at hlt
  -- The run ends within the eight groups, so that its length tells how many are left.
  · have hadd := (ZeroRun.isFirstLongest_longest a.groups).isRun.add_le
    rcases h : ZeroRun.longest a.groups with ⟨start, length⟩
    rw [h, a.length_groups] at hadd
    rw [h] at hle
    rw [spelling_of_le h hle, Spelling.written, Chain.octets_behind_ne_none_iff, List.length_drop,
      List.head?_drop, a.length_groups, ZeroRun.mk.injEq, ZeroRun.mk.injEq]
    simp only at hadd hle
    constructor
    · rintro ⟨rfl, hlen | ⟨hlen, hfirst⟩⟩
      · exact .inl ⟨rfl, by omega⟩
      · obtain rfl : length = 5 := by omega
        exact .inr ⟨⟨rfl, rfl⟩, hfirst⟩
    · rintro (⟨rfl, rfl⟩ | ⟨⟨rfl, rfl⟩, hfirst⟩)
      · exact ⟨rfl, .inl rfl⟩
      · exact ⟨rfl, .inr ⟨rfl, hfirst⟩⟩

/-- The spelling that is written is canonical. -/
theorem isCanonical_text (a : V6) : IsCanonical a.groups a.text where
  lower := Spelling.lower_text_iff.2 fun x hx =>
    (Hextet.eq_shortest_iff.1 (a.shortest_spelling x hx)).1
  plain := Spelling.plain_text_iff.2 fun x hx =>
    (Hextet.eq_shortest_iff.1 (a.shortest_spelling x hx)).2
  gap_iff := gap_infix_text_iff.trans ZeroRun.exists_isRun_iff.symm
  gap_run i n hn h := by
    rw [text, spelling_of_le (ZeroRun.isFirstLongest_iff.1 h) hn]
    exact Spelling.exists_sides_iff.2 ⟨map_group_shortest _, Chain.groups_behind _ _⟩
  dot_iff := dot_mem_text_iff

end V6

/-! ## Rendering and the canonical text -/

/-- A spelling of an address is the one that is written exactly if it is canonical. -/
theorem V6.text_eq_iff_isCanonical {a : V6} {t : Text} (h : Address.ofText? t = some (.v6 a)) :
    a.text = t ↔ IsCanonical a.groups t := by
  obtain ⟨s, hs, rfl⟩ := Address.ofText?_eq_v6_iff.1 h
  refine ⟨fun ht => ht ▸ a.isCanonical_text, fun hcanonical => ?_⟩
  rw [hcanonical.unique hs a.address?_spelling a.isCanonical_text, text]

/-- Sixteen bytes are rendered as the text that they were parsed from exactly if it is canonical. -/
theorem render_eq_ok_iff_of_parse {b : Bytes} {t : Text} (h : parse t = .ok b)
    (hb : b.length = 16) : render b = .ok t ↔ IsCanonical (Group.ofAllBytes b) t := by
  obtain ⟨a | a, ha, rfl⟩ := parse_eq_ok_iff.1 h
  · exact absurd hb (by simp [Address.bytes, V4.octets])
  · rw [render_bytes, Except.ok.injEq]
    show a.text = t ↔ IsCanonical (Group.ofAllBytes (a.groups.flatMap Group.bytes)) t
    rw [Group.ofAllBytes_flatMap_bytes]
    exact V6.text_eq_iff_isCanonical ha

/-- What is written for an address text is an address text with the same bytes. -/
theorem respell_of_render {b : Bytes} {t u : Text} (h : parse t = .ok b) (hu : render b = .ok u) :
    respell t = .ok (u, true) := by
  simp [respell, h, hu, parse_of_render hu, Bind.bind, Except.bind, pure, Except.pure]

/-- Of the texts with the same sixteen bytes, the one that is rendered is the canonical one, and
    there is no other; a text that is rendered for what was parsed is rendered again as itself. -/
theorem render_eq_ok_iff_isCanonical :
    (∀ t b, parse t = .ok b → b.length = 16 →
      (render b = .ok t ↔ IsCanonical (Group.ofAllBytes b) t)) ∧
    (∀ b : Bytes, b.length = 16 → ∃! t, parse t = .ok b ∧ IsCanonical (Group.ofAllBytes b) t) ∧
    ∀ t b, parse t = .ok b →
      ∃ u, render b = .ok u ∧ respell t = .ok (u, true) ∧ respell u = .ok (u, true) := by
  refine ⟨fun t b => render_eq_ok_iff_of_parse, fun b hb => ?_, fun t b h => ?_⟩
  · obtain ⟨a, rfl⟩ := Address.exists_bytes_iff.2 (.inr hb)
    have hparse := parse_of_render (render_bytes a)
    refine ⟨a.text, ⟨hparse, (render_eq_ok_iff_of_parse hparse hb).1 (render_bytes a)⟩, ?_⟩
    rintro t ⟨ht, hcanonical⟩
    have hrender := (render_eq_ok_iff_of_parse ht hb).2 hcanonical
    rw [render_bytes] at hrender
    exact (Except.ok.inj hrender).symm
  · obtain ⟨a, ha, rfl⟩ := parse_eq_ok_iff.1 h
    have hu := render_bytes a
    exact ⟨a.text, hu, respell_of_render h hu, respell_of_render (parse_of_render hu) hu⟩

/-- An address with two runs of zeros, the second of which is written in octets. -/
theorem isCanonical_iff_of_mapped :
    let b : Bytes := [0, 0, 0, 0, 0, 0, 0, 0, 0, 0, 0xff, 0xff, 0, 0, 0, 0]
    let t := Text.ofString "::ffff:0.0.0.0"
    (parse t = .ok b ∧ b.length = 16) ∧
      (render b = .ok t ↔ IsCanonical (Group.ofAllBytes b) t) :=
  ⟨by decide, render_eq_ok_iff_isCanonical.1 _ _ (by decide) (by decide)⟩

end Addressing.Ip
