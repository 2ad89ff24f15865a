import Addressing.Assertion
import Addressing.Proofs.Numeral
import Addressing.Proofs.Separator

/-!
# What a notice tells

A notice has five lines, which are known apart if no text in them has a line break of its own. Each
line then tells what was written between its labels, since these are the same in all notices. One of
them tells two things: what stands behind its last colon is the number of a line, and all ahead of
that colon is the name of a file, whatever colons and digits that has itself.

* `Unbroken`, `lines`: failed checks without line breaks, and the lines of their notices.
* `splitOn_notice`: the lines are found in the notice again.
* `location_inj`: the file and the line are found in the location again.
* `notice_eq_iff`: checks with the same notice are the same, but for what is missing in one and is
  given as `(none)` in the other.
-/

namespace Addressing.Assertion

/-- The line break. -/
def newline : UInt8 := 0x0a

/-- No text that is known about a failed check has a line break. -/
structure Unbroken (a : Assertion) : Prop where
  kind : newline ∉ a.kind
  expression : ∀ t ∈ a.expression, newline ∉ t
  message : ∀ t ∈ a.message, newline ∉ t
  file : newline ∉ a.file
  function : newline ∉ a.function

variable {a b : Assertion}

/-! ## The location -/

/-- Where a check was made: the file, a colon, and the line in the file. -/
def location (a : Assertion) : Text := a.file ++ Text.colon :: Numeral.ofInt a.line.toInt

/-- A location tells the file and the line: its last colon is the one between them. -/
theorem location_inj : a.location = b.location ↔ a.file = b.file ∧ a.line = b.line := by
  have hcolon : ∀ i, Text.colon ∉ Numeral.ofInt i := fun _ h =>
    absurd (Numeral.mem_ofInt h) (by decide)
  rw [location, location, Text.append_cons_inj (hcolon _) (hcolon _),
    Numeral.ofInt_injective.eq_iff, Int32.toInt_inj]

/-! ## The lines -/

/-- The lines of a notice. -/
def lines (a : Assertion) : List Text :=
  [Text.ofString "[uproto] " ++ a.kind ++ Text.ofString " failure",
    Text.ofString "  expression: " ++ a.expression.getD (Text.ofString "(none)"),
    Text.ofString "  message   : " ++ a.message.getD (Text.ofString "(none)"),
    Text.ofString "  location  : " ++ a.location,
    Text.ofString "  function  : " ++ a.function]

/-- The lines tell what was written into them. -/
theorem lines_inj : a.lines = b.lines ↔
    a.kind = b.kind ∧
      a.expression.getD (Text.ofString "(none)") = b.expression.getD (Text.ofString "(none)") ∧
      a.message.getD (Text.ofString "(none)") = b.message.getD (Text.ofString "(none)") ∧
      a.file = b.file ∧ a.line = b.line ∧ a.function = b.function := by
  simp only [lines, List.cons.injEq, List.append_right_inj, List.append_left_inj, location_inj,
    and_true, and_assoc]

/-- A notice is its lines, with a line break behind each. -/
theorem notice_eq_join (a : Assertion) : a.notice = [newline].intercalate (a.lines ++ [[]]) := by
  have hheadline : Text.ofString " failure\n" = Text.ofString " failure" ++ [newline] := rfl
  have hbreak : Text.ofString "\n" = [newline] := rfl
  have hcolon : Text.ofString ":" = [Text.colon] := rfl
  unfold notice
  simp only [nothing, lines, location, hheadline, hbreak, hcolon, List.cons_append, List.nil_append,
    List.append_assoc, List.intercalate_cons_cons, List.intercalate_singleton, List.append_nil]

/-- No line has a line break in it: the labels have none, and neither has the number of a line. -/
theorem Unbroken.newline_not_mem (h : a.Unbroken) : ∀ l ∈ a.lines, newline ∉ l := by
  have hgetD : ∀ o : Option Text, (∀ t ∈ o, newline ∉ t) →
      newline ∉ o.getD (Text.ofString "(none)") := by
    intro o ho
    cases o with
    | none => decide
    | some t => exact ho t rfl
  have hline : newline ∉ Numeral.ofInt a.line.toInt := fun hmem =>
    absurd (Numeral.mem_ofInt hmem) (by decide)
  have hlocation : newline ∉ a.location :=
    List.not_mem_append h.file (List.not_mem_cons_of_ne_of_not_mem (by decide) hline)
  simp only [lines, List.forall_mem_cons]
  exact ⟨List.not_mem_append (List.not_mem_append (by decide) h.kind) (by decide),
    List.not_mem_append (by decide) (hgetD _ h.expression),
    List.not_mem_append (by decide) (hgetD _ h.message),
    List.not_mem_append (by decide) hlocation,
    List.not_mem_append (by decide) h.function, List.forall_mem_nil _⟩

/-- The lines of a notice are what stands between its line breaks. -/
theorem splitOn_notice (h : a.Unbroken) : a.notice.splitOn newline = a.lines ++ [[]] := by
  refine (Text.splitOn_eq_iff (List.append_ne_nil_of_right_ne_nil _ (List.cons_ne_nil _ _))
    fun l hl => ?_).2 (notice_eq_join a)
  rcases List.mem_append.1 hl with hl | hl
  · exact h.newline_not_mem l hl
  · rw [List.mem_singleton.1 hl]
    exact List.not_mem_nil

/-- Failed checks without line breaks have the same notice exactly if the same is known about them,
    where `(none)` may be an expression or a message and may stand for a missing one. What is known
    may look like any other part of a notice. -/
theorem notice_eq_iff (ha : a.Unbroken) (hb : b.Unbroken) : a.notice = b.notice ↔
    a.kind = b.kind ∧
      a.expression.getD (Text.ofString "(none)") = b.expression.getD (Text.ofString "(none)") ∧
      a.message.getD (Text.ofString "(none)") = b.message.getD (Text.ofString "(none)") ∧
      a.file = b.file ∧ a.line = b.line ∧ a.function = b.function := by
  rw [← lines_inj]
  constructor
  · intro h
    have hlines := congrArg (List.splitOn newline) h
    rw [splitOn_notice ha, splitOn_notice hb] at hlines
    exact List.append_cancel_right hlines
  · intro h
    rw [notice_eq_join, notice_eq_join, h]

/-- A check on the lowest line there is, in a file whose name ends like a location, and of a kind
    that ends like a headline. Its notice is also that of the expression `(none)`, and not that of
    the first line of the file `a.c`. -/
theorem notice_eq_iff_colons :
    let a : Assertion := {
      kind := Text.ofString "ASSERT failure"
      expression := none
      message := some (Text.ofString "  location  : a.c:1")
      file := Text.ofString "a.c:1"
      line := Int32.minValue
      function := Text.ofString "f:1" }
    let b : Assertion := { a with expression := some (Text.ofString "(none)") }
    let c : Assertion := { a with file := Text.ofString "a.c", line := 1 }
    a.Unbroken ∧ b.Unbroken ∧ c.Unbroken ∧ a.notice = b.notice ∧ a.notice ≠ c.notice := by
  intro a b c
  have ha : a.Unbroken := ⟨by decide, by decide, by decide, by decide, by decide⟩
  have hb : b.Unbroken := ⟨by decide, by decide, by decide, by decide, by decide⟩
  have hc : c.Unbroken := ⟨by decide, by decide, by decide, by decide, by decide⟩
  have hsame : a.notice = b.notice := (notice_eq_iff ha hb).2 ⟨rfl, rfl, rfl, rfl, rfl, rfl⟩
  have hfile : a.file ≠ c.file := by decide
  exact ⟨ha, hb, hc, hsame, fun h => hfile ((notice_eq_iff ha hc).1 h).2.2.2.1⟩

end Addressing.Assertion
