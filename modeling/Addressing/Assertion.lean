import Addressing.Numeral

/-!
# Failed assertions

A check inside the library that fails is a mistake of the library, which stops the program. Before
it stops it leaves a notice of what was checked and where.

* `Assertion`: what is known about a failed check.
* `Assertion.notice`: the notice it leaves.
-/

namespace Addressing

/-- A failed check. -/
structure Assertion where
  /-- What kind of check it was. -/
  kind : Text
  /-- The expression that was to hold, if there was one. -/
  expression : Option Text
  /-- What there was to say about it. -/
  message : Option Text
  /-- The file of the check. -/
  file : Text
  /-- The line of the check in its file. -/
  line : Int32
  /-- The function that made the check. -/
  function : Text
deriving DecidableEq

namespace Assertion

/-- What is written where there is nothing to say. -/
def nothing : Text := Text.ofString "(none)"

/-- The notice of a failed check: a headline, and a line for each thing known about it. -/
def notice (a : Assertion) : Text :=
  Text.ofString "[uproto] " ++ a.kind ++ Text.ofString " failure\n" ++
  Text.ofString "  expression: " ++ a.expression.getD nothing ++ Text.ofString "\n" ++
  Text.ofString "  message   : " ++ a.message.getD nothing ++ Text.ofString "\n" ++
  Text.ofString "  location  : " ++ a.file ++ Text.ofString ":" ++
    Numeral.ofInt a.line.toInt ++ Text.ofString "\n" ++
  Text.ofString "  function  : " ++ a.function ++ Text.ofString "\n"

end Assertion

end Addressing
