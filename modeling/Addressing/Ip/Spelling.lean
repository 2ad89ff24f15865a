import Addressing.Ip.V4
import Addressing.Ip.V6
import Addressing.Ip.ZeroRun
import Addressing.Text.Cut

/-!
# Spellings of an IPv6 address

There are many ways to write the eight groups of an address. A group is a hextet of one to four
digits; one run of zero groups may be left out, the *gap*, for which `::` stands; and the last two
groups may be written as the four octets that they are. A `Spelling` is one such way, and has one
text. It is the spelling of an address if its groups, with zeros for the gap, are eight.

* `Chain`: groups joined by colons, with no gap among them.
* `Spelling`: a chain, or hextets ahead of a gap and a chain behind it.
* `Spelling.text`, `Spelling.ofText?`: the text of a spelling and the spelling that a text is.
* `Spelling.address?`: the address that is spelled.
* `V6.spelling`: of the spellings of an address, the one to write.
-/

namespace Addressing.Ip

/-! ## Chains -/

/-- Groups joined by colons, of which the last two may be written as octets. -/
structure Chain where
  hextets : List Hextet
  octets : Option V4
deriving DecidableEq

namespace Chain

/-- The parts of a chain, which the colons join. -/
def fields (c : Chain) : List Text := c.hextets.map (·.digits) ++ c.octets.toList.map V4.text

/-- The text of a chain. The empty chain has the empty text. -/
def text (c : Chain) : Text := [Text.colon].intercalate c.fields

/-- The groups of a chain, in order. -/
def groups (c : Chain) : List Group :=
  c.hextets.map (·.group) ++ c.octets.toList.flatMap V4.groups

/-- The chain of some parts: hextets, and octets in the last place only. -/
def ofFields? : List Text → Option Chain
  | [] => some ⟨[], none⟩
  | [f] =>
    match V4.ofText? f with
    | some a => some ⟨[], some a⟩
    | none => (Hextet.ofText? f).map fun x => ⟨[x], none⟩
  | f :: fs => do
    let x ← Hextet.ofText? f
    let c ← ofFields? fs
    return { c with hextets := x :: c.hextets }

/-- The chain that a text is. -/
def ofText? (t : Text) : Option Chain :=
  if t = [] then ofFields? [] else ofFields? (t.splitOn Text.colon)

end Chain

/-! ## Spellings -/

/-- A way of writing an address. -/
inductive Spelling
  /-- Every group is written. -/
  | full (chain : Chain)
  /-- A run of zero groups is left out. Octets can stand behind the gap only, being last. -/
  | gapped (ahead : List Hextet) (behind : Chain)
deriving DecidableEq

namespace Spelling

/-- What stands for the groups that are left out. -/
def gap : Text := [Text.colon, Text.colon]

/-- The text of a spelling. -/
def text : Spelling → Text
  | full chain => chain.text
  | gapped ahead behind => (Chain.mk ahead none).text ++ gap ++ behind.text

/-- The spelling that a text is. The first `::` is the gap; were there another one, it would be an
    empty part of the chain behind it. -/
def ofText? (t : Text) : Option Spelling :=
  match Text.cut gap t with
  | none => (Chain.ofText? t).map full
  | some (ahead, behind) => do
    let ahead ← Chain.ofText? ahead
    guard (ahead.octets = none)
    let behind ← Chain.ofText? behind
    return gapped ahead.hextets behind

/-- The address that is spelled, if the groups are eight. A gap takes up what is missing of eight
    groups, and stands for one group at least. -/
def address? : Spelling → Option V6
  | full chain => V6.ofGroups? chain.groups
  | gapped ahead behind =>
    let written := ahead.length + behind.groups.length
    if written < 8 then
      V6.ofGroups? (ahead.map (·.group) ++ List.replicate (8 - written) 0 ++ behind.groups)
    else none

end Spelling

/-! ## The spelling to write -/

/-- The chain to write behind a gap. Octets are written for the last two groups if they are all
    that is not zero, or if only a group `ffff` is ahead of them, which is how IPv4 addresses are
    embedded among the others. -/
def Chain.behind : (start : Nat) → List Group → Chain
  | 0, [g, g'] => ⟨[], some (.ofGroups g g')⟩
  | 0, [0xffff, g, g'] => ⟨[.shortest 0xffff], some (.ofGroups g g')⟩
  | _, gs => ⟨gs.map .shortest, none⟩

/-- The spelling to write: hextets are the shortest, and the longest run of zeros is left out
    unless it is a single group. -/
def V6.spelling (a : V6) : Spelling :=
  let run := ZeroRun.longest a.groups
  if run.length < 2 then .full ⟨a.groups.map .shortest, none⟩
  else
    .gapped ((a.groups.take run.start).map .shortest)
      (.behind run.start (a.groups.drop (run.start + run.length)))

/-- The text of an address. -/
def V6.text (a : V6) : Text := a.spelling.text

/-- The address of a text, in any spelling. -/
def V6.ofText? (t : Text) : Option V6 := (Spelling.ofText? t).bind Spelling.address?

end Addressing.Ip
