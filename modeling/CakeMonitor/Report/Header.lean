import CakeMonitor.Snapshot
import CakeMonitor.Text.Letter
import CakeMonitor.Text.Split
/-!
# The header of a queue

Model of `parse_header` and `header_parent_major`. A queue's block in a report begins with a header such as

`qdisc cake 800d: dev eth1 root refcnt 2 bandwidth 50Mbit diffserv4 nat nowash rtt 100ms overhead 48`

Its third word is the handle and its fifth the interface; the words behind them set options.

* `Header.read?` (`parse_header`): handle, interface and options of a header of at least five words.
* `Header.optionChanges`: what a list of option words sets, in order.
* `Header.parentMajor?` (`header_parent_major`): the major handle of a parent that the header names.
-/

namespace CakeMonitor

/-- What the header of a queue says. -/
structure Header where
  handle : Text
  interface : Text
  changes : List OptionChange
  deriving DecidableEq

namespace Header

/-- The words that are followed by a value. -/
def arguments : List (Text × TextOption) :=
  [("bandwidth", .bandwidth), ("fwmark", .fwmarkMask), ("rtt", .rtt), ("overhead", .overhead),
   ("mpu", .mpu), ("memlimit", .memlimit)]

/-- The names of the priority layouts. -/
def diffservModes : List Text :=
  ["diffserv3", "diffserv4", "diffserv8", "besteffort", "precedence"]

/-- The names of the ways to isolate flows. -/
def flowModes : List Text :=
  ["flowblind", "srchost", "dsthost", "hosts", "flows", "dual-srchost", "dual-dsthost",
   "triple-isolate", "single"]

/-- The words that set an option by themselves. -/
def flags : List (Text × OptionChange) :=
  [("atm", .text .atmMode "atm"), ("ptm", .text .atmMode "ptm"), ("noatm", .text .atmMode []),
   ("raw", .text .atmMode []), ("nat", .switch .nat true), ("nonat", .switch .nat false),
   ("wash", .switch .wash true), ("nowash", .switch .wash false),
   ("autorate-ingress", .text .bandwidth "autorate-ingress"),
   ("ingress", .text .direction "ingress")]

/-- The option that a word announces a value for. -/
def argument? (word : Text) : Option TextOption :=
  (arguments.find? fun a => word = a.1).map (·.2)

/-- What a word sets by itself. -/
def keyword? (word : Text) : Option OptionChange :=
  if word ∈ diffservModes then some (.text .diffservMode word)
  else if word ∈ flowModes then some (.text .flowMode word)
  else (flags.find? fun f => word = f.1).map (·.2)

/-- What the option words set, in order. A word that announces a value takes the next word with it,
whatever that is; at the end it sets nothing. -/
def optionChanges : List Text → List OptionChange
  | [] => []
  | w :: ws =>
    match argument? w with
    | some o =>
      match ws with
      | [] => []
      | v :: ws => .text o v :: optionChanges ws
    | none => (keyword? w).toList ++ optionChanges ws

/-- The header of a line of at least five words. Traffic counts as outgoing unless `ingress` is
among the option words. -/
def read? (line : Text) : Option Header :=
  match line.words with
  | _ :: _ :: handle :: _ :: interface :: options =>
    some ⟨handle.trimEndBy (· = ':'), interface,
      .text .direction "egress" :: optionChanges options⟩
  | _ => none

/-- The value that the last of the changes gives a text option. -/
def lastText? (o : TextOption) (changes : List OptionChange) : Option Text :=
  changes.reverse.findSome? fun
    | .text p v => if p = o then some v else none
    | .switch _ _ => none

/-- The position that the last of the changes gives a switch. -/
def lastSwitch? (s : Switch) (changes : List OptionChange) : Option Bool :=
  changes.reverse.findSome? fun
    | .switch t b => if t = s then some b else none
    | .text _ _ => none

/-- The header as a JSON object with what it sets. -/
def toJson (h : Header) : Json :=
  .obj <|
    [("handle", .text h.handle), ("interface", .text h.interface)]
    ++ (TextOption.all.filterMap fun o => (lastText? o h.changes).map fun v => (o.key, .text v))
    ++ (Switch.all.filterMap fun s => (lastSwitch? s h.changes).map fun b => (s.key, .bool b))

/-- The major handle at the beginning of a text, if it begins with `parent` and a handle. -/
def parentAt? (t : Text) : Option Text := do
  let rest ← Text.afterLabel? "parent " t
  let major := rest.takeWhile fun c : CodePoint => c ≠ ':' && !c.isBlank
  if major ≠ [] ∧ (rest.drop major.length).head? = some (':' : CodePoint) then some major else none

/-- The major handle of the first parent named in a text; `insideWord` tells whether the text
continues a word. -/
def parentFrom? (insideWord : Bool) : Text → Option Text
  | [] => none
  | c :: t =>
    match if insideWord then none else parentAt? (c :: t) with
    | some major => some major
    | none => parentFrom? c.isWordPart t

/-- The major handle of a parent, such as `1` for `parent 1:2`; a root queue has none. -/
def parentMajor? (line : Text) : Option Text := parentFrom? false line

end Header

end CakeMonitor
