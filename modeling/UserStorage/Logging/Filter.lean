import UserStorage.Environment
import UserStorage.Event
import UserStorage.Text.Blank

/-!
# Log filters

Which events are written to the log. A filter is spelled as directives with commas between them. A
directive lets the events of some targets pass up to a level; a target is covered by what it begins
with, and of the directives that cover it the one with the longest name decides.

## Main definitions

* `Directive`: what passes of some targets
* `Directive.ofText`: the directive that an item spells
* `Filter`, `Filter.ofText`, `Filter.ofEnvironment`: the filter that a text spells, and the one of
  an environment
* `Filter.passes`: whether an event is written
-/

namespace UserStorage.Logging

/-- Lets the events of some targets pass up to a level. -/
structure Directive where
  /-- What the targets begin with; without it all targets are meant. -/
  target? : Option String
  /-- The last level that passes; without it nothing does. -/
  limit? : Option Level
  deriving DecidableEq, Repr

/-- The last level that passes, by its name in capital letters. -/
def limits : List (String × Option Level) :=
  [("OFF", none), ("ERROR", some .error), ("WARN", some .warn), ("INFO", some .info),
    ("DEBUG", some .debug), ("TRACE", some .trace)]

/-- The limit that a word names, in letters of either case. -/
def limitOf? (word : String) : Option (Option Level) := limits.lookup word.toUpper

namespace Directive

/-- The directive that an item spells: a level, a target, or a target and a level with an equals
sign between them. A target without a level lets everything pass. Of an item that spells none, the
part at fault. -/
def ofText (item : String) : Except String Directive :=
  match item.splitOn "=" with
  | [word] =>
    match limitOf? word with
    | some limit => .ok ⟨none, limit⟩
    | none => .ok ⟨some word, some .trace⟩
  | [target, level] =>
    let level := Text.trim level
    if level = "" then .ok ⟨some target, some .trace⟩
    else match limitOf? level with
      | some limit => .ok ⟨some target, limit⟩
      | none => .error level
  | _ => .error item

/-- The directive decides on some events of the target. -/
def covers (d : Directive) (target : String) : Bool :=
  d.target?.all fun start => start.toList.isPrefixOf target.toList

/-- How much of a target the directive names, in bytes. -/
def reach (d : Directive) : Nat := (d.target?.map String.utf8ByteSize).getD 0

/-- The directive lets a level pass. -/
def allows (d : Directive) (level : Level) : Bool :=
  d.limit?.any fun limit => level.rank ≤ limit.rank

end Directive

/-- Some directives, no two of them for the same targets. -/
structure Filter where
  directives : List Directive
  /-- The items that spelled no directive, each by the part at fault. -/
  ignored : List String
  deriving DecidableEq, Repr

namespace Filter

/-- Some directives with one more; it takes the place of one for the same targets. -/
def insert (d : Directive) : List Directive → List Directive
  | [] => [d]
  | e :: rest => if e.target? = d.target? then d :: rest else e :: insert d rest

/-- Lets errors pass, whatever their target. -/
def errorsOnly : List Directive := [⟨none, some .error⟩]

/-- The filter that a text spells; no directives at all let errors pass. -/
def ofText (text : String) : Filter :=
  let items := (text.splitOn ",").map Text.trim |>.filter (· ≠ "")
  let read := items.map Directive.ofText
  let directives := (read.filterMap Except.toOption).foldl (fun ds d => insert d ds) []
  { directives := if directives = [] then errorsOnly else directives
    ignored := read.filterMap fun
      | .ok _ => none
      | .error part => some part }

/-- The text of the filter when the environment has none. -/
def defaultText : String := "info"

/-- The filter of an environment. -/
def ofEnvironment (env : Environment) : Filter := ofText ((env.get? "RUST_LOG").getD defaultText)

/-- The directive with the greater reach; the second of two that reach as far. -/
def further (d e : Directive) : Directive := if d.reach ≤ e.reach then e else d

/-- The directive that decides on the events of a target, if one covers it. -/
def deciding? (filter : Filter) (target : String) : Option Directive :=
  match filter.directives.filter (·.covers target) with
  | [] => none
  | d :: ds => some (ds.foldl further d)

/-- The event is written. -/
def passes (filter : Filter) (e : Event) : Bool :=
  (filter.deciding? e.target).any (·.allows e.level)

end Filter

end UserStorage.Logging
