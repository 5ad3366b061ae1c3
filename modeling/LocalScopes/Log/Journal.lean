import LocalScopes.Log.Filter

/-! # Journals

An event is logged as one line: time, level, target, message and fields. A console line has no
target, and marks its parts by terminal styles. Characters of a message that a terminal would obey
are written by their codes.

A component keeps its journal in a file of its own, one for each day, below a log directory. What
passes the filter is written to the file, and to the console as well if that is asked for. -/

namespace LocalScopes

/-! ### Lines -/

/-- The label of a level, right-aligned to five characters. -/
def Level.label : Level → String
  | error => "ERROR"
  | warn => " WARN"
  | info => " INFO"
  | debug => "DEBUG"
  | trace => "TRACE"

/-- The terminal style of a level's label. -/
def Level.style : Level → Nat
  | error => 31
  | warn => 33
  | info => 32
  | debug => 34
  | trace => 35

namespace Event

/-- The written form of a character of a message. -/
def escapeControl (c : Char) : List Char :=
  if c = '\x1b' ∨ c = '\x07' ∨ c = '\x08' ∨ c = '\x0c' ∨ c = '\x7f' then
    ['\\', 'x', Nat.digitChar (c.toNat / 16), Nat.digitChar (c.toNat % 16)]
  else if 0x80 ≤ c.toNat ∧ c.toNat ≤ 0x9f then Text.codePoint c
  else [c]

/-- The message as it is written into a line. -/
def shownMessage (e : Event) : String := String.ofList (e.message.toList.flatMap escapeControl)

/-- The fields, each after a blank, with what `name` and `equals` make of its parts. -/
def shownFields (e : Event) (name : String → String) (equals : String) : String :=
  String.join (e.fields.map fun f => " " ++ name f.1 ++ equals ++ f.2)

/-- The line of a log file. -/
def fileLine (time : String) (e : Event) : String :=
  s!"{time} {e.level.label} {e.target}: {e.shownMessage}" ++ e.shownFields id "="

/-- A text in a terminal style. -/
def styled (style : Nat) (text : String) : String := s!"\x1b[{style}m{text}\x1b[0m"

/-- The style of what stands in the background. -/
def dim : Nat := 2

/-- The style of field names. -/
def italic : Nat := 3

/-- The line of a console. -/
def consoleLine (time : String) (e : Event) : String :=
  s!"{styled dim time} {styled e.level.style e.level.label} {e.shownMessage}" ++
    e.shownFields (styled italic) (styled dim "=")

end Event

/-! ### Files -/

/-- Where and what a component logs. Without a log directory, the home directory has it. -/
structure Journal where
  component : String
  directory : Option String
  home : Option String
  filter : Option String
  toConsole : Bool

namespace Journal

/-- The log directory below a home directory. -/
def defaultDirectory : (home : Option String) → String
  | none | some "" => ".varscope/logs"
  | some home => s!"{home}/.varscope/logs"

/-- The file of a day. -/
def fileName (j : Journal) (date : String) : String :=
  if j.component = "" then date else s!"{j.component}.{date}"

/-- Follows one segment of a path from the segments above it, the nearest first; there is no way
above the first one. -/
def enter (above : List String) (segment : String) : Option (List String) :=
  if segment = "" ∨ segment = "." then some above
  else if segment = ".." then above.tail?
  else some (segment :: above)

/-- The path of the file of a day, from the working directory on, if it lies below that. Directories
may be named in the log directory and in the component as well. -/
def path (j : Journal) (date : String) : Option String :=
  let directory := j.directory.getD (defaultDirectory j.home)
  if directory.startsWith "/" ∨ j.component.startsWith "/" then none
  else
    let segments := directory.splitOn "/" ++ (j.fileName date).splitOn "/"
    (segments.foldlM enter []).map fun above => "/".intercalate above.reverse

/-- The events that are logged. -/
def logged (j : Journal) (events : List Event) : List Event :=
  let filter := Filter.ofText j.filter
  events.filter fun e => filter.Passes e

/-- A text of lines, each of which ends with a line feed. -/
def ofLines (lines : List String) : String := String.join (lines.map fun line => line ++ "\n")

/-- What the file holds. -/
def fileText (j : Journal) (time : String) (events : List Event) : String :=
  ofLines ((j.logged events).map (Event.fileLine time))

/-- What is written to the console. -/
def consoleText (j : Journal) (time : String) (events : List Event) : String :=
  if j.toConsole then ofLines ((j.logged events).map (Event.consoleLine time)) else ""

end Journal

end LocalScopes
