import BackupProfiles.Table
import BackupProfiles.FlagValue
import BackupProfiles.Text.Quoted

/-!
# Issues

What could not be used while profiles were resolved, and which paths came out different from the
way they are written. Issues never stop anything: they are collected and disclosed once. A later
issue of one section, or of one path, replaces the earlier one.
-/

namespace BackupProfiles

inductive SectionIssue where
  | notMap (found : Kind)
  /-- The section cannot be read. The text says why; it is the reason where it is worded here and
  not by the library that reads fields. -/
  | invalid (reason? : Option String) (text : String := reason?.getD "")
  | unusable (why : FlagValue.Refusal)
  deriving DecidableEq, Repr

namespace SectionIssue

def text : SectionIssue → String
  | notMap found => "expected a map, got '" ++ found.text ++ "'"
  | invalid _ text => "invalid section: " ++ text
  | unusable why => "invalid value: " ++ why.message

/-- The text up to where the words of a library begin. -/
def message : SectionIssue → String
  | invalid none _ => "invalid section"
  | issue => issue.text

end SectionIssue

structure Issues where
  failed : Table SectionIssue
  changed : Table (List String)
  deriving DecidableEq

namespace Issues

def empty : Issues := ⟨.empty, .empty⟩

instance : Inhabited Issues := ⟨empty⟩

def isEmpty (i : Issues) : Bool := i.failed.isEmpty && i.changed.isEmpty

def fail (i : Issues) (name : String) (issue : SectionIssue) : Issues :=
  { i with failed := i.failed.insert name issue }

def change (i : Issues) (description : String) (paths : List String) : Issues :=
  { i with changed := i.changed.insert description paths }

def failAll (i : Issues) (found : List (String × SectionIssue)) : Issues :=
  found.foldl (fun i e => i.fail e.1 e.2) i

def changeAll (i : Issues) (found : List (String × List String)) : Issues :=
  found.foldl (fun i e => i.change e.1 e.2) i

/-- The lines that disclose the issues. -/
def lines (i : Issues) : List String :=
  i.failed.entries.map (fun e =>
      "the configuration section '" ++ e.1 ++ "' was ignored: " ++ e.2.message)
    ++ (if i.changed.isEmpty then []
      else "the retention section uses paths different from the configuration:"
        :: i.changed.entries.map fun e => "  " ++ e.1 ++ " => " ++ Text.quotedList e.2)

/-- Discloses all issues and forgets them. -/
def disclose (i : Issues) : Issues × Issues := (i, empty)

end Issues

end BackupProfiles
