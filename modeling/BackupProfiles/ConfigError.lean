import BackupProfiles.Document.Format
import BackupProfiles.Files.Basic
import BackupProfiles.Reading.Fault
import BackupProfiles.Text.Quoted

/-!
# Errors of a configuration

What can go wrong with a configuration as a whole or with one profile, group or schedule of it.
-/

namespace BackupProfiles

inductive ConfigError where
  | profileNotFound (name : String)
  | parentNotFound (profile parent : String)
  | inheritanceLoop (name : String)
  | invalidProfile (name : String) (found : Kind)
  | unreadable (key : String) (why : Fault)
  /-- The text is not of its format, or its root is no map. -/
  | unparsable (format : Format) (root? : Option Kind)
  | unsupportedFormat (path : String)
  | unreadableFile (path : String) (why : FileFault)
  | invalidVersion (text : String)
  | groupNotFound (name : String)
  | scheduleNotFound (name : String)
  deriving DecidableEq, Repr

namespace ConfigError

/-- Whether the error is that the profile asked for is not there. -/
def isNotFound : ConfigError → Bool
  | profileNotFound _ => true
  | _ => false

/-- A message with the reason behind it, where there is one. -/
def withReason (message : String) : Option String → String
  | none => message
  | some reason => message ++ ": " ++ reason

def message : ConfigError → String
  | profileNotFound name => "profile '" ++ name ++ "' not found"
  | parentNotFound profile parent =>
    "error in profile '" ++ profile ++ "': parent profile '" ++ parent ++ "' not found"
  | inheritanceLoop name => "profile inheritance loop detected at '" ++ name ++ "'"
  | invalidProfile name found =>
    "profile '" ++ name ++ "' must be a map, got '" ++ found.text ++ "'"
  | unreadable key why => withReason ("cannot decode '" ++ key ++ "'") why.message?
  | unparsable format root? =>
    withReason ("cannot parse " ++ format.text ++ " configuration")
      (root?.map fun kind => "expected a map at the root, got '" ++ kind.text ++ "'")
  | unsupportedFormat path => "unsupported configuration format for " ++ Text.quotedPath path
  | unreadableFile path why =>
    "cannot read configuration file " ++ Text.quotedPath path ++ ": " ++ why.message
  | invalidVersion text => "invalid restic version '" ++ text ++ "'"
  | groupNotFound name => "group '" ++ name ++ "' not found"
  | scheduleNotFound name => "schedule '" ++ name ++ "' not found"

end ConfigError

end BackupProfiles
