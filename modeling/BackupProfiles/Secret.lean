import BackupProfiles.Text.Quoted

/-!
# Secrets

A text that is passed on to the backup tool and never shown. Everything meant for people goes
through `redacted`.
-/

namespace BackupProfiles

structure Secret where
  reveal : String
  deriving DecidableEq, Inhabited

namespace Secret

/-- What stands for a secret. -/
def marker : String := "×××"

def isEmpty (s : Secret) : Bool := s.reveal.isEmpty

def redacted (s : Secret) : String := if s.isEmpty then "" else marker

/-- A secret as it appears in messages about values. -/
def describe (s : Secret) : String := "ConfidentialValue(" ++ Text.quoted s.redacted ++ ")"

end Secret

end BackupProfiles
