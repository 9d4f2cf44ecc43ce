import BackupProfiles.CommandLine.Arguments
import BackupProfiles.CommandLine.Command
import BackupProfiles.CommandLine.Outcome
import BackupProfiles.CommandLine.Report
import BackupProfiles.CommandTable
import BackupProfiles.Config
import BackupProfiles.ConfigError
import BackupProfiles.Document.Basic
import BackupProfiles.Document.Format
import BackupProfiles.Duration
import BackupProfiles.Files.Basic
import BackupProfiles.Files.Glob
import BackupProfiles.Files.Pattern
import BackupProfiles.FlagValue
import BackupProfiles.Flags
import BackupProfiles.Global
import BackupProfiles.Group
import BackupProfiles.Issues
import BackupProfiles.Json.Number
import BackupProfiles.Json.Read
import BackupProfiles.Json.Write
import BackupProfiles.Layout
import BackupProfiles.Main
import BackupProfiles.Numeric.Binary64
import BackupProfiles.Numeric.NumberText
import BackupProfiles.Numeric.Shortest
import BackupProfiles.Path.Basic
import BackupProfiles.Path.Text
import BackupProfiles.Profile.Anchor
import BackupProfiles.Profile.Basic
import BackupProfiles.Profile.Decode
import BackupProfiles.Profile.Describe
import BackupProfiles.Profile.Flags
import BackupProfiles.Profile.Inherit
import BackupProfiles.Profile.Merge
import BackupProfiles.Profile.Retention
import BackupProfiles.Reading.Fault
import BackupProfiles.Reading.Reader
import BackupProfiles.Reading.Shape
import BackupProfiles.Schedule
import BackupProfiles.Secret
import BackupProfiles.Section.Backup
import BackupProfiles.Section.Copy
import BackupProfiles.Section.Generic
import BackupProfiles.Section.Hooks
import BackupProfiles.Section.Init
import BackupProfiles.Section.Retention
import BackupProfiles.Section.Scheduled
import BackupProfiles.Section.Timing
import BackupProfiles.Section.Written
import BackupProfiles.Table
import BackupProfiles.Text.Blank
import BackupProfiles.Text.Digits
import BackupProfiles.Text.Hidden
import BackupProfiles.Text.Quoted
import BackupProfiles.Text.Split
import BackupProfiles.Toml.Read
import BackupProfiles.Toml.Scalar
import BackupProfiles.Toml.Text
import BackupProfiles.Toml.Tree
import BackupProfiles.ToolVersion
import BackupProfiles.Value.Basic
import BackupProfiles.Value.Distinct
import BackupProfiles.Value.Number
import BackupProfiles.Yaml.Node
import BackupProfiles.Yaml.Place
import BackupProfiles.Yaml.Read
import BackupProfiles.Yaml.Scalar
import BackupProfiles.Yaml.Text
import BackupProfiles.Yaml.Token
import BackupProfiles.Yaml.Write
import BackupProfiles.Proofs.Association
import BackupProfiles.Proofs.Value.SameKey
import BackupProfiles.Proofs.Mapping.Lookup
import BackupProfiles.Proofs.Mapping.Values
import BackupProfiles.Proofs.Value.Tidy
import BackupProfiles.Proofs.Merge.Marker
import BackupProfiles.Proofs.Merge.Overlay
import BackupProfiles.Proofs.Document.Distinct
import BackupProfiles.Proofs.Merge.Chain
import BackupProfiles.Proofs.Merge.Override
import BackupProfiles.Proofs.Merge.Restrict
import BackupProfiles.Proofs.Merge.Accumulation
import BackupProfiles.Proofs.Merge.Markerless
import BackupProfiles.Proofs.Flags.Lookup
import BackupProfiles.Proofs.Flags.Order
import BackupProfiles.Proofs.Flags.Register
import BackupProfiles.Proofs.Flags.Settings
import BackupProfiles.Proofs.Flags.Repository
import BackupProfiles.Proofs.Flags.Copy
import BackupProfiles.Proofs.Flags.Suppressed
import BackupProfiles.Proofs.Document.Lookup
import BackupProfiles.Proofs.Inheritance.Trail
import BackupProfiles.Proofs.Inheritance.Parent
import BackupProfiles.Proofs.Value.Plain
import BackupProfiles.Proofs.Document.Plain
import BackupProfiles.Proofs.Document.Parts
import BackupProfiles.Proofs.Table.Lookup
import BackupProfiles.Proofs.Reading.Account
import BackupProfiles.Proofs.Reading.Rewritten
import BackupProfiles.Proofs.Document.Listing
import BackupProfiles.Proofs.Reading.Accept
import BackupProfiles.Proofs.Reading.Record
import BackupProfiles.Proofs.Profile.Decode
import BackupProfiles.Proofs.Issues
import BackupProfiles.Proofs.SharedLog
import BackupProfiles.Proofs.Disclosure
import BackupProfiles.Proofs.Profile.Account
import BackupProfiles.Proofs.Profile.Resolved
import BackupProfiles.Proofs.Value.KeyText
import BackupProfiles.Proofs.Profile.Settings
import BackupProfiles.Proofs.Document.Bodies
import BackupProfiles.Proofs.Profile.Options
import BackupProfiles.Proofs.Containment.Merge
import BackupProfiles.Proofs.Containment.Resolve
import BackupProfiles.Proofs.Flags.Derivation
import BackupProfiles.Proofs.Flags.Override
import BackupProfiles.Proofs.Flags.State
import BackupProfiles.Proofs.Profile.ClosedForm
import BackupProfiles.Proofs.Profile.MarkerNames
import BackupProfiles.Proofs.Profile.GenericSections
import BackupProfiles.Proofs.Profile.Anchor
import BackupProfiles.Proofs.Profile.Settled
import BackupProfiles.Proofs.Flags.Retention
import BackupProfiles.Proofs.Profile.Layouts
import BackupProfiles.Proofs.Profile.Summary
import BackupProfiles.Proofs.Path.Clean
import BackupProfiles.Proofs.Path.Written
import BackupProfiles.Proofs.Path.Anchored
import BackupProfiles.Proofs.Reorder.Value
import BackupProfiles.Proofs.Reorder.Merge
import BackupProfiles.Proofs.Reorder.Reading
import BackupProfiles.Proofs.Reorder.Sections
import BackupProfiles.Proofs.Reorder.Resolve
import BackupProfiles.Proofs.Secrets.Positions
import BackupProfiles.Proofs.Secrets.Merge
import BackupProfiles.Proofs.Secrets.Confidential
import BackupProfiles.Proofs.Secrets.Reading
import BackupProfiles.Proofs.Secrets.Calls
import BackupProfiles.Proofs.Secrets.Sections
import BackupProfiles.Proofs.Secrets.Shown
import BackupProfiles.Proofs.Secrets.View
import BackupProfiles.Proofs.Spelling.Merge
import BackupProfiles.Proofs.Spelling.Reading
import BackupProfiles.Proofs.Spelling.Profile
import BackupProfiles.Proofs.Spelling.Resolve
import BackupProfiles.Proofs.Traversal
import BackupProfiles.Proofs.Flags.Arguments
import BackupProfiles.Proofs.Flags.Conversion
import BackupProfiles.Proofs.Text.Digits
import BackupProfiles.Proofs.Numeric.Whole
import BackupProfiles.Proofs.Duration.Token
import BackupProfiles.Proofs.Duration.Pattern
import BackupProfiles.Proofs.Duration.Whole
import BackupProfiles.Proofs.Reading.Written
import BackupProfiles.Proofs.Section.RoundTrip
import BackupProfiles.Proofs.Text.Split
import BackupProfiles.Proofs.Text.Trim
import BackupProfiles.Proofs.Text.ByteOrder
import BackupProfiles.Proofs.Path.Normal
import BackupProfiles.Proofs.ToolVersion
import BackupProfiles.Proofs.Profile.Expansion
