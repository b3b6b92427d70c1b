import ArtifactIdentity.Block.Basic
import ArtifactIdentity.Block.Inspection
import ArtifactIdentity.Block.Interface
import ArtifactIdentity.Calendar
import ArtifactIdentity.CommandLine.Notice
import ArtifactIdentity.CommandLine.Request
import ArtifactIdentity.CommandLine.Run
import ArtifactIdentity.CommandLine.Switch
import ArtifactIdentity.Config.Basic
import ArtifactIdentity.Config.Error
import ArtifactIdentity.Config.Loading
import ArtifactIdentity.Config.Setting
import ArtifactIdentity.Config.Source
import ArtifactIdentity.Descriptor.Basic
import ArtifactIdentity.Descriptor.Builder
import ArtifactIdentity.Descriptor.Coercion
import ArtifactIdentity.Descriptor.Declaration
import ArtifactIdentity.Descriptor.Field
import ArtifactIdentity.Descriptor.Issue
import ArtifactIdentity.Descriptor.Reading
import ArtifactIdentity.Disk
import ArtifactIdentity.Files.Listing
import ArtifactIdentity.Files.Machine
import ArtifactIdentity.Files.Pathname
import ArtifactIdentity.Files.Resolution
import ArtifactIdentity.Files.Tree
import ArtifactIdentity.Files.Walk
import ArtifactIdentity.Identity.Counterpart
import ArtifactIdentity.Identity.IdNumber
import ArtifactIdentity.Identity.Malformed
import ArtifactIdentity.Identity.UniqueId
import ArtifactIdentity.Identity.Version
import ArtifactIdentity.Json.Basic
import ArtifactIdentity.Json.Reader
import ArtifactIdentity.Json.Token
import ArtifactIdentity.Json.Writer
import ArtifactIdentity.Literal.Basic
import ArtifactIdentity.Literal.Written
import ArtifactIdentity.Log
import ArtifactIdentity.Main
import ArtifactIdentity.Number.Binary64
import ArtifactIdentity.Number.Shortest
import ArtifactIdentity.Proofs.Block.Readers
import ArtifactIdentity.Proofs.Block.RoundTrip
import ArtifactIdentity.Proofs.CommandLine.Canonical
import ArtifactIdentity.Proofs.CommandLine.Reports
import ArtifactIdentity.Proofs.CommandLine.Settled
import ArtifactIdentity.Proofs.CommandLine.Words
import ArtifactIdentity.Proofs.Config.Declared
import ArtifactIdentity.Proofs.Config.Refusals
import ArtifactIdentity.Proofs.Config.Schema
import ArtifactIdentity.Proofs.Config.Settings
import ArtifactIdentity.Proofs.Confinement
import ArtifactIdentity.Proofs.Descriptor.Admission
import ArtifactIdentity.Proofs.Descriptor.Declaring
import ArtifactIdentity.Proofs.Descriptor.Flaws
import ArtifactIdentity.Proofs.Descriptor.Granting
import ArtifactIdentity.Proofs.Descriptor.HandedOut
import ArtifactIdentity.Proofs.Descriptor.Rearranged
import ArtifactIdentity.Proofs.Descriptor.Repeated
import ArtifactIdentity.Proofs.Descriptor.Restated
import ArtifactIdentity.Proofs.Descriptor.Sealing
import ArtifactIdentity.Proofs.Descriptor.Spelling
import ArtifactIdentity.Proofs.Descriptor.Surfacing
import ArtifactIdentity.Proofs.Descriptor.WellFormed
import ArtifactIdentity.Proofs.ExcludedTests
import ArtifactIdentity.Proofs.Files.Alike
import ArtifactIdentity.Proofs.Files.Circles
import ArtifactIdentity.Proofs.Files.Filling
import ArtifactIdentity.Proofs.Files.Landing
import ArtifactIdentity.Proofs.Files.Resolution
import ArtifactIdentity.Proofs.Files.Resolves
import ArtifactIdentity.Proofs.Files.Unheard
import ArtifactIdentity.Proofs.Files.Walk
import ArtifactIdentity.Proofs.Identity.CanonicalId
import ArtifactIdentity.Proofs.Identity.DottedText
import ArtifactIdentity.Proofs.Identity.NormalForm
import ArtifactIdentity.Proofs.Identity.Padding
import ArtifactIdentity.Proofs.Identity.VersionGrammar
import ArtifactIdentity.Proofs.Identity.VersionOrder
import ArtifactIdentity.Proofs.Json.Writable
import ArtifactIdentity.Proofs.Json.Written
import ArtifactIdentity.Proofs.OutputDirectory
import ArtifactIdentity.Proofs.Stamping
import ArtifactIdentity.Proofs.Text.Digits
import ArtifactIdentity.Proofs.Toml.Flaws
import ArtifactIdentity.Proofs.Toml.Objects
import ArtifactIdentity.Proofs.Toml.Scalars
import ArtifactIdentity.Proofs.Toml.Values
import ArtifactIdentity.Proofs.Verification
import ArtifactIdentity.Stamping
import ArtifactIdentity.Table
import ArtifactIdentity.Text.Blank
import ArtifactIdentity.Text.Digits
import ArtifactIdentity.Text.Numeral
import ArtifactIdentity.Text.Printable
import ArtifactIdentity.Text.Quoted
import ArtifactIdentity.Text.Split
import ArtifactIdentity.Toml.Basic
import ArtifactIdentity.Toml.Clock
import ArtifactIdentity.Toml.Document
import ArtifactIdentity.Toml.Number
import ArtifactIdentity.Toml.Text
import ArtifactIdentity.Toml.Value
import ArtifactIdentity.Verification
