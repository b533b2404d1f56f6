import SemverRange.Main
import SemverRange.Proofs.Text.Words
import SemverRange.Proofs.Version.Notation
import SemverRange.Proofs.Numeral
import SemverRange.Proofs.Partial.Notation
import SemverRange.Proofs.Partial.Numbers
import SemverRange.Proofs.Band.Extent
import SemverRange.Proofs.Band.Reading
import SemverRange.Proofs.Requirement.Phrases
import SemverRange.Proofs.Requirement.Build
import SemverRange.Proofs.Requirement.Meaning
import SemverRange.Proofs.Requirement.Bands
import SemverRange.Proofs.Requirement.Layout
import SemverRange.Proofs.Requirement.Grammar
import SemverRange.Proofs.Requirement.Anchors
import SemverRange.Proofs.Requirement.Choice
import SemverRange.Proofs.Requirement.Inclusion
import SemverRange.Proofs.Requirement.Pinned
import SemverRange.Proofs.Requirement.Composition
import SemverRange.Proofs.Partial.Faults
import SemverRange.Proofs.Requirement.Faults
import SemverRange.Proofs.Requirement.Tiling
import SemverRange.Proofs.Requirement.BandOperators
import SemverRange.Proofs.Requirement.HyphenRanges
import SemverRange.Proofs.Document.Integers
import SemverRange.Proofs.Document.JsonText
import SemverRange.Proofs.Document.YamlLines
import SemverRange.Proofs.Document.YamlTags
import SemverRange.Proofs.Settings
import SemverRange.Proofs.Command.Configuration
import SemverRange.Proofs.Command.Steps
import SemverRange.Proofs.Command.Refusals
import SemverRange.Proofs.Version.Writing
import SemverRange.Proofs.Command.Arguments
import SemverRange.Proofs.Command.Verdicts
import SemverRange.Proofs.Command.Rows
import SemverRange.Proofs.Command.Endings
import SemverRange.Proofs.Command.Noninterference
import SemverRange.Proofs.Version.Language
import SemverRange.Proofs.Version.Ties
import SemverRange.Proofs.Band.Builds
import SemverRange.Proofs.Requirement.Builds
import SemverRange.Proofs.Requirement.Printing
import SemverRange.Proofs.Command.Selection
import SemverRange.Proofs.Version.Floor
import SemverRange.Proofs.Clause
import SemverRange.Proofs.Partial.Rendering
import SemverRange.Proofs.Band.Respelling
