import SpirvBindings.Command.Annotate
import SpirvBindings.Command.Generate
import SpirvBindings.Files.Tree
import SpirvBindings.Main
import SpirvBindings.Proofs.Accounts
import SpirvBindings.Proofs.Shapes
import SpirvBindings.Proofs.Templates
import SpirvBindings.Proofs.Uniqueness.Outcomes
import SpirvBindings.Proofs.FanOut
import SpirvBindings.Proofs.Clashes
import SpirvBindings.Proofs.Capabilities
import SpirvBindings.Proofs.Numeric
import SpirvBindings.Proofs.Variants
import SpirvBindings.Proofs.Sufficiency
import SpirvBindings.Proofs.FlaggedGenerics
import SpirvBindings.Proofs.TemplateOrder
import SpirvBindings.Proofs.PointerGuards
import SpirvBindings.Proofs.AlignedAccesses
import SpirvBindings.Proofs.Commands
import SpirvBindings.Proofs.Annotation
import SpirvBindings.Proofs.Lookup
import SpirvBindings.Proofs.VariantGroups
import SpirvBindings.Proofs.Skips
import SpirvBindings.Proofs.Configuration.Rearrangement
import SpirvBindings.Proofs.Json.Revisions
import SpirvBindings.Proofs.Configuration.Documents
import SpirvBindings.Proofs.ConfigurationOrder
import SpirvBindings.Proofs.MappingValidation
import SpirvBindings.Proofs.Strategies
import SpirvBindings.Proofs.Hints.Documents
import SpirvBindings.Proofs.TypeLetters
import SpirvBindings.Proofs.LetterRemoval
import SpirvBindings.Proofs.UsableNames
import SpirvBindings.Proofs.Appearances
import SpirvBindings.Proofs.FreshNames
