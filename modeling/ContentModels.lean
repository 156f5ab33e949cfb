import ContentModels.Cache
import ContentModels.Main
import ContentModels.Proofs.AddedField
import ContentModels.Proofs.AddedTypes
import ContentModels.Proofs.BaseNames
import ContentModels.Proofs.CodeModel.Build
import ContentModels.Proofs.CodeModel.DerivedNames
import ContentModels.Proofs.CodeModel.InterfaceCycles
import ContentModels.Proofs.CodeModel.MemberNames
import ContentModels.Proofs.CodeModel.MixedProperties
import ContentModels.Proofs.CodeModel.References
import ContentModels.Proofs.CodeModel.SchemaPlan
import ContentModels.Proofs.Command.Generate
import ContentModels.Proofs.DisplayText
import ContentModels.Proofs.DuplicateTypes
import ContentModels.Proofs.FileOrder
import ContentModels.Proofs.Generated.Expressions
import ContentModels.Proofs.Generated.MemberNames
import ContentModels.Proofs.Generated.TypeTexts
import ContentModels.Proofs.GlobalUsings
import ContentModels.Proofs.IgnorePatterns
import ContentModels.Proofs.ImplementedProperties
import ContentModels.Proofs.InheritedOptions
import ContentModels.Proofs.KeptNames
import ContentModels.Proofs.LayoutLines
import ContentModels.Proofs.Lexing.Printing
import ContentModels.Proofs.OptionKeys
import ContentModels.Proofs.Parsing.Attributes
import ContentModels.Proofs.Parsing.Members
import ContentModels.Proofs.Parsing.Versions
import ContentModels.Proofs.PartialClasses
import ContentModels.Proofs.PartsFit
import ContentModels.Proofs.QualifiedMembers
import ContentModels.Proofs.ReadBack
import ContentModels.Proofs.Regeneration
import ContentModels.Proofs.RepeatedDeclarations
import ContentModels.Proofs.SchemaLinks
import ContentModels.Proofs.SchemaOrder
import ContentModels.Proofs.SharedCache
import ContentModels.Proofs.SkippedGroups
import ContentModels.Proofs.SourceTree.Files
import ContentModels.Proofs.UnrelatedTypes
import ContentModels.Proofs.ValueTypes
import ContentModels.Proofs.WrittenNames
