import OpenApiClient.Main
import OpenApiClient.Proofs.RegistryRuns
import OpenApiClient.Proofs.ValueNodes
import OpenApiClient.Proofs.ResolutionSteps
import OpenApiClient.Proofs.Looks
import OpenApiClient.Proofs.LayerCases
import OpenApiClient.Proofs.SchemaGraph
import OpenApiClient.Proofs.Flattening
import OpenApiClient.Proofs.PartClosure
import OpenApiClient.Proofs.SchemaBulk
import OpenApiClient.Proofs.LayerEnds
import OpenApiClient.Proofs.RegistryGrowth
import OpenApiClient.Proofs.ResolutionEnds
import OpenApiClient.Proofs.ResolutionRoom
import OpenApiClient.Proofs.CallHistories
import OpenApiClient.Proofs.RegistrySteps
import OpenApiClient.Proofs.RenderedTypes
import OpenApiClient.Proofs.ModelNames
import OpenApiClient.Proofs.NestedResolutions
import OpenApiClient.Proofs.RememberedTypes
import OpenApiClient.Proofs.DecimalText
import OpenApiClient.Proofs.CanonicalText
import OpenApiClient.Proofs.WrittenValues
import OpenApiClient.Proofs.AlikeSchemas
import OpenApiClient.Proofs.AlikeFlattening
import OpenApiClient.Proofs.AlikeLayers
import OpenApiClient.Proofs.RegisteredTypes
import OpenApiClient.Proofs.SoundResolution
import OpenApiClient.Proofs.Unfoldings
import OpenApiClient.Proofs.HistoryIndependence
import OpenApiClient.Proofs.CircularSchemas
import OpenApiClient.Proofs.TypeExprs
import OpenApiClient.Proofs.OperationRuns
import OpenApiClient.Proofs.ModelClosure
import OpenApiClient.Proofs.MethodNames
import OpenApiClient.Proofs.LiteralReading
import OpenApiClient.Proofs.AddressReading
import OpenApiClient.Proofs.AddressExecution
import OpenApiClient.Proofs.BuiltMethods
import OpenApiClient.Proofs.CollectedGroups
import OpenApiClient.Proofs.PlainNames
import OpenApiClient.Proofs.OperationNames
import OpenApiClient.Proofs.ClassNames
import OpenApiClient.Proofs.ReadNames
import OpenApiClient.Proofs.AddressNames
import OpenApiClient.Proofs.MethodHygiene
import OpenApiClient.Proofs.BlankDescriptions
import OpenApiClient.Proofs.FreeFlattening
import OpenApiClient.Proofs.FreeResolution
import OpenApiClient.Proofs.BlankLayers
import OpenApiClient.Proofs.BlankRegistries
import OpenApiClient.Proofs.DescriptionIndependence
import OpenApiClient.Proofs.PackageModules
import OpenApiClient.Proofs.FileRuns
import OpenApiClient.Proofs.LoadedDocuments
import OpenApiClient.Proofs.SharedParameters
import OpenApiClient.Proofs.WrittenPackages
import OpenApiClient.Proofs.StructuralKeys
import OpenApiClient.Proofs.SettingMembers
import OpenApiClient.Proofs.SplicedExtensions
import OpenApiClient.Proofs.KeptTitles
import OpenApiClient.Proofs.TitledTypes
import OpenApiClient.Proofs.DeclaredFields
import OpenApiClient.Proofs.KeptFields
import OpenApiClient.Proofs.NullSpellings
import OpenApiClient.Proofs.SameTypes
import OpenApiClient.Proofs.SingleTypes
import OpenApiClient.Proofs.ListedParameters
import OpenApiClient.Proofs.AnnotationGrammar
import OpenApiClient.Proofs.DescribedBodies
import OpenApiClient.Proofs.EmptyUnions
import OpenApiClient.Proofs.ForwardNames
import OpenApiClient.Proofs.TemplateGrammar
import OpenApiClient.Proofs.PointerSteps
import OpenApiClient.Proofs.BadPointers
import OpenApiClient.Proofs.DocstringReading
import OpenApiClient.Proofs.ListedOperations
import OpenApiClient.Proofs.InheritedParameters
import OpenApiClient.Proofs.PathReferences
import OpenApiClient.Proofs.QueryTables
import OpenApiClient.Proofs.NormalNames
import OpenApiClient.Proofs.EscapedNames
import OpenApiClient.Proofs.BaseTypes
import OpenApiClient.Proofs.PresentedParameters
import OpenApiClient.Proofs.NullArguments
import OpenApiClient.Proofs.TracedTypes
import OpenApiClient.Proofs.ReferredParameters
import OpenApiClient.Proofs.SharedIdentifiers
import OpenApiClient.Proofs.StrippedTags
import OpenApiClient.Proofs.KeptNames
import OpenApiClient.Proofs.CapturedNames
import OpenApiClient.Proofs.NamelessOperations
import OpenApiClient.Proofs.HiddenMethods
import OpenApiClient.Proofs.UsableClassNames
import OpenApiClient.Proofs.SendingReports
import OpenApiClient.Proofs.SentParameters
import OpenApiClient.Proofs.LineBreaks
import OpenApiClient.Proofs.StatementLines
import OpenApiClient.Proofs.TitleLines
import OpenApiClient.Proofs.BodyArguments
import OpenApiClient.Proofs.CompatibilityForms
import OpenApiClient.Proofs.NormalizedText
import OpenApiClient.Proofs.ClassKeys
import OpenApiClient.Proofs.FollowedReferences
import OpenApiClient.Proofs.ResponsePrecedence
import OpenApiClient.Proofs.EnumerationMembers
import OpenApiClient.Proofs.BaseWalks
import OpenApiClient.Proofs.SpacedTexts
import OpenApiClient.Proofs.PlainTexts
import OpenApiClient.Proofs.ParameterLines
