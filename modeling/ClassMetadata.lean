import ClassMetadata.Signature.Syntax
import ClassMetadata.Signature.Printer
import ClassMetadata.Signature.Error
import ClassMetadata.Signature.Reader
import ClassMetadata.Unicode.Ranges
import ClassMetadata.Unicode.Letter
import ClassMetadata.Unicode.Number
import ClassMetadata.Unicode.Unprintable
import ClassMetadata.Unicode.Combining
import ClassMetadata.Text.Quoted
import ClassMetadata.Text.Cut
import ClassMetadata.Decimal.Binary
import ClassMetadata.Decimal.Shortest
import ClassMetadata.Entries
import ClassMetadata.NameSet
import ClassMetadata.QualifiedName
import ClassMetadata.Settings
import ClassMetadata.Literal
import ClassMetadata.Live.Value
import ClassMetadata.Live.Class
import ClassMetadata.Live.Text
import ClassMetadata.Live.Construction
import ClassMetadata.Registry
import ClassMetadata.Resolution
import ClassMetadata.Deferred.Node
import ClassMetadata.Deferred.Shape
import ClassMetadata.Deferred.Materialization
import ClassMetadata.Environment
import ClassMetadata.Workspace
import ClassMetadata.ClassFile.ConstantPool
import ClassMetadata.ClassFile.Annotations
import ClassMetadata.Module.Descriptor
import ClassMetadata.Module.Builder
import ClassMetadata.Proofs.Signature.WellFormed
import ClassMetadata.Proofs.Signature.Invariant
import ClassMetadata.Proofs.Signature.RoundTrip
import ClassMetadata.Proofs.QualifiedName
import ClassMetadata.Proofs.Resolution
import ClassMetadata.Proofs.Deferred.Outcome
import ClassMetadata.Proofs.Deferred.CallOrder
import ClassMetadata.Proofs.Entries
import ClassMetadata.Proofs.Deferred.ArrayShape
import ClassMetadata.Proofs.Deferred.ArrayAgreement
import ClassMetadata.Proofs.ClassFile.Encoding
import ClassMetadata.Proofs.ClassFile.Reading
import ClassMetadata.Proofs.ClassFile.Decoding
import ClassMetadata.Proofs.Module.Steps
import ClassMetadata.Proofs.Module.Consistency
import ClassMetadata.Proofs.Module.History
import ClassMetadata.Proofs.Live.Parts
import ClassMetadata.Proofs.Deferred.Contents
import ClassMetadata.Proofs.World
import ClassMetadata.Proofs.Signature.Viability
import ClassMetadata.Proofs.Enclosing
import ClassMetadata.Proofs.Resolution.Mirrors
import ClassMetadata.Proofs.Resolution.Queries
import ClassMetadata.Proofs.Deferred.TwoRuns
import ClassMetadata.Proofs.Registration
import ClassMetadata.Proofs.Deferred.DepthLimit
import ClassMetadata.Proofs.Live.Equality
import ClassMetadata.Proofs.Live.Rearrangement
import ClassMetadata.Proofs.Deferred.Rearrangement
import ClassMetadata.Proofs.ClassFile.ConstantPool
import ClassMetadata.Proofs.ClassFile.Decoded
import ClassMetadata.Proofs.Module.Refusal
import ClassMetadata.Proofs.ClassFile.Delimiting
import ClassMetadata.Proofs.Resolution.Nearest
import ClassMetadata.Proofs.ClassFile.Splitting
import ClassMetadata.Proofs.ClassFile.PoolGrowth
import ClassMetadata.Proofs.Live.Contract
import ClassMetadata.Proofs.Live.Mismatch
import ClassMetadata.Proofs.Live.Equivalence
import ClassMetadata.Proofs.Deferred.Equality
import ClassMetadata.Proofs.Scope
import ClassMetadata.Proofs.Resolution.ShownName
import ClassMetadata.Proofs.Signature.Descent
import ClassMetadata.Proofs.Signature.Agreement
import ClassMetadata.Proofs.Signature.Simulation
import ClassMetadata.Proofs.Signature.Resumption
import ClassMetadata.Proofs.Module.Materialization
import ClassMetadata.Proofs.NamePattern
import ClassMetadata.Proofs.Resolution.Spelling
import ClassMetadata.Proofs.Signature.CallDepth
