import DalvikFacts.Main
import DalvikFacts.Proofs.Method.Branches
import DalvikFacts.Proofs.Pending
import DalvikFacts.Proofs.Run.Schedule
import DalvikFacts.Tool.Folder
import DalvikFacts.Proofs.Method.Payloads
import DalvikFacts.Proofs.Method.Switches
import DalvikFacts.Proofs.Method.Targets
import DalvikFacts.Proofs.Method.Allocations
import DalvikFacts.Proofs.Method.Fills
import DalvikFacts.Proofs.Hierarchy.History
import DalvikFacts.Proofs.Method.Outputs
import DalvikFacts.Proofs.Method.Statements
import DalvikFacts.Proofs.Method.Told
import DalvikFacts.Proofs.Method.Account
import DalvikFacts.Proofs.Method.Declarations
import DalvikFacts.Proofs.Method.StatementRows
import DalvikFacts.Proofs.Identifier
import DalvikFacts.Proofs.Method.Names
import DalvikFacts.Proofs.Method.Heaps
import DalvikFacts.Proofs.Method.Naming
import DalvikFacts.Proofs.Method.Relocation
import DalvikFacts.Proofs.Method.Displacement
import DalvikFacts.Proofs.Method.Mirrors
import DalvikFacts.Proofs.Method.RelocatedMethods
import DalvikFacts.Proofs.Method.OperandForms
import DalvikFacts.Proofs.References
import DalvikFacts.Proofs.Fact.Files
import DalvikFacts.Proofs.Run.FailFast
import DalvikFacts.Proofs.Class.Members
import DalvikFacts.Proofs.Method.FieldAccesses
import DalvikFacts.Proofs.Run.Account
import DalvikFacts.Proofs.Run.ClassAccount
import DalvikFacts.Proofs.Run.Ending
import DalvikFacts.Proofs.Run.Statistics
import DalvikFacts.Proofs.Run.Repetition
import DalvikFacts.Proofs.Run.FieldRows
import DalvikFacts.Proofs.Hierarchy.Registrations
import DalvikFacts.Proofs.Method.ResultRows
import DalvikFacts.Proofs.Method.HandlerChains
import DalvikFacts.Proofs.Method.HandlerCycles
import DalvikFacts.Proofs.Method.CaughtExceptions
import DalvikFacts.Proofs.Method.ArrayElements
import DalvikFacts.Proofs.Method.EmptyArrays
import DalvikFacts.Proofs.Method.CallingConvention
import DalvikFacts.Proofs.DescriptorText
import DalvikFacts.Proofs.Method.Registers
import DalvikFacts.Proofs.Method.Numbering
import DalvikFacts.Proofs.Method.StatementTypes
import DalvikFacts.Proofs.Hierarchy.DepthFirst
import DalvikFacts.Proofs.Hierarchy.Phantoms
import DalvikFacts.Proofs.Run.Rejection
import DalvikFacts.Proofs.Sharing
import DalvikFacts.Proofs.StringConstant
import DalvikFacts.Proofs.Listing
import DalvikFacts.Proofs.Method.SourceLines
import DalvikFacts.Proofs.Method.NativeSymbols
import DalvikFacts.Proofs.Pending.Conservation
import DalvikFacts.Proofs.PolynomialHash
