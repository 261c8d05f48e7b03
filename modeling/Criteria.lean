import Criteria.Json.Reader
import Criteria.Condition.Reader
import Criteria.Condition.Wire
import Criteria.Naming.Pool
import Criteria.Facade
import Criteria.Engine.Memory
import Criteria.Settings.File
import Criteria.Proofs.Lists
import Criteria.Proofs.OrderedMap
import Criteria.Proofs.Naming
import Criteria.Proofs.Condition
import Criteria.Proofs.Normal
import Criteria.Proofs.Regrouping
import Criteria.Proofs.Truth
import Criteria.Proofs.Compilation
import Criteria.Proofs.Assembly
import Criteria.Proofs.Simulation
import Criteria.Proofs.WireForm
import Criteria.Proofs.Spelling
import Criteria.Proofs.Acceptance
import Criteria.Proofs.Pool
import Criteria.Proofs.Grammar
import Criteria.Proofs.Rendering
import Criteria.Proofs.Canonical
import Criteria.Proofs.Independence
import Criteria.Proofs.Placeholders
import Criteria.Proofs.EmptyGroups
import Criteria.Proofs.Renaming
import Criteria.Proofs.Composition
import Criteria.Proofs.Counting
import Criteria.Proofs.Rewriting
import Criteria.Proofs.Rebinding
import Criteria.Proofs.Record
import Criteria.Proofs.Keying
import Criteria.Proofs.Writing
import Criteria.Proofs.Tables
import Criteria.Proofs.LiteralList
import Criteria.Proofs.Membership
import Criteria.Proofs.ReadSearches
import Criteria.Proofs.StepOrder
import Criteria.Proofs.Uuid
import Criteria.Proofs.Identifier
import Criteria.Proofs.Schema
import Criteria.Proofs.Lookup
import Criteria.Proofs.Selection
import Criteria.Proofs.ExtrasForm
import Criteria.Proofs.Environment
