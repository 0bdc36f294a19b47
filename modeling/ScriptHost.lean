import ScriptHost.Binding
import ScriptHost.Binding.Protected
import ScriptHost.Binding.Reserved
import ScriptHost.Cache.Lifecycle
import ScriptHost.Cache.Script
import ScriptHost.Change
import ScriptHost.Data
import ScriptHost.Data.Field
import ScriptHost.Data.Json
import ScriptHost.Data.Json.Reader
import ScriptHost.Data.Outline
import ScriptHost.Decimal.Scaled
import ScriptHost.Decimal.Shortest
import ScriptHost.Engine
import ScriptHost.Engine.Association
import ScriptHost.Engine.Descriptor
import ScriptHost.Engine.Registry
import ScriptHost.Engine.Selection
import ScriptHost.Engine.Snapshot
import ScriptHost.Evaluation
import ScriptHost.Glob
import ScriptHost.Glob.Pattern
import ScriptHost.Host
import ScriptHost.Journal
import ScriptHost.NameSet
import ScriptHost.OrderedMap
import ScriptHost.Path
import ScriptHost.Path.Fault
import ScriptHost.Provider
import ScriptHost.Provider.Registry
import ScriptHost.Queue
import ScriptHost.Sample.Engines
import ScriptHost.Sample.Jobs
import ScriptHost.Sample.Providers
import ScriptHost.Sample.Scene
import ScriptHost.Sample.Scene.Description
import ScriptHost.Sample.Tree
import ScriptHost.Scope
import ScriptHost.Scope.Error
import ScriptHost.Script
import ScriptHost.Service
import ScriptHost.Service.Cache
import ScriptHost.Service.Directory
import ScriptHost.Settings
import ScriptHost.Summary
import ScriptHost.Surroundings
import ScriptHost.Template
import ScriptHost.Template.Engine
import ScriptHost.Text.Ascii
import ScriptHost.Text.Hex
import ScriptHost.Text.Index
import ScriptHost.Text.Printable
import ScriptHost.Text.Quoted
import ScriptHost.Text.Space
import ScriptHost.Text.Utf8
import ScriptHost.Toml.Document
import ScriptHost.Toml.Scalar
import ScriptHost.Toml.Table
import ScriptHost.Watch
import ScriptHost.World
import ScriptHost.Proofs.Engine.Precedence
import ScriptHost.Proofs.Engine.Reachable
import ScriptHost.Proofs.Engine.Canonical
import ScriptHost.Proofs.Engine.Atomic
import ScriptHost.Proofs.Engine.Package
import ScriptHost.Proofs.Engine.Ascent
import ScriptHost.Proofs.Engine.Spelling
import ScriptHost.Proofs.Service.Coherence
import ScriptHost.Proofs.Cache.Bare
import ScriptHost.Proofs.Glob.Suffix
import ScriptHost.Proofs.Glob.Watching
import ScriptHost.Proofs.Host.Evaluation
import ScriptHost.Proofs.Host.Execution
import ScriptHost.Proofs.Host.Disposal
import ScriptHost.Proofs.Host.Reports
import ScriptHost.Proofs.Host.Transparent
import ScriptHost.Proofs.World.Handles
import ScriptHost.Proofs.Scope.Reserved
import ScriptHost.Proofs.Cache.Subscriptions
import ScriptHost.Proofs.Cache.Bounded
import ScriptHost.Proofs.Cache.Delivery
import ScriptHost.Proofs.Provider.Buckets
import ScriptHost.Proofs.Provider.Activation
import ScriptHost.Proofs.Provider.Priority
import ScriptHost.Proofs.Cache.Eviction
import ScriptHost.Proofs.Cache.Invalidation
import ScriptHost.Proofs.Queue.Accounting
import ScriptHost.Proofs.Scope.Agreement
import ScriptHost.Proofs.Template.Grammar
import ScriptHost.Proofs.Host.Dispatch
import ScriptHost.Proofs.Provider.Turns
import ScriptHost.Proofs.Host.Compiling
import ScriptHost.Proofs.Host.Closing
import ScriptHost.Proofs.Engine.Collisions
import ScriptHost.Proofs.Template.Composition
import ScriptHost.Proofs.Engine.Forms
import ScriptHost.Proofs.Service.Order
import ScriptHost.Proofs.World.Lookups
