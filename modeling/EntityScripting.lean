import EntityScripting.Config.Basic
import EntityScripting.Entity.Basic
import EntityScripting.Entity.Field
import EntityScripting.Files.Basic
import EntityScripting.Files.Tree
import EntityScripting.Game.Basic
import EntityScripting.Game.Level
import EntityScripting.Game.MapEntity
import EntityScripting.Game.Primitive
import EntityScripting.Game.Use
import EntityScripting.Json.Basic
import EntityScripting.Json.Printer
import EntityScripting.Json.Reader
import EntityScripting.Logged
import EntityScripting.Main
import EntityScripting.Memory
import EntityScripting.Number.Binary
import EntityScripting.Number.Decimal
import EntityScripting.Number.Double
import EntityScripting.Number.Notation
import EntityScripting.Number.Numeral
import EntityScripting.Number.Word
import EntityScripting.Pool.Basic
import EntityScripting.Pool.Handle
import EntityScripting.Proofs.Game.Relay
import EntityScripting.Proofs.Game.Session
import EntityScripting.Proofs.Game.TriggerContext
import EntityScripting.Proofs.Game.Use
import EntityScripting.Proofs.Number.Pattern
import EntityScripting.Proofs.Number.Rounding
import EntityScripting.Proofs.Number.Shortest
import EntityScripting.Proofs.Pool.Handle
import EntityScripting.Proofs.Pool.Operation
import EntityScripting.Proofs.Script.Allocation
import EntityScripting.Proofs.Script.Confinement
import EntityScripting.Proofs.Script.DeepFreeze
import EntityScripting.Proofs.Script.Execution
import EntityScripting.Proofs.Script.Freeze
import EntityScripting.Proofs.Script.Heap
import EntityScripting.Proofs.SortedMap
import EntityScripting.Runner.Arguments
import EntityScripting.Runner.Basic
import EntityScripting.Script.Argument
import EntityScripting.Script.Arithmetic
import EntityScripting.Script.Builtin
import EntityScripting.Script.Evaluation
import EntityScripting.Script.Execution
import EntityScripting.Script.Grammar
import EntityScripting.Script.Heap
import EntityScripting.Script.Library.Base
import EntityScripting.Script.Library.Engine
import EntityScripting.Script.Library.Math
import EntityScripting.Script.Library.Table
import EntityScripting.Script.Library.Text
import EntityScripting.Script.Numeral
import EntityScripting.Script.Operation
import EntityScripting.Script.Program
import EntityScripting.Script.Range
import EntityScripting.Script.Routine
import EntityScripting.Script.Token
import EntityScripting.Script.Value
import EntityScripting.Script.WellFormed
import EntityScripting.ScriptError
import EntityScripting.SortedMap
import EntityScripting.Text.Ascii
import EntityScripting.Text.Blank
import EntityScripting.Text.Quoted
import EntityScripting.Text.Utf8
import EntityScripting.TextPool
import EntityScripting.TriggerStack
import EntityScripting.Variable.Codec
import EntityScripting.Variable.Saved
import EntityScripting.Variable.Table
import EntityScripting.Vec3
import EntityScripting.Proofs.Number.Numeral
import EntityScripting.Proofs.Number.FloatText
import EntityScripting.Proofs.Variable.Codec
import EntityScripting.Proofs.Pool.Action
import EntityScripting.Proofs.Variable.Table
import EntityScripting.Proofs.Game.SavedGame
import EntityScripting.Proofs.Number.Clock
import EntityScripting.Proofs.Pool.Deadline
import EntityScripting.Proofs.Game.Timeline
import EntityScripting.Proofs.Game.Errand
import EntityScripting.Proofs.Game.DelayedAction
import EntityScripting.Proofs.Game.RelayCycle
import EntityScripting.Proofs.Script.Trace
import EntityScripting.Proofs.Game.Trace
import EntityScripting.Proofs.Script.Namespace
import EntityScripting.Proofs.Game.GlobalNames
import EntityScripting.Proofs.Variable.History
import EntityScripting.Proofs.Game.Variables
import EntityScripting.Proofs.Number.Gap
import EntityScripting.Proofs.Pool.Ripe
import EntityScripting.Proofs.Game.Deferral
import EntityScripting.Proofs.Script.Order
import EntityScripting.Proofs.Script.Transparency
import EntityScripting.Proofs.Game.Frame
import EntityScripting.Proofs.Game.Calls
import EntityScripting.Proofs.Game.LevelState
import EntityScripting.Proofs.Game.Spanning
import EntityScripting.Proofs.Game.Recycling
import EntityScripting.Proofs.Pool.Vacancy
import EntityScripting.Proofs.Pool.Living
import EntityScripting.Proofs.Pool.Layout
import EntityScripting.Proofs.Game.Entry
import EntityScripting.Proofs.Script.Ending
import EntityScripting.Proofs.Game.Method
import EntityScripting.Proofs.Game.Refusal
import EntityScripting.Proofs.Game.StaleHandle
import EntityScripting.Proofs.Pool.Credit
import EntityScripting.Proofs.Pool.Deed
import EntityScripting.Proofs.Game.KillCount
import EntityScripting.Proofs.Game.RelayTargets
import EntityScripting.Proofs.Runner.Firing
import EntityScripting.Proofs.Text.Utf8
import EntityScripting.Proofs.Game.VariableAccess
import EntityScripting.Proofs.Script.Leading
import EntityScripting.Proofs.Script.ListFunction
import EntityScripting.Proofs.Variable.Restore
import EntityScripting.Proofs.Entity.Conversion
import EntityScripting.Proofs.Entity.Field
import EntityScripting.Proofs.Game.FieldWrite
import EntityScripting.Proofs.Game.IntegerEntry
import EntityScripting.Proofs.Game.Restoring
import EntityScripting.Proofs.Text.Order
import EntityScripting.Proofs.TextPool
import EntityScripting.Proofs.Memory
import EntityScripting.Proofs.Script.FreezeRun
import EntityScripting.Proofs.Pool.Inventory
import EntityScripting.Proofs.Game.Inventory
import EntityScripting.Proofs.Script.Grounding
import EntityScripting.Proofs.Script.Library
import EntityScripting.Proofs.Script.Evaluation
import EntityScripting.Proofs.Game.Heaps
