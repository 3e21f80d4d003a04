import HardwareTest.Lib.Transition
import HardwareTest.Lib.Utf8
import HardwareTest.Lib.Newline
import HardwareTest.Lib.Json
import HardwareTest.Lib.Base64
import HardwareTest.Lib.Program
import HardwareTest.Lib.Grouped
import HardwareTest.Lib.Partition
import HardwareTest.Lib.Yaml
import HardwareTest.Lib.Template
import HardwareTest.Python.Text
import HardwareTest.Python.TextFile
import HardwareTest.Python.Float
import HardwareTest.Transport.Console
import HardwareTest.Transport.Framing
import HardwareTest.Transport.Preparation
import HardwareTest.Transport.Isolation
import HardwareTest.Transport.Lifecycle
import HardwareTest.Agent.Protocol
import HardwareTest.Agent.SerialAgent
import HardwareTest.Agent.Ownership
import HardwareTest.Agent.Main
import HardwareTest.Agent.Survival
import HardwareTest.Agent.Transfer
import HardwareTest.Transport.SerialAgentChannel
import HardwareTest.Transport.Pairing
import HardwareTest.Transport.RemoteSerial
import HardwareTest.Stand.TestStand
import HardwareTest.Runner.DockerCommands
import HardwareTest.Runner.Reporting
import HardwareTest.Runner.Worker
import HardwareTest.Runner.Service
import HardwareTest.Runner.Rules
import HardwareTest.Runner.Consistency
import HardwareTest.Runner.History
import HardwareTest.Runner.Outcome
import HardwareTest.Runner.Custody
import HardwareTest.Runner.Cancellation
import HardwareTest.Runner.Conduct
import HardwareTest.Runner.Reach
import HardwareTest.Runner.Shutdown
import HardwareTest.Auth.Session
import HardwareTest.Auth.Middleware
import HardwareTest.Auth.Handlers
import HardwareTest.Auth.Provenance
import HardwareTest.Plugin.Selection
import HardwareTest.Equipment.Loader
import HardwareTest.Python.TextFile
import HardwareTest.Runner.EventStream
import HardwareTest.Transport.Login
import HardwareTest.Equipment.Written
import HardwareTest.Runner.Artifacts
import HardwareTest.Runner.Secrets
import HardwareTest.Runner.Requests
import HardwareTest.Auth.Credentials
import HardwareTest.Stand.Factory
import HardwareTest.Plugin.Scenarios
import HardwareTest.Runner.Capture
import HardwareTest.Transport.Echo
import HardwareTest.Runner.Admission
import HardwareTest.Lib.Coroutine
import HardwareTest.Auth.SigningKeys
import HardwareTest.Runner.ArtifactIndex
import HardwareTest.Lib.JsonFile
import HardwareTest.Python.Timestamp
import HardwareTest.Runner.StateStore
import HardwareTest.Transport.PySerial
import HardwareTest.Lib.Properties
import HardwareTest.Plugin.Metadata
import HardwareTest.Plugin.MarkerGrammar
import HardwareTest.Equipment.Failures
import HardwareTest.Lib.Rounding
import HardwareTest.Python.Shortest
import HardwareTest.Lib.JsonText
import HardwareTest.Lib.EventSource
import HardwareTest.Runner.EventFraming
import HardwareTest.Transport.Agreement
import HardwareTest.Transport.Concealment
import HardwareTest.Lib.FileTree
import HardwareTest.Lib.Threads
import HardwareTest.Plugin.RunDirectory
import HardwareTest.Plugin.Sessions
import HardwareTest.Lib.Shell
import HardwareTest.Transport.CommandLines
import HardwareTest.Transport.Evaluation
import HardwareTest.Lib.Monitor
import HardwareTest.Transport.Synchronized
import HardwareTest.Lib.UrlForm
import HardwareTest.Lib.RelyGuarantee
import HardwareTest.Auth.OidcFlow
import HardwareTest.Runner.Page
import HardwareTest.Agent.Release
import HardwareTest.Runner.Completion
import HardwareTest.Stand.BuiltinFactories
import HardwareTest.Transport.Holding
import HardwareTest.Stand.Session
import HardwareTest.Lib.Options
import HardwareTest.Runner.Containers
import HardwareTest.Runner.Dispatch
